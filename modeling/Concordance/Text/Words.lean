import Concordance.Text.WordBreak

set_option relaxedAutoImplicit false
set_option autoImplicit false

/-!
# Words of a text

A text is cut at the word boundaries of the Unicode text segmentation standard, and the pieces
that hold a letter or a numeral are its words. The cut is made by one scan: a word under way is
in a state (`Scan`), and each further character joins it, leaves it, or shows that the word had
already ended at a sign over which it was carried tentatively, as at the apostrophe of `can'` in
`can' t`.

## Main definitions

* `Concordance.Text.Scan` — the state of a word under way.
* `Concordance.Text.Scan.extent` — how many of the characters that follow belong to the word.
* `Concordance.Text.segments` — the pieces of a text.
* `Concordance.Text.words` — its words, each with its byte offset.
-/

namespace Concordance.Text

/-- The state of a word under way, named for its last character that is not a mark. -/
inductive Scan
  | letter
  | hebrew
  | numeric
  | katakana
  | connector
  | space
  | joiner
  | pictograph
  /-- One half of a flag. -/
  | halfFlag
  | flag
  /-- A character that joins with nothing but the marks after it. -/
  | lone
  /-- A Hebrew letter and an apostrophe, which stays with it whatever follows. -/
  | hebrewQuote
  /-- A sign that joins the word if a letter follows. -/
  | wantLetter
  /-- A sign that joins the word if a Hebrew letter follows. -/
  | wantHebrew
  /-- A sign that joins the word if a digit follows. -/
  | wantDigit
  deriving DecidableEq, Repr

/-- Whether the last sign belongs to the word only if the right character follows. -/
def Scan.tentative : Scan → Bool
  | .wantLetter | .wantHebrew | .wantDigit => true
  | _ => false

/-- The state after the first character of a word. -/
def Scan.start : WordBreak → Scan
  | .letter => .letter
  | .hebrew => .hebrew
  | .numeric => .numeric
  | .katakana => .katakana
  | .extendNumLet => .connector
  | .regional => .halfFlag
  | .joiner => .joiner
  | .space => .space
  | _ => .lone

/-- The state after one more character, or `none` when that character does not join.
`afterMark` tells whether marks stand between the two, which keeps spaces apart. -/
def Scan.next (afterMark : Bool) : Scan → WordBreak → Option Scan
  | .letter, .letter | .hebrew, .letter => some .letter
  | .letter, .hebrew | .hebrew, .hebrew => some .hebrew
  | .letter, .numeric | .hebrew, .numeric => some .numeric
  | .letter, .extendNumLet | .hebrew, .extendNumLet => some .connector
  | .hebrew, .doubleQuote => some .wantHebrew
  | .hebrew, .singleQuote => some .hebrewQuote
  | .letter, .midLetter | .letter, .midNumLet | .letter, .singleQuote => some .wantLetter
  | .hebrew, .midLetter | .hebrew, .midNumLet => some .wantLetter
  | .numeric, .numeric => some .numeric
  | .numeric, .letter => some .letter
  | .numeric, .hebrew => some .hebrew
  | .numeric, .extendNumLet => some .connector
  | .numeric, .midNum | .numeric, .midNumLet | .numeric, .singleQuote => some .wantDigit
  | .katakana, .katakana => some .katakana
  | .katakana, .extendNumLet => some .connector
  | .connector, .extendNumLet => some .connector
  | .connector, .letter => some .letter
  | .connector, .hebrew => some .hebrew
  | .connector, .numeric => some .numeric
  | .connector, .katakana => some .katakana
  | .space, .space => if afterMark then none else some .space
  | .halfFlag, .regional => some .flag
  | .hebrewQuote, .letter | .wantLetter, .letter => some .letter
  | .hebrewQuote, .hebrew | .wantLetter, .hebrew | .wantHebrew, .hebrew => some .hebrew
  | .wantDigit, .numeric => some .numeric
  | _, _ => none

/-- Marks, format controls and joiners belong to the character before them. -/
def WordBreak.hangs : WordBreak → Bool
  | .extend | .format | .joiner => true
  | _ => false

/-- How many of the characters that follow belong to a word under way. `taken` of them are
already counted, `safe` of them were when the last tentative sign was met, and `afterJoiner`
tells whether the last one was a joiner, which binds a pictograph to the word. -/
def Scan.extent (state : Scan) (afterMark afterJoiner : Bool) (taken safe : Nat) :
    List Char → Nat
  | [] => if state.tentative then safe else taken
  | c :: rest =>
    let cls := WordBreak.of c
    if cls.hangs then state.extent true (cls == .joiner) (taken + 1) safe rest
    else if afterJoiner && isPictograph c then
      Scan.extent .pictograph afterMark false (taken + 1) safe rest
    else match state.next afterMark cls with
      | some state' =>
        state'.extent afterMark false (taken + 1) (if state'.tentative then taken else safe) rest
      | none => if state.tentative then safe else taken

/-- How many characters after `first` belong to the same piece as it. Line breaks stand alone,
but a carriage return takes the line feed after it. -/
def extentAfter (first : Char) (rest : List Char) : Nat :=
  match WordBreak.of first with
  | .carriageReturn => if rest.head?.map WordBreak.of == some .lineFeed then 1 else 0
  | .lineFeed | .newline => 0
  | cls => (Scan.start cls).extent false (cls == .joiner) 0 0 rest

/-- The pieces between the word boundaries of a text. -/
def segments : List Char → List (List Char)
  | [] => []
  | c :: rest =>
    let extent := extentAfter c rest
    (c :: rest.take extent) :: segments (rest.drop extent)
  termination_by text => text.length
  decreasing_by simp only [List.length_drop, List.length_cons]; omega

/-- The number of bytes that characters take. -/
def byteLength (text : List Char) : Nat := text.foldl (fun length c => length + c.utf8Size) 0

/-- Pieces with their byte offsets, the first of them at `offset`. -/
def withOffsets (offset : Nat) : List (List Char) → List (Nat × List Char)
  | [] => []
  | piece :: rest => (offset, piece) :: withOffsets (offset + byteLength piece) rest

/-- The words of a text: its pieces that hold a letter or a numeral, with their byte offsets. -/
def words (text : String) : List (Nat × List Char) :=
  (withOffsets 0 (segments text.toList)).filter fun word => word.2.any isAlphanumeric

end Concordance.Text
