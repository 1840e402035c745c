import Concordance.Proofs.Query.RoundTrip

set_option relaxedAutoImplicit false
set_option autoImplicit false

/-!
# Every text is made of lexemes

No text is refused: wherever it goes on, and not with a blank, it goes on with a parenthesis, a
phrase, a quote or a word. So a text is cut to its end into pieces that spell a lexeme or nothing,
with blanks between them.

## Main definitions

* `Concordance.Lexeme.Piece` — a piece of a text, and the lexeme that it spells.
* `Concordance.Lexeme.Cuts` — a text is made of pieces and blanks.
* `Concordance.Lexeme.IsProper` — what the words and phrases of a text are made of.

## Main results

* `Concordance.Lexeme.exists_piece_of_read` — what is read is a piece.
* `Concordance.Lexeme.exists_read` — something is read where no blank stands.
* `Concordance.Lexeme.exists_readAll` — every text is cut into lexemes.
* `Concordance.Lexeme.Cuts.isProper` — the lexemes of a text are proper.
-/

namespace Concordance.Lexeme

variable {text rest piece : List Char} {lexeme : Option Lexeme}

/-- A piece of text that spells a lexeme, or nothing: a parenthesis, a quote without a partner, a
word, or a phrase without or with a field name. -/
inductive Piece : List Char → Option Lexeme → Prop
  | opening (negated : Bool) : Piece (openingText negated) (some (opening negated))
  | closing : Piece [')'] (some closing)
  | quote {c : Char} (h : c = '"' ∨ c = '\'') : Piece [c] none
  | word {word : List Char} (hne : word ≠ []) (hword : ∀ c ∈ word, isWordChar c) :
    Piece word (ofWord? word)
  | phrase {inner : List Char} (hinner : '"' ∉ inner) :
    Piece ('"' :: (inner ++ ['"'])) (some (phrase none (String.ofList inner)))
  | fieldPhrase {name inner : List Char} (hne : name ≠ []) (hname : ∀ c ∈ name, isFieldChar c)
    (hinner : '"' ∉ inner) : Piece (name ++ ':' :: '"' :: (inner ++ ['"']))
      (some (phrase (some (String.ofList name)) (String.ofList inner)))

/-- A text is made of pieces, with blanks before each of them and at the end, and of nothing else.
The pieces spell given lexemes. -/
inductive Cuts : List Char → List Lexeme → Prop
  | nil {blanks : List Char} (hblanks : ∀ c ∈ blanks, Text.isBlank c) : Cuts blanks []
  | cons {blanks piece rest : List Char} {lexeme : Option Lexeme} {lexemes : List Lexeme}
    (hblanks : ∀ c ∈ blanks, Text.isBlank c) (hpiece : Piece piece lexeme)
    (h : Cuts rest lexemes) : Cuts (blanks ++ (piece ++ rest)) (lexeme.toList ++ lexemes)

/-! ## What is read -/

/-- The name in front of a colon is never empty. -/
lemma ne_nil_of_readField {name : List Char} (h : readField? text = some (name, rest)) :
    name ≠ [] := by
  unfold readField? at h
  split at h
  · obtain ⟨rfl, -⟩ := Prod.mk.inj (Option.some.inj h)
    exact List.cons_ne_nil _ _
  · cases h

/-- A text between quotes, in front of a text.

**Proof sketch.** The text goes on to the first quote, since the characters before it are none and
the one behind them is. -/
lemma readQuoted_spec {inner : List Char} (h : readQuoted? text = some (inner, rest)) :
    '"' ∉ inner ∧ text = '"' :: (inner ++ ['"']) ++ rest := by
  unfold readQuoted? at h
  split at h
  · next tail =>
    split at h
    · next c rest' hdrop =>
      obtain ⟨rfl, rfl⟩ := Prod.mk.inj (Option.some.inj h)
      -- what ends the text between the quotes is a quote
      have hhead := List.head?_dropWhile_not (fun c => decide (c ≠ '"')) tail
      rw [hdrop] at hhead
      obtain rfl : c = '"' := by simpa using hhead
      have hsplit : tail = tail.takeWhile (fun c => decide (c ≠ '"')) ++ '"' :: rest' := by
        rw [← hdrop, List.takeWhile_append_dropWhile]
      refine ⟨fun hmem => ?_, ?_⟩
      · have hne := List.mem_takeWhile_imp hmem
        exact absurd rfl (of_decide_eq_true hne)
      · rw [List.cons_append, List.append_assoc, List.singleton_append, ← hsplit]
    · cases h
  · cases h

/-- A phrase that is read is a piece in front of the rest.

**Proof sketch.** By whether the phrase has a field in front. The text is the field, if any, with
the quoted phrase behind it. -/
lemma exists_piece_of_readPhrase {found : Lexeme} (h : readPhrase? text = some (found, rest)) :
    ∃ piece, text = piece ++ rest ∧ Piece piece (some found) := by
  unfold readPhrase? at h
  split at h
  · next name after hfield =>
    obtain ⟨⟨inner, rest'⟩, hquoted, heq⟩ := Option.map_eq_some_iff.1 h
    obtain ⟨rfl, rfl⟩ := Prod.mk.inj heq
    obtain ⟨hname, htext⟩ := readField_spec hfield
    obtain ⟨hinner, hafter⟩ := readQuoted_spec hquoted
    refine ⟨_, ?_, .fieldPhrase (ne_nil_of_readField hfield) hname hinner⟩
    rw [htext, hafter]
    simp
  · obtain ⟨⟨inner, rest'⟩, hquoted, heq⟩ := Option.map_eq_some_iff.1 h
    obtain ⟨rfl, rfl⟩ := Prod.mk.inj heq
    obtain ⟨hinner, htext⟩ := readQuoted_spec hquoted
    exact ⟨_, htext, .phrase hinner⟩

/-- A word that is read is a piece in front of the rest. -/
lemma exists_piece_of_readWord (h : readWord? text = some (lexeme, rest)) :
    ∃ piece, text = piece ++ rest ∧ Piece piece lexeme := by
  unfold readWord? at h
  split at h
  · cases h
  · next c word htake =>
    obtain ⟨rfl, rfl⟩ := Prod.mk.inj (Option.some.inj h)
    refine ⟨c :: word, ?_, .word (List.cons_ne_nil _ _) fun d hd => ?_⟩
    · rw [← htake, List.takeWhile_append_dropWhile]
    · exact List.mem_takeWhile_imp (htake ▸ hd)

/-- **What is read is a piece** in front of the rest.

**Proof sketch.** By the first characters of the text: a parenthesis with or without a minus, or
else a phrase, a quote without a partner, or a word. -/
theorem exists_piece_of_read (h : read text = some (lexeme, rest)) :
    ∃ piece, text = piece ++ rest ∧ Piece piece lexeme := by
  unfold read at h
  split at h
  · cases h
    exact ⟨_, rfl, .opening true⟩
  · cases h
    exact ⟨_, rfl, .opening false⟩
  · cases h
    exact ⟨_, rfl, .closing⟩
  · split at h
    · next hphrase =>
      cases h
      exact exists_piece_of_readPhrase hphrase
    · split at h
      · cases h
        exact ⟨_, rfl, .quote (.inl rfl)⟩
      · cases h
        exact ⟨_, rfl, .quote (.inr rfl)⟩
      · exact exists_piece_of_readWord h

/-- **Something is read** where no blank stands: a character that is neither a blank nor a
parenthesis nor a quote starts a word.

**Proof sketch.** If the first character is neither a parenthesis nor a quote nor blank, it is a
word character. -/
theorem exists_read {c : Char} (hblank : Text.isBlank c = false) (text : List Char) :
    ∃ lexeme rest, read (c :: text) = some (lexeme, rest) := by
  unfold read
  split
  · exact ⟨_, _, rfl⟩
  · exact ⟨_, _, rfl⟩
  · exact ⟨_, _, rfl⟩
  · next hopening hclosing =>
    split
    · exact ⟨_, _, rfl⟩
    · split
      · exact ⟨_, _, rfl⟩
      · exact ⟨_, _, rfl⟩
      · next hdouble hsingle =>
        have hword : isWordChar c = true := by
          unfold isWordChar
          rw [hblank, Bool.not_false, Bool.true_and, Bool.not_eq_true']
          simp only [Bool.or_eq_false_iff, beq_eq_false_iff_ne]
          refine ⟨⟨⟨?_, ?_⟩, ?_⟩, ?_⟩
          · rintro rfl
            exact hopening _ rfl
          · rintro rfl
            exact hclosing _ rfl
          · rintro rfl
            exact hdouble _ rfl
          · rintro rfl
            exact hsingle _ rfl
        unfold readWord?
        rw [List.takeWhile_cons_of_pos hword]
        exact ⟨_, _, rfl⟩

/-! ## Whole texts -/

/-- **Every text is cut into lexemes**, to its end.

**Proof sketch.** Induction on the length of the text. Blanks are skipped; behind them something is
read, which is a piece in front of a shorter rest. -/
theorem exists_readAll (text : List Char) :
    ∃ lexemes, readAll? text = some lexemes ∧ Cuts text lexemes := by
  induction hlength : text.length using Nat.strong_induction_on generalizing text with
  | _ n ih =>
    have hblanks : ∀ c ∈ text.takeWhile Text.isBlank, Text.isBlank c :=
      fun c hc => List.mem_takeWhile_imp hc
    have hsplit : text = text.takeWhile Text.isBlank ++ skipBlanks text :=
      List.takeWhile_append_dropWhile.symm
    cases hskip : skipBlanks text with
    | nil =>
      rw [hskip, List.append_nil] at hsplit
      rw [readAll_eq, hskip]
      exact ⟨[], if_pos rfl, hsplit ▸ .nil hblanks⟩
    | cons c tail =>
      have hblank : Text.isBlank c = false := by
        have hhead := List.head?_dropWhile_not Text.isBlank text
        rw [skipBlanks] at hskip
        rw [hskip] at hhead
        simpa using hhead
      obtain ⟨lexeme, rest, hread⟩ := exists_read hblank tail
      obtain ⟨piece, hpiece, hspells⟩ := exists_piece_of_read hread
      have hshorter : rest.length < n := by
        rw [← hlength]
        exact length_lt_of_read_skipBlanks (hskip ▸ hread)
      obtain ⟨lexemes, hrest, hcuts⟩ := ih _ hshorter rest rfl
      refine ⟨lexeme.toList ++ lexemes, ?_, ?_⟩
      · rw [readAll_of_read hskip hread, hrest, Option.map_some]
      · rw [hsplit, hskip, hpiece]
        exact .cons hblanks hspells hcuts

/-! ## Proper lexemes -/

/-- The characters of a word all belong in words, and there are some. A phrase holds no double
quotes. -/
def IsProper : Lexeme → Prop
  | .word text => Query.IsWord text
  | .phrase _ text => '"' ∉ text.toList
  | _ => True

/-- Characters that belong in words, and some of them, make a word. -/
lemma isWord_ofList {word : List Char} (hne : word ≠ []) (hword : ∀ c ∈ word, isWordChar c) :
    Query.IsWord (String.ofList word) := by
  refine ⟨fun hempty => hne ?_, ?_⟩
  · rw [← String.toList_ofList (l := word), hempty]
    rfl
  · rwa [String.toList_ofList]

/-- A word of word characters is a proper lexeme, or none. -/
lemma isProper_of_ofWord {word : List Char} {found : Lexeme} (hne : word ≠ [])
    (hword : ∀ c ∈ word, isWordChar c) (h : ofWord? word = some found) : found.IsProper := by
  unfold ofWord? at h
  split at h
  · cases h
  · split at h
    · cases h
      trivial
    · cases h
      exact isWord_ofList hne hword

/-- The lexeme that a piece spells is proper.

**Proof sketch.** By the kinds of pieces: a word is proper because it is one that can be read, a
phrase because it has no quote. -/
lemma Piece.isProper {found : Lexeme} (h : Piece piece lexeme) (hfound : lexeme = some found) :
    found.IsProper := by
  cases h with
  | opening negated =>
    cases hfound
    trivial
  | closing =>
    cases hfound
    trivial
  | quote => cases hfound
  | word hne hword => exact isProper_of_ofWord hne hword hfound
  | phrase hinner =>
    cases hfound
    rwa [IsProper, String.toList_ofList]
  | fieldPhrase hne hname hinner =>
    cases hfound
    rwa [IsProper, String.toList_ofList]

/-- **The lexemes of a text are proper.** -/
theorem Cuts.isProper {lexemes : List Lexeme} (h : Cuts text lexemes) :
    ∀ lexeme ∈ lexemes, lexeme.IsProper := by
  induction h with
  | nil hblanks => exact List.forall_mem_nil _
  | cons hblanks hpiece h ih =>
    refine List.forall_mem_append.2 ⟨fun found hfound => ?_, ih⟩
    exact hpiece.isProper (Option.mem_toList.1 hfound)

end Concordance.Lexeme
