import Concordance.Error
import Concordance.Text.Letters

set_option relaxedAutoImplicit false
set_option autoImplicit false

/-!
# Lexemes of the query language

A query text is cut into parentheses, words and phrases. Quotes without a partner and the word
`AND` between parts say nothing and leave no lexeme.

## Main definitions

* `Concordance.Lexeme` — the lexemes.
* `Concordance.Lexeme.read` — the lexeme at the start of a text.
* `Concordance.Lexeme.lex` — the lexemes of a text.

## Main results

* `Concordance.Lexeme.length_lt_of_read` — reading a lexeme makes the text shorter.
-/

namespace Concordance

/-- A lexeme of the query language. -/
inductive Lexeme
  /-- An opening parenthesis, with or without a negation in front. -/
  | opening (negated : Bool)
  | closing
  /-- The word that makes a group match if any of its parts does. -/
  | or
  | word (text : String)
  | phrase (field : Option String) (text : String)
  deriving DecidableEq, Repr

namespace Lexeme

/-- Whether a character can stand in the field name before a phrase. -/
def isFieldChar (c : Char) : Bool := Text.isAlphanumeric c || c == '_' || c == '*'

/-- Whether a character can stand in a word. -/
def isWordChar (c : Char) : Bool :=
  !Text.isBlank c && !(c == '(' || c == ')' || c == '"' || c == '\'')

/-- A field name with a colon behind it, and what follows. -/
def readField? (text : List Char) : Option (List Char × List Char) :=
  match text.takeWhile isFieldChar, text.dropWhile isFieldChar with
  | c :: name, ':' :: rest => some (c :: name, rest)
  | _, _ => none

/-- A text between double quotes, and what follows. -/
def readQuoted? : List Char → Option (List Char × List Char)
  | '"' :: text =>
    match text.dropWhile (· ≠ '"') with
    | _ :: rest => some (text.takeWhile (· ≠ '"'), rest)
    | [] => none
  | _ => none

/-- A phrase, with or without a field name, and what follows. -/
def readPhrase? (text : List Char) : Option (Lexeme × List Char) :=
  match readField? text with
  | some (name, rest) =>
    (readQuoted? rest).map fun (inner, rest) =>
      (phrase (some (String.ofList name)) (String.ofList inner), rest)
  | none =>
    (readQuoted? text).map fun (inner, rest) => (phrase none (String.ofList inner), rest)

/-- The lexeme of a word, if it is not the word that says nothing. -/
def ofWord? (chars : List Char) : Option Lexeme :=
  if chars = "AND".toList then none
  else if chars = "OR".toList then some or
  else some (word (String.ofList chars))

/-- A word, and what follows. -/
def readWord? (text : List Char) : Option (Option Lexeme × List Char) :=
  match text.takeWhile isWordChar with
  | [] => none
  | c :: rest => some (ofWord? (c :: rest), text.dropWhile isWordChar)

/-- The lexeme at the start of a text that does not start with a blank, if there is something to
say, and what follows. -/
def read (text : List Char) : Option (Option Lexeme × List Char) :=
  match text with
  | 'N' :: 'O' :: 'T' :: '(' :: rest => some (some (opening true), rest)
  | '(' :: rest => some (some (opening false), rest)
  | ')' :: rest => some (some closing, rest)
  | text =>
    match readPhrase? text with
    | some (lexeme, rest) => some (some lexeme, rest)
    | none =>
      match text with
      | '"' :: rest | '\'' :: rest => some (none, rest)
      | text => readWord? text

/-- What is left behind the first characters of a kind is no longer than the text. -/
theorem length_dropWhile_le {α : Type} (p : α → Bool) (l : List α) :
    (l.dropWhile p).length ≤ l.length :=
  (List.dropWhile_sublist p).length_le

/-- If the first characters of a kind are some, what is left behind them is shorter. -/
theorem length_dropWhile_lt {α : Type} {p : α → Bool} {l : List α} (h : l.takeWhile p ≠ []) :
    (l.dropWhile p).length < l.length := by
  have hsum := congrArg List.length (List.takeWhile_append_dropWhile (p := p) (l := l))
  have hpos := List.length_pos_iff.2 h
  rw [List.length_append] at hsum
  omega

/-- What follows a field name is shorter than the text. -/
theorem length_lt_of_readField {text name rest : List Char}
    (h : readField? text = some (name, rest)) : rest.length < text.length := by
  unfold readField? at h
  split at h
  · next heq =>
    injection h with h
    injection h with _ hrest
    subst hrest
    have hle := length_dropWhile_le isFieldChar text
    rw [heq, List.length_cons] at hle
    omega
  · cases h

/-- What follows a quoted text is shorter than the text.

**Proof sketch.** A quoted text is its first quote, characters that are none, and the second quote,
so at least the two quotes are taken off. -/
theorem length_lt_of_readQuoted {text inner rest : List Char}
    (h : readQuoted? text = some (inner, rest)) : rest.length < text.length := by
  unfold readQuoted? at h
  split at h
  · next tail =>
    split at h
    · next heq =>
      injection h with h
      injection h with _ hrest
      subst hrest
      have hle := length_dropWhile_le (fun c => decide (c ≠ '"')) tail
      rw [heq, List.length_cons] at hle
      rw [List.length_cons]
      omega
    · cases h
  · cases h

/-- What follows a phrase is shorter than the text. -/
theorem length_lt_of_readPhrase {text rest : List Char} {lexeme : Lexeme}
    (h : readPhrase? text = some (lexeme, rest)) : rest.length < text.length := by
  unfold readPhrase? at h
  split at h
  · next hfield =>
    obtain ⟨⟨inner, rest'⟩, hquoted, heq⟩ := Option.map_eq_some_iff.1 h
    injection heq with _ hrest
    subst hrest
    exact Nat.lt_trans (length_lt_of_readQuoted hquoted) (length_lt_of_readField hfield)
  · obtain ⟨⟨inner, rest'⟩, hquoted, heq⟩ := Option.map_eq_some_iff.1 h
    injection heq with _ hrest
    subst hrest
    exact length_lt_of_readQuoted hquoted

/-- What follows a word is shorter than the text. -/
theorem length_lt_of_readWord {text rest : List Char} {lexeme : Option Lexeme}
    (h : readWord? text = some (lexeme, rest)) : rest.length < text.length := by
  unfold readWord? at h
  split at h
  · cases h
  · next heq =>
    injection h with h
    injection h with _ hrest
    subst hrest
    exact length_dropWhile_lt (by rw [heq]; exact List.cons_ne_nil _ _)

/-- Reading a lexeme makes the text shorter. -/
theorem length_lt_of_read {text rest : List Char} {lexeme : Option Lexeme}
    (h : read text = some (lexeme, rest)) : rest.length < text.length := by
  unfold read at h
  split at h
  · cases h; simp only [List.length_cons]; omega
  · cases h; simp only [List.length_cons]; omega
  · cases h; simp only [List.length_cons]; omega
  · split at h
    · next hphrase => cases h; exact length_lt_of_readPhrase hphrase
    · split at h
      · cases h; simp only [List.length_cons]; omega
      · cases h; simp only [List.length_cons]; omega
      · exact length_lt_of_readWord h

/-- A text without the blanks in front. -/
def skipBlanks (text : List Char) : List Char := text.dropWhile Text.isBlank

/-- What follows the first lexeme behind blanks is shorter than the text. -/
theorem length_lt_of_read_skipBlanks {text rest : List Char} {lexeme : Option Lexeme}
    (h : read (skipBlanks text) = some (lexeme, rest)) : rest.length < text.length :=
  Nat.lt_of_lt_of_le (length_lt_of_read h) (length_dropWhile_le _ _)

/-- The lexemes of a text; nothing if one of its parts is no lexeme. -/
def readAll? (text : List Char) : Option (List Lexeme) :=
  if skipBlanks text = [] then some []
  else match h : read (skipBlanks text) with
    | none => none
    | some (lexeme, rest) =>
      have := length_lt_of_read_skipBlanks h
      (readAll? rest).map (lexeme.toList ++ ·)
  termination_by text.length

/-- The lexemes of a text. -/
def lex (text : String) : Except Error (List Lexeme) :=
  match readAll? text.toList with
  | some lexemes => .ok lexemes
  | none => .error (.untokenizableQuery text)

end Lexeme

end Concordance
