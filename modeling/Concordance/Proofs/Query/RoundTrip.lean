import Concordance.Query.Display
import Concordance.Query.Parser
import Mathlib.Data.List.TakeWhile

set_option relaxedAutoImplicit false
set_option autoImplicit false

/-!
# Reading what was written

A query in writing is read back as the same query, unless it holds something that the query language
cannot say. Its written form is cut into pieces, each of which spells some lexemes whatever follows,
as long as that does not go on with a word. The lexemes of a query add the query to the group under
way.

## Main definitions

* `Concordance.Query.Writable` — the queries that the query language can say.
* `Concordance.Lexeme.Spells` — a text is cut into given lexemes, whatever follows.
* `Concordance.Query.lexemes` — the lexemes of a query in writing.

## Main results

* `Concordance.Lexeme.read_word` — a word is read as such, never as a phrase or a negation.
* `Concordance.Query.spells_render` — a query in writing spells its lexemes.
* `Concordance.Query.foldl_step_lexemes` — the lexemes of a query add it to the group under way.
* `Concordance.Query.parse_toText` — a query is read back from its written form.
-/

namespace Concordance

/-! ## Characters -/

/-- A number in some ranges lies in one of them. -/
lemma Text.Ranges.exists_of_contains {ranges : Ranges} {n : Nat} (h : ranges.contains n) :
    ∃ range ∈ ranges, range.1 ≤ n ∧ n ≤ range.2 := by
  induction ranges with
  | nil => cases h
  | cons range ranges ih =>
    obtain ⟨low, high⟩ := range
    rw [Ranges.contains] at h
    split at h
    · cases h
    · next hlow =>
      rcases Bool.or_eq_true_iff.1 h with hhigh | hrest
      · exact ⟨_, List.mem_cons_self, Nat.le_of_not_lt hlow, of_decide_eq_true hhigh⟩
      · obtain ⟨found, hfound, hmem⟩ := ih hrest
        exact ⟨found, List.mem_cons_of_mem _ hfound, hmem⟩

/-- No letter or numeral is a blank. -/
lemma Text.isAlphanumeric_of_isBlank {c : Char} (h : isBlank c) : isAlphanumeric c = false := by
  have hall : ∀ range ∈ blanks, ∀ n ∈ List.range' range.1 (range.2 + 1 - range.1),
      (letters.contains n || decimalDigits.contains n || otherNumerals.contains n) = false := by
    decide +kernel
  obtain ⟨range, hrange, hlow, hhigh⟩ := Ranges.exists_of_contains h
  exact hall range hrange c.toNat (List.mem_range'_1.2 ⟨hlow, by omega⟩)

namespace Lexeme

variable {text rest word : List Char}

/-- Characters of field names are not blank. -/
lemma isBlank_of_isFieldChar {c : Char} (h : isFieldChar c) : Text.isBlank c = false := by
  cases hblank : Text.isBlank c with
  | false => rfl
  | true =>
    unfold isFieldChar at h
    rw [Text.isAlphanumeric_of_isBlank hblank, Bool.false_or] at h
    rcases Bool.or_eq_true_iff.1 h with h | h
    · rw [eq_of_beq h] at hblank
      exact absurd hblank (by decide)
    · rw [eq_of_beq h] at hblank
      exact absurd hblank (by decide)

/-- Characters of words are not blank. -/
lemma isBlank_of_isWordChar {c : Char} (h : isWordChar c) : Text.isBlank c = false := by
  simpa using (Bool.and_eq_true_iff.1 h).1

/-- What follows a piece of a written query: nothing, a blank, or the end of a group. -/
def Ends (rest : List Char) : Prop := ∀ c ∈ rest.head?, c = ' ' ∨ c = ')'

/-- Two texts in a row start with something in which the second cannot start: the first starts with
it. -/
lemma exists_append {start after : List Char} (hstart : ∀ c ∈ start, rest.head? ≠ some c)
    (h : word ++ rest = start ++ after) : ∃ tail, word = start ++ tail ∧ after = tail ++ rest := by
  rcases List.append_eq_append_iff.1 h with ⟨tail, rfl, rfl⟩ | ⟨tail, hword, hafter⟩
  · cases tail with
    | nil => exact ⟨[], by simp⟩
    | cons c tail => exact absurd rfl (hstart c (List.mem_append_right _ List.mem_cons_self))
  · exact ⟨tail, hword, hafter⟩

/-- What follows a piece does not begin with a character that could belong to it. -/
lemma Ends.head_ne (hrest : Ends rest) {c : Char} (hblank : c ≠ ' ') (hclosing : c ≠ ')') :
    rest.head? ≠ some c := fun h => by
  rcases hrest c h with rfl | rfl
  · exact hblank rfl
  · exact hclosing rfl

/-- The first characters of a kind end before one of another kind. -/
lemma takeWhile_append_cons {p : Char → Bool} (hp : ∀ c ∈ text, p c) {c : Char} (hc : p c = false) :
    (text ++ c :: rest).takeWhile p = text ∧ (text ++ c :: rest).dropWhile p = c :: rest := by
  rw [List.takeWhile_append_of_pos hp, List.dropWhile_append_of_pos hp]
  simp [hc]

/-- A word ends before what follows. -/
lemma Ends.takeWhile_append (hrest : Ends rest) (hword : ∀ c ∈ word, isWordChar c) :
    (word ++ rest).takeWhile isWordChar = word ∧ (word ++ rest).dropWhile isWordChar = rest := by
  cases rest with
  | nil =>
    rw [List.takeWhile_append_of_pos hword, List.dropWhile_append_of_pos hword]
    simp
  | cons c rest =>
    refine takeWhile_append_cons hword ?_
    rcases hrest c rfl with rfl | rfl <;> decide

/-! ## One lexeme -/

/-- A text in quotes begins with a double quote. -/
lemma readQuoted_eq_none (h : text.head? ≠ some '"') : readQuoted? text = none := by
  unfold readQuoted?
  split
  · exact absurd rfl h
  · rfl

/-- A field name and a colon in front of a text. -/
lemma readField_spec {name after : List Char} (h : readField? text = some (name, after)) :
    (∀ c ∈ name, isFieldChar c) ∧ text = name ++ [':'] ++ after := by
  unfold readField? at h
  split at h
  · next c name' after' htake hdrop =>
    obtain ⟨rfl, rfl⟩ : c :: name' = name ∧ after' = after := by simpa using h
    refine ⟨fun d hd => List.mem_takeWhile_imp (htake ▸ hd), ?_⟩
    rw [← htake, List.append_assoc, List.singleton_append, ← hdrop, List.takeWhile_append_dropWhile]
  · cases h

/-- Nothing in a word and what follows is a quote right behind what could be a field name. -/
lemma head_ne_quote (hword : ∀ c ∈ word, isWordChar c) (hrest : Ends rest) :
    (word ++ rest).head? ≠ some '"' := by
  intro hquote
  cases word with
  | nil => rcases hrest '"' hquote with h | h <;> cases h
  | cons c word =>
    obtain rfl : c = '"' := Option.some.inj hquote
    exact absurd (hword '"' List.mem_cons_self) (by decide)

/-- A word is no phrase, with or without a field name.

**Proof sketch.** Where a field name would be followed by a quote, the word goes on or ends, and
neither a word nor what ends it has a quote. -/
lemma readPhrase_word (hword : ∀ c ∈ word, isWordChar c) (hrest : Ends rest) :
    readPhrase? (word ++ rest) = none := by
  unfold readPhrase?
  split
  · next name after hfield =>
    obtain ⟨hname, hsplit⟩ := readField_spec hfield
    have hstart : ∀ c ∈ name ++ [':'], rest.head? ≠ some c := by
      intro c hc
      rcases List.mem_append.1 hc with hc | hc
      · refine hrest.head_ne ?_ ?_
        · rintro rfl
          exact absurd (hname _ hc) (by decide)
        · rintro rfl
          exact absurd (hname _ hc) (by decide)
      · rw [List.mem_singleton.1 hc]
        exact hrest.head_ne (by decide) (by decide)
    obtain ⟨tail, rfl, rfl⟩ := exists_append hstart hsplit
    rw [readQuoted_eq_none, Option.map_none]
    exact head_ne_quote (fun c hc => hword c (List.mem_append_right _ hc)) hrest
  · rw [readQuoted_eq_none (head_ne_quote hword hrest), Option.map_none]

/-- What a negation starts with is in no word and no field name. -/
lemma append_ne_negation (hword : '(' ∉ word) (hrest : ∀ c ∈ "NOT(".toList, rest.head? ≠ some c)
    (after : List Char) : word ++ rest ≠ 'N' :: 'O' :: 'T' :: '(' :: after := fun h => by
  obtain ⟨tail, rfl, -⟩ := @exists_append rest word ['N', 'O', 'T', '('] after hrest h
  exact hword (by simp)

/-- A word is read as such, never as a phrase or a negation.

**Proof sketch.** The first character is that of a word, so neither a parenthesis nor a quote nor a
negation stands there. What is no phrase is read up to the end of the word. -/
theorem read_word (hne : word ≠ []) (hword : ∀ c ∈ word, isWordChar c) (hrest : Ends rest) :
    read (word ++ rest) = some (ofWord? word, rest) := by
  have hnegation := @append_ne_negation rest word
    (fun hmem => absurd (hword _ hmem) (by decide))
    fun c hc => hrest.head_ne (by rintro rfl; revert hc; decide) (by rintro rfl; revert hc; decide)
  obtain ⟨htake, hdrop⟩ := hrest.takeWhile_append hword
  have hphrase := readPhrase_word hword hrest
  obtain ⟨first, word, rfl⟩ := List.exists_cons_of_ne_nil hne
  have hfirst := hword first List.mem_cons_self
  unfold read
  split
  · next h => exact absurd h (hnegation _)
  · next h =>
    obtain ⟨rfl, -⟩ := List.cons_eq_cons.1 h
    exact absurd hfirst (by decide)
  · next h =>
    obtain ⟨rfl, -⟩ := List.cons_eq_cons.1 h
    exact absurd hfirst (by decide)
  · rw [hphrase]
    simp only
    split
    · next h =>
      obtain ⟨rfl, -⟩ := List.cons_eq_cons.1 h
      exact absurd hfirst (by decide)
    · next h =>
      obtain ⟨rfl, -⟩ := List.cons_eq_cons.1 h
      exact absurd hfirst (by decide)
    · unfold readWord?
      rw [htake, hdrop]

/-- A text between quotes without a quote in it is read as such, whatever follows. -/
lemma readQuoted_append {inner : List Char} (hinner : '"' ∉ inner) (rest : List Char) :
    readQuoted? ('"' :: (inner ++ '"' :: rest)) = some (inner, rest) := by
  obtain ⟨htake, hdrop⟩ := @takeWhile_append_cons inner rest (fun c => decide (c ≠ '"'))
    (fun c hc => decide_eq_true fun heq => hinner (heq ▸ hc)) '"' (by decide)
  unfold readQuoted?
  simp only [htake, hdrop]

/-- A phrase between quotes, behind a field name, is read as such, whatever follows.

**Proof sketch.** The characters of the name are no negation or parenthesis, and they reach up to
the colon. Behind it stands a quote, and the next quote ends the phrase. -/
theorem read_phrase {name inner : List Char} (hne : name ≠ []) (hname : ∀ c ∈ name, isFieldChar c)
    (hinner : '"' ∉ inner) (rest : List Char) :
    read (name ++ ':' :: '"' :: (inner ++ '"' :: rest)) =
      some (some (phrase (some (String.ofList name)) (String.ofList inner)), rest) := by
  have hnegation := @append_ne_negation (':' :: '"' :: (inner ++ '"' :: rest)) name
    (fun hmem => absurd (hname _ hmem) (by decide)) (by simp)
  have hquoted := readQuoted_append hinner rest
  have hfield : readField? (name ++ ':' :: '"' :: (inner ++ '"' :: rest)) =
      some (name, '"' :: (inner ++ '"' :: rest)) := by
    obtain ⟨htake, hdrop⟩ := @takeWhile_append_cons name ('"' :: (inner ++ '"' :: rest)) isFieldChar
      hname ':' (by decide)
    unfold readField?
    rw [htake, hdrop]
    obtain ⟨c, tail, rfl⟩ := List.exists_cons_of_ne_nil hne
    rfl
  obtain ⟨first, name, rfl⟩ := List.exists_cons_of_ne_nil hne
  have hfirst := hname first List.mem_cons_self
  unfold read
  split
  · next h => exact absurd h (hnegation _)
  · next h =>
    obtain ⟨rfl, -⟩ := List.cons_eq_cons.1 h
    exact absurd hfirst (by decide)
  · next h =>
    obtain ⟨rfl, -⟩ := List.cons_eq_cons.1 h
    exact absurd hfirst (by decide)
  · unfold readPhrase?
    simp only [hfield, hquoted, Option.map_some]

/-! ## Lexemes in a row -/

/-- Lexemes are read one after the other, with blanks between them skipped. -/
lemma readAll_eq (text : List Char) : readAll? text =
    if skipBlanks text = [] then some []
    else (read (skipBlanks text)).bind fun (lexeme, rest) =>
      (readAll? rest).map (lexeme.toList ++ ·) := by
  rw [readAll?]
  split
  · rfl
  · split
    · next h => simp only [h, Option.bind_none]
    · next h => simp only [h, Option.bind_some]

/-- One lexeme, and the rest of the text. -/
lemma readAll_of_read {lexeme : Option Lexeme} (hskip : skipBlanks text = word)
    (hread : read word = some (lexeme, rest)) :
    readAll? text = (readAll? rest).map (lexeme.toList ++ ·) := by
  have hne : word ≠ [] := List.ne_nil_of_length_pos (Nat.zero_lt_of_lt (length_lt_of_read hread))
  rw [readAll_eq, hskip, if_neg hne, hread, Option.bind_some]

/-- Nothing is skipped in front of a character that is not blank. -/
lemma skipBlanks_cons {c : Char} (hc : Text.isBlank c = false) (text : List Char) :
    skipBlanks (c :: text) = c :: text := by
  simp [skipBlanks, hc]

/-- A text is cut into lexemes, whatever follows. -/
def Spells (text : List Char) (lexemes : List Lexeme) : Prop :=
  ∀ rest, Ends rest → readAll? (text ++ rest) = (readAll? rest).map (lexemes ++ ·)

namespace Spells

variable {text' : List Char} {lexemes lexemes' : List Lexeme}

/-- A text without characters is cut into no lexemes. -/
lemma nil : Spells [] [] := fun rest _ => by simp

/-- Two pieces of text, of which the second does not go on with a word. -/
lemma append (h : Spells text lexemes) (h' : Spells text' lexemes')
    (hends : ∀ rest, Ends rest → Ends (text' ++ rest)) :
    Spells (text ++ text') (lexemes ++ lexemes') := by
  intro rest hrest
  rw [List.append_assoc, h _ (hends rest hrest), h' rest hrest, Option.map_map]
  simp [Function.comp_def]

/-- A piece of text behind a blank. -/
lemma blank (h : Spells text lexemes) : Spells (' ' :: text) lexemes := by
  intro rest hrest
  have hskip : skipBlanks (' ' :: text ++ rest) = skipBlanks (text ++ rest) := by
    have hblank : Text.isBlank ' ' = true := by decide
    simp [skipBlanks, hblank]
  have hsame : readAll? (' ' :: text ++ rest) = readAll? (text ++ rest) := by
    rw [readAll_eq, hskip, ← readAll_eq]
  rw [hsame, h rest hrest]

/-- A piece of text behind one lexeme. -/
lemma cons {start : List Char} {lexeme : Lexeme} (h : Spells text lexemes)
    (hskip : ∀ rest, skipBlanks (start ++ rest) = start ++ rest)
    (hread : ∀ rest, read (start ++ rest) = some (some lexeme, rest)) :
    Spells (start ++ text) (lexeme :: lexemes) := by
  intro rest hrest
  rw [List.append_assoc, readAll_of_read (hskip _) (hread _), h rest hrest, Option.map_map]
  rfl

end Spells

/-- A word is cut off as such. -/
lemma spells_word (hne : word ≠ []) (hword : ∀ c ∈ word, isWordChar c) :
    Spells word (ofWord? word).toList := by
  intro rest hrest
  refine readAll_of_read ?_ (read_word hne hword hrest)
  obtain ⟨first, word, rfl⟩ := List.exists_cons_of_ne_nil hne
  exact skipBlanks_cons (isBlank_of_isWordChar (hword first List.mem_cons_self)) _

/-- So is a phrase behind a field name. -/
lemma spells_phrase {name inner : List Char} (hne : name ≠ []) (hname : ∀ c ∈ name, isFieldChar c)
    (hinner : '"' ∉ inner) : Spells (name ++ ':' :: '"' :: (inner ++ ['"']))
      [phrase (some (String.ofList name)) (String.ofList inner)] := by
  have hread : ∀ rest, read (name ++ ':' :: '"' :: (inner ++ ['"']) ++ rest) =
      some (some (phrase (some (String.ofList name)) (String.ofList inner)), rest) := by
    intro rest
    have hphrase := read_phrase hne hname hinner rest
    simpa using hphrase
  have hspells := Spells.nil.cons (fun rest => ?_) hread
  · rwa [List.append_nil] at hspells
  · obtain ⟨first, name, rfl⟩ := List.exists_cons_of_ne_nil hne
    exact skipBlanks_cons (isBlank_of_isFieldChar (hname first List.mem_cons_self)) _

/-- What a group starts with, negated or not. -/
def openingText : Bool → List Char
  | false => ['(']
  | true => "NOT(".toList

/-- A group in parentheses. -/
lemma Spells.group {lexemes : List Lexeme} (h : Spells text lexemes) (negated : Bool) :
    Spells (openingText negated ++ (text ++ [')']))
      (opening negated :: (lexemes ++ [closing])) := by
  have hclosing : ∀ rest, read ([')'] ++ rest) = some (some closing, rest) := fun rest => rfl
  have hopening : ∀ rest, read (openingText negated ++ rest) =
      some (some (opening negated), rest) := fun rest => by cases negated <;> rfl
  refine (h.append (Spells.nil.cons (fun rest => ?_) hclosing) fun rest _ c hc => ?_).cons
    (fun rest => ?_) hopening
  · exact skipBlanks_cons (by decide) _
  · exact .inr (Option.some.inj hc).symm
  · cases negated with
    | false => exact skipBlanks_cons (by decide) _
    | true => exact skipBlanks_cons (by decide) _

end Lexeme

/-! ## Queries -/

namespace Query

open Lexeme

/-- A text that a word can be made of. -/
def IsWord (text : String) : Prop := text ≠ "" ∧ ∀ c ∈ text.toList, isWordChar c

-- The letters of the text are checked; a search for an instance finds one that checks all letters.
instance (text : String) : Decidable (IsWord text) :=
  decidable_of_iff (text ≠ "" ∧ text.toList.all isWordChar = true)
    (and_congr_right fun _ => List.all_eq_true)

/-- A query that the query language can say. It carries no boost, and its groups have two parts at
least. The fields and values of terms, and what terms start with, hold nothing that ends a word; a
field holds no colon, and the value of a term does not end with a star. The fields of phrases are
plain names, and phrases hold no quotes. -/
inductive Writable : Query → Prop
  | term {field value : String} (hfield : IsWord field) (hcolon : ':' ∉ field.toList)
    (hvalue : IsWord value) (hstar : value.toList.getLast? ≠ some '*') : Writable (term field value)
  | startingWith {field value : String} (hfield : IsWord field) (hcolon : ':' ∉ field.toList)
    (hvalue : IsWord value) : Writable (startingWith field value)
  | phrase {field value : String} (hne : field ≠ "") (hfield : ∀ c ∈ field.toList, isFieldChar c)
    (hvalue : '"' ∉ value.toList) : Writable (.leaf .phrase field value none)
  | without {part : Query} (h : Writable part) : Writable (without part)
  | group (joint : Joint) {parts : List Query} (hlength : 2 ≤ parts.length)
    (h : ∀ part ∈ parts, Writable part) : Writable (.group joint parts none)

mutual

/-- The lexemes of a query in writing. -/
def lexemes : Query → List Lexeme
  | .leaf .term field value _ =>
    [.word (String.ofList (renderLeaf field.toList value.toList .term))]
  | .leaf .start field value _ =>
    [.word (String.ofList (renderLeaf field.toList value.toList .start))]
  | .leaf .phrase field value _ => [.phrase (some field) value]
  | .group joint parts _ => .opening false :: (lexemesOfParts joint parts ++ [.closing])
  | .not part _ => .opening true :: (part.lexemes ++ [.closing])
  | .nothing _ => []

/-- The lexemes of the parts of a group. -/
def lexemesOfParts (joint : Joint) : List Query → List Lexeme
  | [] => []
  | part :: parts => part.lexemes ++ lexemesOfRest joint parts

/-- The lexemes of further parts of a group, each with that of the word of the group before it. -/
def lexemesOfRest (joint : Joint) : List Query → List Lexeme
  | [] => []
  | part :: parts =>
    (ofWord? (jointWord joint)).toList ++ (part.lexemes ++ lexemesOfRest joint parts)

end

/-! ## Cutting a written query into lexemes -/

/-- What follows the parts of a group may follow the piece in front of them. -/
lemma ends_renderRest (joint : Joint) (parts : List Query) {rest : List Char} (h : Ends rest) :
    Ends (renderRest joint parts ++ rest) := by
  cases parts with
  | nil => exact h
  | cons part parts => exact fun c hc => .inl (Option.some.inj hc).symm

/-- The word between the parts of a group is cut as any other word is: `OR` into a lexeme, and `AND`
into none. -/
lemma spells_jointWord (joint : Joint) :
    Spells (jointWord joint) (ofWord? (jointWord joint)).toList := by
  cases joint with
  | all => exact spells_word (by decide) (List.all_eq_true.1 (by decide))
  | any => exact spells_word (by decide) (List.all_eq_true.1 (by decide))

/-- A field and a value are a word that says something of its own.

**Proof sketch.** The colon tells the word from the two joints, so it is read as it is. -/
lemma spells_field_value {field value : List Char} (hfield : ∀ c ∈ field, isWordChar c)
    (hvalue : ∀ c ∈ value, isWordChar c) :
    Spells (field ++ ':' :: value) [.word (String.ofList (field ++ ':' :: value))] := by
  have hcolon : ':' ∈ field ++ ':' :: value := by simp
  have hword : ∀ c ∈ field ++ ':' :: value, isWordChar c := by
    intro c hc
    rcases List.mem_append.1 hc with hc | hc
    · exact hfield c hc
    · rcases List.mem_cons.1 hc with rfl | hc
      · decide
      · exact hvalue c hc
  have hand : field ++ ':' :: value ≠ "AND".toList := fun h => by
    rw [h] at hcolon
    exact absurd hcolon (by decide)
  have hor : field ++ ':' :: value ≠ "OR".toList := fun h => by
    rw [h] at hcolon
    exact absurd hcolon (by decide)
  have hspells := spells_word (List.ne_nil_of_mem hcolon) hword
  rwa [ofWord?, if_neg hand, if_neg hor] at hspells

/-- Further parts of a group that spell their lexemes do so behind the word of the group. -/
lemma spells_renderRest (joint : Joint) {parts : List Query}
    (h : ∀ part ∈ parts, Spells part.render part.lexemes) :
    Spells (renderRest joint parts) (lexemesOfRest joint parts) := by
  induction parts with
  | nil => exact .nil
  | cons part parts ih =>
    obtain ⟨hpart, hparts⟩ := List.forall_mem_cons.1 h
    have hspells := (spells_jointWord joint).blank.append
      (hpart.append (ih hparts) fun rest => ends_renderRest joint parts).blank
      fun rest _ c hc => .inl (Option.some.inj hc).symm
    simpa [renderRest, lexemesOfRest] using hspells

/-- **Lexemes of a query.** A query in writing is cut into its lexemes.

**Proof sketch.** Induction on the query. A leaf is a word or a phrase between blanks; an exclusion
and a group are their parts between parentheses, and each part ends where the next one begins. -/
theorem spells_render {query : Query} (h : query.Writable) :
    Spells query.render query.lexemes := by
  induction h with
  | @term field value hfield hcolon hvalue hstar =>
    exact spells_field_value hfield.2 hvalue.2
  | @startingWith field value hfield hcolon hvalue =>
    have hstar : ∀ c ∈ value.toList ++ ['*'], isWordChar c := by
      intro c hc
      rcases List.mem_append.1 hc with hc | hc
      · exact hvalue.2 c hc
      · rw [List.mem_singleton.1 hc]
        decide
    have hspells := spells_field_value hfield.2 hstar
    rwa [← List.cons_append, ← List.append_assoc] at hspells
  | @phrase field value hne hfield hvalue =>
    have hne : field.toList ≠ [] := fun hnil => hne (String.toList_eq_nil_iff.1 hnil)
    have hspells := spells_phrase hne hfield hvalue
    rwa [String.ofList_toList, String.ofList_toList, ← List.cons_append, ← List.cons_append,
      ← List.append_assoc] at hspells
  | without h ih =>
    have hspells := ih.group true
    rwa [← List.append_assoc] at hspells
  | @group joint parts hlength h ih =>
    cases parts with
    | nil => cases hlength
    | cons part parts =>
      obtain ⟨hpart, hparts⟩ := List.forall_mem_cons.1 ih
      exact (hpart.append (spells_renderRest joint hparts)
        fun rest => ends_renderRest joint parts).group false

/-! ## Reading the lexemes -/

variable {field value defaultField : String} {parts : List Query}

/-- A text that is not empty has characters. -/
lemma toList_ne_nil {text : String} (h : text ≠ "") : text.toList ≠ [] :=
  fun hnil => h (String.toList_eq_nil_iff.1 hnil)

/-- The first colon of a word ends its field. -/
lemma fieldAndValue_append (hfield : field ≠ "") (hcolon : ':' ∉ field.toList)
    (hvalue : value ≠ "") :
    fieldAndValue defaultField (field.toList ++ ':' :: value.toList) = (field, value) := by
  obtain ⟨htake, hdrop⟩ := @takeWhile_append_cons field.toList value.toList
    (fun c => decide (c ≠ ':')) (fun c hc => decide_eq_true fun heq => hcolon (heq ▸ hc)) ':'
    (by decide)
  obtain ⟨c, name, hname⟩ := List.exists_cons_of_ne_nil (toList_ne_nil hfield)
  obtain ⟨d, rest, hrest⟩ := List.exists_cons_of_ne_nil (toList_ne_nil hvalue)
  unfold fieldAndValue
  rw [htake, hdrop, hname, hrest]
  simp only
  rw [← hname, ← hrest, String.ofList_toList, String.ofList_toList]

/-- A word without a star at its end is a term.

**Proof sketch.** The last character of the leaf is that of its value, which is no star, so the word
is taken apart at the colon only. -/
lemma ofWord_term (hfield : field ≠ "") (hcolon : ':' ∉ field.toList) (hvalue : value ≠ "")
    (hstar : value.toList.getLast? ≠ some '*') :
    ofWord defaultField (String.ofList (renderLeaf field.toList value.toList .term)) =
      term field value := by
  unfold ofWord renderLeaf
  rw [String.toList_ofList]
  split
  · next c body h =>
    have hlast : (field.toList ++ ':' :: value.toList).getLast? = some '*' := by
      rw [List.getLast?_eq_head?_reverse, h, List.head?_cons]
    rw [List.getLast?_append, List.getLast?_cons, Option.some_or] at hlast
    obtain ⟨d, rest, hrest⟩ := List.exists_cons_of_ne_nil (toList_ne_nil hvalue)
    rw [hrest, List.getLast?_cons, Option.getD_some] at hlast
    rw [hrest, List.getLast?_cons] at hstar
    exact absurd hlast hstar
  · rw [fieldAndValue_append hfield hcolon hvalue]

/-- A word with a star at its end asks for what terms start with. -/
lemma ofWord_start (hfield : field ≠ "") (hcolon : ':' ∉ field.toList) (hvalue : value ≠ "") :
    ofWord defaultField (String.ofList (renderLeaf field.toList value.toList .start)) =
      startingWith field value := by
  unfold ofWord renderLeaf
  rw [String.toList_ofList, List.reverse_append]
  obtain ⟨c, body, hbody⟩ := List.exists_cons_of_ne_nil
    (List.reverse_ne_nil_iff.2 (List.append_ne_nil_of_right_ne_nil field.toList
      (List.cons_ne_nil ':' value.toList)))
  have hreverse : (c :: body).reverse = field.toList ++ ':' :: value.toList := by
    rw [← hbody, List.reverse_reverse]
  simp only [hbody, List.reverse_singleton, List.singleton_append, hreverse,
    fieldAndValue_append hfield hcolon hvalue]

/-- A phrase without quotes is taken as it is. -/
lemma phrase_of_not_mem (hvalue : '"' ∉ value.toList) :
    phrase field value = .leaf .phrase field value none := by
  have hkeep : value.toList.filter (fun c => decide (c ≠ '"')) = value.toList :=
    List.filter_eq_self.2 fun c hc => decide_eq_true fun heq => hvalue (heq ▸ hc)
  rw [phrase, hkeep, String.ofList_toList]

/-- A group that has ended, of two parts at least. -/
lemma query_draft (emptyReason : String) (joint : Joint) (hlength : 2 ≤ parts.length) :
    Draft.query emptyReason ⟨parts, decide (joint = .any)⟩ = .group joint parts none := by
  match parts, hlength with
  | first :: second :: parts, _ => cases joint <;> rfl

/-- A query adds itself to the group under way. -/
def Adds (defaultField : String) (lexemes : List Lexeme) (query : Query) : Prop :=
  ∀ nesting : Nesting, lexemes.foldl (Nesting.step defaultField) nesting =
    { nesting with inner := nesting.inner.add query }

/-- Further parts of a group add themselves, and say how the group combines. -/
lemma foldl_lexemesOfRest {joint : Joint} (h : ∀ part ∈ parts, Adds defaultField part.lexemes part)
    (nesting : Nesting) :
    (lexemesOfRest joint parts).foldl (Nesting.step defaultField) nesting =
      { nesting with inner :=
        ⟨nesting.inner.parts ++ parts,
          nesting.inner.any || (decide (joint = .any) && !parts.isEmpty)⟩ } := by
  induction parts generalizing nesting with
  | nil => simp [lexemesOfRest]
  | cons part parts ih =>
    obtain ⟨hpart, hparts⟩ := List.forall_mem_cons.1 h
    rw [lexemesOfRest, List.foldl_append, List.foldl_append, hpart, ih hparts]
    cases joint <;> simp [Draft.add, jointWord, ofWord?, Nesting.step]

/-- A group in parentheses is added to the group around it. -/
lemma foldl_group (negated : Bool) {inner : List Lexeme} {draft : Draft}
    (h : ∀ outer, inner.foldl (Nesting.step defaultField) ⟨{}, outer⟩ = ⟨draft, outer⟩) :
    Adds defaultField (.opening negated :: (inner ++ [.closing])) (enclosed negated draft) := by
  intro nesting
  rw [List.foldl_cons, List.foldl_append, Nesting.step, h]
  rfl

/-- **The lexemes of a query add it to the group under way.**

**Proof sketch.** Induction on the query. A leaf is added by its one lexeme. A group is opened, its
parts are added one by one to an empty draft, and closing it adds the group that they make. -/
theorem foldl_step_lexemes {query : Query} (h : query.Writable) :
    Adds defaultField query.lexemes query := by
  induction h with
  | @term field value hfield hcolon hvalue hstar =>
    exact fun nesting => congrArg (fun part => { nesting with inner := nesting.inner.add part })
      (ofWord_term hfield.1 hcolon hvalue.1 hstar)
  | @startingWith field value hfield hcolon hvalue =>
    exact fun nesting => congrArg (fun part => { nesting with inner := nesting.inner.add part })
      (ofWord_start hfield.1 hcolon hvalue.1)
  | @phrase field value hne hfield hvalue =>
    exact fun nesting => congrArg (fun part => { nesting with inner := nesting.inner.add part })
      (phrase_of_not_mem hvalue)
  | @without part h ih =>
    refine @foldl_group defaultField true _ ⟨[part], false⟩ fun outer => ?_
    rw [ih]
    rfl
  | @group joint parts hlength h ih =>
    cases parts with
    | nil => cases hlength
    | cons part parts =>
      obtain ⟨hpart, hparts⟩ := List.forall_mem_cons.1 ih
      have hinner : ∀ outer, (lexemesOfParts joint (part :: parts)).foldl
          (Nesting.step defaultField) ⟨{}, outer⟩ =
            ⟨⟨part :: parts, decide (joint = .any)⟩, outer⟩ := by
        intro outer
        rw [lexemesOfParts, List.foldl_append, hpart, foldl_lexemesOfRest hparts]
        have hne : parts.isEmpty = false := by
          cases parts with
          | nil => simp at hlength
          | cons part parts => rfl
        simp [Draft.add, hne]
      have hadds := foldl_group false hinner
      rwa [enclosed, query_draft _ joint hlength] at hadds

/-- **A query is read back from its written form**, whatever field is meant where none is written.

**Proof sketch.** The written form is cut into the lexemes of the query, and these add the query to
the outermost group. A single part needs no group. -/
theorem parse_toText (defaultField : String) {query : Query} (h : query.Writable) :
    parse defaultField query.toText = .ok query := by
  have hlex : lex query.toText = .ok query.lexemes := by
    have hspells := spells_render h [] fun c hc => by cases hc
    have hnil : readAll? [] = some [] := readAll_eq []
    rw [List.append_nil, hnil, Option.map_some, List.append_nil] at hspells
    unfold lex
    rw [toText, String.toList_ofList, hspells]
  have hquery : ofLexemes defaultField query.lexemes = query := by
    unfold ofLexemes
    rw [foldl_step_lexemes h]
    rfl
  rw [parse, hlex, Except.map, hquery]

/-- A query with all kinds of parts. -/
def petQuery : Query :=
  anyOf [term "*" "cat:s", without (allOf [startingWith "title" "do*", term "NOT" "AND"]),
    .leaf .phrase "title" "a (b) OR" none]

/-- It is read back. -/
theorem parse_toText_petQuery :
    petQuery.Writable ∧ parse anyField petQuery.toText = .ok petQuery := by
  have hcat : (term "*" "cat:s").Writable :=
    .term (by decide) (by decide) (by decide) (by decide)
  have hdog : (startingWith "title" "do*").Writable :=
    .startingWith (by decide) (by decide) (by decide)
  have hnot : (term "NOT" "AND").Writable :=
    .term (by decide) (by decide) (by decide) (by decide)
  have hphrase : (Query.leaf .phrase "title" "a (b) OR" none).Writable :=
    .phrase (by decide) (List.all_eq_true.1 (by decide)) (by decide)
  have hall : (allOf [startingWith "title" "do*", term "NOT" "AND"]).Writable :=
    .group .all (by decide)
      (List.forall_mem_cons.2 ⟨hdog, List.forall_mem_singleton.2 hnot⟩)
  have hany : petQuery.Writable := .group .any (by decide) (List.forall_mem_cons.2
    ⟨hcat, List.forall_mem_cons.2 ⟨.without hall, List.forall_mem_singleton.2 hphrase⟩⟩)
  exact ⟨hany, parse_toText anyField hany⟩

end Query

end Concordance
