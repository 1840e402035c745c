import Concordance.Proofs.Query.Lexemes
import Concordance.Query.Normal

set_option relaxedAutoImplicit false
set_option autoImplicit false

/-!
# The shape of queries that are read

Every text is read as a query, whatever parentheses and quotes are missing in it. A group is made of
two parts at least, so normal form has nothing to take apart in such a query: all that it changes
are phrases of blanks.

## Main definitions

* `Concordance.Query.WellShaped` — the queries that lexemes spell, if they spell something.
* `Concordance.Query.withoutBlanks` — a query without phrases of blanks.

## Main results

* `Concordance.Query.wellShaped_ofLexemes` — proper lexemes spell a query of that shape.
* `Concordance.Query.normalize_eq_withoutBlanks` — the normal form of such a query.
* `Concordance.Query.exists_parse` — every text is read as a query of that shape.
-/

namespace Concordance.Query

open Lexeme

/-- A query without boosts, whose groups have two parts at least. The value of a term, or what terms
start with, is not empty and holds nothing that ends a word; a phrase holds no double quotes. What
matches nothing is a group without parts. -/
inductive WellShaped : Query → Prop
  | word {kind : Leaf} {value : String} (field : String) (hkind : kind ≠ .phrase)
    (hvalue : IsWord value) : WellShaped (.leaf kind field value none)
  | phrase {value : String} (field : String) (hvalue : '"' ∉ value.toList) :
    WellShaped (.leaf .phrase field value none)
  | group (joint : Joint) {parts : List Query} (hlength : 2 ≤ parts.length)
    (h : ∀ part ∈ parts, WellShaped part) : WellShaped (.group joint parts none)
  | without {part : Query} (h : WellShaped part) : WellShaped (without part)
  | nothing : WellShaped (.nothing "Empty Group")

mutual

/-- A query in which nothing stands for each phrase of blanks. -/
def withoutBlanks : Query → Query
  | .leaf kind field value boost =>
    if (leaf kind field value boost).isBlankPhrase then .nothing "Empty Phrase"
    else .leaf kind field value boost
  | .group joint parts boost => .group joint (withoutBlanksAll parts) boost
  | .not part boost => .not part.withoutBlanks boost
  | .nothing reason => .nothing reason

/-- Several queries in which nothing stands for each phrase of blanks. -/
def withoutBlanksAll : List Query → List Query
  | [] => []
  | part :: parts => part.withoutBlanks :: withoutBlanksAll parts

end

variable {defaultField : String} {parts : List Query} {query : Query}

/-! ## Normal form -/

/-- To normalize several queries is to normalize each. -/
lemma normalizeAll_eq_map (parts : List Query) : normalizeAll parts = parts.map normalize := by
  induction parts with
  | nil => rfl
  | cons part parts ih => rw [normalizeAll, ih, List.map_cons]

/-- To drop blanks from several queries is to drop them from each. -/
lemma withoutBlanksAll_eq_map (parts : List Query) :
    withoutBlanksAll parts = parts.map withoutBlanks := by
  induction parts with
  | nil => rfl
  | cons part parts ih => rw [withoutBlanksAll, ih, List.map_cons]

/-- A group of two parts at least is needed. -/
lemma regroup_of_length (joint : Joint) (boost : Option Single) (h : 2 ≤ parts.length) :
    regroup joint boost parts = .group joint parts boost := by
  match parts, h with
  | first :: second :: parts, _ => rfl

/-- **Normal form changes phrases of blanks alone**, if a query has the shape of one that is
read. -/
theorem normalize_eq_withoutBlanks (h : query.WellShaped) :
    query.normalize = query.withoutBlanks := by
  induction h with
  | @word kind value field hkind hvalue =>
    cases kind with
    | phrase => exact absurd rfl hkind
    | term => rfl
    | start => rfl
  | phrase field hvalue => rfl
  | group joint hlength h ih =>
    rw [normalize, withoutBlanks, normalizeAll_eq_map, withoutBlanksAll_eq_map,
      List.map_congr_left ih, regroup_of_length joint none (by rwa [List.length_map])]
  | without h ih => rw [without, normalize, withoutBlanks, ih]
  | nothing => rfl

/-! ## The groups under way -/

/-- The value of a word is part of it, and not empty. -/
lemma isWord_fieldAndValue {word : List Char} (hne : word ≠ []) (hword : ∀ c ∈ word, isWordChar c) :
    IsWord (fieldAndValue defaultField word).2 := by
  unfold fieldAndValue
  split
  · next d value htake hdrop =>
    refine isWord_ofList (List.cons_ne_nil _ _) fun c hc => hword c ?_
    exact (List.dropWhile_sublist _).subset (hdrop ▸ List.mem_cons_of_mem _ hc)
  · exact isWord_ofList hne hword

/-- A word is a term or the start of terms, and has a value. -/
lemma wellShaped_ofWord {text : String} (h : IsWord text) :
    (ofWord defaultField text).WellShaped := by
  unfold ofWord
  split
  · next c body hreverse =>
    refine .word _ (by decide) (isWord_fieldAndValue (by simp) fun d hd => h.2 d ?_)
    rw [← List.mem_reverse, hreverse]
    exact List.mem_cons_of_mem _ (List.mem_reverse.1 hd)
  · exact .word _ (by decide) (isWord_fieldAndValue (toList_ne_nil h.1) h.2)

/-- The parts of a group under way are well shaped. -/
def Draft.WellShaped (draft : Draft) : Prop := ∀ part ∈ draft.parts, part.WellShaped

/-- So are those of all groups under way. -/
structure Nesting.WellShaped (nesting : Nesting) : Prop where
  inner : nesting.inner.WellShaped
  outer : ∀ entry ∈ nesting.outer, entry.1.WellShaped

/-- A draft stays well shaped if a well shaped part is added. -/
lemma Draft.WellShaped.add {draft : Draft} (h : draft.WellShaped) (hquery : query.WellShaped) :
    (draft.add query).WellShaped :=
  List.forall_mem_append.2 ⟨h, List.forall_mem_singleton.2 hquery⟩

/-- A group that has ended is well shaped unless it has no parts. -/
lemma Draft.WellShaped.ends {draft : Draft} (h : draft.WellShaped) (emptyReason : String) :
    draft.query emptyReason = .nothing emptyReason ∨ (draft.query emptyReason).WellShaped := by
  obtain ⟨parts, any⟩ := draft
  match parts with
  | [] => exact .inl rfl
  | [part] => exact .inr (h part (List.mem_singleton_self part))
  | first :: second :: parts =>
    have hlength : 2 ≤ (first :: second :: parts).length := by simp
    refine .inr ?_
    cases any with
    | false => exact .group .all hlength h
    | true => exact .group .any hlength h

/-- So is a group in parentheses, with or without parts. -/
lemma Draft.WellShaped.enclosed {draft : Draft} (h : draft.WellShaped) (negated : Bool) :
    (enclosed negated draft).WellShaped := by
  have hquery : (draft.query "Empty Group").WellShaped := by
    rcases h.ends "Empty Group" with hempty | hquery
    · rw [hempty]
      exact .nothing
    · exact hquery
  cases negated with
  | false => exact hquery
  | true => exact .without hquery

/-- **One lexeme more** keeps the groups under way well shaped, if it is proper.

**Proof sketch.** By the kinds of lexemes. An opening starts a new group, a closing puts the
finished one into the group around it, and words and phrases come in as leaves. -/
lemma Nesting.WellShaped.step {nesting : Nesting} (h : nesting.WellShaped) {lexeme : Lexeme}
    (hproper : lexeme.IsProper) : (nesting.step defaultField lexeme).WellShaped := by
  obtain ⟨⟨parts, any⟩, outer⟩ := nesting
  cases lexeme with
  | opening negated => exact ⟨List.forall_mem_nil _, List.forall_mem_cons.2 ⟨h.inner, h.outer⟩⟩
  | closing =>
    cases outer with
    | nil => exact h
    | cons entry outer =>
      obtain ⟨hentry, houter⟩ := List.forall_mem_cons.1 h.outer
      exact ⟨hentry.add (h.inner.enclosed entry.2), houter⟩
  | or => exact ⟨h.inner, h.outer⟩
  | word text => exact ⟨h.inner.add (wellShaped_ofWord hproper), h.outer⟩
  | phrase field text =>
    refine ⟨h.inner.add (.phrase _ ?_), h.outer⟩
    rw [String.toList_ofList]
    exact fun hmem => absurd rfl (of_decide_eq_true (List.mem_filter.1 hmem).2)

/-- Groups under way stay well shaped while proper lexemes are read. -/
lemma Nesting.WellShaped.steps (defaultField : String) {nesting : Nesting}
    (h : nesting.WellShaped) {lexemes : List Lexeme}
    (hproper : ∀ lexeme ∈ lexemes, lexeme.IsProper) :
    (lexemes.foldl (Nesting.step defaultField) nesting).WellShaped := by
  induction lexemes generalizing nesting with
  | nil => exact h
  | cons lexeme lexemes ih =>
    obtain ⟨hlexeme, hlexemes⟩ := List.forall_mem_cons.1 hproper
    exact ih (h.step hlexeme) hlexemes

/-- Groups that are still open end well shaped. -/
lemma wellShaped_outermost {inner : Draft} (h : inner.WellShaped) {outer : List (Draft × Bool)}
    (houter : ∀ entry ∈ outer, entry.1.WellShaped) : (outermost inner outer).WellShaped := by
  induction outer generalizing inner with
  | nil => exact h
  | cons entry outer ih =>
    obtain ⟨hentry, hrest⟩ := List.forall_mem_cons.1 houter
    exact ih (hentry.add (h.enclosed entry.2)) hrest

/-- **Proper lexemes spell a well-shaped query**, unless they spell nothing. -/
theorem wellShaped_ofLexemes (defaultField : String) {lexemes : List Lexeme}
    (hproper : ∀ lexeme ∈ lexemes, lexeme.IsProper) :
    ofLexemes defaultField lexemes = .nothing "Empty Query" ∨
      (ofLexemes defaultField lexemes).WellShaped := by
  have hstart : Nesting.WellShaped {} := ⟨List.forall_mem_nil _, List.forall_mem_nil _⟩
  have hsteps := hstart.steps defaultField hproper
  exact (wellShaped_outermost hsteps.inner hsteps.outer).ends "Empty Query"

/-- **Every text is read as a query.** Whatever field is meant where none is written, a text is cut
to its end into lexemes, and they spell a query. The query is that of an empty text, or has two
parts at least in every group, no boosts, values of terms that are not empty and hold nothing that
ends a word, phrases without double quotes, and nothing that matches nothing but groups without
parts. So its normal form is the query itself but for phrases of blanks.

**Proof sketch.** What stands where a text goes on with no blank is a lexeme or says nothing, and it
is not empty. The lexemes keep the groups under way well shaped, and so do groups that end: those
of fewer than two parts are none. -/
theorem exists_parse (defaultField text : String) :
    ∃ lexemes, lex text = .ok lexemes ∧ Cuts text.toList lexemes ∧
      ∃ query, parse defaultField text = .ok query ∧
        (query = .nothing "Empty Query" ∨ query.WellShaped) ∧
        query.normalize = query.withoutBlanks := by
  obtain ⟨lexemes, hread, hcuts⟩ := exists_readAll text.toList
  have hlex : lex text = .ok lexemes := by
    unfold lex
    rw [hread]
  have hshape := wellShaped_ofLexemes defaultField hcuts.isProper
  refine ⟨lexemes, hlex, hcuts, ofLexemes defaultField lexemes, ?_, hshape, ?_⟩
  · rw [parse, hlex, Except.map]
  · rcases hshape with hempty | hshape
    · rw [hempty]
      rfl
    · exact normalize_eq_withoutBlanks hshape

end Concordance.Query
