import Concordance.Analysis.Analyzer
import Mathlib.Data.List.Basic

set_option relaxedAutoImplicit false
set_option autoImplicit false

/-!
# The terms of a text

Filters look at each token by itself, and at nothing but its text. So the terms of a text are what
the filters make of its words one by one, which is also what they make of the words of a query. A
query has one thing more to leave out, which is an empty word, but the words of a text are not
empty, and a filter that leaves nothing of a word takes it out.

## Main definitions

* `Concordance.Analyzer.refined?` — what the filters make of one word.

## Main results

* `Concordance.Analyzer.mem_terms_iff` — the terms of a text by its words.
* `Concordance.Analyzer.mem_terms_of_normalize` — a word of a text is found in it.
* `Concordance.Analyzer.normalize_of_ne_empty` — words that are not empty are looked up as what the
  filters make of them.
* `Concordance.Analyzer.terms_eq_eraseDups` — the terms of a text are its words as they are looked
  up, each once.
-/

namespace Concordance

/-! ## Words are not empty -/

namespace Text

/-- Every character has a lower case of at least one character. -/
lemma lowerChar_ne_nil (c : Char) : lowerChar c ≠ [] := by
  unfold lowerChar
  split
  · exact List.cons_ne_nil _ _
  · split
    · exact List.cons_ne_nil _ _
    · exact List.cons_ne_nil _ _

/-- Every character has a small form. -/
lemma lower_ne_empty {text : String} (h : text ≠ "") : lower text ≠ "" := by
  rw [lower, Ne, String.ofList_eq_empty_iff]
  cases htext : text.toList with
  | nil => exact absurd (String.toList_eq_nil_iff.1 htext) h
  | cons c rest =>
    rw [lowerAfter, List.append_eq_nil_iff]
    rintro ⟨hfirst, -⟩
    split at hfirst
    · exact List.cons_ne_nil _ _ hfirst
    · exact lowerChar_ne_nil c hfirst

/-- A word holds a letter or a numeral. -/
lemma ne_nil_of_mem_words {text : String} {word : Nat × List Char} (h : word ∈ words text) :
    word.2 ≠ [] := by
  intro hnil
  have hany := (List.mem_filter.1 h).2
  rw [hnil] at hany
  exact Bool.false_ne_true hany

end Text

/-- Tokenizers give no empty tokens. -/
lemma Tokenizer.text_ne_empty {tokenizer : Tokenizer} {text : String} {token : Token}
    (h : token ∈ tokenizer.tokens text) : token.text ≠ "" := by
  obtain ⟨⟨word, i⟩, hmem, rfl⟩ := List.mem_map.1 h
  have hkept : word ∈ tokenizer.kept text :=
    (List.mem_zipIdx hmem).2.2 ▸ List.getElem_mem _
  have hword : String.ofList word.2 ≠ "" :=
    mt String.ofList_eq_empty_iff.1 (Text.ne_nil_of_mem_words (List.mem_filter.1 hkept).1)
  change tokenizer.tokenText word.2 ≠ ""
  unfold tokenText
  split
  · exact Text.lower_ne_empty hword
  · exact hword

namespace Filter

/-- A filter that drops empty texts hands on a text as it is, or nothing. -/
lemma nonempty?_eq_some_iff {text out : String} :
    nonempty? text = some out ↔ text = out ∧ out ≠ "" := by
  unfold nonempty?
  split
  · next hempty =>
    subst hempty
    exact iff_of_false (by simp) fun ⟨heq, hne⟩ => hne heq.symm
  · next hne =>
    rw [Option.some_inj]
    exact ⟨fun heq => ⟨heq, heq ▸ hne⟩, And.left⟩

/-- No filter leaves an empty text where there was another. -/
lemma ne_empty_of_text? {filter : Filter} {text out : String} (htext : text ≠ "")
    (h : filter.text? text = some out) : out ≠ "" := by
  cases filter with
  | stopWords words =>
    simp only [text?, Option.ite_none_left_eq_some, Option.some.injEq] at h
    exact h.2 ▸ htext
  | lowercase => exact (nonempty?_eq_some_iff.1 h).2
  | lowercaseAlphanumeric => exact (nonempty?_eq_some_iff.1 h).2
  | stemmer => exact (nonempty?_eq_some_iff.1 h).2

/-! ## Filters one after the other -/

/-- What becomes of the text of a token in several filters, one after the other. -/
def chain? : List Filter → String → Option String
  | [], text => some text
  | filter :: filters, text => (filter.text? text).bind (chain? filters)

/-- Filters treat tokens one by one. -/
lemma foldl_run (filters : List Filter) (tokens : List Token) :
    filters.foldl (fun tokens filter => filter.run tokens) tokens =
      tokens.filterMap fun token => (chain? filters token.text).map fun text =>
        { token with text } := by
  induction filters generalizing tokens with
  | nil => simp [chain?]
  | cons filter filters ih =>
    rw [List.foldl_cons, ih, run, List.filterMap_filterMap]
    congr 1
    funext token
    cases htext : filter.text? token.text with
    | none => simp [chain?, htext]
    | some text => simp [chain?, htext]

/-- Nor do several filters. -/
lemma ne_empty_of_chain? {filters : List Filter} {text out : String} (htext : text ≠ "")
    (h : chain? filters text = some out) : out ≠ "" := by
  induction filters generalizing text with
  | nil =>
    obtain rfl : text = out := Option.some.inj h
    exact htext
  | cons filter filters ih =>
    obtain ⟨between, hfirst, hrest⟩ := Option.bind_eq_some_iff.1 h
    exact ih (ne_empty_of_text? htext hfirst) hrest

end Filter

/-! ## Terms -/

namespace Analyzer

variable {analyzer : Analyzer} {text word term : String}

/-- What the filters make of a word. -/
def refined? (analyzer : Analyzer) (word : String) : Option String :=
  Filter.chain? analyzer.filters word

/-- To refine tokens is to refine each of them on its own: some are dropped, and the others keep
their places. -/
lemma refine_eq (analyzer : Analyzer) (tokens : List Token) :
    analyzer.refine tokens = tokens.filterMap fun token =>
      (analyzer.refined? token.text).map fun text => { token with text } :=
  Filter.foldl_run analyzer.filters tokens

/-- A term is looked up as what the filters make of it, unless this is empty. -/
lemma normalize_eq (analyzer : Analyzer) (term : String) :
    analyzer.normalize term = (analyzer.refined? term).bind Filter.nonempty? := by
  rw [normalize, refine_eq]
  cases hterm : analyzer.refined? term with
  | none => simp [hterm]
  | some text => simp [hterm]

/-- A word with a term is refined to it, since normalizing is refining and then falling back on the
word itself. -/
lemma refined?_of_normalize (h : analyzer.normalize word = some term) :
    analyzer.refined? word = some term := by
  rw [normalize_eq, Option.bind_eq_some_iff] at h
  obtain ⟨text, hword, hterm⟩ := h
  rw [hword, (Filter.nonempty?_eq_some_iff.1 hterm).1]

/-- A word that is not empty is looked up as what the filters make of it. -/
theorem normalize_of_ne_empty (h : word ≠ "") :
    analyzer.normalize word = analyzer.refined? word := by
  rw [normalize_eq]
  cases hword : analyzer.refined? word with
  | none => rfl
  | some out => exact Filter.nonempty?_eq_some_iff.2 ⟨rfl, Filter.ne_empty_of_chain? h hword⟩

/-- A list and its first occurrences have the same items. -/
lemma mem_firstOccurrences {α : Type} [DecidableEq α] {a : α} {list : List α} :
    a ∈ firstOccurrences list ↔ a ∈ list := by
  induction list with
  | nil => rfl
  | cons first rest ih =>
    rw [firstOccurrences, List.mem_cons, List.mem_filter, ih, List.mem_cons]
    by_cases heq : a = first
    · simp [heq]
    · simp [heq]

/-- The terms of a text are what the filters make of its words. -/
theorem mem_terms_iff : term ∈ analyzer.terms text ↔
    ∃ word ∈ analyzer.rawTerms text, analyzer.refined? word = some term := by
  rw [terms, mem_firstOccurrences, analyze, refine_eq, List.map_filterMap, List.mem_filterMap]
  simp only [rawTerms, mem_firstOccurrences, List.mem_map, Option.map_map, Function.comp_def,
    Option.map_id']
  constructor
  · rintro ⟨token, htoken, hterm⟩
    exact ⟨token.text, ⟨token, htoken, rfl⟩, hterm⟩
  · rintro ⟨_, ⟨token, htoken, rfl⟩, hterm⟩
    exact ⟨token, htoken, hterm⟩

/-- A word of a text is found in it under the form in which it is looked up. -/
theorem mem_terms_of_normalize (hword : word ∈ analyzer.rawTerms text)
    (hterm : analyzer.normalize word = some term) : term ∈ analyzer.terms text :=
  mem_terms_iff.2 ⟨word, hword, refined?_of_normalize hterm⟩

/-! ## Each word once -/

/-- First occurrences can be taken before or after others are left out. -/
lemma firstOccurrences_filter {α : Type} [DecidableEq α] (p : α → Bool) (list : List α) :
    firstOccurrences (list.filter p) = (firstOccurrences list).filter p := by
  induction list with
  | nil => rfl
  | cons first rest ih =>
    rw [firstOccurrences, List.filter_cons, List.filter_cons, List.filter_comm]
    split
    · rw [firstOccurrences, ih]
    · next hfirst =>
      rw [ih, eq_comm, List.filter_eq_self]
      intro a ha
      have hne : a ≠ first := by
        rintro rfl
        exact hfirst (List.mem_filter.1 ha).2
      simpa using hne

/-- To take each element at its first place only is to leave out later copies. -/
lemma firstOccurrences_eq_eraseDups {α : Type} [DecidableEq α] (list : List α) :
    firstOccurrences list = list.eraseDups := by
  induction hlength : list.length using Nat.strongRecOn generalizing list with
  | ind length ih =>
    cases list with
    | nil => rfl
    | cons first rest =>
      have hshorter : (rest.filter fun a => !a == first).length < length := by
        rw [← hlength, List.length_cons]
        exact Nat.lt_succ_of_le (List.length_filter_le _ _)
      rw [firstOccurrences, List.eraseDups_cons, ← firstOccurrences_filter,
        ← ih _ hshorter _ rfl]
      congr 2
      exact List.filter_congr fun a _ => decide_not

/-- **The terms of a text are its words as they are looked up**, in their order and without later
copies. Words that a filter takes out are left out. -/
theorem terms_eq_eraseDups (analyzer : Analyzer) (text : String) :
    analyzer.terms text = ((analyzer.tokenizer.tokens text).filterMap fun token =>
      analyzer.normalize token.text).eraseDups := by
  rw [terms, firstOccurrences_eq_eraseDups, analyze, refine_eq, List.map_filterMap]
  congr 1
  refine List.filterMap_congr fun token htoken => ?_
  rw [normalize_of_ne_empty (Tokenizer.text_ne_empty htoken), Option.map_map]
  exact Option.map_id'

/-- No term is empty. -/
lemma empty_notMem_terms (analyzer : Analyzer) (text : String) : "" ∉ analyzer.terms text := by
  rw [terms_eq_eraseDups, List.mem_eraseDups, List.mem_filterMap]
  rintro ⟨token, htoken, hnormal⟩
  have hne := Tokenizer.text_ne_empty htoken
  rw [normalize_of_ne_empty hne] at hnormal
  exact Filter.ne_empty_of_chain? hne hnormal rfl

end Analyzer

end Concordance
