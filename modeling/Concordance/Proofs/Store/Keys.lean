import Concordance.Proofs.Analysis.Terms
import Concordance.Proofs.Schemas
import Concordance.Store.Change

set_option relaxedAutoImplicit false
set_option autoImplicit false

/-!
# The keys of words

A value is indexed under its terms, and a look-up computes the key of one word, which has not been
cut out of a text. Both use the filters of the store's analyzer, and since filters treat words one
by one, a word of a value is looked up under one of the keys of the value.

## Main results

* `Concordance.Store.key_of_mem_targets` — the key that a look-up computes.
* `Concordance.Store.keys_of_words` — the keys of a value are those of its words.
-/

namespace Concordance.Store

variable {store : Store} {field : Field}

/-- A look-up in an indexed field computes the key of a word: in a unique field it is the word as it
is, in any other field the normalized word.

**Proof sketch.** A field that is asked for by name is found by it, as names of fields are
different. If all fields are asked, only those that are not unique are, with the normalized word. -/
lemma key_of_mem_targets (built : store.schema.Built) (hfield : field ∈ store.schema.indexedFields)
    {word key : String} {filter : Option String}
    (h : (field.name, some key) ∈ store.targets word filter) :
    if field.flags.unique then key = word else store.analyzer.normalize word = some key := by
  obtain ⟨hmem, hindexed⟩ := Schema.mem_indexedFields.1 hfield
  unfold targets at h
  split at h
  · obtain ⟨rfl, hkey⟩ := Prod.mk.inj (List.mem_singleton.1 h)
    rw [keyFor, built.field?_name hmem] at hkey
    cases hunique : field.flags.unique with
    | true => simpa [hindexed, hunique] using hkey
    | false => simpa [hindexed, hunique] using hkey.symm
  · obtain ⟨other, hother, heq⟩ := List.mem_map.1 h
    obtain ⟨hname, hkey⟩ := Prod.mk.inj heq
    obtain ⟨hother, hunique⟩ := List.mem_filter.1 hother
    obtain rfl := built.eq_of_name_eq (Schema.mem_indexedFields.1 hother).1 hmem hname
    rw [if_neg (by simpa using hunique)]
    exact hkey

/-- **A word of a value is looked up under a key of the value.** With a tokenizer that may cut off
long words and make letters small, and with any filters one after the other, however often each of
them, the terms of a text are its words in their order, each in the form in which it is looked up,
without words that have none and without later copies. No term is empty. So if a value is stored in
an indexed field, the key that a look-up computes there for a word of the value is one of the keys
under which the value is indexed.

**Proof sketch.** Each filter treats the words one by one, and so do several filters. A look-up
leaves out nothing more than what the filters take out, since words are not empty and filters leave
no empty words. -/
theorem keys_of_words (analyzer : Analyzer) (text : String) :
    analyzer.terms text = ((analyzer.tokenizer.tokens text).filterMap fun token =>
      analyzer.normalize token.text).eraseDups ∧
    "" ∉ analyzer.terms text ∧
    (∀ token ∈ analyzer.tokenizer.tokens text, ∀ key,
      analyzer.normalize token.text = some key → key ∈ analyzer.terms text) ∧
    ∀ (store : Store) (field : Field) (value : Value), store.analyzer = analyzer →
      store.schema.Built → field ∈ store.schema.indexedFields → value.asText = text →
        ∀ token ∈ analyzer.tokenizer.tokens text, ∀ filter key,
          (field.name, some key) ∈ store.targets token.text filter →
            key ∈ store.fieldTerms field value ∧ key ≠ "" := by
  have hfound : ∀ token ∈ analyzer.tokenizer.tokens text, ∀ key,
      analyzer.normalize token.text = some key → key ∈ analyzer.terms text :=
    fun token htoken key => Analyzer.mem_terms_of_normalize
      (Analyzer.mem_firstOccurrences.2 (List.mem_map_of_mem htoken))
  have hnonempty := analyzer.empty_notMem_terms text
  refine ⟨analyzer.terms_eq_eraseDups text, hnonempty, hfound, ?_⟩
  rintro store field value rfl built hfield rfl token htoken filter key hkey
  have hcomputed := key_of_mem_targets built hfield hkey
  unfold fieldTerms
  cases hunique : field.flags.unique with
  | true =>
    obtain rfl : key = token.text := by simpa [hunique] using hcomputed
    exact ⟨Analyzer.mem_firstOccurrences.2 (List.mem_map_of_mem htoken),
      Tokenizer.text_ne_empty htoken⟩
  | false =>
    have hmem := hfound token htoken key (by simpa [hunique] using hcomputed)
    exact ⟨hmem, fun hempty => hnonempty (hempty ▸ hmem)⟩

/-- Songs have a title. Its words are stemmed, cleared of symbols and then stemmed once more. -/
def songStore : Store :=
  withAnalyzer { name := "songs", fields := [⟨"title", { indexed := true }⟩] } {}
    { name := "twice", tokenizer := { lowercase := true },
      filters := [.stemmer, .lowercaseAlphanumeric, .stopWords ["the"], .stemmer] } ∅

/-- A word in capitals with an apostrophe is found in a title that holds it. -/
theorem keys_of_words_songs :
    ("title", some "cat") ∈ songStore.targets "cat's" none ∧
    "cat" ∈ songStore.fieldTerms ⟨"title", { indexed := true }⟩ (.text "The CAT'S Meow") ∧
      "cat" ≠ "" := by
  have built : songStore.schema.Built :=
    @Schema.Built.addField _ _ "title" { indexed := true } (.start "songs" "standard") rfl
  have htoken : ⟨"cat's", 1, 4⟩ ∈ songStore.analyzer.tokenizer.tokens "The CAT'S Meow" := by
    decide +kernel
  have htarget : ("title", some "cat") ∈ songStore.targets "cat's" none := by decide +kernel
  exact ⟨htarget, (keys_of_words songStore.analyzer "The CAT'S Meow").2.2.2 songStore
    ⟨"title", { indexed := true }⟩ (.text "The CAT'S Meow") rfl built (by decide) rfl _ htoken none
    "cat" htarget⟩

end Concordance.Store
