import Concordance.Proofs.Engine.FreeIds
import Concordance.Proofs.Engine.Inversion
import Mathlib.Data.List.Dedup

set_option relaxedAutoImplicit false
set_option autoImplicit false

/-!
# Documents with a unique field

A document takes the place of the one that shares its value in the unique field. The one is found by
the tokens of the value: it is the first document that is under all of them, and its own value may
have more. So values replace only each other if no document comes in with tokens that are all among
those of another value from before, and then there is one document for each value, the latest.

## Main definitions

* `Concordance.IsLatest` — the last item with its key.
* `Concordance.Schema.OnlyUnique` — a schema with one unique field, which is indexed and stored.
* `Concordance.Store.Apart` — a document is not mistaken for one with another value.
* `Concordance.Store.View.HoldsLatest` — the latest documents of their values are stored.
* `Concordance.Store.View.Fits` — an id for a document, by what is stored.
* `Concordance.Engine.flushAll` — documents that come in batch by batch.

## Main results

* `Concordance.Engine.fits_of_resolve` — a document gets the id of the one with its value, or a
  free one.
* `Concordance.Store.View.HoldsLatest.put` — one more document.
* `Concordance.Engine.listed_of_flushAll` — what is stored after all batches.
* `Concordance.Engine.listed_of_flushAll_shorter` — a value with fewer tokens replaces another one.
-/

namespace Concordance

open Operation

/-! ## The latest items -/

section Items

variable {α β : Type} {key : α → β} {items : List α} {item other : α}

/-- An item with whose key no other one comes after it. -/
def IsLatest (key : α → β) (items : List α) (item : α) : Prop :=
  ∃ before after, items = before ++ item :: after ∧ ∀ other ∈ after, key other ≠ key item

/-- The latest item of its key is one of the items. -/
lemma IsLatest.mem (h : IsLatest key items item) : item ∈ items := by
  obtain ⟨before, after, rfl, -⟩ := h
  simp

/-- One more item is the latest with its key.

**Proof sketch.** An item is last, or it is the latest of those before and the last one has another
key. -/
lemma isLatest_append_singleton : IsLatest key (items ++ [item]) other ↔
    other = item ∨ IsLatest key items other ∧ key item ≠ key other := by
  constructor
  · rintro ⟨before, after, heq, hafter⟩
    rcases List.eq_nil_or_concat after with rfl | ⟨after, last, rfl⟩
    · exact .inl (List.singleton_inj.1 (List.append_inj' heq rfl).2).symm
    · rw [List.concat_eq_append, ← List.cons_append, ← List.append_assoc] at heq
      obtain ⟨rfl, hlast⟩ := List.append_inj' heq rfl
      obtain rfl := List.singleton_inj.1 hlast
      exact .inr ⟨⟨before, after, rfl, fun another hanother =>
        hafter another (by simp [hanother])⟩, hafter item (by simp)⟩
  · rintro (rfl | ⟨⟨before, after, rfl, hafter⟩, hne⟩)
    · exact ⟨items, [], rfl, by simp⟩
    · refine ⟨before, after ++ [item], by simp, fun another hanother => ?_⟩
      rcases List.mem_append.1 hanother with hanother | hanother
      · exact hafter another hanother
      · rw [List.mem_singleton.1 hanother]
        exact hne

/-- There is a latest item with the key of any item. -/
lemma exists_isLatest (h : item ∈ items) :
    ∃ other, IsLatest key items other ∧ key other = key item := by
  induction items using List.reverseRecOn with
  | nil => cases h
  | append_singleton items last ih =>
    by_cases heq : key last = key item
    · exact ⟨last, isLatest_append_singleton.2 (.inl rfl), heq⟩
    · rcases List.mem_append.1 h with hmem | hlast
      · obtain ⟨other, hother, hkey⟩ := ih hmem
        refine ⟨other, isLatest_append_singleton.2 (.inr ⟨hother, fun hsame => ?_⟩), hkey⟩
        exact heq (hsame.trans hkey)
      · rw [List.mem_singleton.1 hlast] at heq
        exact absurd rfl heq

end Items

/-! ## Views with the latest documents -/

/-- One field of a schema is unique, and it is indexed and stored. -/
structure Schema.OnlyUnique (schema : Schema) (u : Field) : Prop where
  mem : u ∈ schema.fields
  unique : u.flags.unique = true
  indexed : u.flags.indexed = true
  stored : u.flags.stored = true
  eq_of_unique : ∀ field ∈ schema.fields, field.flags.unique = true → field = u

namespace Store

variable {setup : Setup} {store : Store} {view : View} {mode : Mode} {u : Field}
  {done : List Fields} {fields : Fields}

/-- The tokens of the value of a field, none if there is no value. -/
def Setup.tokens (setup : Setup) (u : Field) (fields : Fields) : List String :=
  match fields.get? u.name with
  | some value => setup.analyzer.rawTerms value.asText
  | none => []

/-- A document that comes later has the value of an earlier one, or a token that the earlier one has
not. -/
def Apart (setup : Setup) (u : Field) (earlier later : Fields) : Prop :=
  later.get? u.name = earlier.get? u.name ∨ ¬ setup.tokens u later ⊆ setup.tokens u earlier

instance (setup : Setup) (u : Field) : DecidableRel (Apart setup u) := fun earlier later =>
  inferInstanceAs (Decidable (later.get? u.name = earlier.get? u.name ∨
    ¬ ∀ token ∈ setup.tokens u later, token ∈ setup.tokens u earlier))

/-- The tokens of documents with the same value of a field are the same. -/
lemma tokens_congr {fields' : Fields} (h : fields.get? u.name = fields'.get? u.name) :
    setup.tokens u fields = setup.tokens u fields' := by
  unfold Setup.tokens
  rw [h]

/-- The documents of a view are what is kept of the latest of those that have come in, one for each
value of a field. -/
structure View.HoldsLatest (view : View) (setup : Setup) (u : Field) (done : List Fields) :
    Prop where
  inverted : view.Inverted setup
  latest_of_mem : ∀ record ∈ view.docs.records, ∃ fields,
    IsLatest (fun fields : Fields => fields.get? u.name) done fields ∧
      record.fields = setup.schema.stored fields
  mem_of_latest : ∀ fields, IsLatest (fun fields : Fields => fields.get? u.name) done fields →
    ∃ record ∈ view.docs.records, record.fields = setup.schema.stored fields
  eq_of_value_eq : ∀ a ∈ view.docs.records, ∀ b ∈ view.docs.records,
    a.fields.get? u.name = b.fields.get? u.name → a = b

/-- An id is that of the document with the value of another one, or that of no document if there is
none. -/
def View.Fits (view : View) (u : Field) (id : DocId) (fields : Fields) : Prop :=
  ∀ record ∈ view.docs.records, record.id = id.text ↔ record.fields.get? u.name = fields.get? u.name

/-- An empty view holds the latest of no documents. -/
lemma View.holdsLatest_empty (setup : Setup) (u : Field) : View.empty.HoldsLatest setup u [] where
  inverted := View.inverted_empty setup
  latest_of_mem := fun _ hrecord => absurd hrecord List.not_mem_nil
  mem_of_latest := fun _ hfields => absurd hfields.mem List.not_mem_nil
  eq_of_value_eq := fun _ ha => absurd ha List.not_mem_nil

namespace View.HoldsLatest

/-- The values of the stored documents are those of the documents that have come in.

**Proof sketch.** The stored documents are the latest ones, and for every value there is a latest
document with it. -/
lemma mem_values_iff (h : view.HoldsLatest setup u done) (hu : setup.schema.OnlyUnique u)
    (value : Option Value) :
    (∃ record ∈ view.docs.records, record.fields.get? u.name = value) ↔
      ∃ fields ∈ done, fields.get? u.name = value := by
  constructor
  · rintro ⟨record, hrecord, rfl⟩
    obtain ⟨fields, hlatest, heq⟩ := h.latest_of_mem record hrecord
    refine ⟨fields, hlatest.mem, ?_⟩
    rw [heq, setup.built.get?_stored hu.mem hu.stored]
  · rintro ⟨fields, hfields, rfl⟩
    obtain ⟨latest, hlatest, hkey⟩ :=
      @exists_isLatest _ _ (fun fields : Fields => fields.get? u.name) _ _ hfields
    obtain ⟨record, hrecord, heq⟩ := h.mem_of_latest latest hlatest
    refine ⟨record, hrecord, ?_⟩
    rw [heq, setup.built.get?_stored hu.mem hu.stored]
    exact hkey

/-- A stored document has all tokens of a document that comes next iff it has its value. -/
lemma tokens_subset_iff (h : view.HoldsLatest setup u done) (hu : setup.schema.OnlyUnique u)
    (hapart : ∀ earlier ∈ done, Apart setup u earlier fields) {record : StoredDocument}
    (hrecord : record ∈ view.docs.records) :
    setup.tokens u fields ⊆ setup.tokens u record.fields ↔
      record.fields.get? u.name = fields.get? u.name := by
  constructor
  · intro hsubset
    obtain ⟨earlier, hearlier, hvalue⟩ := (h.mem_values_iff hu _).1 ⟨record, hrecord, rfl⟩
    rw [← tokens_congr hvalue] at hsubset
    exact (((hapart earlier hearlier).resolve_right (not_not.2 hsubset)).trans hvalue).symm
  · intro hvalue
    rw [tokens_congr hvalue]
    exact List.Subset.refl _

/-- There are as many stored documents as values. -/
lemma length_eq (h : view.HoldsLatest setup u done) (hu : setup.schema.OnlyUnique u) :
    view.docs.records.length =
      (done.map fun fields => fields.get? u.name).dedup.length := by
  have hnodup : (view.docs.records.map fun record => record.fields.get? u.name).Nodup := by
    refine List.Nodup.map_on h.eq_of_value_eq (view.docs.pairwise_key_ne.imp fun hne heq => ?_)
    exact hne (congrArg Record.key heq)
  have hperm : (view.docs.records.map fun record => record.fields.get? u.name).Perm
      (done.map fun fields => fields.get? u.name).dedup := by
    refine (List.perm_ext_iff_of_nodup hnodup (List.nodup_dedup _)).2 fun value => ?_
    rw [List.mem_dedup, List.mem_map, List.mem_map]
    exact h.mem_values_iff hu value
  rw [← hperm.length_eq, List.length_map]

/-- There are at most as many documents as have come in. -/
lemma size_le (h : view.HoldsLatest setup u done) (hu : setup.schema.OnlyUnique u) :
    view.docs.size ≤ done.length := by
  rw [Table.size, h.length_eq hu]
  exact ((List.dedup_sublist _).length_le).trans_eq (List.length_map _)

/-- **One more document** that is stored under the id of the one with its value, or under a free id
if there is none.

**Proof sketch.** A stored document has the id iff it has the value, so the new one takes the place
of just this one. What was the latest with another value still is, and the new one is the latest
with its own. So there is one document for each value as before. -/
theorem put (h : view.HoldsLatest setup u done) (hu : setup.schema.OnlyUnique u) {view' : View}
    {id : DocId} (hdocs : view'.docs = view.docs.put (setup.document id fields))
    (hinverted : view'.Inverted setup) (hid : view.Fits u id fields) :
    view'.HoldsLatest setup u (done ++ [fields]) := by
  have hkept : ∀ fields : Fields,
      (setup.schema.stored fields).get? u.name = fields.get? u.name :=
    setup.built.get?_stored hu.mem hu.stored
  -- the id of a record is the new one iff its value is, so exactly the record with it goes
  have hmem : ∀ record, record ∈ view'.docs.records ↔ record = setup.document id fields ∨
      record ∈ view.docs.records ∧ record.fields.get? u.name ≠ fields.get? u.name := by
    intro record
    rw [hdocs, Table.mem_put]
    refine or_congr_right (and_congr_right fun hrecord => not_congr ?_)
    rw [← hid record hrecord]
    exact ⟨fun hkey => Key.text.inj hkey, fun hkey => congrArg Key.text hkey⟩
  refine ⟨hinverted, fun record hrecord => ?_, fun other hother => ?_, fun a ha b hb heq => ?_⟩
  · rcases (hmem record).1 hrecord with rfl | ⟨hold, hne⟩
    · exact ⟨fields, isLatest_append_singleton.2 (.inl rfl), rfl⟩
    · obtain ⟨other, hother, heq⟩ := h.latest_of_mem record hold
      rw [heq, hkept] at hne
      exact ⟨other, isLatest_append_singleton.2 (.inr ⟨hother, hne.symm⟩), heq⟩
  · rcases isLatest_append_singleton.1 hother with rfl | ⟨hold, hne⟩
    · exact ⟨_, (hmem _).2 (.inl rfl), rfl⟩
    · obtain ⟨record, hrecord, heq⟩ := h.mem_of_latest other hold
      refine ⟨record, (hmem record).2 (.inr ⟨hrecord, ?_⟩), heq⟩
      rw [heq, hkept]
      exact hne.symm
  · have hnew : (setup.document id fields).fields.get? u.name = fields.get? u.name := hkept fields
    rcases (hmem a).1 ha with rfl | ⟨ha, hane⟩
    · rcases (hmem b).1 hb with rfl | ⟨hb, hbne⟩
      · rfl
      · exact absurd (heq.symm.trans hnew) hbne
    · rcases (hmem b).1 hb with rfl | ⟨hb, hbne⟩
      · exact absurd (heq.trans hnew) hane
      · exact h.eq_of_value_eq a ha b hb heq

end View.HoldsLatest

/-- The terms of a stored document in a unique field are the tokens of its value. -/
lemma hasTerm_iff_of_unique (hunique : u.flags.unique = true) (docs : Table StoredDocument)
    (token : String) (id : DocId) : HasTerm setup docs u token id ↔
      ∃ record, docs.get? (.text id.text) = some record ∧ token ∈ setup.tokens u record.fields := by
  have hterms : ∀ value, (setup.store ∅).fieldTerms u value =
      setup.analyzer.rawTerms value.asText := fun value => by
    rw [fieldTerms, if_pos hunique]
    rfl
  unfold HasTerm Setup.tokens
  simp only [hterms]
  refine exists_congr fun record => ?_
  cases record.fields.get? u.name <;> simp

/-- In a session the ids under a token of the unique field are those of the documents with it. -/
lemma Runs.postings_unique (h : store.Runs setup mode view) (hinv : view.Inverted setup)
    (hu : setup.schema.OnlyUnique u) (token : String) (id : DocId) :
    (∃ list, store.postings u.name token = .ok list ∧ id ∈ list.ids) ↔
      ∃ record, view.docs.get? (.text id.text) = some record ∧
        token ∈ setup.tokens u record.fields := by
  have hindexed : u ∈ setup.schema.indexedFields := Schema.mem_indexedFields.2 ⟨hu.mem, hu.indexed⟩
  obtain ⟨list, hrun, -, hlist⟩ := h.postings u.name token
  rw [← hasTerm_iff_of_unique hu.unique, ← hinv.mem_iff u hindexed hu.stored,
    ← hlist u hindexed rfl, hrun]
  simp

end Store

/-- A document waits under the id of a number. -/
structure Pending.IsNumbered (waiting : Pending) (n : Nat) : Prop where
  id_eq : waiting.id = .ofSequence n
  synthesized : waiting.synthesized = true

namespace Engine

open Store

variable {setup : Setup} {store : Store} {view : View} {mode : Mode} {u : Field}
  {done : List Fields} {fields : Fields}

/-! ## Which id a document gets -/

/-- There is one field to look for a match in. -/
lemma uniqueFields_eq (hbuilt : setup.schema.Built) (hu : setup.schema.OnlyUnique u)
    (hfields : fields.contains u.name = true) : uniqueFields setup.schema fields = [u] := by
  have hnodup : (uniqueFields setup.schema fields).Nodup :=
    (hbuilt.pairwise.imp fun hne heq => hne (congrArg Field.name heq)).filter _
  refine List.perm_singleton.1 ((List.perm_ext_iff_of_nodup hnodup (List.nodup_singleton u)).2
    fun field => ?_)
  rw [uniqueFields, List.mem_filter, List.mem_singleton]
  constructor
  · rintro ⟨hfield, hflags⟩
    simp only [Bool.and_eq_true] at hflags
    exact hu.eq_of_unique field hfield hflags.1.1
  · rintro rfl
    simp [hu.mem, hu.unique, hu.indexed, hfields]

/-- The ids that share a value are those of the documents that have all of its tokens.

**Proof sketch.** An id shares the value if it is listed under every token, and the index says that
these are the documents that have the token. -/
lemma sharing_unique_ok (h : store.Runs setup mode view) (hinv : view.Inverted setup)
    (hu : setup.schema.OnlyUnique u) {value : Value} (hvalue : fields.get? u.name = some value)
    (htokens : setup.tokens u fields ≠ []) :
    ∃ found, sharing store u.name value = .ok found ∧
      ∀ id, (∃ list, found = some list ∧ id ∈ list.ids) ↔
        ∃ record, view.docs.get? (.text id.text) = some record ∧
          setup.tokens u fields ⊆ setup.tokens u record.fields := by
  obtain ⟨saved, hfiles, -, -⟩ := h.files
  have hraw : store.analyzer.rawTerms value.asText = setup.tokens u fields := by
    rw [hfiles.analyzer_eq, Setup.tokens, hvalue]
  obtain ⟨found, hrun, hids⟩ := sharing_ok h u.name value
  refine ⟨found, hrun, fun id => ?_⟩
  rw [hids, hraw]
  simp only [h.postings_unique hinv hu]
  -- the tokens are all had by the one document under an id, or by none
  cases view.docs.get? (.text id.text) with
  | none =>
    obtain ⟨token, htoken⟩ := List.exists_mem_of_ne_nil _ htokens
    simpa using fun _ => ⟨token, htoken⟩
  | some record => simp [htokens, List.subset_def]

/-- A document matches a stored one that has all tokens of its value, if there is one.

**Proof sketch.** The only unique field with a value is looked up, and the first of the ids that
share the value is the answer. If none does, no document has all tokens, as its own id would share
them. -/
theorem uniqueMatch_ok (h : store.Runs setup mode view) (hinv : view.Inverted setup)
    (hu : setup.schema.OnlyUnique u) (htokens : setup.tokens u fields ≠ []) :
    ∃ found, uniqueMatch store fields = .ok found ∧
      (∀ id, found = some id → ∃ record, view.docs.get? (.text id.text) = some record ∧
        setup.tokens u fields ⊆ setup.tokens u record.fields) ∧
      (found = none → ∀ record ∈ view.docs.records,
        ¬ setup.tokens u fields ⊆ setup.tokens u record.fields) := by
  obtain ⟨saved, hfiles, -, -⟩ := h.files
  obtain ⟨value, hvalue⟩ : ∃ value, fields.get? u.name = some value := by
    cases hget : fields.get? u.name with
    | none => simp [Setup.tokens, hget] at htokens
    | some value => exact ⟨value, rfl⟩
  obtain ⟨found, hrun, hids⟩ := sharing_unique_ok h hinv hu hvalue htokens
  have hmatch : uniqueMatch store fields = .ok (found.bind fun list => list.ids.head?) := by
    have hcontains : fields.contains u.name = true := by
      rw [OrderedMap.contains, hvalue, Option.isSome_some]
    unfold uniqueMatch
    rw [hfiles.schema_eq, uniqueFields_eq setup.built hu hcontains, matchIn]
    simp only [hvalue, hrun, bind, Except.bind]
    cases found.bind fun list => list.ids.head? <;> rfl
  refine ⟨_, hmatch, fun id hid => ?_, fun hnone record hrecord hsubset => ?_⟩
  · obtain ⟨list, hlist, hhead⟩ := Option.bind_eq_some_iff.1 hid
    exact (hids id).1 ⟨list, hlist, List.mem_of_mem_head? hhead⟩
  · have hget : view.docs.get? (.text record.id) = some record :=
      Table.get?_eq_some_iff.2 ⟨hrecord, rfl⟩
    obtain ⟨list, hlist, hmem⟩ := (hids ⟨record.id⟩).2 ⟨record, hget, hsubset⟩
    rw [hlist, Option.bind_some, List.head?_eq_none_iff] at hnone
    rw [hnone] at hmem
    cases hmem

/-- **Which id a document gets.** That of the document with its value, or that of no document if
there is none, as long as it is not mistaken for one with another value.

**Proof sketch.** If a document has all tokens of the value it has the value, since none is mistaken
for one with another value, and it is the only one with it. Otherwise the id is free, and no
document has the value. -/
theorem fits_of_resolve (h : store.Runs setup mode view) (hlatest : view.HoldsLatest setup u done)
    (hu : setup.schema.OnlyUnique u) {waiting : Pending} {n : Nat}
    (hwaiting : waiting.IsNumbered n) (htokens : setup.tokens u waiting.fields ≠ [])
    (hapart : ∀ earlier ∈ done, Apart setup u earlier waiting.fields)
    (hn : n + (done.length + 1) ≤ 2 ^ 64) {id : DocId} (hrun : resolve store waiting = .ok id) :
    view.Fits u id waiting.fields := by
  obtain ⟨found, hmatch, hsome, hnone⟩ := uniqueMatch_ok h hlatest.inverted hu htokens
  unfold resolve at hrun
  rw [hmatch] at hrun
  cases found with
  | some other =>
    obtain rfl : other = id := Except.ok.inj hrun
    obtain ⟨found, hget, hsubset⟩ := hsome other rfl
    obtain ⟨hmem, hkey⟩ := Table.get?_eq_some_iff.1 hget
    have hvalue := (hlatest.tokens_subset_iff hu hapart hmem).1 hsubset
    intro record hrecord
    constructor
    · intro hid
      rw [view.docs.eq_of_key_eq hrecord hmem ((congrArg Key.text hid).trans hkey.symm), hvalue]
    · intro hrecordValue
      rw [hlatest.eq_of_value_eq record hrecord found hmem (hrecordValue.trans hvalue.symm)]
      exact Key.text.inj hkey
  | none =>
    have hsize := hlatest.size_le hu
    simp only [bind, Except.bind, hwaiting.synthesized, hwaiting.id_eq, if_true] at hrun
    have hfree := get?_of_freeId h hlatest.inverted.readable (by omega) hrun
    intro record hrecord
    refine iff_of_false (fun hid => ?_) fun hvalue => ?_
    · exact Table.get?_eq_none_iff.1 hfree record hrecord (congrArg Key.text hid)
    · exact hnone rfl record hrecord ((hlatest.tokens_subset_iff hu hapart hrecord).2 hvalue)

/-! ## Batches -/

/-- An id is looked for. -/
lemma takes_resolve (hu : setup.schema.OnlyUnique u) {waiting : Pending} {n : Nat}
    (hwaiting : waiting.IsNumbered n) (htokens : setup.tokens u waiting.fields ≠ [])
    (hapart : ∀ earlier ∈ done, Apart setup u earlier waiting.fields)
    (hn : n + (done.length + 1) ≤ 2 ^ 64) (written : OrderedMap String Fields) :
    Takes setup (fun view => view.HoldsLatest setup u done ∧ Agrees setup written view)
      (Op.look fun store => resolve store waiting)
      (fun id view => (view.HoldsLatest setup u done ∧ Agrees setup written view) ∧
        id.IsPlain ∧ view.Fits u id waiting.fields)
      fun _ => True := by
  have hplain : waiting.id.IsPlain := hwaiting.id_eq ▸ DocId.isPlain_ofSequence n
  refine .look (fun store view hruns hview id hid => ?_) fun _ _ => trivial
  exact ⟨hview, isPlain_of_resolve hruns hplain hid,
    fits_of_resolve hruns hview.1 hu hwaiting htokens hapart hn hid⟩

/-- A document takes its place.

**Proof sketch.** The document takes the place of the one with its value, and the index stays
inverted. With both, the view has the latest documents. -/
lemma takes_replace_latest (hu : setup.schema.OnlyUnique u)
    (hvalid : setup.schema.validate fields = .ok ()) (hnumbers : NumbersReadBack fields)
    (written : OrderedMap String Fields) (id : DocId) :
    Takes setup (fun view => (view.HoldsLatest setup u done ∧ Agrees setup written view) ∧
        id.IsPlain ∧ view.Fits u id fields)
      (replace written id fields)
      (fun _ view => view.HoldsLatest setup u (done ++ [fields]) ∧
        Agrees setup (written.insert id.text fields) view)
      fun _ => True := by
  intro store view hruns hview
  have htakes := @takes_replace_inverted setup id
    (fun view => (view.HoldsLatest setup u done ∧ Agrees setup written view) ∧ id.IsPlain ∧
      view.Fits u id fields)
    (fun view => view.HoldsLatest setup u (done ++ [fields])) (fun _ => True) written hview.2.1
    fields hvalid hnumbers (fun _ h => ⟨h.1.1.inverted, h.1.2⟩)
    fun _ _ h hdocs hinverted => h.1.1.put hu hdocs hinverted h.2.2
  exact htakes store view hruns hview

/-- The documents of a batch are written one after the other.

**Proof sketch.** Induction on the batch, with what has come in before as part of the invariant. A
document gets the id of the one with its value or a free one, and takes its place. -/
theorem takes_writeBatch_latest (hu : setup.schema.OnlyUnique u) {batch : List Pending}
    (hvalid : ∀ waiting ∈ batch, setup.schema.validate waiting.fields = .ok ())
    (hnumbers : ∀ waiting ∈ batch, NumbersReadBack waiting.fields)
    (htokens : ∀ waiting ∈ batch, setup.tokens u waiting.fields ≠ [])
    {done : List Fields} (hids : ∀ waiting ∈ batch, ∃ n, waiting.IsNumbered n ∧
      n + (done ++ batch.map Pending.fields).length ≤ 2 ^ 64)
    (hapart : (done ++ batch.map Pending.fields).Pairwise (Apart setup u))
    (written : OrderedMap String Fields) :
    Takes setup (fun view => view.HoldsLatest setup u done ∧ Agrees setup written view)
      (writeBatch written batch)
      (fun _ view => view.HoldsLatest setup u (done ++ batch.map Pending.fields))
      fun _ => True := by
  induction batch generalizing done written with
  | nil => exact .pure fun view hview => by simpa using hview.1
  | cons waiting batch ih =>
    obtain ⟨n, hwaiting, hn⟩ := hids waiting List.mem_cons_self
    have hlist : done ++ (waiting :: batch).map Pending.fields =
        (done ++ [waiting.fields]) ++ batch.map Pending.fields := by simp
    -- the first document moves over to those that are done, where the induction expects it
    rw [hlist] at hids hapart hn ⊢
    have hbefore : ∀ earlier ∈ done, Apart setup u earlier waiting.fields := by
      intro earlier hearlier
      rw [List.append_assoc] at hapart
      exact (List.pairwise_append.1 hapart).2.2 earlier hearlier _ List.mem_cons_self
    have hroom : n + (done.length + 1) ≤ 2 ^ 64 := by
      rw [List.length_append, List.length_append, List.length_singleton] at hn
      omega
    have hlook :=
      takes_resolve hu hwaiting (htokens waiting List.mem_cons_self) hbefore hroom written
    have hreplace := @takes_replace_latest setup u done waiting.fields hu
      (hvalid waiting List.mem_cons_self) (hnumbers waiting List.mem_cons_self) written
    have hrest := fun id : DocId => ih
      (fun other hother => hvalid other (List.mem_cons_of_mem _ hother))
      (fun other hother => hnumbers other (List.mem_cons_of_mem _ hother))
      (fun other hother => htokens other (List.mem_cons_of_mem _ hother))
      (fun other hother => hids other (List.mem_cons_of_mem _ hother)) hapart
      (written.insert id.text waiting.fields)
    exact hlook.bind fun id => (hreplace id).bind fun _ => (hrest id).bind fun ids =>
      .pure fun view hview => hview

/-! ## Engines -/

/-- Documents come in batch by batch, and each batch is flushed. -/
def flushAll : List (List Fields) → Op Unit
  | [] => pure ()
  | batch :: batches => do
    batch.forM fun fields => do
      let _ ← add fields
    let _ ← flush
    flushAll batches

/-- An engine that stores the latest of the documents that have been flushed. The others wait under
numbers that are no larger than the number of all documents. -/
structure Latest (engine : Engine) (setup : Setup) (u : Field) (done : List Fields) : Prop where
  stands : engine.Stands setup .made none fun view => view.HoldsLatest setup u done
  numbered : ∀ waiting ∈ engine.pending, ∃ n, waiting.IsNumbered n ∧
    n ≤ (done ++ engine.pending.map Pending.fields).length

variable {engine engine' : Engine}

/-- Documents are counted in a session of their own. -/
lemma stands_of_count {P : View → Prop} (h : engine.store.Stands setup .made none P) {total : Nat}
    (hrun : count engine = .ok total engine') :
    (∃ view, P view ∧ total = view.docs.size) ∧
      ∃ store', store'.Stands setup .made none P ∧ engine' = { engine with store := store' } := by
  obtain ⟨store', hwithin, rfl⟩ := exists_of_onStore hrun
  obtain ⟨counted, store'', view, hask, hstands, hP, rfl⟩ :=
    @Store.Stands.gives_look _ _ _ _ _ _ (fun total view => total = view.docs.size) h (by simp)
      (fun store => store.docs.total) fun hopened _ => by
        obtain ⟨saved, hfiles, -, -⟩ := hopened.files
        exact ⟨_, hfiles.docs.1.total, rfl⟩
  cases hask.symm.trans hwithin
  refine ⟨⟨view, hP, rfl⟩, store', hstands.imp ?_, rfl⟩
  rintro _ rfl
  exact hP

namespace Latest

/-- One more document waits.

**Proof sketch.** The number of the new document is that of the stored and waiting ones and itself,
and no more documents are stored than have come in. -/
lemma add (h : engine.Latest setup u done) (hu : setup.schema.OnlyUnique u) {id : DocId}
    (hrun : Engine.add fields engine = .ok id engine') : engine'.Latest setup u done ∧
      engine'.pending.map Pending.fields = engine.pending.map Pending.fields ++ [fields] := by
  obtain ⟨stored, counted, hcount, hrest⟩ := exists_of_bind_ok hrun
  obtain ⟨⟨view, hview, rfl⟩, store', hstore', rfl⟩ := stands_of_count h.stands.store hcount
  obtain rfl : engine' = { engine with
      store := store'
      pending := engine.pending ++
        [⟨.ofSequence (view.docs.size + engine.pending.length + 1), fields, true⟩] } := by
    cases hrest
    rfl
  refine ⟨⟨⟨hstore', fun waiting hwaiting => ?_⟩, fun waiting hwaiting => ?_⟩, by simp⟩
  · rcases List.mem_append.1 hwaiting with hwaiting | hwaiting
    · exact h.stands.plain waiting hwaiting
    · rw [List.mem_singleton.1 hwaiting]
      exact DocId.isPlain_ofSequence _
  · simp only [List.map_append, List.length_append, List.length_map, List.length_singleton]
    rcases List.mem_append.1 hwaiting with hwaiting | hwaiting
    · obtain ⟨n, hnumbered, hn⟩ := h.numbered waiting hwaiting
      rw [List.length_append, List.length_map] at hn
      exact ⟨n, hnumbered, by omega⟩
    · rw [List.mem_singleton.1 hwaiting]
      have hsize := hview.size_le hu
      exact ⟨view.docs.size + engine.pending.length + 1, ⟨rfl, rfl⟩, by omega⟩

/-- Several more documents wait.

**Proof sketch.** Induction on the batch: each document comes behind those that wait already. -/
lemma addAll (h : engine.Latest setup u done) (hu : setup.schema.OnlyUnique u) {batch : List Fields}
    (hrun : (batch.forM fun fields => do let _ ← Engine.add fields : Op Unit) engine =
      .ok () engine') : engine'.Latest setup u done ∧
      engine'.pending.map Pending.fields = engine.pending.map Pending.fields ++ batch := by
  induction batch generalizing engine with
  | nil =>
    cases hrun
    exact ⟨h, (List.append_nil _).symm⟩
  | cons fields batch ih =>
    obtain ⟨_, added, hadd, hrest⟩ := exists_of_bind_ok hrun
    obtain ⟨id, _, hadd, heq⟩ := exists_of_bind_ok hadd
    cases heq
    obtain ⟨hadded, hfields⟩ := h.add hu hadd
    obtain ⟨hall, hfields'⟩ := ih hadded hrest
    refine ⟨hall, ?_⟩
    rw [hfields', hfields, List.append_assoc, List.singleton_append]

/-- The documents that wait are flushed.

**Proof sketch.** A batch that is written takes the latest of what has come in to the latest of that
and the batch. No document waits any longer. -/
lemma flush (h : engine.Latest setup u done) (hu : setup.schema.OnlyUnique u)
    (hnumbers : ∀ waiting ∈ engine.pending, NumbersReadBack waiting.fields)
    (htokens : ∀ waiting ∈ engine.pending, setup.tokens u waiting.fields ≠ [])
    (hsize : (done ++ engine.pending.map Pending.fields).length ≤ 2 ^ 63)
    (hapart : (done ++ engine.pending.map Pending.fields).Pairwise (Apart setup u))
    {ids : List DocId} (hrun : Engine.flush engine = .ok ids engine') :
    engine'.Latest setup u (done ++ engine.pending.map Pending.fields) ∧ engine'.pending = [] := by
  rcases flush_eq engine with ⟨hflush, hempty⟩ | hflush
  · rw [hflush] at hrun
    cases hrun
    refine ⟨?_, hempty⟩
    rwa [hempty, List.map_nil, List.append_nil]
  · rw [hflush] at hrun
    obtain ⟨store', hwrite, rfl⟩ := exists_of_onStore hrun
    have hids : ∀ waiting ∈ engine.pending, ∃ n, waiting.IsNumbered n ∧
        n + (done ++ engine.pending.map Pending.fields).length ≤ 2 ^ 64 := by
      intro waiting hwaiting
      obtain ⟨n, hnumbered, hn⟩ := h.numbered waiting hwaiting
      exact ⟨n, hnumbered, by omega⟩
    have hbatch := fun hvalid => (takes_writeBatch_latest hu hvalid hnumbers htokens hids hapart
      ∅).of_imp fun view (hview : view.HoldsLatest setup u done) =>
        ⟨hview, fun id fields hget => by rw [OrderedMap.get?_empty] at hget; cases hget⟩
    rcases h.stands.store.writeAll_cases hbatch with
      ⟨_, store'', hwrite', hstands⟩ | ⟨e, store'', hwrite', -⟩
    · cases hwrite.symm.trans hwrite'
      exact ⟨⟨⟨hstands, fun waiting hwaiting => by cases hwaiting⟩,
        fun waiting hwaiting => by cases hwaiting⟩, rfl⟩
    · cases hwrite.symm.trans hwrite'

/-- All batches are flushed.

**Proof sketch.** Induction on the batches. What waits after a batch has been added is the batch,
and flushing it makes it part of what has come in. -/
theorem flushAll (h : engine.Latest setup u done) (hu : setup.schema.OnlyUnique u)
    (hpending : engine.pending = []) {batches : List (List Fields)}
    (hnumbers : ∀ fields ∈ batches.flatten, NumbersReadBack fields)
    (htokens : ∀ fields ∈ batches.flatten, setup.tokens u fields ≠ [])
    (hsize : (done ++ batches.flatten).length ≤ 2 ^ 63)
    (hapart : (done ++ batches.flatten).Pairwise (Apart setup u))
    (hrun : Engine.flushAll batches engine = .ok () engine') :
    engine'.Latest setup u (done ++ batches.flatten) := by
  induction batches generalizing engine done with
  | nil =>
    cases hrun
    simpa using h
  | cons batch batches ih =>
    obtain ⟨_, added, hadd, hrest⟩ := exists_of_bind_ok hrun
    obtain ⟨ids, flushed, hflush, hrest⟩ := exists_of_bind_ok hrest
    obtain ⟨hadded, hfields⟩ := h.addAll hu hadd
    rw [hpending, List.map_nil, List.nil_append] at hfields
    rw [List.flatten_cons] at hnumbers htokens hsize hapart ⊢
    rw [← List.append_assoc] at hsize hapart ⊢
    have hwaiting : ∀ waiting ∈ added.pending, waiting.fields ∈ batch ++ batches.flatten :=
      fun waiting hwaiting => List.mem_append_left _ (hfields ▸ List.mem_map_of_mem hwaiting)
    have hfirst := hadded.flush hu (fun waiting hmem => hnumbers _ (hwaiting waiting hmem))
      (fun waiting hmem => htokens _ (hwaiting waiting hmem))
      (by rw [hfields]; rw [List.length_append] at hsize; omega)
      (by rw [hfields]; exact (List.pairwise_append.1 hapart).1) hflush
    rw [hfields] at hfirst
    exact ih hfirst.1 hfirst.2 (fun fields hmem => hnumbers fields (List.mem_append_right _ hmem))
      (fun fields hmem => htokens fields (List.mem_append_right _ hmem)) hsize hapart hrest

end Latest

/-- **Unique values.** An engine starts with an empty directory, and documents come in whose schema
has one unique field. No document is mistaken for one with another value. Once all of them are
flushed, there are as many stored documents as values. Each value is held by one stored document,
and this is what is kept of the last document that came in with the value.

**Proof sketch.** By the run over all batches, the view holds the latest of the documents that have
come in. Since it reads its documents back, they are listed, and there is one for each value. -/
theorem listed_of_flushAll (setup : Setup) (scoring : Scoring) (hu : setup.schema.OnlyUnique u)
    (hstart : (start (setup.store ∅) scoring).1 = .ok engine) {batches : List (List Fields)}
    (hnumbers : ∀ fields ∈ batches.flatten, NumbersReadBack fields)
    (htokens : ∀ fields ∈ batches.flatten, setup.tokens u fields ≠ [])
    (hsize : batches.flatten.length ≤ 2 ^ 63)
    (hapart : batches.flatten.Pairwise (Apart setup u))
    (hrun : flushAll batches engine = .ok () engine') :
    ∃ documents, engine'.store.docs.listed = .ok documents ∧
      documents.length = (batches.flatten.map fun fields => fields.get? u.name).dedup.length ∧
      ∀ fields ∈ batches.flatten, ∃ latest,
        IsLatest (fun fields : Fields => fields.get? u.name) batches.flatten latest ∧
          latest.get? u.name = fields.get? u.name ∧
        ∃ document ∈ documents, document.fields = setup.schema.stored latest ∧
          document.fields.get? u.name = fields.get? u.name ∧
          ∀ other ∈ documents,
            other.fields.get? u.name = fields.get? u.name → other = document := by
  obtain ⟨hstands, hpending⟩ := @stands_start setup (fun view => view.HoldsLatest setup u [])
    engine scoring hstart (View.holdsLatest_empty setup u)
  have hengine : engine.Latest setup u [] :=
    ⟨hstands, fun waiting hwaiting => by rw [hpending] at hwaiting; cases hwaiting⟩
  obtain ⟨view, ⟨-, hrests⟩ | ⟨himpossible, -⟩, hview⟩ :=
    (hengine.flushAll hu hpending hnumbers htokens hsize hapart hrun).stands.store.stands
  · rw [List.nil_append] at hview
    have hlisted := hrests.files.docs.1.listed fun document hdocument =>
      StoredDocument.readsBack (hview.inverted.storable document hdocument)
    refine ⟨view.docs.records, hlisted, hview.length_eq hu, fun fields hfields => ?_⟩
    obtain ⟨latest, hlatest, hkey⟩ :=
      @exists_isLatest _ _ (fun fields : Fields => fields.get? u.name) _ _ hfields
    obtain ⟨document, hdocument, heq⟩ := hview.mem_of_latest latest hlatest
    have hvalue : document.fields.get? u.name = fields.get? u.name := by
      rw [heq, setup.built.get?_stored hu.mem hu.stored]
      exact hkey
    exact ⟨latest, hlatest, hkey, document, hdocument, heq, hvalue, fun other hother hsame =>
      hview.eq_of_value_eq other hother document hdocument (hsame.trans hvalue.symm)⟩
  · cases himpossible

/-- The slug of a page is its own. -/
def slug : Field := ⟨"slug", { stored := true, indexed := true, unique := true }⟩

/-- Pages have a slug and a title. -/
def pageSetup : Setup where
  schema := { name := "pages", fields := [slug, ⟨"title", { stored := true }⟩] }
  config := {}
  analyzer := .simple
  built := @Schema.Built.addField _ _ "title" { stored := true }
    (@Schema.Built.addField _ _ "slug" slug.flags (.start "pages" "standard") rfl) rfl

/-- The slug is the only field of the pages that is unique. -/
lemma onlyUnique_slug : pageSetup.schema.OnlyUnique slug where
  mem := by decide
  unique := rfl
  indexed := rfl
  stored := rfl
  eq_of_unique := by decide

/-- A page with a slug and a title. -/
def page (slug title : String) : Fields := .ofList [("slug", .text slug), ("title", .text title)]

/-- A page has no numbers. -/
lemma numbersReadBack_page (slug title : String) : NumbersReadBack (page slug title) := by
  intro x hx
  have horder : compare "title" "slug" = .gt := by decide
  simp [page, OrderedMap.values, OrderedMap.ofList, OrderedMap.insert, OrderedMap.empty,
    OrderedMap.place, horder] at hx

/-- The number of pages that are stored after some have come in, if nothing goes wrong. -/
def pagesAfter (batches : List (List Fields)) : Option Nat :=
  match (start (pageSetup.store ∅) {}).1 with
  | .error _ => none
  | .ok engine =>
    match flushAll batches engine with
    | .error _ _ => none
    | .ok _ engine => engine.store.docs.listed.toOption.map List.length

/-- Pages that are counted after batches of them are counted in an engine that started without any
files, took all batches and then listed its documents. -/
lemma exists_of_pagesAfter {batches : List (List Fields)} {n : Nat}
    (h : pagesAfter batches = some n) : ∃ engine engine' documents,
      (start (pageSetup.store ∅) {}).1 = .ok engine ∧ flushAll batches engine = .ok () engine' ∧
        engine'.store.docs.listed = .ok documents ∧ documents.length = n := by
  unfold pagesAfter at h
  split at h
  · cases h
  · next engine hstart =>
    split at h
    · cases h
    · next engine' hrun =>
      obtain ⟨documents, hlisted, hlength⟩ := Option.map_eq_some_iff.1 h
      refine ⟨engine, engine', documents, hstart, hrun, ?_, hlength⟩
      cases hcase : engine'.store.docs.listed with
      | error e => simp [hcase, Except.toOption] at hlisted
      | ok listed => simpa [hcase, Except.toOption] using hlisted

/-- Two pages come in, and another one for one of them. -/
def catPages : List (List Fields) :=
  [[page "cat page" "Meow", page "dog page" "Bark"], [page "cat page" "Purr"]]

/-- Two pages are stored, and the later one for the slug that came in twice. -/
theorem listed_of_flushAll_catPages : ∃ engine engine',
    (start (pageSetup.store ∅) {}).1 = .ok engine ∧ flushAll catPages engine = .ok () engine' ∧
      ∃ documents, engine'.store.docs.listed = .ok documents ∧ documents.length = 2 := by
  obtain ⟨engine, engine', -, hstart, hrun, -, -⟩ :=
    @exists_of_pagesAfter catPages 2 (by decide +kernel)
  have hnumbers : ∀ fields ∈ catPages.flatten, NumbersReadBack fields := by
    simp [catPages, numbersReadBack_page]
  obtain ⟨documents, hlisted, hlength, -⟩ := listed_of_flushAll pageSetup {} onlyUnique_slug hstart
    hnumbers (by decide +kernel) (by decide) (by decide +kernel) hrun
  exact ⟨engine, engine', hstart, hrun, documents, hlisted, hlength.trans (by decide +kernel)⟩

/-- **A value can replace another one.** A page comes in whose slug has one of the two tokens of the
slug of another page. It takes the place of that page, so one page is stored for the two slugs. -/
theorem listed_of_flushAll_shorter : ∃ engine engine' documents,
    (start (pageSetup.store ∅) {}).1 = .ok engine ∧
      flushAll [[page "red fox" "Fox"], [page "red" "Red"]] engine = .ok () engine' ∧
      engine'.store.docs.listed = .ok documents ∧ documents.length = 1 ∧
      (page "red fox" "Fox").get? "slug" ≠ (page "red" "Red").get? "slug" := by
  obtain ⟨engine, engine', documents, hstart, hrun, hlisted, hlength⟩ :=
    @exists_of_pagesAfter [[page "red fox" "Fox"], [page "red" "Red"]] 1 (by decide +kernel)
  exact ⟨engine, engine', documents, hstart, hrun, hlisted, hlength, by decide +kernel⟩

end Engine

end Concordance
