import Concordance.Proofs.Operations
import Concordance.Proofs.PostingLists
import Concordance.Proofs.Search.ResultSets
import Concordance.Search.Evaluate
import Mathlib.Data.Finset.Card

set_option relaxedAutoImplicit false
set_option autoImplicit false

/-!
# Evaluation one document at a time

All parts of a query work on the same hits, but what a query does to the hit of a document depends
on that hit alone: on whether there is one and on the values that it has matched so far. So a query
can be followed for one document, without the others.

## Main definitions

* `Concordance.ResultSet.matched` — the values that a document has matched.
* `Concordance.Search.Returns`, `Misses` — a query succeeds, and has a hit of a document or none.
* `Concordance.Search.Notes` — a value is noted for some documents.
* `Concordance.Search.note` — what a query does to the matches of one document.

## Main results

* `Concordance.Search.leaf_alone` — a leaf notes its value for the documents that it returns alone.
* `Concordance.Search.matched_evaluate` — what a document has matched after a query is evaluated.
* `Concordance.Search.mem_ids_run` — the documents that have a hit.
-/

namespace Concordance

namespace ResultSet

/-- The values that a document has matched, if it has a hit. -/
def matched (set : ResultSet) (id : DocId) : Option (Finset String) :=
  (set.get? id).map fun hit => hit.terms.keys.toFinset

/-- Nothing is matched for any document by no hits. -/
lemma matched_empty (id : DocId) : empty.matched id = none := rfl

variable {set set' : ResultSet} {id other : DocId}

/-- Something is matched for a document iff it has a hit. -/
lemma Sound.isSome_matched_iff (h : set.Sound) : (set.matched id).isSome ↔ id ∈ set.ids := by
  rw [matched, Option.isSome_map, h.isSome_get?_iff]

/-- Changing hits without their values leaves what has been matched alone. -/
lemma Sound.matched_map (h : set.Sound) {change : Hit → Hit}
    (hid : ∀ hit, (change hit).id = hit.id) (hterms : ∀ hit, (change hit).terms = hit.terms)
    (id : DocId) : (set.map change).matched id = set.matched id := by
  rw [matched, h.get?_map hid, Option.map_map, matched]
  congr 1
  funext hit
  rw [Function.comp_apply, hterms]

/-- Sorting hits does not change what is matched. -/
lemma Sound.matched_sortByWeight (h : set.Sound) (id : DocId) :
    set.sortByWeight.matched id = set.matched id := by
  rw [matched, h.get?_sortByWeight, matched]

/-- The values of a hit are counted once each. -/
lemma card_toFinset_keys (hit : Hit) : hit.terms.keys.toFinset.card = hit.terms.size := by
  rw [List.toFinset_card_of_nodup hit.terms.nodup_keys]
  exact List.length_map _

/-- The hits with a given number of values. -/
lemma Sound.matched_retain (h : set.Sound) (n : Nat) (id : DocId) :
    (set.retain fun hit => hit.terms.size = n).matched id =
      (set.matched id).filter fun terms => terms.card = n := by
  rw [matched, h.get?_retain, matched]
  cases set.get? id with
  | none => rfl
  | some hit =>
    by_cases hsize : hit.terms.size = n
    · simp [Option.filter, card_toFinset_keys, hsize]
    · simp [Option.filter, card_toFinset_keys, hsize]

/-- The values of a hit after one more has been noted. -/
lemma toFinset_keys_add (terms : OrderedSet String) (term : String) :
    (terms.add term).keys.toFinset = insert term terms.keys.toFinset := by
  ext other
  rw [Finset.mem_insert, List.mem_toFinset, List.mem_toFinset]
  exact OrderedMap.mem_keys_add

/-- The values of a hit after one of them has been noted for several fields. -/
lemma toFinset_foldl_add (value : String) (fields : List String) (terms : OrderedSet String) :
    (fields.foldl (fun terms _ => terms.add value) terms).keys.toFinset =
      if fields = [] then terms.keys.toFinset else insert value terms.keys.toFinset := by
  induction fields generalizing terms with
  | nil => rfl
  | cons field fields ih =>
    rw [List.foldl_cons, ih, toFinset_keys_add]
    split <;> simp

end ResultSet

namespace Search

open ResultSet

/-! ## What a query alone comes to -/

/-- A query alone succeeds and has a hit of a document. -/
def Returns (search : Search) (query : Query) (id : DocId) : Prop :=
  ∃ found, search.run query = .ok found ∧ id ∈ found.ids

/-- A query alone succeeds and has no hit of a document. -/
def Misses (search : Search) (query : Query) (id : DocId) : Prop :=
  ∃ found, search.run query = .ok found ∧ id ∉ found.ids

variable {search : Search} {store : Store} {hits hits' : ResultSet} {id : DocId} {value : String}

/-! ## Noting a value -/

/-- A value is noted for the documents of some kind. They get a hit if they have none. -/
structure Notes (value : String) (finds : DocId → Prop) (hits hits' : ResultSet) : Prop where
  sound : hits'.Sound
  noted : ∀ id, finds id → hits'.matched id = some (insert value ((hits.matched id).getD ∅))
  spared : ∀ id, ¬ finds id → hits'.matched id = hits.matched id

namespace Notes

variable {finds finds' : DocId → Prop} {hits'' : ResultSet}

/-- Nothing is noted. -/
lemma rfl (h : hits.Sound) : Notes value (fun _ => False) hits hits :=
  ⟨h, fun _ => False.elim, fun _ _ => Eq.refl _⟩

/-- A value that is noted twice for a document is noted once. -/
lemma trans (h : Notes value finds hits hits') (h' : Notes value finds' hits' hits'') :
    Notes value (fun id => finds id ∨ finds' id) hits hits'' := by
  refine ⟨h'.sound, fun id hid => ?_, fun id hid => ?_⟩
  · by_cases hlater : finds' id
    · rw [h'.noted id hlater]
      by_cases hbefore : finds id
      · rw [h.noted id hbefore, Option.getD_some, Finset.insert_idem]
      · rw [h.spared id hbefore]
    · rw [h'.spared id hlater, h.noted id (hid.resolve_right hlater)]
  · rw [not_or] at hid
    rw [h'.spared id hid.2, h.spared id hid.1]

/-- Which documents are found matters, not how this is put. -/
lemma congr (h : Notes value finds hits hits') (hfinds : ∀ id, finds id ↔ finds' id) :
    Notes value finds' hits hits' := by
  obtain rfl : finds = finds' := funext fun id => propext (hfinds id)
  exact h

/-- A value is noted step by step. -/
lemma foldl {α : Type} {step : ResultSet → α → ResultSet} {finds : α → DocId → Prop}
    {items : List α} (hstep : ∀ item ∈ items, ∀ hits : ResultSet, hits.Sound →
      Notes value (finds item) hits (step hits item)) (h : hits.Sound) :
    Notes value (fun id => ∃ item ∈ items, finds item id) hits (items.foldl step hits) := by
  induction items generalizing hits with
  | nil => exact (rfl h).congr (by simp)
  | cons item items ih =>
    have hfirst := hstep item List.mem_cons_self hits h
    have hrest := ih (fun other hother => hstep other (List.mem_cons_of_mem _ hother)) hfirst.sound
    exact (hfirst.trans hrest).congr (by simp)

/-- The documents that have a hit are those for which the value is noted, and those before. -/
lemma mem_ids_iff (h : Notes value finds hits hits') (hhits : hits.Sound) :
    id ∈ hits'.ids ↔ finds id ∨ id ∈ hits.ids := by
  rw [← h.sound.isSome_matched_iff, ← hhits.isSome_matched_iff]
  by_cases hid : finds id
  · simp [h.noted id hid, hid]
  · simp [h.spared id hid, hid]

/-- What happens to hits without regard to their values. -/
lemma map_hit (h : Notes value finds hits hits') {changed : ResultSet} (hsound : changed.Sound)
    (hsame : ∀ id, changed.matched id = hits'.matched id) : Notes value finds hits changed :=
  ⟨hsound, fun id hid => (hsame id).trans (h.noted id hid),
    fun id hid => (hsame id).trans (h.spared id hid)⟩

end Notes

/-- A value is noted for one document. -/
lemma notes_update (h : hits.Sound) (id : DocId) {change : Hit → Hit}
    (hid : ∀ hit, (change hit).id = hit.id)
    (hterms : ∀ hit, (change hit).terms.keys.toFinset = insert value hit.terms.keys.toFinset) :
    Notes value (fun other => other = id) hits (hits.update id change) := by
  refine ⟨h.update id hid, ?_, fun other hother => ?_⟩
  · rintro other rfl
    rw [matched, h.get?_update other hid, if_pos rfl, Option.map_some, hterms, matched]
    cases hits.get? other <;> rfl
  · rw [matched, h.get?_update id hid, if_neg hother, matched]

/-- To note a value for several fields changes the fields and the values of a hit, and nothing
else. -/
lemma foldl_recordMatch (value : String) (fields : List String) (hit : Hit) :
    fields.foldl (fun hit field => hit.recordMatch field value) hit =
      { hit with
        fields := fields.foldl OrderedSet.add hit.fields
        terms := fields.foldl (fun terms _ => terms.add value) hit.terms } := by
  induction fields generalizing hit with
  | nil => rfl
  | cons field fields ih => exact ih (hit.recordMatch field value)

/-! ## Documents -/

/-- Hits of documents that can be read. -/
structure Readable (store : Store) (hits : ResultSet) : Prop where
  sound : hits.Sound
  fetch : ∀ id ∈ hits.ids, ∃ fields, store.fetch id = .ok fields

/-- Without hits there is no document to be read. -/
lemma readable_empty (store : Store) : Readable store .empty :=
  ⟨sound_empty, fun id hid => by cases hid⟩

/-- Hits of fewer documents can be read as well. -/
lemma Readable.of_subset (h : Readable store hits) (hsound : hits'.Sound)
    (hids : ∀ id ∈ hits'.ids, id ∈ hits.ids) : Readable store hits' :=
  ⟨hsound, fun id hid => h.fetch id (hids id hid)⟩

/-- What notes a value for documents that can be read keeps all hits readable, and notes the value
for the documents that it alone has hits of. -/
lemma Notes.alone {finds : DocId → Prop} {alone : ResultSet}
    (hnotes : Notes value finds hits hits') (h : Readable store hits)
    (hfetch : ∀ id, finds id → ∃ fields, store.fetch id = .ok fields)
    (halone : Notes value finds .empty alone) :
    Readable store hits' ∧ Notes value (fun id => id ∈ alone.ids) hits hits' := by
  refine ⟨⟨hnotes.sound, fun id hid => ?_⟩, hnotes.congr fun id => ?_⟩
  · rcases (hnotes.mem_ids_iff h.sound).1 hid with hid | hid
    · exact hfetch id hid
    · exact h.fetch id hid
  · rw [halone.mem_ids_iff sound_empty]
    exact (or_iff_left List.not_mem_nil).symm

/-- Hits can be read after a step that matches no further documents. -/
lemma Readable.of_matched (h : Readable store hits) (hsound : hits'.Sound)
    (hsame : ∀ id, (hits'.matched id).isSome → (hits.matched id).isSome) : Readable store hits' :=
  h.of_subset hsound fun _ hid =>
    h.sound.isSome_matched_iff.1 (hsame _ (hsound.isSome_matched_iff.2 hid))

end Search

namespace Store

open Operation

variable {store : Store} {ids : List DocId} {documents : List Document}

/-- Documents are read if each of them can be, present or not.

**Proof sketch.** Induction on the ids: each is fetched in turn, and those without a document are
passed over. -/
lemma documents_ok_iff : (∃ documents, store.documents ids = .ok documents) ↔
    ∀ id ∈ ids, ∃ fields, store.fetch id = .ok fields := by
  induction ids with
  | nil => exact iff_of_true ⟨[], rfl⟩ (by simp)
  | cons id ids ih =>
    rw [List.forall_mem_cons, ← ih]
    constructor
    · rintro ⟨documents, hrun⟩
      obtain ⟨fields, hfetch, hrun⟩ := bind_eq_ok_iff.1 hrun
      refine ⟨⟨fields, hfetch⟩, ?_⟩
      cases fields with
      | none => exact ⟨documents, hrun⟩
      | some fields =>
        obtain ⟨rest, hrest, -⟩ := bind_eq_ok_iff.1 hrun
        exact ⟨rest, hrest⟩
    · rintro ⟨⟨fields, hfetch⟩, rest, hrest⟩
      cases fields with
      | none => exact ⟨rest, bind_eq_ok_iff.2 ⟨none, hfetch, hrest⟩⟩
      | some fields =>
        refine ⟨⟨id, fields⟩ :: rest, bind_eq_ok_iff.2 ⟨some fields, hfetch, ?_⟩⟩
        exact bind_eq_ok_iff.2 ⟨rest, hrest, rfl⟩

/-- The documents that are read are those that are there.

**Proof sketch.** Induction on the ids: each is fetched in turn, and a document is read iff it is
there. -/
lemma mem_documents (h : store.documents ids = .ok documents) (document : Document) :
    document ∈ documents ↔
      document.id ∈ ids ∧ store.fetch document.id = .ok (some document.fields) := by
  induction ids generalizing documents with
  | nil =>
    cases h
    simp
  | cons id ids ih =>
    obtain ⟨fields, hfetch, h⟩ := bind_eq_ok_iff.1 h
    cases fields with
    | none =>
      rw [ih h, List.mem_cons]
      refine and_congr_left fun hdocument => (or_iff_right ?_).symm
      rintro rfl
      rw [hfetch] at hdocument
      cases hdocument
    | some fields =>
      obtain ⟨rest, hrest, h⟩ := bind_eq_ok_iff.1 h
      obtain rfl := Except.ok.inj h
      rw [List.mem_cons, List.mem_cons, ih hrest]
      obtain ⟨id', fields'⟩ := document
      constructor
      · rintro (heq | ⟨hmem, hdocument⟩)
        · cases heq
          exact ⟨.inl rfl, hfetch⟩
        · exact ⟨.inr hmem, hdocument⟩
      · rintro ⟨rfl | hmem, hdocument⟩
        · rw [hfetch] at hdocument
          cases hdocument
          exact .inl rfl
        · exact .inr ⟨hmem, hdocument⟩

end Store

namespace Search

open ResultSet Operation

variable {search : Search} {store : Store} {hits hits' : ResultSet} {id : DocId} {value : String}

/-! ## Leaves -/

/-- Some field contributes an id. -/
def Contributes (found : Matches) (id : DocId) : Prop := ∃ list ∈ found.values, id ∈ list.ids

/-- Fresh documents are those of the matches that have no hit yet. -/
lemma mem_fresh (h : hits.Sound) {found : Matches} :
    id ∈ fresh hits found ↔ Contributes found id ∧ id ∉ hits.ids := by
  unfold fresh PostingList.ofList
  rw [PostingList.mem_foldl_add, List.mem_filter, List.mem_flatMap, ← h.contains_iff]
  simp [PostingList.empty, Contributes]

/-- A match in a field is noted for the documents of a list. -/
lemma notes_noteMatches (h : hits.Sound) (value field : String) (list : PostingList) :
    Notes value (fun id => id ∈ list.ids) hits (noteMatches value hits field list) := by
  have hids := @Notes.foldl hits value DocId
    (fun hits id => hits.update id (Hit.recordMatch field value)) (fun id other => other = id)
    list.ids (fun id _ hits hhits => notes_update hhits id (fun hit => rfl)
      fun hit => toFinset_keys_add hit.terms value) h
  exact hids.congr fun id => by simp

/-- Matches of a value are noted for the documents that some field contributes. -/
lemma notes_matches (h : hits.Sound) (found : Matches) (value : String) :
    Notes value (Contributes found) hits (found.entries.foldl
      (fun hits (field, list) => noteMatches value hits field list) hits) := by
  have hentries := @Notes.foldl hits value (String × PostingList)
    (fun hits (field, list) => noteMatches value hits field list)
    (fun entry id => id ∈ entry.2.ids) found.entries
    (fun entry _ hits hhits => notes_noteMatches hhits value entry.1 entry.2) h
  refine hentries.congr fun id => ?_
  constructor
  · rintro ⟨entry, hentry, hid⟩
    exact ⟨entry.2, List.mem_map_of_mem hentry, hid⟩
  · rintro ⟨list, hlist, hid⟩
    obtain ⟨entry, hentry, rfl⟩ := List.mem_map.1 hlist
    exact ⟨entry, hentry, hid⟩

/-- Changing hits without their values leaves what has been matched alone.

**Proof sketch.** Induction on the changes. Each is made to the hit of a document that has one, so
no hit is new and the values stay. -/
lemma foldl_update {α : Type} {key : α → DocId} {change : α → Hit → Hit}
    (hid : ∀ item hit, (change item hit).id = hit.id)
    (hterms : ∀ item hit, (change item hit).terms = hit.terms) (h : hits.Sound) {items : List α}
    (hmem : ∀ item ∈ items, key item ∈ hits.ids) :
    (items.foldl (fun hits item => hits.update (key item) (change item)) hits).Sound ∧
    ∀ id, (items.foldl (fun hits item => hits.update (key item) (change item)) hits).matched id =
      hits.matched id := by
  induction items generalizing hits with
  | nil => exact ⟨h, fun _ => rfl⟩
  | cons item items ih =>
    have hsound := h.update (key item) (hid item)
    have hsame : ∀ id, (hits.update (key item) (change item)).matched id = hits.matched id := by
      intro id
      rw [matched, h.get?_update (key item) (hid item)]
      split
      · next heq =>
        obtain ⟨hit, hhit⟩ := Option.isSome_iff_exists.1
          (h.isSome_get?_iff.2 (hmem item List.mem_cons_self))
        rw [heq, matched, hhit, Option.map_some, Option.getD_some, hterms]
        rfl
      · rfl
    obtain ⟨hsound', hsame'⟩ := ih hsound fun other hother => by
      rw [← hsound.isSome_matched_iff, hsame, h.isSome_matched_iff]
      exact hmem other (List.mem_cons_of_mem _ hother)
    exact ⟨hsound', fun id => (hsame' id).trans (hsame id)⟩

/-- Matches are added iff the documents without a hit can be read.

**Proof sketch.** Documents with a hit can be read already, so only those without one have to be. -/
lemma attach_ok (h : Readable store hits) (found : Matches) (value : String) :
    (∃ hits', attach store found value hits = .ok hits') ↔
      ∀ id, Contributes found id → ∃ fields, store.fetch id = .ok fields := by
  have hfresh : (∀ id ∈ fresh hits found, ∃ fields, store.fetch id = .ok fields) ↔
      ∀ id, Contributes found id → ∃ fields, store.fetch id = .ok fields := by
    simp only [mem_fresh h.sound]
    refine ⟨fun hfetch id hid => ?_, fun hfetch id hid => hfetch id hid.1⟩
    by_cases hmem : id ∈ hits.ids
    · exact h.fetch id hmem
    · exact hfetch id ⟨hid, hmem⟩
  rw [← hfresh, ← Store.documents_ok_iff]
  unfold attach
  simp only [bind_eq_ok_iff]
  constructor
  · rintro ⟨_, documents, hdocuments, -⟩
    exact ⟨documents, hdocuments⟩
  · rintro ⟨documents, hdocuments⟩
    exact ⟨_, documents, hdocuments, rfl⟩

/-- Matches that are added are noted for the documents that some field contributes. -/
lemma notes_attach (h : hits.Sound) {found : Matches}
    (hrun : attach store found value hits = .ok hits') :
    Notes value (Contributes found) hits hits' := by
  obtain ⟨documents, hdocuments, hrun⟩ := bind_eq_ok_iff.1 hrun
  have hnotes := notes_matches h found value
  obtain ⟨hsound, hsame⟩ := @foldl_update _ Document Document.id
    (fun document hit => { hit with document := document.fields }) (fun _ _ => rfl)
    (fun _ _ => rfl) hnotes.sound documents fun document hdocument => by
      rw [hnotes.mem_ids_iff h]
      exact .inl ((mem_fresh h).1 ((Store.mem_documents hdocuments document).1 hdocument).1).1
  obtain rfl := Except.ok.inj hrun
  exact hnotes.map_hit hsound hsame

/-- A phrase is noted for the documents that hold it.

**Proof sketch.** Induction on the documents: one in which no field holds the phrase changes
nothing, any other one notes it. -/
lemma notes_phrase (h : hits.Sound) (fields : List String) (value : String)
    (documents : List Document) :
    Notes value (fun id => ∃ document ∈ documents,
        fields.filter (fieldHolds document.fields value) ≠ [] ∧ document.id = id) hits
      (documents.foldl (notePhrase fields value) hits) := by
  refine Notes.foldl (fun document _ hits hhits => ?_) h
  unfold notePhrase
  split
  · next hnone => exact (Notes.rfl hhits).congr (by simp [hnone])
  · next hsome =>
    have hne : fields.filter (fieldHolds document.fields value) ≠ [] := fun hnil => hsome hnil
    refine (notes_update hhits document.id (fun hit => ?_) fun hit => ?_).congr fun id => ?_
    · rw [foldl_recordMatch]
    · rw [foldl_recordMatch]
      exact (toFinset_foldl_add value _ hit.terms).trans (if_neg hne)
    · simp [hne, eq_comm]

/-- Matches that are added to hits would also be added to none, and are noted for the documents
that get a hit then. -/
lemma attach_alone (h : Readable store hits) {found : Matches}
    (hrun : attach store found value hits = .ok hits') :
    Readable store hits' ∧ ∃ alone, attach store found value .empty = .ok alone ∧
      Notes value (fun id => id ∈ alone.ids) hits hits' := by
  have hfetch := (attach_ok h found value).1 ⟨hits', hrun⟩
  obtain ⟨alone, halone⟩ := (attach_ok (readable_empty store) found value).2 hfetch
  obtain ⟨hreadable, hnotes⟩ :=
    (notes_attach h.sound hrun).alone h hfetch (notes_attach sound_empty halone)
  exact ⟨hreadable, alone, halone, hnotes⟩

/-- A leaf that is no phrase adds the matches of a look-up, which does not depend on the hits.

**Proof sketch.** By the kinds of leaves. A term is looked up as it is and, if this finds nothing,
with typos; what starts with a text is looked up as such. -/
lemma exists_attach {kind : Leaf} {field : String} (hkind : kind ≠ .phrase)
    (hrun : leaf store kind field value hits = .ok hits') :
    ∃ found, ∀ hits, leaf store kind field value hits = attach store found value hits := by
  cases kind with
  | phrase => exact absurd rfl hkind
  | term =>
    obtain ⟨found, hfound, hrun⟩ := bind_eq_ok_iff.1 hrun
    by_cases htotal : found.total = 0
    · rw [if_pos htotal] at hrun
      obtain ⟨similar, hsimilar, -⟩ := bind_eq_ok_iff.1 hrun
      refine ⟨similar, fun hits => ?_⟩
      simp only [leaf, term, hfound, hsimilar]
      exact if_pos htotal
    · refine ⟨found, fun hits => ?_⟩
      simp only [leaf, term, hfound]
      exact if_neg htotal
  | start =>
    obtain ⟨found, hfound, -⟩ := bind_eq_ok_iff.1 hrun
    refine ⟨found, fun hits => ?_⟩
    simp only [leaf, start, hfound]
    rfl

/-- A phrase that is searched with hits of others notes its value for the documents that it has hits
of alone. -/
lemma phrase_alone (h : Readable store hits) {field : String}
    (hrun : phrase store field value hits = .ok hits') :
    Readable store hits' ∧ ∃ alone, phrase store field value .empty = .ok alone ∧
      Notes value (fun id => id ∈ alone.ids) hits hits' := by
  obtain ⟨lists, hlists, hrun⟩ := bind_eq_ok_iff.1 hrun
  obtain ⟨documents, hdocuments, hrun⟩ := bind_eq_ok_iff.1 hrun
  obtain rfl := Except.ok.inj hrun
  have hfetch : ∀ document ∈ documents, ∃ fields, store.fetch document.id = .ok fields :=
    fun document hdocument => ⟨_, ((Store.mem_documents hdocuments document).1 hdocument).2⟩
  obtain ⟨hreadable, hnotes⟩ := (notes_phrase h.sound (phraseFields store (fieldOf field)) value
    documents).alone h (fun id ⟨document, hdocument, _, hid⟩ => hid ▸ hfetch document hdocument)
      (notes_phrase sound_empty _ value documents)
  refine ⟨hreadable, _, bind_eq_ok_iff.2 ⟨lists, hlists, ?_⟩, hnotes⟩
  exact bind_eq_ok_iff.2 ⟨documents, hdocuments, rfl⟩

/-- A leaf that succeeds would also succeed alone, and then finds the documents for which it notes
its value.

**Proof sketch.** What a leaf looks up does not depend on the hits. Only documents without a hit are
read, but those with one have been read before. -/
theorem leaf_alone (h : Readable store hits) {kind : Leaf} {field : String}
    (hrun : leaf store kind field value hits = .ok hits') :
    Readable store hits' ∧ ∃ alone, leaf store kind field value .empty = .ok alone ∧
      Notes value (fun id => id ∈ alone.ids) hits hits' := by
  by_cases hkind : kind = .phrase
  · subst hkind
    exact phrase_alone h hrun
  · obtain ⟨found, hfound⟩ := exists_attach hkind hrun
    rw [hfound] at hrun ⊢
    exact attach_alone h hrun

/-! ## Groups -/

/-- Flagging hits leaves what they have matched alone. -/
lemma flag_ok (h : hits.Sound) (hrun : search.flag hits = .ok hits') :
    hits'.Sound ∧ ∀ id, hits'.matched id = hits.matched id := by
  unfold flag at hrun
  split at hrun
  · obtain rfl := Except.ok.inj hrun
    exact ⟨h, fun _ => rfl⟩
  · split at hrun
    · cases hrun
    · split at hrun
      · obtain rfl := Except.ok.inj hrun
        exact ⟨h, fun _ => rfl⟩
      · obtain rfl := Except.ok.inj hrun
        exact ⟨h.map fun _ => rfl, h.matched_map (fun _ => rfl) fun _ => rfl⟩

/-- So does weighing and sorting them. -/
lemma finish_ok (h : hits.Sound) {clauses : List Clause}
    (hrun : search.finish clauses hits = .ok hits') :
    hits'.Sound ∧ ∀ id, hits'.matched id = hits.matched id := by
  obtain ⟨flagged, hflag, hrun⟩ := bind_eq_ok_iff.1 hrun
  obtain ⟨hsound, hsame⟩ := flag_ok h hflag
  obtain rfl := Except.ok.inj hrun
  have hid : ∀ hit : Hit, ({ hit with weight := search.scoring.score hit clauses } : Hit).id =
      hit.id := fun _ => rfl
  have hweighed := hsound.map hid
  exact ⟨hweighed.sortByWeight, fun id => (hweighed.matched_sortByWeight id).trans
    ((hsound.matched_map hid (fun _ => rfl) id).trans (hsame id))⟩

/-- What the end of a group leaves of the matches of a document. -/
def kept (joint : Joint) (parts : List Query) (terms : Option (Finset String)) :
    Option (Finset String) :=
  match joint with
  | .all => terms.filter fun terms => terms.card = (parts.filterMap Query.clause?).length
  | .any => terms

/-- The end of a group leaves some of the hits, as they are matched. -/
lemma close_ok (h : hits.Sound) {joint : Joint} {parts : List Query}
    (hrun : search.close joint parts hits = .ok hits') :
    hits'.Sound ∧ ∀ id, hits'.matched id = kept joint parts (hits.matched id) := by
  cases joint with
  | any => exact finish_ok h hrun
  | all =>
    obtain ⟨hsound, hsame⟩ := finish_ok (h.retain _) hrun
    exact ⟨hsound, fun id => (hsame id).trans (h.matched_retain _ id)⟩

/-- The end of a group adds no hit. -/
lemma isSome_of_kept {joint : Joint} {parts : List Query} {terms : Option (Finset String)}
    (h : (kept joint parts terms).isSome) : terms.isSome := by
  cases joint with
  | any => exact h
  | all =>
    obtain ⟨kept, hkept⟩ := Option.isSome_iff_exists.1 h
    rw [(Option.filter_eq_some_iff.1 hkept).1]
    rfl

/-! ## Queries -/

mutual

/-- What a query does to the matches of one document. -/
def note (search : Search) (id : DocId) : Query → Option (Finset String) → Option (Finset String)
  | .leaf kind field value _, terms =>
    match leaf search.store kind field value .empty with
    | .ok alone => if id ∈ alone.ids then some (insert value (terms.getD ∅)) else terms
    | .error _ => terms
  | .group joint parts _, terms =>
    kept joint parts (noteParts search id true parts (noteParts search id false parts terms))
  | .not part _, terms => if (note search id part none).isSome then none else terms
  | .nothing _, terms => terms

/-- What the parts of a group do to the matches of one document, either those that exclude or those
that do not. -/
def noteParts (search : Search) (id : DocId) (excluding : Bool) :
    List Query → Option (Finset String) → Option (Finset String)
  | [], terms => terms
  | part :: parts, terms =>
    noteParts search id excluding parts
      (if part.excludes = excluding then note search id part terms else terms)

end

mutual

/-- **One document at a time.** What a document has matched after a query is evaluated depends on
nothing but what it had matched before.

**Proof sketch.** Induction on the query, along with its parts. A leaf notes its value as it would
alone. A group notes what its parts do, first those that add and then those that exclude, and what
its end keeps. An exclusion is evaluated without any hits, and takes out the documents that it
finds. The documents of all hits can be read, which keeps the leaves from failing. -/
theorem matched_evaluate (search : Search) {hits hits' : ResultSet}
    (h : Readable search.store hits) : ∀ query, search.evaluate query hits = .ok hits' →
      Readable search.store hits' ∧ ∀ id, hits'.matched id = search.note id query (hits.matched id)
  | .leaf kind field value boost, hrun => by
    obtain ⟨hreadable, alone, halone, hnotes⟩ := leaf_alone h hrun
    refine ⟨hreadable, fun id => ?_⟩
    rw [note]
    simp only [halone]
    split
    · next hid => exact hnotes.noted id hid
    · next hid => exact hnotes.spared id hid
  | .group joint parts boost, hrun => by
    rw [evaluate] at hrun
    obtain ⟨first, hfirst, hrun⟩ := bind_eq_ok_iff.1 hrun
    obtain ⟨second, hsecond, hrun⟩ := bind_eq_ok_iff.1 hrun
    obtain ⟨hreadable₁, hmatched₁⟩ := matched_evaluateParts search false h parts hfirst
    obtain ⟨hreadable₂, hmatched₂⟩ := matched_evaluateParts search true hreadable₁ parts hsecond
    obtain ⟨hsound, hmatched⟩ := close_ok hreadable₂.sound hrun
    refine ⟨hreadable₂.of_matched hsound fun id hid => ?_, fun id => ?_⟩
    · rw [hmatched] at hid
      exact isSome_of_kept hid
    · rw [note, hmatched, hmatched₂, hmatched₁]
  | .not part boost, hrun => by
    rw [evaluate] at hrun
    obtain ⟨excluded, hpart, hrun⟩ := bind_eq_ok_iff.1 hrun
    obtain rfl := Except.ok.inj hrun
    obtain ⟨hreadable, hmatched⟩ := matched_evaluate search (readable_empty search.store) part hpart
    have hsame : ∀ id, (hits.removeAll excluded.ids).matched id =
        if id ∈ excluded.ids then none else hits.matched id := by
      intro id
      rw [matched, h.sound.get?_removeAll]
      split <;> rfl
    refine ⟨h.of_matched (h.sound.removeAll _) fun id hid => ?_, fun id => ?_⟩
    · rw [hsame] at hid
      split at hid
      · cases hid
      · exact hid
    · rw [note, hsame, ← matched_empty id, ← hmatched]
      simp only [hreadable.sound.isSome_matched_iff]
  | .nothing reason, hrun => by
    obtain rfl := Except.ok.inj hrun
    exact ⟨h, fun _ => rfl⟩

/-- So does what it has matched after the parts of a group are.

**Proof sketch.** Induction on the parts, of which those of the other kind are left out. -/
theorem matched_evaluateParts (search : Search) (excluding : Bool) {hits hits' : ResultSet}
    (h : Readable search.store hits) : ∀ parts,
      search.evaluateParts excluding parts hits = .ok hits' →
      Readable search.store hits' ∧
        ∀ id, hits'.matched id = search.noteParts id excluding parts (hits.matched id)
  | [], hrun => by
    obtain rfl := Except.ok.inj hrun
    exact ⟨h, fun _ => rfl⟩
  | part :: parts, hrun => by
    rw [evaluateParts] at hrun
    simp only [noteParts]
    split at hrun
    · next hexcludes =>
      obtain ⟨next, hpart, hrun⟩ := bind_eq_ok_iff.1 hrun
      obtain ⟨hreadable, hmatched⟩ := matched_evaluate search h part hpart
      simp only [if_pos hexcludes, ← hmatched]
      exact matched_evaluateParts search excluding hreadable parts hrun
    · next hexcludes =>
      simp only [if_neg hexcludes]
      exact matched_evaluateParts search excluding h parts hrun

end

/-- The documents that a query has hits of. -/
theorem mem_ids_run {query : Query} (hrun : search.run query = .ok hits) (id : DocId) :
    id ∈ hits.ids ↔ (search.note id query none).isSome := by
  obtain ⟨hreadable, hmatched⟩ :=
    matched_evaluate search (readable_empty search.store) query hrun
  rw [← hreadable.sound.isSome_matched_iff, hmatched, matched_empty]

/-- A query that succeeds returns the documents of its hits. -/
lemma returns_iff {query : Query} (hrun : search.run query = .ok hits) {id : DocId} :
    search.Returns query id ↔ id ∈ hits.ids := by
  constructor
  · rintro ⟨hits', hrun', hid⟩
    rw [hrun] at hrun'
    obtain rfl := Except.ok.inj hrun'
    exact hid
  · exact fun hid => ⟨hits, hrun, hid⟩

/-- A query notes something for every document that it returns. -/
lemma Returns.isSome_note {query : Query} (h : search.Returns query id) :
    (search.note id query none).isSome := by
  obtain ⟨found, hrun, hid⟩ := h
  exact (mem_ids_run hrun id).1 hid

end Search

end Concordance
