import Concordance.Proofs.Search.Disjunctions
import Concordance.Proofs.Search.Ranking
import Concordance.Proofs.Search.Repetitions

set_option relaxedAutoImplicit false
set_option autoImplicit false

/-!
# What hits are justified by

Whatever becomes of a hit while a query is evaluated, it tells the truth: it has what is stored of
its document, and each value and each field in it comes from a leaf outside all exclusions that
returns the document alone. A hit that has been dropped and comes back is read anew, so nothing is
left of its first life.

## Main definitions

* `Concordance.Query.HasLeaf` — the leaves of a query that lie outside all exclusions.
* `Concordance.Search.MatchesIn` — a leaf matches a document in a field.
* `Concordance.Search.Justified` — what a hit tells is true.

## Main results

* `Concordance.Search.mem_fields_leaf` — the fields that a leaf adds to hits are those in which it
  matches.
* `Concordance.Search.AllJustified.evaluate` — hits stay justified while a query is evaluated.
* `Concordance.Search.justified_of_run` — the hits of a query are justified.
-/

namespace Concordance

/-- A query has a leaf outside all exclusions, at whatever depth. -/
inductive Query.HasLeaf : Query → Query → Prop
  | leaf (kind : Leaf) (field value : String) (boost : Option Single) :
    HasLeaf (.leaf kind field value boost) (.leaf kind field value boost)
  | group {joint : Joint} {parts : List Query} {boost : Option Single} {part leaf : Query}
    (hpart : part ∈ parts) (h : HasLeaf part leaf) : HasLeaf (.group joint parts boost) leaf

/-- The values that the hit of a document has matched; a new one has none. -/
lemma ResultSet.mem_terms_hitOf {set : ResultSet} {id : DocId} {value : String} :
    value ∈ (set.hitOf id).terms.keys ↔ value ∈ (set.matched id).getD ∅ := by
  unfold hitOf matched
  cases set.get? id with
  | none => exact iff_of_false List.not_mem_nil (Finset.notMem_empty value)
  | some hit => exact List.mem_toFinset.symm

namespace Search

open Operation Query ResultSet

variable {search : Search} {store : Store} {hits hits' : ResultSet} {id : DocId}
  {field value name : String}

/-- The values of a hit after one of them is noted for the documents of some kind. -/
lemma Notes.mem_terms {finds : DocId → Prop} (h : Notes value finds hits hits') (id : DocId)
    (other : String) : other ∈ (hits'.hitOf id).terms.keys ↔
      (finds id ∧ other = value) ∨ other ∈ (hits.hitOf id).terms.keys := by
  rw [mem_terms_hitOf, mem_terms_hitOf]
  by_cases hid : finds id
  · simp [h.noted id hid, hid]
  · simp [h.spared id hid, hid]

/-! ## How a leaf matches -/

/-- What a leaf that is no phrase looks up: the documents with a term, or with similar terms if
there are none, or those with a term that starts like a text. -/
def lookUp (store : Store) (kind : Leaf) (field value : String) : Except Error Matches :=
  match kind with
  | .term => do
    let found ← store.byTerm value (fieldOf field)
    if found.total = 0 then store.byTypo value (fieldOf field) else return found
  | .start => store.byStart value (fieldOf field)
  | .phrase => return ∅

/-- A leaf matches a document in a field: the look-up of the leaf lists it there. A phrase matches
if the index lists the document for every word of the phrase, the phrase is looked for in the field,
and the value that is stored there contains it. -/
inductive MatchesIn (store : Store) : Query → DocId → String → Prop
  | listed {kind : Leaf} {field value name : String} {boost : Option Single} {id : DocId}
    {found : Matches} {list : PostingList} (hkind : kind ≠ .phrase)
    (hfound : lookUp store kind field value = .ok found) (hlist : found.get? name = some list)
    (hid : id ∈ list.ids) : MatchesIn store (.leaf kind field value boost) id name
  | holds {field value name : String} {boost : Option Single} {id : DocId}
    {lists : List PostingList} {stored : Fields} {text : Value}
    (hlists : (words store value).mapM (byWord store (fieldOf field)) = .ok lists)
    (hid : id ∈ (common lists).ids) (hfetch : store.fetch id = .ok (some stored))
    (hname : name ∈ phraseFields store (fieldOf field)) (htext : stored.get? name = some text)
    (hholds : value.toList <:+: text.asText.toList) :
    MatchesIn store (.leaf .phrase field value boost) id name

/-- Hits tell of some reasons more, each a field in which a document matched. -/
structure Tells (reason : DocId → String → Prop) (hits hits' : ResultSet) : Prop where
  mem_ids : ∀ id, id ∈ hits'.ids ↔ (∃ name, reason id name) ∨ id ∈ hits.ids
  mem_fields : ∀ id name, name ∈ (hits'.hitOf id).fields.keys ↔
    reason id name ∨ name ∈ (hits.hitOf id).fields.keys

/-- Which reasons there are matters, not how this is put. -/
lemma Tells.congr {reason reason' : DocId → String → Prop} (h : Tells reason hits hits')
    (hreason : ∀ id name, reason id name ↔ reason' id name) : Tells reason' hits hits' := by
  obtain rfl : reason = reason' := funext fun id => funext fun name => propext (hreason id name)
  exact h

/-! ### Terms -/

/-- A document is among the reasons of matches with a field if it is on the list of that field. -/
lemma mem_reasons {found : Matches} :
    (name, id) ∈ reasons found ↔ ∃ list, found.get? name = some list ∧ id ∈ list.ids := by
  simp only [reasons, List.mem_flatMap, List.mem_map, OrderedMap.get?_eq_some_iff]
  constructor
  · rintro ⟨⟨name, list⟩, hentry, other, hid, heq⟩
    cases heq
    exact ⟨list, hentry, hid⟩
  · rintro ⟨list, hentry, hid⟩
    exact ⟨(name, list), hentry, id, hid, rfl⟩

/-- A match that is noted for a document tells of the field.

**Proof sketch.** Induction on the matches that are noted: each adds its field to the hit of its own
document. -/
lemma mem_fields_noteAll (h : hits.Sound) (found : Matches) (value : String) :
    name ∈ ((noteAll found value hits).hitOf id).fields.keys ↔
      (name, id) ∈ reasons found ∨ name ∈ (hits.hitOf id).fields.keys := by
  unfold noteAll
  induction reasons found generalizing hits with
  | nil => simp [updateAll]
  | cons reason reasons ih =>
    have hid : ∀ hit, (Hit.recordMatch reason.1 value hit).id = hit.id := fun hit => rfl
    have hrest := ih (h.update reason.2 hid)
    rw [h.hitOf_update reason.2 hid] at hrest
    refine hrest.trans ?_
    obtain ⟨field, other⟩ := reason
    by_cases heq : id = other
    · subst heq
      simp [Hit.recordMatch, OrderedMap.mem_keys_add, or_assoc, or_left_comm]
    · simp [heq]

/-- Matches that are added tell of the fields that list a document.

**Proof sketch.** What is noted for a document are the fields that contribute it; describing changes
no fields. -/
lemma tells_attach (h : hits.Sound) {found : Matches}
    (hrun : attach store found value hits = .ok hits') :
    Tells (fun id name => ∃ list, found.get? name = some list ∧ id ∈ list.ids) hits hits' := by
  have hnotes := notes_attach h hrun
  rw [attach_eq] at hrun
  obtain ⟨documents, hdocuments, hrun⟩ := bind_eq_ok_iff.1 hrun
  obtain rfl := Except.ok.inj hrun
  obtain ⟨hnoted, -⟩ := sound_noteAll h found value
  refine ⟨fun id => ?_, fun id name => ?_⟩
  · rw [hnotes.mem_ids_iff h]
    simp only [← mem_reasons]
    refine or_congr_left ?_
    constructor
    · rintro ⟨list, hlist, hid⟩
      obtain ⟨entry, hentry, rfl⟩ := List.mem_map.1 hlist
      exact ⟨entry.1, List.mem_flatMap.2 ⟨entry, hentry, List.mem_map_of_mem hid⟩⟩
    · rintro ⟨name, hreason⟩
      obtain ⟨list, hlist, hid⟩ := mem_reasons.1 hreason
      exact ⟨list, List.mem_map_of_mem (OrderedMap.get?_eq_some_iff.1 hlist), hid⟩
  · rw [← mem_reasons, ← mem_fields_noteAll h]
    unfold describe
    rw [hnoted.hitOf_updateAll fun hit => hit.fields.keys]
    · exact fun document hit => rfl
    · exact fun document hit => rfl

/-! ### Phrases -/

/-- The fields of a hit in which a phrase has been noted. -/
lemma mem_fields_withPhrase (fields : List String) (value : String) (document : Document)
    (hit : Hit) : name ∈ (withPhrase fields value document hit).fields.keys ↔
      name ∈ fields ∨ name ∈ hit.fields.keys := by
  rw [withPhrase, foldl_recordMatch]
  exact OrderedMap.mem_keys_foldl_add

/-- A phrase that is noted for documents tells of the fields that hold it.

**Proof sketch.** Induction on the documents. Those of which no field holds the phrase are passed
over, and each of the others adds the fields that hold it. -/
lemma mem_fields_foldl_notePhrase (h : hits.Sound) (fields : List String) (value : String)
    (documents : List Document) :
    name ∈ ((documents.foldl (notePhrase fields value) hits).hitOf id).fields.keys ↔
      (∃ document ∈ documents, document.id = id ∧
        name ∈ fields.filter (fieldHolds document.fields value)) ∨
      name ∈ (hits.hitOf id).fields.keys := by
  induction documents generalizing hits with
  | nil => simp
  | cons document documents ih =>
    rw [List.foldl_cons, notePhrase_eq, List.exists_mem_cons_iff]
    split
    · next hnone => simp [ih h, hnone]
    · have hid := id_withPhrase (fields.filter (fieldHolds document.fields value)) value document
      rw [ih (h.update document.id hid), h.hitOf_update document.id hid]
      split
      · next heq =>
        subst heq
        rw [mem_fields_withPhrase]
        simp [or_assoc, or_left_comm]
      · next hne => simp [Ne.symm hne]

/-- A phrase tells of the documents that hold it, and of the fields in which they do.

**Proof sketch.** A field of a document holds the phrase iff the leaf matches the document there:
the document is under all words of the phrase, it has been read, and the field is one in which
phrases are looked for. -/
lemma tells_phrase (h : hits.Sound) (boost : Option Single)
    (hrun : phrase store field value hits = .ok hits') :
    Tells (MatchesIn store (.leaf .phrase field value boost)) hits hits' := by
  obtain ⟨lists, hlists, hrun⟩ := bind_eq_ok_iff.1 hrun
  obtain ⟨documents, hdocuments, hrun⟩ := bind_eq_ok_iff.1 hrun
  obtain rfl := Except.ok.inj hrun
  have hreason : ∀ id name, (∃ document ∈ documents, document.id = id ∧
      name ∈ (phraseFields store (fieldOf field)).filter (fieldHolds document.fields value)) ↔
        MatchesIn store (.leaf .phrase field value boost) id name := by
    intro id name
    constructor
    · rintro ⟨document, hdocument, rfl, hname⟩
      obtain ⟨hid, hfetch⟩ := (Store.mem_documents hdocuments document).1 hdocument
      obtain ⟨hname, hholds⟩ := List.mem_filter.1 hname
      obtain ⟨text, htext, hholds⟩ := fieldHolds_iff.1 hholds
      exact .holds hlists hid hfetch hname htext hholds
    · intro hmatches
      cases hmatches with
      | listed hkind => exact absurd rfl hkind
      | @holds _ _ _ _ _ lists' stored text hlists' hid hfetch hname htext hholds =>
        obtain rfl := Except.ok.inj (hlists'.symm.trans hlists)
        exact ⟨⟨id, stored⟩, (Store.mem_documents hdocuments _).2 ⟨hid, hfetch⟩, rfl,
          List.mem_filter.2 ⟨hname, fieldHolds_iff.2 ⟨text, htext, hholds⟩⟩⟩
  refine Tells.congr ⟨fun id => ?_, fun id name => ?_⟩ hreason
  · rw [(notes_phrase h _ value documents).mem_ids_iff h]
    refine or_congr_left ?_
    constructor
    · rintro ⟨document, hdocument, hsome, hid⟩
      obtain ⟨name, hname⟩ := List.exists_mem_of_ne_nil _ hsome
      exact ⟨name, document, hdocument, hid, hname⟩
    · rintro ⟨name, document, hdocument, hid, hname⟩
      exact ⟨document, hdocument, List.ne_nil_of_mem hname, hid⟩
  · exact mem_fields_foldl_notePhrase h _ value documents

/-! ### Leaves -/

/-- A leaf that is no phrase adds the matches of its look-up. -/
lemma leaf_eq {kind : Leaf} (hkind : kind ≠ .phrase) (hits : ResultSet) :
    leaf store kind field value hits =
      lookUp store kind field value >>= fun found => attach store found value hits := by
  cases kind with
  | phrase => exact absurd rfl hkind
  | start => rfl
  | term =>
    rw [leaf, term, lookUp, bind_assoc]
    refine congrArg _ (funext fun found => ?_)
    split <;> rfl

/-- **The fields of a match.** A leaf tells of the documents that it matches, and of the fields in
which it does.

**Proof sketch.** A phrase is noted for the fields that hold it. Any other leaf attaches what it has
found, and the lists found in a field tell which documents match in it. -/
theorem tells_leaf (h : hits.Sound) {kind : Leaf} (boost : Option Single)
    (hrun : leaf store kind field value hits = .ok hits') :
    Tells (MatchesIn store (.leaf kind field value boost)) hits hits' := by
  by_cases hkind : kind = .phrase
  · subst hkind
    exact tells_phrase h boost hrun
  · rw [leaf_eq hkind] at hrun
    obtain ⟨found, hfound, hrun⟩ := bind_eq_ok_iff.1 hrun
    refine (tells_attach h hrun).congr fun id name => ?_
    constructor
    · rintro ⟨list, hlist, hid⟩
      exact .listed hkind hfound hlist hid
    · intro hmatches
      cases hmatches with
      | holds => exact absurd rfl hkind
      | @listed _ _ _ _ _ _ found' list _ hfound' hlist hid =>
        obtain rfl := Except.ok.inj (hfound'.symm.trans hfound)
        exact ⟨list, hlist, hid⟩

/-! ## Justified hits -/

/-- What a hit tells is true: it has what is stored of its document, nothing if that is not stored.
It has matched some value, and each is that of a leaf that returns the document alone. It has
matched in some field, and each is one in which such a leaf matches the document. -/
structure Justified (search : Search) (leaves : Query → Prop) (hit : Hit) : Prop where
  document : ∃ stored, search.store.fetch hit.id = .ok stored ∧ hit.document = stored.getD ∅
  terms_ne : hit.terms.keys ≠ []
  terms : ∀ value ∈ hit.terms.keys, ∃ leaf, leaves leaf ∧ search.FindsFor leaf hit.id value
  fields_ne : hit.fields.keys ≠ []
  fields : ∀ name ∈ hit.fields.keys, ∃ leaf, leaves leaf ∧ search.Returns leaf hit.id ∧
    MatchesIn search.store leaf hit.id name

/-- All hits are justified. -/
structure AllJustified (search : Search) (leaves : Query → Prop) (hits : ResultSet) : Prop where
  sound : hits.Sound
  justified : ∀ hit ∈ hits.hits, Justified search leaves hit

variable {leaves : Query → Prop}

/-- Without hits there is nothing to be justified. -/
lemma allJustified_empty (search : Search) (leaves : Query → Prop) :
    AllJustified search leaves .empty := ⟨sound_empty, fun _ hhit => absurd hhit List.not_mem_nil⟩

namespace AllJustified

/-- Hits that are dropped take nothing away from the others. -/
lemma of_subset (h : AllJustified search leaves hits) (hsound : hits'.Sound)
    (hsub : hits'.hits ⊆ hits.hits) : AllJustified search leaves hits' :=
  ⟨hsound, fun hit hhit => h.justified hit (hsub hhit)⟩

/-- The hits tell which documents have been matched, and what is stored of them. -/
lemma evidence (h : AllJustified search leaves hits) :
    Evidence search.store hits.ids (fun id => (hits.hitOf id).fulltext = true) hits := by
  refine ⟨h.sound, ?_, fun id hid => ?_, fun id => Iff.rfl⟩
  · have hlist := @PostingList.foldl_add_eq hits.ids .empty h.sound.nodup
    exact hlist.symm
  · obtain ⟨hit, hhit, rfl⟩ := List.mem_map.1 hid
    rw [h.sound.hitOf_of_mem hhit]
    exact (h.justified hit hhit).document

/-- The documents of justified hits can be read. -/
lemma readable (h : AllJustified search leaves hits) : Readable search.store hits :=
  h.evidence.readable

/-- The values and fields of the hit of a document are justified. A new hit has none. -/
lemma hitOf (h : AllJustified search leaves hits) (id : DocId) :
    (∀ value ∈ (hits.hitOf id).terms.keys, ∃ leaf, leaves leaf ∧ search.FindsFor leaf id value) ∧
    (∀ name ∈ (hits.hitOf id).fields.keys, ∃ leaf, leaves leaf ∧ search.Returns leaf id ∧
      MatchesIn search.store leaf id name) ∧
    (id ∈ hits.ids → (hits.hitOf id).terms.keys ≠ [] ∧ (hits.hitOf id).fields.keys ≠ []) := by
  by_cases hid : id ∈ hits.ids
  · obtain ⟨hit, hhit, rfl⟩ := List.mem_map.1 hid
    rw [h.sound.hitOf_of_mem hhit]
    have hjustified := h.justified hit hhit
    exact ⟨hjustified.terms, hjustified.fields,
      fun _ => ⟨hjustified.terms_ne, hjustified.fields_ne⟩⟩
  · rw [h.sound.hitOf_of_not_mem hid]
    exact ⟨List.forall_mem_nil _, List.forall_mem_nil _, fun hmem => absurd hmem hid⟩

/-- A leaf adds hits that are justified by it, and is one more reason for those that it finds again.

**Proof sketch.** The documents of new hits are read, those of old ones stay. The leaf is noted for
the documents that it returns alone, with its value and with the fields in which it matches. -/
lemma leaf (h : AllJustified search leaves hits) {kind : Leaf} {boost : Option Single}
    (hleaf : leaves (.leaf kind field value boost))
    (hrun : Search.leaf search.store kind field value hits = .ok hits') :
    AllJustified search leaves hits' := by
  obtain ⟨hreadable, alone, halone, hnotes⟩ := leaf_alone h.readable hrun
  obtain ⟨_, _, hevidence⟩ := h.evidence.leaf hrun
  have htells := tells_leaf h.sound boost hrun
  have hrunAlone : search.run (.leaf kind field value boost) = .ok alone := halone
  have hfound : ∀ id, id ∈ alone.ids ↔ search.Returns (.leaf kind field value boost) id :=
    fun id => (returns_iff hrunAlone).symm
  have hreturns : ∀ id, search.Returns (.leaf kind field value boost) id ↔
      ∃ name, MatchesIn search.store (.leaf kind field value boost) id name := by
    intro id
    rw [← hfound, (tells_leaf sound_empty boost halone).mem_ids]
    exact or_iff_left List.not_mem_nil
  refine ⟨hreadable.sound, fun hit hhit => ?_⟩
  have hterms := hnotes.mem_terms hit.id
  have hfields := htells.mem_fields hit.id
  have hdocument := hevidence.document hit.id (List.mem_map_of_mem hhit)
  have hid := (htells.mem_ids hit.id).1 (List.mem_map_of_mem hhit)
  -- from here on the hit is that of its id, so that the notes of the id speak of it
  rw [hreadable.sound.hitOf_of_mem hhit] at hterms hfields hdocument
  obtain ⟨hvalues, hnames, hsome⟩ := h.hitOf hit.id
  refine ⟨hdocument, ?_, fun other hother => ?_, ?_, fun name hname => ?_⟩
  · rcases hid with hmatches | hid
    · exact List.ne_nil_of_mem ((hterms value).2
        (.inl ⟨(hfound _).2 ((hreturns _).2 hmatches), rfl⟩))
    · obtain ⟨other, hother⟩ := List.exists_mem_of_ne_nil _ (hsome hid).1
      exact List.ne_nil_of_mem ((hterms other).2 (.inr hother))
  · rcases (hterms other).1 hother with ⟨hmem, rfl⟩ | hother
    · exact ⟨_, hleaf, rfl, (hfound _).1 hmem⟩
    · exact hvalues other hother
  · rcases hid with ⟨name, hname⟩ | hid
    · exact List.ne_nil_of_mem ((hfields name).2 (.inl hname))
    · obtain ⟨name, hname⟩ := List.exists_mem_of_ne_nil _ (hsome hid).2
      exact List.ne_nil_of_mem ((hfields name).2 (.inr hname))
  · rcases (hfields name).1 hname with hmatches | hname
    · exact ⟨_, hleaf, (hreturns _).2 ⟨name, hmatches⟩, hmatches⟩
    · exact hnames name hname

/-- The end of a group changes neither the documents of hits nor what they have matched. -/
lemma close (h : AllJustified search leaves hits) {joint : Joint} {parts : List Query}
    (hrun : search.close joint parts hits = .ok hits') : AllJustified search leaves hits' := by
  refine ⟨(close_ok h.sound hrun).1, fun hit hhit => ?_⟩
  obtain ⟨kept, hkept, rfl⟩ := close_eq hrun
  obtain ⟨source, hsource, rfl⟩ := List.mem_map.1 (List.mem_mergeSort.1 hhit)
  have hjustified := h.justified source (hkept.subset hsource)
  exact ⟨hjustified.document, hjustified.terms_ne, hjustified.terms, hjustified.fields_ne,
    hjustified.fields⟩

/-- An exclusion takes hits out. -/
lemma removeAll (h : AllJustified search leaves hits) (ids : List DocId) :
    AllJustified search leaves (hits.removeAll ids) := by
  refine h.of_subset (h.sound.removeAll ids) ?_
  rw [h.sound.removeAll_eq]
  exact List.filter_sublist.subset

end AllJustified

mutual

/-- **Hits stay justified** while a query is evaluated, if its leaves count as reasons.

**Proof sketch.** Induction on the query, along with its parts. Leaves add what is justified by
them, exclusions only take hits out, and the end of a group keeps some of the hits. -/
theorem AllJustified.evaluate {hits hits' : ResultSet} (h : AllJustified search leaves hits) :
    ∀ query, (∀ leaf, query.HasLeaf leaf → leaves leaf) →
      search.evaluate query hits = .ok hits' → AllJustified search leaves hits'
  | .leaf kind field value boost, hleaves, hrun =>
    h.leaf (hleaves _ (.leaf kind field value boost)) hrun
  | .group joint parts boost, hleaves, hrun => by
    have hparts : ∀ part ∈ parts, ∀ leaf, part.HasLeaf leaf → leaves leaf :=
      fun part hpart leaf hleaf => hleaves leaf (.group hpart hleaf)
    rw [Search.evaluate] at hrun
    obtain ⟨first, hfirst, hrun⟩ := bind_eq_ok_iff.1 hrun
    obtain ⟨second, hsecond, hrun⟩ := bind_eq_ok_iff.1 hrun
    exact ((h.evaluateParts false parts hparts hfirst).evaluateParts true parts hparts
      hsecond).close hrun
  | .not part boost, _, hrun => by
    rw [Search.evaluate] at hrun
    obtain ⟨excluded, -, hrun⟩ := bind_eq_ok_iff.1 hrun
    obtain rfl := Except.ok.inj hrun
    exact h.removeAll excluded.ids
  | .nothing reason, _, hrun => by
    obtain rfl := Except.ok.inj hrun
    exact h

/-- So do they while the parts of a group are. -/
theorem AllJustified.evaluateParts {hits hits' : ResultSet} (h : AllJustified search leaves hits)
    (excluding : Bool) : ∀ parts, (∀ part ∈ parts, ∀ leaf, part.HasLeaf leaf → leaves leaf) →
      search.evaluateParts excluding parts hits = .ok hits' → AllJustified search leaves hits'
  | [], _, hrun => by
    obtain rfl := Except.ok.inj hrun
    exact h
  | part :: parts, hleaves, hrun => by
    obtain ⟨hpart, hparts⟩ := List.forall_mem_cons.1 hleaves
    rw [Search.evaluateParts] at hrun
    split at hrun
    · obtain ⟨next, hnext, hrun⟩ := bind_eq_ok_iff.1 hrun
      exact (h.evaluate part hpart hnext).evaluateParts excluding parts hparts hrun
    · exact h.evaluateParts excluding parts hparts hrun

end

/-- The values of a hit of a disjunction of leaves are those of the leaves that return its document
alone.

**Proof sketch.** No part excludes anything, so the values of a hit are those that the parts have
noted for its document, each of which is evaluated as if alone. -/
lemma mem_terms_of_anyOf {parts : List Query} {boost : Option Single}
    (hleaf : ∀ part ∈ parts, part.clause?.isSome)
    (hrun : search.run (.group .any parts boost) = .ok hits) {hit : Hit} (hhit : hit ∈ hits.hits)
    (value : String) :
    value ∈ hit.terms.keys ↔ ∃ part ∈ parts, search.FindsFor part hit.id value := by
  have hexcludes : ∀ part ∈ parts, part.excludes = false := by
    intro part hpart
    cases part with
    | not part weight => cases hleaf _ hpart
    | leaf kind field value weight => rfl
    | group joint parts weight => rfl
    | nothing reason => rfl
  obtain ⟨hreadable, hmatched⟩ := matched_evaluate search (readable_empty search.store) _ hrun
  obtain ⟨-, hmem⟩ := @mem_noteParts_iff search parts hit.id
    (fun part hpart => isFlat_of_leaf (hleaf part hpart)) none
  rw [← hreadable.sound.hitOf_of_mem hhit, mem_terms_hitOf, hmatched, matched_empty,
    note_any hexcludes, hmem, hreadable.sound.hitOf_of_mem hhit]
  exact or_iff_right (Finset.notMem_empty value)

/-- **Every hit is justified.** The hits of a query that succeeds are of different documents. Each
has what is stored of its document. Its values, of which there are some, are those of leaves outside
all exclusions that return the document alone, and its fields, of which there are some, are those in
which such leaves match the document. If the query is a disjunction of leaves, its values are those
of all the leaves that return the document alone.

**Proof sketch.** A leaf reads the documents that have no hit, whether they never had one or have
lost it, and leaves what others have told as it is. All else drops hits, or changes their flags,
weights and places. -/
theorem justified_of_run (search : Search) {query : Query} {hits : ResultSet}
    (hrun : search.run query = .ok hits) :
    hits.ids.Nodup ∧ ∀ hit ∈ hits.hits,
      Justified search query.HasLeaf hit ∧
      ∀ parts boost, query = .group .any parts boost → (∀ part ∈ parts, part.clause?.isSome) →
        ∀ value, value ∈ hit.terms.keys ↔ ∃ part ∈ parts, search.FindsFor part hit.id value := by
  have hall := (allJustified_empty search query.HasLeaf).evaluate query (fun _ => id) hrun
  refine ⟨hall.sound.nodup, fun hit hhit => ⟨hall.justified hit hhit, ?_⟩⟩
  rintro parts boost rfl hleaf
  exact mem_terms_of_anyOf hleaf hrun hhit

/-- Memos about words like the starts of cat and of bird. -/
def catOrBird : List Query := [.leaf .start "title" "ca" none, likeBird]

/-- A memo about a cat and a dog is found for the cat alone. -/
theorem justified_of_run_memos : ∃ hits,
    (memoSearch ["cat dog"]).run (.group .any catOrBird none) = .ok hits ∧ hits.ids = [⟨"1"⟩] ∧
    ∀ hit ∈ hits.hits,
      Justified (memoSearch ["cat dog"]) (Query.group .any catOrBird none).HasLeaf hit ∧
      ∀ value, value ∈ hit.terms.keys ↔
        ∃ part ∈ catOrBird, (memoSearch ["cat dog"]).FindsFor part hit.id value := by
  obtain ⟨hits, hrun, hids⟩ := @exists_run_of_ids (memoSearch ["cat dog"])
    (.group .any catOrBird none) [⟨"1"⟩] (by decide +kernel)
  obtain ⟨-, hjustified⟩ := justified_of_run (memoSearch ["cat dog"]) hrun
  refine ⟨hits, hrun, hids, fun hit hhit => ⟨(hjustified hit hhit).1, ?_⟩⟩
  exact (hjustified hit hhit).2 catOrBird none rfl (by decide)

end Search

end Concordance
