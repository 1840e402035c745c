import Concordance.Proofs.Search.Conjunctions

set_option relaxedAutoImplicit false
set_option autoImplicit false

/-!
# What hits tell

While the parts of a group are evaluated, the hits tell which documents have been matched and in
which order, what is stored of them, and in which of them a phrase was found. A leaf adds to this
what it has alone: the documents that are new to the hits come behind the others, in the order in
which the leaf alone finds them.

## Main definitions

* `Concordance.Search.found` — the documents that a query alone finds, in order.
* `Concordance.Search.Evidence` — what the hits tell.
* `Concordance.Search.Attached` — what adding matches to hits does.

## Main results

* `Concordance.Search.Evidence.leaf` — what a leaf adds to the evidence.
* `Concordance.Search.Evidence.evaluateParts` — what the parts of a group add, if none is a group.
-/

namespace Concordance

namespace Query

/-- The query is a phrase. -/
def IsPhrase (query : Query) : Prop := ∃ field value boost, query = .leaf .phrase field value boost

end Query

namespace Search

open ResultSet Operation Query

variable {search : Search} {store : Store} {hits hits' : ResultSet} {parts : List Query}

/-! ## What a query alone finds -/

/-- The documents that a query alone finds, in order. -/
def found (search : Search) (query : Query) : List DocId :=
  match search.run query with
  | .ok hits => hits.ids
  | .error _ => []

/-- What a query finds is the list of its hits, if it succeeds. -/
lemma found_of_run {query : Query} (h : search.run query = .ok hits) :
    search.found query = hits.ids := by
  rw [found, h]

/-- An exclusion alone finds nothing. -/
lemma found_of_excludes {part : Query} (h : part.excludes = true) : search.found part = [] := by
  cases part with
  | leaf kind field value boost => cases h
  | group joint parts boost => cases h
  | nothing reason => cases h
  | not part boost =>
    cases hrun : search.run (.not part boost) with
    | error e => rw [found, hrun]
    | ok hits =>
      rw [found_of_run hrun]
      rw [run, evaluate] at hrun
      obtain ⟨excluded, -, hrun⟩ := bind_eq_ok_iff.1 hrun
      obtain rfl := Except.ok.inj hrun
      rw [sound_empty.removeAll_eq]
      rfl

/-! ## What the hits tell -/

/-- The hits are of the documents that have been matched, in the order in which they first were.
Each has what is stored of its document, and is flagged if a phrase was found in it. -/
structure Evidence (store : Store) (matched : List DocId) (phrased : DocId → Prop)
    (hits : ResultSet) : Prop where
  sound : hits.Sound
  list_eq : hits.list = .ofList matched
  document : ∀ id ∈ hits.ids, ∃ stored, store.fetch id = .ok stored ∧
    (hits.hitOf id).document = stored.getD ∅
  fulltext : ∀ id, (hits.hitOf id).fulltext = true ↔ phrased id

variable {matched : List DocId} {phrased : DocId → Prop} {value : String}

/-- Hits of no documents are evidence of nothing. -/
lemma evidence_empty (store : Store) : Evidence store [] (fun _ => False) .empty :=
  ⟨sound_empty, rfl, fun _ hid => absurd hid List.not_mem_nil, fun _ => by simp [Hit.new]⟩

namespace Evidence

/-- The documents of the evidence can be read. -/
lemma readable (h : Evidence store matched phrased hits) : Readable store hits :=
  ⟨h.sound, fun id hid => (h.document id hid).imp fun _ => And.left⟩

/-- Evidence is of which documents were matched in what order, not of how this is put. -/
lemma congr {matched' : List DocId} {phrased' : DocId → Prop}
    (h : Evidence store matched phrased hits)
    (hmatched : PostingList.ofList matched = .ofList matched')
    (hphrased : ∀ id, phrased id ↔ phrased' id) : Evidence store matched' phrased' hits :=
  ⟨h.sound, h.list_eq.trans hmatched, h.document, fun id => (h.fulltext id).trans (hphrased id)⟩

end Evidence

/-! ## Terms -/

/-- The documents that some field contributes, field by field. -/
def contributed (found : Matches) : List DocId := found.values.flatMap PostingList.ids

/-- The documents that some field contributes, each with the field. -/
def reasons (found : Matches) : List (String × DocId) :=
  found.entries.flatMap fun entry => entry.2.ids.map fun id => (entry.1, id)

/-- The documents of the matches, without their fields, are those contributed. -/
lemma map_snd_reasons (found : Matches) : (reasons found).map Prod.snd = contributed found := by
  simp [reasons, contributed, OrderedMap.values, List.map_flatMap, List.flatMap_map,
    Function.comp_def]

/-- The hits with matches of a value. -/
def noteAll (found : Matches) (value : String) (hits : ResultSet) : ResultSet :=
  hits.updateAll Prod.snd (fun reason => Hit.recordMatch reason.1 value) (reasons found)

/-- Noting matches puts the new documents behind those that have hits. -/
lemma sound_noteAll (h : hits.Sound) (found : Matches) (value : String) :
    (noteAll found value hits).Sound ∧
      (noteAll found value hits).list = (contributed found).foldl PostingList.add hits.list := by
  rw [← map_snd_reasons]
  unfold noteAll
  refine h.updateAll (fun reason hit => ?_) (reasons found)
  rfl

/-- Noting matches touches neither flags nor documents. -/
lemma hitOf_noteAll (h : hits.Sound) (found : Matches) (value : String) (id : DocId) :
    ((noteAll found value hits).hitOf id).fulltext = (hits.hitOf id).fulltext ∧
      ((noteAll found value hits).hitOf id).document = (hits.hitOf id).document := by
  unfold noteAll
  constructor
  · refine h.hitOf_updateAll Hit.fulltext (fun reason hit => ?_) (fun reason hit => ?_) _ id <;> rfl
  · refine h.hitOf_updateAll Hit.document (fun reason hit => ?_) (fun reason hit => ?_) _ id <;> rfl

/-- The hits with what is stored of some documents. -/
def describe (documents : List Document) (hits : ResultSet) : ResultSet :=
  hits.updateAll Document.id (fun document hit => { hit with document := document.fields })
    documents

/-- Matches are added by reading the fresh documents, noting all matches and describing the new
hits. -/
lemma attach_eq (store : Store) (found : Matches) (value : String) (hits : ResultSet) :
    attach store found value hits = (do
      let documents ← store.documents (fresh hits found)
      return describe documents (noteAll found value hits)) := by
  have hnote : found.entries.foldl (fun hits entry => noteMatches value hits entry.1 entry.2) hits =
      noteAll found value hits := by
    simp only [noteAll, updateAll, reasons, List.foldl_flatMap, List.foldl_map]
    rfl
  rw [← hnote]
  rfl

/-- Describing documents puts those that have no hit behind the others. -/
lemma sound_describe (h : hits.Sound) (documents : List Document) :
    (describe documents hits).Sound ∧ (describe documents hits).list =
      (documents.map Document.id).foldl PostingList.add hits.list := by
  unfold describe
  refine h.updateAll (fun document hit => ?_) documents
  rfl

/-- Describing documents leaves the flags of hits as they are. -/
lemma fulltext_describe (h : hits.Sound) (documents : List Document) (id : DocId) :
    ((describe documents hits).hitOf id).fulltext = (hits.hitOf id).fulltext := by
  unfold describe
  refine h.hitOf_updateAll Hit.fulltext (fun document hit => ?_) (fun document hit => ?_) _ id <;>
    rfl

/-- The document of a hit is that of the given documents, if it is among them.

**Proof sketch.** Induction on the documents: the last one with the id is that of the hit in the
end. -/
lemma document_describe (h : hits.Sound) (documents : List Document) (id : DocId) :
    (∃ document ∈ documents, document.id = id ∧
      ((describe documents hits).hitOf id).document = document.fields) ∨
    (∀ document ∈ documents, document.id ≠ id) ∧
      ((describe documents hits).hitOf id).document = (hits.hitOf id).document := by
  induction documents generalizing hits with
  | nil => exact .inr ⟨fun _ hmem => absurd hmem List.not_mem_nil, rfl⟩
  | cons first documents ih =>
    have hid : ∀ hit : Hit, ({ hit with document := first.fields } : Hit).id = hit.id :=
      fun _ => rfl
    have hfirst := h.hitOf_update first.id hid id
    rcases ih (h.update first.id hid) with ⟨document, hmem, hdocument⟩ | ⟨hnone, hsame⟩
    · exact .inl ⟨document, List.mem_cons_of_mem _ hmem, hdocument⟩
    · rw [hfirst] at hsame
      by_cases heq : id = first.id
      · rw [if_pos heq] at hsame
        exact .inl ⟨first, List.mem_cons_self, heq.symm, hsame⟩
      · rw [if_neg heq] at hsame
        exact .inr ⟨List.forall_mem_cons.2 ⟨Ne.symm heq, hnone⟩, hsame⟩

/-- Matches are added to hits: the documents come behind those that have a hit, and the new hits get
what is stored of them. -/
structure Attached (store : Store) (found : Matches) (hits hits' : ResultSet) : Prop where
  sound : hits'.Sound
  list_eq : hits'.list = (contributed found).foldl PostingList.add hits.list
  fulltext : ∀ id, (hits'.hitOf id).fulltext = (hits.hitOf id).fulltext
  spared : ∀ id ∉ fresh hits found, (hits'.hitOf id).document = (hits.hitOf id).document
  fetched : ∀ id ∈ fresh hits found, ∃ stored, store.fetch id = .ok stored ∧
    (hits'.hitOf id).document = stored.getD (hits.hitOf id).document

/-- Matches that are attached come behind those that have a hit, and the new hits get what is stored
of them.

**Proof sketch.** Noting adds the documents that are contributed, and describing changes those of
them that had no hit before. Each of these has been read, and gets what is stored of it if it is
there. -/
lemma attached_of_attach (h : hits.Sound) {found : Matches}
    (hrun : attach store found value hits = .ok hits') : Attached store found hits hits' := by
  rw [attach_eq] at hrun
  obtain ⟨documents, hdocuments, hrun⟩ := bind_eq_ok_iff.1 hrun
  obtain rfl := Except.ok.inj hrun
  have hmem := Store.mem_documents hdocuments
  obtain ⟨hnoted, hlist⟩ := sound_noteAll h found value
  obtain ⟨hsound, hlist'⟩ := sound_describe hnoted documents
  have hdocument := document_describe hnoted documents
  refine ⟨hsound, ?_, fun id => ?_, fun id hid => ?_, fun id hid => ?_⟩
  · -- the documents are among those that have been noted
    rw [hlist', hlist]
    refine PostingList.foldl_add_of_subset fun id hid => ?_
    obtain ⟨document, hdocument, rfl⟩ := List.mem_map.1 hid
    obtain ⟨list, hin, hid⟩ := ((mem_fresh h).1 ((hmem document).1 hdocument).1).1
    exact PostingList.mem_foldl_add.2 (.inr (List.mem_flatMap.2 ⟨list, hin, hid⟩))
  · rw [fulltext_describe hnoted, (hitOf_noteAll h found value id).1]
  · rcases hdocument id with ⟨document, hin, rfl, -⟩ | ⟨-, hsame⟩
    · exact absurd ((hmem document).1 hin).1 hid
    · rw [hsame, (hitOf_noteAll h found value id).2]
  · obtain ⟨stored, hstored⟩ := Store.documents_ok_iff.1 ⟨documents, hdocuments⟩ id hid
    refine ⟨stored, hstored, ?_⟩
    rcases hdocument id with ⟨document, hin, rfl, hsame⟩ | ⟨hnone, hsame⟩
    · rw [((hmem document).1 hin).2] at hstored
      obtain rfl := Except.ok.inj hstored
      exact hsame
    · cases stored with
      | none => rw [hsame, (hitOf_noteAll h found value id).2, Option.getD_none]
      | some fields => exact absurd rfl (hnone ⟨id, fields⟩ ((hmem _).2 ⟨hid, hstored⟩))

/-- Matches that are added to hits would also be added to none, and come behind the documents that
have been matched.

**Proof sketch.** The documents that come new are those contributed without a hit. Alone, all that
are contributed are new, so the order in which they come behind the others is that in which they
come alone. -/
lemma Evidence.attach (h : Evidence store matched phrased hits) {found : Matches}
    (hrun : attach store found value hits = .ok hits') :
    ∃ alone, Search.attach store found value .empty = .ok alone ∧
      Evidence store (matched ++ alone.ids) phrased hits' := by
  obtain ⟨-, alone, halone, -⟩ := attach_alone h.readable hrun
  have hnew := attached_of_attach h.sound hrun
  have hlist : alone.list = .ofList (contributed found) :=
    (attached_of_attach sound_empty halone).list_eq
  refine ⟨alone, halone, hnew.sound, ?_, fun id hid => ?_, fun id => ?_⟩
  · rw [hnew.list_eq, h.list_eq, ← PostingList.foldl_add_ofList, ← hlist]
    exact (PostingList.foldl_add_append matched alone.ids .empty).symm
  · by_cases hold : id ∈ hits.ids
    · have hfresh : id ∉ fresh hits found := fun hid => ((mem_fresh h.sound).1 hid).2 hold
      rw [hnew.spared id hfresh]
      exact h.document id hold
    · have hfresh : id ∈ fresh hits found := by
        refine (mem_fresh h.sound).2 ⟨?_, hold⟩
        have hid : id ∈ hits'.list.ids := hid
        rw [hnew.list_eq, PostingList.mem_foldl_add] at hid
        exact List.mem_flatMap.1 (hid.resolve_left hold)
      have hfetched := hnew.fetched id hfresh
      rwa [h.sound.hitOf_of_not_mem hold] at hfetched
  · rw [hnew.fulltext, h.fulltext]

/-! ## Phrases -/

/-- The documents of which some field holds a phrase. -/
def holding (fields : List String) (value : String) (documents : List Document) : List DocId :=
  (documents.filter fun document =>
    fields.filter (fieldHolds document.fields value) ≠ []).map Document.id

/-- Documents that hold a phrase are found one after the other. -/
lemma holding_cons (fields : List String) (value : String) (document : Document)
    (documents : List Document) : holding fields value (document :: documents) =
      holding fields value [document] ++ holding fields value documents := by
  rw [holding, holding, holding, ← List.map_append, ← List.filter_append, List.singleton_append]

/-- A document holds a phrase if some field does. -/
lemma holding_singleton (fields : List String) (value : String) (document : Document) :
    holding fields value [document] =
      if fields.filter (fieldHolds document.fields value) = [] then [] else [document.id] := by
  by_cases hnone : fields.filter (fieldHolds document.fields value) = []
  · rw [if_pos hnone, holding, List.filter_cons, if_neg (by simp only [hnone]; decide)]
    rfl
  · rw [if_neg hnone, holding, List.filter_cons, if_pos (decide_eq_true hnone)]
    rfl

/-- The hit of a document of which some fields hold a phrase. -/
def withPhrase (fields : List String) (value : String) (document : Document) (hit : Hit) : Hit :=
  let hit := fields.foldl (fun hit field => hit.recordMatch field value) hit
  { hit with
    fulltext := true
    document := if hit.document.isEmpty then document.fields else hit.document }

/-- A phrase is noted for a document if some field holds it; otherwise nothing changes. -/
lemma notePhrase_eq (fields : List String) (value : String) (hits : ResultSet)
    (document : Document) : notePhrase fields value hits document =
      if fields.filter (fieldHolds document.fields value) = [] then hits
      else hits.update document.id
        (withPhrase (fields.filter (fieldHolds document.fields value)) value document) := by
  unfold notePhrase
  split
  · next hnone => rw [if_pos hnone]
  · next hsome => exact (if_neg hsome).symm

/-- A phrase is noted in the hit of the same document. -/
lemma id_withPhrase (fields : List String) (value : String) (document : Document) (hit : Hit) :
    (withPhrase fields value document hit).id = hit.id := by
  rw [withPhrase, foldl_recordMatch]

/-- What is stored of a document is attached to its hit unless something is attached already. -/
lemma document_withPhrase (fields : List String) (value : String) {document : Document} {hit : Hit}
    (h : hit.document = ∅ ∨ hit.document = document.fields) :
    (withPhrase fields value document hit).document = document.fields := by
  simp only [withPhrase, foldl_recordMatch]
  rcases h with h | h
  · rw [h]
    rfl
  · rw [h]
    split <;> rfl

/-- A document of which some field holds a phrase gets a flagged hit with what is stored of it.

**Proof sketch.** If no field holds the phrase nothing changes. Otherwise the document comes behind
the others if it is new, its hit is flagged, and it has what is stored of it: from the document that
was read, or from before. -/
lemma Evidence.notePhrase (h : Evidence store matched phrased hits) (fields : List String)
    (value : String) {document : Document}
    (hfetch : store.fetch document.id = .ok (some document.fields)) :
    Evidence store (matched ++ holding fields value [document])
      (fun id => phrased id ∨ id ∈ holding fields value [document])
      (Search.notePhrase fields value hits document) := by
  rw [notePhrase_eq, holding_singleton]
  split
  · exact h.congr (by rw [List.append_nil]) fun id => by simp
  · have hid := id_withPhrase (fields.filter (fieldHolds document.fields value)) value document
    have hhit := h.sound.hitOf_update document.id hid
    have hlist := h.sound.list_update document.id hid
    refine ⟨h.sound.update document.id hid, ?_, fun id hmem => ?_, fun id => ?_⟩
    · rw [hlist, h.list_eq]
      exact (PostingList.foldl_add_append matched [document.id] .empty).symm
    · rw [hhit]
      split
      · next heq =>
        rw [heq]
        refine ⟨some document.fields, hfetch, document_withPhrase _ value ?_⟩
        -- an old hit may have the document already, and then it is the one that was read
        by_cases hold : document.id ∈ hits.ids
        · obtain ⟨stored, hstored, hdocument⟩ := h.document _ hold
          rw [hfetch] at hstored
          obtain rfl := Except.ok.inj hstored
          exact .inr hdocument
        · rw [h.sound.hitOf_of_not_mem hold]
          exact .inl rfl
      · next hne =>
        have hmem : id ∈ (hits.update document.id _).list.ids := hmem
        rw [hlist, PostingList.mem_add] at hmem
        exact h.document id (hmem.resolve_left hne)
    · rw [hhit]
      split
      · next heq => simp [withPhrase, heq]
      · next hne => simp [h.fulltext, hne]

/-- Noting a phrase for documents is evidence of those that hold it, and flags them. -/
lemma Evidence.foldl_notePhrase (h : Evidence store matched phrased hits) (fields : List String)
    (value : String) {documents : List Document}
    (hfetch : ∀ document ∈ documents, store.fetch document.id = .ok (some document.fields)) :
    Evidence store (matched ++ holding fields value documents)
      (fun id => phrased id ∨ id ∈ holding fields value documents)
      (documents.foldl (Search.notePhrase fields value) hits) := by
  induction documents generalizing matched phrased hits with
  | nil => exact h.congr (by simp [holding]) fun id => by simp [holding]
  | cons document documents ih =>
    have hfirst := h.notePhrase fields value (hfetch document List.mem_cons_self)
    refine (ih hfirst fun other hother => hfetch other (List.mem_cons_of_mem _ hother)).congr ?_
      fun id => ?_
    · rw [List.append_assoc, ← holding_cons]
    · rw [holding_cons _ _ _ documents, List.mem_append, or_assoc]

/-- A phrase that succeeds would also succeed alone. The documents that it finds come behind those
that have been matched, and their hits are flagged.

**Proof sketch.** The same documents are read alone, and the phrase is noted for those of them that
hold it. -/
lemma Evidence.phrase (h : Evidence store matched phrased hits) {field : String}
    (hrun : Search.phrase store field value hits = .ok hits') :
    ∃ alone, Search.phrase store field value .empty = .ok alone ∧
      Evidence store (matched ++ alone.ids) (fun id => phrased id ∨ id ∈ alone.ids) hits' := by
  obtain ⟨lists, hlists, hrun⟩ := bind_eq_ok_iff.1 hrun
  obtain ⟨documents, hdocuments, hrun⟩ := bind_eq_ok_iff.1 hrun
  obtain rfl := Except.ok.inj hrun
  have hfetch : ∀ document ∈ documents, store.fetch document.id = .ok (some document.fields) :=
    fun document hdocument => ((Store.mem_documents hdocuments document).1 hdocument).2
  obtain ⟨fields, hfields⟩ : ∃ fields, fields = phraseFields store (fieldOf field) := ⟨_, rfl⟩
  have halone := (evidence_empty store).foldl_notePhrase fields value hfetch
  have hnew := h.foldl_notePhrase fields value hfetch
  rw [hfields] at halone hnew
  refine ⟨_, bind_eq_ok_iff.2 ⟨lists, hlists, bind_eq_ok_iff.2 ⟨documents, hdocuments, rfl⟩⟩,
    hnew.congr ?_ fun id => or_congr_right ?_⟩
  · rw [← PostingList.ofList_append_ofList matched, ← List.nil_append (holding _ _ _),
      ← halone.list_eq]
    rfl
  · rw [← PostingList.mem_ofList, ← List.nil_append (holding _ _ _), ← halone.list_eq]
    rfl

/-! ## The parts of a group -/

/-- A leaf that succeeds would also succeed alone. The documents that it finds come behind those
that have been matched, and their hits are flagged if it is a phrase. -/
theorem Evidence.leaf (h : Evidence store matched phrased hits) {kind : Leaf} {field : String}
    (hrun : Search.leaf store kind field value hits = .ok hits') :
    ∃ alone, Search.leaf store kind field value .empty = .ok alone ∧
      Evidence store (matched ++ alone.ids)
        (fun id => phrased id ∨ kind = .phrase ∧ id ∈ alone.ids) hits' := by
  by_cases hkind : kind = .phrase
  · subst hkind
    obtain ⟨alone, halone, hnew⟩ := h.phrase hrun
    exact ⟨alone, halone, hnew.congr rfl fun id => by simp⟩
  · obtain ⟨found, hfound⟩ := exists_attach hkind hrun
    rw [hfound] at hrun
    obtain ⟨alone, halone, hnew⟩ := h.attach hrun
    exact ⟨alone, (hfound _).trans halone, hnew.congr rfl fun id => by simp [hkind]⟩

/-- A part of a flat query that excludes nothing adds what it finds alone, and flags the documents
if it is a phrase.

**Proof sketch.** By the kinds of parts: a leaf finds what it finds alone and flags it if it is a
phrase, and nothing finds nothing. Groups and exclusions are ruled out. -/
lemma Evidence.evaluate {part : Query} (h : Evidence search.store matched phrased hits)
    (hflat : part.IsFlat) (hexcludes : part.excludes = false)
    (hrun : search.evaluate part hits = .ok hits') :
    Evidence search.store (matched ++ search.found part)
      (fun id => phrased id ∨ part.IsPhrase ∧ search.Returns part id) hits' := by
  cases part with
  | group joint parts boost => exact absurd rfl (hflat joint parts boost)
  | not part boost => cases hexcludes
  | nothing reason =>
    obtain rfl := Except.ok.inj hrun
    have hfound : search.found (.nothing reason) = [] := rfl
    exact h.congr (by rw [hfound, List.append_nil]) fun id => by simp [IsPhrase]
  | leaf kind field value boost =>
    obtain ⟨alone, halone, hnew⟩ := h.leaf hrun
    have hrun : search.run (.leaf kind field value boost) = .ok alone := halone
    have hphrase : (Query.leaf kind field value boost).IsPhrase ↔ kind = .phrase := by
      simp [IsPhrase]
    rw [found_of_run hrun]
    exact hnew.congr rfl fun id => by rw [hphrase, returns_iff hrun]

/-- What the parts of a group add that do not exclude, if none of them is a group.

**Proof sketch.** Induction on the parts. Parts that exclude find nothing and are no phrases. -/
theorem Evidence.evaluateParts (h : Evidence search.store matched phrased hits)
    (hflat : ∀ part ∈ parts, part.IsFlat)
    (hrun : search.evaluateParts false parts hits = .ok hits') :
    Evidence search.store (matched ++ parts.flatMap search.found)
      (fun id => phrased id ∨ ∃ part ∈ parts, part.IsPhrase ∧ search.Returns part id) hits' := by
  induction parts generalizing matched phrased hits with
  | nil =>
    obtain rfl := Except.ok.inj hrun
    exact h.congr (by simp) fun id => by simp
  | cons part parts ih =>
    have hrest := fun other hother => hflat other (List.mem_cons_of_mem part hother)
    rw [Search.evaluateParts] at hrun
    simp only [List.flatMap_cons, List.exists_mem_cons_iff]
    split at hrun
    · next hexcludes =>
      obtain ⟨next, hpart, hrun⟩ := bind_eq_ok_iff.1 hrun
      have hnext := h.evaluate (hflat part List.mem_cons_self) hexcludes hpart
      exact (ih hnext hrest hrun).congr (by rw [List.append_assoc]) fun id => or_assoc
    · next hexcludes =>
      have hexcludes : part.excludes = true := by simpa using hexcludes
      have hphrase : ¬ part.IsPhrase := by
        rintro ⟨field, value, boost, rfl⟩
        cases hexcludes
      exact (ih h hrest hrun).congr (by rw [found_of_excludes hexcludes, List.nil_append])
        fun id => by simp [hphrase]

end Search

end Concordance
