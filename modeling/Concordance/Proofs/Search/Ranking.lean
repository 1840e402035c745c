import Concordance.Proofs.Search.Evidence

set_option relaxedAutoImplicit false
set_option autoImplicit false

/-!
# The order of the hits of a group

The hits of a group are weighed when it ends, whatever weights the groups in it have given them, and
stand with the heaviest first. If no part is a group, the flag of a hit tells where a phrase was
found, and hits of one weight stand in the order in which the parts first matched them.

## Main definitions

* `Concordance.Query.inOrder` — the parts of a group in the order of their evaluation.
* `Concordance.Search.HoldsFlagged` — a document holds the phrase of the search.
* `Concordance.Search.ranked` — a hit at the end of a group.

## Main results

* `Concordance.Search.close_eq` — the end of a group weighs and sorts hits that it has kept.
* `Concordance.Search.ranking_of_run` — the order, the weights and the flags of the hits of a group.
-/

namespace Concordance

namespace Query

/-- The parts of a group in the order of their evaluation: exclusions last, and otherwise as they
stand. -/
def inOrder (parts : List Query) : List Query :=
  parts.mergeSort fun part other => part.priority ≤ other.priority

/-- Parts of one kind, exclusions or others, keep their order. -/
lemma filter_inOrder_of {p : Query → Bool} {excluding : Bool}
    (hp : ∀ part, p part = true → part.excludes = excluding) (parts : List Query) :
    (inOrder parts).filter p = parts.filter p := by
  refine ResultSet.filter_mergeSort (fun a b c hab hbc => ?_) (fun a b => ?_)
    (fun a b ha hb => ?_) parts
  · exact decide_eq_true ((of_decide_eq_true hab).trans (of_decide_eq_true hbc))
  · simpa using Nat.le_total a.priority b.priority
  · rw [priority, priority, hp a ha, hp b hb]
    exact decide_eq_true le_rfl

/-- The order in which the parts of a group are evaluated leaves those that exclude nothing as they
were. -/
lemma filter_inOrder (parts : List Query) :
    (inOrder parts).filter (!·.excludes) = parts.filter (!·.excludes) := by
  have hothers : ∀ part : Query, (!part.excludes) = true → part.excludes = false := by simp
  exact filter_inOrder_of hothers parts

end Query

namespace Search

open ResultSet Operation Query

variable {search : Search} {hits hits' : ResultSet} {parts : List Query}

/-! ## Texts within texts -/

/-- A text holds another if that one is a piece of it. -/
lemma holds_iff {part text : List Char} : holds part text = true ↔ part <:+: text := by
  induction text with
  | nil => simp [holds]
  | cons c text ih =>
    rw [holds, Bool.or_eq_true, ih, List.isPrefixOf_iff_prefix, List.infix_cons_iff]

/-- A field holds a text if what is stored in it, as a text, has that as a piece. -/
lemma fieldHolds_iff {fields : Fields} {part field : String} :
    fieldHolds fields part field = true ↔
      ∃ value, fields.get? field = some value ∧ part.toList <:+: value.asText.toList := by
  rw [fieldHolds, Option.any_eq_true]
  simp only [holds_iff]

/-- What is stored of a document holds the phrase of the search in a fulltext field. -/
def holdsFlagged (search : Search) (fields : Fields) : Bool :=
  !Text.allBlank search.flagged &&
    search.store.schema.fulltextFields.any fun field =>
      fieldHolds fields search.flagged field.name

/-- The phrase of the search is not blank, and the stored value of some fulltext field of a document
contains it. -/
def HoldsFlagged (search : Search) (id : DocId) : Prop :=
  Text.allBlank search.flagged = false ∧
    ∃ stored, search.store.fetch id = .ok (some stored) ∧
      ∃ field ∈ search.store.schema.fulltextFields, ∃ value,
        stored.get? field.name = some value ∧ search.flagged.toList <:+: value.asText.toList

/-- What is stored of a document holds the phrase of the search iff the document does. -/
lemma holdsFlagged_iff {id : DocId} {stored : Option Fields}
    (h : search.store.fetch id = .ok stored) :
    search.holdsFlagged (stored.getD ∅) = true ↔ search.HoldsFlagged id := by
  simp only [holdsFlagged, HoldsFlagged, h, Bool.and_eq_true, Bool.not_eq_true', List.any_eq_true,
    fieldHolds_iff]
  refine and_congr_right fun _ => ?_
  cases stored with
  | none =>
    refine iff_of_false ?_ (by simp)
    rintro ⟨field, -, value, hvalue, -⟩
    cases hvalue
  | some fields => simp

/-! ## Before the end -/

/-- Parts that exclude find nothing by themselves. -/
lemma flatMap_found (parts : List Query) :
    (parts.filter (!·.excludes)).flatMap search.found = parts.flatMap search.found := by
  induction parts with
  | nil => rfl
  | cons part parts ih =>
    cases hexcludes : part.excludes with
    | true => simp [hexcludes, ih, found_of_excludes hexcludes]
    | false => simp [hexcludes, ih]

/-- Exclusions find nothing, so their place does not matter. -/
lemma flatMap_found_inOrder (parts : List Query) :
    (inOrder parts).flatMap search.found = parts.flatMap search.found := by
  rw [← flatMap_found, filter_inOrder, flatMap_found]

/-- Exclusions leave some of the hits, as they are and as they stand.

**Proof sketch.** Induction on the parts. What does not exclude is left out, and an exclusion
removes hits. -/
lemma sublist_of_excluding (h : hits.Sound)
    (hrun : search.evaluateParts true parts hits = .ok hits') :
    hits'.hits.Sublist hits.hits := by
  induction parts generalizing hits with
  | nil =>
    obtain rfl := Except.ok.inj hrun
    exact List.Sublist.refl _
  | cons part parts ih =>
    rw [Search.evaluateParts] at hrun
    split at hrun
    · next hexcludes =>
      obtain ⟨next, hpart, hrun⟩ := bind_eq_ok_iff.1 hrun
      cases part with
      | leaf kind field value boost => cases hexcludes
      | group joint parts boost => cases hexcludes
      | nothing reason => cases hexcludes
      | not part boost =>
        rw [Search.evaluate] at hpart
        obtain ⟨excluded, -, hpart⟩ := bind_eq_ok_iff.1 hpart
        obtain rfl := Except.ok.inj hpart
        have hsub : (hits.removeAll excluded.ids).hits.Sublist hits.hits := by
          rw [h.removeAll_eq]
          exact List.filter_sublist
        exact (ih (h.removeAll excluded.ids) hrun).trans hsub
    · exact ih h hrun

/-! ## The end of a group -/

/-- A hit at the end of a group, flagged and weighed. -/
def ranked (search : Search) (clauses : List Clause) (hit : Hit) : Hit :=
  let hit := { hit with fulltext := hit.fulltext || search.holdsFlagged hit.document }
  { hit with weight := search.scoring.score hit clauses }

/-- Weighing a hit does not change the document that it is of. -/
@[simp] lemma id_ranked (clauses : List Clause) (hit : Hit) :
    (search.ranked clauses hit).id = hit.id := rfl

/-- Flagging changes nothing but flags: it sets those of the hits whose document holds the phrase of
the search.

**Proof sketch.** By the cases of flagging: without hits, without a phrase and with one, the flags
are those said. -/
lemma flag_eq (hrun : search.flag hits = .ok hits') :
    hits' = hits.map fun hit =>
      { hit with fulltext := hit.fulltext || search.holdsFlagged hit.document } := by
  unfold flag at hrun
  split at hrun
  · next hempty =>
    obtain rfl := Except.ok.inj hrun
    have hnil : hits.hits = [] := List.isEmpty_iff.1 hempty
    rw [ResultSet.map, hnil, List.map_nil, ← hnil]
  · split at hrun
    · cases hrun
    · split at hrun
      · next hblank =>
        obtain rfl := Except.ok.inj hrun
        simp [ResultSet.map, holdsFlagged, hblank]
      · next hblank =>
        obtain rfl := Except.ok.inj hrun
        simp only [holdsFlagged, hblank, Bool.not_false, Bool.true_and]

/-- In the end hits are weighed, and sorted by weight. -/
lemma finish_eq {clauses : List Clause} (hrun : search.finish clauses hits = .ok hits') :
    hits' = (hits.map (search.ranked clauses)).sortByWeight := by
  obtain ⟨flagged, hflag, hrun⟩ := bind_eq_ok_iff.1 hrun
  obtain rfl := Except.ok.inj hrun
  rw [flag_eq hflag]
  simp only [ResultSet.map, List.map_map]
  rfl

/-- The end of a group keeps some of its hits, as they stand, and then flags, weighs and sorts
them. -/
theorem close_eq {joint : Joint} (hrun : search.close joint parts hits = .ok hits') :
    ∃ kept : ResultSet, kept.hits.Sublist hits.hits ∧
      hits' = (kept.map (search.ranked (parts.filterMap clause?))).sortByWeight := by
  cases joint with
  | any => exact ⟨hits, List.Sublist.refl _, finish_eq hrun⟩
  | all => exact ⟨_, List.filter_sublist, finish_eq hrun⟩

/-- The hits of a group are what its end makes of some that its parts have left. -/
lemma exists_kept {joint : Joint} {boost : Option Single}
    (hrun : search.run (.group joint parts boost) = .ok hits) :
    ∃ first, search.evaluateParts false parts .empty = .ok first ∧
      ∃ kept : ResultSet, kept.hits.Sublist first.hits ∧
        hits = (kept.map (search.ranked (parts.filterMap clause?))).sortByWeight := by
  rw [run, Search.evaluate] at hrun
  obtain ⟨first, hfirst, hrun⟩ := bind_eq_ok_iff.1 hrun
  obtain ⟨second, hsecond, hrun⟩ := bind_eq_ok_iff.1 hrun
  obtain ⟨kept, hkept, rfl⟩ := close_eq hrun
  have hsound := (matched_evaluateParts search false (readable_empty _) parts hfirst).1.sound
  exact ⟨first, hfirst, kept, hkept.trans (sublist_of_excluding hsound hsecond), rfl⟩

/-- A hit is flagged at the end of a group iff a phrase was found in its document, or what is stored
of it holds the phrase of the search. -/
lemma Evidence.fulltext_ranked {matched : List DocId} {phrased : DocId → Prop}
    (h : Evidence search.store matched phrased hits) (clauses : List Clause) {hit : Hit}
    (hhit : hit ∈ hits.hits) :
    (search.ranked clauses hit).fulltext = true ↔ search.HoldsFlagged hit.id ∨ phrased hit.id := by
  have hflag : (search.ranked clauses hit).fulltext =
      (hit.fulltext || search.holdsFlagged hit.document) := rfl
  obtain ⟨stored, hstored, hdocument⟩ := h.document hit.id (List.mem_map_of_mem hhit)
  have hfulltext := h.fulltext hit.id
  rw [h.sound.hitOf_of_mem hhit] at hfulltext hdocument
  rw [hflag, Bool.or_eq_true, hfulltext, hdocument, holdsFlagged_iff hstored, or_comm]

/-- Hits stand in the order in which their documents were first matched. -/
lemma Evidence.pairwise_ids {store : Store} {matched : List DocId} {phrased : DocId → Prop}
    (h : Evidence store matched phrased hits) :
    hits.ids.Pairwise fun id other => matched.idxOf id < matched.idxOf other := by
  have hids : hits.ids = (PostingList.ofList matched).ids := congrArg PostingList.ids h.list_eq
  rw [hids]
  exact PostingList.pairwise_ofList matched

/-- **The ranking of a group.** The hits of a group that succeeds stand with the heaviest first, and
each has the weight that it scores for the leaves of the group. If no part is a group, a hit is
flagged iff its document holds the phrase of the search, or a phrase among the parts returns it
alone, and hits of one weight stand in the order in which the parts, exclusions last, first find
their documents alone.

**Proof sketch.** Each leaf adds the documents that it finds alone behind those that have been
matched, so the hits that the parts leave stand in the order of the first matches. Exclusions and
the end of the group drop hits without moving the others, and sorting is stable. Weights are set
when the group ends, from the hits as they are returned but for the weight, on which no score
depends. -/
theorem ranking_of_run (search : Search) {joint : Joint} {parts : List Query}
    {boost : Option Single} {hits : ResultSet}
    (hrun : search.run (.group joint parts boost) = .ok hits) :
    (hits.hits.Pairwise fun hit other => other.weight.orderKey ≤ hit.weight.orderKey) ∧
    (∀ hit ∈ hits.hits, hit.weight = search.scoring.score hit (parts.filterMap clause?)) ∧
    ((∀ part ∈ parts, part.IsFlat) →
      (∀ hit ∈ hits.hits, hit.fulltext = true ↔
        search.HoldsFlagged hit.id ∨
          ∃ part ∈ parts, part.IsPhrase ∧ search.Returns part hit.id) ∧
      hits.hits.Pairwise fun hit other => hit.weight = other.weight →
        ((inOrder parts).flatMap search.found).idxOf hit.id <
          ((inOrder parts).flatMap search.found).idxOf other.id) := by
  obtain ⟨first, hfirst, kept, hkept, rfl⟩ := exists_kept hrun
  have hranked : ∀ hit ∈ (kept.map (search.ranked (parts.filterMap clause?))).sortByWeight.hits,
      ∃ source ∈ kept.hits, search.ranked (parts.filterMap clause?) source = hit := fun hit hhit =>
    List.mem_map.1 (List.mem_mergeSort.1 hhit)
  refine ⟨pairwise_sortByWeight _, fun hit hhit => ?_, fun hflat => ?_⟩
  · obtain ⟨source, -, rfl⟩ := hranked hit hhit
    rfl
  have hevidence := (evidence_empty search.store).evaluateParts hflat hfirst
  refine ⟨fun hit hhit => ?_, List.pairwise_of_forall_sublist fun hsub heq => ?_⟩
  · obtain ⟨source, hsource, rfl⟩ := hranked hit hhit
    simpa using hevidence.fulltext_ranked _ (hkept.subset hsource)
  · have hids :
        (kept.map (search.ranked (parts.filterMap clause?))).hits.map Hit.id = kept.ids := by
      rw [ResultSet.map, List.map_map]
      rfl
    have hsub := (sublist_of_sortByWeight hsub heq).map Hit.id
    rw [hids] at hsub
    rw [flatMap_found_inOrder]
    exact List.pairwise_iff_forall_sublist.1 hevidence.pairwise_ids
      (hsub.trans (hkept.map Hit.id))

/-- A search in a store with notes, which have nothing but a text in which phrases are looked for.
They are numbered from 1 on. -/
def noteSearch (texts : List String) (flagged : String) : Search where
  store := Operation.after (Store.openIn .read) (Operation.after
    (do
      Engine.onStore Store.createFiles
      texts.forM fun text => do
        let _ ← Engine.add (.ofList [("text", .text text)])
      Engine.flush)
    { store := .withAnalyzer
        { name := "notes"
          fields := [⟨"text", { stored := true, indexed := true, fulltext := true }⟩] }
        { docsWidth := 3, indexWidth := 3, stateWidth := 3 } .simple ∅ }).store
  scoring := {}
  flagged := flagged

/-- Three notes, and a search that flags those with a dog before a cat. -/
def catNotes : Search := noteSearch ["cats", "dog cat", "cat"] "g c"

/-- Notes about no word like the start of bird, and about one like the start of cat or about a dog
and a cat side by side. -/
def dogCatQuery : List Query :=
  [.not (.leaf .start "text" "bi" none) none, .leaf .start "text" "ca" none,
    .leaf .phrase "text" "dog cat" none]

/-- The notes in which the parts of the query are found, one part after the other. The term of the
last note stands before that of the first. -/
lemma flatMap_found_catNotes : (inOrder dogCatQuery).flatMap catNotes.found =
    [⟨"2"⟩, ⟨"3"⟩, ⟨"1"⟩, ⟨"2"⟩] := by
  rw [flatMap_found_inOrder]
  decide +kernel

/-- All notes are found. Of those that have nothing but a cat in them, the last stands first. -/
theorem ranking_of_run_catNotes : ∃ hits,
    catNotes.run (.group .any dogCatQuery none) = .ok hits ∧
    (∀ id ∈ ([⟨"1"⟩, ⟨"2"⟩, ⟨"3"⟩] : List DocId), id ∈ hits.ids) ∧
    (hits.hits.Pairwise fun hit other => other.weight.orderKey ≤ hit.weight.orderKey) ∧
    (∀ hit ∈ hits.hits,
      hit.weight = catNotes.scoring.score hit (dogCatQuery.filterMap clause?)) ∧
    (∀ hit ∈ hits.hits, hit.fulltext = true ↔ catNotes.HoldsFlagged hit.id ∨
      ∃ part ∈ dogCatQuery, part.IsPhrase ∧ catNotes.Returns part hit.id) ∧
    hits.hits.Pairwise fun hit other => hit.weight = other.weight →
      ([⟨"2"⟩, ⟨"3"⟩, ⟨"1"⟩, ⟨"2"⟩] : List DocId).idxOf hit.id <
        ([⟨"2"⟩, ⟨"3"⟩, ⟨"1"⟩, ⟨"2"⟩] : List DocId).idxOf other.id := by
  have hsome : (catNotes.run (.group .any dogCatQuery none)).toOption.isSome := by decide +kernel
  have hnote : ∀ id ∈ ([⟨"1"⟩, ⟨"2"⟩, ⟨"3"⟩] : List DocId),
      (catNotes.note id (.group .any dogCatQuery none) none).isSome := by decide +kernel
  have hflat : ∀ part ∈ dogCatQuery, part.IsFlat := by simp [dogCatQuery, IsFlat]
  cases hrun : catNotes.run (.group .any dogCatQuery none) with
  | error e =>
    rw [hrun] at hsome
    cases hsome
  | ok hits =>
    obtain ⟨hsorted, hweight, hrest⟩ := ranking_of_run catNotes hrun
    obtain ⟨hfulltext, horder⟩ := hrest hflat
    rw [flatMap_found_catNotes] at horder
    exact ⟨hits, rfl, fun id hid => (mem_ids_run hrun id).2 (hnote id hid), hsorted, hweight,
      hfulltext, horder⟩

end Search

end Concordance
