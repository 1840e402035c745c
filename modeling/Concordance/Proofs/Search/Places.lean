import Concordance.Proofs.Search.ResultSets

set_option relaxedAutoImplicit false
set_option autoImplicit false

/-!
# Places of hits

A result set finds the hit of a document by its place. Hits that are changed stay where they are and
new ones come at the end, so one place more is noted at most; whatever drops or moves hits has all
places found anew. Whatever has been done to a result set, its places are thus those of its hits.

## Main definitions

* `Concordance.Hit.Edit` — a change of a hit.
* `Concordance.ResultSet.Step` — what can be done to a result set.
* `Concordance.ResultSet.after` — what becomes of the empty result set in several steps.
* `Concordance.ResultSet.Orderly` — what holds of the hits and places of a result set, and what any
  further step makes of the hits.

## Main results

* `Concordance.ResultSet.Sound.apply` — no step makes a place wrong.
* `Concordance.ResultSet.orderly_of_steps` — every result set is orderly.
-/

namespace Concordance

/-- A change of a hit. -/
inductive Hit.Edit
  /-- One more match. -/
  | recordMatch (field term : String)
  /-- Another weight. -/
  | weigh (weight : Single)

/-- A hit after a change. -/
def Hit.Edit.apply : Hit.Edit → Hit → Hit
  | .recordMatch field term => Hit.recordMatch field term
  | .weigh weight => fun hit => { hit with weight }

/-- No change of a hit changes its document. -/
lemma Hit.Edit.id_apply (edit : Hit.Edit) (hit : Hit) : (edit.apply hit).id = hit.id := by
  cases edit with
  | recordMatch field term => rfl
  | weigh weight => rfl

namespace ResultSet

/-- What can be done to a result set. -/
inductive Step
  /-- The hit of a document is asked for, and comes in if there is none. -/
  | entry (id : DocId)
  /-- The hit of a document is asked for and changed. -/
  | edit (id : DocId) (change : Hit.Edit)
  | retain (keep : Hit → Bool)
  | removeAll (ids : List DocId)
  | sortByWeight

/-- A result set after a step. -/
def Step.apply (set : ResultSet) : Step → ResultSet
  | .entry id => (set.entry id).1
  | .edit id change => set.update id change.apply
  | .retain keep => set.retain keep
  | .removeAll ids => set.removeAll ids
  | .sortByWeight => set.sortByWeight

/-- What becomes of the empty result set in several steps. -/
def after (steps : List Step) : ResultSet := steps.foldl Step.apply empty

/-- The hits of a result set are of different documents, and its places are the positions of their
ids, so that what is found for a document is its one hit. Each further step does to the hits what it
is meant to do. -/
structure Orderly (set : ResultSet) : Prop where
  /-- No document has two hits. -/
  nodup : set.ids.Nodup
  /-- The places are those of the hits, and no others. -/
  places : ∀ id place, set.places.get? id.text = some place ↔ set.ids[place]? = some id
  contains : ∀ id, set.contains id = true ↔ id ∈ set.ids
  get : ∀ id hit, set.get? id = some hit ↔ hit ∈ set.hits ∧ hit.id = id
  /-- An entry leads to the hit of the document, which stands at the end if it is new. -/
  entry : ∀ id, (set.entry id).1.ids[(set.entry id).2]? = some id ∧
    (set.entry id).1.hits = if id ∈ set.ids then set.hits else set.hits ++ [Hit.new id]
  /-- No other hit is changed with it. -/
  edit : ∀ id (change : Hit.Edit), (set.update id change.apply).hits =
    (set.entry id).1.hits.map fun hit => if hit.id = id then change.apply hit else hit
  retain : ∀ keep, (set.retain keep).hits = set.hits.filter keep
  removeAll : ∀ ids, (set.removeAll ids).hits = set.hits.filter fun hit => hit.id ∉ ids
  sort_perm : set.sortByWeight.hits.Perm set.hits
  sort_pairwise : set.sortByWeight.hits.Pairwise fun a b => b.weight.orderKey ≤ a.weight.orderKey
  /-- Hits of one weight keep their order. -/
  sort_stable : ∀ weight, set.sortByWeight.hits.filter (·.weight = weight) =
    set.hits.filter (·.weight = weight)

variable {set : ResultSet} {id : DocId}

namespace Sound

/-- Asking for the entry of a document leaves the hits and their places sound. -/
theorem entry (h : set.Sound) (id : DocId) : (set.entry id).1.Sound := by
  by_cases hid : id ∈ set.ids
  · rwa [h.entry_of_mem hid]
  · rw [h.entry_of_not_mem hid]
    refine sound_ofHits ?_
    rw [List.map_append, List.map_singleton, ← List.concat_eq_append]
    exact h.nodup.concat hid

/-- **No step makes a place wrong.** -/
theorem apply (h : set.Sound) (step : Step) : (step.apply set).Sound := by
  cases step with
  | entry id => exact h.entry id
  | edit id change => exact h.update id change.id_apply
  | retain keep => exact h.retain keep
  | removeAll ids => exact h.removeAll ids
  | sortByWeight => exact h.sortByWeight

/-- Steps leave the hits and their places sound. -/
lemma steps (h : set.Sound) (steps : List Step) : (steps.foldl Step.apply set).Sound := by
  induction steps generalizing set with
  | nil => exact h
  | cons step steps ih => exact ih (h.apply step)

/-- An entry leads to the hit of its document. -/
lemma getElem?_ids_entry (h : set.Sound) (id : DocId) :
    (set.entry id).1.ids[(set.entry id).2]? = some id := by
  by_cases hid : id ∈ set.ids
  · rw [h.entry_of_mem hid]
    exact List.getElem?_idxOf hid
  · rw [h.entry_of_not_mem hid]
    simp [ids, ofHits, Hit.new]

/-- The entry of a document without a hit is a new one behind all others. -/
lemma hits_entry (h : set.Sound) (id : DocId) :
    (set.entry id).1.hits = if id ∈ set.ids then set.hits else set.hits ++ [Hit.new id] := by
  split
  · next hid => rw [h.entry_of_mem hid]
  · next hid => rw [h.entry_of_not_mem hid, ofHits]

/-- Of the hits behind an entry, the one of its document is changed. -/
lemma hits_update (h : set.Sound) (id : DocId) (edit : Hit.Edit) :
    (set.update id edit.apply).hits =
      (set.entry id).1.hits.map fun hit => if hit.id = id then edit.apply hit else hit := by
  rw [h.hits_entry]
  split
  · next hid => rw [h.update_of_mem hid edit.id_apply, ofHits]
  · next hid =>
    have hothers : set.hits.map (fun hit => if hit.id = id then edit.apply hit else hit) =
        set.hits := by
      refine (List.map_congr_left fun hit hhit => if_neg ?_).trans (List.map_id' _)
      exact fun heq => hid (heq ▸ List.mem_map_of_mem hhit)
    rw [h.update_of_not_mem hid edit.id_apply, ofHits, List.map_append, hothers, List.map_singleton,
      if_pos (show (Hit.new id).id = id from rfl)]

/-- What is known of sound result sets is what an orderly one needs. -/
theorem orderly (h : set.Sound) : set.Orderly where
  nodup := h.nodup
  places _ _ := h.get?_places
  contains _ := h.contains_iff
  get _ _ := h.get?_eq_some_iff
  entry id := ⟨h.getElem?_ids_entry id, h.hits_entry id⟩
  edit := h.hits_update
  retain _ := rfl
  removeAll ids := by rw [h.removeAll_eq, ofHits]
  sort_perm := List.mergeSort_perm _ _
  sort_pairwise := set.pairwise_sortByWeight
  sort_stable := set.filter_sortByWeight

end Sound

/-- **Places are never wrong.** In any number of steps from the empty result set, hits of documents
are asked for, get matches and weights, are kept or dropped by any choice, are removed by ids that
may be unknown or repeated, and are sorted. Then no document has two hits, and the places are the
positions of the ids of the hits. So a document counts as contained iff it has a hit, and what is
found for it, be it to read or to change, is this hit. Hits that are dropped are those chosen, and
the others stay as they are in their order. Sorting moves the heavier hits to the front and leaves
hits of one weight in their order.

**Proof sketch.** Each step leaves the places those of the hits. An entry adds one at the end or
none, a change of a hit keeps its id, and all other steps find the places anew. -/
theorem orderly_of_steps (steps : List Step) : (after steps).Orderly :=
  (sound_empty.steps steps).orderly

end ResultSet

end Concordance
