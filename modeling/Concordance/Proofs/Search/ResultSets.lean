import Concordance.Proofs.OrderedMaps
import Concordance.Proofs.PostingLists
import Concordance.Search.ResultSet

set_option relaxedAutoImplicit false
set_option autoImplicit false

/-!
# Result sets and their hits

A result set is changed hit by hit or as a whole. What a change does is told by what it does to the
hit of a document: `get?` finds the one hit of each document, and every operation has an equation
that says what is found after it.

## Main definitions

* `Concordance.ResultSet.Sound` — the places of a result set are those of its hits.
* `Concordance.ResultSet.hitOf` — the hit of a document, a new one if it has none.
* `Concordance.ResultSet.list` — the documents of the hits, in order.

## Main results

* `Concordance.ResultSet.Sound.get?_eq_some_iff` — a document's hit is the one with its id.
* `Concordance.ResultSet.Sound.get?_update`, `get?_map`, `get?_retain`, `get?_removeAll`,
  `get?_sortByWeight` — the hit of a document after a change.
* `Concordance.ResultSet.Sound.list_update` — a change of one hit adds its document to the others.
* `Concordance.ResultSet.pairwise_sortByWeight`, `filter_sortByWeight` — the order by weight.
-/

namespace Concordance.ResultSet

/-- The hits are of different documents, and the places are theirs. -/
structure Sound (set : ResultSet) : Prop where
  nodup : set.ids.Nodup
  places_eq : set.places = placesOf set.hits

/-! ## Places -/

/-- Ids with the same text are the same. -/
lemma text_injective : Function.Injective DocId.text := by
  rintro ⟨text⟩ ⟨text'⟩ rfl
  rfl

/-- The places are the ids with their positions. -/
lemma placesOf_eq (hits : List Hit) :
    placesOf hits = .ofList (hits.zipIdx.map fun entry => (entry.1.id.text, entry.2)) := rfl

/-- The place of a document is that of the hit with its id.

**Proof sketch.** Ids of hits are different and so are their texts, so the place found under a text
is that of the one hit with it. -/
lemma get?_placesOf {hits : List Hit} (h : (hits.map Hit.id).Nodup) {id : DocId} {i : Nat} :
    (placesOf hits).get? id.text = some i ↔ ∃ hit, hits[i]? = some hit ∧ hit.id = id := by
  have hkeys : (hits.zipIdx.map fun entry => (entry.1.id.text, entry.2)).map Prod.fst =
      (hits.map Hit.id).map DocId.text := by
    have hfirst : hits.zipIdx.map Prod.fst = hits := List.zipIdx_map_fst 0 hits
    conv_rhs => rw [← hfirst]
    simp only [List.map_map, Function.comp_def]
  have hnodup : ((hits.zipIdx.map fun entry => (entry.1.id.text, entry.2)).map Prod.fst).Nodup := by
    rw [hkeys]
    exact h.map text_injective
  rw [placesOf_eq, OrderedMap.get?_ofList hnodup, List.mem_map]
  constructor
  · rintro ⟨⟨hit, j⟩, hmem, heq⟩
    obtain ⟨htext, rfl⟩ := Prod.mk.inj heq
    exact ⟨hit, List.mem_zipIdx_iff_getElem?.1 hmem, text_injective htext⟩
  · rintro ⟨hit, hhit, rfl⟩
    exact ⟨(hit, i), List.mem_zipIdx_iff_getElem?.2 hhit, rfl⟩

/-- A hit behind all others gets the next place. -/
lemma placesOf_concat (hits : List Hit) (hit : Hit) :
    placesOf (hits ++ [hit]) = (placesOf hits).insert hit.id.text hits.length := by
  simp [placesOf, OrderedMap.ofList, List.zipIdx_append]

/-- The places of hits depend on nothing but their ids. -/
lemma placesOf_congr {hits hits' : List Hit} (h : hits.map Hit.id = hits'.map Hit.id) :
    placesOf hits = placesOf hits' := by
  have hids : ∀ hits : List Hit, hits.zipIdx.map (fun entry => (entry.1.id.text, entry.2)) =
      (hits.map Hit.id).zipIdx.map fun entry => (entry.1.text, entry.2) := by
    intro hits
    rw [List.zipIdx_map, List.map_map]
    rfl
  rw [placesOf_eq, placesOf_eq, hids, hids, h]

/-! ## The hit of a document -/

/-- No hits are a sound result set. -/
lemma sound_empty : empty.Sound := ⟨List.nodup_nil, rfl⟩

/-- Hits of different documents are a sound result set. -/
lemma sound_ofHits {hits : List Hit} (h : (hits.map Hit.id).Nodup) : (ofHits hits).Sound :=
  ⟨h, rfl⟩

variable {set : ResultSet} {id other : DocId} {hit : Hit} {change : Hit → Hit}

namespace Sound

/-- The hit of a document is the one with its id. -/
theorem get?_eq_some_iff (h : set.Sound) :
    set.get? id = some hit ↔ hit ∈ set.hits ∧ hit.id = id := by
  unfold get?
  rw [h.places_eq, Option.bind_eq_some_iff]
  constructor
  · rintro ⟨i, hplace, hhit⟩
    obtain ⟨found, hfound, hid⟩ := (get?_placesOf h.nodup).1 hplace
    obtain rfl := Option.some.inj (hfound.symm.trans hhit)
    exact ⟨List.mem_of_getElem? hhit, hid⟩
  · rintro ⟨hmem, hid⟩
    obtain ⟨i, hhit⟩ := List.mem_iff_getElem?.1 hmem
    exact ⟨i, (get?_placesOf h.nodup).2 ⟨hit, hhit, hid⟩, hhit⟩

/-- A document has a hit iff its id is among those of the hits. -/
lemma isSome_get?_iff (h : set.Sound) : (set.get? id).isSome ↔ id ∈ set.ids := by
  rw [Option.isSome_iff_exists]
  simp only [h.get?_eq_some_iff]
  exact List.mem_map.symm

/-- A document has no hit if its id is not among those of the hits. -/
lemma get?_eq_none_iff (h : set.Sound) : set.get? id = none ↔ id ∉ set.ids := by
  rw [← h.isSome_get?_iff]
  simp

/-- A document is contained if it has a hit. -/
lemma contains_iff (h : set.Sound) : set.contains id = true ↔ id ∈ set.ids := by
  unfold contains OrderedMap.contains
  rw [h.places_eq, Option.isSome_iff_exists]
  simp only [get?_placesOf h.nodup]
  constructor
  · rintro ⟨i, hit, hhit, rfl⟩
    exact List.mem_map_of_mem (List.mem_of_getElem? hhit)
  · intro hid
    obtain ⟨hit, hmem, rfl⟩ := List.mem_map.1 hid
    obtain ⟨i, hhit⟩ := List.mem_iff_getElem?.1 hmem
    exact ⟨i, hit, hhit, rfl⟩

/-! ## Changing one hit -/

/-- The place of a document is the position of its id. -/
lemma get?_places (h : set.Sound) {place : Nat} :
    set.places.get? id.text = some place ↔ set.ids[place]? = some id := by
  rw [h.places_eq, get?_placesOf h.nodup, ids, List.getElem?_map, Option.map_eq_some_iff]

/-- A document that has no hit gets a new one at the end. -/
lemma entry_of_not_mem (h : set.Sound) (hid : id ∉ set.ids) :
    set.entry id = (ofHits (set.hits ++ [Hit.new id]), set.hits.length) := by
  have hnone : set.places.get? id.text = none := by
    rw [Option.eq_none_iff_forall_ne_some]
    exact fun place hplace => hid (List.mem_of_getElem? (h.get?_places.1 hplace))
  rw [entry, hnone, ofHits, placesOf_concat, ← h.places_eq]
  rfl

/-- The hit of a document that has one is found where it stands. -/
lemma entry_of_mem (h : set.Sound) (hid : id ∈ set.ids) :
    set.entry id = (set, set.ids.idxOf id) := by
  rw [entry, h.get?_places.2 (List.getElem?_idxOf hid)]

/-- A new hit stands at the end. -/
lemma update_of_not_mem (h : set.Sound) (hid : id ∉ set.ids)
    (hchange : ∀ hit, (change hit).id = hit.id) :
    set.update id change = ofHits (set.hits ++ [change (Hit.new id)]) := by
  have hmodify : (set.hits ++ [Hit.new id]).modify set.hits.length change =
      set.hits ++ [change (Hit.new id)] := by
    rw [List.modify_eq_take_cons_drop (by simp)]
    simp
  rw [update, h.entry_of_not_mem hid]
  simp only [ofHits, hmodify]
  congr 1
  refine placesOf_congr ?_
  rw [List.map_append, List.map_append, List.map_singleton, List.map_singleton, hchange]

/-- The hit of a document that has one is changed where it stands.

**Proof sketch.** The place that is noted for the document is that of its hit, and only this hit has
its id. The ids stay, so the places do. -/
lemma update_of_mem (h : set.Sound) (hid : id ∈ set.ids)
    (hchange : ∀ hit, (change hit).id = hit.id) :
    set.update id change =
      ofHits (set.hits.map fun hit => if hit.id = id then change hit else hit) := by
  have hmodify : set.hits.modify (set.ids.idxOf id) change =
      set.hits.map fun hit => if hit.id = id then change hit else hit := by
    refine List.ext_getElem? fun j => ?_
    rw [List.getElem?_modify, List.getElem?_map]
    cases hother : set.hits[j]? with
    | none => simp
    | some other =>
      have hj : set.ids[j]? = some other.id := by simp [ids, hother]
      have hsame : other.id = id ↔ set.ids.idxOf id = j := by
        constructor
        · rintro rfl
          exact (List.getElem?_inj (List.idxOf_lt_length_of_mem hid) h.nodup).1
            ((List.getElem?_idxOf hid).trans hj.symm)
        · rintro rfl
          exact Option.some.inj (hj.symm.trans (List.getElem?_idxOf hid))
      by_cases hij : set.ids.idxOf id = j
      · simp [hij, hsame.2 hij]
      · simp [hij, mt hsame.1 hij]
  rw [update, h.entry_of_mem hid]
  simp only [ofHits, ← hmodify]
  rw [h.places_eq]
  congr 1
  refine placesOf_congr ?_
  rw [hmodify, List.map_map]
  refine List.map_congr_left fun other _ => ?_
  simp only [Function.comp_apply]
  split
  · exact (hchange other).symm
  · rfl

/-- A document whose hit is changed stands behind the others if it had none. -/
lemma ids_update (h : set.Sound) (id : DocId) (hchange : ∀ hit, (change hit).id = hit.id) :
    (set.update id change).ids = if id ∈ set.ids then set.ids else set.ids ++ [id] := by
  split
  · next hid =>
    rw [h.update_of_mem hid hchange, ids, ofHits, List.map_map]
    refine List.map_congr_left fun other _ => ?_
    simp only [Function.comp_apply]
    split
    · exact hchange other
    · rfl
  · next hid =>
    rw [h.update_of_not_mem hid hchange, ids, ofHits, List.map_append, List.map_singleton, hchange]
    rfl

/-- Updating a hit, or making one, leaves a result set sound. -/
theorem update (h : set.Sound) (id : DocId) (hchange : ∀ hit, (change hit).id = hit.id) :
    (set.update id change).Sound := by
  have hids := h.ids_update id hchange
  by_cases hid : id ∈ set.ids
  · rw [if_pos hid] at hids
    rw [h.update_of_mem hid hchange] at hids ⊢
    exact ⟨hids.symm ▸ h.nodup, rfl⟩
  · rw [if_neg hid] at hids
    rw [h.update_of_not_mem hid hchange] at hids ⊢
    refine ⟨hids.symm ▸ ?_, rfl⟩
    exact List.concat_eq_append ▸ h.nodup.concat hid

/-- A change of one hit: a document that has none gets one.

**Proof sketch.** By whether the document has a hit. If it has one, this hit is changed where it
stands and the others stay. If not, a new one that is changed stands behind the others. -/
theorem get?_update (h : set.Sound) (id : DocId) (hchange : ∀ hit, (change hit).id = hit.id)
    (other : DocId) : (set.update id change).get? other =
      if other = id then some (change ((set.get? id).getD (Hit.new id))) else set.get? other := by
  ext found
  rw [(h.update id hchange).get?_eq_some_iff]
  by_cases hid : id ∈ set.ids
  · obtain ⟨hit, hhit⟩ := Option.isSome_iff_exists.1 (h.isSome_get?_iff.2 hid)
    rw [h.update_of_mem hid hchange, hhit]
    obtain ⟨hmem, hitid⟩ := h.get?_eq_some_iff.1 hhit
    simp only [ofHits, List.mem_map, Option.getD_some]
    constructor
    · rintro ⟨⟨source, hsource, rfl⟩, rfl⟩
      by_cases heq : source.id = id
      -- ids are different, so the hit that is changed is the one that was found
      · have hsame : source = hit := Option.some.inj
          ((h.get?_eq_some_iff.2 ⟨hsource, heq⟩).symm.trans hhit)
        simp [hsame, hchange, hitid]
      · simp [heq, h.get?_eq_some_iff, hsource]
    · intro hfound
      by_cases heq : other = id
      · rw [if_pos heq] at hfound
        obtain rfl := Option.some.inj hfound
        exact ⟨⟨hit, hmem, by simp [hitid]⟩, by rw [hchange, hitid, heq]⟩
      · rw [if_neg heq] at hfound
        obtain ⟨hother, rfl⟩ := h.get?_eq_some_iff.1 hfound
        exact ⟨⟨found, hother, by simp [heq]⟩, rfl⟩
  · rw [h.update_of_not_mem hid hchange, h.get?_eq_none_iff.2 hid]
    simp only [ofHits, List.mem_append, List.mem_singleton, Option.getD_none]
    constructor
    · rintro ⟨hmem | rfl, rfl⟩
      · have hne : found.id ≠ id := fun heq => hid (heq ▸ List.mem_map_of_mem hmem)
        rw [if_neg hne, h.get?_eq_some_iff]
        exact ⟨hmem, rfl⟩
      · rw [hchange]
        simp [Hit.new]
    · intro hfound
      by_cases heq : other = id
      · rw [if_pos heq] at hfound
        obtain rfl := Option.some.inj hfound
        exact ⟨.inr rfl, by rw [hchange, heq]; rfl⟩
      · rw [if_neg heq] at hfound
        obtain ⟨hother, rfl⟩ := h.get?_eq_some_iff.1 hfound
        exact ⟨.inl hother, rfl⟩

/-! ## Changing all hits -/

/-- Changing hits without their ids leaves a result set sound. -/
theorem map (h : set.Sound) (hchange : ∀ hit, (change hit).id = hit.id) :
    (set.map change).Sound := by
  have hids : (set.hits.map change).map Hit.id = set.ids := by
    rw [List.map_map]
    exact List.map_congr_left fun hit _ => hchange hit
  refine ⟨?_, ?_⟩
  · rw [ids, ResultSet.map, hids]
    exact h.nodup
  · exact h.places_eq.trans (placesOf_congr hids.symm)

/-- A change of all hits. -/
theorem get?_map (h : set.Sound) (hchange : ∀ hit, (change hit).id = hit.id) (id : DocId) :
    (set.map change).get? id = (set.get? id).map change := by
  ext found
  rw [(h.map hchange).get?_eq_some_iff, Option.map_eq_some_iff]
  simp only [ResultSet.map, List.mem_map, h.get?_eq_some_iff]
  constructor
  · rintro ⟨⟨hit, hmem, rfl⟩, rfl⟩
    exact ⟨hit, ⟨hmem, (hchange hit).symm⟩, rfl⟩
  · rintro ⟨hit, ⟨hmem, rfl⟩, rfl⟩
    exact ⟨⟨hit, hmem, rfl⟩, hchange hit⟩

/-- Retaining some of the hits leaves a result set sound. -/
theorem retain (h : set.Sound) (keep : Hit → Bool) : (set.retain keep).Sound :=
  sound_ofHits (h.nodup.sublist (List.filter_sublist.map Hit.id))

/-- Hits that are kept are found as they were. -/
theorem get?_retain (h : set.Sound) (keep : Hit → Bool) (id : DocId) :
    (set.retain keep).get? id = (set.get? id).filter keep := by
  ext found
  rw [(h.retain keep).get?_eq_some_iff, Option.filter_eq_some_iff, h.get?_eq_some_iff]
  simp only [ResultSet.retain, ofHits, List.mem_filter]
  tauto

/-- What is left of the places when those of some documents are taken out. -/
lemma contains_foldl_erase (ids : List DocId) (places : OrderedMap String Nat) :
    (ids.foldl (fun places id => places.erase id.text) places).contains other.text = true ↔
      other ∉ ids ∧ places.contains other.text = true := by
  induction ids generalizing places with
  | nil => simp
  | cons id ids ih =>
    rw [List.foldl_cons, ih, OrderedMap.contains_erase, List.mem_cons, text_injective.ne_iff]
    tauto

/-- The hits that are left when those of some documents are taken out.

**Proof sketch.** If one of the documents has a hit, the hits with their ids are filtered out along
with their places. Otherwise nothing would be filtered out, and nothing is done. -/
lemma removeAll_eq (h : set.Sound) (ids : List DocId) :
    set.removeAll ids = ofHits (set.hits.filter fun hit => hit.id ∉ ids) := by
  unfold removeAll
  split
  · refine congrArg ofHits (List.filter_congr fun hit hmem => ?_)
    have hcontains : set.places.contains hit.id.text = true :=
      h.contains_iff.2 (List.mem_map_of_mem hmem)
    rw [Bool.eq_iff_iff, contains_foldl_erase]
    simp [hcontains]
  · next hany =>
    have hall : set.hits.filter (fun hit => decide (hit.id ∉ ids)) = set.hits := by
      refine List.filter_eq_self.2 fun hit hmem => ?_
      have hhit : hit.id ∉ ids := fun hid => hany (List.any_eq_true.2
        ⟨hit.id, hid, h.contains_iff.2 (List.mem_map_of_mem hmem)⟩)
      simpa using hhit
    rw [hall, ofHits, ← h.places_eq]

/-- Removing documents leaves a result set sound. -/
theorem removeAll (h : set.Sound) (ids : List DocId) : (set.removeAll ids).Sound := by
  rw [h.removeAll_eq]
  exact sound_ofHits (h.nodup.sublist (List.filter_sublist.map Hit.id))

/-- Documents that are taken out have no hit, all others the one they had.

**Proof sketch.** By whether the document is taken out, since what is left are the hits with other
ids. -/
theorem get?_removeAll (h : set.Sound) (ids : List DocId) (id : DocId) :
    (set.removeAll ids).get? id = if id ∈ ids then none else set.get? id := by
  ext found
  rw [(h.removeAll ids).get?_eq_some_iff, h.removeAll_eq]
  simp only [ofHits, List.mem_filter, decide_eq_true_eq]
  by_cases hid : id ∈ ids
  · rw [if_pos hid]
    refine iff_of_false ?_ (by simp)
    rintro ⟨⟨-, hnot⟩, rfl⟩
    exact hnot hid
  · rw [if_neg hid, h.get?_eq_some_iff]
    constructor
    · rintro ⟨⟨hmem, -⟩, rfl⟩
      exact ⟨hmem, rfl⟩
    · rintro ⟨hmem, rfl⟩
      exact ⟨⟨hmem, hid⟩, rfl⟩

/-- Sorting by weight leaves a result set sound. -/
theorem sortByWeight (h : set.Sound) : set.sortByWeight.Sound :=
  sound_ofHits (((List.mergeSort_perm _ _).map Hit.id).nodup_iff.2 h.nodup)

/-- Sorting leaves every document its hit. -/
theorem get?_sortByWeight (h : set.Sound) (id : DocId) :
    set.sortByWeight.get? id = set.get? id := by
  ext found
  rw [h.sortByWeight.get?_eq_some_iff, h.get?_eq_some_iff]
  simp only [ResultSet.sortByWeight, ofHits, List.mem_mergeSort]

end Sound

/-! ## Documents with and without a hit -/

/-- The hit of a document, a new one if it has none. -/
def hitOf (set : ResultSet) (id : DocId) : Hit := (set.get? id).getD (Hit.new id)

/-- The documents of the hits, in order. -/
def list (set : ResultSet) : PostingList := ⟨set.ids⟩

/-- Without hits every document gets a new one. -/
@[simp] lemma hitOf_empty (id : DocId) : empty.hitOf id = Hit.new id := rfl

namespace Sound

/-- The hit of a document is the one that it has. -/
lemma hitOf_of_mem (h : set.Sound) (hhit : hit ∈ set.hits) : set.hitOf hit.id = hit := by
  rw [hitOf, h.get?_eq_some_iff.2 ⟨hhit, rfl⟩, Option.getD_some]

/-- A document without a hit gets a new one. -/
lemma hitOf_of_not_mem (h : set.Sound) (hid : id ∉ set.ids) : set.hitOf id = Hit.new id := by
  rw [hitOf, h.get?_eq_none_iff.2 hid, Option.getD_none]

/-- Of a document without a hit a new one is changed. -/
theorem hitOf_update (h : set.Sound) (id : DocId) (hchange : ∀ hit, (change hit).id = hit.id)
    (other : DocId) : (set.update id change).hitOf other =
      if other = id then change (set.hitOf id) else set.hitOf other := by
  rw [hitOf, h.get?_update id hchange]
  split
  · rfl
  · rfl

/-- An update adds the document to the list, where it stays if it was there before. -/
theorem list_update (h : set.Sound) (id : DocId) (hchange : ∀ hit, (change hit).id = hit.id) :
    (set.update id change).list = set.list.add id := by
  rw [list, h.ids_update id hchange, PostingList.add, apply_ite PostingList.mk]
  simp only [PostingList.contains_iff]
  rfl

end Sound

/-- The result set with the hits of several documents changed, one after the other. -/
def updateAll {α : Type} (set : ResultSet) (key : α → DocId) (change : α → Hit → Hit)
    (items : List α) : ResultSet :=
  items.foldl (fun set item => set.update (key item) (change item)) set

namespace Sound

variable {α : Type} {key : α → DocId} {change : α → Hit → Hit}

/-- Documents whose hits are changed are added to the others. -/
theorem updateAll (h : set.Sound) (hchange : ∀ item hit, (change item hit).id = hit.id)
    (items : List α) : (set.updateAll key change items).Sound ∧
      (set.updateAll key change items).list = (items.map key).foldl PostingList.add set.list := by
  induction items generalizing set with
  | nil => exact ⟨h, rfl⟩
  | cons item items ih =>
    obtain ⟨hsound, hlist⟩ := ih (h.update (key item) (hchange item))
    rw [h.list_update (key item) (hchange item)] at hlist
    exact ⟨hsound, hlist⟩

/-- What no change touches stays. -/
lemma hitOf_updateAll {β : Type} (view : Hit → β) (h : set.Sound)
    (hchange : ∀ item hit, (change item hit).id = hit.id)
    (hview : ∀ item hit, view (change item hit) = view hit) (items : List α) (id : DocId) :
    view ((set.updateAll key change items).hitOf id) = view (set.hitOf id) := by
  induction items generalizing set with
  | nil => rfl
  | cons item items ih =>
    refine (ih (h.update (key item) (hchange item))).trans ?_
    rw [h.hitOf_update (key item) (hchange item)]
    split
    · next heq => rw [hview, heq]
    · rfl

end Sound

/-! ## The order by weight -/

/-- A stable sort leaves elements that are equivalent as they stand. -/
lemma filter_mergeSort {α : Type} {le : α → α → Bool} {p : α → Bool}
    (trans : ∀ a b c, le a b → le b c → le a c) (total : ∀ a b, le a b || le b a)
    (hp : ∀ a b, p a → p b → le a b) (l : List α) : (l.mergeSort le).filter p = l.filter p := by
  have hpairwise : (l.filter p).Pairwise fun a b => le a b = true :=
    List.pairwise_of_forall_mem_list fun a ha b hb =>
      hp a b (List.of_mem_filter ha) (List.of_mem_filter hb)
  have hsub : (l.filter p).Sublist ((l.mergeSort le).filter p) := by
    have := (List.sublist_mergeSort trans total hpairwise List.filter_sublist).filter p
    rwa [List.filter_filter, List.filter_congr fun a _ => Bool.and_self (p a)] at this
  exact (hsub.eq_of_length ((List.mergeSort_perm l le).filter p).length_eq.symm).symm

/-- Being at least as heavy is transitive. -/
lemma heavier_trans (a b c : Hit) (hab : decide (b.weight.orderKey ≤ a.weight.orderKey))
    (hbc : decide (c.weight.orderKey ≤ b.weight.orderKey)) :
    decide (c.weight.orderKey ≤ a.weight.orderKey) :=
  decide_eq_true ((of_decide_eq_true hbc).trans (of_decide_eq_true hab))

/-- Of two hits one is at least as heavy as the other. -/
lemma heavier_total (a b : Hit) : (decide (b.weight.orderKey ≤ a.weight.orderKey) ||
    decide (a.weight.orderKey ≤ b.weight.orderKey)) = true := by
  simpa using Int.le_total b.weight.orderKey a.weight.orderKey

/-- Heavier hits come first. -/
theorem pairwise_sortByWeight (set : ResultSet) :
    set.sortByWeight.hits.Pairwise fun a b => b.weight.orderKey ≤ a.weight.orderKey :=
  (List.pairwise_mergeSort heavier_trans heavier_total set.hits).imp fun h => of_decide_eq_true h

/-- Hits of one weight keep their order. -/
theorem filter_sortByWeight (set : ResultSet) (weight : Single) :
    set.sortByWeight.hits.filter (·.weight = weight) = set.hits.filter (·.weight = weight) := by
  refine filter_mergeSort heavier_trans heavier_total (fun a b ha hb => ?_) set.hits
  rw [of_decide_eq_true ha, of_decide_eq_true hb]
  exact decide_eq_true le_rfl

/-- A hit that stands before another of its weight did so before they were sorted. -/
lemma sublist_of_sortByWeight {set : ResultSet} {a b : Hit}
    (h : [a, b].Sublist set.sortByWeight.hits) (heq : a.weight = b.weight) :
    [a, b].Sublist set.hits := by
  have hboth : [a, b].filter (·.weight = a.weight) = [a, b] :=
    List.filter_eq_self.2 (by simp [heq])
  rw [← hboth]
  refine (h.filter (·.weight = a.weight)).trans ?_
  rw [filter_sortByWeight]
  exact List.filter_sublist

end Concordance.ResultSet
