import Concordance.PostingList
import Concordance.Proofs.DocIds
import Mathlib.Data.List.Basic
import Mathlib.Data.List.Induction

set_option relaxedAutoImplicit false
set_option autoImplicit false

/-!
# Posting lists are read back

A list of ids is written as one text and read from it unchanged, as long as no id is empty or holds
the separator, and no id is in the list twice. Ids that callers choose and ids that are handed out
are of this form, and every change of a list keeps it so.

## Main definitions

* `Concordance.DocId.IsPlain` — the ids that can stand in a list.
* `Concordance.PostingList.IsPlain` — the lists that come back as they were written.

## Main results

* `Concordance.DocId.isPlain_of_ofText`, `isPlain_ofSequence` — all ids are plain.
* `Concordance.PostingList.decode_encode` — plain lists are read back.
* `Concordance.PostingList.isPlain_decode` — only plain lists are read.
* `Concordance.PostingList.pairwise_ofList` — ids stand in the order in which they first came.
-/

namespace Concordance

/-! ## Ids -/

namespace DocId

/-- An id that is not empty and free of the separator. -/
def IsPlain (id : DocId) : Prop := id.text.toList ≠ [] ∧ separator ∉ id.text.toList

/-- The ids that callers may choose are plain. -/
theorem isPlain_of_ofText {text : String} {id : DocId} (h : ofText text = .ok id) :
    id.IsPlain := by
  unfold ofText at h
  split at h
  · cases h
  · next hempty =>
    split at h
    · cases h
    · next hseparator =>
      cases h
      exact ⟨hempty, hseparator⟩

/-- The ids of sequence numbers are plain. -/
theorem isPlain_ofSequence (n : Nat) : (ofSequence n).IsPlain := by
  refine ⟨?_, fun h => absurd (mem_alphabet_of_mem_encode n _ h) (by decide)⟩
  rw [ofSequence, toList_encode]
  simpa using Positional.numeral_ne_nil (by decide : 2 ≤ 62) n

end DocId

namespace PostingList

/-! ## Membership -/

/-- A list contains the ids that are on it. -/
@[simp] lemma contains_iff {list : PostingList} {id : DocId} :
    list.contains id = true ↔ id ∈ list.ids := by
  simp [contains]

/-- A list is found to be empty only if it is. -/
lemma isEmpty_iff {list : PostingList} : list.isEmpty = true ↔ list = empty := by
  obtain ⟨ids⟩ := list
  simp [isEmpty, empty]

/-- An empty list is one without ids. -/
lemma eq_empty_iff {list : PostingList} : list = empty ↔ ∀ id, id ∉ list.ids := by
  obtain ⟨ids⟩ := list
  simp [empty, List.eq_nil_iff_forall_not_mem]

/-- The ids of a list after one was added are that one and those before. -/
lemma mem_add {list : PostingList} {id other : DocId} :
    other ∈ (list.add id).ids ↔ other = id ∨ other ∈ list.ids := by
  unfold add
  split
  · next h =>
    rw [contains_iff] at h
    constructor
    · exact .inr
    · rintro (rfl | hother)
      · exact h
      · exact hother
  · simp [or_comm]

/-- The ids of a list after one was removed are the others. -/
lemma mem_remove {list : PostingList} {id other : DocId} :
    other ∈ (list.remove id).ids ↔ other ∈ list.ids ∧ other ≠ id := by
  simp [remove]

/-- Removing an id that is not on a list changes nothing. -/
lemma remove_of_not_mem {list : PostingList} {id : DocId} (h : id ∉ list.ids) :
    list.remove id = list := by
  obtain ⟨ids⟩ := list
  have hall : ids.filter (· ≠ id) = ids := by
    refine List.filter_eq_self.2 fun other hother => ?_
    have hne : other ≠ id := fun heq => h (heq ▸ hother)
    simpa using hne
  simp only [remove, hall]

/-- Adding an id that is on a list changes nothing. -/
lemma add_of_mem {list : PostingList} {id : DocId} (h : id ∈ list.ids) : list.add id = list :=
  if_pos (contains_iff.2 h)

/-- A new id comes behind all others. -/
lemma add_of_not_mem {list : PostingList} {id : DocId} (h : id ∉ list.ids) :
    list.add id = ⟨list.ids ++ [id]⟩ := if_neg fun hmem => h (contains_iff.1 hmem)

/-- Adding an id that is new, and removing it again, leaves the list as it was. -/
lemma remove_add {list : PostingList} {id : DocId} (h : id ∉ list.ids) :
    (list.add id).remove id = list := by
  have hremove := remove_of_not_mem h
  unfold remove at hremove ⊢
  rw [add_of_not_mem h, List.filter_append]
  simpa using hremove

/-- A list is not empty after an id was added. -/
lemma add_ne_empty (list : PostingList) (id : DocId) : list.add id ≠ empty := by
  intro h
  exact eq_empty_iff.1 h id (mem_add.2 (.inl rfl))

/-- The ids of a list after several were added are those and the ones before. -/
lemma mem_foldl_add {ids : List DocId} {list : PostingList} {id : DocId} :
    id ∈ (ids.foldl add list).ids ↔ id ∈ list.ids ∨ id ∈ ids := by
  induction ids generalizing list with
  | nil => simp
  | cons first ids ih =>
    rw [List.foldl_cons, ih, mem_add, List.mem_cons]
    constructor
    · rintro ((rfl | h) | h)
      · exact .inr (.inl rfl)
      · exact .inl h
      · exact .inr (.inr h)
    · rintro (h | rfl | h)
      · exact .inl (.inr h)
      · exact .inl (.inl rfl)
      · exact .inr h

/-- The ids of a union are those of both lists. -/
lemma mem_union {list other : PostingList} {id : DocId} :
    id ∈ (list.union other).ids ↔ id ∈ list.ids ∨ id ∈ other.ids := mem_foldl_add

/-- The ids of a union of several lists are those of all of them. -/
lemma mem_foldl_union {lists : List PostingList} {list : PostingList} {id : DocId} :
    id ∈ (lists.foldl union list).ids ↔ id ∈ list.ids ∨ ∃ other ∈ lists, id ∈ other.ids := by
  induction lists generalizing list with
  | nil => simp
  | cons first lists ih =>
    rw [List.foldl_cons, ih, mem_union, List.exists_mem_cons_iff, or_assoc]

/-! ## The order of the ids -/

/-- Ids can be added in two batches. -/
lemma foldl_add_append (ids ids' : List DocId) (list : PostingList) :
    (ids ++ ids').foldl add list = ids'.foldl add (ids.foldl add list) := List.foldl_append

/-- It does not matter whether an id is added to the list that comes behind or to both. -/
lemma union_add (list other : PostingList) (id : DocId) :
    list.union (other.add id) = (list.union other).add id := by
  by_cases hid : id ∈ other.ids
  · rw [add_of_mem hid, add_of_mem (mem_union.2 (.inr hid))]
  · rw [add_of_not_mem hid]
    exact foldl_add_append other.ids [id] list

/-- Uniting with a list to which ids were added is uniting first and adding them then. -/
lemma union_foldl_add (list other : PostingList) (ids : List DocId) :
    list.union (ids.foldl add other) = ids.foldl add (list.union other) := by
  induction ids generalizing other with
  | nil => rfl
  | cons id ids ih => rw [List.foldl_cons, ih, union_add, List.foldl_cons]

/-- Adding ids that are all on a list changes nothing. -/
lemma foldl_add_of_subset {list : PostingList} {ids : List DocId} (h : ids ⊆ list.ids) :
    ids.foldl add list = list := by
  induction ids with
  | nil => rfl
  | cons id ids ih =>
    rw [List.foldl_cons, add_of_mem (h List.mem_cons_self),
      ih fun other hother => h (List.mem_cons_of_mem _ hother)]

/-- Ids may be freed from repetitions before they are added. -/
lemma foldl_add_ofList (list : PostingList) (ids : List DocId) :
    (ofList ids).ids.foldl add list = ids.foldl add list := union_foldl_add list empty ids

/-- Leaving out repeated ids in what is appended changes nothing in the outcome. -/
lemma ofList_append_ofList (ids ids' : List DocId) :
    ofList (ids ++ (ofList ids').ids) = ofList (ids ++ ids') := by
  rw [ofList, foldl_add_append, foldl_add_ofList, ← foldl_add_append]
  rfl

/-- A list made of ids has just those. -/
lemma mem_ofList {ids : List DocId} {id : DocId} : id ∈ (ofList ids).ids ↔ id ∈ ids :=
  mem_foldl_add.trans (or_iff_right List.not_mem_nil)

/-- The ids of a list stand in the order in which they first came.

**Proof sketch.** Induction on the ids from behind: the last one is in the list already, or it comes
behind all others, as it does among the ids. -/
lemma pairwise_ofList (ids : List DocId) :
    (ofList ids).ids.Pairwise fun id other => ids.idxOf id < ids.idxOf other := by
  induction ids using List.reverseRecOn with
  | nil => exact List.Pairwise.nil
  | append_singleton ids last ih =>
    have hlist : ofList (ids ++ [last]) = (ofList ids).add last := foldl_add_append ids [last] empty
    have hbefore : (ofList ids).ids.Pairwise fun id other =>
        (ids ++ [last]).idxOf id < (ids ++ [last]).idxOf other := by
      refine ih.imp_of_mem fun hid hother hlt => ?_
      rwa [List.idxOf_append_of_mem (mem_ofList.1 hid),
        List.idxOf_append_of_mem (mem_ofList.1 hother)]
    rw [hlist]
    by_cases hlast : last ∈ ids
    · rwa [add_of_mem (mem_ofList.2 hlast)]
    · rw [add_of_not_mem fun h => hlast (mem_ofList.1 h)]
      refine List.pairwise_append.2 ⟨hbefore, List.pairwise_singleton _ _, fun id hid other h => ?_⟩
      obtain rfl := List.mem_singleton.1 h
      rw [List.idxOf_append_of_mem (mem_ofList.1 hid), List.idxOf_append_of_notMem hlast]
      exact Nat.lt_add_right _ (List.idxOf_lt_length_of_mem (mem_ofList.1 hid))

/-! ## No id twice -/

/-- An id comes at most once after one was added. -/
lemma nodup_add {list : PostingList} (h : list.ids.Nodup) (id : DocId) :
    (list.add id).ids.Nodup := by
  by_cases hid : id ∈ list.ids
  · rwa [add_of_mem hid]
  · rw [add_of_not_mem hid]
    exact List.nodup_append.2 ⟨h, List.pairwise_singleton _ _, fun other hother id' hid' heq =>
      hid (List.mem_singleton.1 hid' ▸ heq ▸ hother)⟩

/-- An id comes at most once after several were added. -/
lemma nodup_foldl_add {list : PostingList} (h : list.ids.Nodup) (ids : List DocId) :
    (ids.foldl add list).ids.Nodup :=
  List.foldlRecOn (motive := fun list : PostingList => list.ids.Nodup) ids add h
    fun _ hlist id _ => nodup_add hlist id

/-- Ids that come without repetition are added behind the others, as far as they are new. -/
lemma ids_foldl_add {ids : List DocId} (h : ids.Nodup) (list : PostingList) :
    (ids.foldl add list).ids = list.ids ++ ids.filter (· ∉ list.ids) := by
  induction ids generalizing list with
  | nil => simp
  | cons id ids ih =>
    obtain ⟨hnot, hids⟩ := List.nodup_cons.1 h
    rw [List.foldl_cons, ih hids]
    by_cases hid : id ∈ list.ids
    · rw [add_of_mem hid, List.filter_cons_of_neg (by simpa using hid)]
    · have hsame : ids.filter (· ∉ list.ids ++ [id]) = ids.filter (· ∉ list.ids) := by
        refine List.filter_congr fun other hother => ?_
        have hne : other ≠ id := fun heq => hnot (heq ▸ hother)
        simp [hne]
      rw [add_of_not_mem hid, hsame, List.filter_cons_of_pos (by simpa using hid),
        List.append_assoc, List.singleton_append]

/-- Ids that come in without repetition are all added. -/
lemma foldl_add_eq {ids : List DocId} {list : PostingList} (h : (list.ids ++ ids).Nodup) :
    ids.foldl add list = ⟨list.ids ++ ids⟩ := by
  obtain ⟨-, hids, hdisjoint⟩ := List.nodup_append.1 h
  have hnew : ids.filter (· ∉ list.ids) = ids := List.filter_eq_self.2 fun id hid => by
    simpa using fun hmem => hdisjoint id hmem id hid rfl
  have hlist := ids_foldl_add hids list
  rw [hnew] at hlist
  exact congrArg PostingList.mk hlist

/-- The ids of an intersection are those of the first list, in its order, that are on the other one.
-/
lemma ids_intersect (list other : PostingList) :
    (list.intersect other).ids = list.ids.filter (· ∈ other.ids) :=
  List.filter_congr fun _ _ => Bool.eq_iff_iff.2 (contains_iff.trans decide_eq_true_iff.symm)

/-- The lists that come from texts, from any ids, and from changes of such lists. -/
inductive Built : PostingList → Prop
  | decode (text : String) : Built (decode text)
  | ofList (ids : List DocId) : Built (ofList ids)
  | add {list : PostingList} (h : Built list) (id : DocId) : Built (list.add id)
  | remove {list : PostingList} (h : Built list) (id : DocId) : Built (list.remove id)
  | union {list other : PostingList} (h : Built list) (hother : Built other) :
    Built (list.union other)
  | intersect {list other : PostingList} (h : Built list) (hother : Built other) :
    Built (list.intersect other)

/-- However a list has been built, no id is in it twice. -/
theorem Built.nodup {list : PostingList} (h : list.Built) : list.ids.Nodup := by
  induction h with
  | decode text => exact nodup_foldl_add List.nodup_nil _
  | ofList ids => exact nodup_foldl_add List.nodup_nil ids
  | add _ id ih => exact nodup_add ih id
  | remove _ id ih => exact ih.filter _
  | union _ _ ih _ => exact nodup_foldl_add ih _
  | intersect _ _ ih _ => exact ih.filter _

/-! ## Plain lists -/

/-- A list of plain ids, none of them twice. -/
structure IsPlain (list : PostingList) : Prop where
  ids : ∀ id ∈ list.ids, id.IsPlain
  nodup : list.ids.Nodup

/-- An empty list can be written. -/
lemma isPlain_empty : empty.IsPlain := ⟨by simp [empty], List.nodup_nil⟩

/-- A list that can be written still can be after such an id was added. -/
lemma IsPlain.add {list : PostingList} (h : list.IsPlain) {id : DocId} (hid : id.IsPlain) :
    (list.add id).IsPlain := by
  refine ⟨fun other hother => ?_, nodup_add h.nodup id⟩
  rcases mem_add.1 hother with rfl | hother
  · exact hid
  · exact h.ids other hother

/-- So it can after an id was removed. -/
lemma IsPlain.remove {list : PostingList} (h : list.IsPlain) (id : DocId) :
    (list.remove id).IsPlain :=
  ⟨fun other hother => h.ids other (mem_remove.1 hother).1, h.nodup.filter _⟩

/-- Adding plain ids one by one keeps a list plain. -/
lemma IsPlain.foldl_add {list : PostingList} (h : list.IsPlain) {ids : List DocId}
    (hids : ∀ id ∈ ids, id.IsPlain) : (ids.foldl PostingList.add list).IsPlain :=
  ⟨fun id hid => (mem_foldl_add.1 hid).elim (h.ids id) (hids id), nodup_foldl_add h.nodup ids⟩

/-- The union of lists that can be written is such a list. -/
lemma IsPlain.union {list other : PostingList} (h : list.IsPlain) (hother : other.IsPlain) :
    (list.union other).IsPlain := h.foldl_add hother.ids

/-! ## The written form -/

/-- A piece without separators is cut off at the separator behind it. -/
lemma split_append {piece : List Char} (h : DocId.separator ∉ piece) (rest : List Char) :
    split (piece ++ DocId.separator :: rest) = piece :: split rest := by
  induction piece with
  | nil => simp [split]
  | cons c piece ih =>
    rw [List.mem_cons, not_or] at h
    rw [List.cons_append, split, if_neg (Ne.symm h.1), ih h.2]

/-- A text without separators is one piece. -/
lemma split_eq_singleton {piece : List Char} (h : DocId.separator ∉ piece) :
    split piece = [piece] := by
  induction piece with
  | nil => rfl
  | cons c piece ih =>
    rw [List.mem_cons, not_or] at h
    rw [split, if_neg (Ne.symm h.1), ih h.2]

/-- Pieces joined by separators are cut apart again. -/
lemma split_join {pieces : List (List Char)} (hne : pieces ≠ [])
    (h : ∀ piece ∈ pieces, DocId.separator ∉ piece) : split (join pieces) = pieces := by
  induction pieces with
  | nil => exact absurd rfl hne
  | cons piece pieces ih =>
    have hpiece := h piece List.mem_cons_self
    cases pieces with
    | nil => exact split_eq_singleton hpiece
    | cons next rest =>
      rw [join, split_append hpiece,
        ih (List.cons_ne_nil _ _) fun p hp => h p (List.mem_cons_of_mem _ hp)]

/-- No piece holds a separator.

**Proof sketch.** Induction on the text: a character is added to the first piece only if it is no
separator. -/
lemma separator_not_mem_of_mem_split {text piece : List Char} (h : piece ∈ split text) :
    DocId.separator ∉ piece := by
  induction text generalizing piece with
  | nil =>
    rw [split, List.mem_singleton] at h
    rw [h]
    exact List.not_mem_nil
  | cons c text ih =>
    rw [split] at h
    split at h
    · rcases List.mem_cons.1 h with rfl | h
      · exact List.not_mem_nil
      · exact ih h
    · next hc =>
      split at h
      · rw [List.mem_singleton] at h
        rw [h, List.mem_singleton]
        exact Ne.symm hc
      · next first pieces hsplit =>
        rcases List.mem_cons.1 h with rfl | h
        · rw [List.mem_cons, not_or]
          exact ⟨Ne.symm hc, ih (by rw [hsplit]; exact List.mem_cons_self)⟩
        · exact ih (by rw [hsplit]; exact List.mem_cons_of_mem _ h)

/-- The pieces of a written plain list that is not empty are its ids. -/
lemma split_encode {list : PostingList} (h : list.IsPlain) (hne : list ≠ empty) :
    split list.encode.toList = list.ids.map fun id => id.text.toList := by
  obtain ⟨ids⟩ := list
  have hids : ids ≠ [] := fun hnil => hne (by rw [hnil]; rfl)
  rw [encode, String.toList_ofList]
  refine split_join (by simpa using hids) fun piece hpiece => ?_
  obtain ⟨id, hid, rfl⟩ := List.mem_map.1 hpiece
  exact (h.ids id hid).2

/-- Plain lists are read back. -/
theorem decode_encode {list : PostingList} (h : list.IsPlain) : decode list.encode = list := by
  by_cases hempty : list = empty
  · rw [hempty]
    decide
  · have hids : ((split list.encode.toList).filter (· ≠ [])).map
        (fun piece => (⟨String.ofList piece⟩ : DocId)) = list.ids := by
      rw [split_encode h hempty, List.filter_eq_self.2]
      · simp [Function.comp_def]
      · intro piece hpiece
        obtain ⟨id, hid, rfl⟩ := List.mem_map.1 hpiece
        simpa using (h.ids id hid).1
    rw [decode, hids, ofList, foldl_add_eq (by simpa [empty] using h.nodup)]
    simp [empty]

/-- Only plain lists are read. -/
theorem isPlain_decode (text : String) : (decode text).IsPlain := by
  refine isPlain_empty.foldl_add fun id hid => ?_
  obtain ⟨piece, hpiece, rfl⟩ := List.mem_map.1 hid
  obtain ⟨hsplit, hne⟩ := List.mem_filter.1 hpiece
  refine ⟨by simpa using hne, ?_⟩
  rw [String.toList_ofList]
  exact separator_not_mem_of_mem_split hsplit

end PostingList

end Concordance
