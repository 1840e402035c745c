import Concordance.OrderedMap
import Mathlib.Data.List.Nodup
import Mathlib.Data.List.Sort
import Mathlib.Tactic.Common

set_option relaxedAutoImplicit false
set_option autoImplicit false

/-!
# Ordered maps and their entries

## Main results

* `Concordance.OrderedMap.ofList_entries` — a map is the map of its entries.
* `Concordance.OrderedMap.get?_eq_some_iff` — look-up finds exactly the entries.
* `Concordance.OrderedMap.ext_get?` — a map is determined by its look-ups.
* `Concordance.OrderedMap.get?_ofList` — the entries of the map of a list.
-/

namespace Concordance.OrderedMap

variable {κ α : Type} [Ord κ]

/-- Nothing is stored in an empty map. -/
@[simp] lemma get?_empty (k : κ) : (∅ : OrderedMap κ α).get? k = none := rfl

/-- Looking up a key in a map with all values changed. -/
lemma get?_map {β : Type} (f : κ → α → β) (m : OrderedMap κ α) (k : κ) [Std.LawfulEqOrd κ] :
    (m.map f).get? k = (m.get? k).map (f k) := by
  obtain ⟨entries, increasing⟩ := m
  change find? k (entries.map fun e => (e.1, f e.1 e.2)) = (find? k entries).map (f k)
  clear increasing
  induction entries with
  | nil => rfl
  | cons head rest ih =>
    obtain ⟨k', a⟩ := head
    simp only [List.map_cons, find?]
    split
    · next h => rw [Std.compare_eq_iff_eq.1 h, Option.map_some]
    · exact ih

section

variable [Std.TransOrd κ]

omit [Std.TransOrd κ] in
/-- An entry behind all others is placed at the end. -/
lemma place_eq_append (k : κ) (a : α) {l : List (κ × α)}
    (h : ∀ e ∈ l, compare k e.1 = .gt) : place k a l = l ++ [(k, a)] := by
  induction l with
  | nil => rfl
  | cons head rest ih =>
    obtain ⟨k', b⟩ := head
    have hhead : compare k k' = .gt := h (k', b) List.mem_cons_self
    simp only [place, hhead]
    rw [ih fun e he => h e (List.mem_cons_of_mem _ he), List.cons_append]

/-- Entries that come in order are placed one behind the other. -/
lemma entries_foldl_insert (m : OrderedMap κ α) (l : List (κ × α))
    (h : (m.entries ++ l).Pairwise fun a b => compare a.1 b.1 = .lt) :
    (l.foldl (fun m e => m.insert e.1 e.2) m).entries = m.entries ++ l := by
  induction l generalizing m with
  | nil => simp
  | cons e l ih =>
    have hplace : (m.insert e.1 e.2).entries = m.entries ++ [e] := by
      refine place_eq_append e.1 e.2 fun e' he' => ?_
      have hlt := (List.pairwise_append.1 h).2.2 e' he' e List.mem_cons_self
      exact Std.OrientedCmp.gt_iff_lt.2 hlt
    rw [List.foldl_cons, ih, hplace, List.append_assoc, List.singleton_append]
    rw [hplace, List.append_assoc, List.singleton_append]
    exact h

/-- A map is the map of its entries. -/
theorem ofList_entries (m : OrderedMap κ α) : ofList m.entries = m :=
  OrderedMap.ext (entries_foldl_insert empty m.entries m.increasing)

end

section

variable [Std.TransOrd κ] [Std.LawfulEqOrd κ]

omit [Std.TransOrd κ] in
/-- What look-up finds is an entry. -/
lemma mem_of_find?_eq_some {k : κ} {a : α} {l : List (κ × α)} (h : find? k l = some a) :
    (k, a) ∈ l := by
  induction l with
  | nil => cases h
  | cons head rest ih =>
    obtain ⟨k', b⟩ := head
    simp only [find?] at h
    split at h
    · next heq =>
      cases h
      rw [Std.compare_eq_iff_eq.1 heq]
      exact List.mem_cons_self
    · exact List.mem_cons_of_mem _ (ih h)

omit [Std.TransOrd κ] in
/-- Look-up finds exactly the entries.

**Proof sketch.** Induction on the entries: a key further down is above that of the head, so a
look-up does not stop at the head. -/
theorem get?_eq_some_iff {m : OrderedMap κ α} {k : κ} {a : α} :
    m.get? k = some a ↔ (k, a) ∈ m.entries := by
  refine ⟨mem_of_find?_eq_some, fun h => ?_⟩
  obtain ⟨l, hl⟩ := m
  unfold get?
  simp only at h ⊢
  induction l with
  | nil => cases h
  | cons head rest ih =>
    obtain ⟨k', b⟩ := head
    have hrest := List.pairwise_cons.1 hl
    simp only [find?]
    rcases List.mem_cons.1 h with h | h
    · cases h
      rw [if_pos Std.ReflCmp.compare_self]
    · have hlt : compare k' k = .lt := hrest.1 (k, a) h
      have hne : compare k k' ≠ .eq := by
        intro heq
        obtain rfl := Std.compare_eq_iff_eq.1 heq
        simp [Std.ReflCmp.compare_self] at hlt
      rw [if_neg hne]
      exact ih hrest.2 h

/-- A map is determined by its look-ups. -/
theorem ext_get? {m n : OrderedMap κ α} (h : ∀ k, m.get? k = n.get? k) : m = n := by
  have hmem : ∀ e, e ∈ m.entries ↔ e ∈ n.entries := fun ⟨k, a⟩ => by
    rw [← get?_eq_some_iff, ← get?_eq_some_iff, h]
  have : Std.Irrefl fun a b : κ × α => compare a.1 b.1 = .lt :=
    ⟨fun a hlt => by simp [Std.ReflCmp.compare_self] at hlt⟩
  have : Std.Antisymm fun a b : κ × α => compare a.1 b.1 = .lt :=
    ⟨fun a b hab hba => absurd (Std.TransCmp.lt_trans hab hba) (by simp [Std.ReflCmp.compare_self])⟩
  exact OrderedMap.ext (m.increasing.eq_of_mem_iff n.increasing fun {e} => hmem e)

/-! ## Keys -/

omit [Std.TransOrd κ] in
/-- A key is looked up successfully iff it is among the keys. -/
lemma contains_iff_mem_keys {m : OrderedMap κ α} {k : κ} :
    m.contains k = true ↔ k ∈ m.keys := by
  unfold contains keys
  rw [Option.isSome_iff_exists]
  simp only [get?_eq_some_iff, List.mem_map, Prod.exists, exists_and_right, exists_eq_right]

/-- Inserting a value does not touch what is found under other keys. -/
lemma get?_insert_of_ne {m : OrderedMap κ α} {k k' : κ} {a : α} (h : k' ≠ k) :
    (m.insert k a).get? k' = m.get? k' := by
  rw [get?_insert, if_neg fun heq => h (Std.compare_eq_iff_eq.1 heq)]

/-- A value that has been inserted is found. -/
lemma get?_insert_self {m : OrderedMap κ α} {k : κ} {a : α} :
    (m.insert k a).get? k = some a := by
  rw [get?_insert, if_pos (Std.compare_eq_iff_eq.2 rfl)]

/-- Inserting a value that is there already changes nothing. -/
lemma insert_of_get?_eq_some {m : OrderedMap κ α} {k : κ} {a : α} (h : m.get? k = some a) :
    m.insert k a = m := by
  refine ext_get? fun k' => ?_
  by_cases heq : k' = k
  · rw [heq, get?_insert_self, h]
  · exact get?_insert_of_ne heq

omit [Std.TransOrd κ] in
/-- Erasing a key does not touch what is found under other keys. -/
lemma get?_erase_of_ne {m : OrderedMap κ α} {k k' : κ} (h : k' ≠ k) :
    (m.erase k).get? k' = m.get? k' := by
  rw [get?_erase, if_neg fun heq => h (Std.compare_eq_iff_eq.1 heq)]

omit [Std.TransOrd κ] in
/-- A key that has been erased is not found. -/
lemma get?_erase_self {m : OrderedMap κ α} {k : κ} : (m.erase k).get? k = none := by
  rw [get?_erase, if_pos (Std.compare_eq_iff_eq.2 rfl)]

/-- The keys of a map into which a value has been inserted. -/
lemma contains_insert {m : OrderedMap κ α} {k k' : κ} {a : α} :
    (m.insert k a).contains k' = true ↔ k' = k ∨ m.contains k' = true := by
  by_cases heq : k' = k
  · simp [contains, heq, get?_insert_self]
  · simp [contains, heq, get?_insert_of_ne heq]

omit [Std.TransOrd κ] in
/-- The keys of a map from which one has been erased. -/
lemma contains_erase {m : OrderedMap κ α} {k k' : κ} :
    (m.erase k).contains k' = true ↔ k' ≠ k ∧ m.contains k' = true := by
  by_cases heq : k' = k
  · simp [contains, heq, get?_erase_self]
  · simp [contains, heq, get?_erase_of_ne heq]

omit [Std.TransOrd κ] in
/-- The keys of a map are different from each other. -/
lemma nodup_keys (m : OrderedMap κ α) : m.keys.Nodup := by
  refine List.pairwise_map.2 (m.increasing.imp fun {a b} hlt heq => ?_)
  rw [heq, Std.compare_eq_iff_eq.2 rfl] at hlt
  cases hlt

/-- Inserting a new key adds it to the keys. -/
lemma keys_insert_perm {m : OrderedMap κ α} {k : κ} (a : α) (h : m.contains k = false) :
    (m.insert k a).keys.Perm (k :: m.keys) := by
  have hnot : k ∉ m.keys := fun hmem => by
    rw [contains_iff_mem_keys.2 hmem] at h
    cases h
  refine (List.perm_ext_iff_of_nodup (nodup_keys _) (List.nodup_cons.2 ⟨hnot, nodup_keys m⟩)).2
    fun k' => ?_
  rw [← contains_iff_mem_keys, contains_insert, List.mem_cons, contains_iff_mem_keys]

omit [Std.TransOrd κ] in
/-- Erasing a key takes it from the keys. -/
lemma keys_erase_perm {m : OrderedMap κ α} {k : κ} (h : m.contains k = true) :
    m.keys.Perm (k :: (m.erase k).keys) := by
  have hnot : k ∉ (m.erase k).keys := fun hmem =>
    (contains_erase.1 (contains_iff_mem_keys.2 hmem)).1 rfl
  refine (List.perm_ext_iff_of_nodup (nodup_keys m) (List.nodup_cons.2 ⟨hnot, nodup_keys _⟩)).2
    fun k' => ?_
  rw [List.mem_cons, ← contains_iff_mem_keys, ← contains_iff_mem_keys, contains_erase]
  constructor
  · intro hk'
    by_cases heq : k' = k
    · exact .inl heq
    · exact .inr ⟨heq, hk'⟩
  · rintro (rfl | ⟨-, hk'⟩)
    · exact h
    · exact hk'

/-! ## Maps of lists -/

/-- Looking up a key behind entries with different keys. -/
lemma get?_foldl_insert {l : List (κ × α)} (h : (l.map Prod.fst).Nodup) (m : OrderedMap κ α)
    {k : κ} {a : α} : (l.foldl (fun m e => m.insert e.1 e.2) m).get? k = some a ↔
      (k, a) ∈ l ∨ k ∉ l.map Prod.fst ∧ m.get? k = some a := by
  induction l generalizing m with
  | nil => simp
  | cons head rest ih =>
    obtain ⟨k', b⟩ := head
    obtain ⟨hhead, hrest⟩ := List.nodup_cons.1 h
    rw [List.foldl_cons, ih hrest, List.map_cons, List.mem_cons, List.mem_cons, Prod.mk.injEq]
    by_cases heq : k = k'
    · subst heq
      have hnot : (k, a) ∉ rest := fun hmem => hhead (List.mem_map.2 ⟨(k, a), hmem, rfl⟩)
      simp [hnot, hhead, get?_insert_self, eq_comm]
    · simp [heq, get?_insert_of_ne heq]

/-- The map of entries with different keys has exactly these entries. -/
theorem get?_ofList {l : List (κ × α)} (h : (l.map Prod.fst).Nodup) {k : κ} {a : α} :
    (ofList l).get? k = some a ↔ (k, a) ∈ l := by
  rw [ofList, get?_foldl_insert h]
  change _ ∨ _ ∧ none = some a ↔ _
  simp

omit [Std.TransOrd κ] [Std.LawfulEqOrd κ] in
/-- An empty map has no keys. -/
lemma contains_of_isEmpty {m : OrderedMap κ α} (h : m.isEmpty = true) (k : κ) :
    m.contains k = false := by
  obtain ⟨entries, increasing⟩ := m
  obtain rfl : entries = [] := by simpa [isEmpty] using h
  rfl

omit [Std.TransOrd κ] in
/-- A map without keys is empty. -/
lemma isEmpty_of_contains {m : OrderedMap κ α} (h : ∀ k, m.contains k = false) :
    m.isEmpty = true := by
  obtain ⟨_ | ⟨⟨k, a⟩, entries⟩, increasing⟩ := m
  · rfl
  · have hmem : k ∈ keys ⟨(k, a) :: entries, increasing⟩ := List.mem_cons_self
    rw [← contains_iff_mem_keys, h] at hmem
    cases hmem

/-! ## Sets -/

/-- The members of a set with one more member. -/
lemma mem_keys_add {set : OrderedSet κ} {k k' : κ} :
    k' ∈ (set.add k).keys ↔ k' = k ∨ k' ∈ set.keys := by
  rw [← contains_iff_mem_keys, ← contains_iff_mem_keys]
  exact contains_insert

/-- The members of a set with more members. -/
lemma mem_keys_foldl_add {set : OrderedSet κ} {ks : List κ} {k : κ} :
    k ∈ (ks.foldl OrderedSet.add set).keys ↔ k ∈ ks ∨ k ∈ set.keys := by
  induction ks generalizing set with
  | nil => simp
  | cons first ks ih =>
    rw [List.foldl_cons, ih, mem_keys_add, List.mem_cons, or_left_comm, or_assoc]

end

end Concordance.OrderedMap
