set_option relaxedAutoImplicit false
set_option autoImplicit false

/-!
# Ordered maps

Finite maps kept as lists of entries in strictly increasing order of their keys. Two maps with
the same entries are equal, and going through a map means going through its keys in order, which
is the order that answers show.

## Main definitions

* `Concordance.OrderedMap` — a finite map.
* `Concordance.OrderedMap.get?`, `insert`, `erase` — look-up and change of one key.
* `Concordance.OrderedSet` — a finite set, as a map to nothing.

## Main results

* `Concordance.OrderedMap.get?_insert`, `get?_erase` — what a change does to a look-up.
-/

namespace Concordance

/-- A finite map as its entries in increasing order of their keys. -/
structure OrderedMap (κ α : Type) [Ord κ] where
  entries : List (κ × α)
  increasing : entries.Pairwise fun a b => compare a.1 b.1 = .lt

namespace OrderedMap

variable {κ α β : Type} [Ord κ]

/-- Two maps with the same entries are equal. -/
@[ext] theorem ext {m n : OrderedMap κ α} (h : m.entries = n.entries) : m = n := by
  cases m; cases n; cases h; rfl

/-- The map without entries. -/
def empty : OrderedMap κ α := ⟨[], List.Pairwise.nil⟩

instance : EmptyCollection (OrderedMap κ α) := ⟨empty⟩
instance : Inhabited (OrderedMap κ α) := ⟨empty⟩

/-- The value of the key `k` in a list of entries. -/
def find? (k : κ) : List (κ × α) → Option α
  | [] => none
  | (k', a) :: rest => if compare k k' = .eq then some a else find? k rest

/-- The value of the key `k`. -/
def get? (m : OrderedMap κ α) (k : κ) : Option α := find? k m.entries

/-- Whether the key `k` has a value. -/
def contains (m : OrderedMap κ α) (k : κ) : Bool := (m.get? k).isSome

/-- The keys, in order. -/
def keys (m : OrderedMap κ α) : List κ := m.entries.map Prod.fst

/-- The values, in the order of their keys. -/
def values (m : OrderedMap κ α) : List α := m.entries.map Prod.snd

/-- The number of entries. -/
def size (m : OrderedMap κ α) : Nat := m.entries.length

/-- Whether there are no entries. -/
def isEmpty (m : OrderedMap κ α) : Bool := m.entries.isEmpty

/-- Puts an entry at its place in a list of entries, over one with the same key. -/
def place (k : κ) (a : α) : List (κ × α) → List (κ × α)
  | [] => [(k, a)]
  | (k', b) :: rest =>
    match compare k k' with
    | .lt => (k, a) :: (k', b) :: rest
    | .eq => (k', a) :: rest
    | .gt => (k', b) :: place k a rest

/-- Takes the entry of a key out of a list of entries. -/
def drop (k : κ) : List (κ × α) → List (κ × α)
  | [] => []
  | (k', b) :: rest => if compare k k' = .eq then rest else (k', b) :: drop k rest

/-- Placing an entry adds no other key.

**Proof sketch.** Induction on the list, by how the key compares with that of the head: the entry
comes in front of the head, in its place, or further on. -/
theorem mem_place {k : κ} {a : α} {e : κ × α} {l : List (κ × α)} (h : e ∈ place k a l) :
    e.1 = k ∨ ∃ e' ∈ l, e.1 = e'.1 := by
  induction l with
  | nil => simp [place] at h; exact .inl (by rw [h])
  | cons head rest ih =>
    obtain ⟨k', b⟩ := head
    simp only [place] at h
    split at h
    · rcases List.mem_cons.1 h with h | h
      · exact .inl (by rw [h])
      · exact .inr ⟨e, h, rfl⟩
    · rcases List.mem_cons.1 h with h | h
      · exact .inr ⟨(k', b), List.mem_cons_self, by rw [h]⟩
      · exact .inr ⟨e, List.mem_cons_of_mem _ h, rfl⟩
    · rcases List.mem_cons.1 h with h | h
      · exact .inr ⟨(k', b), List.mem_cons_self, by rw [h]⟩
      · rcases ih h with h | ⟨e', he', h⟩
        · exact .inl h
        · exact .inr ⟨e', List.mem_cons_of_mem _ he', h⟩

/-- Taking an entry out leaves a sublist. -/
theorem drop_sublist (k : κ) (l : List (κ × α)) : (drop k l).Sublist l := by
  induction l with
  | nil => exact .slnil
  | cons head rest ih =>
    obtain ⟨k', b⟩ := head
    simp only [drop]
    split
    · exact .cons _ (List.Sublist.refl rest)
    · exact ih.cons_cons _

variable [Std.TransOrd κ]

/-- Placing an entry keeps the keys in order.

**Proof sketch.** Induction on the list. In front of the head the entry is below the head and so
below the rest; in place of the head it has the head's key; and behind the head it is above it, as
all that is placed further on is. -/
theorem place_increasing (k : κ) (a : α) {l : List (κ × α)}
    (h : l.Pairwise fun a b => compare a.1 b.1 = .lt) :
    (place k a l).Pairwise fun a b => compare a.1 b.1 = .lt := by
  induction l with
  | nil => simp [place]
  | cons head rest ih =>
    obtain ⟨k', b⟩ := head
    have hrest := List.pairwise_cons.1 h
    simp only [place]
    split
    · next hlt =>
      refine List.pairwise_cons.2 ⟨fun e he => ?_, h⟩
      rcases List.mem_cons.1 he with rfl | he
      · exact hlt
      · exact Std.TransCmp.lt_trans hlt (hrest.1 e he)
    · exact List.pairwise_cons.2 ⟨fun e he => hrest.1 e he, hrest.2⟩
    · next hgt =>
      refine List.pairwise_cons.2 ⟨fun e he => ?_, ih hrest.2⟩
      rcases mem_place he with h | ⟨e', he', h⟩
      · simpa [h] using Std.OrientedCmp.gt_iff_lt.1 hgt
      · simpa [h] using hrest.1 e' he'

/-- The map with `a` as the value of `k`. -/
def insert (m : OrderedMap κ α) (k : κ) (a : α) : OrderedMap κ α :=
  ⟨place k a m.entries, place_increasing k a m.increasing⟩

/-- The map without the key `k`. -/
def erase (m : OrderedMap κ α) (k : κ) : OrderedMap κ α :=
  ⟨drop k m.entries, m.increasing.sublist (drop_sublist k m.entries)⟩

/-- The map of a list of entries, later ones over earlier ones with the same key. -/
def ofList (entries : List (κ × α)) : OrderedMap κ α :=
  entries.foldl (fun m e => m.insert e.1 e.2) empty

/-- The map with every value changed. -/
def map (f : κ → α → β) (m : OrderedMap κ α) : OrderedMap κ β :=
  ⟨m.entries.map fun e => (e.1, f e.1 e.2), by
    rw [List.pairwise_map]; exact m.increasing⟩

omit [Std.TransOrd κ] in
/-- A key that comes before all others is not among them. -/
theorem find?_eq_none_of_lt {k : κ} {l : List (κ × α)}
    (h : ∀ e ∈ l, compare k e.1 = .lt) : find? k l = none := by
  induction l with
  | nil => rfl
  | cons head rest ih =>
    obtain ⟨k', b⟩ := head
    have := h (k', b) List.mem_cons_self
    simp only [find?, this]
    exact ih fun e he => h e (List.mem_cons_of_mem _ he)

variable [Std.LawfulEqOrd κ]

omit [Std.TransOrd κ] in
/-- What placing an entry does to a look-up.

**Proof sketch.** Induction on the list, by how the key compares with that of the head. If the entry
goes further on, its key is not the head's, so a look-up that stops at the head does not find it. -/
theorem find?_place (k k' : κ) (a : α) (l : List (κ × α)) :
    find? k' (place k a l) = if compare k' k = .eq then some a else find? k' l := by
  induction l with
  | nil => simp [place, find?]
  | cons head rest ih =>
    obtain ⟨k'', b⟩ := head
    simp only [place]
    split
    · next hlt => simp [find?]
    · next heq =>
      have : k = k'' := Std.compare_eq_iff_eq.1 heq
      subst this
      simp only [find?]
      split <;> rfl
    · next hgt =>
      have hne : k ≠ k'' := by
        intro h; subst h; simp [Std.ReflCmp.compare_self] at hgt
      simp only [find?, ih]
      split
      · next h =>
        have : k' = k'' := Std.compare_eq_iff_eq.1 h
        subst this
        rw [if_neg]
        intro h'
        exact hne (Std.compare_eq_iff_eq.1 h').symm
      · rfl

omit [Std.TransOrd κ] in
/-- What taking an entry out does to a look-up.

**Proof sketch.** Induction on the list, by how the key compares with that of the head. If the head
is taken out, the keys of the rest are above its key, so it is not found there. -/
theorem find?_drop (k k' : κ) {l : List (κ × α)}
    (h : l.Pairwise fun a b => compare a.1 b.1 = .lt) :
    find? k' (drop k l) = if compare k' k = .eq then none else find? k' l := by
  induction l with
  | nil => simp [drop, find?]
  | cons head rest ih =>
    obtain ⟨k'', b⟩ := head
    have hrest := List.pairwise_cons.1 h
    simp only [drop]
    split
    · next heq =>
      have : k = k'' := Std.compare_eq_iff_eq.1 heq
      subst this
      simp only [find?]
      split
      · next h' =>
        have : k' = k := Std.compare_eq_iff_eq.1 h'
        subst this
        exact find?_eq_none_of_lt fun e he => hrest.1 e he
      · rfl
    · next hne =>
      simp only [find?, ih hrest.2]
      split
      · next h' =>
        have : k' = k'' := Std.compare_eq_iff_eq.1 h'
        subst this
        rw [if_neg]
        intro h''
        exact hne (by rw [Std.compare_eq_iff_eq.1 h'']; exact Std.ReflCmp.compare_self)
      · rfl

/-- What inserting does to a look-up. -/
theorem get?_insert (m : OrderedMap κ α) (k k' : κ) (a : α) :
    (m.insert k a).get? k' = if compare k' k = .eq then some a else m.get? k' :=
  find?_place k k' a m.entries

omit [Std.TransOrd κ] in
/-- What erasing does to a look-up. -/
theorem get?_erase (m : OrderedMap κ α) (k k' : κ) :
    (m.erase k).get? k' = if compare k' k = .eq then none else m.get? k' :=
  find?_drop k k' m.increasing

end OrderedMap

/-- A finite set in increasing order. -/
abbrev OrderedSet (κ : Type) [Ord κ] := OrderedMap κ Unit

namespace OrderedSet

variable {κ : Type} [Ord κ] [Std.TransOrd κ]

/-- The set with `k` as a member. -/
def add (s : OrderedSet κ) (k : κ) : OrderedSet κ := s.insert k ()

/-- The set of the members of a list. -/
def ofList (ks : List κ) : OrderedSet κ := ks.foldl add OrderedMap.empty

end OrderedSet

end Concordance
