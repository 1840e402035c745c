import Mathlib.Order.MinMax
import Mathlib.Tactic.Common

set_option relaxedAutoImplicit false
set_option autoImplicit false

/-!
# Levenshtein distance

The Levenshtein distance of two words by recursion on their first letters, and by the edits that
turn one word into the other. Edits can be read from the end, turned around, and taken apart where a
word is, so distances can be computed from the last letters too.

## Main definitions

* `Concordance.levenshtein` — the distance of two words.
* `Concordance.Edits` — one word becomes another by a number of edits.

## Main results

* `Concordance.levenshtein_le_iff` — the distance is the least number of edits.
* `Concordance.levenshtein_concat_concat` — the distance by the last letters.
* `Concordance.exists_isPrefix_levenshtein_le` — a beginning of a word is as near to some beginning
  of the other word as the whole word is to the other one.
-/

namespace Concordance

variable {α β : Type}

/-- The least number of insertions, deletions and replacements of single letters that turn one word
into another. -/
def levenshtein [DecidableEq α] : List α → List α → Nat
  | [], ys => ys.length
  | x :: xs, [] => xs.length + 1
  | x :: xs, y :: ys =>
    min (min (levenshtein xs (y :: ys) + 1) (levenshtein (x :: xs) ys + 1))
      (levenshtein xs ys + if x = y then 0 else 1)
  termination_by xs ys => xs.length + ys.length

/-- One word becomes another by a number of edits. -/
inductive Edits : List α → List α → Nat → Prop
  | done : Edits [] [] 0
  | delete {xs ys : List α} {n : Nat} (x : α) (h : Edits xs ys n) : Edits (x :: xs) ys (n + 1)
  | insert {xs ys : List α} {n : Nat} (y : α) (h : Edits xs ys n) : Edits xs (y :: ys) (n + 1)
  | keep {xs ys : List α} {n : Nat} (x : α) (h : Edits xs ys n) : Edits (x :: xs) (x :: ys) n
  | replace {xs ys : List α} {n : Nat} (x y : α) (h : Edits xs ys n) :
    Edits (x :: xs) (y :: ys) (n + 1)

variable {xs ys xs' ys' : List α} {n m : Nat}

/-! ## Edits -/

namespace Edits

/-- All letters of a word are inserted. -/
lemma insertAll (ys : List α) : Edits [] ys ys.length := by
  induction ys with
  | nil => exact .done
  | cons y ys ih => exact .insert y ih

/-- All letters of a word are deleted. -/
lemma deleteAll (xs : List α) : Edits xs [] xs.length := by
  induction xs with
  | nil => exact .done
  | cons x xs ih => exact .delete x ih

/-- Edits of two parts are edits of the whole, and their numbers add up. -/
lemma append (h : Edits xs ys n) (h' : Edits xs' ys' m) :
    Edits (xs ++ xs') (ys ++ ys') (n + m) := by
  induction h with
  | done => simpa using h'
  | delete x _ ih =>
    rw [Nat.add_right_comm]
    exact .delete x ih
  | insert y _ ih =>
    rw [Nat.add_right_comm]
    exact .insert y ih
  | keep x _ ih => exact .keep x ih
  | replace x y _ ih =>
    rw [Nat.add_right_comm]
    exact .replace x y ih

/-- Words read from their ends are as near as before. -/
lemma reverse (h : Edits xs ys n) : Edits xs.reverse ys.reverse n := by
  induction h with
  | done => exact .done
  | delete x _ ih =>
    rw [List.reverse_cons]
    simpa using ih.append (.delete x .done)
  | insert y _ ih =>
    rw [List.reverse_cons]
    simpa using ih.append (.insert y .done)
  | keep x _ ih =>
    rw [List.reverse_cons, List.reverse_cons]
    simpa using ih.append (.keep x .done)
  | replace x y _ ih =>
    rw [List.reverse_cons, List.reverse_cons]
    simpa using ih.append (.replace x y .done)

/-- Edits can be taken back, in as many steps. -/
lemma symm (h : Edits xs ys n) : Edits ys xs n := by
  induction h with
  | done => exact .done
  | delete x _ ih => exact .insert x ih
  | insert y _ ih => exact .delete y ih
  | keep x _ ih => exact .keep x ih
  | replace x y _ ih => exact .replace y x ih

/-- Words whose letters are mapped to others become no less near. -/
lemma map (f : α → β) (h : Edits xs ys n) : Edits (xs.map f) (ys.map f) n := by
  induction h with
  | done => exact .done
  | delete x _ ih => exact .delete (f x) ih
  | insert y _ ih => exact .insert (f y) ih
  | keep x _ ih => exact .keep (f x) ih
  | replace x y _ ih => exact .replace (f x) (f y) ih

/-- The edits of a word made of two parts are those of the parts.

**Proof sketch.** Induction on the edits. Those that take a letter of the word take it from the
first part unless that is used up; an insertion goes to the first part. -/
lemma exists_split (h : Edits (xs ++ xs') ys n) : ∃ ys₁ ys₂ n₁ n₂, ys = ys₁ ++ ys₂ ∧
    n = n₁ + n₂ ∧ Edits xs ys₁ n₁ ∧ Edits xs' ys₂ n₂ := by
  generalize hwhole : xs ++ xs' = whole at h
  induction h generalizing xs with
  | done =>
    obtain ⟨rfl, rfl⟩ := List.append_eq_nil_iff.1 hwhole
    exact ⟨[], [], 0, 0, rfl, rfl, .done, .done⟩
  | @delete rest ys n x h ih =>
    cases xs with
    | nil =>
      obtain rfl : xs' = x :: rest := hwhole
      exact ⟨[], ys, 0, n + 1, rfl, (Nat.zero_add _).symm, .done, .delete x h⟩
    | cons x' xs =>
      obtain ⟨rfl, hrest⟩ := List.cons.inj hwhole
      obtain ⟨ys₁, ys₂, n₁, n₂, rfl, rfl, h₁, h₂⟩ := ih hrest
      exact ⟨ys₁, ys₂, n₁ + 1, n₂, rfl, by omega, .delete x' h₁, h₂⟩
  | @insert whole ys n y h ih =>
    obtain ⟨ys₁, ys₂, n₁, n₂, rfl, rfl, h₁, h₂⟩ := ih hwhole
    exact ⟨y :: ys₁, ys₂, n₁ + 1, n₂, rfl, by omega, .insert y h₁, h₂⟩
  | @keep rest ys n x h ih =>
    cases xs with
    | nil =>
      obtain rfl : xs' = x :: rest := hwhole
      exact ⟨[], x :: ys, 0, n, rfl, (Nat.zero_add _).symm, .done, .keep x h⟩
    | cons x' xs =>
      obtain ⟨rfl, hrest⟩ := List.cons.inj hwhole
      obtain ⟨ys₁, ys₂, n₁, n₂, rfl, rfl, h₁, h₂⟩ := ih hrest
      exact ⟨x' :: ys₁, ys₂, n₁, n₂, rfl, rfl, .keep x' h₁, h₂⟩
  | @replace rest ys n x y h ih =>
    cases xs with
    | nil =>
      obtain rfl : xs' = x :: rest := hwhole
      exact ⟨[], y :: ys, 0, n + 1, rfl, (Nat.zero_add _).symm, .done, .replace x y h⟩
    | cons x' xs =>
      obtain ⟨rfl, hrest⟩ := List.cons.inj hwhole
      obtain ⟨ys₁, ys₂, n₁, n₂, rfl, rfl, h₁, h₂⟩ := ih hrest
      exact ⟨y :: ys₁, ys₂, n₁ + 1, n₂, rfl, by omega, .replace x' y h₁, h₂⟩

end Edits

/-! ## Distance -/

section Distance

variable [DecidableEq α] [DecidableEq β]

/-- A word is made of nothing by inserting each of its letters. -/
@[simp] lemma levenshtein_nil_left (ys : List α) : levenshtein [] ys = ys.length := by
  rw [levenshtein]

/-- A word is made to nothing by deleting each of its letters. -/
@[simp] lemma levenshtein_nil_right (xs : List α) : levenshtein xs [] = xs.length := by
  cases xs with
  | nil => rw [levenshtein]
  | cons x xs => rw [levenshtein, List.length_cons]

/-- The distance of two words is one step from those without their first letters, the shortest of
the three that there are. -/
lemma levenshtein_cons_cons (x y : α) (xs ys : List α) :
    levenshtein (x :: xs) (y :: ys) =
      min (min (levenshtein xs (y :: ys) + 1) (levenshtein (x :: xs) ys + 1))
        (levenshtein xs ys + if x = y then 0 else 1) := by
  rw [levenshtein]

/-- As many edits as the distance suffice.

**Proof sketch.** By the recursion of the distance: whichever of the three ways is the shortest is
an edit after as many as the rest needs. -/
lemma edits_levenshtein (xs ys : List α) : Edits xs ys (levenshtein xs ys) := by
  fun_induction levenshtein xs ys with
  | case1 ys => exact .insertAll ys
  | case2 x xs => exact .deleteAll (x :: xs)
  | case3 x xs y ys hdelete hinsert hboth =>
    rcases min_choice (min (levenshtein xs (y :: ys) + 1) (levenshtein (x :: xs) ys + 1))
      (levenshtein xs ys + if x = y then 0 else 1) with hmin | hmin
    · rw [hmin]
      rcases min_choice (levenshtein xs (y :: ys) + 1) (levenshtein (x :: xs) ys + 1) with
        hmin' | hmin'
      · rw [hmin']
        exact .delete x hdelete
      · rw [hmin']
        exact .insert y hinsert
    · rw [hmin]
      by_cases heq : x = y
      · subst heq
        simpa using Edits.keep x hboth
      · rw [if_neg heq]
        exact .replace x y hboth

/-- Fewer edits than the distance do not.

**Proof sketch.** Induction on the edits: the distance is at most what it is without the last edit
and one more. -/
lemma levenshtein_le (h : Edits xs ys n) : levenshtein xs ys ≤ n := by
  induction h with
  | done => simp
  | @delete xs ys n x _ ih =>
    cases ys with
    | nil => simpa using ih
    | cons y ys =>
      rw [levenshtein_cons_cons]
      omega
  | @insert xs ys n y _ ih =>
    cases xs with
    | nil => simpa using ih
    | cons x xs =>
      rw [levenshtein_cons_cons]
      omega
  | keep x _ ih =>
    rw [levenshtein_cons_cons, if_pos rfl]
    omega
  | replace x y _ ih =>
    rw [levenshtein_cons_cons]
    split <;> omega

/-- The distance is the least number of edits. -/
theorem levenshtein_le_iff : levenshtein xs ys ≤ n ↔ ∃ m ≤ n, Edits xs ys m :=
  ⟨fun h => ⟨_, h, edits_levenshtein xs ys⟩, fun ⟨_, hle, h⟩ => Nat.le_trans (levenshtein_le h) hle⟩

/-- The distance of two words is the same in both directions. -/
lemma levenshtein_comm (xs ys : List α) : levenshtein xs ys = levenshtein ys xs :=
  Nat.le_antisymm (levenshtein_le (edits_levenshtein ys xs).symm)
    (levenshtein_le (edits_levenshtein xs ys).symm)

/-- The distance of two words is the same read backwards. -/
lemma levenshtein_reverse (xs ys : List α) :
    levenshtein xs.reverse ys.reverse = levenshtein xs ys := by
  refine Nat.le_antisymm (levenshtein_le (edits_levenshtein xs ys).reverse) (levenshtein_le ?_)
  simpa using (edits_levenshtein xs.reverse ys.reverse).reverse

/-- The distance by the last letters. -/
theorem levenshtein_concat_concat (x y : α) (xs ys : List α) :
    levenshtein (xs ++ [x]) (ys ++ [y]) =
      min (min (levenshtein xs (ys ++ [y]) + 1) (levenshtein (xs ++ [x]) ys + 1))
        (levenshtein xs ys + if x = y then 0 else 1) := by
  have hreverse := fun zs ws : List α => (levenshtein_reverse zs ws).symm
  rw [hreverse (xs ++ [x]) (ys ++ [y]), hreverse xs (ys ++ [y]), hreverse (xs ++ [x]) ys,
    hreverse xs ys, List.reverse_concat, List.reverse_concat, levenshtein_cons_cons]

/-- Mapping the letters of words to others takes words no further apart. -/
lemma levenshtein_map_le (f : α → β) (xs ys : List α) :
    levenshtein (xs.map f) (ys.map f) ≤ levenshtein xs ys :=
  levenshtein_le ((edits_levenshtein xs ys).map f)

/-- A beginning of a word is as near to some beginning of the other word as the whole word is to the
other one. -/
theorem exists_isPrefix_levenshtein_le (h : levenshtein (xs ++ xs') ys ≤ n) :
    ∃ zs, zs <+: ys ∧ levenshtein xs zs ≤ n := by
  obtain ⟨m, hm, hedits⟩ := levenshtein_le_iff.1 h
  obtain ⟨zs, ys', n₁, n₂, rfl, rfl, hfirst, -⟩ := hedits.exists_split
  exact ⟨zs, List.prefix_append zs ys', levenshtein_le_iff.2 ⟨n₁, by omega, hfirst⟩⟩

end Distance

end Concordance
