import Concordance.Bytes
import Mathlib.Tactic.Common

set_option relaxedAutoImplicit false
set_option autoImplicit false

/-!
# The order of bytes

Lines are compared with a pattern by their first bytes only. As long as these bytes are not the
pattern itself, the comparison says how the whole line compares with everything that starts with
the pattern.

## Main results

* `Concordance.Bytes.compare_append_of_take_ne` — a comparison of first bytes decides the order.
* `Concordance.Bytes.compare_append_append` — neither of two lists being a beginning of the other,
  what follows them does not count.
-/

namespace Concordance.Bytes

variable {a b p x y : Bytes}

/-- Comparing the other way round swaps the outcome. -/
lemma compare_swap (a b : Bytes) : compare a b = (compare b a).swap := Std.OrientedCmp.eq_swap

/-- The first bytes equal the pattern iff the line starts with it. -/
lemma compare_take_eq_iff : compare (a.take p.length) p = .eq ↔ p <+: a := by
  rw [Std.compare_eq_iff_eq, List.prefix_iff_eq_take, eq_comm]

/-- First bytes that differ from a pattern decide how the line compares with everything that
starts with the pattern.

**Proof sketch.** Induction on the pattern and the line together: at the first byte that differs
both comparisons are decided, and equal bytes are passed over. -/
theorem compare_append_of_take_ne (h : compare (a.take p.length) p ≠ .eq) (x : Bytes) :
    compare a (p ++ x) = compare (a.take p.length) p := by
  induction p generalizing a with
  | nil => exact absurd (by simp) h
  | cons c p ih =>
    cases a with
    | nil => simp
    | cons b a =>
      rw [List.length_cons, List.take_succ_cons, List.compare_cons_cons] at h ⊢
      rw [List.cons_append, List.compare_cons_cons]
      cases hbc : compare b c with
      | lt => rfl
      | gt => rfl
      | eq =>
        rw [hbc] at h
        exact ih h

/-- If the beginning of a text differs from a prefix as long as it, the whole text compares as its
beginning does. -/
lemma compare_of_take_ne (h : compare (a.take p.length) p ≠ .eq) :
    compare a p = compare (a.take p.length) p := by
  simpa using compare_append_of_take_ne h []

/-- What follows the longer list does not count if the shorter one is no beginning. -/
lemma compare_append_right (h : ¬ p <+: a) (x : Bytes) : compare a (p ++ x) = compare a p := by
  have hne : compare (a.take p.length) p ≠ .eq := fun heq => h (compare_take_eq_iff.1 heq)
  rw [compare_append_of_take_ne hne, compare_of_take_ne hne]

/-- What comes behind a prefix does not matter in comparison with a text that does not begin with
it. -/
lemma compare_append_left (h : ¬ p <+: a) (x : Bytes) : compare (p ++ x) a = compare p a := by
  rw [compare_swap (p ++ x) a, compare_append_right h, ← compare_swap]

/-- Behind the same bytes what follows them decides. -/
lemma compare_append_same (a x y : Bytes) : compare (a ++ x) (a ++ y) = compare x y := by
  induction a with
  | nil => rfl
  | cons b a ih =>
    have hb : compare b b = .eq := Std.ReflCmp.compare_self
    rw [List.cons_append, List.cons_append, List.compare_cons_cons, hb]
    exact ih

/-- If neither of two lists is a beginning of the other, what follows them does not count. -/
theorem compare_append_append (hab : ¬ a <+: b) (hba : ¬ b <+: a) (x y : Bytes) :
    compare (a ++ x) (b ++ y) = compare a b := by
  have hnot : ¬ b <+: a ++ x := by
    intro h
    rcases List.prefix_or_prefix_of_prefix h (List.prefix_append a x) with h | h
    · exact hba h
    · exact hab h
  rw [compare_append_right hnot, compare_append_left hab]

end Concordance.Bytes
