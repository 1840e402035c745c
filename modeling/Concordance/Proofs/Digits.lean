import Concordance.Positional
import Mathlib.Data.Nat.Digits.Lemmas

set_option relaxedAutoImplicit false
set_option autoImplicit false

/-!
# Sequences of digits

The digits of a number are those of the library in the opposite order, so what is known of them
there carries over. A sequence of digits comes back from its value unless it starts with a zero that
could be left out.

## Main results

* `Concordance.Positional.value_eq_ofDigits`, `digits_eq_reverse` — values and digits in terms of
  those that start with the least significant digit.
* `Concordance.Positional.foldl_digits`, `value_lt` — more digits, and how large values are.
* `Concordance.Positional.numeral_value_eq_iff` — the sequences that are numerals.
-/

namespace Concordance.Positional

variable {base : Nat} {ds : List Nat}

/-! ## The least significant digit first -/

/-- Reading digits with the greatest one first is Mathlib's reading of the digits in reverse. -/
lemma value_eq_ofDigits (base : Nat) (ds : List Nat) :
    value base ds = Nat.ofDigits base ds.reverse := by
  induction ds using List.reverseRecOn with
  | nil => rfl
  | append_singleton ds d ih =>
    rw [value_append_singleton, ih, List.reverse_concat, Nat.ofDigits_cons, Nat.mul_comm,
      Nat.add_comm]

/-- The digits of a number are Mathlib's digits in reverse, since here the greatest one comes first.
-/
lemma digits_eq_reverse (hbase : 2 ≤ base) (n : Nat) :
    digits base n = (Nat.digits base n).reverse := by
  fun_induction digits base n with
  | case1 n h =>
    obtain rfl : n = 0 := by omega
    rw [Nat.digits_zero, List.reverse_nil]
  | case2 n h ih => rw [Nat.digits_def' (by omega) (by omega), List.reverse_cons, ih]

/-- Digits behind a number shift it by as many places. -/
lemma foldl_digits (base n : Nat) (ds : List Nat) :
    ds.foldl (fun n d => n * base + d) n = n * base ^ ds.length + value base ds := by
  induction ds using List.reverseRecOn with
  | nil => simp [value]
  | append_singleton ds d ih =>
    rw [List.foldl_append, ih, value_append_singleton, List.length_append, List.length_singleton,
      pow_succ, List.foldl_cons, List.foldl_nil, Nat.add_mul, Nat.mul_assoc, Nat.add_assoc]

/-- More digits only make a number larger. -/
lemma le_foldl_digits (hbase : 0 < base) (n : Nat) (ds : List Nat) :
    n ≤ ds.foldl (fun n d => n * base + d) n := by
  rw [foldl_digits]
  exact (Nat.le_mul_of_pos_right n (Nat.pow_pos hbase)).trans (Nat.le_add_right _ _)

/-- Further digits move those in front of them up by as many places. -/
lemma value_append (base : Nat) (ds es : List Nat) :
    value base (ds ++ es) = value base ds * base ^ es.length + value base es := by
  rw [← foldl_digits, value, List.foldl_append]
  rfl

/-- A value has as many places as digits. -/
lemma value_lt (hbase : 2 ≤ base) (hds : ∀ d ∈ ds, d < base) :
    value base ds < base ^ ds.length := by
  rw [value_eq_ofDigits, ← List.length_reverse]
  exact Nat.ofDigits_lt_base_pow_length hbase fun d hd => hds d (List.mem_reverse.1 hd)

/-- Zeros stand for zero, however many there are. -/
lemma value_replicate_zero (base n : Nat) : value base (List.replicate n 0) = 0 := by
  induction n with
  | zero => rfl
  | succ n ih => rw [List.replicate_succ', value_append_singleton, ih, Nat.zero_mul]

/-! ## Digits of a number -/

/-- A digit of a base above one is smaller than the base. -/
lemma lt_of_mem_digits (hbase : 2 ≤ base) (n : Nat) : ∀ d ∈ digits base n, d < base := by
  intro d hd
  rw [digits_eq_reverse hbase, List.mem_reverse] at hd
  exact Nat.digits_lt_base hbase hd

/-- The digits of a positive number start with another digit than zero. -/
lemma head?_digits_ne_zero (hbase : 2 ≤ base) (n : Nat) : (digits base n).head? ≠ some 0 := by
  intro hhead
  rw [digits_eq_reverse hbase, List.head?_reverse] at hhead
  have hne : Nat.digits base n ≠ [] := fun hnil => by simp [hnil] at hhead
  rw [List.getLast?_eq_some_getLast hne, Option.some_inj] at hhead
  exact Nat.getLast_digit_ne_zero base (Nat.digits_ne_nil_iff_ne_zero.1 hne) hhead

/-- Digits come back from their value if the first of them is not zero. -/
lemma digits_value (hbase : 2 ≤ base) (hds : ∀ d ∈ ds, d < base) (hhead : ds.head? ≠ some 0) :
    digits base (value base ds) = ds := by
  have hback : Nat.digits base (Nat.ofDigits base ds.reverse) = ds.reverse := by
    refine Nat.digits_ofDigits base hbase ds.reverse (fun d hd => ?_) fun hne hlast => hhead ?_
    · exact hds d (List.mem_reverse.1 hd)
    · rw [← hlast, List.getLast_reverse, List.head?_eq_some_head]
  rw [digits_eq_reverse hbase, value_eq_ofDigits, hback, List.reverse_reverse]

/-! ## Numerals -/

/-- A digit of a numeral is smaller than the base. -/
lemma lt_of_mem_numeral (hbase : 2 ≤ base) (n : Nat) : ∀ d ∈ numeral base n, d < base := by
  unfold numeral
  split
  · intro d hd
    rw [List.mem_singleton.1 hd]
    omega
  · exact lt_of_mem_digits hbase n

/-- A numeral has a digit. -/
lemma numeral_ne_nil (hbase : 2 ≤ base) (n : Nat) : numeral base n ≠ [] := by
  intro hnil
  have hn := value_numeral hbase n
  rw [hnil] at hn
  simp [value, numeral, ← hn] at hnil

/-- Only the numeral of zero starts with the digit zero. -/
lemma numeral_canonical (hbase : 2 ≤ base) (n : Nat) :
    ¬ ((numeral base n).head? = some 0 ∧ numeral base n ≠ [0]) := by
  rintro ⟨hhead, hne⟩
  unfold numeral at hhead hne
  split at hhead
  · next h => exact hne (by rw [if_pos h])
  · exact head?_digits_ne_zero hbase n hhead

/-- Numerals of different numbers differ. -/
lemma numeral_injective (hbase : 2 ≤ base) : Function.Injective (numeral base) := by
  intro m n h
  rw [← value_numeral hbase m, h, value_numeral hbase n]

/-- **Numerals.** Digits are the numeral of the number that they stand for iff they are the single
digit zero, or there are some and the first is another one.

**Proof sketch.** The numeral of a number begins with zero only if it is the zero itself. The other
way round the digits come back from their value, which is not zero. -/
theorem numeral_value_eq_iff (hbase : 2 ≤ base) (hds : ∀ d ∈ ds, d < base) :
    numeral base (value base ds) = ds ↔ ds = [0] ∨ ds ≠ [] ∧ ds.head? ≠ some 0 := by
  constructor
  · intro h
    have hcanonical := numeral_canonical hbase (value base ds)
    have hne := numeral_ne_nil hbase (value base ds)
    rw [h] at hcanonical hne
    by_cases hzero : ds = [0]
    · exact .inl hzero
    · exact .inr ⟨hne, fun hhead => hcanonical ⟨hhead, hzero⟩⟩
  · rintro (rfl | ⟨hne, hhead⟩)
    · simp [value, numeral]
    · have hback := digits_value hbase hds hhead
      have hpos : value base ds ≠ 0 := by
        intro hzero
        rw [hzero, digits, if_pos (.inl rfl)] at hback
        exact hne hback.symm
      rw [numeral, if_neg hpos, hback]

end Concordance.Positional
