set_option relaxedAutoImplicit false
set_option autoImplicit false

/-!
# Positional numerals

Natural numbers written with digits in an arbitrary base, the most significant digit first.
Document ids, decimal numbers and the states of the typo index are all of this form.

## Main definitions

* `Concordance.Positional.digits` — the digits of a number, none for zero.
* `Concordance.Positional.numeral` — the same, but a single digit for zero.
* `Concordance.Positional.value` — the number that a digit sequence stands for.
* `Concordance.Positional.decimal` — a number in decimal characters.

## Main results

* `Concordance.Positional.value_digits` — digits stand for the number they were taken from.
* `Concordance.Positional.value_numeral` — likewise for numerals.
-/

namespace Concordance.Positional

/-- The digits of `n` in base `base`, most significant first. Zero has none; a base below two
has no digits at all. -/
def digits (base n : Nat) : List Nat :=
  if n = 0 ∨ base < 2 then [] else digits base (n / base) ++ [n % base]
  termination_by n
  decreasing_by exact Nat.div_lt_self (by omega) (by omega)

/-- The digits of `n`, with the digit zero for zero. -/
def numeral (base n : Nat) : List Nat := if n = 0 then [0] else digits base n

/-- The number that a sequence of digits stands for. -/
def value (base : Nat) (ds : List Nat) : Nat := ds.foldl (fun n d => n * base + d) 0

/-- The decimal digit `d` as a character. -/
def digitChar (d : Nat) : Char := Char.ofNat (48 + d)

/-- A natural number in decimal characters. -/
def decimal (n : Nat) : List Char := (numeral 10 n).map digitChar

/-- The decimal digit that a character stands for. -/
def digitOf? (c : Char) : Option Nat :=
  if '0' ≤ c ∧ c ≤ '9' then some (c.toNat - 48) else none

/-- One more digit multiplies the value by the base. -/
theorem value_append_singleton (base d : Nat) (ds : List Nat) :
    value base (ds ++ [d]) = value base ds * base + d := by
  simp [value]

/-- Digits stand for the number they were taken from. -/
theorem value_digits {base : Nat} (hbase : 2 ≤ base) (n : Nat) :
    value base (digits base n) = n := by
  fun_induction digits base n with
  | case1 n h => have : n = 0 := by omega
                 simp [value, this]
  | case2 n h ih => rw [value_append_singleton, ih]; exact Nat.div_add_mod' n base

/-- A numeral stands for the number it was taken from. -/
theorem value_numeral {base : Nat} (hbase : 2 ≤ base) (n : Nat) :
    value base (numeral base n) = n := by
  unfold numeral
  split
  · next h => simp [value, h]
  · exact value_digits hbase n

end Concordance.Positional
