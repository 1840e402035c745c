import Concordance.Binary.Double
import Mathlib.Algebra.Order.Field.Power
import Mathlib.Data.Nat.Cast.Order.Field
import Mathlib.Data.Nat.Log
import Mathlib.Tactic.FieldSimp
import Mathlib.Tactic.Linarith
import Mathlib.Tactic.NormNum
import Mathlib.Tactic.Ring

set_option relaxedAutoImplicit false
set_option autoImplicit false

/-!
# Rounding to doubles

The double nearest to a quotient exceeds it by no more than a unit in the last place, and is finite
if the quotient lies below the largest double. So natural numbers and products of doubles are known
up to a small relative error.

## Main definitions

* `Concordance.Double.largest` — the largest double.
* `Concordance.Double.AtMost` — a double is finite, not negative and not above a bound.

## Main results

* `Concordance.Double.scaleOf_spec` — the exponent of the last place.
* `Concordance.Double.exists_decode_nearest` — what a quotient is rounded to.
* `Concordance.Double.atMost_ofNat` — natural numbers.
* `Concordance.Double.AtMost.isInfinite_mul` — products.
-/

namespace Concordance

-- Powers are those of the core library, as in the definition of doubles.
attribute [local instance (high)] instPowNat

/-- A power with any exponent is a quotient of powers with natural exponents. -/
lemma zpow_eq_div {b : ℚ} (hb : b ≠ 0) (e : ℤ) : b ^ e = b ^ e.toNat / b ^ (-e).toNat := by
  rw [← zpow_natCast, ← zpow_natCast, ← zpow_sub₀ hb, Int.toNat_sub_toNat_neg]

namespace Double

/-- The largest double. -/
def largest : ℚ := (2 ^ 53 - 1) * 2 ^ (971 : ℤ)

/-- The largest double is below the next power of two. -/
lemma largest_lt : largest < 2 ^ (1024 : ℤ) := by
  have hsum : (2 : ℚ) ^ (1024 : ℤ) = 2 ^ 53 * 2 ^ (971 : ℤ) := by
    rw [← zpow_natCast, ← zpow_add₀ two_ne_zero]
    rfl
  rw [largest, hsum]
  gcongr
  norm_num

variable {num den : ℕ}

/-- Shifting the terms of a quotient divides it by a power of two. -/
lemma shifted_div (num den : ℕ) (e : ℤ) :
    ((num <<< (-e).toNat : ℕ) : ℚ) / ((den <<< e.toNat : ℕ) : ℚ) = num / den / 2 ^ e := by
  rw [zpow_eq_div two_ne_zero, Nat.shiftLeft_eq, Nat.shiftLeft_eq]
  push_cast
  field_simp

/-- The logarithms of its terms enclose a quotient.

**Proof sketch.** Each term lies between the power of two of its logarithm and the next one, so
dividing moves the bounds by one either way. -/
lemma div_bounds (hnum : 0 < num) (hden : 0 < den) :
    (2 : ℚ) ^ (num.log2 - den.log2 - 1 : ℤ) < num / den ∧
      (num / den : ℚ) < 2 ^ (num.log2 - den.log2 + 1 : ℤ) := by
  have hnum₁ : (2 : ℚ) ^ num.log2 ≤ num := by exact_mod_cast Nat.log2_self_le hnum.ne'
  have hnum₂ : (num : ℚ) < 2 ^ (num.log2 + 1) := by exact_mod_cast Nat.lt_log2_self
  have hden₁ : (2 : ℚ) ^ den.log2 ≤ den := by exact_mod_cast Nat.log2_self_le hden.ne'
  have hden₂ : (den : ℚ) < 2 ^ (den.log2 + 1) := by exact_mod_cast Nat.lt_log2_self
  have hpos : (0 : ℚ) < den := by exact_mod_cast hden
  constructor
  · have heq : (num.log2 - den.log2 - 1 : ℤ) = (num.log2 : ℕ) - (den.log2 + 1 : ℕ) := by
      push_cast; ring
    rw [heq, zpow_natCast_sub_natCast₀ two_ne_zero, div_lt_div_iff₀ (by positivity) hpos]
    nlinarith [pow_pos (two_pos : (0 : ℚ) < 2) num.log2]
  · have heq : (num.log2 - den.log2 + 1 : ℤ) = (num.log2 + 1 : ℕ) - (den.log2 : ℕ) := by
      push_cast; ring
    rw [heq, zpow_natCast_sub_natCast₀ two_ne_zero, div_lt_div_iff₀ hpos (by positivity)]
    nlinarith [pow_pos (two_pos : (0 : ℚ) < 2) den.log2]

/-- Shifted terms are compared as the quotient and a power of two. -/
lemma shiftLeft_le_iff (hden : 0 < den) (e : ℤ) :
    den <<< e.toNat ≤ num <<< (-e).toNat ↔ (2 : ℚ) ^ e ≤ num / den := by
  have hpos : (0 : ℚ) < (den <<< e.toNat : ℕ) := by
    rw [Nat.shiftLeft_eq]
    exact_mod_cast Nat.mul_pos hden (by positivity)
  rw [← one_le_div (by positivity : (0 : ℚ) < 2 ^ e), ← shifted_div, one_le_div hpos, Nat.cast_le]

/-- The exponent of the last place: divided by its power of two, a quotient has `53` bits before the
point, or fewer if it is the least exponent.

**Proof sketch.** A quotient lies within a power of two of that of the leading bits of its parts, so
one of two neighbouring exponents leaves just `53` bits. The last place is there, or at the least
exponent if this is larger. -/
lemma scaleOf_spec (hnum : 0 < num) (hden : 0 < den) :
    -1074 ≤ format.scaleOf num den ∧ (num / den : ℚ) < 2 ^ (format.scaleOf num den + 53) ∧
      (format.scaleOf num den = -1074 ∨ (2 : ℚ) ^ (format.scaleOf num den + 52) ≤ num / den) := by
  obtain ⟨hlow, hhigh⟩ := div_bounds hnum hden
  have hscale : format.scaleOf num den = max (-1074)
      (if den <<< (num.log2 - den.log2 - 53 + 53 : ℤ).toNat ≤
          num <<< (-(num.log2 - den.log2 - 53 + 53 : ℤ)).toNat then
        (num.log2 - den.log2 - 53 + 1 : ℤ) else (num.log2 - den.log2 - 53 : ℤ)) := rfl
  -- without the least exponent there are always `53` bits
  obtain ⟨s, hs, hs₁, hs₂⟩ : ∃ s : ℤ, format.scaleOf num den = max (-1074) s ∧
      (2 : ℚ) ^ (s + 52) ≤ num / den ∧ (num / den : ℚ) < 2 ^ (s + 53) := by
    rw [hscale]
    generalize (num.log2 - den.log2 : ℤ) = d at hlow hhigh
    simp only [shiftLeft_le_iff hden, sub_add_cancel]
    split_ifs with hwide
    · have h₁ : d - 53 + 1 + 52 = d := by ring
      have h₂ : d - 53 + 1 + 53 = d + 1 := by ring
      exact ⟨_, rfl, by rwa [h₁], by rwa [h₂]⟩
    · have h₁ : d - 53 + 52 = d - 1 := by ring
      have h₂ : d - 53 + 53 = d := by ring
      exact ⟨_, rfl, by rw [h₁]; exact hlow.le, by rw [h₂]; exact not_le.1 hwide⟩
  rw [hs]
  refine ⟨le_max_left _ _, ?_, ?_⟩
  · refine hs₂.trans_le (zpow_le_zpow_right₀ one_le_two ?_)
    have := le_max_right (-1074) s
    omega
  · rcases le_total s (-1074) with hle | hle
    · exact .inl (max_eq_left hle)
    · rw [max_eq_right hle]
      exact .inr hs₁

/-- The nearest number is told by the exponent of its last place and the quotient's units in this
place, rounded down or up.

**Proof sketch.** Shifting makes the quotient one of natural numbers, whose whole part is the units
rounded down; ties and larger fractions add one. -/
lemma nearest_spec (hnum : 0 < num) (hden : 0 < den) : ∃ units rounded : ℕ,
    format.nearest num den =
      min (2047 * 2 ^ 52) ((format.scaleOf num den + 1074).toNat * 2 ^ 52 + rounded) ∧
    (units : ℚ) ≤ num / den / 2 ^ format.scaleOf num den ∧
    (num / den / 2 ^ format.scaleOf num den : ℚ) < units + 1 ∧
    units ≤ rounded ∧ rounded ≤ units + 1 := by
  have hpos : 0 < den <<< (format.scaleOf num den).toNat := by
    rw [Nat.shiftLeft_eq]
    exact Nat.mul_pos hden (by positivity)
  unfold Binary.Format.nearest
  rw [if_neg hnum.ne', ← shifted_div]
  dsimp only
  generalize num <<< (-format.scaleOf num den).toNat = top
  generalize den <<< (format.scaleOf num den).toNat = bottom at hpos ⊢
  refine ⟨top / bottom, _, rfl, Nat.cast_div_le, ?_, ?_, ?_⟩
  · rw [div_lt_iff₀ (by exact_mod_cast hpos)]
    have hlt := Nat.lt_mul_div_succ top hpos
    rw [Nat.mul_comm] at hlt
    exact_mod_cast hlt
  · split_ifs <;> omega
  · split_ifs <;> omega

/-- Units in the last place make a number, also if they carry over to the next exponent.

**Proof sketch.** The units are put behind the exponent field. Below `2 ^ 52` they only come with
the least exponent, and the double is subnormal. Up to `2 ^ 53` their top bit adds one to the
exponent field. At `2 ^ 53` they add two and leave no fraction, which is half the units at twice the
unit. -/
lemma decode_units {k units : ℕ} (hk : units < 2 ^ 52 → k = 0) (hunits : units ≤ 2 ^ 53)
    (hlt : k * 2 ^ 52 + units < 2047 * 2 ^ 52) : ∃ (m : ℕ) (e : ℤ),
      format.decode (k * 2 ^ 52 + units) = .finite false m e ∧
        (m : ℚ) * 2 ^ e = units * 2 ^ (k - 1074 : ℤ) := by
  -- below the field of all ones, only the exponent field being zero tells the two cases apart
  have hdecode : ∀ bits : ℕ, bits < 2047 * 2 ^ 52 → format.decode bits =
      if bits / 2 ^ 52 = 0 then .finite false (bits % 2 ^ 52) (-1074)
      else .finite false (bits % 2 ^ 52 + 2 ^ 52) (-1074 + (bits / 2 ^ 52 : ℕ) - 1) := by
    intro bits hbits
    have hsign : ¬ (format.signBit ≤ bits) := by
      change ¬ (2 ^ 63 ≤ bits)
      omega
    have hfield : bits / 2 ^ 52 % 2 ^ 11 = bits / 2 ^ 52 := Nat.mod_eq_of_lt (by omega)
    have hmost : ¬ (bits / 2 ^ 52 = 2 ^ 11 - 1) := by omega
    unfold Binary.Format.decode
    simp only [hsign, decide_false, show format.fractionWidth = 52 from rfl,
      show format.exponentWidth = 11 from rfl, show format.leastExponent = -1074 from rfl, hfield,
      if_neg hmost]
  rw [hdecode _ hlt]
  rcases lt_trichotomy units (2 ^ 53) with hlt' | rfl | hgt
  · by_cases hsmall : units < 2 ^ 52
    · obtain rfl := hk hsmall
      rw [if_pos (by omega)]
      refine ⟨_, _, rfl, ?_⟩
      rw [Nat.mod_eq_of_lt (by omega)]
      norm_num
    · rw [if_neg (by omega)]
      refine ⟨_, _, rfl, ?_⟩
      have hdiv : (k * 2 ^ 52 + units) / 2 ^ 52 = k + 1 := by omega
      have hmod : (k * 2 ^ 52 + units) % 2 ^ 52 + 2 ^ 52 = units := by omega
      rw [hdiv, hmod]
      congr 2
      push_cast
      ring
  · rw [if_neg (by omega)]
    refine ⟨_, _, rfl, ?_⟩
    have hdiv : (k * 2 ^ 52 + 2 ^ 53) / 2 ^ 52 = k + 2 := by omega
    have hmod : (k * 2 ^ 52 + 2 ^ 53) % 2 ^ 52 = 0 := by omega
    have hexponent : (-1074 + (k + 2 : ℕ) - 1 : ℤ) = k - 1074 + 1 := by
      push_cast
      ring
    rw [hdiv, hmod, hexponent, zpow_add_one₀ two_ne_zero]
    norm_num
    ring
  · omega

/-- **Rounding.** The double nearest to a quotient below the largest double is finite. It is larger
than the quotient by no more than a unit in the last place.

**Proof sketch.** The quotient has fewer than `2 ^ 53` units in the last place, and if it has fewer
than `2 ^ 52` then the place is that of the least exponent. As it is below the largest double,
rounding up does not leave the finite range. What the units stand for is at most one of them above
the quotient. -/
theorem exists_decode_nearest (hnum : 0 < num) (hden : 0 < den)
    (hbound : (num / den : ℚ) < largest) :
    format.nearest num den < 2047 * 2 ^ 52 ∧ ∃ (m : ℕ) (e : ℤ),
      format.decode (format.nearest num den) = .finite false m e ∧
        (m : ℚ) * 2 ^ e ≤ num / den + 2 ^ format.scaleOf num den := by
  obtain ⟨hleast, hhigh, hlow⟩ := scaleOf_spec hnum hden
  obtain ⟨units, rounded, hnearest, hdown, hup, hle, hge⟩ := nearest_spec hnum hden
  generalize format.scaleOf num den = e at *
  have hpow : (0 : ℚ) < 2 ^ e := by positivity
  -- the quotient has at most `53` bits before the point, and if it has fewer then `e` is least
  have hunits : units < 2 ^ 53 := by
    have : (units : ℚ) < 2 ^ (53 : ℤ) := by
      refine hdown.trans_lt ?_
      rwa [div_lt_iff₀ hpow, ← zpow_add₀ two_ne_zero, add_comm]
    exact_mod_cast this
  have hsmall : rounded < 2 ^ 52 → e = -1074 := fun hrounded => hlow.resolve_right fun hlow => by
    have : (2 : ℚ) ^ (52 : ℤ) < units + 1 := by
      refine lt_of_le_of_lt ?_ hup
      rwa [le_div_iff₀ hpow, ← zpow_add₀ two_ne_zero, add_comm]
    have : 2 ^ 52 < units + 1 := by exact_mod_cast this
    omega
  -- nor is there more room than up to the largest double
  have hroom : e ≤ 970 ∨ e = 971 ∧ units + 1 < 2 ^ 53 := by
    by_cases hmost : e ≤ 970
    · exact .inl hmost
    have hlow := hlow.resolve_left (by omega)
    have hexponent : e ≤ 971 := by
      have : (2 : ℚ) ^ (e + 52) < 2 ^ (1024 : ℤ) := by
        exact hlow.trans_lt (hbound.trans largest_lt)
      have := (zpow_lt_zpow_iff_right₀ one_lt_two).1 this
      omega
    obtain rfl : e = 971 := by omega
    refine .inr ⟨rfl, ?_⟩
    have : (units : ℚ) < 2 ^ 53 - 1 := hdown.trans_lt ((div_lt_iff₀ hpow).2 hbound)
    have : (units + 1 : ℚ) < 2 ^ 53 := by linarith
    exact_mod_cast this
  have hlt : (e + 1074).toNat * 2 ^ 52 + rounded < 2047 * 2 ^ 52 := by omega
  rw [hnearest, min_eq_right hlt.le]
  obtain ⟨m, e', hdecode, hvalue⟩ := decode_units (fun hrounded => by rw [hsmall hrounded]; rfl)
    (by omega) hlt
  refine ⟨hlt, m, e', hdecode, ?_⟩
  have hexponent : ((e + 1074).toNat - 1074 : ℤ) = e := by omega
  rw [hvalue, hexponent]
  have hrounded : (rounded : ℚ) ≤ units + 1 := by exact_mod_cast hge
  calc (rounded : ℚ) * 2 ^ e
    _ ≤ (num / den / 2 ^ e + 1) * 2 ^ e := by gcongr; linarith
    _ = num / den + 2 ^ e := by field_simp

/-- A number that is finite, not negative and not above a bound. -/
def AtMost (x : Double) (bound : ℚ) : Prop :=
  ∃ (m : ℕ) (e : ℤ), x.quantity = .finite false m e ∧ (m : ℚ) * 2 ^ e ≤ bound

variable {x y : Double} {r s : ℚ}

/-- The quantity of a double is what its bits stand for in the format, the sign included. -/
lemma quantity_ofBits {bits : ℕ} (h : bits < 2 ^ 64) :
    (ofBits bits).quantity = format.decode bits := by
  change format.decode (UInt64.ofNat bits).toNat = _
  rw [UInt64.toNat_ofNat', Nat.mod_eq_of_lt h]

/-- The significand and the exponent of a double. -/
lemma quantity_bounds {negative : Bool} {m : ℕ} {e : ℤ}
    (h : x.quantity = .finite negative m e) : m < 2 ^ 53 ∧ e ≤ 971 := by
  have hfield : x.bits.toNat / 2 ^ 52 % 2 ^ 11 < 2 ^ 11 := Nat.mod_lt _ (by decide)
  have hfraction : x.bits.toNat % 2 ^ 52 < 2 ^ 52 := Nat.mod_lt _ (by decide)
  unfold quantity Binary.Format.decode at h
  simp only [show format.fractionWidth = 52 from rfl,
    show format.exponentWidth = 11 from rfl,
    show format.leastExponent = -1074 from rfl] at h
  split_ifs at h with hmost hnan hleast <;> cases h
  · omega
  · omega

/-- A scaled number is rounded with an error of no more than a unit in the last place.

**Proof sketch.** A scaled number is a quotient of shifted numbers, which is rounded as any other.
If it is no smaller than the least normal double, the unit in its last place is no more than `2 ^
(-52)` of it. -/
lemma exists_quantity_ofScaled {m : ℕ} {e : ℤ} (h : (m : ℚ) * 2 ^ e < largest) :
    ∃ (m' : ℕ) (e' : ℤ), (ofBits (format.ofScaled false m e)).quantity = .finite false m' e' ∧
      (2 ^ (-1022 : ℤ) ≤ (m : ℚ) * 2 ^ e ∨ m = 0 →
        (m' : ℚ) * 2 ^ e' ≤ m * 2 ^ e * (1 + 2 ^ (-52 : ℤ))) := by
  have hscaled : format.ofScaled false m e =
      format.nearest (m <<< e.toNat) (1 <<< (-e).toNat) := by
    unfold Binary.Format.ofScaled Binary.Format.signed
    rw [if_neg Bool.false_ne_true]
  rw [hscaled]
  rcases Nat.eq_zero_or_pos m with rfl | hm
  · have hzero : format.nearest (0 <<< e.toNat) (1 <<< (-e).toNat) = 0 :=
      if_pos (Nat.zero_shiftLeft _)
    rw [hzero]
    exact ⟨0, -1074, by decide, fun _ => by simp⟩
  have hquotient : ((m <<< e.toNat : ℕ) : ℚ) / (1 <<< (-e).toNat : ℕ) = m * 2 ^ e := by
    rw [zpow_eq_div two_ne_zero, Nat.shiftLeft_eq, Nat.shiftLeft_eq]
    push_cast
    ring
  have hnum : 0 < m <<< e.toNat := by
    rw [Nat.shiftLeft_eq]
    exact Nat.mul_pos hm (by positivity)
  have hden : 0 < 1 <<< (-e).toNat := by
    rw [Nat.shiftLeft_eq]
    positivity
  obtain ⟨hlt, m', e', hdecode, hvalue⟩ := exists_decode_nearest hnum hden (by rwa [hquotient])
  obtain ⟨-, -, hscale⟩ := scaleOf_spec hnum hden
  rw [hquotient] at hvalue hscale
  refine ⟨m', e', (quantity_ofBits (by omega)).trans hdecode, fun hlarge => hvalue.trans ?_⟩
  -- the unit is the least one, or it was chosen by the size of the quotient
  have hunit : (2 : ℚ) ^ format.scaleOf (m <<< e.toNat) (1 <<< (-e).toNat) ≤
      m * 2 ^ e * 2 ^ (-52 : ℤ) := by
    rw [zpow_neg, ← div_eq_mul_inv, le_div_iff₀ (by positivity), ← zpow_add₀ two_ne_zero]
    rcases hscale with hleast | hnormal
    · have hleast' : (-1074 + 52 : ℤ) = -1022 := by norm_num
      rw [hleast, hleast']
      exact hlarge.resolve_right hm.ne'
    · exact hnormal
  linarith

/-- Natural numbers are rounded with a relative error of no more than `2 ^ -52`. -/
theorem atMost_ofNat {n : ℕ} (h : (n : ℚ) < largest) :
    (ofNat n).AtMost (n * (1 + 2 ^ (-52 : ℤ))) := by
  have hone : (n : ℚ) * 2 ^ (0 : ℤ) = n := by rw [zpow_zero, mul_one]
  obtain ⟨m, e, hquantity, hvalue⟩ := exists_quantity_ofScaled (m := n) (e := 0) (by rwa [hone])
  refine ⟨m, e, hquantity, (hvalue ?_).trans_eq (by rw [hone])⟩
  rw [hone]
  rcases Nat.eq_zero_or_pos n with hn | hn
  · exact .inr hn
  · have : (1 : ℚ) ≤ n := by exact_mod_cast hn
    exact .inl (le_trans (zpow_le_one_of_nonpos₀ one_le_two (by norm_num)) this)

/-- A product stays finite below the largest double.

**Proof sketch.** The product of the quantities is a scaled number below the bound, so rounding it
gives a finite double. -/
theorem AtMost.isInfinite_mul (hx : x.AtMost r) (hy : y.AtMost s) (h : r * s < largest) :
    (x.mul y).isInfinite = false := by
  obtain ⟨mx, ex, hqx, hvx⟩ := hx
  obtain ⟨my, ey, hqy, hvy⟩ := hy
  have hmul : x.mul y = ofBits (format.ofScaled false (mx * my) (ex + ey)) := by
    have hqx : format.decode x.bits.toNat = _ := hqx
    have hqy : format.decode y.bits.toNat = _ := hqy
    unfold mul Binary.Format.mul
    rw [hqx, hqy]
    rfl
  have hproduct : ((mx * my : ℕ) : ℚ) * 2 ^ (ex + ey) = mx * 2 ^ ex * (my * 2 ^ ey) := by
    rw [zpow_add₀ two_ne_zero]
    push_cast
    ring
  obtain ⟨m, e, hquantity, -⟩ := exists_quantity_ofScaled (m := mx * my) (e := ex + ey) <| by
    rw [hproduct]
    refine lt_of_le_of_lt ?_ h
    gcongr
    exact le_trans (by positivity) hvx
  rw [hmul, isInfinite, hquantity]

end Double

end Concordance
