import Concordance.Proofs.Binary.Rounding
import Concordance.Proofs.Json.Numerals

set_option relaxedAutoImplicit false
set_option autoImplicit false

/-!
# Doubles as numerals

A double is written with the shortest digits that stand for it. Reading them rounds twice, so the
double that is read may be another one. But there always is one: no finite double is written in a
way that is read as a number beyond the largest double.

## Main definitions

* `Concordance.Decimal.magnitude`, `Numeral.magnitude` — what is written as a rational number.
* `Concordance.Numeral.Writes` — how digits are written with a point, zeros or an exponent.
* `Concordance.Numeral.room` — what can be read with any errors of rounding.

## Main results

* `Concordance.Decimal.shortest_spec` — how large the shortest digits are.
* `Concordance.Numeral.Writes.magnitude_eq`, `Writes.isProper` — digits are written without loss.
* `Concordance.Numeral.isSome_scale` — which numbers can be scaled.
* `Concordance.Numeral.exists_ofDouble?` — finite doubles are written and read.
-/

namespace Concordance

-- Powers are those of the core library, as in the definition of doubles.
attribute [local instance (high)] instPowNat

/-! ## The shortest digits -/

namespace Decimal

/-- The rational number that a decimal number is. -/
def magnitude (d : Decimal) : ℚ := d.significand * 10 ^ d.exponent

variable {i : Interval} {tie : Tie} {grid : ℤ} {n : ℕ}

/-- What lies in an interval does not lie above it.

**Proof sketch.** Both sides are multiplied by what makes them whole numbers; there the search has
compared them. -/
lemma Interval.le_of_holds (h : i.holds grid n = true) :
    (n : ℚ) * 10 ^ grid ≤ i.high * 2 ^ i.scale := by
  have hle : n * i.step grid ≤ i.high * i.unit grid := by
    unfold Interval.holds at h
    dsimp only at h
    split_ifs at h
    · simp only [Bool.and_eq_true, decide_eq_true_eq] at h
      exact h.2
    · simp only [Bool.and_eq_true, decide_eq_true_eq] at h
      exact h.2.le
  have hcast : (n : ℚ) * (10 ^ grid.toNat * 2 ^ (-i.scale).toNat) ≤
      i.high * (2 ^ i.scale.toNat * 10 ^ (-grid).toNat) := by
    exact_mod_cast hle
  rw [zpow_eq_div (by norm_num : (10 : ℚ) ≠ 0), zpow_eq_div two_ne_zero, ← mul_div_assoc,
    ← mul_div_assoc, div_le_div_iff₀ (by positivity) (by positivity)]
  linarith

/-- What is picked is positive and lies in the interval.

**Proof sketch.** The two neighbours of the centre on the grid are tried, and what is picked is one
of them that has been found to be in the interval. The lower one is only tried if it is not zero. -/
lemma Interval.of_pick (h : i.pick tie grid = some n) : 0 < n ∧ i.holds grid n = true := by
  unfold Interval.pick at h
  dsimp only at h
  split at h
  · next hbelow habove =>
    simp only [Bool.and_eq_true, bne_iff_ne, ne_eq] at hbelow
    have hcase : n = i.centre * i.unit grid / i.step grid ∨
        n = i.centre * i.unit grid / i.step grid + 1 := by
      cases tie <;> dsimp only at h <;> split_ifs at h <;> cases h
      all_goals simp
    rcases hcase with rfl | rfl
    · exact ⟨Nat.pos_of_ne_zero hbelow.1, hbelow.2⟩
    · exact ⟨Nat.succ_pos _, habove⟩
  · next hbelow habove =>
    obtain rfl := Option.some.inj h
    simp only [Bool.and_eq_true, bne_iff_ne, ne_eq] at hbelow
    exact ⟨Nat.pos_of_ne_zero hbelow.1, hbelow.2⟩
  · next hbelow habove =>
    obtain rfl := Option.some.inj h
    exact ⟨Nat.succ_pos _, habove⟩
  · cases h

/-- A search does not end above its interval, and if it ends at zero then in whole numbers.

**Proof sketch.** Induction on the grids that are tried. The first pick ends the search, and a pick
is neither zero nor above the interval. -/
lemma Interval.search_spec (i : Interval) (tie : Tie) (grid : ℤ) (fuel : ℕ) :
    ((i.search tie grid fuel).significand = 0 → (i.search tie grid fuel).exponent = 0) ∧
      (i.search tie grid fuel).magnitude ≤ i.high * 2 ^ i.scale := by
  induction fuel generalizing grid with
  | zero =>
    refine ⟨fun _ => rfl, ?_⟩
    have hzero : (⟨0, 0⟩ : Decimal).magnitude = 0 := by simp [magnitude]
    rw [Interval.search, hzero]
    positivity
  | succ fuel ih =>
    rw [Interval.search]
    cases hpick : i.pick tie grid with
    | none => exact ih (grid - 1)
    | some n =>
      obtain ⟨hpos, hholds⟩ := Interval.of_pick hpick
      exact ⟨fun hzero => absurd hzero hpos.ne', Interval.le_of_holds hholds⟩

/-- The shortest digits of a number do not lie above it by more than half a unit in its last
place. -/
lemma shortest_spec (f : Binary.Format) (tie : Tie) (m : ℕ) (e : ℤ) :
    ((shortest f tie m e).significand = 0 → (shortest f tie m e).exponent = 0) ∧
      (shortest f tie m e).magnitude ≤ (m + 1 / 2) * 2 ^ e := by
  refine (Interval.search_spec (.of f m e) tie _ 100).imp_right fun h => h.trans_eq ?_
  have hhigh : ((Interval.of f m e).high : ℚ) = 4 * m + 2 := by
    change ((4 * m + 2 : ℕ) : ℚ) = _
    push_cast
    rfl
  have hscale : (Interval.of f m e).scale = e - 2 := rfl
  have hpow : (2 : ℚ) ^ e = 2 ^ (e - 2) * 4 := by
    rw [zpow_sub₀ two_ne_zero]
    norm_num
  rw [hhigh, hscale, hpow]
  ring

end Decimal

/-! ## Numerals of decimal numbers -/

namespace Numeral

/-- The rational number that a numeral stands for, without its sign. -/
def magnitude (n : Numeral) : ℚ :=
  Positional.value 10 (n.whole ++ n.fraction) * 10 ^ (n.exponentValue - n.fraction.length)

/-- How a decimal number with given digits is written: with zeros behind them, with a point among
them, with zeros in front of them, or with an exponent behind them. -/
inductive Writes (negative : Bool) (digits : List ℕ) (exponent : ℤ) : Numeral → Prop
  | behind {zeros : ℕ} (hexponent : exponent = zeros) (hroom : digits.length + zeros ≤ 16) :
    Writes negative digits exponent ⟨negative, digits ++ List.replicate zeros 0, [0], none⟩
  | among {before after : List ℕ} (hdigits : digits = before ++ after) (hbefore : before ≠ [])
    (hafter : after ≠ []) (hexponent : exponent = -after.length) (hroom : before.length ≤ 16) :
    Writes negative digits exponent ⟨negative, before, after, none⟩
  | before {zeros : ℕ} (hexponent : exponent = -(zeros + digits.length : ℕ)) :
    Writes negative digits exponent ⟨negative, [0], List.replicate zeros 0 ++ digits, none⟩
  | mark {first : ℕ} {rest : List ℕ} (hdigits : digits = first :: rest) {sign : ExponentSign}
    {n : ℕ} (hexponent : exponent = (if sign = .minus then -n else n : ℤ) - rest.length) :
    Writes negative digits exponent
      ⟨negative, [first], rest, some (sign, Positional.numeral 10 n)⟩

/-- The decimal form of a number is one of those in which its digits are written.

**Proof sketch.** By the cases of the decimal form: zeros behind the digits, a point among them,
zeros in front of them, or an exponent behind the first of them. -/
lemma writes_ofDecimal (negative : Bool) (d : Decimal) :
    Writes negative (Positional.numeral 10 d.significand) d.exponent (ofDecimal negative d) := by
  have hne := Positional.numeral_ne_nil (by decide : 2 ≤ 10) d.significand
  unfold ofDecimal
  dsimp only
  generalize Positional.numeral 10 d.significand = digits at *
  have hlength := List.length_pos_of_ne_nil hne
  split_ifs with hlead hwhole hplaces hsign
  · exact .behind (by omega) (by omega)
  · refine .among (List.take_append_drop _ _).symm ?_ ?_ ?_ ?_
    · exact List.ne_nil_of_length_pos (by rw [List.length_take]; omega)
    · exact List.ne_nil_of_length_pos (by rw [List.length_drop]; omega)
    · rw [List.length_drop]
      omega
    · rw [List.length_take]
      omega
  · exact .before (by omega)
  all_goals
    obtain ⟨first, rest, rfl⟩ := List.exists_cons_of_ne_nil hne
    refine .mark rfl ?_
    rw [List.length_cons] at hlead hsign
    simp only [List.length_cons, if_true, reduceCtorEq, if_false]
    omega

section Writes

variable {negative : Bool} {digits : List ℕ} {exponent : ℤ} {n : Numeral}

/-- What is written has the value of the decimal number.

**Proof sketch.** By the ways of writing. Zeros behind the digits count as powers of ten, those in
front of them count for nothing, and a point among the digits takes as many places as there are
behind it from the exponent. -/
lemma Writes.magnitude_eq (h : Writes negative digits exponent n) :
    n.magnitude = Positional.value 10 digits * 10 ^ exponent := by
  have hten : (10 : ℚ) ≠ 0 := by norm_num
  unfold magnitude
  cases h with
  | behind hexponent hroom =>
    have hvalue : ∀ k, Positional.value 10 (digits ++ List.replicate k 0) =
        Positional.value 10 digits * 10 ^ k := fun k => by
      rw [Positional.value_append, Positional.value_replicate_zero, List.length_replicate, add_zero]
    rw [List.append_assoc, ← List.replicate_succ', hvalue, hexponent, List.length_singleton,
      Nat.cast_mul, Nat.cast_pow, mul_assoc, ← zpow_natCast, Nat.cast_ofNat, ← zpow_add₀ hten]
    congr 2
    change ((_ + 1 : ℕ) : ℤ) + (0 - 1) = _
    omega
  | among hdigits hbefore hafter hexponent hroom =>
    rw [← hdigits, hexponent]
    congr 2
    exact zero_sub _
  | @before zeros hexponent =>
    have hvalue : Positional.value 10 ([0] ++ (List.replicate zeros 0 ++ digits)) =
        Positional.value 10 digits := by
      change Positional.value 10 (List.replicate zeros 0 ++ digits) = _
      rw [Positional.value_append, Positional.value_replicate_zero, zero_mul, zero_add]
    rw [hvalue, hexponent, List.length_append, List.length_replicate]
    congr 2
    exact zero_sub _
  | @mark first rest hdigits sign k hexponent =>
    rw [List.singleton_append, ← hdigits, hexponent]
    congr 3
    have hvalue := Positional.value_numeral (by decide : 2 ≤ 10) k
    cases sign <;> simp [exponentValue, hvalue]

/-- No more than sixteen digits are in front of the point.

**Proof sketch.** By the ways of writing: the digits in front of the point are at most sixteen, with
any zeros that are put behind them. -/
lemma Writes.value_whole_lt (h : Writes negative digits exponent n) (hlt : ∀ d ∈ digits, d < 10) :
    Positional.value 10 n.whole < 2 ^ 64 := by
  suffices hwhole : n.whole.length ≤ 16 ∧ ∀ d ∈ n.whole, d < 10 by
    refine (Positional.value_lt (by decide) hwhole.2).trans_le ?_
    exact (Nat.pow_le_pow_right (by decide) hwhole.1).trans (by decide)
  cases h with
  | behind hexponent hroom =>
    refine ⟨by simpa using hroom, fun d hd => ?_⟩
    rcases List.mem_append.1 hd with hd | hd
    · exact hlt d hd
    · rw [List.eq_of_mem_replicate hd]
      decide
  | among hdigits hbefore hafter hexponent hroom =>
    exact ⟨hroom, fun d hd => hlt d (hdigits ▸ List.mem_append_left _ hd)⟩
  | before hexponent => exact ⟨by simp, by simp⟩
  | mark hdigits hexponent =>
    exact ⟨by simp, fun d hd => hlt d (by rw [hdigits, List.mem_singleton.1 hd]; simp)⟩

/-- What is written is proper, unless there are zeros behind a zero.

**Proof sketch.** By the ways of writing: the digits in front of the point are those of the number,
which begin with zero only if it is zero, or a single zero. -/
lemma Writes.isProper (h : Writes negative digits exponent n) (hlt : ∀ d ∈ digits, d < 10)
    (hne : digits ≠ []) (hcanonical : ¬ (digits.head? = some 0 ∧ digits ≠ [0]))
    (hzero : digits = [0] → exponent = 0) : n.IsProper := by
  have hzeros : ∀ zeros, ∀ d ∈ List.replicate zeros 0, d < 10 := fun zeros d hd => by
    rw [List.eq_of_mem_replicate hd]
    decide
  cases h with
  | @behind zeros hexponent hroom =>
    refine ⟨List.append_ne_nil_of_left_ne_nil hne _, List.forall_mem_append.2 ⟨hlt, hzeros _⟩,
      fun ⟨hhead, hwhole⟩ => ?_, by simp, nofun⟩
    rw [List.head?_append_of_ne_nil _ hne] at hhead
    -- zeros are only put behind digits, so a zero in front is that of the digits
    have hdigits : digits = [0] := not_not.1 fun hdigits => hcanonical ⟨hhead, hdigits⟩
    obtain rfl : zeros = 0 := by
      have := hzero hdigits
      omega
    exact hwhole (by simpa using hdigits)
  | @among before after hdigits hbefore hafter hexponent hroom =>
    rw [hdigits] at hlt hcanonical
    obtain ⟨hltb, hlta⟩ := List.forall_mem_append.1 hlt
    refine ⟨hbefore, hltb, fun ⟨hhead, hwhole⟩ => hcanonical ⟨?_, fun hsingle => ?_⟩, hlta, nofun⟩
    · rwa [List.head?_append_of_ne_nil _ hbefore]
    · have hlength := congrArg List.length hsingle
      have := List.length_pos_of_ne_nil hbefore
      have := List.length_pos_of_ne_nil hafter
      rw [List.length_append, List.length_singleton] at hlength
      omega
  | before hexponent =>
    exact ⟨by simp, by simp, by simp, List.forall_mem_append.2 ⟨hzeros _, hlt⟩, nofun⟩
  | @mark first rest hdigits sign k hexponent =>
    rw [hdigits] at hlt
    obtain ⟨hfirst, hrest⟩ := List.forall_mem_cons.1 hlt
    refine ⟨by simp, by simpa using hfirst, by simp, hrest, fun sign' ds hds => ?_⟩
    cases hds
    exact ⟨Positional.numeral_ne_nil (by decide) k, Positional.lt_of_mem_numeral (by decide) k⟩

end Writes

/-! ## What numerals are read as -/

/-- Digits are absorbed to their end if the number that they lead to has 64 bits. -/
lemma absorb_of_lt (s : ℕ) (ds : List ℕ) (h : ds.foldl (fun n d => n * 10 + d) s < 2 ^ 64) :
    absorb s ds = (ds.foldl (fun n d => n * 10 + d) s, ds.length) := by
  induction ds generalizing s with
  | nil => rfl
  | cons d ds ih =>
    rw [List.foldl_cons] at h
    have hle := Positional.le_foldl_digits (by decide : 0 < 10) (s * 10 + d) ds
    rw [absorb, if_pos (hle.trans_lt h), ih (s * 10 + d) h, List.foldl_cons, List.length_cons]

/-- Digits that are not absorbed are lost: they count as zeros. -/
lemma absorb_le (s : ℕ) (ds : List ℕ) : ∃ rest, ds.length = (absorb s ds).2 + rest ∧
    (absorb s ds).1 * 10 ^ rest ≤ ds.foldl (fun n d => n * 10 + d) s := by
  induction ds generalizing s with
  | nil => exact ⟨0, rfl, by simp [absorb]⟩
  | cons d ds ih =>
    rw [absorb, List.length_cons, List.foldl_cons]
    split_ifs with hlt
    · obtain ⟨rest, hlength, hle⟩ := ih (s * 10 + d)
      refine ⟨rest, ?_, hle⟩
      change ds.length + 1 = (absorb (s * 10 + d) ds).2 + 1 + rest
      omega
    · refine ⟨ds.length + 1, (zero_add _).symm, ?_⟩
      rw [Positional.foldl_digits, pow_succ]
      nlinarith [Nat.zero_le (d * 10 ^ ds.length), Nat.zero_le (Positional.value 10 ds)]

/-- A numeral is read as a significand of 64 bits that is scaled, and does not become larger by
this.

**Proof sketch.** The digits of the whole part fit into 64 bits, so all of them are absorbed. Of
those behind the point as many are absorbed as fit, and leaving out the others makes the number no
larger. -/
lemma exists_scale {n : Numeral} (h : Positional.value 10 n.whole < 2 ^ 64) :
    ∃ (significand : ℕ) (exponent : ℤ),
      n.toDouble? = ((scale (Double.ofNat significand) exponent).map fun x =>
        if n.negative then x.neg else x) ∧
      (significand : ℚ) * 10 ^ exponent ≤ n.magnitude := by
  have hten : (10 : ℚ) ≠ 0 := by norm_num
  have hwhole := absorb_of_lt 0 n.whole h
  obtain ⟨rest, hlength, hle⟩ := absorb_le (Positional.value 10 n.whole) n.fraction
  set read := absorb (Positional.value 10 n.whole) n.fraction with hread
  refine ⟨read.1, n.exponentValue - read.2, ?_, ?_⟩
  · have hexponent : ((n.whole.length - n.whole.length : ℕ) : ℤ) - read.2 + n.exponentValue =
        n.exponentValue - read.2 := by omega
    rw [← hexponent, hread]
    unfold toDouble?
    rw [hwhole]
    rfl
  · have hdigits : (read.1 : ℚ) * 10 ^ rest ≤ Positional.value 10 (n.whole ++ n.fraction) := by
      rw [Positional.value_append, ← Positional.foldl_digits]
      exact_mod_cast hle
    have hexponent : n.exponentValue - read.2 = rest + (n.exponentValue - n.fraction.length) := by
      omega
    rw [magnitude, hexponent, zpow_add₀ hten, zpow_natCast, ← mul_assoc]
    gcongr

/-- There always is a result if a power of ten is divided out. -/
lemma isSome_scale_of_neg (x : Double) {exponent : ℤ} (h : exponent < 0) :
    (scale x exponent).isSome := by
  fun_induction scale x exponent with
  | case1 x exponent hsmall hnonneg y hinfinite => omega
  | case2 x exponent hsmall hnonneg y hfinite => rfl
  | case3 x exponent hsmall hneg => rfl
  | case4 x exponent hlarge hzero => rfl
  | case5 x exponent hlarge hzero hnonneg => omega
  | case6 x exponent hlarge hzero hneg ih => exact ih (by omega)

/-- Below the largest double, this leaves room for two errors of rounding. -/
def room : ℚ := (2 ^ 53 - 6) * 2 ^ (971 : ℤ)

/-- Two errors of rounding, one after the other, do not reach beyond the largest double. -/
lemma room_mul_lt : room * (1 + 2 ^ (-52 : ℤ)) * (1 + 2 ^ (-52 : ℤ)) < Double.largest := by
  have hpow : (0 : ℚ) < 2 ^ (971 : ℤ) := by positivity
  unfold room Double.largest
  generalize (2 : ℚ) ^ (971 : ℤ) = p at hpow ⊢
  norm_num
  linarith

/-- The bound is itself below the largest double. -/
lemma room_lt : room < Double.largest := by
  have hpow : (0 : ℚ) < 2 ^ (971 : ℤ) := by positivity
  unfold room Double.largest
  gcongr
  norm_num

/-- A natural number of units is a rational one. -/
lemma cast_mul_two_pow (m k : ℕ) : ((m * 2 ^ k : ℕ) : ℚ) = m * 2 ^ (k : ℤ) := by
  rw [Nat.cast_mul, Nat.cast_pow, Nat.cast_two, zpow_natCast]

/-- The powers of ten by which numbers are scaled are doubles. -/
lemma pow_lt {k : ℕ} (h : k ≤ 308) : ((10 ^ k : ℕ) : ℚ) < Double.largest := by
  have hmost : 10 ^ 308 < 9007199254740991 * 2 ^ 971 := by decide +kernel
  have hle : 10 ^ k ≤ 10 ^ 308 := by
    gcongr
    decide
  have hlargest : ((9007199254740991 * 2 ^ 971 : ℕ) : ℚ) = Double.largest := by
    have hunits : ((9007199254740991 : ℕ) : ℚ) = 2 ^ 53 - 1 := by norm_num
    rw [cast_mul_two_pow, hunits, Double.largest, Nat.cast_ofNat]
  rw [← hlargest]
  exact Nat.cast_lt.2 (hle.trans_lt hmost)

/-- Larger ones are out of reach. -/
lemma room_lt_pow {k : ℕ} (h : 308 < k) : room < (10 ^ k : ℕ) := by
  have hle : 10 ^ 309 ≤ 10 ^ k := by
    gcongr
    · decide
    · exact h
  have hleast : 9007199254740986 * 2 ^ 971 < 10 ^ 309 := by decide +kernel
  have hroom : ((9007199254740986 * 2 ^ 971 : ℕ) : ℚ) = room := by
    have hunits : ((9007199254740986 : ℕ) : ℚ) = 2 ^ 53 - 6 := by norm_num
    rw [cast_mul_two_pow, hunits, room, Nat.cast_ofNat]
  rw [← hroom]
  exact Nat.cast_lt.2 (hleast.trans_le hle)

/-- **Scaling** a significand succeeds if the result leaves room below the largest double.

**Proof sketch.** A negative exponent divides, which always succeeds. Otherwise the power of ten is
one that there is, and the significand and it are rounded with an error each for which the bound
leaves room; or the power is beyond the bound, and the significand is zero. -/
theorem isSome_scale {s : ℕ} {exponent : ℤ} (h : (s : ℚ) * 10 ^ exponent ≤ room) :
    (scale (Double.ofNat s) exponent).isSome := by
  by_cases hneg : exponent < 0
  · exact isSome_scale_of_neg _ hneg
  obtain ⟨k, rfl⟩ := Int.eq_ofNat_of_zero_le (not_lt.1 hneg)
  have hpow : ((10 ^ k : ℕ) : ℚ) = 10 ^ k := by
    push_cast
    rfl
  rw [zpow_natCast, ← hpow] at h
  rw [scale, Int.natAbs_natCast]
  by_cases hk : k ≤ 308
  · have hone : (1 : ℚ) ≤ (10 ^ k : ℕ) := hpow ▸ one_le_pow₀ (by norm_num)
    have hs : (s : ℚ) ≤ s * (10 ^ k : ℕ) := le_mul_of_one_le_right (Nat.cast_nonneg s) hone
    have hpower := Double.atMost_ofNat (pow_lt hk)
    have hroom := Double.atMost_ofNat ((hs.trans h).trans_lt room_lt)
    have hfinite := hroom.isInfinite_mul hpower <| by
      refine lt_of_le_of_lt ?_ room_mul_lt
      rw [mul_mul_mul_comm, ← mul_assoc]
      gcongr
    rw [if_pos hk, if_pos (Int.natCast_nonneg k)]
    simp [powerOfTen, hfinite]
  · rcases Nat.eq_zero_or_pos s with rfl | hs
    · have hzero : (Double.ofNat 0).isZero = true := by decide
      rw [if_neg hk, if_pos hzero]
      rfl
    · refine absurd h (not_le.2 ((room_lt_pow (not_le.1 hk)).trans_le ?_))
      have : (1 : ℚ) ≤ s := by exact_mod_cast hs
      exact le_mul_of_one_le_left (by positivity) this

/-! ## Doubles -/

/-- The digits of all but the six largest doubles leave room.

**Proof sketch.** Half a unit is no more than one, and one unit more still fits. Units of the
largest power leave room if they are few enough; units of a smaller power all do, since two of them
make a larger one. -/
lemma le_room {m : ℕ} {e : ℤ} (hm : m < 2 ^ 53) (he : e ≤ 971)
    (h : e ≤ 970 ∨ m < 9007199254740986) : ((m : ℚ) + 1 / 2) * 2 ^ e ≤ room := by
  unfold room
  rcases h with h | h
  · have hm' : (m : ℚ) + 1 ≤ 2 ^ 53 := by exact_mod_cast hm
    have hpow : (2 : ℚ) ^ (971 : ℤ) = 2 * 2 ^ (970 : ℤ) := by
      rw [← zpow_one_add₀ two_ne_zero]
      norm_num
    calc ((m : ℚ) + 1 / 2) * 2 ^ e
      _ ≤ ((2 ^ 53 - 6) * 2) * 2 ^ (970 : ℤ) := by
        gcongr
        · linarith
        · norm_num
      _ = (2 ^ 53 - 6) * 2 ^ (971 : ℤ) := by rw [hpow, mul_assoc]
  · have hm' : (m : ℚ) + 1 ≤ 9007199254740986 := by exact_mod_cast h
    gcongr
    · linarith
    · norm_num

/-- The six largest doubles, whose digits may leave too little room. -/
lemma isSome_toDouble?_largest : ∀ i < 6, ∀ negative, (toDouble? (ofDecimal negative
    (Decimal.shortest Double.format .even (9007199254740991 - i) 971))).isSome := by
  decide +kernel

/-- A numeral with few digits in front of the point is read if there is room for its value. -/
lemma isSome_toDouble? {n : Numeral} (hwhole : Positional.value 10 n.whole < 2 ^ 64)
    (hroom : n.magnitude ≤ room) : n.toDouble?.isSome := by
  obtain ⟨significand, exponent, hread, hle⟩ := exists_scale hwhole
  rw [hread, Option.isSome_map]
  exact isSome_scale (hle.trans hroom)

/-- The shortest digits of a double are written as a proper numeral, which is read.

**Proof sketch.** Reading a numeral rounds twice, and each time by no more than a unit in the last
place. The digits of all but the six largest doubles leave room for this below the largest one, and
those of the others are read one by one. -/
lemma ofDecimal_shortest (negative : Bool) {m : ℕ} {e : ℤ} (hm : m < 2 ^ 53) (he : e ≤ 971) :
    (ofDecimal negative (Decimal.shortest Double.format .even m e)).IsProper ∧
      (ofDecimal negative (Decimal.shortest Double.format .even m e)).toDouble?.isSome := by
  obtain ⟨hzero, hle⟩ := Decimal.shortest_spec Double.format .even m e
  have hwrites := writes_ofDecimal negative (Decimal.shortest Double.format .even m e)
  have hlt := Positional.lt_of_mem_numeral (by decide : 2 ≤ 10)
    (Decimal.shortest Double.format .even m e).significand
  have hvalue := Positional.value_numeral (by decide : 2 ≤ 10)
    (Decimal.shortest Double.format .even m e).significand
  refine ⟨hwrites.isProper hlt (Positional.numeral_ne_nil (by decide) _)
    (Positional.numeral_canonical (by decide) _) fun hnumeral => hzero ?_, ?_⟩
  · rw [hnumeral] at hvalue
    exact hvalue.symm
  by_cases hlow : e ≤ 970 ∨ m < 9007199254740986
  · refine isSome_toDouble? (hwrites.value_whole_lt hlt) ?_
    rw [hwrites.magnitude_eq, hvalue]
    exact hle.trans (le_room hm he hlow)
  · obtain rfl : e = 971 := by omega
    have hlargest := isSome_toDouble?_largest (9007199254740991 - m) (by omega) negative
    rwa [show 9007199254740991 - (9007199254740991 - m) = m by omega] at hlargest

/-- **Doubles are written and read.** A finite double is written as a proper numeral, and what is
written is read as some double.

**Proof sketch.** Zero is written as `0.0`. Any other finite double is written by its shortest
decimal, which is a proper numeral and is read as some double. -/
theorem exists_ofDouble? {x : Double} (h : x.isFinite = true) :
    ∃ n, ofDouble? x = some n ∧ n.IsProper ∧ n.toDouble?.isSome := by
  unfold Double.isFinite at h
  unfold ofDouble?
  cases hquantity : x.quantity with
  | infinite negative => simp [hquantity] at h
  | nan => simp [hquantity] at h
  | finite negative m e =>
    obtain ⟨hm, he⟩ := Double.quantity_bounds hquantity
    dsimp only
    split_ifs with hzero
    · refine ⟨_, rfl, ⟨by simp, by simp, by simp, by simp, nofun⟩, isSome_toDouble? ?_ ?_⟩
      · change Positional.value 10 [0] < 2 ^ 64
        decide
      · have hnone : Positional.value 10 ([0] ++ [0]) = 0 := rfl
        rw [magnitude, hnone, Nat.cast_zero, zero_mul]
        have hroom := le_room (m := 0) (e := 0) (by decide) (by decide) (by decide)
        exact le_trans (by positivity) hroom
    · exact ⟨_, rfl, ofDecimal_shortest negative hm he⟩

end Numeral

end Concordance
