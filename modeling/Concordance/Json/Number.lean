import Concordance.Binary.Double
import Concordance.Decimal.Shortest
import Concordance.Json.Basic
import Concordance.Positional

set_option relaxedAutoImplicit false
set_option autoImplicit false

/-!
# Numbers in JSON

How doubles and natural numbers are written as numerals, and what numerals stand for.

A double is written with the shortest digits that read back. Reading is fast rather than exact:
as many digits as fit 64 bits make up the significand, and it is scaled by a power of ten with
one rounding more. Whole numbers and short fractions come back unchanged.

## Main definitions

* `Concordance.Numeral.ofDouble?` — a finite double as a numeral.
* `Concordance.Numeral.toDouble?` — the double that a numeral stands for.
* `Concordance.Numeral.ofNat`, `toNat?` — natural numbers.
-/

namespace Concordance

-- Powers are those of the core library, also where other ones can be found.
attribute [local instance (high)] instPowNat

namespace Numeral

/-- A natural number as a numeral. -/
def ofNat (n : Nat) : Numeral := ⟨false, Positional.numeral 10 n, [], none⟩

/-- The natural number below `2 ^ 64` that a numeral stands for: it has no sign, point or
exponent. -/
def toNat? (n : Numeral) : Option Nat :=
  if n.negative ∨ n.fraction ≠ [] ∨ n.exponent.isSome then none
  else
    let value := Positional.value 10 n.whole
    if value < 2 ^ (64 : Nat) then some value else none

/-- A decimal number as a numeral. From `0.00001` up to sixteen whole digits it is written out,
with at least one digit after the point; smaller and larger numbers take an exponent. -/
def ofDecimal (negative : Bool) (d : Decimal) : Numeral :=
  let digits := Positional.numeral 10 d.significand
  let lead : Int := digits.length + d.exponent - 1
  if -5 ≤ lead ∧ lead < 16 then
    if 0 ≤ d.exponent then
      ⟨negative, digits ++ List.replicate d.exponent.toNat 0, [0], none⟩
    else
      let places := (-d.exponent).toNat
      if places < digits.length then
        ⟨negative, digits.take (digits.length - places),
          digits.drop (digits.length - places), none⟩
      else ⟨negative, [0], List.replicate (places - digits.length) 0 ++ digits, none⟩
  else
    ⟨negative, digits.take 1, digits.drop 1,
      some (if lead < 0 then .minus else .plus, Positional.numeral 10 lead.natAbs)⟩

/-- A finite double as a numeral. Of two equally near digits the even one is taken. -/
def ofDouble? (x : Double) : Option Numeral :=
  match x.quantity with
  | .finite negative mantissa exponent =>
    if mantissa = 0 then some ⟨negative, [0], [0], none⟩
    else some (ofDecimal negative (Decimal.shortest Double.format .even mantissa exponent))
  | _ => none

/-- Appends digits to a significand as long as it fits 64 bits. The second component counts the
digits that were appended. -/
def absorb (significand : Nat) : List Nat → Nat × Nat
  | [] => (significand, 0)
  | d :: rest =>
    if significand * 10 + d < 2 ^ (64 : Nat) then
      let (s, n) := absorb (significand * 10 + d) rest
      (s, n + 1)
    else (significand, 0)

/-- The power of ten `10 ^ n`, rounded. -/
def powerOfTen (n : Nat) : Double := Double.ofNat (10 ^ n)

/-- `x * 10 ^ exponent` by a single multiplication or division where the power of ten is a
double; a smaller one is divided out in steps of 308. There is no result beyond the largest
double. -/
def scale (x : Double) (exponent : Int) : Option Double :=
  if exponent.natAbs ≤ 308 then
    if 0 ≤ exponent then
      let y := x.mul (powerOfTen exponent.natAbs)
      if y.isInfinite then none else some y
    else some (x.div (powerOfTen exponent.natAbs))
  else if x.isZero then some x
  else if 0 ≤ exponent then none
  else scale (x.div (powerOfTen 308)) (exponent + 308)
  termination_by exponent.natAbs

/-- The exponent of a numeral as an integer, zero if it has none. -/
def exponentValue (n : Numeral) : Int :=
  match n.exponent with
  | none => 0
  | some (.minus, digits) => -(Positional.value 10 digits : Int)
  | some (_, digits) => Positional.value 10 digits

/-- The double that a numeral stands for. Whole digits that do not fit count as zeros, further
fraction digits are passed over. -/
def toDouble? (n : Numeral) : Option Double :=
  let (whole, taken) := absorb 0 n.whole
  let (significand, places) := absorb whole n.fraction
  let exponent := ((n.whole.length - taken : Nat) : Int) - places + n.exponentValue
  (scale (Double.ofNat significand) exponent).map fun x => if n.negative then x.neg else x

end Numeral

/-- A double as a JSON value; what is not finite becomes null. -/
def Json.ofDouble (x : Double) : Json :=
  match Numeral.ofDouble? x with
  | some n => .number n
  | none => .null

/-- The number of a JSON number without point, sign and exponent. -/
def Json.nat? : Json → Option Nat
  | .number n => n.toNat?
  | _ => none

end Concordance
