set_option relaxedAutoImplicit false
set_option autoImplicit false

/-!
# Binary floating point formats

The numbers of a binary interchange format as exact rationals, and the one rule by which every
operation arrives at a number of the format: take the exact result and round it to the nearest
number, ties to the one whose last bit is even. All arithmetic is on natural numbers, so that
every operation is a plain total function.

## Main definitions

* `Concordance.Binary.Format` — the precision and exponent width of a format.
* `Concordance.Binary.Quantity` — what a bit pattern stands for.
* `Concordance.Binary.Format.decode` — the quantity of a bit pattern.
* `Concordance.Binary.Format.nearest` — the magnitude bits nearest to a quotient.
* `Concordance.Binary.Format.add`, `mul`, `div` — correctly rounded arithmetic on bit patterns.
-/

namespace Concordance.Binary

-- Powers are those of the core library, also where other ones can be found.
attribute [local instance (high)] instPowNat

/-- A binary format: how many bits a significand has, the leading one included, and how many
bits encode the exponent. -/
structure Format where
  precision : Nat
  exponentWidth : Nat

/-- What a bit pattern stands for. A finite quantity is `± mantissa * 2 ^ exponent`. -/
inductive Quantity
  | finite (negative : Bool) (mantissa : Nat) (exponent : Int)
  | infinite (negative : Bool)
  | nan
  deriving DecidableEq, Repr

namespace Format

variable (f : Format)

/-- The number of bits below the exponent field. -/
def fractionWidth : Nat := f.precision - 1

/-- The exponent of the lowest bit of the smallest numbers. -/
def leastExponent : Int := 3 - 2 ^ (f.exponentWidth - 1) - f.precision

/-- The magnitude bits of infinity: an exponent field of ones and nothing below. -/
def infinity : Nat := (2 ^ f.exponentWidth - 1) * 2 ^ f.fractionWidth

/-- The sign bit. -/
def signBit : Nat := 2 ^ (f.exponentWidth + f.fractionWidth)

/-- The bits of the undefined result: a quiet pattern with the sign bit set. -/
def undefined : Nat := f.signBit + f.infinity + 2 ^ (f.fractionWidth - 1)

/-- Magnitude bits with a sign. -/
def signed (negative : Bool) (magnitude : Nat) : Nat :=
  if negative then f.signBit + magnitude else magnitude

/-- The quantity that a bit pattern stands for. -/
def decode (bits : Nat) : Quantity :=
  let negative := f.signBit ≤ bits
  let fraction := bits % 2 ^ f.fractionWidth
  let field := bits / 2 ^ f.fractionWidth % 2 ^ f.exponentWidth
  if field = 2 ^ f.exponentWidth - 1 then
    if fraction = 0 then .infinite negative else .nan
  else if field = 0 then .finite negative fraction f.leastExponent
  else .finite negative (fraction + 2 ^ f.fractionWidth) (f.leastExponent + field - 1)

/-- The exponent of the lowest bit of the number nearest to `num / den`. With `e` one less than
the difference of the logarithms and the precision, the quotient divided by `2 ^ e` has
`precision` bits or one more; and no exponent lies below the least one. -/
def scaleOf (num den : Nat) : Int :=
  let e : Int := num.log2 - den.log2 - f.precision
  let wide := den <<< (e + f.precision).toNat ≤ num <<< (-(e + f.precision)).toNat
  max f.leastExponent (if wide then e + 1 else e)

/-- The magnitude bits of the number nearest to `num / den`, ties to even. Because the exponent
field sits right above the fraction, carrying out of the fraction steps to the next exponent,
and past the largest number lies infinity. -/
def nearest (num den : Nat) : Nat :=
  if num = 0 then 0 else
    let e := f.scaleOf num den
    let top := num <<< (-e).toNat
    let bottom := den <<< e.toNat
    let quotient := top / bottom
    let rest := top % bottom
    let rounded :=
      if bottom < 2 * rest || (2 * rest == bottom && quotient % 2 == 1) then quotient + 1
      else quotient
    min f.infinity ((e - f.leastExponent).toNat * 2 ^ f.fractionWidth + rounded)

/-- The bits of the number nearest to `± mantissa * 2 ^ exponent`. -/
def ofScaled (negative : Bool) (mantissa : Nat) (exponent : Int) : Nat :=
  f.signed negative (f.nearest (mantissa <<< exponent.toNat) (1 <<< (-exponent).toNat))

/-- The bits of the number nearest to a quantity of any format. -/
def encode : Quantity → Nat
  | .finite negative mantissa exponent => f.ofScaled negative mantissa exponent
  | .infinite negative => f.signed negative f.infinity
  | .nan => f.undefined

/-- The bits of the number nearest to a natural number. -/
def ofNat (n : Nat) : Nat := f.ofScaled false n 0

/-- The sum of two quantities, rounded. An exact zero is positive unless both terms are negative
zeros. -/
def add (a b : Nat) : Nat :=
  match f.decode a, f.decode b with
  | .finite na ma ea, .finite nb mb eb =>
    let e := min ea eb
    let left : Int := ma <<< (ea - e).toNat
    let right : Int := mb <<< (eb - e).toNat
    let total := (if na then -left else left) + (if nb then -right else right)
    if total = 0 then f.signed (na && nb) 0 else f.ofScaled (total < 0) total.natAbs e
  | .infinite na, .infinite nb => if na = nb then a else f.undefined
  | .nan, _ | _, .nan => f.undefined
  | .infinite _, _ => a
  | _, .infinite _ => b

/-- The product of two quantities, rounded. -/
def mul (a b : Nat) : Nat :=
  match f.decode a, f.decode b with
  | .finite na ma ea, .finite nb mb eb => f.ofScaled (na != nb) (ma * mb) (ea + eb)
  | .infinite na, .infinite nb => f.signed (na != nb) f.infinity
  | .infinite na, .finite nb m _ | .finite nb m _, .infinite na =>
    if m = 0 then f.undefined else f.signed (na != nb) f.infinity
  | .nan, _ | _, .nan => f.undefined

/-- The quotient of two quantities, rounded. -/
def div (a b : Nat) : Nat :=
  match f.decode a, f.decode b with
  | .finite na ma ea, .finite nb mb eb =>
    if mb = 0 then if ma = 0 then f.undefined else f.signed (na != nb) f.infinity
    else f.signed (na != nb)
      (f.nearest (ma <<< (ea - eb).toNat) (mb <<< (eb - ea).toNat))
  | .infinite na, .finite nb _ _ => f.signed (na != nb) f.infinity
  | .finite na _ _, .infinite nb => f.signed (na != nb) 0
  | .infinite _, .infinite _ => f.undefined
  | .nan, _ | _, .nan => f.undefined

/-- A bit pattern with the opposite sign. -/
def negate (bits : Nat) : Nat :=
  if f.signBit ≤ bits then bits - f.signBit else f.signBit + bits

end Format

end Concordance.Binary
