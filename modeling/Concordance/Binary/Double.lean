import Concordance.Binary.Format

set_option relaxedAutoImplicit false
set_option autoImplicit false

/-!
# Doubles

The numbers that documents hold: the binary format of 64 bits.

## Main definitions

* `Concordance.Double` — a double, by its bits.
* `Concordance.Double.ofDecimal` — the double nearest to a decimal number.
* `Concordance.Double.quantity` — what a double stands for.
-/

namespace Concordance

-- Powers are those of the core library, also where other ones can be found.
attribute [local instance (high)] instPowNat

/-- A double, by its bits. -/
structure Double where
  bits : UInt64
  deriving DecidableEq, Repr

namespace Double

/-- The format of doubles. -/
def format : Binary.Format := ⟨53, 11⟩

/-- The double with given bits. -/
def ofBits (bits : Nat) : Double := ⟨UInt64.ofNat bits⟩

/-- What a double stands for. -/
def quantity (x : Double) : Binary.Quantity := format.decode x.bits.toNat

/-- The double nearest to a natural number. -/
def ofNat (n : Nat) : Double := ofBits (format.ofNat n)

/-- The double nearest to `± significand * 10 ^ exponent`. -/
def ofDecimal (negative : Bool) (significand : Nat) (exponent : Int) : Double :=
  ofBits (format.signed negative
    (format.nearest (significand * 10 ^ exponent.toNat) (10 ^ (-exponent).toNat)))

/-- The undefined result. -/
def nan : Double := ofBits format.undefined

/-- Infinity with a sign. -/
def infinity (negative : Bool) : Double := ofBits (format.signed negative format.infinity)

/-- The rounded product. -/
def mul (x y : Double) : Double := ofBits (format.mul x.bits.toNat y.bits.toNat)

/-- The rounded quotient. -/
def div (x y : Double) : Double := ofBits (format.div x.bits.toNat y.bits.toNat)

/-- The same magnitude with the opposite sign. -/
def neg (x : Double) : Double := ofBits (format.negate x.bits.toNat)

/-- Neither infinite nor undefined. -/
def isFinite (x : Double) : Bool :=
  match x.quantity with
  | .finite .. => true
  | _ => false

/-- Zero of either sign. -/
def isZero (x : Double) : Bool :=
  match x.quantity with
  | .finite _ mantissa _ => mantissa == 0
  | _ => false

/-- Infinite, of either sign. -/
def isInfinite (x : Double) : Bool :=
  match x.quantity with
  | .infinite _ => true
  | _ => false

end Double

end Concordance
