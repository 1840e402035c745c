import Concordance.Binary.Double

set_option relaxedAutoImplicit false
set_option autoImplicit false

/-!
# Singles

The numbers that hits are weighed with: the binary format of 32 bits.

## Main definitions

* `Concordance.Single` — a single, by its bits.
* `Concordance.Single.add`, `mul`, `sum` — rounded arithmetic.
* `Concordance.Single.orderKey` — the total order of all bit patterns, as an integer.
-/

namespace Concordance

/-- A single, by its bits. -/
structure Single where
  bits : UInt32
  deriving DecidableEq, Repr

namespace Single

/-- The format of singles. -/
def format : Binary.Format := ⟨24, 8⟩

/-- The single with given bits. -/
def ofBits (bits : Nat) : Single := ⟨UInt32.ofNat bits⟩

/-- The single nearest to a natural number. -/
def ofNat (n : Nat) : Single := ofBits (format.ofNat n)

/-- The single nearest to a double. -/
def ofDouble (x : Double) : Single := ofBits (format.encode x.quantity)

/-- The rounded sum. -/
def add (x y : Single) : Single := ofBits (format.add x.bits.toNat y.bits.toNat)

/-- The rounded product. -/
def mul (x y : Single) : Single := ofBits (format.mul x.bits.toNat y.bits.toNat)

/-- Zero with the sign bit set, which leaves every number unchanged when added to it. -/
def negativeZero : Single := ofBits format.signBit

/-- The sum of several numbers, added one after the other from the left. The empty sum is the
negative zero. -/
def sum (xs : List Single) : Single := xs.foldl add negativeZero

/-- A number's place in the total order of bit patterns: patterns with the sign bit come first,
the larger magnitudes of them before the smaller. -/
def orderKey (x : Single) : Int :=
  if format.signBit ≤ x.bits.toNat then (format.signBit : Int) - x.bits.toNat - 1
  else x.bits.toNat

end Single

end Concordance
