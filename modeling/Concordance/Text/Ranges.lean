set_option relaxedAutoImplicit false
set_option autoImplicit false

/-!
# Sets of characters as ranges of code points

The character properties of this library are finite unions of closed ranges of code points,
listed in increasing order. This file fixes the representation and its membership test.

## Main definitions

* `Concordance.Text.Ranges` — an increasing list of closed ranges.
* `Concordance.Text.Ranges.has` — whether a character lies in one of them.
-/

namespace Concordance.Text

/-- Closed ranges of code points in increasing order, no two of them meeting. -/
abbrev Ranges := List (Nat × Nat)

/-- Whether `n` lies in one of the ranges. The search stops at the first range that starts
above `n`, which is right because the ranges increase. -/
def Ranges.contains : Ranges → Nat → Bool
  | [], _ => false
  | (low, high) :: rest, n => if n < low then false else n ≤ high || Ranges.contains rest n

/-- Whether the character `c` lies in one of the ranges. -/
def Ranges.has (ranges : Ranges) (c : Char) : Bool := Ranges.contains ranges c.toNat

end Concordance.Text
