import Concordance.Binary.Double
import Concordance.Positional

set_option relaxedAutoImplicit false
set_option autoImplicit false

/-!
# Reading decimal numbers

The double nearest to a decimal number, correctly rounded. Infinity and the undefined number have
names.

## Main definitions

* `Concordance.Double.ofText?` — the double that a text stands for.
-/

namespace Concordance.Decimal

/-- A sign in front of a text, if there is one, and what follows. -/
def readSign : List Char → Bool × List Char
  | '-' :: rest => (true, rest)
  | '+' :: rest => (false, rest)
  | rest => (false, rest)

/-- A number without a sign, of decimal digits only and at least one. -/
def readNat? (text : List Char) : Option Nat :=
  if text = [] then none
  else (text.mapM Positional.digitOf?).map (Positional.value 10)

/-- The exponent that a text starts with the mark of; none at all is the exponent zero. -/
def readExponent? : List Char → Option Int
  | [] => some 0
  | mark :: rest =>
    if mark = 'e' ∨ mark = 'E' then
      let (negative, digits) := readSign rest
      (readNat? digits).map fun n => if negative then -(n : Int) else n
    else none

/-- Whether a character is a decimal digit. -/
def isDigit (c : Char) : Bool := '0' ≤ c && c ≤ '9'

/-- The digits behind a point, if there is one, and what follows. -/
def readFraction : List Char → List Char × List Char
  | '.' :: rest => (rest.takeWhile isDigit, rest.dropWhile isDigit)
  | rest => ([], rest)

/-- The double nearest to a number without a sign, whose sign is given. -/
def readUnsigned? (negative : Bool) (text : List Char) : Option Double := do
  let (fraction, rest) := readFraction (text.dropWhile isDigit)
  let significand ← readNat? (text.takeWhile isDigit ++ fraction)
  let exponent ← readExponent? rest
  return Double.ofDecimal negative significand (exponent - fraction.length)

end Concordance.Decimal

namespace Concordance

/-- The double that a text stands for. -/
def Double.ofText? (text : String) : Option Double :=
  let (negative, rest) := Decimal.readSign text.toList
  let name := rest.map Char.toLower
  if name = "nan".toList then some Double.nan
  else if name = "inf".toList ∨ name = "infinity".toList then some (Double.infinity negative)
  else Decimal.readUnsigned? negative rest

end Concordance
