import Concordance.Binary.Double
import Concordance.Decimal.Shortest
import Concordance.Positional

set_option relaxedAutoImplicit false
set_option autoImplicit false

/-!
# Number notation

How a double is written out for a reader of text. Always the shortest digits that read back are
taken and written positionally, never with an exponent.

## Main definitions

* `Concordance.Decimal.positional` — digits with a point and zeros where they are needed.
* `Concordance.Double.text` — the written form of a double.
-/

namespace Concordance

/-- The digits of a decimal number, the point among them and zeros filled in where it lies
outside: `25` and `-1` give `2.5`, `25` and `1` give `250`, `25` and `-3` give `0.025`. -/
def Decimal.positional (d : Decimal) : List Char :=
  let digits := Positional.decimal d.significand
  if 0 ≤ d.exponent then digits ++ List.replicate d.exponent.toNat '0'
  else
    let places := (-d.exponent).toNat
    if places < digits.length then
      digits.take (digits.length - places) ++ '.' :: digits.drop (digits.length - places)
    else '0' :: '.' :: List.replicate (places - digits.length) '0' ++ digits

/-- The sign of a negative number. -/
def Decimal.sign (negative : Bool) : List Char := if negative then ['-'] else []

/-- A double as text. Of two equally near digits the greater is taken. -/
def Double.text (x : Double) : List Char :=
  match x.quantity with
  | .nan => ['N', 'a', 'N']
  | .infinite negative => Decimal.sign negative ++ ['i', 'n', 'f']
  | .finite negative mantissa exponent =>
    Decimal.sign negative ++
      if mantissa = 0 then ['0']
      else (Decimal.shortest Double.format .up mantissa exponent).positional

end Concordance
