set_option relaxedAutoImplicit false
set_option autoImplicit false

/-!
# JSON values

The values that lines of a record file are made of. Numbers are kept as they are written, since
the same digits are read as an exact natural number in one place and as a double in another.

## Main definitions

* `Concordance.Numeral` — a number as it is written.
* `Concordance.Json` — a value.
* `Concordance.Json.members?`, `valuesOf`, `text?` — access to the parts of a value.
-/

namespace Concordance

/-- How the exponent of a numeral is signed. -/
inductive ExponentSign
  | bare
  | plus
  | minus
  deriving DecidableEq, Repr

/-- A number as it is written: digits before the point, digits after it (none without a point),
and an exponent. -/
structure Numeral where
  negative : Bool
  whole : List Nat
  fraction : List Nat
  exponent : Option (ExponentSign × List Nat)
  deriving DecidableEq, Repr

/-- A JSON value. A string whose escapes spell half of a surrogate pair is well formed but
stands for no text; it is `string none`. -/
inductive Json
  | null
  | bool (value : Bool)
  | number (numeral : Numeral)
  | string (text : Option (List Char))
  | array (items : List Json)
  | object (members : List (Option (List Char) × Json))
  deriving Inhabited

/-- The members of an object by name, if all names are texts. -/
def Json.members? : Json → Option (List (List Char × Json))
  | .object members => members.mapM fun (name, value) => name.map (·, value)
  | _ => none

/-- The values of a name among members. -/
def Json.valuesOf (name : List Char) (members : List (List Char × Json)) : List Json :=
  (members.filter fun member => member.1 = name).map Prod.snd

/-- The text of a JSON string. -/
def Json.text? : Json → Option String
  | .string text => text.map String.ofList
  | _ => none

end Concordance
