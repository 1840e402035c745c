import Concordance.Decimal.Notation
import Concordance.Json.Number
import Concordance.Json.Printer
import Concordance.OrderedMap

set_option relaxedAutoImplicit false
set_option autoImplicit false

/-!
# Field values

The values that a document's fields hold, their text as it is indexed and searched, and their
form in a stored line.

## Main definitions

* `Concordance.Value` — a text, a number or a truth value.
* `Concordance.Value.text` — what is indexed of a value.
* `Concordance.Value.toJson`, `ofJson?` — the stored form.
* `Concordance.Fields` — the fields of a document.
-/

namespace Concordance

/-- The value of a field. -/
inductive Value
  | text (s : String)
  | number (x : Double)
  | boolean (b : Bool)
  deriving DecidableEq, Repr

/-- The fields of a document by name. -/
abbrev Fields := OrderedMap String Value

/-- What is indexed of a value and searched in it. Zero has no sign there. -/
def Value.asText : Value → String
  | .text s => s
  | .number x => if x.isZero then "0" else String.ofList x.text
  | .boolean true => "true"
  | .boolean false => "false"

/-- A value as it is stored. -/
def Value.toJson : Value → Json
  | .text s => .string (some s.toList)
  | .number x => Json.ofDouble x
  | .boolean b => .bool b

/-- The value that was stored; numbers beyond the largest double, null, arrays and objects are
no values. -/
def Value.ofJson? : Json → Option Value
  | .string chars => chars.map fun s => .text (String.ofList s)
  | .number n => n.toDouble?.map .number
  | .bool b => some (.boolean b)
  | _ => none

/-- The members of a stored object, one for each field. -/
def Fields.toMembers (fields : Fields) : List (Option (List Char) × Json) :=
  fields.entries.map fun (name, value) => (some name.toList, value.toJson)

/-- The fields as a JSON text. -/
def Fields.render (fields : Fields) : String :=
  String.ofList (Json.render (.object fields.toMembers))

end Concordance
