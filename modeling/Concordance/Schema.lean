import Concordance.Error
import Concordance.Value

set_option relaxedAutoImplicit false
set_option autoImplicit false

/-!
# Schemas

A schema names the fields of its documents, says how each is treated, and names the analyzer of
their texts.

## Main definitions

* `Concordance.Flags` — how a field is treated.
* `Concordance.Schema` — the fields of a kind of document.
* `Concordance.Schema.addField` — one more field.
* `Concordance.Schema.validate` — whether a document fits.
* `Concordance.Schema.stored` — what is kept of a document.
-/

namespace Concordance

/-- How a field is treated. -/
structure Flags where
  /-- Every document must have the field. -/
  required : Bool := false
  /-- The value is kept with the document. -/
  stored : Bool := false
  /-- The terms of the value can be looked up. -/
  indexed : Bool := false
  /-- The value takes part in phrase matches. -/
  fulltext : Bool := false
  /-- A document with the same value replaces the one before. -/
  unique : Bool := false
  deriving DecidableEq, Repr

/-- The flags as a bit set. -/
def Flags.bits (f : Flags) : Nat :=
  f.required.toNat + 2 * f.stored.toNat + 4 * f.indexed.toNat + 8 * f.fulltext.toNat +
    16 * f.unique.toNat

/-- A field of a schema. -/
structure Field where
  name : String
  flags : Flags
  deriving DecidableEq, Repr

/-- A kind of document. -/
structure Schema where
  name : String
  fields : List Field := []
  analyzer : String := "standard"
  deriving DecidableEq, Repr

namespace Schema

/-- The field called `name`. -/
def field? (schema : Schema) (name : String) : Option Field :=
  schema.fields.find? fun field => field.name = name

/-- The schema with one more field. The name `id` is reserved, and names are not empty and not
repeated. -/
def addField (schema : Schema) (name : String) (flags : Flags) : Except Error Schema :=
  if name = "id" then .error .reservedFieldName
  else if name = "" ∨ (schema.field? name).isSome then .error (.badFieldName name)
  else .ok { schema with fields := schema.fields ++ [⟨name, flags⟩] }

/-- The fields whose terms can be looked up. -/
def indexedFields (schema : Schema) : List Field :=
  schema.fields.filter fun field => field.flags.indexed

/-- The fields that take part in phrase matches. -/
def fulltextFields (schema : Schema) : List Field :=
  schema.fields.filter fun field => field.flags.fulltext

/-- The first number of a document that is not finite, since lines cannot hold it. -/
def nonFinite? (fields : Fields) : Option (String × Double) :=
  fields.entries.findSome? fun
    | (name, .number x) => if x.isFinite then none else some (name, x)
    | _ => none

/-- The first required field that a document lacks. -/
def missing? (schema : Schema) (fields : Fields) : Option Field :=
  schema.fields.find? fun field => field.flags.required && !fields.contains field.name

/-- Whether a document fits the schema: its numbers are finite and no required field is
missing. -/
def validate (schema : Schema) (fields : Fields) : Except Error Unit :=
  match nonFinite? fields with
  | some (name, x) => .error (.nonFiniteNumber name (String.ofList x.text))
  | none =>
    match schema.missing? fields with
    | some field => .error (.missingField field.name fields.render)
    | none => .ok ()

/-- What is kept of a document. -/
def stored (schema : Schema) (fields : Fields) : Fields :=
  OrderedMap.ofList ((schema.fields.filter fun field => field.flags.stored).filterMap fun field =>
    (fields.get? field.name).map fun value => (field.name, value))

end Schema

end Concordance
