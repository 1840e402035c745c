import Concordance.Bytes
import Concordance.Json.Printer
import Concordance.Json.Reader

set_option relaxedAutoImplicit false
set_option autoImplicit false

/-!
# Records

A record is a JSON object on a line of its own. Its key is the first member of the object, so
that all lines with a key start with the same bytes and a file sorted by its lines is sorted by
its keys.

## Main definitions

* `Concordance.Key` — what records are sorted by.
* `Concordance.Record` — the kinds of record.
* `Concordance.Record.line`, `decode?` — a record as bytes and back.
* `Concordance.Record.pattern`, `prefixPattern` — what the lines of one key, or of all keys with
  a common start, begin with.
* `Concordance.Merge` — what happens to a record already stored under the same key.
-/

namespace Concordance

/-- What records are sorted by. A numeric key stands only in records that hold nothing else. -/
inductive Key
  | text (s : String)
  | number (n : Nat)
  deriving DecidableEq, Repr

/-- A kind of record. -/
class Record (R : Type) where
  /-- The name of the member that holds the key. -/
  keyName : List Char
  /-- The key of a record. -/
  key : R → Key
  /-- The object that a record is written as, its key first. -/
  toJson : R → Json
  /-- The record that an object stands for. -/
  ofJson? : Json → Option R
  /-- An incoming record with the ids of an existing one, for records that list ids. -/
  unite : R → R → R := fun incoming _ => incoming

namespace Record

variable {R : Type} [Record R]

/-- The bytes of a record's line, without padding. -/
def line (record : R) : Bytes := Bytes.ofText (toJson record).render

/-- The record on a line, whose end may be padded. -/
def decode? (line : Bytes) : Option R := do
  ofJson? (← Json.read (← Bytes.toText? (Bytes.trimEnd line)))

variable (R)

/-- The bytes that all lines with a key start with. The quote or brace at their end keeps longer
keys out. -/
def pattern (key : Key) : Bytes :=
  Bytes.ofText <| '\x7b' :: Json.quote (keyName R) ++ ':' ::
    match key with
    | .text s => Json.quote s.toList
    | .number n => Positional.decimal n ++ ['\x7d']

/-- The bytes that all lines with a text key beginning with `start` start with: the pattern
without its closing quote. -/
def prefixPattern (start : String) : Bytes := (pattern R (.text start)).dropLast

end Record

/-- What happens to a record already stored under the key of an incoming one. -/
inductive Merge (R : Type)
  /-- The incoming record takes its place. -/
  | replace
  /-- The incoming record takes over its ids. -/
  | unite
  /-- The record computed from the incoming and the existing one takes its place. -/
  | custom (merge : R → R → R)

/-- The record to store for an incoming and an existing one. -/
def Merge.apply {R : Type} [Record R] : Merge R → R → R → R
  | .replace, incoming, _ => incoming
  | .unite, incoming, existing => Record.unite incoming existing
  | .custom merge, incoming, existing => merge incoming existing

end Concordance
