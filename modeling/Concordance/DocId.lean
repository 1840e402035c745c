import Concordance.Error
import Concordance.Positional

set_option relaxedAutoImplicit false
set_option autoImplicit false

/-!
# Document ids

A document id is a text. The ids that the library hands out itself are sequence numbers in base
62, with the digits, the capitals and the small letters as its digits.

## Main definitions

* `Concordance.DocId` — an id.
* `Concordance.DocId.ofText` — an id that a caller chose.
* `Concordance.DocId.ofSequence` — the id of a sequence number.
* `Concordance.DocId.sequence?` — the sequence number of an id.
-/

namespace Concordance

-- Powers are those of the core library, also where other ones can be found.
attribute [local instance (high)] instPowNat

/-- A document id. -/
structure DocId where
  text : String
  deriving DecidableEq, Repr, Inhabited

namespace DocId

/-- The character that separates ids in a posting list. -/
def separator : Char := ','

/-- An id that a caller chose: not empty, and free of the separator. -/
def ofText (text : String) : Except Error DocId :=
  if text.toList = [] then .error .emptyId
  else if separator ∈ text.toList then .error (.separatorInId text)
  else .ok ⟨text⟩

/-- The digits of base 62, in the order of their values. -/
def alphabet : List Char :=
  "0123456789ABCDEFGHIJKLMNOPQRSTUVWXYZabcdefghijklmnopqrstuvwxyz".toList

/-- The digit of value `d` as a character. -/
def digitChar (d : Nat) : Char := alphabet.getD d '0'

/-- The value of a digit. -/
def digitOf? (c : Char) : Option Nat := alphabet.findIdx? (· = c)

/-- A number in base 62. -/
def encode (n : Nat) : String := String.ofList ((Positional.numeral 62 n).map digitChar)

/-- Reads further digits behind the number `n`, which has to stay below `2 ^ 64`. -/
def decodeFrom (n : Nat) : List Char → Option Nat
  | [] => some n
  | c :: rest => do
    let d ← digitOf? c
    if n * 62 + d < 2 ^ (64 : Nat) then decodeFrom (n * 62 + d) rest else none

/-- The number below `2 ^ 64` that a text in base 62 stands for; the empty text is zero. -/
def decode? (text : String) : Option Nat := decodeFrom 0 text.toList

/-- The id of a sequence number. -/
def ofSequence (n : Nat) : DocId := ⟨encode n⟩

/-- The sequence number of an id. -/
def sequence? (id : DocId) : Option Nat := decode? id.text

end DocId

end Concordance
