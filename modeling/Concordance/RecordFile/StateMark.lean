import Concordance.RecordFile.Search
import Concordance.Text.Letters

set_option relaxedAutoImplicit false
set_option autoImplicit false

/-!
# Finding records by typo state

The postings with certain typo states are found without reading every record: the state is the
last member of a posting, so its digits stand right before the closing brace.

## Main definitions

* `Concordance.RecordFile.stateMark?` — the state at the end of a line.
* `Concordance.RecordFile.scanStates` — the records of the lines with given states.
-/

namespace Concordance

-- Powers are those of the core library, also where other ones can be found.
attribute [local instance (high)] instPowNat

namespace RecordFile

/-- The encodings of the blanks of all scripts, the last byte first. -/
def blankEndings : List Bytes :=
  Text.blanks.flatMap fun (low, high) =>
    (List.range (high + 1 - low)).map fun i =>
      (Bytes.ofText [Char.ofNat (low + i)]).reverse

/-- Drops at most `fuel` blanks from the front of bytes that are in reverse. -/
def dropBlanks : Nat → Bytes → Bytes
  | 0, bytes => bytes
  | fuel + 1, bytes =>
    match blankEndings.find? fun ending => ending.isPrefixOf bytes with
    | some ending => dropBlanks fuel (bytes.drop ending.length)
    | none => bytes

/-- What stands before the digits of a state, in reverse. -/
def markStart : Bytes := (Bytes.ofText ['"', 's', '"', ':']).reverse

/-- Whether a byte is a decimal digit. -/
def isDigit (b : UInt8) : Bool := 48 ≤ b && b ≤ 57

/-- The state at the end of a line: digits between the name of the member and the closing brace,
with nothing but blanks behind it. -/
def stateMark? (line : Bytes) : Option Nat :=
  match dropBlanks line.length line.reverse with
  | 125 :: rest =>
    let digits := rest.takeWhile isDigit
    let value := Positional.value 10 (digits.reverse.map fun b => b.toNat - 48)
    if digits ≠ [] && markStart.isPrefixOf (rest.dropWhile isDigit) && value < 2 ^ (64 : Nat) then
      some value
    else none
  | _ => none

variable {R : Type} [Record R]

/-- The records stored under the file's name whose lines end with one of the given states. Without
states the file is not looked at. -/
def scanStates (file : RecordFile R) (states : List Nat) : Except Error (List R) := do
  if states = [] then return []
  let marked := (← file.namedLines).filter fun line => (stateMark? line).any states.contains
  marked.mapM decodeLine

end RecordFile

end Concordance
