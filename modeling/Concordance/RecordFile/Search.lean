import Concordance.RecordFile.Basic

set_option relaxedAutoImplicit false
set_option autoImplicit false

/-!
# Looking up records

## Main definitions

* `Concordance.RecordFile.search` — binary search for a line that starts with given bytes.
* `Concordance.RecordFile.get?` — the record of a key.
* `Concordance.RecordFile.prefixScan` — the records whose keys start with a text.
* `Concordance.RecordFile.scanAll` — the records of a file in order, found by the file's name and
  its line breaks rather than through the handle and the width.
-/

namespace Concordance

namespace RecordFile

variable {R : Type}

/-- A piece of a file; there must be enough bytes. -/
def readAt (bytes : Bytes) (offset length : Nat) : Except Error Bytes :=
  let piece := (bytes.drop offset).take length
  if piece.length < length then .error .inaccessibleFile else .ok piece

/-- The number of whole lines in the open file. -/
def total (file : RecordFile R) : Except Error Nat := do
  return (← file.bytes).length / file.width

/-- Line `i` of the open file. -/
def lineAt (file : RecordFile R) (i : Nat) : Except Error Bytes := do
  readAt (← file.bytes) (i * file.width) file.width

/-- The record on line `i` of the open file. -/
def recordAt [Record R] (file : RecordFile R) (i : Nat) : Except Error R := do
  match Record.decode? (← file.lineAt i) with
  | some record => return record
  | none => throw .undecodableRecord

/-- Binary search between two lines. Of each line only as many bytes are compared as the pattern
has. -/
def searchBetween (bytes : Bytes) (width : Nat) (pattern : Bytes) (low high : Nat) :
    Except Error (Bool × Nat) :=
  if low < high then do
    let middle := low + (high - low) / 2
    let probe ← readAt bytes (middle * width) (min pattern.length width)
    match compare probe pattern with
    | .eq => return (true, middle)
    | .lt => searchBetween bytes width pattern (middle + 1) high
    | .gt => searchBetween bytes width pattern low middle
  else return (false, low)
  termination_by high - low

/-- Binary search for a line that starts with `pattern`: either such a line, or the place where
one has to be inserted. -/
def search (file : RecordFile R) (pattern : Bytes) : Except Error (Bool × Nat) := do
  searchBetween (← file.bytes) file.width pattern 0 (← file.total)

/-- The record of a key. -/
def get? [Record R] (file : RecordFile R) (key : Key) : Except Error (Option R) := do
  match ← file.search (Record.pattern R key) with
  | (true, i) => return some (← file.recordAt i)
  | (false, _) => return none

/-- The first of the lines just before line `i` that all start with `pattern`. -/
def runStart (file : RecordFile R) (pattern : Bytes) : Nat → Except Error Nat
  | 0 => return 0
  | i + 1 => do
    if pattern.isPrefixOf (← file.lineAt i) then file.runStart pattern i else return i + 1

/-- The records of the next at most `count` lines from line `i` on that all start with
`pattern`. -/
def runFrom [Record R] (file : RecordFile R) (pattern : Bytes) (i : Nat) :
    Nat → Except Error (List R)
  | 0 => return []
  | count + 1 => do
    if pattern.isPrefixOf (← file.lineAt i) then
      let record ← file.recordAt i
      return record :: (← file.runFrom pattern (i + 1) count)
    else return []

/-- The records whose text keys begin with `start`, in order. -/
def prefixScan [Record R] (file : RecordFile R) (start : String) : Except Error (List R) := do
  let pattern := Record.prefixPattern R start
  match ← file.search pattern with
  | (false, _) => return []
  | (true, i) =>
    let first ← file.runStart pattern i
    file.runFrom pattern first ((← file.total) - first)

/-- The lines of a file that are not blank, without the blanks at their ends. -/
def textLines (bytes : Bytes) : List Bytes :=
  ((Bytes.lines bytes).map Bytes.trimEnd).filter (· ≠ [])

/-- The lines stored under the file's name. -/
def namedLines (file : RecordFile R) : Except Error (List Bytes) :=
  match file.contents with
  | some bytes => .ok (textLines bytes)
  | none => .error .inaccessibleFile

/-- The record on a line. -/
def decodeLine [Record R] (line : Bytes) : Except Error R :=
  match Record.decode? line with
  | some record => .ok record
  | none => .error .undecodableRecord

/-- All records stored under the file's name, in order. -/
def scanAll [Record R] (file : RecordFile R) : Except Error (List R) := do
  (← file.namedLines).mapM decodeLine

end RecordFile

end Concordance
