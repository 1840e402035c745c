import Concordance.Bytes
import Concordance.Error
import Concordance.Record.Basic

set_option relaxedAutoImplicit false
set_option autoImplicit false

/-!
# Record files

A record file is a sorted file of records. Every line has the same width: the record, blanks up
to one byte before the width, and a line feed. So line `i` starts at byte `i * width`, and a
record is found by binary search.

The file under its name and the file behind an open handle are the same file until someone takes
the name away; from then on the handle keeps working on a file without a name, while everything
that goes by the name no longer sees it.

## Main definitions

* `Concordance.RecordFile` — a record file and the handle on it.
* `Concordance.RecordFile.Op` — an operation that may change the file and may fail.
* `Concordance.RecordFile.bytes` — what is in the open file.
* `Concordance.RecordFile.writeAt`, `setLength` — the two ways to change it.
* `Concordance.RecordFile.openIn`, `close`, `create`, `truncate` — opening and emptying.
-/

namespace Concordance

/-- What a file is opened for. -/
inductive Mode
  | read
  | readWrite
  deriving DecidableEq, Repr

/-- A handle on an open file. -/
structure Handle where
  mode : Mode
  /-- The bytes of the open file if it has lost its name since it was opened. -/
  detached : Option Bytes := none
  deriving DecidableEq, Repr

/-- A record file: its name, its line widths, what is stored under its name, and the handle if it
is open. -/
structure RecordFile (R : Type) where
  name : String
  /-- The width that an empty file starts with. -/
  minWidth : Nat
  /-- The width of its lines. -/
  width : Nat
  /-- What is stored under the name; nothing if there is no such file. -/
  contents : Option Bytes
  handle : Option Handle := none

namespace RecordFile

variable {R : Type}

/-- An operation that may change the file and may fail; what it changed before it failed stays
changed. -/
abbrev Op (R : Type) := EStateM Error (RecordFile R)

/-- The smallest width there can be: room for two braces and a line feed. -/
def leastWidth : Nat := 3

/-- A record file that is not open, over what is stored under its name. -/
def new (name : String) (minWidth : Nat) (contents : Option Bytes) : RecordFile R where
  name
  minWidth := max minWidth leastWidth
  width := max minWidth leastWidth
  contents

/-- Whether a file can have this name: names have at most 255 bytes and lead to no other
directory. -/
def usableName (name : String) : Bool :=
  name.toList.all (fun c => c ≠ '/' && c ≠ '\x00') && name.utf8ByteSize ≤ 255

/-- Whether a handle is open. -/
def isOpen (file : RecordFile R) : Bool := file.handle.isSome

/-- Whether there is a file under the name. -/
def fileExists (file : RecordFile R) : Bool := file.contents.isSome

/-- What is in the file behind a handle. -/
def behind (file : RecordFile R) (handle : Handle) : Bytes :=
  match handle.detached with
  | some bytes => bytes
  | none => file.contents.getD []

/-- What is in the open file. -/
def bytes (file : RecordFile R) : Except Error Bytes :=
  match file.handle with
  | some handle => .ok (file.behind handle)
  | none => .error (.notOpen file.name)

/-- The record file with other bytes behind its handle. -/
def replaceBehind (file : RecordFile R) (handle : Handle) (bytes : Bytes) : RecordFile R :=
  match handle.detached with
  | some _ => { file with handle := some { handle with detached := some bytes } }
  | none => { file with contents := some bytes }

/-- The first `n` bytes, with zeros where there are fewer. -/
def resize (n : Nat) (bytes : Bytes) : Bytes :=
  bytes.take n ++ List.replicate (n - bytes.length) 0

/-- Bytes written over others from a position on. -/
def overwrite (offset : Nat) (data bytes : Bytes) : Bytes :=
  resize offset bytes ++ data ++ bytes.drop (offset + data.length)

/-- Writes bytes into the open file. Writing nothing always succeeds; all else needs a file opened
for writing. -/
def writeAt (offset : Nat) (data : Bytes) : Op R Unit := fun file =>
  match file.handle with
  | none => .error (.notOpen file.name) file
  | some handle =>
    if data = [] then .ok () file
    else match handle.mode with
      | .read => .error .inaccessibleFile file
      | .readWrite =>
        .ok () (file.replaceBehind handle (overwrite offset data (file.behind handle)))

/-- Cuts or extends the open file to a length, which needs a file opened for writing. -/
def setLength (length : Nat) : Op R Unit := fun file =>
  match file.handle with
  | none => .error (.notOpen file.name) file
  | some handle =>
    match handle.mode with
    | .read => .error .inaccessibleFile file
    | .readWrite => .ok () (file.replaceBehind handle (resize length (file.behind handle)))

/-- An operation that only looks at the file. -/
def look {α : Type} (f : RecordFile R → Except Error α) : Op R α := fun file =>
  match f file with
  | .ok a => .ok a file
  | .error e => .error e file

/-- The width of the first line, line feed included; nothing for an empty file. -/
def firstWidth (name : String) (bytes : Bytes) : Except Error (Option Nat) :=
  if bytes = [] then .ok none
  else match bytes.findIdx? (· = Bytes.lineFeed) with
    | some i => .ok (some (i + 1))
    | none => .error (.unterminatedLine name)

/-- Makes an empty file unless there is one. -/
def create : Op R Unit := fun file =>
  if file.contents.isSome then .ok () file
  else if usableName file.name then .ok () { file with contents := some [] }
  else .error .inaccessibleFile file

/-- Opens the file and takes its line width from the first line. Opening for reading needs a
file; opening for writing makes one. When the width cannot be found an earlier handle stays. -/
def openIn (mode : Mode) : Op R Unit := do
  if mode = .readWrite then create
  let file ← get
  match file.contents with
  | none => throw .inaccessibleFile
  | some bytes =>
    let width ← look fun _ => firstWidth file.name bytes
    modify fun file => { file with width := width.getD file.minWidth, handle := some { mode } }

/-- Gives the handle back. -/
def close (file : RecordFile R) : RecordFile R := { file with handle := none }

/-- Empties the file, through the handle if it is open and by its name if not. The width falls
back to the smallest. -/
def truncate : Op R Unit := do
  if (← get).isOpen then setLength 0
  else
    create
    modify fun file => { file with contents := some [] }
  modify fun file => { file with width := file.minWidth }

/-- Takes the file's name away. An open handle keeps the file. -/
def unlink (file : RecordFile R) : RecordFile R :=
  { file with
    contents := none
    handle := file.handle.map fun handle =>
      { handle with detached := some (file.behind handle) } }

/-- Puts other bytes under the file's name, without the handle's knowledge. -/
def replaceContents (bytes : Bytes) (file : RecordFile R) : RecordFile R :=
  { file with contents := some bytes }

end RecordFile

end Concordance
