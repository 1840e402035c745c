import Concordance.RecordFile.Search

set_option relaxedAutoImplicit false
set_option autoImplicit false

/-!
# Looking at files from outside

What someone sees who reads a file as a text, and how a file is changed by hand, without regard to
its lines.

## Main definitions

* `Concordance.Snapshot` — a file as a text.
* `Concordance.RecordFile.snapshot?` — what is stored under a file's name, as a text.
* `Concordance.RecordFile.patch` — a file with one passage replaced.
-/

namespace Concordance

/-- A file as a text. -/
structure Snapshot where
  /-- The number of bytes. -/
  size : Nat
  /-- The bytes of the first line, line feed included. -/
  width : Nat
  /-- The lines without the blanks at their ends. -/
  lines : List String
  deriving DecidableEq, Repr

namespace Snapshot

/-- The lines of a text. A carriage return in front of a line feed belongs to the line break. -/
def textLines : List Char → List (List Char)
  | [] => []
  | '\n' :: rest => [] :: textLines rest
  | '\r' :: '\n' :: rest => [] :: textLines rest
  | c :: rest =>
    match textLines rest with
    | [] => [[c]]
    | line :: lines => (c :: line) :: lines

/-- A line without the blanks at its end. -/
def trimmed (line : List Char) : String :=
  String.ofList (line.reverse.dropWhile (· = ' ')).reverse

/-- The text that bytes encode, looked at as a file. -/
def ofBytes? (bytes : Bytes) : Option Snapshot := do
  let text ← Bytes.toText? bytes
  let width := ((bytes.findIdx? (· = Bytes.lineFeed)).map (· + 1)).getD bytes.length
  return ⟨bytes.length, width, (textLines text).map trimmed⟩

end Snapshot

/-- The bytes with the first occurrence of a passage replaced, if it occurs. -/
def Bytes.replaceFirst? (passage replacement : Bytes) : Bytes → Option Bytes
  | [] => if passage = [] then some replacement else none
  | b :: rest =>
    if passage.isPrefixOf (b :: rest) then some (replacement ++ (b :: rest).drop passage.length)
    else (replaceFirst? passage replacement rest).map (b :: ·)

namespace RecordFile

variable {R : Type}

/-- What is stored under a file's name, as a text. -/
def snapshot? (file : RecordFile R) : Option Snapshot := file.contents.bind Snapshot.ofBytes?

/-- What is stored under a file's name. -/
def named (file : RecordFile R) : Except Error Bytes :=
  match file.contents with
  | some bytes => .ok bytes
  | none => .error .inaccessibleFile

/-- Replaces a passage of a file, and tells whether it occurs. -/
def patch (passage replacement : Bytes) : Op R Bool := fun file =>
  match file.named with
  | .error e => .error e file
  | .ok bytes =>
    match Bytes.replaceFirst? passage replacement bytes with
    | some bytes => .ok true (file.replaceContents bytes)
    | none => .ok false file

/-- Takes away a file's name, if there is a file. -/
def discard : Op R Unit := fun file =>
  if file.fileExists then .ok () file.unlink else .error .inaccessibleFile file

end RecordFile

end Concordance
