import Concordance.RecordFile.Search

set_option relaxedAutoImplicit false
set_option autoImplicit false

/-!
# Changing records

## Main definitions

* `Concordance.RecordFile.upsert` — stores a record.
* `Concordance.RecordFile.delete` — removes the record of a key.
* `Concordance.RecordFile.grow` — makes all lines wider.
-/

namespace Concordance

namespace RecordFile

variable {R : Type}

/-- A line of a given width: the record, blanks, and a line feed. -/
def padded (width : Nat) (record : Bytes) : Bytes :=
  record.take (width - 1) ++ List.replicate (width - 1 - record.length) Bytes.blank ++
    [Bytes.lineFeed]

/-- The width that lines grow to so that `needed` bytes fit: a multiple of the smallest width,
with one such multiple to spare. -/
def grownWidth (minWidth needed : Nat) : Nat :=
  minWidth * ((needed + minWidth - 1) / minWidth + 1)

/-- The lines of a file at another width. -/
def widened (width newWidth : Nat) (bytes : Bytes) : Bytes :=
  (Bytes.chunks width bytes).flatMap fun line => padded newWidth (Bytes.trimEnd line)

/-- Writes all lines anew at a width at which `needed` bytes fit. -/
def grow (needed : Nat) : Op R Unit := do
  let file ← get
  let newWidth := grownWidth file.minWidth needed
  let old ← look bytes
  setLength 0
  writeAt 0 (widened file.width newWidth old)
  modify fun file => { file with width := newWidth }

/-- Stores a record: over the one with its key, after merging the two, or else at its place in the
order. Lines grow when the record does not fit. -/
def upsert [Record R] (record : R) (merge : Merge R) : Op R Unit := do
  let (hit, i) ← look fun file => file.search (Record.pattern R (Record.key record))
  let record ← if hit then do
      let existing ← look fun file => file.recordAt i
      pure (merge.apply record existing)
    else pure record
  let payload := Record.line record
  if (← get).width < payload.length + 1 then grow (payload.length + 1)
  let width := (← get).width
  let line := padded width payload
  if hit then writeAt (i * width) line
  else
    let rest := (← look bytes).drop (i * width)
    writeAt (i * width) line
    writeAt (i * width + line.length) rest

/-- Removes the record of a key, and tells whether there was one. -/
def delete [Record R] (key : Key) : Op R Bool := do
  let (hit, i) ← look fun file => file.search (Record.pattern R key)
  if hit then
    let width := (← get).width
    let bytes ← look bytes
    writeAt (i * width) (bytes.drop (i * width + width))
    setLength (bytes.length - width)
    return true
  else return false

end RecordFile

end Concordance
