import Concordance.Store.Basic

set_option relaxedAutoImplicit false
set_option autoImplicit false

/-!
# Sessions

Most operations work on open files. Within a session the files stay open; an operation outside a
session opens one for its own duration. A session that may write ends by storing how the set of
typo states has changed.

## Main definitions

* `Concordance.Store.createFiles` — makes the files that are missing.
* `Concordance.Store.openIn`, `commit` — start and end of a session.
* `Concordance.Store.within` — an operation inside a session, which is opened if there is none.
-/

namespace Concordance.Store

open Op

/-- Makes the files that are missing. -/
def createFiles : Op Unit := do
  onDocs RecordFile.create
  onStates RecordFile.create
  onIndexes RecordFile.create

/-- Closes all files. -/
def close (store : Store) : Store :=
  { store with
    docs := store.docs.close
    stateFile := store.stateFile.close
    indexes := store.indexes.map fun _ file => file.close
    session := none }

/-- Opens all files and loads the typo states. -/
def openFiles (mode : Mode) : Op Unit := do
  onDocs (RecordFile.openIn mode)
  onStates (RecordFile.openIn mode)
  onIndexes (RecordFile.openIn mode)
  let records ← look fun store => store.stateFile.scanAll
  modify fun store => { store with states := store.states.load (records.map TypoState.state) }

/-- Starts a session. All files are closed again if one of them cannot be opened. -/
def openIn (mode : Mode) : Op Unit := do
  if (← get).isOpen then throw .alreadyOpen
  if mode = .read then createFiles
  match ← attempt (openFiles mode) with
  | .ok () => modify fun store => { store with session := some mode }
  | .error e =>
    modify close
    throw e

/-- Stores that typo states were added and others removed. -/
def writeStates (added removed : List Nat) : Op Unit := do
  added.forM fun state => onStates (RecordFile.upsert ⟨state⟩ .replace)
  removed.forM fun state => do
    let _ ← onStates (RecordFile.delete (.number state))

/-- Stores how the typo states differ from what is stored. -/
def writeDeltas : Op Unit := do
  let ((added, removed), states) := (← get).states.takeDeltas
  modify fun store => { store with states }
  writeStates added removed

/-- Ends a session. -/
def commit : Op Unit := do
  let store ← get
  if store.session = some .readWrite ∧ store.states.isDirty then writeDeltas
  modify close

/-- Makes sure that a session is open, and tells whether it had to be opened. A session for
reading is no session for writing. -/
def ensureOpen (mode : Mode) : Op Bool := do
  match (← get).session with
  | none =>
    openIn mode
    return true
  | some .read =>
    if mode = .readWrite then throw .readOnlySession
    return false
  | some .readWrite => return false

/-- Ends a session that was opened for one operation. -/
def release (opened : Bool) : Op Unit := do
  if opened then commit

/-- An operation inside a session, which is opened for it if there is none. If the session cannot
be ended, that is the error, whatever came of the operation. -/
def within {α : Type} (mode : Mode) (op : Op α) : Op α := do
  let opened ← ensureOpen mode
  let result ← attempt op
  release opened
  match result with
  | .ok a => return a
  | .error e => throw e

end Concordance.Store
