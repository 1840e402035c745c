import Concordance.Store.Lookup
import Concordance.Store.Session

set_option relaxedAutoImplicit false
set_option autoImplicit false

/-!
# Changing a store

## Main definitions

* `Concordance.Store.saveDocument` — stores what is kept of a document.
* `Concordance.Store.saveIndexes`, `removeFromIndexes` — puts an id under the terms of a document,
  and takes it away.
* `Concordance.Store.saveStates` — stores changes of the typo states directly.
* `Concordance.Store.truncate` — empties the store.
-/

namespace Concordance.Store

open Op

/-- Stores what is kept of a document in the place of what was kept under its id. -/
def saveDocument (id : DocId) (fields : Fields) : Op Unit := do
  let store ← get
  look fun store => store.schema.validate fields
  within .readWrite <|
    onDocs (RecordFile.upsert ⟨id.text, store.schema.stored fields⟩ .replace)

/-- The terms under which a value of a field is indexed: the raw tokens if values are unique. -/
def fieldTerms (store : Store) (field : Field) (value : Value) : List String :=
  if field.flags.unique then store.analyzer.rawTerms value.asText
  else store.analyzer.terms value.asText

/-- The typo state of a term of a field; terms of unique fields have none. -/
def stateFor (store : Store) (field : Field) (term : String) : Option Nat :=
  if field.flags.unique then none else some (store.automaton.stateOf term)

/-- The terms under which fields are indexed, each with its field. -/
def indexTerms (store : Store) (fields : Fields) : List (Field × String) :=
  store.schema.indexedFields.flatMap fun field =>
    match fields.get? field.name with
    | some value => (store.fieldTerms field value).map (field, ·)
    | none => []

/-- Puts an id under a term of a field. -/
def addPosting (id : DocId) (field : Field) (term : String) : Op Unit := do
  let state := (← get).stateFor field term
  onIndex field.name (RecordFile.upsert (Posting.of term (.ofList [id]) state) .unite)
  match state with
  | some state => modify fun store => { store with states := store.states.add state }
  | none => pure ()

/-- Puts an id under all terms of the fields of a document. -/
def saveIndexes (id : DocId) (fields : Fields) : Op Unit :=
  within .readWrite do
    ((← get).indexTerms fields).forM fun (field, term) => addPosting id field term

/-- Whether a posting of the given files has a typo state. -/
def carried (store : Store) (state : Nat) :
    List (String × RecordFile Posting) → Except Error Bool
  | [] => return false
  | (field, file) :: rest =>
    if (store.schema.field? field).any fun definition => definition.flags.unique then
      store.carried state rest
    else do
      if (← file.scanStates [state]) = [] then store.carried state rest else return true

/-- Removes a typo state unless some posting has it. -/
def releaseState (state : Nat) : Op Unit := do
  unless ← look fun store => store.carried state store.indexes.entries do
    modify fun store => { store with states := store.states.remove state }

/-- Takes an id from under a term of a field. A posting left without ids goes. -/
def removePosting (id : DocId) (field : Field) (term : String) : Op Unit := do
  match ← onIndex field.name (RecordFile.look fun file => file.get? (.text term)) with
  | none => pure ()
  | some posting =>
    if posting.list.contains id then
      let list := posting.list.remove id
      if list.isEmpty then
        let _ ← onIndex field.name (RecordFile.delete (.text term))
        match posting.state with
        | some state => releaseState state
        | none => pure ()
      else
        onIndex field.name (RecordFile.upsert { posting with ids := list.encode } .replace)

/-- Takes an id from under all terms of the fields of a document. -/
def removeFromIndexes (document : Document) : Op Unit :=
  within .readWrite do
    ((← get).indexTerms document.fields).forM fun (field, term) =>
      removePosting document.id field term

/-- Stores that typo states were added and others removed, without regard to the set in
memory. -/
def saveStates (added removed : List Nat) : Op Unit :=
  within .readWrite (writeStates (OrderedSet.ofList added).keys (OrderedSet.ofList removed).keys)

/-- Empties all files and the set of typo states. A session opened for this stays open if it
fails. -/
def truncate : Op Unit := do
  let opened ← ensureOpen .readWrite
  onDocs RecordFile.truncate
  onStates RecordFile.truncate
  onIndexes RecordFile.truncate
  modify fun store => { store with states := store.states.load [] }
  release opened

end Concordance.Store
