import Concordance.Query.Normal
import Concordance.Query.Parser
import Concordance.Search.Evaluate
import Concordance.Store.Change

set_option relaxedAutoImplicit false
set_option autoImplicit false

/-!
# Engines

An engine is the way into a store: it gathers documents until they are flushed, and answers
queries.

## Main definitions

* `Concordance.Engine` — a store, a way of scoring and the documents that wait.
* `Concordance.Engine.start` — an engine over a store, whose files are made if they are missing.
* `Concordance.Engine.reopen` — another engine over the same directory.
* `Concordance.Engine.add`, `addWithId` — one more document that waits.
* `Concordance.Engine.search`, `searchQuery` — the hits of a query.
* `Concordance.Engine.truncate` — drops all documents.
-/

namespace Concordance

/-- A document that waits for the next flush. -/
structure Pending where
  id : DocId
  fields : Fields
  /-- Whether the id follows from the number of documents rather than being chosen. -/
  synthesized : Bool

/-- A store, a way of scoring and the documents that wait. -/
structure Engine where
  store : Store
  scoring : Scoring := {}
  pending : List Pending := []

namespace Engine

/-- An operation that may change an engine and may fail; what it changed before it failed stays
changed. -/
abbrev Op := EStateM Error Engine

variable {α : Type}

/-- An engine over a store, whose files are made if they are missing, and the directory after
that. -/
def start (store : Store) (scoring : Scoring) : Except Error Engine × Directory :=
  match Store.createFiles store with
  | .ok () store => (.ok { store, scoring }, store.directory)
  | .error e store => (.error e, store.directory)

/-- Takes up the directory with another store, and drops the documents that wait. If the store
cannot be made, or its files cannot, the engine stays as it is, over what is then in the
directory. -/
def reopen (make : Directory → Except Error Store) : Op Unit := fun engine =>
  match make engine.store.directory with
  | .error e => .error e engine
  | .ok store =>
    match start store engine.scoring with
    | (.ok other, _) => .ok () other
    | (.error e, directory) => .error e { engine with store := engine.store.withFiles directory }

/-- An operation on the store. -/
def onStore (op : Store.Op α) : Op α := fun engine =>
  match op engine.store with
  | .ok a store => .ok a { engine with store }
  | .error e store => .error e { engine with store }

/-- Something asked of the store in a session of its own unless one is open. -/
def ask (question : Store → Except Error α) : Op α :=
  onStore (Store.within .read (Store.Op.look question))

/-- The number of stored documents. -/
def count : Op Nat := ask fun store => store.docs.total

/-- Whether no documents are stored. -/
def isEmpty : Op Bool := do return (← count) = 0

/-- The fields stored under an id. -/
def load (id : DocId) : Op (Option Fields) := ask fun store => store.fetch id

/-- One more document that waits, under the next sequence number. Its id is provisional: on a
flush it may get that of a document that it replaces, or the next free one. -/
def add (fields : Fields) : Op DocId := do
  let stored ← count
  let id := DocId.ofSequence (stored + (← get).pending.length + 1)
  modify fun engine => { engine with pending := engine.pending ++ [⟨id, fields, true⟩] }
  return id

/-- One more document that waits, under a chosen id. -/
def addWithId (text : String) (fields : Fields) : Op DocId := do
  match DocId.ofText text with
  | .error e => throw e
  | .ok id =>
    modify fun engine => { engine with pending := engine.pending ++ [⟨id, fields, false⟩] }
    return id

/-- The hits of a query, in a session for reading of its own. Documents that hold `phrase` are
flagged. If the session cannot be ended, that is the error only if the query has none. -/
def searchQuery (query : Query) (phrase : String) : Op (List Hit) := do
  let scoring := (← get).scoring
  onStore do
    Store.openIn .read
    let result ← Store.Op.attempt <| Store.Op.look fun store =>
      Search.run ⟨store, scoring, phrase⟩ query
    let ended ← Store.Op.attempt Store.commit
    match result, ended with
    | .ok set, .ok () => return set.hits
    | .ok _, .error e | .error e, _ => throw e

/-- The hits of what a text spells in the query language. -/
def search (text : String) : Op (List Hit) := do
  match Query.parse anyField text with
  | .error e => throw e
  | .ok query => searchQuery query.normalize text

/-- Drops all documents, stored and waiting. -/
def truncate : Op Unit := do
  modify fun engine => { engine with pending := [] }
  onStore Store.truncate

end Engine

end Concordance
