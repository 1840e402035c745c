import Concordance.Engine.Basic

set_option relaxedAutoImplicit false
set_option autoImplicit false

/-!
# Flushing

A flush stores the documents that wait, in one session. All of them are validated first, and none
is stored if one does not fit the schema. A document with the same value in a unique field as a
stored one takes over its id; other documents whose ids were not chosen get free ids.

## Main definitions

* `Concordance.Engine.uniqueMatch` — the stored document that a document replaces by its values.
* `Concordance.Engine.freeId` — the next free id.
* `Concordance.Engine.flush` — stores the documents that wait.
-/

namespace Concordance.Engine

open Store.Op

/-- The unique fields of a document that can be looked up. -/
def uniqueFields (schema : Schema) (fields : Fields) : List Field :=
  schema.fields.filter fun field =>
    field.flags.unique && field.flags.indexed && fields.contains field.name

/-- The ids under all raw tokens of a value; nothing if it has no tokens. -/
def sharing (store : Store) (field : String) (value : Value) :
    Except Error (Option PostingList) := do
  match store.analyzer.rawTerms value.asText with
  | [] => return none
  | tokens => return some (Search.common (← tokens.mapM fun token => store.postings field token))

/-- The first id that shares a value with a document in one of the given fields. -/
def matchIn (store : Store) (fields : Fields) : List Field → Except Error (Option DocId)
  | [] => return none
  | field :: rest =>
    match fields.get? field.name with
    | none => matchIn store fields rest
    | some value => do
      match (← sharing store field.name value).bind fun list => list.ids.head? with
      | some id => return some id
      | none => matchIn store fields rest

/-- The stored document that a document replaces because they share the value of a unique
field. -/
def uniqueMatch (store : Store) (fields : Fields) : Except Error (Option DocId) :=
  matchIn store fields (uniqueFields store.schema fields)

/-- The first id without a stored document, counting up from a given one, among at most
`fuel + 1` ids. -/
def freeFrom (store : Store) : (fuel : Nat) → DocId → Except Error DocId
  | 0, id => return id
  | fuel + 1, id => do
    match ← store.fetch id with
    | none => return id
    | some _ => freeFrom store fuel (DocId.ofSequence ((id.sequence?.map (· + 1)).getD 0))

/-- The first id without a stored document, counting up from a given one. Each id that is taken is
that of another stored document, so there are no more tries than documents and one. -/
def freeId (store : Store) (id : DocId) : Except Error DocId := do
  freeFrom store ((← store.docs.total) + 1) id

/-- The id under which a waiting document is stored. -/
def resolve (store : Store) (pending : Pending) : Except Error DocId := do
  match ← uniqueMatch store pending.fields with
  | some id => return id
  | none => if pending.synthesized then freeId store pending.id else return pending.id

/-- Stores a document in the place of the one under its id. What the replaced document is indexed
under follows from all its fields if it was written by the same flush, and else from what was
kept of it. -/
def replace (written : OrderedMap String Fields) (id : DocId) (fields : Fields) :
    Store.Op Unit := do
  let previous ← match written.get? id.text with
    | some fields => pure (some fields)
    | none => look fun store => store.fetch id
  match previous with
  | some previous => Store.removeFromIndexes ⟨id, previous⟩
  | none => pure ()
  Store.saveDocument id fields
  Store.saveIndexes id fields

/-- Stores documents in order, and tells their ids. `written` holds the fields of what this flush
has already written. -/
def writeBatch (written : OrderedMap String Fields) : List Pending → Store.Op (List DocId)
  | [] => return []
  | pending :: rest => do
    let id ← look fun store => resolve store pending
    replace written id pending.fields
    return id :: (← writeBatch (written.insert id.text pending.fields) rest)

/-- Whether all documents fit the schema. -/
def validateAll (schema : Schema) (batch : List Pending) : Except Error Unit :=
  batch.forM fun pending => schema.validate pending.fields

/-- Stores the documents that wait and tells their ids, in order. None waits afterwards, whatever
came of it. -/
def flush : Op (List DocId) := do
  let batch := (← get).pending
  if batch.isEmpty then return []
  modify fun engine => { engine with pending := [] }
  onStore do
    look fun store => validateAll store.schema batch
    Store.openIn .readWrite
    let result ← attempt (writeBatch ∅ batch)
    let ended ← attempt Store.commit
    match result, ended with
    | .ok ids, .ok () => return ids
    | .ok _, .error e | .error e, _ => throw e

end Concordance.Engine
