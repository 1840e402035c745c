import Concordance.Store.Basic

set_option relaxedAutoImplicit false
set_option autoImplicit false

/-!
# Looking up documents

What can be asked of a store with open files, without changing it. A look-up of a term runs
against a field or against all fields whose values are not unique, and answers with the ids that
each field contributes.

## Main definitions

* `Concordance.Store.fetch`, `documents` — stored documents by id.
* `Concordance.Store.byTerm`, `byStart`, `byTypo` — the ids of documents with a term, with a term
  that starts like the given one, and with a similar term.
* `Concordance.Store.postings` — the ids stored under a term.
-/

namespace Concordance

/-- The ids that each field contributes. -/
abbrev Matches := OrderedMap String PostingList

/-- The number of ids that all fields contribute together. -/
def Matches.total (found : Matches) : Nat :=
  found.values.foldl (fun total list => total + list.size) 0

/-- A document: an id and fields. -/
structure Document where
  id : DocId
  fields : Fields

namespace Store

/-- The fields stored under an id. -/
def fetch (store : Store) (id : DocId) : Except Error (Option Fields) := do
  return (← store.docs.get? (.text id.text)).map StoredDocument.fields

/-- The documents stored under ids, in the order of the ids. -/
def documents (store : Store) : List DocId → Except Error (List Document)
  | [] => return []
  | id :: ids => do
    match ← store.fetch id with
    | some fields => return ⟨id, fields⟩ :: (← store.documents ids)
    | none => store.documents ids

/-- The ids stored under a term of a file. -/
def postingsIn (file : RecordFile Posting) (term : String) : Except Error PostingList := do
  match ← file.get? (.text term) with
  | some posting => return posting.list
  | none => return .empty

/-- The ids stored under a term of a field, as it is. A field without an index has none. -/
def postings (store : Store) (field term : String) : Except Error PostingList :=
  match store.indexes.get? field with
  | some file => postingsIn file term
  | none => .ok .empty

/-- The key under which a field that was asked for by name is looked up: the raw term in a unique
field, the normalized term in another indexed field. -/
def keyFor (store : Store) (term field : String) : Option String :=
  match store.schema.field? field with
  | some definition =>
    if !definition.flags.indexed then none
    else if definition.flags.unique then some term
    else store.analyzer.normalize term
  | none => none

/-- The fields that a look-up runs against, each with its key: the field asked for, or else all
indexed fields that are not unique. -/
def targets (store : Store) (term : String) (field : Option String) :
    List (String × Option String) :=
  match field.filter (· ≠ "*") with
  | some name => [(name, store.keyFor term name)]
  | none =>
    (store.schema.indexedFields.filter fun field => !field.flags.unique).map fun field =>
      (field.name, store.analyzer.normalize term)

/-- What the targets of a look-up contribute. -/
def collect (targets : List (String × Option String))
    (find : String → Option String → Except Error PostingList) : Except Error Matches := do
  return OrderedMap.ofList (← targets.mapM fun (field, key) => do
    return (field, ← find field key))

/-- The ids of the documents with a term. -/
def byTerm (store : Store) (term : String) (field : Option String) : Except Error Matches :=
  collect (store.targets term field) fun field key =>
    match key with
    | some key => store.postings field key
    | none => .ok .empty

/-- The ids of several postings, in their order. -/
def united (postings : List Posting) : PostingList :=
  postings.foldl (fun list posting => list.union posting.list) .empty

/-- The ids of the documents with a term that starts like the given one. -/
def byStart (store : Store) (start : String) (field : Option String) : Except Error Matches :=
  collect (store.targets start field) fun field key =>
    match key, store.indexes.get? field with
    | some key, some file => return united (← file.prefixScan key)
    | _, _ => return .empty

/-- Whether the terms of a field have typo states. -/
def isTolerant (store : Store) (field : String) : Bool :=
  (store.schema.field? field).any fun definition =>
    definition.flags.indexed && !definition.flags.unique

/-- The ids of the documents with a term at most `limit` edits away from a normalized one, among
the terms with given states. -/
def near (store : Store) (term : String) (limit : Nat) (states : List Nat) (field : String) :
    Except Error PostingList :=
  match store.indexes.get? field with
  | some file =>
    if store.isTolerant field then do
      let candidates ← file.scanStates states
      return united (candidates.filter fun posting => EditDistance.within limit term posting.key)
    else return .empty
  | none => return .empty

/-- The ids of the documents with a term that differs from the given one by no more than the
edits that its length allows. -/
def byTypo (store : Store) (term : String) (field : Option String) : Except Error Matches :=
  match store.analyzer.normalize term with
  | none => .ok ∅
  | some normalized =>
    let limit := store.budget.maxDistance normalized
    if limit = 0 then .ok ∅
    else
      let states := store.automaton.candidates store.states normalized limit
      collect (store.targets term field) fun field _ =>
        store.near normalized limit states field

end Store

end Concordance
