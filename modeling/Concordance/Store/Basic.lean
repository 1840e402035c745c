import Concordance.Analysis.Analyzer
import Concordance.Record.Kinds
import Concordance.RecordFile.Change
import Concordance.RecordFile.StateMark
import Concordance.Schema
import Concordance.Typo.Budget

set_option relaxedAutoImplicit false
set_option autoImplicit false

/-!
# Stores

A store keeps the documents of a schema and the means to look them up in a directory: one record
file of documents, one of postings for each indexed field, and one of the typo states that the
postings have. The typo states are kept in memory as well while a session is open.

## Main definitions

* `Concordance.Config` — widths of lines and the settings of typo-tolerant look-up.
* `Concordance.Directory` — files by name.
* `Concordance.Store` — a store.
* `Concordance.Store.new` — the store of a schema over the files of a directory.
* `Concordance.Store.directory` — the files of a store's directory.
* `Concordance.Store.Op` — an operation that may change a store and may fail.
-/

namespace Concordance

/-- The least widths of lines, and the settings of typo-tolerant look-up. -/
structure Config where
  docsWidth : Nat := 256
  indexWidth : Nat := 12
  stateWidth : Nat := 12
  typo : TypoConfig := {}
  deriving DecidableEq, Repr

/-- Files by name. -/
abbrev Directory := OrderedMap String Bytes

/-- A store. -/
structure Store where
  schema : Schema
  analyzer : Analyzer
  docs : RecordFile StoredDocument
  /-- The postings of each indexed field. -/
  indexes : OrderedMap String (RecordFile Posting)
  stateFile : RecordFile TypoState
  /-- The typo states of the postings of the session. -/
  states : StateSet
  automaton : Automaton
  budget : Budget
  /-- What the session is open for, if one is. -/
  session : Option Mode := none
  /-- The files of the directory that belong to other stores. -/
  others : Directory := ∅

namespace Store

/-- The name of the file of documents. -/
def docsName (schema : String) : String := schema ++ "_docs.json"

/-- The name of the file of a field's postings. -/
def indexName (schema field : String) : String := schema ++ "_" ++ field ++ "_index.json"

/-- The name of the file of typo states. -/
def statesName (schema : String) : String := schema ++ "_states.json"

/-- The store of a schema with a given analyzer over the files of a directory. No file is made. -/
def withAnalyzer (schema : Schema) (config : Config) (analyzer : Analyzer)
    (directory : Directory) : Store where
  schema
  analyzer
  docs := .new (docsName schema.name) config.docsWidth (directory.get? (docsName schema.name))
  indexes := OrderedMap.ofList (schema.indexedFields.map fun field =>
    let name := indexName schema.name field.name
    (field.name, .new name config.indexWidth (directory.get? name)))
  stateFile :=
    .new (statesName schema.name) config.stateWidth (directory.get? (statesName schema.name))
  states := .new (Alphabet.ofSize config.typo.alphabetSize)
  automaton := config.typo.automaton
  budget := .new config.typo
  others := directory

/-- The store of a schema, with the analyzer that the schema names. -/
def new (schema : Schema) (config : Config) (directory : Directory) : Except Error Store := do
  return withAnalyzer schema config (← Analyzer.named schema.analyzer) directory

/-- The store with another candidate generator. -/
def withAutomaton (automaton : Automaton) (store : Store) : Store := { store with automaton }

/-- A directory with what is stored under the name of a record file. -/
def put {R : Type} (file : RecordFile R) (directory : Directory) : Directory :=
  match file.contents with
  | some bytes => directory.insert file.name bytes
  | none => directory.erase file.name

/-- The files of a store's directory. -/
def directory (store : Store) : Directory :=
  put store.docs (put store.stateFile
    (store.indexes.values.foldl (fun directory file => put file directory) store.others))

/-- A record file over what a directory holds under its name. -/
def refreshed {R : Type} (directory : Directory) (file : RecordFile R) : RecordFile R :=
  { file with contents := directory.get? file.name }

/-- The store over other files than before. -/
def withFiles (directory : Directory) (store : Store) : Store :=
  { store with
    docs := refreshed directory store.docs
    indexes := store.indexes.map fun _ file => refreshed directory file
    stateFile := refreshed directory store.stateFile
    others := directory }

/-- Whether a session is open. -/
def isOpen (store : Store) : Bool := store.session.isSome

/-- An operation that may change a store and may fail; what it changed before it failed stays
changed. -/
abbrev Op := EStateM Error Store

namespace Op

variable {α : Type}

/-- An operation that only looks at the store. -/
def look (f : Store → Except Error α) : Op α := fun store =>
  match f store with
  | .ok a => .ok a store
  | .error e => .error e store

/-- What an operation comes to, failure included. -/
def attempt (op : Op α) : Op (Except Error α) := fun store =>
  match op store with
  | .ok a store => .ok (.ok a) store
  | .error e store => .ok (.error e) store

/-- An operation on the file of documents. -/
def onDocs (op : RecordFile.Op StoredDocument α) : Op α := fun store =>
  match op store.docs with
  | .ok a docs => .ok a { store with docs }
  | .error e docs => .error e { store with docs }

/-- An operation on the file of typo states. -/
def onStates (op : RecordFile.Op TypoState α) : Op α := fun store =>
  match op store.stateFile with
  | .ok a stateFile => .ok a { store with stateFile }
  | .error e stateFile => .error e { store with stateFile }

/-- An operation on the file of a field's postings. -/
def onIndex (field : String) (op : RecordFile.Op Posting α) : Op α := fun store =>
  match store.indexes.get? field with
  | none => .error (.noIndex field) store
  | some file =>
    match op file with
    | .ok a file => .ok a { store with indexes := store.indexes.insert field file }
    | .error e file => .error e { store with indexes := store.indexes.insert field file }

/-- An operation on the files of all fields' postings, in the order of the fields' names. -/
def onIndexes (op : RecordFile.Op Posting Unit) : Op Unit := do
  (← get).indexes.keys.forM fun field => onIndex field op

end Op

end Store

end Concordance
