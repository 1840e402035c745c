import Concordance.Proofs.RecordFile.Postings
import Concordance.Proofs.RecordFile.SavedStates
import Concordance.Proofs.Schemas
import Concordance.Proofs.Typo.States
import Concordance.Proofs.Typo.StateSets
import Concordance.Store.Change

set_option relaxedAutoImplicit false
set_option autoImplicit false

/-!
# The files of a store

A store stands for its stored documents, a list of ids under each term of each indexed field, and
the set of saved typo states. An operation on one of its files changes the part that this file
stands for, and nothing else.

## Main definitions

* `Concordance.Store.Setup` — what a store is made for.
* `Concordance.Store.View` — documents and lists of ids.
* `Concordance.Store.Files` — a store's files stand for a view and a set of saved states.
* `Concordance.Store.Listed` — an id is listed under a term in the file of a field.

## Main results

* `Concordance.Store.Files.onDocs`, `onStates`, `onIndex` — a file of a store is replaced.
* `Concordance.Store.Files.onIndexes_ok` — an operation on the files of all fields.
-/

namespace Concordance

namespace Store

/-- What stores are made for: a schema that was built field by field, settings, and an analyzer. -/
structure Setup where
  schema : Schema
  config : Config
  analyzer : Analyzer
  built : schema.Built

namespace Setup

/-- The store over the files of a directory. -/
def store (setup : Setup) (directory : Directory) : Store :=
  withAnalyzer setup.schema setup.config setup.analyzer directory

/-- The letters that typo states are made of. -/
def alphabet (setup : Setup) : Alphabet := .ofSize setup.config.typo.alphabetSize

/-- The typo state of a term of a field; terms of unique fields have none. -/
def stateFor (setup : Setup) (field : Field) (term : String) : Option Nat :=
  if field.flags.unique then none else some (setup.config.typo.automaton.stateOf term)

/-- Typo states have 64 bits. -/
lemma stateFor_lt (setup : Setup) (field : Field) (term : String) (n : Nat)
    (h : setup.stateFor field term = some n) : n < 2 ^ 64 := by
  unfold stateFor at h
  split at h
  · cases h
  · cases h
    exact Automaton.stateOf_lt _ _ _

/-- The least width of the lines of documents. -/
def docsWidth (setup : Setup) : Nat := max setup.config.docsWidth RecordFile.leastWidth

/-- The least width of the lines of postings. -/
def indexWidth (setup : Setup) : Nat := max setup.config.indexWidth RecordFile.leastWidth

/-- The least width of the lines of typo states. -/
def stateWidth (setup : Setup) : Nat := max setup.config.stateWidth RecordFile.leastWidth

end Setup

/-- What is known of a file: nothing, that it is not open and there or can be made, that it is not
open and there, or that it is open. -/
inductive Status
  | unknown
  | ready
  | made
  | opened (mode : Mode)

/-- The mode in which a file is open, if it is. -/
def Status.mode : Status → Option Mode
  | unknown | ready | made => none
  | opened mode => some mode

/-- What is known of a file holds of it. -/
def Status.Of {R : Type} (status : Status) (file : RecordFile R) : Prop :=
  match status with
  | unknown => True
  | ready => file.contents.isSome ∨ RecordFile.usableName file.name = true
  | made | opened _ => file.contents.isSome

/-- What is known of a file once it is closed. -/
def Status.closed : Status → Status
  | unknown => unknown
  | ready => ready
  | made | opened _ => made

/-- A file that is closed is not open in any mode. -/
lemma Status.mode_closed (status : Status) : status.closed.mode = none := by
  cases status <;> rfl

namespace Status.Of

variable {R : Type} {status : Status} {file : RecordFile R}

/-- What is known of a file is known of it when it is closed, but for the handle. -/
lemma close (h : status.Of file) : status.closed.Of file.close := by
  cases status <;> exact h

/-- Only the name of a file and what is stored under it count. -/
lemma congr {other : RecordFile R} (h : status.Of file) (hname : other.name = file.name)
    (hcontents : other.contents = file.contents) : status.Of other := by
  unfold Status.Of at h ⊢
  rw [hname, hcontents]
  exact h

/-- A file of which something is known is there or can be made. -/
lemma isSome_or (h : status.Of file) (hne : status ≠ .unknown) :
    file.contents.isSome ∨ RecordFile.usableName file.name = true := by
  cases status with
  | unknown => exact absurd rfl hne
  | ready => exact h
  | made | opened mode => exact .inl h

/-- A file of which more is known than that it can be made is there. -/
lemma isSome (h : status.Of file) (hne : status ≠ .unknown) (hready : status ≠ .ready) :
    file.contents.isSome := by
  cases status with
  | unknown => exact absurd rfl hne
  | ready => exact absurd rfl hready
  | made | opened mode => exact h

end Status.Of

namespace Setup

/-- A file holds the stored documents. -/
def Docs (setup : Setup) (status : Status) (table : Table StoredDocument)
    (file : RecordFile StoredDocument) : Prop :=
  file.Holds (docsName setup.schema.name) setup.docsWidth status.mode table ∧ status.Of file

/-- A file holds the typo states that are saved. -/
def Saves (setup : Setup) (status : Status) (saved : Set Nat) (file : RecordFile TypoState) :
    Prop :=
  file.Saves (statesName setup.schema.name) setup.stateWidth status.mode saved ∧ status.Of file

/-- A file holds the lists of an indexed field. -/
def Lists (setup : Setup) (field : Field) (status : Status) (lists : String → PostingList)
    (file : RecordFile Posting) : Prop :=
  file.Lists (indexName setup.schema.name field.name) setup.indexWidth status.mode
    (setup.stateFor field) lists ∧ status.Of file

end Setup

/-- What a store stands for: its stored documents, and the ids under the terms of its fields. -/
structure View where
  docs : Table StoredDocument
  lists : String → String → PostingList

/-- Nothing is stored. -/
def View.empty : View := ⟨∅, fun _ _ => .empty⟩

/-- The files of a store stand for a view and a set of saved typo states. Each of them has a status
of its own. -/
structure Files (store : Store) (setup : Setup) (docsStatus statesStatus : Status)
    (indexStatus : String → Status) (view : View) (saved : Set Nat) : Prop where
  schema_eq : store.schema = setup.schema
  analyzer_eq : store.analyzer = setup.analyzer
  automaton_eq : store.automaton = setup.config.typo.automaton
  budget_eq : store.budget = .new setup.config.typo
  alphabet_eq : store.states.alphabet = setup.alphabet
  docs : setup.Docs docsStatus view.docs store.docs
  states : setup.Saves statesStatus saved store.stateFile
  isSome_iff : ∀ name, (store.indexes.get? name).isSome ↔
    ∃ field ∈ setup.schema.indexedFields, field.name = name
  lists : ∀ field ∈ setup.schema.indexedFields, ∀ file, store.indexes.get? field.name = some file →
    setup.Lists field (indexStatus field.name) (view.lists field.name) file

variable {setup : Setup} {store : Store} {docsStatus statesStatus : Status}
  {indexStatus : String → Status} {view : View} {saved : Set Nat}

/-- Indexed fields with one name are one field. -/
lemma Setup.eq_of_name_eq (setup : Setup) {a b : Field} (ha : a ∈ setup.schema.indexedFields)
    (hb : b ∈ setup.schema.indexedFields) (h : a.name = b.name) : a = b :=
  setup.built.eq_of_name_eq (Schema.mem_indexedFields.1 ha).1 (Schema.mem_indexedFields.1 hb).1 h

/-- An id is listed under a term in the file of a field. -/
def Listed (store : Store) (field term : String) (id : DocId) : Prop :=
  ∃ file postings, store.indexes.get? field = some file ∧ file.listed = .ok postings ∧
    ∃ posting ∈ postings, posting.key = term ∧ id ∈ posting.list.ids

/-! ## Single files -/

namespace Files

/-- A file of an indexed field is there. -/
lemma exists_file (h : store.Files setup docsStatus statesStatus indexStatus view saved)
    {field : Field} (hfield : field ∈ setup.schema.indexedFields) :
    ∃ file, store.indexes.get? field.name = some file ∧
      setup.Lists field (indexStatus field.name) (view.lists field.name) file := by
  obtain ⟨file, hfile⟩ := Option.isSome_iff_exists.1 ((h.isSome_iff _).2 ⟨field, hfield, rfl⟩)
  exact ⟨file, hfile, h.lists field hfield file hfile⟩

/-- A file in the directory of a store belongs to an indexed field. -/
lemma exists_field (h : store.Files setup docsStatus statesStatus indexStatus view saved)
    {name : String} {file : RecordFile Posting} (hfile : store.indexes.get? name = some file) :
    ∃ field ∈ setup.schema.indexedFields, field.name = name :=
  (h.isSome_iff name).1 (by rw [hfile]; rfl)

/-- The postings of a field are listed, each under a term of its own. -/
lemma listed (h : store.Files setup docsStatus statesStatus indexStatus view saved) {field : Field}
    (hfield : field ∈ setup.schema.indexedFields) :
    ∃ file postings, store.indexes.get? field.name = some file ∧ file.listed = .ok postings ∧
      postings.Pairwise (fun a b => a.key ≠ b.key) ∧
      ∀ posting, posting ∈ postings ↔ view.lists field.name posting.key ≠ .empty ∧
        posting = .of posting.key (view.lists field.name posting.key)
          (setup.stateFor field posting.key) := by
  obtain ⟨file, hget, hfile⟩ := h.exists_file hfield
  obtain ⟨postings, hlisted, hpairwise, hmem⟩ := hfile.1.listed (setup.stateFor_lt field)
  exact ⟨file, postings, hget, hlisted, hpairwise, hmem⟩

/-- The postings that the file of a field lists have the ids of the view.

**Proof sketch.** What is listed are the lists that are not empty, each under its term; a list with
an id is not empty. -/
lemma mem_postings_iff (h : store.Files setup docsStatus statesStatus indexStatus view saved)
    {field : Field} (hfield : field ∈ setup.schema.indexedFields) {file : RecordFile Posting}
    {postings : List Posting} (hget : store.indexes.get? field.name = some file)
    (hlisted : file.listed = .ok postings) {term : String} {id : DocId} :
    (∃ posting ∈ postings, posting.key = term ∧ id ∈ posting.list.ids) ↔
      id ∈ (view.lists field.name term).ids := by
  have hlists := h.lists field hfield file hget
  obtain ⟨postings', hlisted', -, hmem⟩ := hlists.1.listed (setup.stateFor_lt field)
  obtain rfl := Except.ok.inj (hlisted.symm.trans hlisted')
  constructor
  · rintro ⟨posting, hposting, rfl, hid⟩
    rw [((hmem posting).1 hposting).2, Posting.list_of (hlists.1.plain _)] at hid
    exact hid
  · intro hid
    have hne : view.lists field.name term ≠ .empty := fun hempty =>
      PostingList.eq_empty_iff.1 hempty id hid
    refine ⟨.of term (view.lists field.name term) (setup.stateFor field term),
      (hmem _).2 ⟨hne, rfl⟩, rfl, ?_⟩
    rw [Posting.list_of (hlists.1.plain _)]
    exact hid

/-- Every posting of a store lists some ids, and none of them twice. -/
lemma proper (h : store.Files setup docsStatus statesStatus indexStatus view saved)
    {field : Field} (hfield : field ∈ setup.schema.indexedFields) {file : RecordFile Posting}
    {postings : List Posting} (hget : store.indexes.get? field.name = some file)
    (hlisted : file.listed = .ok postings) {posting : Posting} (hposting : posting ∈ postings) :
    posting.Proper := by
  have hlists := h.lists field hfield file hget
  obtain ⟨postings', hlisted', -, hmem⟩ := hlists.1.listed (setup.stateFor_lt field)
  obtain rfl := Except.ok.inj (hlisted.symm.trans hlisted')
  obtain ⟨hne, heq⟩ := (hmem posting).1 hposting
  rw [heq]
  exact Posting.proper_of (hlists.1.plain _) hne

/-- The files list the ids of the view. -/
lemma listed_iff (h : store.Files setup docsStatus statesStatus indexStatus view saved)
    {field : Field} (hfield : field ∈ setup.schema.indexedFields) {term : String} {id : DocId} :
    store.Listed field.name term id ↔ id ∈ (view.lists field.name term).ids := by
  unfold Listed
  constructor
  · rintro ⟨file, postings, hget, hlisted, hposting⟩
    exact (h.mem_postings_iff hfield hget hlisted).1 hposting
  · intro hid
    obtain ⟨file, postings, hget, hlisted, -⟩ := h.listed hfield
    exact ⟨file, postings, hget, hlisted, (h.mem_postings_iff hfield hget hlisted).2 hid⟩

/-- What a file lists is determined by the lists of its field.

**Proof sketch.** If the field is indexed, both files have what its lists say. Otherwise neither
store has such a file. -/
lemma listed_eq (h : store.Files setup docsStatus statesStatus indexStatus view saved)
    {store' : Store} {docsStatus' statesStatus' : Status} {indexStatus' : String → Status}
    {view' : View} {saved' : Set Nat}
    (h' : store'.Files setup docsStatus' statesStatus' indexStatus' view' saved')
    (hlists : ∀ field ∈ setup.schema.indexedFields, view'.lists field.name = view.lists field.name)
    (name : String) :
    (store'.indexes.get? name).map RecordFile.listed =
      (store.indexes.get? name).map RecordFile.listed := by
  by_cases hindexed : ∃ field ∈ setup.schema.indexedFields, field.name = name
  · obtain ⟨field, hfield, rfl⟩ := hindexed
    obtain ⟨file, hget, hfile⟩ := h.exists_file hfield
    obtain ⟨file', hget', hfile'⟩ := h'.exists_file hfield
    rw [hlists field hfield] at hfile'
    rw [hget, hget', Option.map_some, Option.map_some,
      hfile.1.listed_eq hfile'.1 (setup.stateFor_lt field)]
  · have hnone : ∀ {indexes : OrderedMap String (RecordFile Posting)},
        ((indexes.get? name).isSome ↔ ∃ field ∈ setup.schema.indexedFields, field.name = name) →
          indexes.get? name = none := fun hiff => by
      rw [← Option.not_isSome_iff_eq_none, hiff]
      exact hindexed
    rw [hnone (h.isSome_iff name), hnone (h'.isSome_iff name)]

/-- The file of documents is replaced. -/
lemma onDocs (h : store.Files setup docsStatus statesStatus indexStatus view saved)
    {docs : RecordFile StoredDocument} {status : Status} {table : Table StoredDocument}
    (hdocs : setup.Docs status table docs) :
    ({ store with docs } : Store).Files setup status statesStatus indexStatus
      { view with docs := table } saved :=
  { h with docs := hdocs }

/-- The file of typo states is replaced. -/
lemma onStates (h : store.Files setup docsStatus statesStatus indexStatus view saved)
    {stateFile : RecordFile TypoState} {status : Status} {saved' : Set Nat}
    (hstates : setup.Saves status saved' stateFile) :
    ({ store with stateFile } : Store).Files setup docsStatus status indexStatus view saved' :=
  { h with states := hstates }

/-- The set of typo states is replaced. -/
lemma withStates (h : store.Files setup docsStatus statesStatus indexStatus view saved)
    {states : StateSet} (hstates : states.alphabet = setup.alphabet) :
    ({ store with states } : Store).Files setup docsStatus statesStatus indexStatus view saved :=
  { h with alphabet_eq := hstates }

/-- The session is replaced. -/
lemma withSession (h : store.Files setup docsStatus statesStatus indexStatus view saved)
    (session : Option Mode) :
    ({ store with session } : Store).Files setup docsStatus statesStatus indexStatus view saved :=
  { h with }

/-- The file of a field is replaced.

**Proof sketch.** Looking up another name gives the file from before, since two fields of one name
are the same. -/
lemma onIndex (h : store.Files setup docsStatus statesStatus indexStatus view saved) {field : Field}
    (hfield : field ∈ setup.schema.indexedFields) {file : RecordFile Posting} {status : Status}
    {lists : String → PostingList} (hfile : setup.Lists field status lists file) :
    ({ store with indexes := store.indexes.insert field.name file } : Store).Files setup docsStatus
      statesStatus (Function.update indexStatus field.name status)
        { view with lists := Function.update view.lists field.name lists } saved := by
  refine { h with isSome_iff := fun name => ?_, lists := fun other hother file' hfile' => ?_ }
  · rw [← h.isSome_iff]
    by_cases heq : name = field.name
    · subst heq
      simp [OrderedMap.get?_insert_self, (h.isSome_iff _).2 ⟨field, hfield, rfl⟩]
    · simp [OrderedMap.get?_insert_of_ne heq]
  · by_cases heq : other.name = field.name
    · obtain rfl := setup.eq_of_name_eq hother hfield heq
      obtain rfl : file = file' := by
        simpa [OrderedMap.get?_insert_self] using hfile'
      simpa using hfile
    · simp only [Function.update_of_ne heq]
      refine h.lists other hother file' ?_
      simpa [OrderedMap.get?_insert_of_ne heq] using hfile'

/-- All files are closed over what they stand for.

**Proof sketch.** Closing goes over all files, and what a file stands for does not depend on whether
it is open. -/
lemma close (h : store.Files setup docsStatus statesStatus indexStatus view saved) :
    store.close.Files setup docsStatus.closed statesStatus.closed
      (fun name => (indexStatus name).closed) view saved := by
  have hget : ∀ name, store.close.indexes.get? name =
      (store.indexes.get? name).map RecordFile.close := fun name => OrderedMap.get?_map _ _ name
  refine { h with
    docs := ⟨?_, h.docs.2.close⟩, states := ⟨?_, h.states.2.close⟩, isSome_iff := fun name => ?_,
    lists := fun field hfield file hfile => ?_ }
  · rw [Status.mode_closed]
    exact h.docs.1.close
  · rw [Status.mode_closed]
    exact { h.states.1 with holds := h.states.1.holds.close }
  · rw [hget, Option.isSome_map]
    exact h.isSome_iff name
  · rw [hget] at hfile
    obtain ⟨before, hbefore, rfl⟩ := Option.map_eq_some_iff.1 hfile
    obtain ⟨hlists, hstatus⟩ := h.lists field hfield before hbefore
    refine ⟨?_, hstatus.close⟩
    rw [Status.mode_closed]
    exact { hlists with holds := hlists.holds.close }

end Files

/-! ## Operations on single files -/

open Operation

/-- An operation has left the session and the typo states in memory alone. -/
structure Spares (store store' : Store) : Prop where
  states_eq : store'.states = store.states
  session_eq : store'.session = store.session

/-- Doing nothing leaves the session and the typo states alone. -/
lemma Spares.rfl {store : Store} : store.Spares store := ⟨Eq.refl _, Eq.refl _⟩

/-- Operations that leave them alone do so one after the other. -/
lemma Spares.trans {store store' store'' : Store} (h : store.Spares store')
    (h' : store'.Spares store'') : store.Spares store'' :=
  ⟨h'.states_eq.trans h.states_eq, h'.session_eq.trans h.session_eq⟩

section Run

variable {α : Type}

/-- An operation on the file of documents. -/
lemma Files.runDocs (h : store.Files setup docsStatus statesStatus indexStatus view saved)
    {op : RecordFile.Op StoredDocument α} {a : α} {docs : RecordFile StoredDocument}
    {status : Status} {table : Table StoredDocument} (hrun : op store.docs = .ok a docs)
    (hdocs : setup.Docs status table docs) :
    ∃ store', Op.onDocs op store = .ok a store' ∧ store.Spares store' ∧
      store'.Files setup status statesStatus indexStatus { view with docs := table } saved :=
  ⟨{ store with docs }, by simp [Op.onDocs, hrun], ⟨rfl, rfl⟩, h.onDocs hdocs⟩

/-- An error with the documents that left their file as it was left the store as it was. -/
lemma onDocs_error {op : RecordFile.Op StoredDocument α} {e : Error}
    (h : op store.docs = .error e store.docs) : Op.onDocs op store = .error e store := by
  simp [Op.onDocs, h]

/-- An operation on the file of typo states. -/
lemma Files.runStates (h : store.Files setup docsStatus statesStatus indexStatus view saved)
    {op : RecordFile.Op TypoState α} {a : α} {stateFile : RecordFile TypoState} {status : Status}
    {saved' : Set Nat} (hrun : op store.stateFile = .ok a stateFile)
    (hstates : setup.Saves status saved' stateFile) :
    ∃ store', Op.onStates op store = .ok a store' ∧ store.Spares store' ∧
      store'.Files setup docsStatus status indexStatus view saved' :=
  ⟨{ store with stateFile }, by simp [Op.onStates, hrun], ⟨rfl, rfl⟩, h.onStates hstates⟩

/-- An error with the typo states that left their file as it was left the store as it was. -/
lemma onStates_error {op : RecordFile.Op TypoState α} {e : Error}
    (h : op store.stateFile = .error e store.stateFile) :
    Op.onStates op store = .error e store := by
  simp [Op.onStates, h]

/-- An operation on the file of a field. -/
lemma Files.runIndex (h : store.Files setup docsStatus statesStatus indexStatus view saved)
    {field : Field} (hfield : field ∈ setup.schema.indexedFields) {op : RecordFile.Op Posting α}
    {a : α} {file file' : RecordFile Posting} {status : Status} {lists : String → PostingList}
    (hget : store.indexes.get? field.name = some file) (hrun : op file = .ok a file')
    (hfile : setup.Lists field status lists file') :
    ∃ store', Op.onIndex field.name op store = .ok a store' ∧ store.Spares store' ∧
      store'.Files setup docsStatus statesStatus (Function.update indexStatus field.name status)
        { view with lists := Function.update view.lists field.name lists } saved :=
  ⟨{ store with indexes := store.indexes.insert field.name file' },
    by simp [Op.onIndex, hget, hrun], ⟨rfl, rfl⟩, h.onIndex hfield hfile⟩

/-- An operation on the file of a field that fails and changes nothing. -/
lemma Files.runIndex_error (h : store.Files setup docsStatus statesStatus indexStatus view saved)
    {field : Field} (hfield : field ∈ setup.schema.indexedFields) {op : RecordFile.Op Posting α}
    {e : Error} {file : RecordFile Posting} (hget : store.indexes.get? field.name = some file)
    (hrun : op file = .error e file) :
    ∃ store', Op.onIndex field.name op store = .error e store' ∧ store.Spares store' ∧
      store'.Files setup docsStatus statesStatus indexStatus view saved := by
  refine ⟨{ store with indexes := store.indexes.insert field.name file },
    by simp [Op.onIndex, hget, hrun], ⟨rfl, rfl⟩, ?_⟩
  have hsame := h.onIndex hfield (h.lists field hfield file hget)
  rw [Function.update_eq_self, Function.update_eq_self] at hsame
  exact hsame

/-! ## Operations on a file of a store, and questions about it -/

/-- An operation on the file of documents is one on a part of the store. -/
lemma onDocs_eq (op : RecordFile.Op StoredDocument α) :
    Op.onDocs op = onPart Store.docs (fun store docs => { store with docs }) op := by
  funext store
  unfold Op.onDocs onPart
  cases op store.docs <;> rfl

/-- An operation on the file of typo states is one on a part of the store. -/
lemma onStates_eq (op : RecordFile.Op TypoState α) :
    Op.onStates op =
      onPart Store.stateFile (fun store stateFile => { store with stateFile }) op := by
  funext store
  unfold Op.onStates onPart
  cases op store.stateFile <;> rfl

/-- An operation on the file of a field that has one is an operation on a part of the store. -/
lemma onIndex_eq {name : String} {file : RecordFile Posting}
    (hget : store.indexes.get? name = some file) (op : RecordFile.Op Posting α) :
    Op.onIndex name op store = onPart (fun _ => file)
      (fun store file => { store with indexes := store.indexes.insert name file }) op store := by
  simp only [Op.onIndex, onPart, hget]
  cases op file <;> rfl

/-- After an operation on the file of a field there is in its place what it led to. -/
lemma after_onIndex {name : String} {file : RecordFile Posting}
    (hget : store.indexes.get? name = some file) (op : RecordFile.Op Posting α) :
    after (Op.onIndex name op) store =
      { store with indexes := store.indexes.insert name (after op file) } := by
  unfold after
  rw [onIndex_eq hget]
  exact after_onPart op store

/-- An operation on the file of a field that has none changes nothing. -/
lemma after_onIndex_of_none {name : String} (hget : store.indexes.get? name = none)
    (op : RecordFile.Op Posting α) : after (Op.onIndex name op) store = store := by
  simp [after, Op.onIndex, hget]

/-- A question about a store changes nothing. -/
lemma look_eq (f : Store → Except Error α) : Op.look f = observe f := by
  funext store
  unfold Op.look observe
  cases f store <;> rfl

/-- An operation that leaves the file of a field as it is leaves the store as it is. -/
lemma onIndex_same {op : RecordFile.Op Posting α} {name : String} {file : RecordFile Posting}
    {a : α} (hget : store.indexes.get? name = some file) (hop : op file = .ok a file) :
    Op.onIndex name op store = .ok a store := by
  simp only [Op.onIndex, hget, hop, OrderedMap.insert_of_get?_eq_some hget]

/-- A question about a store that has an answer. -/
lemma look_ok {f : Store → Except Error α} {a : α} (h : f store = .ok a) :
    Op.look f store = .ok a store := by
  rw [look_eq]
  exact observe_ok h

/-- A question about a store that has none. -/
lemma look_error {f : Store → Except Error α} {e : Error} (h : f store = .error e) :
    Op.look f store = .error e store := by
  rw [look_eq]
  exact observe_error h

/-- A question about a store keeps everything. -/
lemma preserves_look {P : Store → Prop} (f : Store → Except Error α) :
    Preserves P (Op.look f) := by
  rw [look_eq]
  exact preserves_observe f

/-- An operation that is found to succeed. -/
lemma attempt_ok {op : Op α} {a : α} {store' : Store} (h : op store = .ok a store') :
    Op.attempt op store = .ok (.ok a) store' := by
  simp [Op.attempt, h]

/-- An operation that is found to fail. -/
lemma attempt_error {op : Op α} {e : Error} {store' : Store} (h : op store = .error e store') :
    Op.attempt op store = .ok (.error e) store' := by
  simp [Op.attempt, h]

/-- What an operation comes to, failure included, is found out in the state after it. -/
lemma after_attempt (op : Op α) (store : Store) :
    ∃ result, Op.attempt op store = .ok result (after op store) := by
  cases hrun : op store with
  | ok a store' => exact ⟨.ok a, by rw [after_ok hrun]; exact attempt_ok hrun⟩
  | error e store' => exact ⟨.error e, by rw [after_error hrun]; exact attempt_error hrun⟩

/-- Where the operation led that has been found to come to something. -/
lemma after_of_attempt {op : Op α} {result : Except Error α} {store' : Store}
    (h : Op.attempt op store = .ok result store') : after op store = store' := by
  obtain ⟨_, hrun⟩ := after_attempt op store
  cases hrun.symm.trans h
  rfl

/-- What an operation has been found to come to is what it comes to. -/
lemma eq_of_attempt {op : Op α} {result : Except Error α} {store' : Store}
    (h : Op.attempt op store = .ok result store') :
    op store = match result with
      | .ok a => .ok a store'
      | .error e => .error e store' := by
  cases hop : op store with
  | ok a store' =>
    cases (attempt_ok hop).symm.trans h
    rfl
  | error e store' =>
    cases (attempt_error hop).symm.trans h
    rfl

/-- An operation that has been found to succeed succeeds. -/
lemma ok_of_attempt {op : Op α} {a : α} {store' : Store}
    (h : Op.attempt op store = .ok (.ok a) store') : op store = .ok a store' :=
  eq_of_attempt h

/-- An operation that has been found to fail fails. -/
lemma error_of_attempt {op : Op α} {e : Error} {store' : Store}
    (h : Op.attempt op store = .ok (.error e) store') : op store = .error e store' :=
  eq_of_attempt h

end Run

/-! ## Operations on the files of all fields -/

/-- New values for some names, and old ones for the others. -/
def blend {α : Type} (names : List String) (new old : String → α) (name : String) : α :=
  if name ∈ names then new name else old name

/-- Names get their new values one by one. -/
lemma blend_cons {α : Type} (first : String) (names : List String) (new old : String → α) :
    blend names new (Function.update old first (new first)) = blend (first :: names) new old := by
  funext name
  unfold blend
  by_cases hname : name ∈ names
  · simp [hname]
  · by_cases heq : name = first
    · subst heq
      simp [hname]
    · simp [hname, heq]

/-- Only what the files of indexed fields stand for counts. -/
lemma Files.congr (h : store.Files setup docsStatus statesStatus indexStatus view saved)
    {indexStatus' : String → Status} {lists' : String → String → PostingList}
    (hmode : ∀ field ∈ setup.schema.indexedFields, indexStatus' field.name = indexStatus field.name)
    (hlists : ∀ field ∈ setup.schema.indexedFields, lists' field.name = view.lists field.name) :
    store.Files setup docsStatus statesStatus indexStatus' { view with lists := lists' } saved := by
  refine { h with lists := fun field hfield file hfile => ?_ }
  simp only [hmode field hfield, hlists field hfield]
  exact h.lists field hfield file hfile

/-- An operation on the files of several fields goes through them until it fails on one.

**Proof sketch.** Induction on the fields. The operation on the first one changes its file only, so
the files of the others are those from the beginning. -/
lemma Files.forM_onIndex {op : RecordFile.Op Posting Unit} {status : Status}
    {oldStatus : String → Status} {old new : String → String → PostingList}
    (hop : ∀ field ∈ setup.schema.indexedFields, ∀ file,
      setup.Lists field (oldStatus field.name) (old field.name) file →
        (∃ file', op file = .ok () file' ∧ setup.Lists field status (new field.name) file') ∨
          ∃ e, op file = .error e file)
    {names : List String} (hnodup : names.Nodup)
    (hnames : ∀ name ∈ names, ∃ field ∈ setup.schema.indexedFields, field.name = name)
    (hold : ∀ name ∈ names, indexStatus name = oldStatus name ∧ view.lists name = old name)
    (h : store.Files setup docsStatus statesStatus indexStatus view saved) :
    ∃ (store' : Store) (done : List String), store.Spares store' ∧
      store'.Files setup docsStatus statesStatus (blend done (fun _ => status) indexStatus)
        { view with lists := blend done new view.lists } saved ∧
      ((names.forM (fun name => Op.onIndex name op) store = .ok () store' ∧ done = names) ∨
        ∃ e, names.forM (fun name => Op.onIndex name op) store = .error e store' ∧
          ∃ field ∈ setup.schema.indexedFields, ∃ file,
            setup.Lists field (oldStatus field.name) (old field.name) file ∧
              op file = .error e file) := by
  induction names generalizing store indexStatus view with
  | nil => exact ⟨store, [], .rfl, h, .inl ⟨rfl, rfl⟩⟩
  | cons name names ih =>
    obtain ⟨hnot, hrest⟩ := List.nodup_cons.1 hnodup
    obtain ⟨field, hfield, rfl⟩ := hnames name List.mem_cons_self
    obtain ⟨file, hget, hlists⟩ := h.exists_file hfield
    obtain ⟨hstatus, hview⟩ := hold field.name List.mem_cons_self
    rw [hstatus, hview] at hlists
    rcases hop field hfield file hlists with ⟨file', hrun, hfile'⟩ | ⟨e, hrun⟩
    -- the names that follow differ from the first, so they keep their status and their lists
    · have hold' : ∀ other ∈ names,
          Function.update indexStatus field.name status other = oldStatus other ∧
            Function.update view.lists field.name (new field.name) other = old other := by
        intro other hother
        have hne : other ≠ field.name := fun heq => hnot (heq ▸ hother)
        rw [Function.update_of_ne hne, Function.update_of_ne hne]
        exact hold other (List.mem_cons_of_mem _ hother)
      obtain ⟨first, hfirst, hspares, hfiles⟩ := h.runIndex hfield hget hrun hfile'
      obtain ⟨store', done, hspares', hfiles', hresult⟩ := ih hrest
        (fun other hother => hnames other (List.mem_cons_of_mem _ hother)) hold' hfiles
      have hmodes := blend_cons field.name done (fun _ => status) indexStatus
      have hboth := blend_cons field.name done new view.lists
      refine ⟨store', field.name :: done, hspares.trans hspares', ?_, ?_⟩
      · rw [← hmodes, ← hboth]
        exact hfiles'
      · have hstep := bind_ok hfirst fun _ => names.forM fun name => Op.onIndex name op
        rcases hresult with ⟨hok, rfl⟩ | ⟨e, herror, hcause⟩
        · exact .inl ⟨hstep.trans hok, rfl⟩
        · exact .inr ⟨e, hstep.trans herror, hcause⟩
    · obtain ⟨store', hfail, hspares, hfiles⟩ := h.runIndex_error hfield hget hrun
      exact ⟨store', [], hspares, hfiles,
        .inr ⟨e, bind_error hfail _, field, hfield, file, hlists, hrun⟩⟩

/-- The names of a store's fields are those of the indexed fields. -/
lemma Files.mem_keys (h : store.Files setup docsStatus statesStatus indexStatus view saved)
    {name : String} : name ∈ store.indexes.keys ↔
      ∃ field ∈ setup.schema.indexedFields, field.name = name := by
  rw [← OrderedMap.contains_iff_mem_keys]
  exact h.isSome_iff name

/-- An operation on the files of all fields changes each of them, or fails on one of them after it
has changed some.

**Proof sketch.** The operation goes through the names of all files. If it comes to the end, all
fields are among those that are done; otherwise it stops at a field whose file fails. -/
theorem Files.onIndexes {op : RecordFile.Op Posting Unit} {status : Status}
    {new : String → String → PostingList}
    (h : store.Files setup docsStatus statesStatus indexStatus view saved)
    (hop : ∀ field ∈ setup.schema.indexedFields, ∀ file,
      setup.Lists field (indexStatus field.name) (view.lists field.name) file →
        (∃ file', op file = .ok () file' ∧ setup.Lists field status (new field.name) file') ∨
          ∃ e, op file = .error e file) :
    (∃ store', Op.onIndexes op store = .ok () store' ∧ store.Spares store' ∧
      store'.Files setup docsStatus statesStatus (fun _ => status) { view with lists := new }
        saved) ∨
    ∃ (e : Error) (store' : Store) (done : List String),
      Op.onIndexes op store = .error e store' ∧ store.Spares store' ∧
        store'.Files setup docsStatus statesStatus (blend done (fun _ => status) indexStatus)
          { view with lists := blend done new view.lists } saved ∧
        ∃ field ∈ setup.schema.indexedFields, ∃ file,
          setup.Lists field (indexStatus field.name) (view.lists field.name) file ∧
            op file = .error e file := by
  obtain ⟨store', done, hspares, hfiles, hresult⟩ := h.forM_onIndex hop (OrderedMap.nodup_keys _)
    (fun name hname => h.mem_keys.1 hname) fun _ _ => ⟨rfl, rfl⟩
  rcases hresult with ⟨hok, rfl⟩ | ⟨e, herror, hcause⟩
  · have hall : ∀ field ∈ setup.schema.indexedFields, field.name ∈ store.indexes.keys :=
      fun field hfield => h.mem_keys.2 ⟨field, hfield, rfl⟩
    refine .inl ⟨store', hok, hspares, hfiles.congr (fun field hfield => ?_) fun field hfield => ?_⟩
    · rw [blend, if_pos (hall field hfield)]
    · change new field.name = blend _ new view.lists field.name
      rw [blend, if_pos (hall field hfield)]
  · exact .inr ⟨e, store', done, herror, hspares, hfiles, hcause⟩

end Store

end Concordance
