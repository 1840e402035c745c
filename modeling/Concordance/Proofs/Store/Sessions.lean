import Concordance.Proofs.Store.Files

set_option relaxedAutoImplicit false
set_option autoImplicit false

/-!
# Sessions

Between sessions the saved typo states are those that the postings carry. A session loads them,
keeps them up to date in memory, and saves how they have changed at its end.

## Main definitions

* `Concordance.Store.Leads` — what comes of an operation on one file.
* `Concordance.Store.Status.Keeps` — what is known of a file that holds a table with a property.
* `Concordance.Store.onAll` — an operation on all files.
* `Concordance.Store.Setup.carried` — the typo states of the postings.
* `Concordance.Store.Rests` — a store without a session stands for a view.
* `Concordance.Store.Runs` — a store in a session stands for a view.

## Main results

* `Concordance.Store.Files.onAll` — an operation on all files that changes only what is known of
  them.
* `Concordance.Store.Rests.openIn` — the start of a session.
* `Concordance.Store.Runs.commit` — the end of a session.
-/

namespace Concordance.Store

open Operation RecordFile

/-! ## Single files -/

/-- An operation on a file leads to a file with a property, or it fails, changes nothing, and
nothing was known of the file. -/
def Leads {R : Type} (op : RecordFile.Op R Unit) (status : Status) (P : RecordFile R → Prop)
    (file : RecordFile R) : Prop :=
  (∃ file', op file = .ok () file' ∧ P file') ∨
    status = .unknown ∧ ∃ e, op file = .error e file

/-- An operation that succeeds on a file that is there, or whenever the file can be made. -/
lemma leads_of_ready {R : Type} {op : RecordFile.Op R Unit} {status : Status} {ready : Prop}
    {P : RecordFile R → Prop} {file : RecordFile R}
    (hstatus : status ≠ .unknown → file.contents.isSome ∨ ready)
    (hok : file.contents.isSome ∨ ready → ∃ file', op file = .ok () file' ∧ P file')
    (herror : file.contents = none → ¬ ready → ∃ e, op file = .error e file) :
    Leads op status P file := by
  by_cases hready : file.contents.isSome ∨ ready
  · exact .inl (hok hready)
  · have hunknown : status = .unknown := by
      by_contra hne
      exact hready (hstatus hne)
    rw [not_or] at hready
    exact .inr ⟨hunknown, herror (by simpa using hready.1) hready.2⟩

/-- A file of which something is known can be opened; for reading more has to be known than that it
can be made. -/
lemma Status.Of.openable {R : Type} {status : Status} {file : RecordFile R} {mode : Mode}
    (h : status.Of file) (hmode : status = .ready → mode = .readWrite) (hne : status ≠ .unknown) :
    file.contents.isSome ∨ mode = .readWrite ∧ usableName file.name = true := by
  by_cases hready : status = .ready
  · exact (h.isSome_or hne).imp_right fun husable => ⟨hmode hready, husable⟩
  · exact .inl (h.isSome hne hready)

/-- What is known of a file that holds a table with a property. -/
def Status.Keeps {R : Type} [Record R] (status : Status) (name : String) (minWidth : Nat)
    (P : Table R → Prop) (file : RecordFile R) : Prop :=
  file.HoldsSome name minWidth status.mode P ∧ status.Of file

namespace Status.Keeps

variable {R : Type} [Record R] [Record.Lawful R] {status : Status} {name : String} {minWidth : Nat}
  {P : Table R → Prop} {file : RecordFile R}

/-- A file is opened over what it holds. -/
lemma openIn (h : status.Keeps name minWidth P file) {mode : Mode}
    (hmode : status = .ready → mode = .readWrite) :
    Leads (RecordFile.openIn mode) status ((Status.opened mode).Keeps name minWidth P) file := by
  refine leads_of_ready (h.2.openable hmode) (fun hready => ?_) fun hnone hno =>
    ⟨_, openIn_error hnone hno⟩
  rw [h.1.name_eq] at hready
  obtain ⟨file', hrun, hholds⟩ := h.1.openIn hready
  exact ⟨file', hrun, hholds, hholds.isSome⟩

omit [Record.Lawful R] in
/-- A file that is not open is made unless there is one, over what it holds. -/
lemma create (h : status.Keeps name minWidth P file) (hclosed : status.mode = none) :
    Leads RecordFile.create status (Status.made.Keeps name minWidth P) file := by
  refine leads_of_ready h.2.isSome_or (fun hready => ?_) fun hnone hno =>
    ⟨_, create_error hnone hno⟩
  rw [h.1.name_eq] at hready
  obtain ⟨file', hrun, hholds, hsome⟩ := h.1.create hready
  rw [hclosed] at hholds
  exact ⟨file', hrun, hholds, hsome⟩

omit [Record.Lawful R] in
/-- A file that is there need not be made. -/
lemma create_of_opened {mode : Mode} (h : (Status.opened mode).Keeps name minWidth P file) :
    Leads RecordFile.create (.opened mode) ((Status.opened mode).Keeps name minWidth P) file :=
  .inl ⟨file, create_of_isSome h.1.isSome, h⟩

end Status.Keeps

/-! ## All files -/

/-- An operation on the file of documents, the file of typo states, and the files of all fields. -/
def onAll (op : ∀ R : Type, RecordFile.Op R Unit) : Op Unit := do
  Op.onDocs (op StoredDocument)
  Op.onStates (op TypoState)
  Op.onIndexes (op Posting)

/-- Files that are missing are made. -/
lemma createFiles_eq : createFiles = onAll fun _ => RecordFile.create := rfl

/-- All files are opened, and then the typo states read. -/
lemma openFiles_eq (mode : Mode) : openFiles mode = (do
    onAll fun _ => RecordFile.openIn mode
    let records ← Op.look fun store => store.stateFile.scanAll
    modify fun store => { store with
      states := store.states.load (records.map TypoState.state) }) := by
  simp only [openFiles, onAll, bind_assoc]

/-- An operation on all files that changes only what is known of each of them does so, or it fails
at one of them and nothing was known before.

**Proof sketch.** The files are gone through one after the other. What a file holds is a table with
a property, whatever its records, and the operation keeps each such property. -/
lemma Files.onAll {setup : Setup} {store : Store} {status status' : Status} {view : View}
    {saved : Set Nat} {op : ∀ R : Type, RecordFile.Op R Unit}
    {Q : Status → Prop} (hQ : Q status) (hQ' : Q status')
    (h : store.Files setup status status (fun _ => status) view saved)
    (hop : ∀ {R : Type} [Record R] [Record.Lawful R] {name : String} {minWidth : Nat}
      {P : Table R → Prop} {file : RecordFile R}, status.Keeps name minWidth P file →
        Leads (op R) status (status'.Keeps name minWidth P) file) :
    (∃ store', Store.onAll op store = .ok () store' ∧ store.Spares store' ∧
      store'.Files setup status' status' (fun _ => status') view saved) ∨
    status = .unknown ∧ ∃ e store', Store.onAll op store = .error e store' ∧
      store.Spares store' ∧ ∃ docsStatus statesStatus indexStatus,
        store'.Files setup docsStatus statesStatus indexStatus view saved ∧
          Q docsStatus ∧ Q statesStatus ∧ ∀ name, Q (indexStatus name) := by
  unfold Store.onAll
  have hlists : ∀ field ∈ setup.schema.indexedFields, ∀ file,
      setup.Lists field status (view.lists field.name) file →
        Leads (op Posting) status (setup.Lists field status' (view.lists field.name)) file := by
    rintro field - file ⟨hlists, hstatus⟩
    refine (hop ⟨hlists.holds, hstatus⟩).imp_left fun ⟨file', hrun, hholds, hstatus'⟩ => ?_
    exact ⟨file', hrun, { hlists with holds := hholds }, hstatus'⟩
  -- the file of documents
  rcases hop (P := fun table => table = view.docs) ⟨⟨_, h.docs.1, rfl⟩, h.docs.2⟩ with
    ⟨docs, hrun, ⟨_, hholds, rfl⟩, hstatus⟩ | ⟨hunknown, e, hrun⟩
  swap
  · exact .inr ⟨hunknown, e, store, bind_error (onDocs_error hrun) _, .rfl, status, status,
      fun _ => status, h, hQ, hQ, fun _ => hQ⟩
  obtain ⟨store₁, hrun₁, hspares₁, h₁⟩ := h.runDocs hrun ⟨hholds, hstatus⟩
  rw [bind_ok hrun₁]
  -- the file of typo states
  rcases hop ⟨h₁.states.1.holds, h₁.states.2⟩ with
    ⟨stateFile, hrun, hholds, hstatus⟩ | ⟨hunknown, e, hrun⟩
  swap
  · exact .inr ⟨hunknown, e, store₁, bind_error (onStates_error hrun) _, hspares₁, status', status,
      fun _ => status, h₁, hQ', hQ, fun _ => hQ⟩
  obtain ⟨store₂, hrun₂, hspares₂, h₂⟩ :=
    h₁.runStates hrun ⟨{ h₁.states.1 with holds := hholds }, hstatus⟩
  rw [bind_ok hrun₂]
  -- the files of all fields
  have hspares := hspares₁.trans hspares₂
  rcases h₂.onIndexes fun field hfield file hfile =>
      (hlists field hfield file hfile).imp_right And.right with
    ⟨store₃, hrun₃, hspares₃, h₃⟩ |
      ⟨e, store₃, done, hrun₃, hspares₃, h₃, field, hfield, file, hfile, hfail⟩
  · exact .inl ⟨store₃, hrun₃, hspares.trans hspares₃, h₃⟩
  · have hunknown : status = .unknown := by
      rcases hlists field hfield file hfile with ⟨file', hrun', -⟩ | ⟨hunknown, -⟩
      · rw [hrun'] at hfail
        cases hfail
      · exact hunknown
    have hsame : blend done view.lists view.lists = view.lists := by
      funext name
      simp [blend]
    simp only [hsame] at h₃
    refine .inr ⟨hunknown, e, store₃, hrun₃, hspares.trans hspares₃, status', status',
      blend done (fun _ => status') fun _ => status, h₃, hQ', hQ', fun name => ?_⟩
    unfold blend
    split
    · exact hQ'
    · exact hQ

/-! ## Views and sessions -/

/-- The typo states that the postings of a view carry. -/
def Setup.carried (setup : Setup) (lists : String → String → PostingList) : Set Nat :=
  {n | ∃ field ∈ setup.schema.indexedFields, ∃ term,
    lists field.name term ≠ .empty ∧ setup.stateFor field term = some n}

/-- Empty lists have no typo states. -/
lemma Setup.carried_empty (setup : Setup) : setup.carried View.empty.lists = ∅ := by
  simp [carried, View.empty]

/-- A store without a session stands for a view, and has saved the typo states of the view. -/
structure Rests (store : Store) (setup : Setup) (status : Status) (view : View) : Prop where
  closed : status.mode = none
  session_eq : store.session = none
  files : store.Files setup status status (fun _ => status) view (setup.carried view.lists)

/-- A store in a session stands for a view, and has the typo states of the view in memory. A session
for reading has nothing to save. -/
structure Runs (store : Store) (setup : Setup) (mode : Mode) (view : View) : Prop where
  session_eq : store.session = some mode
  files : ∃ saved, store.Files setup (.opened mode) (.opened mode) (fun _ => .opened mode) view
      saved ∧
    store.states.Tracks setup.alphabet (setup.carried view.lists) saved ∧
      (mode = .read → saved = setup.carried view.lists)

variable {setup : Setup} {store : Store} {status : Status} {view : View} {mode : Mode}

/-! ## The start of a session -/

/-- All files are opened and the saved states loaded, or some file is not known to be there. In
either case the files stand for what they stood for.

**Proof sketch.** The files are opened one after the other, and none of the steps changes what a
file stands for. The states that are then read from their file are those that are saved. -/
lemma Rests.openFiles (h : store.Rests setup status view) {mode : Mode}
    (hmode : status = .ready → mode = .readWrite) :
    (∃ store', Store.openFiles mode store = .ok () store' ∧
      ({ store' with session := some mode } : Store).Runs setup mode view) ∨
    status = .unknown ∧ ∃ e store', Store.openFiles mode store = .error e store' ∧
      ∃ docsStatus statesStatus indexStatus,
        store'.Files setup docsStatus statesStatus indexStatus view (setup.carried view.lists) := by
  rw [openFiles_eq]
  rcases h.files.onAll (Q := fun _ => True) trivial trivial fun hfile => hfile.openIn hmode with
    ⟨store₃, hrun₃, hspares, h₃⟩ |
      ⟨hunknown, e, store₃, hrun₃, -, docsStatus, statesStatus, indexStatus, h₃, -⟩
  swap
  · exact .inr ⟨hunknown, e, store₃, bind_error hrun₃ _, docsStatus, statesStatus, indexStatus, h₃⟩
  rw [bind_ok hrun₃]
  obtain ⟨records, hlisted, -, hmem⟩ := h₃.states.1.listed
  have hscan : store₃.stateFile.scanAll = .ok records := by
    rw [listed, if_pos (h₃.states.2.isSome (by simp) (by simp))] at hlisted
    exact hlisted
  have htracks := StateSet.tracks_load store₃.states (records.map TypoState.state)
  have hset : {n | n ∈ records.map TypoState.state} = setup.carried view.lists := Set.ext hmem
  rw [hset, h₃.alphabet_eq] at htracks
  rw [bind_ok (look_ok hscan)]
  exact .inl ⟨_, rfl, rfl, setup.carried view.lists,
    (h₃.withStates htracks.alphabet_eq).withSession _, htracks, fun _ => rfl⟩

/-- What is known of files that are not open can be forgotten.

**Proof sketch.** A file that is not open stands for the same whatever is known of it. -/
lemma Files.forget {docsStatus statesStatus : Status} {indexStatus : String → Status}
    {saved : Set Nat} (h : store.Files setup docsStatus statesStatus indexStatus view saved)
    (hdocs : docsStatus.mode = none) (hstates : statesStatus.mode = none)
    (hindex : ∀ name, (indexStatus name).mode = none) :
    store.Files setup .unknown .unknown (fun _ => .unknown) view saved := by
  refine { h with
    docs := ⟨?_, trivial⟩, states := ⟨?_, trivial⟩,
    lists := fun field hfield file hfile => ⟨?_, trivial⟩ }
  · have hfile := h.docs.1
    rw [hdocs] at hfile
    exact hfile
  · have hfile := h.states.1
    rw [hstates] at hfile
    exact hfile
  · have hfile := (h.lists field hfield file hfile).1
    rw [hindex field.name] at hfile
    exact hfile

/-- Files that are there need not be made. -/
lemma Files.toReady {saved : Set Nat}
    (h : store.Files setup .made .made (fun _ => .made) view saved) :
    store.Files setup .ready .ready (fun _ => .ready) view saved :=
  { h with
    docs := ⟨h.docs.1, .inl h.docs.2⟩, states := ⟨h.states.1, .inl h.states.2⟩,
    lists := fun field hfield file hfile =>
      ⟨(h.lists field hfield file hfile).1, .inl (h.lists field hfield file hfile).2⟩ }

/-- Missing files are made; or some file is not known to be there and cannot be made. -/
theorem Rests.createFiles (h : store.Rests setup status view) :
    (∃ store', Store.createFiles store = .ok () store' ∧ store'.Rests setup .made view) ∨
    status = .unknown ∧ ∃ e store', Store.createFiles store = .error e store' ∧
      store'.Rests setup .unknown view := by
  rw [createFiles_eq]
  rcases h.files.onAll (Q := fun status => status.mode = none) h.closed rfl
      fun hfile => hfile.create h.closed with
    ⟨store', hrun, hspares, hfiles⟩ | ⟨hunknown, e, store', hrun, hspares, docsStatus, statesStatus,
      indexStatus, hfiles, hdocs, hstates, hindex⟩
  · exact .inl ⟨store', hrun, rfl, hspares.session_eq.trans h.session_eq, hfiles⟩
  · exact .inr ⟨hunknown, e, store', hrun, rfl, hspares.session_eq.trans h.session_eq,
      hfiles.forget hdocs hstates hindex⟩

/-- The start of a session once files that are missing are made, as far as they are. -/
def enter (mode : Mode) : Op Unit := do
  match ← Op.attempt (openFiles mode) with
  | .ok () => modify fun store => { store with session := some mode }
  | .error e =>
    modify close
    throw e

/-- To open a session is to refuse a second one, to make missing files if it is for reading, and to
enter it. -/
lemma openIn_eq (mode : Mode) : Store.openIn mode = (do
    if (← get).isOpen then throw .alreadyOpen
    if mode = .read then Store.createFiles
    enter mode : Op Unit) := rfl

/-- A store without a session enters one, and then stands for the same view; if it cannot, what is
known of its files gets less. -/
lemma Rests.enter (h : store.Rests setup status view) {mode : Mode}
    (hmode : status = .ready → mode = .readWrite) :
    (∃ store', Store.enter mode store = .ok () store' ∧ store'.Runs setup mode view) ∨
    status = .unknown ∧ ∃ e store', Store.enter mode store = .error e store' ∧
      store'.Rests setup .unknown view := by
  rcases h.openFiles hmode with ⟨store', hrun, hruns⟩ |
    ⟨hunknown, e, store', hrun, docsStatus, statesStatus, indexStatus, hfiles⟩
  · exact .inl ⟨_, bind_ok (attempt_ok hrun) _, hruns⟩
  · exact .inr ⟨hunknown, e, store'.close, bind_ok (attempt_error hrun) _, rfl, rfl,
      hfiles.close.forget (Status.mode_closed _) (Status.mode_closed _)
        fun _ => Status.mode_closed _⟩

/-- A session is started. If some file is not known to be there it may not be; then there still is
none, and the store stands for what it stood for. -/
theorem Rests.openIn (h : store.Rests setup status view) (mode : Mode) :
    (∃ store', Store.openIn mode store = .ok () store' ∧ store'.Runs setup mode view) ∨
    status = .unknown ∧ ∃ e store', Store.openIn mode store = .error e store' ∧
      store'.Rests setup .unknown view := by
  have hclosed : store.isOpen = false := by simp [isOpen, h.session_eq]
  rw [openIn_eq, get_bind]
  simp only [hclosed, Bool.false_eq_true, if_false]
  cases mode with
  | readWrite => exact h.enter fun _ => rfl
  | read =>
    rcases h.createFiles with ⟨made, hrun, hmade⟩ | ⟨hunknown, e, store', hrun, hrests⟩
    · simp only [if_true, bind_ok hrun]
      exact (hmade.enter (by simp)).imp_right fun h => absurd h.1 (by simp)
    · exact .inr ⟨hunknown, e, store', bind_error hrun _, hrests⟩

/-- If all files are there a session is started. -/
lemma Rests.exists_openIn (h : store.Rests setup .made view) (mode : Mode) :
    ∃ opened, Store.openIn mode store = .ok () opened ∧ opened.Runs setup mode view := by
  rcases h.openIn mode with hopened | ⟨himpossible, -⟩
  · exact hopened
  · cases himpossible

/-! ## The end of a session -/

section Writing

variable {docsStatus : Status} {indexStatus : String → Status} {saved : Set Nat}

/-- States are saved one after the other.

**Proof sketch.** Induction on the states: each is put into the file, which then holds one more of
them. -/
lemma Files.saveStates
    (h : store.Files setup docsStatus (.opened .readWrite) indexStatus view saved)
    {added : List Nat} (hadded : ∀ n ∈ added, n < 2 ^ 64) :
    ∃ store', (added.forM fun state => Op.onStates (RecordFile.upsert ⟨state⟩ .replace)) store =
        .ok () store' ∧ store.Spares store' ∧
      store'.Files setup docsStatus (.opened .readWrite) indexStatus view
        (saved ∪ {n | n ∈ added}) := by
  induction added generalizing store saved with
  | nil => exact ⟨store, rfl, .rfl, by simpa using h⟩
  | cons n added ih =>
    obtain ⟨stateFile, hrun, hstates⟩ := h.states.1.insert (hadded n List.mem_cons_self)
    have hsaves : setup.Saves (.opened .readWrite) (insert n saved) stateFile :=
      ⟨hstates, hstates.holds.isSome⟩
    obtain ⟨first, hfirst, hspares, hfiles⟩ := h.runStates hrun hsaves
    obtain ⟨store', hrest, hspares', hfiles'⟩ :=
      ih hfiles fun m hm => hadded m (List.mem_cons_of_mem _ hm)
    have hset : insert n saved ∪ {m | m ∈ added} = saved ∪ {m | m ∈ n :: added} := by
      ext m
      simp only [Set.mem_union, Set.mem_insert_iff, Set.mem_ofPred_eq, List.mem_cons]
      tauto
    rw [hset] at hfiles'
    exact ⟨store', (bind_ok hfirst _).trans hrest, hspares.trans hspares', hfiles'⟩

/-- Saved states are removed one after the other.

**Proof sketch.** Induction on the states: each is taken out of the file, whether it was there or
not. -/
lemma Files.dropStates
    (h : store.Files setup docsStatus (.opened .readWrite) indexStatus view saved)
    (removed : List Nat) :
    ∃ store', (removed.forM fun state => do
        let _ ← Op.onStates (RecordFile.delete (.number state))) store = .ok () store' ∧
      store.Spares store' ∧ store'.Files setup docsStatus (.opened .readWrite) indexStatus view
        (saved \ {n | n ∈ removed}) := by
  induction removed generalizing store saved with
  | nil => exact ⟨store, rfl, .rfl, by simpa using h⟩
  | cons n removed ih =>
    obtain ⟨present, stateFile, hrun, hstates⟩ := h.states.1.remove n
    have hsaves : setup.Saves (.opened .readWrite) (saved \ {n}) stateFile :=
      ⟨hstates, hstates.holds.isSome⟩
    obtain ⟨first, hfirst, hspares, hfiles⟩ := h.runStates hrun hsaves
    obtain ⟨store', hrest, hspares', hfiles'⟩ := ih hfiles
    have hset : (saved \ {n}) \ {m | m ∈ removed} = saved \ {m | m ∈ n :: removed} := by
      ext m
      simp only [Set.mem_sdiff, Set.mem_singleton_iff, Set.mem_ofPred_eq, List.mem_cons]
      tauto
    rw [hset] at hfiles'
    have hstep : (do let _ ← Op.onStates (RecordFile.delete (.number n)) : Op Unit) store =
        .ok () first := bind_ok hfirst _
    exact ⟨store', (bind_ok hstep _).trans hrest, hspares.trans hspares', hfiles'⟩

/-- Once the differences are written, the saved states are the members of the set.

**Proof sketch.** The set notes which members were not saved and which saved states are no longer
members. Saving the former and removing the latter turns what was saved into the members. -/
lemma Files.writeDeltas
    (h : store.Files setup docsStatus (.opened .readWrite) indexStatus view saved)
    {members : Set Nat} (htracks : store.states.Tracks setup.alphabet members saved)
    (hlt : ∀ n ∈ members, n < 2 ^ 64) :
    ∃ store', Store.writeDeltas store = .ok () store' ∧ store'.session = store.session ∧
      store'.Files setup docsStatus (.opened .readWrite) indexStatus view members := by
  have htaken := htracks.takeDeltas
  have hadded : ∀ n ∈ store.states.takeDeltas.1.1, n ∈ members ∧ n ∉ saved := fun n hn =>
    (htracks.added_iff n).1 (OrderedMap.contains_iff_mem_keys.2 hn)
  obtain ⟨first, hfirst, hspares, hfiles⟩ := (h.withStates htaken.alphabet_eq).saveStates
    fun n hn => hlt n (hadded n hn).1
  obtain ⟨store', hrest, hspares', hfiles'⟩ := hfiles.dropStates store.states.takeDeltas.1.2
  have hset : (saved ∪ {n | n ∈ store.states.takeDeltas.1.1}) \
      {n | n ∈ store.states.takeDeltas.1.2} = members := by
    ext n
    have hadd : n ∈ store.states.takeDeltas.1.1 ↔ n ∈ members ∧ n ∉ saved :=
      OrderedMap.contains_iff_mem_keys.symm.trans (htracks.added_iff n)
    have hdrop : n ∈ store.states.takeDeltas.1.2 ↔ n ∈ saved ∧ n ∉ members :=
      OrderedMap.contains_iff_mem_keys.symm.trans (htracks.removed_iff n)
    simp only [Set.mem_sdiff, Set.mem_union, Set.mem_ofPred_eq, hadd, hdrop]
    tauto
  rw [hset] at hfiles'
  exact ⟨store', (bind_ok hfirst _).trans hrest, hspares'.session_eq.trans hspares.session_eq,
    hfiles'⟩

end Writing

/-- A session is ended: what the postings carry is then what is saved.

**Proof sketch.** If something has changed, the differences are written. Otherwise the set has no
differences, and what is saved is already what the postings carry. -/
theorem Runs.commit (h : store.Runs setup mode view) :
    ∃ store', Store.commit store = .ok () store' ∧ store'.Rests setup .made view := by
  obtain ⟨saved, hfiles, htracks, hread⟩ := h.files
  have hrests : ∀ {store : Store}, store.Files setup (.opened mode) (.opened mode)
      (fun _ => .opened mode) view (setup.carried view.lists) →
        store.close.Rests setup .made view := fun hfiles => ⟨rfl, rfl, hfiles.close⟩
  unfold Store.commit
  rw [get_bind]
  by_cases hwrite : store.session = some .readWrite ∧ store.states.isDirty = true
  · obtain rfl : mode = .readWrite := Option.some.inj (h.session_eq.symm.trans hwrite.1)
    obtain ⟨store', hrun, -, hfiles'⟩ := hfiles.writeDeltas htracks fun n hn => by
      obtain ⟨field, -, term, -, hstate⟩ := hn
      exact setup.stateFor_lt field term n hstate
    rw [if_pos hwrite]
    exact ⟨store'.close, bind_ok hrun _, hrests hfiles'⟩
  · have hsaved : saved = setup.carried view.lists := by
      cases mode with
      | read => exact hread rfl
      | readWrite =>
        refine (htracks.eq_of_not_isDirty ?_).symm
        rw [not_and, Bool.not_eq_true] at hwrite
        exact hwrite h.session_eq
    rw [if_neg hwrite]
    exact ⟨store.close, rfl, hrests (hsaved ▸ hfiles)⟩

/-! ## Operations in sessions of their own -/

section Within

variable {α : Type} {op : Op α}

/-- In a session that is open already an operation runs as it is. -/
lemma within_of_open (h : ensureOpen mode store = .ok false store) :
    within mode op store = op store := by
  unfold within
  rw [bind_ok h]
  cases hop : op store with
  | ok a store' =>
    rw [bind_ok (attempt_ok hop)]
    rfl
  | error e store' =>
    rw [bind_ok (attempt_error hop)]
    rfl

/-- An operation without a session gets one, which is ended behind it. -/
lemma within_of_opened {opened done ended : Store} {result : Except Error α}
    (hopen : ensureOpen mode store = .ok true opened)
    (hop : Op.attempt op opened = .ok result done) (hcommit : Store.commit done = .ok () ended) :
    Op.attempt (within mode op) store = .ok result ended := by
  have hrelease : release true done = .ok () ended := hcommit
  unfold within
  cases result with
  | ok a =>
    refine attempt_ok ?_
    rw [bind_ok hopen, bind_ok hop, bind_ok hrelease]
    rfl
  | error e =>
    refine attempt_error ?_
    rw [bind_ok hopen, bind_ok hop, bind_ok hrelease]
    rfl

/-- Without a session one is started. -/
lemma Rests.ensureOpen (h : store.Rests setup status view) :
    (∃ opened, Store.ensureOpen mode store = .ok true opened ∧ opened.Runs setup mode view) ∨
    status = .unknown ∧ ∃ e store', Store.ensureOpen mode store = .error e store' ∧
      store'.Rests setup .unknown view := by
  unfold Store.ensureOpen
  rw [get_bind, h.session_eq]
  rcases h.openIn mode with ⟨opened, hopen, hruns⟩ | ⟨hunknown, e, store', hopen, hrests⟩
  · exact .inl ⟨opened, bind_ok hopen _, hruns⟩
  · exact .inr ⟨hunknown, e, store', bind_error hopen _, hrests⟩

/-- In a session for writing none is started. -/
lemma Runs.ensureOpen (h : store.Runs setup .readWrite view) :
    Store.ensureOpen mode store = .ok false store := by
  unfold Store.ensureOpen
  rw [get_bind, h.session_eq]
  rfl

/-- An operation without a session: what it leads to in a session of its own it leads to, and the
store then rests on files that are there. Or some file is not known to be there, and no session
can be started. -/
theorem Rests.within {Q : Except Error α → View → Prop} (h : store.Rests setup status view)
    (hop : ∀ opened : Store, opened.Runs setup mode view → ∃ result done view',
      Op.attempt op opened = .ok result done ∧ done.Runs setup mode view' ∧ Q result view') :
    (∃ result store' view', Op.attempt (within mode op) store = .ok result store' ∧
      store'.Rests setup .made view' ∧ Q result view') ∨
    status = .unknown ∧ ∃ e store', within mode op store = .error e store' ∧
      store'.Rests setup .unknown view := by
  rcases h.ensureOpen with ⟨opened, hopen, hruns⟩ | ⟨hunknown, e, store', hopen, hrests⟩
  · obtain ⟨result, done, view', hrun, hdone, hq⟩ := hop opened hruns
    obtain ⟨ended, hcommit, hended⟩ := hdone.commit
    exact .inl ⟨result, ended, view', within_of_opened hopen hrun hcommit, hended, hq⟩
  · exact .inr ⟨hunknown, e, store', bind_error hopen _, hrests⟩

/-- In a session for writing an operation runs as it is. -/
theorem Runs.within (h : store.Runs setup .readWrite view) : within mode op store = op store :=
  within_of_open h.ensureOpen

end Within

end Concordance.Store
