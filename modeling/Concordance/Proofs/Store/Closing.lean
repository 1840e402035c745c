import Concordance.Proofs.RecordFile.EvenStates
import Concordance.Proofs.Store.Untouched

set_option relaxedAutoImplicit false
set_option autoImplicit false

/-!
# Sessions are closed again

An operation outside a session opens one for itself. Whatever the files hold and whatever comes of
the operation, the session is closed again unless the typo states cannot be stored at its end. Only
operations that add typo states can fail there, and they do not if the lines of the file of typo
states are even.

## Main definitions

* `Concordance.Store.Free` — no session is open, and none is refused because of one.
* `Concordance.Store.JustOpened` — what is known of a session for writing when it is started.
* `Concordance.Store.Settles` — what a session leaves to be stored can be stored.

## Main results

* `Concordance.Store.openIn_cases` — a session is started, or there is none.
* `Concordance.Store.justOpened_of_openIn` — a session for writing that has been started.
* `Concordance.Store.Settles.commit` — a session ends if what it leaves can be stored.
* `Concordance.Store.session_within` — an operation in a session of its own leaves none open if what
  it leaves can be stored.
-/

namespace Concordance.Store

open Operation RecordFile

variable {α β : Type} {store store' opened : Store} {mode : Mode} {P : Store → Prop}

/-! ## Properties that operations keep -/

section Preserves

/-- An operation on the file of documents keeps what does not depend on the file. -/
lemma preserves_onDocs {op : RecordFile.Op StoredDocument α}
    (h : ∀ store docs, P store → P { store with docs }) : Preserves P (Op.onDocs op) := by
  rw [onDocs_eq]
  exact preserves_onPart h op

/-- An operation on the file of typo states keeps what does not depend on the file. -/
lemma preserves_onStates {op : RecordFile.Op TypoState α}
    (h : ∀ store stateFile, P store → P { store with stateFile }) :
    Preserves P (Op.onStates op) := by
  rw [onStates_eq]
  exact preserves_onPart h op

/-- An operation on the file of a field keeps what does not depend on the files of fields. -/
lemma preserves_onIndex {name : String} {op : RecordFile.Op Posting α}
    (h : ∀ store indexes, P store → P { store with indexes }) :
    Preserves P (Op.onIndex name op) := by
  intro store hstore
  cases hget : store.indexes.get? name with
  | none => rwa [after_onIndex_of_none hget]
  | some file =>
    rw [after_onIndex hget]
    exact h store _ hstore

/-- An operation on all files of fields keeps what does not depend on them. -/
lemma preserves_onIndexes {op : RecordFile.Op Posting Unit}
    (h : ∀ store indexes, P store → P { store with indexes }) : Preserves P (Op.onIndexes op) :=
  preserves_get_bind fun _ _ => Preserves.forM (fun _ => preserves_onIndex h) _

/-- What a change of lists and a new typo state keep is kept when an id is put under a term. -/
lemma preserves_addPosting (id : DocId) (field : Field) (term : String)
    (hindexes : ∀ store indexes, P store → P { store with indexes })
    (hstates : ∀ store state, P store → P { store with states := store.states.add state }) :
    Preserves P (addPosting id field term) := by
  refine preserves_get_bind fun store _ => (preserves_onIndex hindexes).bind fun _ => ?_
  cases store.stateFor field term with
  | none => exact preserves_pure ()
  | some state => exact preserves_modify fun store hstore => hstates store state hstore

/-- What a change of lists and the loss of a typo state keep is kept when an id is taken from under
a term.

**Proof sketch.** The posting is looked up, and stored again or deleted if the id is on its list. If
it is deleted, its state is released unless another posting carries it. -/
lemma preserves_removePosting (id : DocId) (field : Field) (term : String)
    (hindexes : ∀ store indexes, P store → P { store with indexes })
    (hstates : ∀ store state, P store → P { store with states := store.states.remove state }) :
    Preserves P (removePosting id field term) := by
  have hrelease : ∀ state, Preserves P (releaseState state) := fun state =>
    (preserves_look _).bind fun carried => by
      cases carried with
      | true => exact preserves_pure ()
      | false => exact preserves_modify fun store hstore => hstates store state hstore
  refine (preserves_onIndex hindexes).bind fun found => ?_
  cases found with
  | none => exact preserves_pure ()
  | some posting =>
    simp only
    split
    · split
      · refine (preserves_onIndex hindexes).bind fun _ => ?_
        cases posting.state with
        | none => exact preserves_pure ()
        | some state => exact hrelease state
      · exact preserves_onIndex hindexes
    · exact preserves_pure ()

/-- In a session for writing no other one is opened. -/
lemma preserves_within {op : Op α} (hsession : ∀ store, P store → store.session = some .readWrite)
    (hop : Preserves P op) : Preserves P (within mode op) := by
  intro store hstore
  have hensure : ensureOpen mode store = .ok false store := by
    unfold ensureOpen
    rw [get_bind, hsession store hstore]
    rfl
  unfold after
  rw [within_of_open hensure]
  exact hop store hstore

end Preserves

/-! ## What succeeds -/

section Ensures

variable {Q : α → Store → Prop}

/-- An operation on the file of typo states leads to what it ensures of the file. -/
lemma ensures_onStates {op : RecordFile.Op TypoState α} {F : RecordFile TypoState → Prop}
    {G : α → RecordFile TypoState → Prop} (h : Ensures F op G) :
    Ensures (fun store => F store.stateFile) (Op.onStates op) fun a store =>
      G a store.stateFile := by
  rw [onStates_eq]
  exact h.onPart fun _ _ => rfl

/-- All files of a store are open for writing. -/
structure AllWritable (store : Store) : Prop where
  docs : store.docs.Writable
  states : store.stateFile.Writable
  indexes : ∀ name file, store.indexes.get? name = some file → file.Writable

/-- All files of a store are open for writing, and there are files under some names. -/
def WritableUnder (names : List String) (store : Store) : Prop :=
  AllWritable store ∧ ∀ name ∈ names, ∃ file, store.indexes.get? name = some file

/-- What succeeds on every single file that is open for writing succeeds on the next one, and leaves
the files under the names behind it.

**Proof sketch.** The file under the next name is open for writing, so the operation succeeds on it.
It then stands under this name, and all other files are as they were. -/
lemma ensures_onIndex {op : RecordFile.Op Posting Unit} (h : Ensures Writable op fun _ => Writable)
    (name : String) (rest : List String) :
    Ensures (WritableUnder (name :: rest)) (Op.onIndex name op) fun _ => WritableUnder rest := by
  rintro store ⟨hall, hnames⟩
  obtain ⟨file, hget⟩ := hnames name List.mem_cons_self
  obtain ⟨_, file', hrun, hfile'⟩ := h file (hall.indexes name file hget)
  refine ⟨(), { store with indexes := store.indexes.insert name file' },
    by simp [Op.onIndex, hget, hrun], ⟨hall.docs, hall.states, fun other found hfound => ?_⟩,
    fun other hother => ?_⟩
  · rw [OrderedMap.get?_insert] at hfound
    split at hfound
    · obtain rfl := Option.some.inj hfound
      exact hfile'
    · exact hall.indexes other found hfound
  · rw [OrderedMap.get?_insert]
    split
    · exact ⟨file', rfl⟩
    · exact hnames other (List.mem_cons_of_mem _ hother)

/-- What succeeds on every single file that is open for writing succeeds on all of them. -/
lemma ensures_onIndexes {op : RecordFile.Op Posting Unit}
    (h : Ensures Writable op fun _ => Writable) :
    Ensures AllWritable (Op.onIndexes op) fun _ => AllWritable := by
  intro store hall
  have hnames : ∀ name ∈ store.indexes.keys, ∃ file, store.indexes.get? name = some file :=
    fun name hname => Option.isSome_iff_exists.1 (OrderedMap.contains_iff_mem_keys.2 hname)
  obtain ⟨a, store', hrun, hall', -⟩ :=
    Ensures.forM (ensures_onIndex h) store.indexes.keys store ⟨hall, hnames⟩
  exact ⟨a, store', hrun, hall'⟩

end Ensures

/-! ## The start of a session -/

section Opening

/-- To make a file does not fail because a session is open. -/
lemma avoids_create {R : Type} :
    Avoids .alreadyOpen (RecordFile.create : RecordFile.Op R Unit) := by
  intro file file' hrun
  unfold RecordFile.create at hrun
  split at hrun
  · cases hrun
  · split at hrun <;> cases hrun

/-- The part of opening a file that comes once it is there: its line width is taken from the first
line. -/
def takeHandle {R : Type} (mode : Mode) : RecordFile.Op R Unit := do
  let file ← get
  match file.contents with
  | none => throw .inaccessibleFile
  | some bytes =>
    let width ← RecordFile.look fun _ => firstWidth file.name bytes
    modify fun file => { file with width := width.getD file.minWidth, handle := some { mode } }

/-- To open a file is to make it first if this is for writing, and then to get a handle of it. -/
lemma openFile_eq {R : Type} (mode : Mode) :
    (RecordFile.openIn mode : RecordFile.Op R Unit) = (do
      if mode = .readWrite then RecordFile.create
      takeHandle mode) := rfl

/-- Getting a handle never fails because a session is open. -/
lemma avoids_takeHandle {R : Type} (mode : Mode) :
    Avoids .alreadyOpen (takeHandle mode : RecordFile.Op R Unit) := by
  intro file file' hrun
  unfold takeHandle at hrun
  rw [get_bind] at hrun
  cases hcontents : file.contents with
  | none =>
    simp only [hcontents] at hrun
    cases hrun
  | some bytes =>
    simp only [hcontents] at hrun
    unfold firstWidth at hrun
    split at hrun
    · cases hrun
    · split at hrun <;> cases hrun

/-- An open file has its handle. -/
lemma handle_of_takeHandle {R : Type} {file file' : RecordFile R}
    (h : takeHandle mode file = .ok () file') : file'.handle = some { mode } := by
  unfold takeHandle at h
  rw [get_bind] at h
  cases hcontents : file.contents with
  | none =>
    simp only [hcontents] at h
    cases h
  | some bytes =>
    simp only [hcontents] at h
    obtain ⟨width, looked, -, h⟩ := exists_of_bind_ok h
    cases h
    rfl

/-- Nor does opening a file. -/
lemma avoids_openFile {R : Type} (mode : Mode) :
    Avoids .alreadyOpen (RecordFile.openIn mode : RecordFile.Op R Unit) := by
  rw [openFile_eq]
  split
  · exact avoids_create.bind fun _ => avoids_takeHandle mode
  · exact avoids_takeHandle mode

/-- What does not fail because a session is open on any file does not fail so on those of a
store. -/
lemma avoids_onAll {op : ∀ R : Type, RecordFile.Op R Unit}
    (h : ∀ {R : Type}, Avoids .alreadyOpen (op R)) : Avoids .alreadyOpen (onAll op) := by
  have hone : ∀ name, Avoids .alreadyOpen (Op.onIndex name (op Posting)) := by
    intro name store store' hrun
    cases hget : store.indexes.get? name with
    | none =>
      simp only [Op.onIndex, hget] at hrun
      cases hrun
    | some file =>
      rw [onIndex_eq hget] at hrun
      exact h.onPart _ _ hrun
  unfold onAll
  rw [onDocs_eq, onStates_eq]
  exact h.onPart.bind fun _ => h.onPart.bind fun _ store =>
    Avoids.forM hone store.indexes.keys store

/-- Nor does reading all records of a file.

**Proof sketch.** Induction on the lines: a line that cannot be decoded is an error of its own, and
so is a file that is not there. -/
lemma scanAll_ne_alreadyOpen {R : Type} [Record R] (file : RecordFile R) :
    file.scanAll ≠ .error .alreadyOpen := by
  have hlines : ∀ ls : List Bytes, ls.mapM (decodeLine (R := R)) ≠ .error .alreadyOpen := by
    intro ls
    induction ls with
    | nil => exact fun h => by cases h
    | cons l ls ih =>
      rw [List.mapM_cons]
      unfold decodeLine
      cases Record.decode? (R := R) l with
      | none => exact fun h => by cases h
      | some record =>
        intro h
        cases hrest : ls.mapM (decodeLine (R := R)) with
        | error e =>
          unfold decodeLine at hrest
          simp only [hrest, bind, Except.bind, Except.error.injEq] at h
          subst h
          exact ih hrest
        | ok records =>
          unfold decodeLine at hrest
          simp only [hrest, bind, Except.bind] at h
          cases h
  unfold scanAll namedLines
  cases file.contents with
  | none => exact fun h => by cases h
  | some bytes => exact hlines _

/-- Nothing about the files makes it look as if a session were open. -/
lemma avoids_openFiles (mode : Mode) : Avoids .alreadyOpen (openFiles mode) := by
  rw [openFiles_eq]
  refine (avoids_onAll (avoids_openFile mode)).bind fun _ => Avoids.bind ?_ fun _ => ?_
  · rw [look_eq]
    exact avoids_observe fun store => scanAll_ne_alreadyOpen store.stateFile
  · exact fun _ _ hrun => by cases hrun

/-- Making files leaves the session as it is, open or not. -/
lemma preserves_session_createFiles (session : Option Mode) :
    Preserves (fun store : Store => store.session = session) createFiles :=
  (preserves_onDocs fun _ _ h => h).bind fun _ => (preserves_onStates fun _ _ h => h).bind fun _ =>
    preserves_onIndexes fun _ _ h => h

/-- A session is started, or there is still none.

**Proof sketch.** Either all files are opened, or one of them fails and the store is closed again. A
session for reading makes the files first, which does not open them. -/
theorem openIn_cases (h : store.session = none) (mode : Mode) :
    (∃ opened, openIn mode store = .ok () opened ∧ opened.session = some mode) ∨
    ∃ e store', openIn mode store = .error e store' ∧ store'.session = none ∧
      e ≠ .alreadyOpen := by
  have henter : ∀ store : Store,
      (∃ opened, enter mode store = .ok () opened ∧ opened.session = some mode) ∨
      ∃ e store', enter mode store = .error e store' ∧ store'.session = none ∧
        e ≠ .alreadyOpen := by
    intro store
    cases hrun : openFiles mode store with
    | ok a opened => exact .inl ⟨_, bind_ok (attempt_ok hrun) _, rfl⟩
    | error e failed =>
      refine .inr ⟨e, failed.close, bind_ok (attempt_error hrun) _, rfl, ?_⟩
      rintro rfl
      exact avoids_openFiles mode _ _ hrun
  have hclosed : store.isOpen = false := by simp [isOpen, h]
  rw [openIn_eq, get_bind]
  simp only [hclosed, Bool.false_eq_true, if_false]
  cases mode with
  | readWrite => exact henter store
  | read =>
    have hsession := preserves_session_createFiles none store h
    cases hrun : createFiles store with
    | ok a made =>
      rw [if_pos rfl, bind_ok hrun]
      exact henter made
    | error e failed =>
      rw [after_error hrun] at hsession
      refine .inr ⟨e, failed, by rw [if_pos rfl, bind_error hrun], hsession, ?_⟩
      rintro rfl
      exact avoids_onAll avoids_create _ _ hrun

/-- No session is open, and none that is started is refused because of one. -/
def Free (store : Store) : Prop :=
  store.session = none ∧ ∀ mode e store', openIn mode store = .error e store' → e ≠ .alreadyOpen

/-- A store without a session is free: one that is started there fails, if it does, for another
reason. -/
lemma free_iff : store.Free ↔ store.session = none := by
  refine ⟨And.left, fun h => ⟨h, fun mode e store' hrun => ?_⟩⟩
  rcases openIn_cases h mode with ⟨opened, hopen, -⟩ | ⟨e', store'', hopen, -, hne⟩
  · cases hrun.symm.trans hopen
  · cases hrun.symm.trans hopen
    exact hne

/-- What is known of a session for writing when it has been started: all files are open for writing,
that of the typo states has been opened and read, and they have not changed since. -/
structure JustOpened (store opened : Store) : Prop where
  session_eq : opened.session = some .readWrite
  writable : opened.AllWritable
  openStates : RecordFile.openIn .readWrite store.stateFile = .ok () opened.stateFile
  scanStates : ∃ records, opened.stateFile.scanAll = .ok records
  clean : opened.states.isDirty = false

/-- A file that was opened has a handle of the mode that was asked for. -/
lemma handle_of_openIn {R : Type} {file file' : RecordFile R}
    (h : RecordFile.openIn mode file = .ok () file') : file'.handle = some { mode } := by
  rw [openFile_eq] at h
  split at h
  · obtain ⟨_, made, -, h⟩ := exists_of_bind_ok h
    exact handle_of_takeHandle h
  · exact handle_of_takeHandle h

/-- An operation on the file of a field that has succeeded found the file. -/
lemma exists_of_onIndex {name : String} {op : RecordFile.Op Posting α} {a : α}
    (h : Op.onIndex name op store = .ok a store') :
    ∃ file file', op file = .ok a file' ∧
      store' = { store with indexes := store.indexes.insert name file' } := by
  cases hget : store.indexes.get? name with
  | none =>
    simp only [Op.onIndex, hget] at h
    cases h
  | some file =>
    rw [onIndex_eq hget] at h
    exact ⟨file, exists_of_onPart_ok h⟩

/-- What every file of a field is once an operation on all of them has succeeded.

**Proof sketch.** Induction on the names that are gone through: a file is the result of the
operation, or its name is not among the names and the file is as before. The store goes through all
names there are. -/
lemma indexes_of_onIndexes {op : RecordFile.Op Posting Unit} {F : RecordFile Posting → Prop}
    (hop : ∀ file file', op file = .ok () file' → F file')
    (h : Op.onIndexes op store = .ok () store') :
    ∀ name file, store'.indexes.get? name = some file → F file := by
  have hforM : ∀ (names : List String) (store : Store),
      names.forM (fun name => Op.onIndex name op) store = .ok () store' →
        ∀ name file, store'.indexes.get? name = some file →
          F file ∨ name ∉ names ∧ store.indexes.get? name = some file := by
    intro names
    induction names with
    | nil =>
      intro store hrun name file hget
      cases hrun
      exact .inr ⟨List.not_mem_nil, hget⟩
    | cons first names ih =>
      intro store hrun name file hget
      obtain ⟨_, store₁, hfirst, hrest⟩ := exists_of_bind_ok hrun
      obtain ⟨old, new, hnew, rfl⟩ := exists_of_onIndex hfirst
      rcases ih _ hrest name file hget with hfile | ⟨hnot, hold⟩
      · exact .inl hfile
      · by_cases hname : name = first
        · rw [hname, OrderedMap.get?_insert_self] at hold
          obtain rfl := Option.some.inj hold
          exact .inl (hop old new hnew)
        · rw [OrderedMap.get?_insert_of_ne hname] at hold
          exact .inr ⟨fun hmem => (List.mem_cons.1 hmem).elim hname hnot, hold⟩
  intro name file hget
  rcases hforM store.indexes.keys store h name file hget with hfile | ⟨hnot, hold⟩
  · exact hfile
  · exact absurd (OrderedMap.contains_iff_mem_keys.1 (by rw [OrderedMap.contains, hold]; rfl)) hnot

/-- **A session for writing that has been started.**

**Proof sketch.** The session opens the documents, the states and the files of the fields in turn
and then reads the states. Each of the four leaves alone what the ones before it have opened. -/
theorem justOpened_of_openIn (h : openIn .readWrite store = .ok () opened) :
    store.JustOpened opened := by
  have hclean := isDirty_of_openIn h
  have hopen : enter .readWrite store = .ok () opened := by
    rw [openIn_eq, get_bind] at h
    by_cases hsession : store.isOpen = true
    · simp only [hsession, if_true] at h
      cases h
    · simp only [hsession, Bool.false_eq_true, if_false] at h
      exact h
  obtain ⟨result, done, hattempt, hresult⟩ := exists_of_bind_ok hopen
  cases result with
  | error e => cases hresult
  | ok a =>
    cases hresult
    obtain ⟨_, store₁, hfirst, hrun⟩ := exists_of_bind_ok (ok_of_attempt hattempt)
    obtain ⟨_, store₂, hsecond, hrun⟩ := exists_of_bind_ok hrun
    obtain ⟨_, store₃, hthird, hrun⟩ := exists_of_bind_ok hrun
    obtain ⟨records, store₄, hscan, hload⟩ := exists_of_bind_ok hrun
    cases hload
    rw [onDocs_eq] at hfirst
    rw [onStates_eq] at hsecond
    rw [look_eq] at hscan
    obtain ⟨docs, hdocs, rfl⟩ := exists_of_onPart_ok hfirst
    obtain ⟨stateFile, hstates, rfl⟩ := exists_of_onPart_ok hsecond
    have hindexes := indexes_of_onIndexes (fun _ _ hrun => handle_of_openIn hrun) hthird
    -- opening the files of the fields spares the documents and the states
    have hkeeps : Preserves (fun store : Store => store.docs = docs ∧ store.stateFile = stateFile)
        (Op.onIndexes (RecordFile.openIn .readWrite)) := preserves_onIndexes fun _ _ h => h
    have hspared := hkeeps { store with docs, stateFile } ⟨rfl, rfl⟩
    rw [after_ok hthird] at hspared
    obtain ⟨rfl, rfl⟩ := hspared
    obtain ⟨hread, rfl⟩ := eq_of_observe hscan
    exact ⟨rfl, ⟨handle_of_openIn hdocs, handle_of_openIn hstates, hindexes⟩, hstates,
      ⟨records, hread⟩, hclean⟩

end Opening

/-! ## The end of a session -/

section Closing

/-- Typo states can be removed from a file that is open for writing, whatever is in it. -/
lemma ensures_dropStates (removed : List Nat) :
    Ensures (fun store : Store => store.stateFile.Writable) (writeStates [] removed)
      fun _ store => store.stateFile.Writable :=
  @Ensures.forM _ _ _ (fun (_ : List Nat) (store : Store) => store.stateFile.Writable) _
    (fun _ _ => (ensures_onStates (ensures_delete _)).bind fun _ store hstore =>
      ⟨PUnit.unit, store, rfl, hstore⟩) removed

/-- Typo states are stored if each of them is admitted.

**Proof sketch.** A list of states that a file admits is stored one by one, since what is left is
admitted after each of them. Then the file is open for writing, and removing succeeds. -/
lemma ensures_writeStates {added : List Nat} (hnodup : added.Nodup) (removed : List Nat) :
    Ensures (fun store : Store => store.stateFile.Admits added) (writeStates added removed)
      fun _ store => store.stateFile.Writable := by
  have hadded : Ensures (fun store : Store => store.stateFile.Admits added)
      (added.forM fun state => Op.onStates (RecordFile.upsert ⟨state⟩ .replace) : Op Unit)
      fun _ store => store.stateFile.Admits [] := by
    have hsteps := @Ensures.forM _ _ _
      (fun (rest : List Nat) (store : Store) => rest.Nodup ∧ store.stateFile.Admits rest)
      (fun state => Op.onStates (RecordFile.upsert ⟨state⟩ .replace)) (fun state rest => by
        rintro store ⟨hnodup, hadmits⟩
        obtain ⟨hnot, hrest⟩ := List.nodup_cons.1 hnodup
        obtain ⟨a, store', hrun, hstore'⟩ :=
          ensures_onStates (ensures_upsert hnot) store hadmits
        exact ⟨a, store', hrun, hrest, hstore'⟩) added
    intro store hstore
    obtain ⟨a, store', hrun, -, hstore'⟩ := hsteps store ⟨hnodup, hstore⟩
    exact ⟨a, store', hrun, hstore'⟩
  exact hadded.bind fun _ store hstore => ensures_dropStates removed store hstore.writable

/-- What a session leaves to be stored can be stored: it was for reading, or the typo states are as
they are stored, or some are only to be removed, or the file takes those that are to be added. -/
def Settles (store : Store) : Prop :=
  store.session = some .readWrite → store.states.isDirty = true →
    store.stateFile.Writable ∧ store.states.added.isEmpty = true ∨
      store.stateFile.Admits store.states.added.keys

/-- If the typo states are as they are stored, there is nothing to be stored. -/
lemma settles_of_clean (h : store.states.isDirty = false) : store.Settles := by
  intro _ hdirty
  rw [h] at hdirty
  cases hdirty

/-- A session for reading stores nothing when it ends. -/
lemma settles_of_read (h : store.session = some .read) : store.Settles := by
  intro hwrite
  cases h.symm.trans hwrite

/-- No session is open once one has been committed. -/
lemma session_of_commit (h : commit store = .ok () store') : store'.session = none := by
  unfold commit at h
  rw [get_bind] at h
  split at h
  · obtain ⟨_, written, -, hclose⟩ := exists_of_bind_ok h
    cases hclose
    rfl
  · cases h
    rfl

/-- **A session ends** if what it leaves to be stored can be stored.

**Proof sketch.** With nothing to write the store is just closed. Otherwise there are only states to
remove, which always succeeds, or the file of states admits those that are added. -/
theorem Settles.commit (h : store.Settles) :
    ∃ store', Store.commit store = .ok () store' ∧ store'.session = none := by
  obtain ⟨store', hrun⟩ : ∃ store', Store.commit store = .ok () store' := by
    unfold Store.commit
    rw [get_bind]
    by_cases hwrite : store.session = some .readWrite ∧ store.states.isDirty = true
    · rw [if_pos hwrite]
      have hdeltas : ∃ a store', writeDeltas store = .ok a store' := by
        unfold writeDeltas
        rcases h hwrite.1 hwrite.2 with ⟨hwritable, hnone⟩ | hadmits
        · obtain ⟨a, store', hrun, -⟩ := ensures_dropStates store.states.removed.keys
            { store with states := store.states.takeDeltas.2 } hwritable
          refine ⟨a, store', ?_⟩
          have hadded : store.states.takeDeltas.1.1 = [] := by
            rw [StateSet.takeDeltas, OrderedMap.keys, List.isEmpty_iff.1 hnone]
            rfl
          simp only [get_bind, hadded]
          exact hrun
        · obtain ⟨a, store', hrun, -⟩ := ensures_writeStates store.states.added.nodup_keys
            store.states.removed.keys { store with states := store.states.takeDeltas.2 } hadmits
          exact ⟨a, store', hrun⟩
      obtain ⟨_, written, hrun⟩ := hdeltas
      exact ⟨written.close, bind_ok hrun _⟩
    · rw [if_neg hwrite]
      exact ⟨store.close, rfl⟩
  exact ⟨store', hrun, session_of_commit hrun⟩

variable {op : Op α}

/-- Asking for a session where there is none starts one, and tells that it did. -/
lemma ensureOpen_of_openIn (h : store.session = none) (hopen : openIn mode store = .ok () opened) :
    ensureOpen mode store = .ok true opened := by
  unfold ensureOpen
  rw [get_bind, h]
  exact bind_ok hopen _

/-- A session is started for an operation, or there is still none. -/
lemma ensureOpen_cases (h : store.session = none) (mode : Mode) :
    (∃ opened, openIn mode store = .ok () opened ∧ ensureOpen mode store = .ok true opened) ∨
    ∃ e failed, ensureOpen mode store = .error e failed ∧ failed.session = none := by
  rcases openIn_cases h mode with ⟨opened, hopen, -⟩ | ⟨e, failed, hopen, hfailed, -⟩
  · exact .inl ⟨opened, hopen, ensureOpen_of_openIn h hopen⟩
  · refine .inr ⟨e, failed, ?_, hfailed⟩
    unfold ensureOpen
    rw [get_bind, h]
    exact bind_error hopen _

/-- **An operation in a session of its own** leaves none open if what it leaves to be stored can be
stored, whatever else comes of it. -/
theorem session_within (h : store.session = none)
    (hop : ∀ opened, openIn mode store = .ok () opened → (after op opened).Settles) :
    (after (within mode op) store).session = none := by
  rcases ensureOpen_cases h mode with ⟨opened, hopen, hensure⟩ | ⟨e, failed, hensure, hfailed⟩
  · obtain ⟨result, hresult⟩ := after_attempt op opened
    obtain ⟨ended, hcommit, hended⟩ := (hop opened hopen).commit
    have hrun := within_of_opened hensure hresult hcommit
    cases result with
    | ok a => rwa [after_ok (ok_of_attempt hrun)]
    | error e => rwa [after_error (error_of_attempt hrun)]
  · have hrun : within mode op store = .error e failed := bind_error hensure _
    rwa [after_error hrun]

/-- An operation in a session of its own that succeeds leaves none open.

**Proof sketch.** The session was started by the operation, as there was none. So it is ended at the
end, and a session that is ended is none. -/
theorem session_of_within {a : α} (h : store.session = none)
    (hrun : within mode op store = .ok a store') : store'.session = none := by
  unfold within at hrun
  obtain ⟨opened, started, hensure, hrest⟩ := exists_of_bind_ok hrun
  obtain ⟨result, done, -, hrest⟩ := exists_of_bind_ok hrest
  obtain ⟨_, ended, hrelease, hanswer⟩ := exists_of_bind_ok hrest
  obtain rfl : opened = true := by
    unfold ensureOpen at hensure
    rw [get_bind, h] at hensure
    obtain ⟨_, _, -, hdone⟩ := exists_of_bind_ok hensure
    cases hdone
    rfl
  have hended : ended.session = none := session_of_commit hrelease
  cases result with
  | ok a =>
    cases hanswer
    exact hended
  | error e => cases hanswer

end Closing

end Concordance.Store
