import Concordance.Proofs.Store.Changes

set_option relaxedAutoImplicit false
set_option autoImplicit false

/-!
# Operations that leave files as they are

To open files that are there, and to close them, changes nothing on disk. Neither does it change
anything to put an id under a term where it is already, or to take it away where it is not. So a
session with no other steps leaves every file as it was, byte for byte.

## Main definitions

* `Concordance.Store.onDisk` — what is stored under the names of a store's files.
* `Concordance.Store.Complete` — all files of a store are there.
* `Concordance.Store.Leaves` — an operation leaves files that are there as they are.

## Main results

* `Concordance.Store.leaves_openIn` — the start of a session.
* `Concordance.Store.Rests.within_same` — a session in which nothing changes.
* `Concordance.Store.Rests.saveIndexes_same`, `removeFromIndexes_same` — terms under which an id is
  already, or under which it is not.
-/

namespace Concordance

open Operation

/-! ## Record files -/

namespace RecordFile

variable {R : Type}

/-- What is stored under the name of a record file. -/
def onDisk (file : RecordFile R) : String × Option Bytes := (file.name, file.contents)

/-- To open a file that is there changes nothing on disk, whether it succeeds or not. -/
lemma onDisk_openIn {file : RecordFile R} (h : file.contents.isSome) (mode : Mode) :
    (after (openIn mode) file).onDisk = file.onDisk := by
  obtain ⟨bytes, hbytes⟩ := Option.isSome_iff_exists.1 h
  have hcreate : (if mode = .readWrite then create else pure ()) file = .ok () file := by
    split
    · exact create_of_isSome h
    · rfl
  unfold openIn after
  rw [ite_bind_ok hcreate]
  simp only [get_bind, hbytes]
  cases firstWidth file.name bytes <;> rfl

end RecordFile

namespace Store

/-! ## Files on disk -/

/-- What is stored under the names of a store's files, and in the other files of its directory. -/
def onDisk (store : Store) : (String × Option Bytes) × (String × Option Bytes) ×
    OrderedMap String (String × Option Bytes) × Directory :=
  (store.docs.onDisk, store.stateFile.onDisk, store.indexes.map fun _ file => file.onDisk,
    store.others)

/-- All files of a store are there. -/
structure Complete (store : Store) : Prop where
  docs : store.docs.contents.isSome
  states : store.stateFile.contents.isSome
  indexes : ∀ name file, store.indexes.get? name = some file → file.contents.isSome

variable {setup : Setup} {store store' : Store} {view : View} {field : Field} {term : String}
  {id : DocId}

/-- What is on disk is what is in the directory.

**Proof sketch.** The directory is made by putting file after file into it, and what is put depends
on no more than the name and the contents. -/
theorem directory_eq_of_onDisk_eq (h : store'.onDisk = store.onDisk) :
    store'.directory = store.directory := by
  have hput : ∀ {R : Type} {file file' : RecordFile R} (directory : Directory),
      file'.onDisk = file.onDisk → put file' directory = put file directory := by
    intro R file file' directory hfile
    obtain ⟨hname, hcontents⟩ := Prod.mk.inj hfile
    unfold put
    rw [hname, hcontents]
  -- the files of all fields come into the directory by what is on disk
  have hfold : ∀ (files : List (RecordFile Posting)) (directory : Directory),
      files.foldl (fun directory file => put file directory) directory =
        (files.map RecordFile.onDisk).foldl (fun directory (disk : String × Option Bytes) =>
          put (⟨disk.1, 0, 0, disk.2, none⟩ : RecordFile Posting) directory) directory := by
    intro files directory
    rw [List.foldl_map]
    rfl
  have hvalues : ∀ indexes : OrderedMap String (RecordFile Posting),
      indexes.values.map RecordFile.onDisk = (indexes.map fun _ file => file.onDisk).values := by
    intro indexes
    simp [OrderedMap.values, OrderedMap.map]
  simp only [onDisk, Prod.mk.injEq] at h
  obtain ⟨hdocs, hstates, hindexes, hothers⟩ := h
  unfold directory
  rw [hput _ hdocs, hput _ hstates, hfold, hfold, hvalues, hvalues, hindexes, hothers]

/-- Files on disk are there. -/
lemma Complete.congr (h : store.Complete) (heq : store'.onDisk = store.onDisk) :
    store'.Complete := by
  simp only [onDisk, Prod.mk.injEq] at heq
  obtain ⟨hdocs, hstates, hindexes, -⟩ := heq
  refine ⟨?_, ?_, fun name file hget => ?_⟩
  · rw [(Prod.mk.inj hdocs).2]
    exact h.docs
  · rw [(Prod.mk.inj hstates).2]
    exact h.states
  · have hsame := congrArg (fun indexes => indexes.get? name) hindexes
    simp only [OrderedMap.get?_map, hget, Option.map_some] at hsame
    obtain ⟨file', hget', hfile'⟩ := Option.map_eq_some_iff.1 hsame.symm
    rw [← (Prod.mk.inj hfile').2]
    exact h.indexes name file' hget'

/-! ## Operations that leave files as they are -/

section Leaves

variable {α β : Type}

/-- An operation leaves the files of a store as they are if all of them are there, whatever comes of
it. -/
def Leaves (op : Op α) : Prop :=
  ∀ store : Store, store.Complete → (after op store).onDisk = store.onDisk

/-- A result changes no files. -/
lemma leaves_pure (a : α) : Leaves (pure a : Op α) := fun _ _ => rfl

/-- An error changes no files. -/
lemma leaves_throw (e : Error) : Leaves (throw e : Op α) := fun _ _ => rfl

/-- What changes nothing that is on the disk changes no files. -/
lemma leaves_modify {f : Store → Store} (h : ∀ store, (f store).onDisk = store.onDisk) :
    Leaves (modify f) := fun store _ => h store

/-- What changes no files of any store changes none after a look at the store. -/
lemma leaves_get_bind {f : Store → Op α} (h : ∀ store, Leaves (f store)) : Leaves (get >>= f) :=
  fun store hcomplete => h store store hcomplete

/-- To leave files as they are is to keep what is on disk, whatever it is. -/
lemma leaves_iff {op : Op α} :
    Leaves op ↔ ∀ disk, Preserves (fun store => store.Complete ∧ store.onDisk = disk) op := by
  constructor
  · rintro h disk store ⟨hcomplete, rfl⟩
    have hsame := h store hcomplete
    exact ⟨hcomplete.congr hsame, hsame⟩
  · exact fun h store hcomplete => (h store.onDisk store ⟨hcomplete, rfl⟩).2

namespace Leaves

/-- One operation after the other. -/
lemma bind {op : Op α} {f : α → Op β} (h : Leaves op) (hf : ∀ a, Leaves (f a)) :
    Leaves (op >>= f) :=
  leaves_iff.2 fun disk => (leaves_iff.1 h disk).bind fun a => leaves_iff.1 (hf a) disk

/-- An operation whose outcome is kept for later changes no files if it did not before. -/
lemma attempt {op : Op α} (h : Leaves op) : Leaves (Op.attempt op) := by
  intro store hcomplete
  obtain ⟨result, hrun⟩ := after_attempt op store
  rw [after_ok hrun]
  exact h store hcomplete

/-- A list of operations leaves the files as they are if each of them does. -/
lemma forM {op : β → Op Unit} (h : ∀ b, Leaves (op b)) (items : List β) :
    Leaves (items.forM op) :=
  leaves_iff.2 fun disk => Preserves.forM (fun b => leaves_iff.1 (h b) disk) items

end Leaves

/-- A question leaves the files as they are. -/
lemma leaves_look (f : Store → Except Error α) : Leaves (Op.look f) :=
  leaves_iff.2 fun _ => preserves_look f

/-- An operation on a part of a store leaves the files as they are if what it makes of the part is
the same on disk. -/
lemma leaves_onPart {τ : Type} {part : Store → τ} {put : Store → τ → Store}
    {inner : EStateM Error τ α}
    (h : ∀ store, store.Complete → (put store (after inner (part store))).onDisk = store.onDisk) :
    Leaves (onPart part put inner) := by
  intro store hcomplete
  rw [after_onPart]
  exact h store hcomplete

/-- Another file in the place of one with the same bytes on disk. -/
lemma map_insert_onDisk {indexes : OrderedMap String (RecordFile Posting)} {name : String}
    {file file' : RecordFile Posting} (hget : indexes.get? name = some file)
    (hfile : file'.onDisk = file.onDisk) :
    (indexes.insert name file').map (fun _ file => file.onDisk) =
      indexes.map fun _ file => file.onDisk := by
  refine OrderedMap.ext_get? fun other => ?_
  rw [OrderedMap.get?_map, OrderedMap.get?_map]
  by_cases heq : other = name
  · rw [heq, OrderedMap.get?_insert_self, hget, Option.map_some, Option.map_some, hfile]
  · rw [OrderedMap.get?_insert_of_ne heq]

/-- An operation that leaves the file of a field as it is. -/
lemma leaves_onIndex {op : RecordFile.Op Posting α} (name : String)
    (h : ∀ file, file.contents.isSome → (after op file).onDisk = file.onDisk) :
    Leaves (Op.onIndex name op) := by
  intro store hcomplete
  cases hget : store.indexes.get? name with
  | none => rw [after_onIndex_of_none hget]
  | some file =>
    have hfile := h file (hcomplete.indexes name file hget)
    rw [after_onIndex hget]
    simp only [onDisk, map_insert_onDisk hget hfile]

/-- An operation that leaves single files that are there as they are leaves all files of a store as
they are. -/
lemma leaves_onAll {op : ∀ R : Type, RecordFile.Op R Unit}
    (h : ∀ {R : Type} (file : RecordFile R), file.contents.isSome →
      (after (op R) file).onDisk = file.onDisk) :
    Leaves (onAll op) := by
  unfold onAll
  rw [onDocs_eq, onStates_eq]
  refine (leaves_onPart fun store hcomplete => ?_).bind fun _ =>
    (leaves_onPart fun store hcomplete => ?_).bind fun _ =>
      leaves_get_bind fun _ => Leaves.forM (fun name => leaves_onIndex name h) _
  · simp only [onDisk, h store.docs hcomplete.docs]
  · simp only [onDisk, h store.stateFile hcomplete.states]

/-- To close all files changes nothing on disk. -/
lemma onDisk_close (store : Store) : store.close.onDisk = store.onDisk := by
  have hindexes : (store.indexes.map fun _ file => file.close).map (fun _ file => file.onDisk) =
      store.indexes.map fun _ file => file.onDisk := by
    refine OrderedMap.ext_get? fun name => ?_
    simp only [OrderedMap.get?_map, Option.map_map]
    rfl
  simp only [onDisk, close, hindexes]
  rfl

/-! ## Sessions -/

/-- To make files that are there changes nothing on disk. -/
lemma leaves_createFiles : Leaves createFiles := by
  rw [createFiles_eq]
  exact leaves_onAll fun file hsome => by rw [after_ok (RecordFile.create_of_isSome hsome)]

/-- To open files that are there changes nothing on disk. -/
lemma leaves_openFiles (mode : Mode) : Leaves (openFiles mode) := by
  rw [openFiles_eq]
  exact (leaves_onAll fun file hsome => RecordFile.onDisk_openIn hsome mode).bind fun _ =>
    (leaves_look _).bind fun _ => leaves_modify fun _ => rfl

/-- **To start a session changes nothing on disk** if all files are there.

**Proof sketch.** By whether a session is open already. If none is, the files are made, which
changes nothing if they are there, and each of them is opened; if that fails they are closed. -/
theorem leaves_openIn (mode : Mode) : Leaves (Store.openIn mode) := by
  have henter : Leaves (enter mode) := by
    refine (leaves_openFiles mode).attempt.bind fun result => ?_
    cases result with
    | ok _ => exact leaves_modify fun _ => rfl
    | error e => exact (leaves_modify onDisk_close).bind fun _ => leaves_throw e
  have hrest : Leaves
      (if mode = .read then createFiles >>= fun _ => enter mode else enter mode) := by
    split
    · exact leaves_createFiles.bind fun _ => henter
    · exact henter
  rw [openIn_eq]
  refine leaves_get_bind fun store => ?_
  by_cases hopen : store.isOpen = true
  · simp only [hopen, if_true]
    exact (leaves_throw _).bind fun _ => hrest
  · simp only [hopen, Bool.false_eq_true, if_false]
    exact hrest

/-- A session that is opened where there is none changes no files. -/
lemma leaves_ensureOpen (mode : Mode) : Leaves (ensureOpen mode) := by
  refine leaves_get_bind fun store => ?_
  cases store.session with
  | none => exact (leaves_openIn mode).bind fun _ => leaves_pure true
  | some current =>
    cases current with
    | read =>
      simp only
      split
      · exact (leaves_throw _).bind fun _ => leaves_pure false
      · exact leaves_pure false
    | readWrite => exact leaves_pure false

end Leaves

/-- When a session has just been started there are no typo states to save.

**Proof sketch.** The last step of opening all files loads the states, and a set that has just been
loaded has no differences. -/
lemma isDirty_of_openIn {mode : Mode} {opened : Store}
    (h : Store.openIn mode store = .ok () opened) : opened.states.isDirty = false := by
  have henter : ∀ {before opened : Store}, enter mode before = .ok () opened →
      opened.states.isDirty = false := by
    intro before opened hrun
    obtain ⟨result, done, hattempt, hresult⟩ := exists_of_bind_ok hrun
    cases result with
    | error e => cases hresult
    | ok a =>
      cases hresult
      obtain ⟨_, _, -, hrun⟩ := exists_of_bind_ok (ok_of_attempt hattempt)
      obtain ⟨_, _, -, hrun⟩ := exists_of_bind_ok hrun
      obtain ⟨_, _, -, hrun⟩ := exists_of_bind_ok hrun
      obtain ⟨records, read, -, hload⟩ := exists_of_bind_ok hrun
      cases hload
      exact (StateSet.tracks_load read.states _).isDirty_eq_false
  rw [openIn_eq, get_bind] at h
  by_cases hopen : store.isOpen = true
  · simp only [hopen, if_true] at h
    cases h
  · simp only [hopen, Bool.false_eq_true, if_false] at h
    split at h
    · obtain ⟨_, _, -, hrun⟩ := exists_of_bind_ok h
      exact henter hrun
    · exact henter h

/-- The files of a store that rests on files that are there. -/
lemma Rests.complete (h : store.Rests setup .made view) : store.Complete := by
  refine ⟨h.files.docs.2, h.files.states.2, fun name file hget => ?_⟩
  obtain ⟨field, hfield, rfl⟩ := h.files.exists_field hget
  exact (h.files.lists field hfield file hget).2

/-- A session without typo states to save ends with the files closed. -/
lemma commit_eq_close (h : store.states.isDirty = false) :
    Store.commit store = .ok () store.close := by
  unfold Store.commit
  rw [get_bind, if_neg (by simp [h])]
  rfl

/-- **A session in which nothing changes** leaves all files as they are.

**Proof sketch.** To open the files changes nothing. The typo states have just been loaded, so none
are saved at the end, and the files are only closed. -/
theorem Rests.within_same {α : Type} {op : Op α} {a : α} (h : store.Rests setup .made view)
    (hop : ∀ opened : Store, opened.Runs setup .readWrite view → op opened = .ok a opened) :
    ∃ store', Store.within .readWrite op store = .ok a store' ∧ store'.onDisk = store.onDisk := by
  rcases @Rests.ensureOpen _ _ _ _ .readWrite h with ⟨opened, hopen, hruns⟩ | ⟨himpossible, -⟩
  · have hdisk := leaves_ensureOpen .readWrite store h.complete
    rw [after_ok hopen] at hdisk
    have hclean : opened.states.isDirty = false := by
      rw [Store.ensureOpen, get_bind, h.session_eq] at hopen
      obtain ⟨_, _, hstart, hdone⟩ := exists_of_bind_ok hopen
      cases hdone
      exact isDirty_of_openIn hstart
    refine ⟨opened.close, ?_, (onDisk_close opened).trans hdisk⟩
    exact ok_of_attempt
      (within_of_opened hopen (attempt_ok (hop opened hruns)) (commit_eq_close hclean))
  · cases himpossible

/-! ## Terms of a document -/

/-- Operations that each change nothing change nothing one after the other. -/
lemma forM_same {β : Type} {op : β → Op Unit} {items : List β}
    (h : ∀ item ∈ items, op item store = .ok () store) : items.forM op store = .ok () store := by
  induction items with
  | nil => rfl
  | cons item items ih =>
    have hfirst := h item List.mem_cons_self
    exact (bind_ok hfirst _).trans (ih fun other hother => h other (List.mem_cons_of_mem _ hother))

/-- Changes of the lists of all terms of a document that each change nothing leave the files as they
are. -/
lemma Rests.within_forTerms_same (h : store.Rests setup .made view) {fields : Fields}
    {change : Field → String → Op Unit} (hchange : ∀ entry ∈ setup.indexTerms fields,
      ∀ opened : Store, opened.Runs setup .readWrite view →
        change entry.1 entry.2 opened = .ok () opened) :
    ∃ store', Store.within .readWrite (do
        ((← get).indexTerms fields).forM fun (field, term) => change field term) store =
          .ok () store' ∧ store'.onDisk = store.onDisk := by
  refine h.within_same fun opened hruns => ?_
  rw [get_bind, hruns.indexTerms_eq]
  exact forM_same fun entry hentry => hchange entry hentry opened hruns

/-- **An id that is under all terms of a document already** is put there without any change. -/
theorem Rests.saveIndexes_same (h : store.Rests setup .made view) {fields : Fields}
    (hmem : ∀ entry ∈ setup.indexTerms fields, id ∈ (view.lists entry.1.name entry.2).ids) :
    ∃ store', Store.saveIndexes id fields store = .ok () store' ∧
      store'.onDisk = store.onDisk :=
  h.within_forTerms_same fun entry hentry _ hruns =>
    hruns.addPosting_same (setup.mem_indexTerms.1 hentry).1 (hmem entry hentry)

/-- **An id that is under no term of a document** is taken away without any change. -/
theorem Rests.removeFromIndexes_same (h : store.Rests setup .made view) {fields : Fields}
    (hmem : ∀ entry ∈ setup.indexTerms fields, id ∉ (view.lists entry.1.name entry.2).ids) :
    ∃ store', Store.removeFromIndexes ⟨id, fields⟩ store = .ok () store' ∧
      store'.onDisk = store.onDisk :=
  h.within_forTerms_same fun entry hentry _ hruns =>
    hruns.removePosting_same (setup.mem_indexTerms.1 hentry).1 (hmem entry hentry)

end Store

end Concordance
