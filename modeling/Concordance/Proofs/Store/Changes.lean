import Concordance.Proofs.Store.Sessions

set_option relaxedAutoImplicit false
set_option autoImplicit false

/-!
# Changes in a session

What the changes of a store do to the view that the store stands for. Ids are put under a term and
taken away one list at a time, and the typo states in memory follow the lists: a state is added with
the first posting that carries it, and removed with the last.

## Main definitions

* `Concordance.Store.View.withList`, `changeAll` — a view with other lists under some terms.
* `Concordance.Store.View.save`, `remove` — a view with an id under the terms of a document, and
  without it.

## Main results

* `Concordance.Store.Runs.addPosting` — an id is put under a term.
* `Concordance.Store.Runs.removePosting` — an id is taken from under a term.
* `Concordance.Store.Runs.saveIndexes`, `removeFromIndexes` — all terms of a document.
* `Concordance.Store.Runs.saveDocument` — a document is stored.
-/

namespace Concordance.Store

open Operation RecordFile

/-! ## One list of a view -/

/-- The view with another list under a term of a field. -/
def View.withList (view : View) (field term : String) (list : PostingList) : View :=
  { view with
    lists := Function.update view.lists field (Function.update (view.lists field) term list) }

namespace View

variable {view : View} {field term : String} {list other : PostingList}

/-- A view with another list under a term has that list there, and the lists that it had elsewhere.
-/
lemma lists_withList (view : View) (field term : String) (list : PostingList)
    (name key : String) : (view.withList field term list).lists name key =
      if name = field ∧ key = term then list else view.lists name key := by
  unfold withList
  by_cases hname : name = field
  · subst hname
    by_cases hkey : key = term
    · simp [hkey]
    · simp [hkey]
  · simp [hname]

/-- Putting back the list that is there changes nothing. -/
lemma withList_self : view.withList field term (view.lists field term) = view := by
  simp [withList]

/-- Of two lists put under one term the second one stays. -/
lemma withList_withList :
    (view.withList field term list).withList field term other = view.withList field term other := by
  simp [withList]

end View

variable {setup : Setup} {store : Store} {view : View} {field : Field} {term : String}
  {list : PostingList}

/-- A list that is not empty carries the state of its term.

**Proof sketch.** A state is carried for the term in the list that was put, or in another list,
which is as before. That the list is not empty lets the state be carried. -/
lemma Setup.carried_withList (view : View) (term : String)
    (hfield : field ∈ setup.schema.indexedFields) (hne : list ≠ .empty) :
    setup.carried (view.withList field.name term list).lists =
      {n | setup.stateFor field term = some n} ∪ setup.carried view.lists := by
  ext n
  simp only [carried, Set.mem_ofPred_eq, Set.mem_union, View.lists_withList]
  constructor
  · rintro ⟨other, hother, key, hlist, hstate⟩
    by_cases heq : other.name = field.name ∧ key = term
    · obtain ⟨hname, rfl⟩ := heq
      obtain rfl := setup.eq_of_name_eq hother hfield hname
      exact .inl hstate
    · rw [if_neg heq] at hlist
      exact .inr ⟨other, hother, key, hlist, hstate⟩
  · rintro (hstate | ⟨other, hother, key, hlist, hstate⟩)
    · exact ⟨field, hfield, term, by simpa using hne, hstate⟩
    · refine ⟨other, hother, key, ?_, hstate⟩
      split
      · exact hne
      · exact hlist

/-! ## Operations on one list -/

section Lists

variable {docsStatus statesStatus : Status} {saved : Set Nat} {α : Type}

/-- An operation on the file of a field that changes one list.

**Proof sketch.** The file of the field is changed, and the others are as they were. -/
lemma Files.runList
    (h : store.Files setup docsStatus statesStatus (fun _ => .opened .readWrite) view saved)
    (hfield : field ∈ setup.schema.indexedFields) {op : RecordFile.Op Posting α}
    (hop : ∀ file, file.Lists (indexName setup.schema.name field.name) setup.indexWidth
      (some .readWrite) (setup.stateFor field) (view.lists field.name) →
        ∃ a file', op file = .ok a file' ∧
          file'.Lists (indexName setup.schema.name field.name) setup.indexWidth
            (some .readWrite) (setup.stateFor field)
            (Function.update (view.lists field.name) term list)) :
    ∃ a store', Op.onIndex field.name op store = .ok a store' ∧ store.Spares store' ∧
      store'.Files setup docsStatus statesStatus (fun _ => .opened .readWrite)
        (view.withList field.name term list) saved := by
  obtain ⟨file, hget, hfile⟩ := h.exists_file hfield
  obtain ⟨a, file', hrun, hfile'⟩ := hop file hfile.1
  have hlists : setup.Lists field (.opened .readWrite)
      (Function.update (view.lists field.name) term list) file' :=
    ⟨hfile', hfile'.holds.isSome⟩
  obtain ⟨store', hrun', hspares, hfiles⟩ := h.runIndex hfield hget hrun hlists
  rw [Function.update_eq_self_iff.2 rfl] at hfiles
  exact ⟨a, store', hrun', hspares, hfiles⟩

end Lists

/-- Puts an id under a term.

**Proof sketch.** The id is added to the list in the file of the field. The list is not empty then,
so its state is carried, and it is added to the set in memory if the term has one. -/
theorem Runs.addPosting (h : store.Runs setup .readWrite view)
    (hfield : field ∈ setup.schema.indexedFields) {id : DocId} (hid : id.IsPlain) (term : String) :
    ∃ store', Store.addPosting id field term store = .ok () store' ∧
      store'.Runs setup .readWrite
        (view.withList field.name term ((view.lists field.name term).add id)) := by
  obtain ⟨saved, hfiles, htracks, -⟩ := h.files
  have hstate : store.stateFor field term = setup.stateFor field term := by
    rw [stateFor, hfiles.automaton_eq]
    rfl
  obtain ⟨_, store₁, hrun, hspares, h₁⟩ := hfiles.runList hfield fun file hfile => by
    obtain ⟨file', hrun, hfile'⟩ := hfile.addId (setup.stateFor_lt field) term hid
    exact ⟨(), file', hrun, hfile'⟩
  have hcarried := setup.carried_withList view term hfield
    (PostingList.add_ne_empty (view.lists field.name term) id)
  unfold Store.addPosting
  rw [get_bind, hstate, bind_ok hrun]
  have htracks₁ := htracks
  rw [← hspares.states_eq] at htracks₁
  cases hcase : setup.stateFor field term with
  | none =>
    refine ⟨store₁, rfl, hspares.session_eq.trans h.session_eq, saved, h₁, ?_, by simp⟩
    rw [hcarried]
    simpa [hcase] using htracks₁
  | some n =>
    have hadded := htracks₁.add n
    refine ⟨_, rfl, hspares.session_eq.trans h.session_eq, saved,
      h₁.withStates hadded.alphabet_eq, ?_, by simp⟩
    rw [hcarried]
    simpa [hcase] using hadded

/-- To put an id under a term where it is already changes nothing.

**Proof sketch.** The file has the id in the list of the term, so it stays as it is, and the state
of the term is carried already. -/
lemma Runs.addPosting_same (h : store.Runs setup .readWrite view)
    (hfield : field ∈ setup.schema.indexedFields) {id : DocId}
    (hmem : id ∈ (view.lists field.name term).ids) :
    Store.addPosting id field term store = .ok () store := by
  obtain ⟨saved, hfiles, htracks, -⟩ := h.files
  obtain ⟨file, hget, hfile⟩ := hfiles.exists_file hfield
  have hstate : store.stateFor field term = setup.stateFor field term := by
    rw [stateFor, hfiles.automaton_eq]
    rfl
  have hrun := onIndex_same hget (hfile.1.addId_same (setup.stateFor_lt field) hmem)
  unfold Store.addPosting
  rw [get_bind, hstate, bind_ok hrun]
  cases hcase : setup.stateFor field term with
  | none => rfl
  | some n =>
    have hcarried : n ∈ setup.carried view.lists :=
      ⟨field, hfield, term, fun hempty => PostingList.eq_empty_iff.1 hempty id hmem, hcase⟩
    change EStateM.Result.ok () { store with states := store.states.add n } = .ok () store
    rw [htracks.add_of_mem hcarried]

/-! ## Release of typo states -/

/-- A scan for a state finds something in the file of a field if a posting of the field carries the
state.

**Proof sketch.** A posting is found iff it carries the state, and then the list of its term is not
empty. -/
lemma Files.scanStates {docsStatus statesStatus : Status} {mode : Mode} {saved : Set Nat}
    (h : store.Files setup docsStatus statesStatus (fun _ => .opened mode) view saved) (n : Nat)
    (hfield : field ∈ setup.schema.indexedFields) {file : RecordFile Posting}
    (hget : store.indexes.get? field.name = some file) :
    ∃ postings, file.scanStates [n] = .ok postings ∧
      (postings ≠ [] ↔ ∃ term, view.lists field.name term ≠ .empty ∧
        setup.stateFor field term = some n) := by
  obtain ⟨hlists, hsome⟩ := h.lists field hfield file hget
  obtain ⟨postings, hscan, hmem⟩ :=
    hlists.scanStates (setup.stateFor_lt field) (hsome.isSome (by simp) (by simp)) [n]
  simp only [List.mem_singleton, exists_eq_left] at hmem
  refine ⟨postings, hscan, fun hne => ?_, ?_⟩
  · obtain ⟨posting, hposting⟩ := List.exists_mem_of_ne_nil _ hne
    obtain ⟨⟨hterm, -⟩, hstate⟩ := (hmem posting).1 hposting
    exact ⟨posting.key, hterm, hstate⟩
  · rintro ⟨term, hterm, hstate⟩
    exact List.ne_nil_of_mem ((hmem (.of term (view.lists field.name term)
      (setup.stateFor field term))).2 ⟨⟨hterm, rfl⟩, hstate⟩)

/-- The postings of the files of a store tell whether one of them carries a state.

**Proof sketch.** Induction on the files. The file of a unique field is passed over, and its
postings have no states; in any other one the postings with the state are those found by it. -/
lemma Files.carried_ok {docsStatus statesStatus : Status} {mode : Mode} {saved : Set Nat}
    (h : store.Files setup docsStatus statesStatus (fun _ => .opened mode) view saved) (n : Nat)
    {files : List (String × RecordFile Posting)}
    (hfiles : ∀ entry ∈ files, store.indexes.get? entry.1 = some entry.2) :
    ∃ found, store.carried n files = .ok found ∧
      (found = true ↔ ∃ entry ∈ files, ∃ field ∈ setup.schema.indexedFields,
        field.name = entry.1 ∧ ∃ term, view.lists field.name term ≠ .empty ∧
          setup.stateFor field term = some n) := by
  induction files with
  | nil => exact ⟨false, rfl, by simp⟩
  | cons entry files ih =>
    obtain ⟨name, file⟩ := entry
    have hget := hfiles (name, file) List.mem_cons_self
    obtain ⟨found, hrest, hfound⟩ := ih fun other hother =>
      hfiles other (List.mem_cons_of_mem _ hother)
    obtain ⟨field, hfield, rfl⟩ := h.exists_field hget
    have hlookup : store.schema.field? field.name = some field := by
      rw [h.schema_eq]
      exact setup.built.field?_name (Schema.mem_indexedFields.1 hfield).1
    -- only the postings of the field at hand count for the first file
    have hhead : (∃ other ∈ setup.schema.indexedFields, other.name = field.name ∧
        ∃ term, view.lists other.name term ≠ .empty ∧ setup.stateFor other term = some n) ↔
          ∃ term, view.lists field.name term ≠ .empty ∧ setup.stateFor field term = some n := by
      constructor
      · rintro ⟨other, hother, hname, hterm⟩
        obtain rfl := setup.eq_of_name_eq hother hfield hname
        exact hterm
      · exact fun hterm => ⟨field, hfield, rfl, hterm⟩
    simp only [Store.carried, hlookup, Option.any_some, List.exists_mem_cons_iff, hhead]
    by_cases hunique : field.flags.unique = true
    · have hnone : ∀ term, setup.stateFor field term = none := fun term => by
        simp [Setup.stateFor, hunique]
      rw [if_pos hunique]
      exact ⟨found, hrest, by simpa [hnone] using hfound⟩
    · obtain ⟨postings, hscan, hcarries⟩ := h.scanStates n hfield hget
      rw [if_neg hunique, hscan, ← hcarries]
      by_cases hempty : postings = []
      · refine ⟨found, by simpa [hempty, bind, Except.bind] using hrest, ?_⟩
        rw [hfound]
        simp [hempty]
      · exact ⟨true, by simp [hempty, bind, Except.bind, pure, Except.pure], by simp [hempty]⟩

/-- Whether a posting carries a state is told by the view. -/
lemma Files.carried_entries {docsStatus statesStatus : Status} {mode : Mode} {saved : Set Nat}
    (h : store.Files setup docsStatus statesStatus (fun _ => .opened mode) view saved) (n : Nat) :
    ∃ found, store.carried n store.indexes.entries = .ok found ∧
      (found = true ↔ n ∈ setup.carried view.lists) := by
  obtain ⟨found, hrun, hfound⟩ := h.carried_ok n fun entry hentry =>
    OrderedMap.get?_eq_some_iff.2 hentry
  refine ⟨found, hrun, hfound.trans ⟨?_, ?_⟩⟩
  · rintro ⟨-, -, field, hfield, -, term, hterm⟩
    exact ⟨field, hfield, term, hterm⟩
  · rintro ⟨field, hfield, term, hterm⟩
    obtain ⟨file, hfile, -⟩ := h.exists_file hfield
    exact ⟨(field.name, file), OrderedMap.get?_eq_some_iff.1 hfile, field, hfield, rfl, term, hterm⟩

/-- Takes a state that a posting carried from memory, unless some other posting carries it.

**Proof sketch.** The files tell whether some posting carries the state. If one does, nothing is to
be done; if none does, it is removed from the set in memory. -/
lemma Files.releaseState {docsStatus statesStatus : Status} {saved : Set Nat}
    (h : store.Files setup docsStatus statesStatus (fun _ => .opened .readWrite) view saved)
    {n : Nat} (htracks : store.states.Tracks setup.alphabet
      ({n} ∪ setup.carried view.lists) saved) :
    ∃ store', Store.releaseState n store = .ok () store' ∧ store'.session = store.session ∧
      store'.Files setup docsStatus statesStatus (fun _ => .opened .readWrite) view saved ∧
        store'.states.Tracks setup.alphabet (setup.carried view.lists) saved := by
  obtain ⟨found, hrun, hfound⟩ := h.carried_entries n
  unfold Store.releaseState
  rw [bind_ok (look_ok hrun)]
  cases found with
  | true =>
    refine ⟨store, rfl, rfl, h, ?_⟩
    have hmem : n ∈ setup.carried view.lists := hfound.1 rfl
    rw [Set.singleton_union, Set.insert_eq_of_mem hmem] at htracks
    exact htracks
  | false =>
    have hnot : n ∉ setup.carried view.lists := fun hmem => by simpa using hfound.2 hmem
    have hremoved := htracks.remove n
    rw [Set.singleton_union, Set.insert_sdiff_self_of_notMem hnot] at hremoved
    exact ⟨{ store with states := store.states.remove n }, rfl, rfl,
      h.withStates hremoved.alphabet_eq, hremoved⟩

/-! ## Ids taken away -/

/-- The posting of a term is looked up, and nothing changes. -/
lemma Runs.lookPosting (h : store.Runs setup .readWrite view)
    (hfield : field ∈ setup.schema.indexedFields) (term : String) :
    (view.lists field.name term).IsPlain ∧
      Op.onIndex field.name (RecordFile.look fun file => file.get? (.text term)) store =
        .ok (Posting.of? term (view.lists field.name term) (setup.stateFor field term)) store := by
  obtain ⟨saved, hfiles, -, -⟩ := h.files
  obtain ⟨file, hget, hfile⟩ := hfiles.exists_file hfield
  have hlook : RecordFile.look (fun file => file.get? (.text term)) file = .ok _ file :=
    RecordFile.look_ok (hfile.1.get? (setup.stateFor_lt field) term)
  exact ⟨hfile.1.plain term, onIndex_same hget hlook⟩

/-- A list that is left with ids takes the place of the one before.

**Proof sketch.** The new list takes the place of the old one in the file of the field. Neither is
empty, so the same states are carried. -/
lemma Runs.storePosting (h : store.Runs setup .readWrite view)
    (hfield : field ∈ setup.schema.indexedFields) (hplain : list.IsPlain) (hne : list ≠ .empty)
    (hold : view.lists field.name term ≠ .empty) :
    ∃ store', Op.onIndex field.name (RecordFile.upsert
        (Posting.of term list (setup.stateFor field term)) .replace) store = .ok () store' ∧
      store'.Runs setup .readWrite (view.withList field.name term list) := by
  obtain ⟨saved, hfiles, htracks, hread⟩ := h.files
  obtain ⟨_, store', hrun, hspares, hfiles'⟩ := hfiles.runList hfield fun file hfile => by
    obtain ⟨file', hrun, hfile'⟩ := hfile.store (setup.stateFor_lt field) term hplain hne
    exact ⟨(), file', hrun, hfile'⟩
  have hcarried : setup.carried (view.withList field.name term list).lists =
      setup.carried view.lists := by
    rw [setup.carried_withList view term hfield hne]
    exact Set.union_eq_self_of_subset_left fun n hn => ⟨field, hfield, term, hold, hn⟩
  rw [← hspares.states_eq, ← hcarried] at htracks
  exact ⟨store', hrun, hspares.session_eq.trans h.session_eq, saved, hfiles', htracks, by simp⟩

/-- A posting is deleted, and its state goes with it unless another posting carries the state.

**Proof sketch.** The posting is deleted from the file of the field. The states that were carried
are those that still are and that of the term, so releasing this one leaves the set in memory with
those that still are. -/
lemma Runs.deletePosting (h : store.Runs setup .readWrite view)
    (hfield : field ∈ setup.schema.indexedFields) (hold : view.lists field.name term ≠ .empty) :
    ∃ present first store', Op.onIndex field.name (RecordFile.delete (.text term)) store =
        .ok present first ∧
      (match setup.stateFor field term with
        | some state => Store.releaseState state
        | none => pure ()) first = .ok () store' ∧
      store'.Runs setup .readWrite (view.withList field.name term .empty) := by
  obtain ⟨saved, hfiles, htracks, -⟩ := h.files
  obtain ⟨present, first, hrun, hspares, hfirst⟩ := hfiles.runList hfield fun file hfile =>
    hfile.forget term
  have hcarried : setup.carried view.lists = {n | setup.stateFor field term = some n} ∪
      setup.carried (view.withList field.name term .empty).lists := by
    have hback := setup.carried_withList (view.withList field.name term .empty) term hfield hold
    rw [View.withList_withList, View.withList_self] at hback
    exact hback
  have hsession := hspares.session_eq.trans h.session_eq
  rw [← hspares.states_eq, hcarried] at htracks
  cases hcase : setup.stateFor field term with
  | none =>
    have hnone : {n | setup.stateFor field term = some n} = ∅ := by simp [hcase]
    rw [hnone, Set.empty_union] at htracks
    exact ⟨present, first, first, hrun, rfl, hsession, saved, hfirst, htracks, by simp⟩
  | some n =>
    have hsome : {m | setup.stateFor field term = some m} = {n} := by
      ext m
      simp [hcase, eq_comm]
    rw [hsome] at htracks
    obtain ⟨store', hrelease, hsession', hfiles', htracks'⟩ := hfirst.releaseState htracks
    exact ⟨present, first, store', hrun, hrelease, hsession'.trans hsession, saved, hfiles',
      htracks', by simp⟩

/-- To take an id from under a term where it is not changes nothing. -/
lemma Runs.removePosting_same (h : store.Runs setup .readWrite view)
    (hfield : field ∈ setup.schema.indexedFields) {id : DocId}
    (hmem : id ∉ (view.lists field.name term).ids) :
    Store.removePosting id field term store = .ok () store := by
  obtain ⟨hplain, hlook⟩ := h.lookPosting hfield term
  unfold Store.removePosting
  rw [bind_ok hlook]
  by_cases hempty : view.lists field.name term = .empty
  · rw [hempty, Posting.of?_empty]
    rfl
  · rw [Posting.of?_of_ne hempty]
    simp only [Posting.list_of hplain, PostingList.contains_iff, hmem, if_false]
    rfl

/-- Takes an id from under a term.

**Proof sketch.** If the id is not on the list nothing is changed. Otherwise it is taken off, and
the posting is stored with what is left of the list, or deleted if nothing is. -/
theorem Runs.removePosting (h : store.Runs setup .readWrite view)
    (hfield : field ∈ setup.schema.indexedFields) (id : DocId) (term : String) :
    ∃ store', Store.removePosting id field term store = .ok () store' ∧
      store'.Runs setup .readWrite
        (view.withList field.name term ((view.lists field.name term).remove id)) := by
  by_cases hmem : id ∈ (view.lists field.name term).ids
  · obtain ⟨hplain, hlook⟩ := h.lookPosting hfield term
    have hold : view.lists field.name term ≠ .empty := fun hempty =>
      PostingList.eq_empty_iff.1 hempty id hmem
    unfold Store.removePosting
    rw [bind_ok hlook, Posting.of?_of_ne hold]
    simp only [Posting.list_of hplain, PostingList.contains_iff, hmem, if_true,
      PostingList.isEmpty_iff]
    by_cases hempty : (view.lists field.name term).remove id = .empty
    · obtain ⟨present, first, store', hdelete, hrelease, h'⟩ := h.deletePosting hfield hold
      rw [if_pos hempty, hempty]
      exact ⟨store', (bind_ok hdelete _).trans hrelease, h'⟩
    · rw [if_neg hempty]
      exact h.storePosting hfield (hplain.remove id) hempty hold
  · rw [PostingList.remove_of_not_mem hmem, View.withList_self]
    exact ⟨store, h.removePosting_same hfield hmem, h⟩

/-! ## The terms of a document -/

/-- The terms under which fields are indexed, each with its field. -/
def Setup.indexTerms (setup : Setup) (fields : Fields) : List (Field × String) :=
  (setup.store ∅).indexTerms fields

/-- The terms of a document are those of the values of its indexed fields.

**Proof sketch.** The terms are listed field by field, and a field without a value has none. -/
lemma Setup.mem_indexTerms {fields : Fields} {entry : Field × String} :
    entry ∈ setup.indexTerms fields ↔ entry.1 ∈ setup.schema.indexedFields ∧
      ∃ value, fields.get? entry.1.name = some value ∧
        entry.2 ∈ (setup.store ∅).fieldTerms entry.1 value := by
  obtain ⟨field, term⟩ := entry
  unfold indexTerms Store.indexTerms
  rw [List.mem_flatMap]
  constructor
  · rintro ⟨other, hother, hentry⟩
    cases hget : fields.get? other.name with
    | none => simp [hget] at hentry
    | some value =>
      simp only [hget, List.mem_map, Prod.mk.injEq] at hentry
      obtain ⟨key, hkey, rfl, rfl⟩ := hentry
      exact ⟨hother, value, hget, hkey⟩
  · rintro ⟨hfield, value, hget, hterm⟩
    refine ⟨field, hfield, ?_⟩
    rw [hget]
    exact List.mem_map.2 ⟨term, hterm, rfl⟩

/-- The terms of values are those of the analyzer that the store is made with. -/
lemma Files.fieldTerms_eq {docsStatus statesStatus : Status} {indexStatus : String → Status}
    {saved : Set Nat} (h : store.Files setup docsStatus statesStatus indexStatus view saved) :
    store.fieldTerms = (setup.store ∅).fieldTerms := by
  funext field value
  simp only [fieldTerms, h.analyzer_eq]
  rfl

/-- The terms of a document are a matter of the setup, not of what a store holds. -/
lemma Files.indexTerms_eq {docsStatus statesStatus : Status} {indexStatus : String → Status}
    {saved : Set Nat} (h : store.Files setup docsStatus statesStatus indexStatus view saved)
    (fields : Fields) : store.indexTerms fields = setup.indexTerms fields := by
  simp only [Setup.indexTerms, Store.indexTerms, h.schema_eq, h.fieldTerms_eq]
  rfl

/-- The terms of the fields of a document in one of its indexed fields. -/
lemma Setup.exists_entry_iff (hfield : field ∈ setup.schema.indexedFields) {fields : Fields} :
    (∃ entry ∈ setup.indexTerms fields, entry.1.name = field.name ∧ entry.2 = term) ↔
      (field, term) ∈ setup.indexTerms fields := by
  constructor
  · rintro ⟨⟨other, key⟩, hentry, hname, rfl⟩
    obtain rfl := setup.eq_of_name_eq (setup.mem_indexTerms.1 hentry).1 hfield hname
    exact hentry
  · exact fun hentry => ⟨_, hentry, rfl, rfl⟩

namespace View

/-- The view with the lists of several terms changed. -/
def changeAll (change : PostingList → PostingList) (terms : List (Field × String)) (view : View) :
    View :=
  { view with
    lists := fun name key =>
      if ∃ entry ∈ terms, entry.1.name = name ∧ entry.2 = key then change (view.lists name key)
      else view.lists name key }

/-- The view with an id under all terms of the fields of a document. -/
def save (setup : Setup) (id : DocId) (fields : Fields) (view : View) : View :=
  view.changeAll (fun list => list.add id) (setup.indexTerms fields)

/-- The view without an id under the terms of the fields of a document. -/
def remove (setup : Setup) (id : DocId) (fields : Fields) (view : View) : View :=
  view.changeAll (fun list => list.remove id) (setup.indexTerms fields)

/-- Putting an id under terms leaves the documents alone. -/
@[simp] lemma docs_save (setup : Setup) (id : DocId) (fields : Fields) (view : View) :
    (view.save setup id fields).docs = view.docs := rfl

/-- Changing the lists of several terms changes each of them once, and no other. -/
lemma lists_changeAll (change : PostingList → PostingList) (terms : List (Field × String))
    (view : View) (name key : String) : (view.changeAll change terms).lists name key =
      if ∃ entry ∈ terms, entry.1.name = name ∧ entry.2 = key then change (view.lists name key)
      else view.lists name key := rfl

/-- Changing the lists of no terms changes nothing. -/
lemma changeAll_nil (change : PostingList → PostingList) (view : View) :
    view.changeAll change [] = view := by
  simp [changeAll]

/-- A term that comes twice has its list changed once. -/
lemma changeAll_cons {change : PostingList → PostingList}
    (hagain : ∀ list, change (change list) = change list) (field : Field) (term : String)
    (terms : List (Field × String)) (view : View) :
    (view.withList field.name term (change (view.lists field.name term))).changeAll change terms =
      view.changeAll change ((field, term) :: terms) := by
  refine congrArg (View.mk view.docs) (funext fun name => funext fun key => ?_)
  rw [lists_withList]
  simp only [List.exists_mem_cons_iff]
  by_cases heq : name = field.name ∧ key = term
  · obtain ⟨rfl, rfl⟩ := heq
    simp [hagain]
  · have hne : ¬ (field.name = name ∧ term = key) := fun h => heq ⟨h.1.symm, h.2.symm⟩
    simp only [if_neg heq, hne, false_or]

/-- Putting an id under the terms of a document adds it to their lists, and nothing to others. -/
lemma mem_save (hfield : field ∈ setup.schema.indexedFields) {id other : DocId} {fields : Fields} :
    other ∈ ((view.save setup id fields).lists field.name term).ids ↔
      other ∈ (view.lists field.name term).ids ∨
        other = id ∧ (field, term) ∈ setup.indexTerms fields := by
  rw [save, lists_changeAll]
  simp only [Setup.exists_entry_iff hfield]
  by_cases hterm : (field, term) ∈ setup.indexTerms fields
  · simp [hterm, PostingList.mem_add, or_comm]
  · simp [hterm]

/-- Taking an id from under the terms of a document removes it from their lists, and nothing from
others. -/
lemma mem_remove (hfield : field ∈ setup.schema.indexedFields) {id other : DocId}
    {fields : Fields} : other ∈ ((view.remove setup id fields).lists field.name term).ids ↔
      other ∈ (view.lists field.name term).ids ∧
        ¬ (other = id ∧ (field, term) ∈ setup.indexTerms fields) := by
  rw [remove, lists_changeAll]
  simp only [Setup.exists_entry_iff hfield]
  by_cases hterm : (field, term) ∈ setup.indexTerms fields
  · simp [hterm, PostingList.mem_remove]
  · simp [hterm]

end View

/-- The lists of several terms are changed, in a way that does nothing more if it is done again.

**Proof sketch.** Induction on the terms: each step changes the list of one term, and a term that
comes twice has its list changed once. -/
lemma Runs.changeAll (h : store.Runs setup .readWrite view) (op : Field → String → Op Unit)
    {change : PostingList → PostingList}
    (hop : ∀ {store : Store} {view : View}, store.Runs setup .readWrite view →
      ∀ field ∈ setup.schema.indexedFields, ∀ term, ∃ store', op field term store = .ok () store' ∧
        store'.Runs setup .readWrite
          (view.withList field.name term (change (view.lists field.name term))))
    (hagain : ∀ list, change (change list) = change list) {terms : List (Field × String)}
    (hterms : ∀ entry ∈ terms, entry.1 ∈ setup.schema.indexedFields) :
    ∃ store', (terms.forM fun entry => op entry.1 entry.2) store = .ok () store' ∧
      store'.Runs setup .readWrite (view.changeAll change terms) := by
  induction terms generalizing store view with
  | nil =>
    rw [View.changeAll_nil]
    exact ⟨store, rfl, h⟩
  | cons entry terms ih =>
    obtain ⟨field, term⟩ := entry
    obtain ⟨store₁, hrun, h₁⟩ := hop h field (hterms _ List.mem_cons_self) term
    obtain ⟨store', hrest, h'⟩ :=
      ih h₁ fun other hother => hterms other (List.mem_cons_of_mem _ hother)
    rw [View.changeAll_cons hagain] at h'
    exact ⟨store', (bind_ok hrun _).trans hrest, h'⟩

/-- In a session the terms of a document are those of the setup. -/
lemma Runs.indexTerms_eq (h : store.Runs setup .readWrite view) (fields : Fields) :
    store.indexTerms fields = setup.indexTerms fields := by
  obtain ⟨saved, hfiles, -, -⟩ := h.files
  exact hfiles.indexTerms_eq fields

/-- In a session an id is put under all terms of a document. -/
theorem Runs.saveIndexes (h : store.Runs setup .readWrite view) {id : DocId} (hid : id.IsPlain)
    (fields : Fields) :
    ∃ store', Store.saveIndexes id fields store = .ok () store' ∧
      store'.Runs setup .readWrite (view.save setup id fields) := by
  unfold Store.saveIndexes
  rw [h.within, get_bind, h.indexTerms_eq]
  exact h.changeAll (Store.addPosting id)
    (fun h field hfield term => h.addPosting hfield hid term)
    (fun list => PostingList.add_of_mem (PostingList.mem_add.2 (.inl rfl)))
    (fun entry hentry => (Setup.mem_indexTerms.1 hentry).1)

/-- In a session the id of a document is taken from under all terms of the document. -/
theorem Runs.removeFromIndexes (h : store.Runs setup .readWrite view) (document : Document) :
    ∃ store', Store.removeFromIndexes document store = .ok () store' ∧
      store'.Runs setup .readWrite (view.remove setup document.id document.fields) := by
  unfold Store.removeFromIndexes
  rw [h.within, get_bind, h.indexTerms_eq]
  exact h.changeAll (Store.removePosting document.id)
    (fun h field hfield term => h.removePosting hfield document.id term)
    (fun list => PostingList.remove_of_not_mem fun hmem => (PostingList.mem_remove.1 hmem).2 rfl)
    (fun entry hentry => (Setup.mem_indexTerms.1 hentry).1)

/-! ## Documents -/

/-- What is kept of a document under an id. -/
def Setup.document (setup : Setup) (id : DocId) (fields : Fields) : StoredDocument :=
  ⟨id.text, setup.schema.stored fields⟩

/-- In a session a document is put in its place, if a document that is there can be read. -/
lemma Runs.putDocument (h : store.Runs setup .readWrite view) {document : StoredDocument}
    (hmerged : view.docs.merged document .replace = .ok document) :
    ∃ store', Op.onDocs (RecordFile.upsert document .replace) store = .ok () store' ∧
      store'.Runs setup .readWrite { view with docs := view.docs.put document } := by
  obtain ⟨saved, hfiles, htracks, hread⟩ := h.files
  obtain ⟨docs, hrun, hdocs⟩ := hfiles.docs.1.upsert hmerged rfl
  have hstatus : setup.Docs (.opened .readWrite) (view.docs.put document) docs :=
    ⟨hdocs, hdocs.isSome⟩
  obtain ⟨store', hrun', hspares, hfiles'⟩ := hfiles.runDocs hrun hstatus
  rw [← hspares.states_eq] at htracks
  exact ⟨store', hrun', hspares.session_eq.trans h.session_eq, saved, hfiles', htracks, hread⟩

/-- In a session a document whose place is taken by one that cannot be read is not put there.

**Proof sketch.** Merging replaces the document unless the one in its place cannot be read, so this
is why it fails. The file is as it was before. -/
lemma Runs.putDocument_error (h : store.Runs setup .readWrite view) {document : StoredDocument}
    (hmerged : view.docs.merged document .replace ≠ .ok document) :
    ∃ e, Op.onDocs (RecordFile.upsert document .replace) store = .error e store := by
  obtain ⟨saved, hfiles, -, -⟩ := h.files
  have herror : ∃ e, view.docs.merged document .replace = .error e := by
    rw [Table.merged] at hmerged ⊢
    split at hmerged
    · exact absurd rfl hmerged
    · next existing _ =>
      cases hline : (decodeLine (Record.line existing) : Except Error StoredDocument) with
      | error e => exact ⟨e, rfl⟩
      | ok read =>
        rw [hline] at hmerged
        exact absurd rfl hmerged
  obtain ⟨e, he⟩ := herror
  exact ⟨e, onDocs_error (hfiles.docs.1.upsert_error he)⟩

/-- In a session a document that fits the schema is put in its place. -/
lemma Runs.saveDocument_eq (h : store.Runs setup .readWrite view) (id : DocId) {fields : Fields}
    (hvalid : setup.schema.validate fields = .ok ()) : Store.saveDocument id fields store =
      Op.onDocs (RecordFile.upsert (setup.document id fields) .replace) store := by
  obtain ⟨saved, hfiles, -, -⟩ := h.files
  have hcheck : store.schema.validate fields = .ok () := hfiles.schema_eq ▸ hvalid
  unfold Store.saveDocument
  rw [get_bind, bind_ok (look_ok hcheck), h.within, hfiles.schema_eq]
  rfl

/-- In a session a document that fits the schema is stored, if a document in its place can be
read. -/
theorem Runs.saveDocument (h : store.Runs setup .readWrite view) {id : DocId} {fields : Fields}
    (hvalid : setup.schema.validate fields = .ok ())
    (hmerged : view.docs.merged (setup.document id fields) .replace =
      .ok (setup.document id fields)) :
    ∃ store', Store.saveDocument id fields store = .ok () store' ∧ store'.Runs setup .readWrite
      { view with docs := view.docs.put (setup.document id fields) } := by
  rw [h.saveDocument_eq id hvalid]
  exact h.putDocument hmerged

/-- In a session a document that does not fit the schema, or whose place is taken by one that cannot
be read, is not stored. -/
theorem Runs.saveDocument_error (h : store.Runs setup .readWrite view) {id : DocId}
    {fields : Fields} (hcause : setup.schema.validate fields ≠ .ok () ∨
      view.docs.merged (setup.document id fields) .replace ≠ .ok (setup.document id fields)) :
    ∃ e, Store.saveDocument id fields store = .error e store := by
  obtain ⟨saved, hfiles, -, -⟩ := h.files
  cases hcheck : setup.schema.validate fields with
  | error e =>
    rw [← hfiles.schema_eq] at hcheck
    exact ⟨e, bind_error (look_error hcheck) _⟩
  | ok _ =>
    rw [h.saveDocument_eq id hcheck]
    exact h.putDocument_error (hcause.resolve_left fun hne => hne hcheck)

/-! ## Emptying a store -/

/-- Empties all open files and the set of typo states. -/
def emptyFiles : Op Unit := do
  Op.onDocs RecordFile.truncate
  Op.onStates RecordFile.truncate
  Op.onIndexes RecordFile.truncate
  modify fun store => { store with states := store.states.load [] }

/-- In a session everything is emptied.

**Proof sketch.** The file of documents, that of the typo states and those of all fields are
emptied, each of which succeeds in a file that is open for writing. Then the set in memory is loaded
without states. -/
lemma Runs.emptyFiles (h : store.Runs setup .readWrite view) :
    ∃ store', Store.emptyFiles store = .ok () store' ∧
      store'.Runs setup .readWrite View.empty := by
  obtain ⟨saved, hfiles, -, -⟩ := h.files
  unfold Store.emptyFiles
  obtain ⟨docs, hrun, hdocs⟩ := hfiles.docs.1.truncate
  have hdocs' : setup.Docs (.opened .readWrite) ∅ docs :=
    ⟨hdocs, hdocs.isSome⟩
  obtain ⟨store₁, hrun₁, hspares₁, h₁⟩ := hfiles.runDocs hrun hdocs'
  rw [bind_ok hrun₁]
  obtain ⟨stateFile, hrun, hstates⟩ := h₁.states.1.holds.truncate
  have hstates' : setup.Saves (.opened .readWrite) ∅ stateFile :=
    ⟨hstates.saves_empty, hstates.isSome⟩
  obtain ⟨store₂, hrun₂, hspares₂, h₂⟩ := h₁.runStates hrun hstates'
  rw [bind_ok hrun₂]
  have hop : ∀ field ∈ setup.schema.indexedFields, ∀ file,
      setup.Lists field (.opened .readWrite) (view.lists field.name) file →
        (∃ file', RecordFile.truncate file = .ok () file' ∧
          setup.Lists field (.opened .readWrite) (View.empty.lists field.name) file') ∨
            ∃ e, RecordFile.truncate file = .error e file := by
    intro field _ file hfile
    obtain ⟨file', hrun, hfile'⟩ := hfile.1.holds.truncate
    exact .inl ⟨file', hrun, hfile'.lists_empty _, hfile'.isSome⟩
  rcases h₂.onIndexes hop with ⟨store₃, hrun₃, hspares₃, h₃⟩ |
    ⟨e, store₃, done, -, -, -, field, -, file, hfile, hfail⟩
  · rw [bind_ok hrun₃]
    -- the memory agrees with the empty files, so nothing is left to be written at the end
    have htracks := StateSet.tracks_load store₃.states []
    have hset : {n | n ∈ ([] : List Nat)} = (∅ : Set Nat) := by simp
    rw [hset, h₃.alphabet_eq] at htracks
    have hsession := hspares₁.trans (hspares₂.trans hspares₃)
    refine ⟨_, rfl, hsession.session_eq.trans h.session_eq, ∅,
      h₃.withStates htracks.alphabet_eq, ?_, by simp⟩
    rw [Setup.carried_empty]
    exact htracks
  · obtain ⟨file', hrun', -⟩ := hfile.1.holds.truncate
    rw [hrun'] at hfail
    cases hfail

/-- To empty a store is to open a session if there is none, to empty all files, and to end the
session again if it was opened for this. -/
lemma truncate_eq : truncate = (do
    let opened ← ensureOpen .readWrite
    Store.emptyFiles
    release opened) := by
  simp only [truncate, Store.emptyFiles, bind_assoc]

/-- In a session the store is emptied. -/
theorem Runs.truncate (h : store.Runs setup .readWrite view) :
    ∃ store', Store.truncate store = .ok () store' ∧
      store'.Runs setup .readWrite View.empty := by
  obtain ⟨store', hrun, h'⟩ := h.emptyFiles
  rw [truncate_eq, bind_ok h.ensureOpen, bind_ok hrun]
  exact ⟨store', rfl, h'⟩

/-- Without a session the store is emptied in one of its own, or some file is not known to be
there. -/
theorem Rests.truncate {status : Status} (h : store.Rests setup status view) :
    (∃ store', Store.truncate store = .ok () store' ∧ store'.Rests setup .made View.empty) ∨
    status = .unknown ∧ ∃ e store', Store.truncate store = .error e store' ∧
      store'.Rests setup .unknown view := by
  rw [truncate_eq]
  rcases h.ensureOpen with ⟨opened, hopen, hruns⟩ | ⟨hunknown, e, store', hopen, hrests⟩
  · obtain ⟨done, hrun, hdone⟩ := hruns.emptyFiles
    obtain ⟨store', hcommit, hrests⟩ := hdone.commit
    rw [bind_ok hopen, bind_ok hrun]
    exact .inl ⟨store', hcommit, hrests⟩
  · exact .inr ⟨hunknown, e, store', bind_error hopen _, hrests⟩

end Concordance.Store
