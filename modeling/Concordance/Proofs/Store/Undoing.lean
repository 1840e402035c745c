import Concordance.Proofs.Store.Steps
import Concordance.Proofs.Store.Untouched

set_option relaxedAutoImplicit false
set_option autoImplicit false

/-!
# Saving and removing undo each other

To take an id from under the terms of a document undoes putting it there, in the postings and in the
typo states, and to put it there again undoes taking it away. Neither changes a byte if it is done
once more. This holds whenever no session is open, unless typo states were stored directly: a state
that no posting carries is lost with the last posting that carries it.

## Main definitions

* `Concordance.Store.ListsSame` — two stores list the same postings and typo states.
* `Concordance.Store.Undoes` — saving and removing undo each other, and repeating them does nothing.

## Main results

* `Concordance.Store.undoes_of_reach` — saving and removing, after any steps that do not store typo
  states directly.
* `Concordance.Store.not_undoes_of_saveStates` — typo states that were stored directly are lost.
-/

namespace Concordance.Store

open Operation

variable {setup : Setup} {store : Store} {status : Status} {view : View}

/-! ## Views -/

namespace View

variable {id : DocId} {fields : Fields}

/-- An id that is under no term of a document is put there and taken away again. -/
lemma remove_save (h : ∀ entry ∈ setup.indexTerms fields,
    id ∉ (view.lists entry.1.name entry.2).ids) :
    (view.save setup id fields).remove setup id fields = view := by
  refine congrArg (View.mk view.docs) (funext fun name => funext fun term => ?_)
  simp only [save, lists_changeAll]
  by_cases hterm : ∃ entry ∈ setup.indexTerms fields, entry.1.name = name ∧ entry.2 = term
  · obtain ⟨entry, hentry, rfl, rfl⟩ := hterm
    have hsome : ∃ other ∈ setup.indexTerms fields,
        other.1.name = entry.1.name ∧ other.2 = entry.2 := ⟨entry, hentry, rfl, rfl⟩
    rw [if_pos hsome, if_pos hsome, PostingList.remove_add (h entry hentry)]
  · rw [if_neg hterm, if_neg hterm]

/-- An id that is under all terms of a document is taken away and put there again: the lists have
the same members. -/
lemma mem_save_remove (h : ∀ entry ∈ setup.indexTerms fields,
      id ∈ (view.lists entry.1.name entry.2).ids) {field : Field}
    (hfield : field ∈ setup.schema.indexedFields) {term : String} {other : DocId} :
    other ∈ (((view.remove setup id fields).save setup id fields).lists field.name term).ids ↔
      other ∈ (view.lists field.name term).ids := by
  rw [mem_save hfield, mem_remove hfield]
  constructor
  · rintro (⟨hother, -⟩ | ⟨rfl, hentry⟩)
    · exact hother
    · exact h _ hentry
  · intro hother
    by_cases hentry : other = id ∧ (field, term) ∈ setup.indexTerms fields
    · exact .inr hentry
    · exact .inl ⟨hother, hentry⟩

end View

/-- Lists with the same members carry the same typo states. -/
lemma Setup.carried_congr {lists lists' : String → String → PostingList}
    (h : ∀ field ∈ setup.schema.indexedFields, ∀ term id,
      id ∈ (lists' field.name term).ids ↔ id ∈ (lists field.name term).ids) :
    setup.carried lists' = setup.carried lists := by
  have hempty : ∀ field ∈ setup.schema.indexedFields, ∀ term,
      lists' field.name term = .empty ↔ lists field.name term = .empty := by
    intro field hfield term
    rw [PostingList.eq_empty_iff, PostingList.eq_empty_iff]
    exact forall_congr' fun id => not_congr (h field hfield term id)
  ext n
  constructor
  · rintro ⟨field, hfield, term, hne, hstate⟩
    exact ⟨field, hfield, term, mt (hempty field hfield term).2 hne, hstate⟩
  · rintro ⟨field, hfield, term, hne, hstate⟩
    exact ⟨field, hfield, term, mt (hempty field hfield term).1 hne, hstate⟩

/-! ## What stores list -/

/-- Two stores list the same postings in the same order, and the same typo states. -/
structure ListsSame (store store' : Store) : Prop where
  postings : ∀ name, (store'.indexes.get? name).map RecordFile.listed =
    (store.indexes.get? name).map RecordFile.listed
  states : store'.stateFile.listed = store.stateFile.listed

namespace Rests

variable {store' : Store} {status' : Status} {view' : View}

/-- Stores that rest on the same view list the same. -/
lemma listsSame (h : store.Rests setup status view) (h' : store'.Rests setup status' view) :
    store.ListsSame store' :=
  ⟨h.files.listed_eq h'.files fun _ _ => rfl, h.files.states.1.listed_eq h'.files.states.1⟩

/-- In stores whose views list the same ids the same ids are listed.

**Proof sketch.** An id is listed in a store only under indexed fields, and there it is listed iff
it is in the list of the view. -/
lemma listed_congr (h : store.Rests setup status view) (h' : store'.Rests setup status' view')
    (hmem : ∀ field ∈ setup.schema.indexedFields, ∀ term id,
      id ∈ (view'.lists field.name term).ids ↔ id ∈ (view.lists field.name term).ids)
    (name term : String) (id : DocId) : store'.Listed name term id ↔ store.Listed name term id := by
  have hexists : ∀ {store : Store} {status : Status} {view : View},
      store.Rests setup status view → store.Listed name term id →
        ∃ field ∈ setup.schema.indexedFields, field.name = name := by
    rintro store status view h ⟨file, -, hget, -⟩
    exact h.files.exists_field hget
  constructor
  · intro hlisted
    obtain ⟨field, hfield, rfl⟩ := hexists h' hlisted
    rw [h'.files.listed_iff hfield, hmem field hfield] at hlisted
    exact (h.files.listed_iff hfield).2 hlisted
  · intro hlisted
    obtain ⟨field, hfield, rfl⟩ := hexists h hlisted
    rw [h.files.listed_iff hfield, ← hmem field hfield] at hlisted
    exact (h'.files.listed_iff hfield).2 hlisted

/-- Every posting of a store lists some ids, and none of them twice. -/
lemma proper (h : store.Rests setup status view) {name : String} {file : RecordFile Posting}
    (hget : store.indexes.get? name = some file) :
    ∃ postings, file.listed = .ok postings ∧ ∀ posting ∈ postings, posting.Proper := by
  obtain ⟨field, hfield, rfl⟩ := h.files.exists_field hget
  obtain ⟨_, postings, hget', hlisted, -⟩ := h.files.listed hfield
  obtain rfl := Option.some.inj (hget.symm.trans hget')
  exact ⟨postings, hlisted, fun _ hposting => h.files.proper hfield hget hlisted hposting⟩

/-! ## Saving and removing without a session -/

/-- An operation that succeeds in every session succeeds in one of its own, or nothing was known of
the files. -/
lemma within_ok {α : Type} {op : Op α} {a : α} (h : store.Rests setup status view)
    (hop : ∀ opened : Store, opened.Runs setup .readWrite view → ∃ done, op opened = .ok a done ∧
      done.Runs setup .readWrite view') :
    (∃ done, Store.within .readWrite op store = .ok a done ∧ done.Rests setup .made view') ∨
      status = .unknown ∧ ∃ e done, Store.within .readWrite op store = .error e done := by
  have hattempt : ∀ opened : Store, opened.Runs setup .readWrite view → ∃ result done after,
      Op.attempt op opened = .ok result done ∧ done.Runs setup .readWrite after ∧
        (result = .ok a ∧ after = view') := by
    intro opened hopened
    obtain ⟨done, hrun, hdone⟩ := hop opened hopened
    exact ⟨.ok a, done, view', attempt_ok hrun, hdone, rfl, rfl⟩
  rcases h.within hattempt with ⟨_, done, _, hrun, hdone, rfl, rfl⟩ | ⟨hunknown, e, done, hrun, -⟩
  · exact .inl ⟨done, ok_of_attempt hrun, hdone⟩
  · exact .inr ⟨hunknown, e, done, hrun⟩

/-- An id is put under the terms of a document, or nothing was known of the files. -/
theorem saveIndexes (h : store.Rests setup status view) {id : DocId} (hid : id.IsPlain)
    (fields : Fields) :
    (∃ done, Store.saveIndexes id fields store = .ok () done ∧
      done.Rests setup .made (view.save setup id fields)) ∨
    status = .unknown ∧ ∃ e done, Store.saveIndexes id fields store = .error e done := by
  refine h.within_ok fun opened hopened => ?_
  have hsave := hopened.saveIndexes hid fields
  rw [Store.saveIndexes, hopened.within] at hsave
  exact hsave

/-- An id is taken from under the terms of a document, or nothing was known of the files. -/
theorem removeFromIndexes (h : store.Rests setup status view) (document : Document) :
    (∃ done, Store.removeFromIndexes document store = .ok () done ∧
      done.Rests setup .made (view.remove setup document.id document.fields)) ∨
    status = .unknown ∧ ∃ e done, Store.removeFromIndexes document store = .error e done := by
  refine h.within_ok fun opened hopened => ?_
  have hremove := hopened.removeFromIndexes document
  rw [Store.removeFromIndexes, hopened.within] at hremove
  exact hremove

end Rests

/-! ## Saving and removing undo each other -/

/-- To save an id under the terms of a document and to remove it undo each other, and neither
changes anything if it is done again. -/
structure Undoes (store : Store) (id : DocId) (fields : Fields) : Prop where
  /-- An id that is listed nowhere is saved and removed. -/
  removed : (∀ name term, ¬ store.Listed name term id) → ∀ saved removed,
    Store.saveIndexes id fields store = .ok () saved →
      Store.removeFromIndexes ⟨id, fields⟩ saved = .ok () removed → store.ListsSame removed
  /-- An id that is listed under all terms of the document is removed and saved. -/
  saved : (∀ entry ∈ store.indexTerms fields, store.Listed entry.1.name entry.2 id) →
    ∀ removed saved, Store.removeFromIndexes ⟨id, fields⟩ store = .ok () removed →
      Store.saveIndexes id fields removed = .ok () saved →
        (∀ name term other, saved.Listed name term other ↔ store.Listed name term other) ∧
        (∀ name file, saved.indexes.get? name = some file →
          ∃ postings, file.listed = .ok postings ∧ ∀ posting ∈ postings, posting.Proper) ∧
        saved.stateFile.listed = store.stateFile.listed
  saved_again : ∀ first second, Store.saveIndexes id fields store = .ok () first →
    Store.saveIndexes id fields first = .ok () second → second.directory = first.directory
  removed_again : ∀ first second, Store.removeFromIndexes ⟨id, fields⟩ store = .ok () first →
    Store.removeFromIndexes ⟨id, fields⟩ first = .ok () second → second.directory = first.directory

/-- An id can be saved under the terms of a document and removed, one after the other and again. -/
structure Allows (store : Store) (id : DocId) (fields : Fields) : Prop where
  saved : ∃ saved, Store.saveIndexes id fields store = .ok () saved ∧
    Gives (Store.saveIndexes id fields) saved () ∧
      Gives (Store.removeFromIndexes ⟨id, fields⟩) saved ()
  removed : ∃ removed, Store.removeFromIndexes ⟨id, fields⟩ store = .ok () removed ∧
    Gives (Store.saveIndexes id fields) removed () ∧
      Gives (Store.removeFromIndexes ⟨id, fields⟩) removed ()

namespace Rests

variable {id : DocId} {fields : Fields} {saved removed : Store}

/-- A store that an id was saved in rests on the view with the id. -/
lemma of_saveIndexes (h : store.Rests setup status view) (hid : id.IsPlain)
    (hrun : Store.saveIndexes id fields store = .ok () saved) :
    saved.Rests setup .made (view.save setup id fields) := by
  rcases h.saveIndexes hid fields with ⟨done, hdone, hrests⟩ | ⟨-, e, done, hdone⟩
  · cases hdone.symm.trans hrun
    exact hrests
  · cases hdone.symm.trans hrun

/-- A store that an id was removed from rests on the view without the id. -/
lemma of_removeFromIndexes (h : store.Rests setup status view)
    (hrun : Store.removeFromIndexes ⟨id, fields⟩ store = .ok () removed) :
    removed.Rests setup .made (view.remove setup id fields) := by
  rcases h.removeFromIndexes ⟨id, fields⟩ with ⟨done, hdone, hrests⟩ | ⟨-, e, done, hdone⟩
  · cases hdone.symm.trans hrun
    exact hrests
  · cases hdone.symm.trans hrun

/-- Saving and removing in a store that rests on a view undo each other.

**Proof sketch.** Both succeed only with the view changed as it should, and a view determines what
the files list and which typo states are saved. An id that is new in a list is the last one there,
so the list is the same once it is removed. After the first of two equal steps the second finds
nothing to change in any list, and then it writes nothing. -/
theorem undoes (h : store.Rests setup status view) (hid : id.IsPlain) (fields : Fields) :
    store.Undoes id fields where
  removed := by
    intro hnowhere saved removed hsave hremove
    have hrests := (h.of_saveIndexes hid hsave).of_removeFromIndexes hremove
    have hnot : ∀ entry ∈ setup.indexTerms fields,
        id ∉ (view.lists entry.1.name entry.2).ids := by
      intro entry hentry hmem
      have hfield := (setup.mem_indexTerms.1 hentry).1
      exact hnowhere _ _ ((h.files.listed_iff hfield).2 hmem)
    rw [View.remove_save hnot] at hrests
    exact h.listsSame hrests
  saved := by
    intro hall removed saved hremove hsave
    have hrests := (h.of_removeFromIndexes hremove).of_saveIndexes hid hsave
    have hmem : ∀ entry ∈ setup.indexTerms fields,
        id ∈ (view.lists entry.1.name entry.2).ids := by
      intro entry hentry
      have hfield := (setup.mem_indexTerms.1 hentry).1
      rw [← h.files.indexTerms_eq] at hentry
      exact (h.files.listed_iff hfield).1 (hall entry hentry)
    have hsame := fun field hfield term other =>
      @View.mem_save_remove _ view id fields hmem field hfield term other
    have hcarried := Setup.carried_congr hsame
    have hstates := hrests.files.states.1
    rw [hcarried] at hstates
    exact ⟨h.listed_congr hrests hsame, fun name file hget => hrests.proper hget,
      h.files.states.1.listed_eq hstates⟩
  saved_again := by
    intro first second hfirst hsecond
    have hrests := h.of_saveIndexes hid hfirst
    obtain ⟨done, hdone, hsame⟩ := hrests.saveIndexes_same fun entry hentry =>
      (View.mem_save (setup.mem_indexTerms.1 hentry).1).2 (.inr ⟨rfl, hentry⟩)
    cases hdone.symm.trans hsecond
    exact directory_eq_of_onDisk_eq hsame
  removed_again := by
    intro first second hfirst hsecond
    have hrests := h.of_removeFromIndexes hfirst
    obtain ⟨done, hdone, hsame⟩ := hrests.removeFromIndexes_same fun entry hentry hmem =>
      ((View.mem_remove (setup.mem_indexTerms.1 hentry).1).1 hmem).2 ⟨rfl, hentry⟩
    cases hdone.symm.trans hsecond
    exact directory_eq_of_onDisk_eq hsame

/-- Saving and removing succeed if the files are there or can be made.

**Proof sketch.** Both stores that come of a first step are again ones that rest on a view, with
files that are there. -/
theorem allows (h : store.Rests setup status view) (hstatus : status ≠ .unknown) (hid : id.IsPlain)
    (fields : Fields) : store.Allows id fields := by
  have hagain : ∀ {done : Store} {view : View}, done.Rests setup .made view →
      Gives (Store.saveIndexes id fields) done () ∧
        Gives (Store.removeFromIndexes ⟨id, fields⟩) done () := by
    intro done view hdone
    obtain ⟨saved, hsaved, -⟩ :=
      (hdone.saveIndexes hid fields).resolve_right fun hno => by cases hno.1
    obtain ⟨removed, hremoved, -⟩ :=
      (hdone.removeFromIndexes ⟨id, fields⟩).resolve_right fun hno => by cases hno.1
    exact ⟨⟨saved, hsaved⟩, removed, hremoved⟩
  obtain ⟨saved, hsaved, hafterSave⟩ :=
    (h.saveIndexes hid fields).resolve_right fun hno => hstatus hno.1
  obtain ⟨removed, hremoved, hafterRemove⟩ :=
    (h.removeFromIndexes ⟨id, fields⟩).resolve_right fun hno => hstatus hno.1
  exact ⟨⟨saved, hsaved, hagain hafterSave⟩, removed, hremoved, hagain hafterRemove⟩

end Rests

/-- **Saving and removing undo each other.** A store starts without any files. After any steps that
do not store typo states directly, and once no session is open, to remove an id that was listed
nowhere undoes saving it, to save an id that was listed under all terms undoes removing it, and to
do one of them again changes no file. If the files can have their names, all this succeeds.

**Proof sketch.** Every step leaves a store that stands for a view, so without a session the store
rests on one. -/
theorem undoes_of_reach (setup : Setup) {steps : List Step}
    (hsteps : ∀ step ∈ steps, step.SparesStates) (hsession : (reach setup steps).session = none)
    {id : DocId} (hid : id.IsPlain) (fields : Fields) :
    (reach setup steps).Undoes id fields ∧
      (setup.Nameable → (reach setup steps).Allows id fields) := by
  have hempty : Sound setup .unknown (setup.store ∅) :=
    .inl ⟨none, setup.rests_empty.stands trivial⟩
  obtain ⟨view, hrests⟩ := (hempty.steps hsteps).rests hsession
  refine ⟨hrests.undoes hid fields, fun hnames => ?_⟩
  have hready : Sound setup .ready (setup.store ∅) :=
    .inl ⟨none, hnames.rests_empty.stands trivial⟩
  obtain ⟨view, hrests⟩ := (hready.steps hsteps).rests hsession
  exact hrests.allows (by simp) hid fields

/-- The id of the first document of the example can be written. -/
lemma isPlain_first : DocId.IsPlain ⟨"a"⟩ := @DocId.isPlain_of_ofText "a" _ rfl

/-- So can that of the second. -/
lemma isPlain_second : DocId.IsPlain ⟨"b"⟩ := @DocId.isPlain_of_ofText "b" _ rfl

/-- Two books are saved, one of them in a session and with what is kept of it, and the store is made
anew. -/
def bookWork : List Step :=
  [.openSession .readWrite, .saveDocument ⟨"a"⟩ (.ofList [("title", .text "Red Fox")]),
    .saveIndexes ⟨"a"⟩ isPlain_first (.ofList [("title", .text "Red Fox")]),
    .commit, .renew,
    .saveIndexes ⟨"b"⟩ isPlain_second (.ofList [("title", .text "Fox")]),
    .openSession .read, .commit]

/-- One of the two books is removed and saved, and a third one is saved and removed. -/
theorem undoes_of_reach_books : (reach bookSetup bookWork).session = none ∧
    (reach bookSetup bookWork).Undoes ⟨"a"⟩ (.ofList [("title", .text "Red Fox")]) ∧
    (reach bookSetup bookWork).Undoes ⟨"c"⟩ (.ofList [("title", .text "Red Wood")]) ∧
    (reach bookSetup bookWork).Allows ⟨"c"⟩ (.ofList [("title", .text "Red Wood")]) := by
  have hsteps : ∀ step ∈ bookWork, step.SparesStates := by simp [bookWork, Step.SparesStates]
  have hsession : (reach bookSetup bookWork).session = none := by decide +kernel
  have hold := undoes_of_reach bookSetup hsteps hsession isPlain_first
    (.ofList [("title", .text "Red Fox")])
  have hnew := undoes_of_reach bookSetup hsteps hsession (@DocId.isPlain_of_ofText "c" _ rfl)
    (.ofList [("title", .text "Red Wood")])
  exact ⟨hsession, hold.1, hnew.1, hnew.2 nameable_bookSetup⟩

/-- The typo state of a word, stored directly. -/
def orphan : List Step := [.saveStates [111] []]

/-- **A typo state that was stored directly is lost.** The state of the word cat is stored without
any book. Then a book of this title is saved and removed, and the state is gone with the last
posting that carried it. -/
theorem not_undoes_of_saveStates : (reach bookSetup orphan).session = none ∧
    ¬ (reach bookSetup orphan).Undoes ⟨"1"⟩ (.ofList [("title", .text "cat")]) := by
  have hlists : ∀ file ∈ (reach bookSetup orphan).indexes.values,
      file.listed.toOption = some [] := by decide +kernel
  have hnowhere : ∀ name term, ¬ (reach bookSetup orphan).Listed name term ⟨"1"⟩ := by
    rintro name term ⟨file, postings, hget, hlisted, posting, hposting, -⟩
    have hfile := hlists file (List.mem_map.2 ⟨_, OrderedMap.get?_eq_some_iff.1 hget, rfl⟩)
    rw [hlisted] at hfile
    cases hfile
    cases hposting
  have hsave : Gives (Store.saveIndexes ⟨"1"⟩ (.ofList [("title", .text "cat")]))
      (reach bookSetup orphan) () := by decide +kernel
  have hremove : Gives (Store.removeFromIndexes ⟨⟨"1"⟩, .ofList [("title", .text "cat")]⟩)
      (after (Store.saveIndexes ⟨"1"⟩ (.ofList [("title", .text "cat")]))
        (reach bookSetup orphan)) () := by decide +kernel
  refine ⟨by decide +kernel, fun h => ?_⟩
  have hsame := (h.removed hnowhere _ _ hsave.eq_after hremove.eq_after).states
  have hcount := congrArg (fun listed => listed.toOption.map List.length) hsame
  exact absurd hcount (by decide +kernel)

end Concordance.Store
