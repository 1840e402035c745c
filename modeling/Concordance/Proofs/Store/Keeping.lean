import Concordance.Proofs.Store.Changes

set_option relaxedAutoImplicit false
set_option autoImplicit false

/-!
# What operations keep

A store at any time stands for a view, whether a session is open or not, and whatever has failed
before. What an operation does to a property of the view can be told step by step, since a step that
fails leaves a store that stands for a view as well.

## Main definitions

* `Concordance.Store.Takes` — an operation takes views with a property to views with others.
* `Concordance.Store.Stands` — a store stands for a view with a property.

## Main results

* `Concordance.Store.Takes.bind` — one operation after the other.
* `Concordance.Store.Stands.within_cases`, `within` — an operation in a session.
* `Concordance.Store.Stands.openIn`, `commit` — the start and the end of a session.
* `Concordance.Store.Stands.look_cases`, `gives_look` — a question, and what it gets for an answer.
-/

namespace Concordance.Store

open Operation

variable {setup : Setup} {α β : Type}

/-! ## Operations in a session -/

/-- In a session for writing an operation takes a view with one property to a view with another,
which depends on its answer, or to one with a third property if it fails. -/
def Takes (setup : Setup) (pre : View → Prop) (op : Op α) (post : α → View → Prop)
    (fail : View → Prop) : Prop :=
  ∀ (store : Store) (view : View), store.Runs setup .readWrite view → pre view →
    (∃ a store' view', op store = .ok a store' ∧ store'.Runs setup .readWrite view' ∧
      post a view') ∨
    ∃ e store' view', op store = .error e store' ∧ store'.Runs setup .readWrite view' ∧ fail view'

namespace Takes

variable {pre fail : View → Prop} {mid : α → View → Prop} {post : β → View → Prop}

/-- A result takes nothing but itself. -/
lemma pure {a : α} (h : ∀ view, pre view → mid a view) : Takes setup pre (pure a) mid fail :=
  fun store view hruns hpre => .inl ⟨a, store, view, rfl, hruns, h view hpre⟩

/-- What an operation needs may be less than what there is. -/
lemma of_imp {pre' : View → Prop} {op : Op α} (h : Takes setup pre op mid fail)
    (hpre : ∀ view, pre' view → pre view) : Takes setup pre' op mid fail :=
  fun store view hruns hpre' => h store view hruns (hpre view hpre')

/-- One operation after the other. -/
theorem bind {op : Op α} {f : α → Op β} (h : Takes setup pre op mid fail)
    (hf : ∀ a, Takes setup (mid a) (f a) post fail) : Takes setup pre (op >>= f) post fail := by
  intro store view hruns hpre
  rcases h store view hruns hpre with ⟨a, store₁, view₁, hrun, hruns₁, hmid⟩ |
    ⟨e, store₁, view₁, hrun, hruns₁, hfail⟩
  · rw [bind_ok hrun]
    exact hf a store₁ view₁ hruns₁ hmid
  · exact .inr ⟨e, store₁, view₁, bind_error hrun _, hruns₁, hfail⟩

/-- A look at the store changes nothing. -/
lemma look {f : Store → Except Error α}
    (hok : ∀ (store : Store) (view : View), store.Runs setup .readWrite view → pre view →
      ∀ a, f store = .ok a → mid a view)
    (herror : ∀ view, pre view → fail view) : Takes setup pre (Op.look f) mid fail := by
  intro store view hruns hpre
  cases hf : f store with
  | ok a => exact .inl ⟨a, store, view, look_ok hf, hruns, hok store view hruns hpre a hf⟩
  | error e => exact .inr ⟨e, store, view, look_error hf, hruns, herror view hpre⟩

/-- An operation that always succeeds takes a view to the one that it makes of it. -/
lemma of_change {post : View → Prop} {op : Op Unit} {change : View → View}
    (hrun : ∀ (store : Store) (view : View), store.Runs setup .readWrite view →
      ∃ store', op store = .ok () store' ∧ store'.Runs setup .readWrite (change view))
    (hpost : ∀ view, pre view → post (change view)) : Takes setup pre op (fun _ => post) fail := by
  intro store view hruns hpre
  obtain ⟨store', hdone, hruns'⟩ := hrun store view hruns
  exact .inl ⟨(), store', _, hdone, hruns', hpost view hpre⟩

/-- An id is put under all terms of a document. -/
lemma saveIndexes {post : View → Prop} {id : DocId} (hid : id.IsPlain) (fields : Fields)
    (hpost : ∀ view, pre view → post (view.save setup id fields)) :
    Takes setup pre (Store.saveIndexes id fields) (fun _ => post) fail :=
  of_change (fun _ _ hruns => hruns.saveIndexes hid fields) hpost

/-- An id is taken from under all terms of a document. -/
lemma removeFromIndexes {post : View → Prop} (document : Document)
    (hpost : ∀ view, pre view → post (view.remove setup document.id document.fields)) :
    Takes setup pre (Store.removeFromIndexes document) (fun _ => post) fail :=
  of_change (fun _ _ hruns => hruns.removeFromIndexes document) hpost

/-- A document is put in its place, or a document that is there cannot be read. -/
lemma putDocument {post : View → Prop} (document : StoredDocument)
    (hpost : ∀ view, pre view → post { view with docs := view.docs.put document })
    (hfail : ∀ view, pre view → fail view) :
    Takes setup pre (Op.onDocs (RecordFile.upsert document .replace)) (fun _ => post) fail := by
  intro store view hruns hpre
  by_cases hmerged : view.docs.merged document .replace = .ok document
  · obtain ⟨store', hrun, hruns'⟩ := hruns.putDocument hmerged
    exact .inl ⟨(), store', _, hrun, hruns', hpost view hpre⟩
  · obtain ⟨e, hrun⟩ := hruns.putDocument_error hmerged
    exact .inr ⟨e, store, view, hrun, hruns, hfail view hpre⟩

/-- What an operation does in a session does not depend on whether it would open one. -/
lemma of_within {mode : Mode} {op : Op α} (h : Takes setup pre (Store.within mode op) mid fail) :
    Takes setup pre op mid fail := by
  intro store view hruns hpre
  have hrun := h store view hruns hpre
  rw [hruns.within] at hrun
  exact hrun

/-- Whatever comes of an operation. -/
lemma attempt {op : Op α} (h : Takes setup pre op mid fail) {store : Store} {view : View}
    (hruns : store.Runs setup .readWrite view) (hpre : pre view) :
    ∃ result store' view', Op.attempt op store = .ok result store' ∧
      store'.Runs setup .readWrite view' ∧
        ((∃ a, result = .ok a ∧ mid a view') ∨ (∃ e, result = .error e) ∧ fail view') := by
  rcases h store view hruns hpre with ⟨a, store', view', hrun, hruns', hmid⟩ |
    ⟨e, store', view', hrun, hruns', hfail⟩
  · exact ⟨.ok a, store', view', attempt_ok hrun, hruns', .inl ⟨a, rfl, hmid⟩⟩
  · exact ⟨.error e, store', view', attempt_error hrun, hruns', .inr ⟨⟨e, rfl⟩, hfail⟩⟩

end Takes

/-- A property that all views have. -/
def anyView (_ : View) : Prop := True

/-! ## Operations in a session or without one -/

/-- A store stands for a view with a property, without a session or in one for writing. -/
structure Stands (store : Store) (setup : Setup) (status : Status) (session : Option Mode)
    (P : View → Prop) : Prop where
  closed : status.mode = none
  stands : ∃ view, (session = none ∧ store.Rests setup status view ∨
    session = some .readWrite ∧ store.Runs setup .readWrite view) ∧ P view

variable {status : Status} {session : Option Mode} {store : Store} {view : View} {P : View → Prop}

/-- A store that stands for a view without a session. -/
lemma Stands.exists_rests (h : store.Stands setup status none P) :
    ∃ view, store.Rests setup status view ∧ P view := by
  obtain ⟨view, ⟨-, hrests⟩ | ⟨himpossible, -⟩, hP⟩ := h.stands
  · exact ⟨view, hrests, hP⟩
  · cases himpossible

/-- That files are there can be forgotten. -/
lemma Rests.weaken (h : store.Rests setup .made view) (hstatus : status.mode = none) :
    store.Rests setup status view := by
  cases status with
  | unknown => exact ⟨rfl, h.session_eq, h.files.forget rfl rfl fun _ => rfl⟩
  | ready => exact ⟨rfl, h.session_eq, h.files.toReady⟩
  | made => exact h
  | opened mode => cases hstatus

/-- A store without a session that stands for a view with a property does so as such. -/
lemma Rests.stands (h : store.Rests setup status view) (hP : P view) :
    store.Stands setup status none P :=
  ⟨h.closed, view, .inl ⟨rfl, h⟩, hP⟩

/-- So does a store in a session for writing. -/
lemma Runs.stands (h : store.Runs setup .readWrite view) (hclosed : status.mode = none)
    (hP : P view) : store.Stands setup status (some .readWrite) P :=
  ⟨hclosed, view, .inr ⟨rfl, h⟩, hP⟩

/-- What is known of the files of a store is known still, or it was nothing. -/
lemma stands_of_rests {store' : Store} (hclosed : status.mode = none)
    (h : store'.Rests setup .made view ∨ status = .unknown ∧ store'.Rests setup .unknown view)
    (hP : P view) : store'.Stands setup status none P := by
  rcases h with h | ⟨rfl, h⟩
  · exact (h.weaken hclosed).stands hP
  · exact h.stands hP

/-- A property can be replaced by what follows from it. -/
lemma Stands.imp {Q : View → Prop} (h : store.Stands setup status session P)
    (himp : ∀ view, P view → Q view) : store.Stands setup status session Q := by
  obtain ⟨view, hview, hP⟩ := h.stands
  exact ⟨h.closed, view, hview, himp view hP⟩

/-- In a session no other one is started. -/
lemma Runs.openIn_error {mode : Mode} (h : store.Runs setup mode view) (other : Mode) :
    Store.openIn other store = .error .alreadyOpen store := by
  have hopen : store.isOpen = true := by simp [isOpen, h.session_eq]
  unfold Store.openIn
  rw [get_bind]
  simp only [hopen, if_true]
  rfl

/-- Without a session there is nothing to end. -/
lemma Rests.commit (h : store.Rests setup status view) :
    ∃ store', Store.commit store = .ok () store' ∧ store'.Rests setup status view := by
  have hno : ¬ (store.session = some .readWrite ∧ store.states.isDirty = true) := by
    simp [h.session_eq]
  have hstatus : status.closed = status := by
    have hclosed := h.closed
    cases status with
    | opened mode => cases hclosed
    | unknown | ready | made => rfl
  unfold Store.commit
  rw [get_bind, if_neg hno]
  refine ⟨store.close, rfl, h.closed, rfl, ?_⟩
  have hfiles := h.files.close
  rw [hstatus] at hfiles
  exact hfiles

/-- In a session all files are there. -/
lemma Runs.createFiles {mode : Mode} (h : store.Runs setup mode view) :
    ∃ store', Store.createFiles store = .ok () store' ∧ store'.Runs setup mode view := by
  obtain ⟨saved, hfiles, htracks, hread⟩ := h.files
  rw [createFiles_eq]
  rcases hfiles.onAll (Q := fun _ => True) trivial trivial fun hfile => hfile.create_of_opened with
    ⟨store', hrun, hspares, hfiles'⟩ | ⟨himpossible, -⟩
  · rw [← hspares.states_eq] at htracks
    exact ⟨store', hrun, hspares.session_eq.trans h.session_eq, saved, hfiles', htracks, hread⟩
  · cases himpossible

namespace Stands

/-- The start of a session; there may be one already. -/
theorem openIn (h : store.Stands setup status session P) : ∃ session',
    (after (Store.openIn .readWrite) store).Stands setup status session' P := by
  obtain ⟨view, ⟨rfl, hrests⟩ | ⟨rfl, hruns⟩, hP⟩ := h.stands
  · rcases hrests.openIn .readWrite with ⟨store', hrun, hruns⟩ |
      ⟨hunknown, e, store', hrun, hrests'⟩
    · rw [after_ok hrun]
      exact ⟨_, hruns.stands h.closed hP⟩
    · rw [after_error hrun]
      exact ⟨_, stands_of_rests h.closed (.inr ⟨hunknown, hrests'⟩) hP⟩
  · rw [after_error (hruns.openIn_error .readWrite)]
    exact ⟨_, hruns.stands h.closed hP⟩

/-- The end of a session; there may be none. -/
theorem commit (h : store.Stands setup status session P) :
    (after Store.commit store).Stands setup status none P := by
  obtain ⟨view, ⟨rfl, hrests⟩ | ⟨rfl, hruns⟩, hP⟩ := h.stands
  · obtain ⟨store', hrun, hrests'⟩ := hrests.commit
    rw [after_ok hrun]
    exact hrests'.stands hP
  · obtain ⟨store', hrun, hrests⟩ := hruns.commit
    rw [after_ok hrun]
    exact stands_of_rests h.closed (.inl hrests) hP

/-- Missing files are made. -/
theorem createFiles (h : store.Stands setup status session P) :
    (after Store.createFiles store).Stands setup status session P := by
  obtain ⟨view, ⟨rfl, hrests⟩ | ⟨rfl, hruns⟩, hP⟩ := h.stands
  · rcases hrests.createFiles with ⟨store', hrun, hrests'⟩ | ⟨hunknown, e, store', hrun, hrests'⟩
    · rw [after_ok hrun]
      exact stands_of_rests h.closed (.inl hrests') hP
    · rw [after_error hrun]
      exact stands_of_rests h.closed (.inr ⟨hunknown, hrests'⟩) hP
  · obtain ⟨store', hrun, hruns'⟩ := hruns.createFiles
    rw [after_ok hrun]
    exact hruns'.stands h.closed hP

/-- The store is emptied, or nothing was known of its files and nothing changes. -/
theorem truncate_cases (h : store.Stands setup status session P) :
    (∃ store', Store.truncate store = .ok () store' ∧
      store'.Stands setup status session (· = View.empty)) ∨
    status = .unknown ∧ ∃ e store', Store.truncate store = .error e store' ∧
      store'.Stands setup status session P := by
  obtain ⟨view, ⟨rfl, hrests⟩ | ⟨rfl, hruns⟩, hP⟩ := h.stands
  · rcases hrests.truncate with ⟨store', hrun, hrests'⟩ | ⟨hunknown, e, store', hrun, hrests'⟩
    · exact .inl ⟨store', hrun, stands_of_rests h.closed (.inl hrests') rfl⟩
    · exact .inr ⟨hunknown, e, store', hrun, stands_of_rests h.closed (.inr ⟨hunknown, hrests'⟩) hP⟩
  · obtain ⟨store', hrun, hruns'⟩ := hruns.truncate
    exact .inl ⟨store', hrun, hruns'.stands h.closed rfl⟩

/-- The store is emptied. -/
theorem truncate (h : store.Stands setup status session P) (hempty : P View.empty) :
    (after Store.truncate store).Stands setup status session P := by
  rcases h.truncate_cases with ⟨store', hrun, hstore'⟩ | ⟨-, e, store', hrun, hstore'⟩
  · rw [after_ok hrun]
    refine hstore'.imp ?_
    rintro _ rfl
    exact hempty
  · rw [after_error hrun]
    exact hstore'

/-- An operation that may write, in a session of its own unless one is open. It comes to what it
comes to in a session, or nothing was known of the files and no session can be started.

**Proof sketch.** Without a session the store is opened, the operation runs and the session is
committed; that fails at once if nothing is known of the files. In a session the operation runs by
itself. -/
theorem within_cases (h : store.Stands setup status session P) {op : Op α}
    {post : α → View → Prop} {fail : View → Prop} (hop : Takes setup P op post fail) :
    (∃ a store', Store.within .readWrite op store = .ok a store' ∧
      store'.Stands setup status session (post a)) ∨
    ∃ e store', Store.within .readWrite op store = .error e store' ∧
      (store'.Stands setup status session fail ∨
        status = .unknown ∧ store'.Stands setup status session P) := by
  obtain ⟨view, ⟨rfl, hrests⟩ | ⟨rfl, hruns⟩, hP⟩ := h.stands
  · rcases hrests.within fun opened hopened => hop.attempt hopened hP with
      ⟨result, store', view', hrun, hrests', hresult⟩ | ⟨hunknown, e, store', hrun, hrests'⟩
    · rcases hresult with ⟨a, rfl, hpost⟩ | ⟨⟨e, rfl⟩, hfail⟩
      · exact .inl ⟨a, store', ok_of_attempt hrun, stands_of_rests h.closed (.inl hrests') hpost⟩
      · exact .inr ⟨e, store', error_of_attempt hrun,
          .inl (stands_of_rests h.closed (.inl hrests') hfail)⟩
    · exact .inr ⟨e, store', hrun,
        .inr ⟨hunknown, stands_of_rests h.closed (.inr ⟨hunknown, hrests'⟩) hP⟩⟩
  · rw [hruns.within]
    rcases hop store view hruns hP with ⟨a, store', view', hrun, hruns', hpost⟩ |
      ⟨e, store', view', hrun, hruns', hfail⟩
    · exact .inl ⟨a, store', hrun, hruns'.stands h.closed hpost⟩
    · exact .inr ⟨e, store', hrun, .inl (hruns'.stands h.closed hfail)⟩

/-- An operation that keeps a property in a session keeps it without one. -/
theorem within (h : store.Stands setup status session P) {op : Op α}
    (hop : Takes setup P op (fun _ => P) P) :
    (after (Store.within .readWrite op) store).Stands setup status session P := by
  rcases h.within_cases hop with ⟨a, store', hrun, hstore'⟩ |
    ⟨e, store', hrun, hstore' | ⟨-, hstore'⟩⟩
  · rw [after_ok hrun]
    exact hstore'
  · rw [after_error hrun]
    exact hstore'
  · rw [after_error hrun]
    exact hstore'

/-- An id is put under the terms of a document. -/
theorem saveIndexes (h : store.Stands setup status session P) {id : DocId} (hid : id.IsPlain)
    (fields : Fields) (hsave : ∀ view, P view → P (view.save setup id fields)) :
    (after (Store.saveIndexes id fields) store).Stands setup status session P :=
  h.within (Takes.saveIndexes hid fields hsave).of_within

/-- An id is taken from under the terms of a document. -/
theorem removeFromIndexes (h : store.Stands setup status session P) (document : Document)
    (hremove : ∀ view, P view → P (view.remove setup document.id document.fields)) :
    (after (Store.removeFromIndexes document) store).Stands setup status session P :=
  h.within (Takes.removeFromIndexes document hremove).of_within

/-- The schema of a store is the one that the store is made for. -/
lemma schema_eq (h : store.Stands setup status session P) : store.schema = setup.schema := by
  obtain ⟨view, ⟨-, hrests⟩ | ⟨-, hruns⟩, -⟩ := h.stands
  · exact hrests.files.schema_eq
  · obtain ⟨saved, hfiles, -, -⟩ := hruns.files
    exact hfiles.schema_eq

/-- A document is stored, or it does not fit the schema.

**Proof sketch.** A document that is not valid is refused. Any other one is put into the file of
documents in a session of its own. -/
theorem saveDocument (h : store.Stands setup status session P) (id : DocId) (fields : Fields)
    (hput : ∀ view, P view → P { view with docs := view.docs.put (setup.document id fields) }) :
    (after (Store.saveDocument id fields) store).Stands setup status session P := by
  cases hcheck : store.schema.validate fields with
  | error e =>
    have hrun : Store.saveDocument id fields store = .error e store :=
      bind_error (look_error hcheck) _
    rw [after_error hrun]
    exact h
  | ok _ =>
    have hrun : Store.saveDocument id fields store = Store.within .readWrite (Op.onDocs
        (RecordFile.upsert (setup.document id fields) .replace)) store := by
      unfold Store.saveDocument
      rw [get_bind, bind_ok (look_ok hcheck), h.schema_eq]
      rfl
    have hdone := h.within (.putDocument (setup.document id fields) hput fun _ hP => hP)
    unfold after at hdone ⊢
    rw [hrun]
    exact hdone

/-- The view of a store has the ids that the files list. -/
lemma lists (h : store.Stands setup status session P) :
    store.Stands setup status session fun view => ∀ field ∈ setup.schema.indexedFields,
      ∀ term id, store.Listed field.name term id ↔ id ∈ (view.lists field.name term).ids := by
  obtain ⟨view, hview, -⟩ := h.stands
  refine ⟨h.closed, view, hview, fun field hfield term id => ?_⟩
  obtain ⟨-, hrests⟩ | ⟨-, hruns⟩ := hview
  · exact hrests.files.listed_iff hfield
  · obtain ⟨saved, hfiles, -, -⟩ := hruns.files
    exact hfiles.listed_iff hfield

/-- A question that is asked in a session for reading unless some session is open. It gets the
answer that it gets in a session, or nothing was known of the files and no session can be started.
The view stays the same.

**Proof sketch.** The same cases as for an operation. The question changes nothing, so the view
stays what it was. -/
theorem look_cases {Q : Except Error α → View → Prop} (h : store.Stands setup status session P)
    {f : Store → Except Error α}
    (hf : ∀ {mode : Mode} {view : View} {opened : Store}, opened.Runs setup mode view → P view →
      Q (f opened) view) :
    (∃ result store' view, Op.attempt (Store.within .read (Op.look f)) store = .ok result store' ∧
      store'.Stands setup status session (· = view) ∧ P view ∧ Q result view) ∨
    status = .unknown ∧ ∃ e store', Store.within .read (Op.look f) store = .error e store' ∧
      store'.Stands setup status session P := by
  have hlook : ∀ opened : Store, Op.attempt (Op.look f) opened = .ok (f opened) opened := by
    intro opened
    cases hanswer : f opened with
    | ok a => exact attempt_ok (look_ok hanswer)
    | error e => exact attempt_error (look_error hanswer)
  obtain ⟨view, ⟨rfl, hrests⟩ | ⟨rfl, hruns⟩, hP⟩ := h.stands
  · rcases @Rests.within _ _ _ _ _ _ _ (fun result view' => view' = view ∧ Q result view) hrests
        fun opened hopened =>
          ⟨f opened, opened, view, hlook opened, hopened, rfl, hf hopened hP⟩ with
      ⟨result, store', view', hrun, hrests', rfl, hQ⟩ | ⟨hunknown, e, store', hrun, hrests'⟩
    · exact .inl ⟨result, store', view', hrun, stands_of_rests h.closed (.inl hrests') rfl, hP, hQ⟩
    · exact .inr ⟨hunknown, e, store', hrun, stands_of_rests h.closed (.inr ⟨hunknown, hrests'⟩) hP⟩
  · refine .inl ⟨f store, store, view, ?_, hruns.stands h.closed rfl, hP, hf hruns hP⟩
    unfold Op.attempt
    rw [hruns.within]
    exact hlook store

/-- A question changes nothing. -/
theorem look (h : store.Stands setup status session P) (f : Store → Except Error α) :
    (after (Store.within .read (Op.look f)) store).Stands setup status session P := by
  rcases @look_cases _ _ _ _ _ _ (fun _ _ => True) h f fun _ _ => trivial with
    ⟨result, store', view, hrun, hstore', hP, -⟩ | ⟨-, e, store', hrun, hstore'⟩
  · rw [after_of_attempt hrun]
    refine hstore'.imp ?_
    rintro _ rfl
    exact hP
  · rw [after_error hrun]
    exact hstore'

/-- A question that has an answer in every session has one without a session as well, if the files
are there or can be made. The view stays the same. -/
theorem gives_look {Q : α → View → Prop} (h : store.Stands setup status session P)
    (hstatus : status ≠ .unknown) {f : Store → Except Error α}
    (hf : ∀ {mode : Mode} {view : View} {opened : Store}, opened.Runs setup mode view → P view →
      ∃ a, f opened = .ok a ∧ Q a view) :
    ∃ a store' view, Store.within .read (Op.look f) store = .ok a store' ∧
      store'.Stands setup status session (· = view) ∧ P view ∧ Q a view := by
  rcases @look_cases _ _ _ _ _ _ (fun result view => ∃ a, result = .ok a ∧ Q a view) h f hf with
    ⟨result, store', view, hrun, hstore', hP, a, rfl, hQ⟩ | ⟨hunknown, -⟩
  · exact ⟨a, store', view, ok_of_attempt hrun, hstore', hP, hQ⟩
  · exact absurd hunknown hstatus

end Stands

end Concordance.Store
