import Concordance.Proofs.Store.Directories
import Concordance.Proofs.Store.Keeping

set_option relaxedAutoImplicit false
set_option autoImplicit false

/-!
# Steps of a store

Whatever is done to a store, in sessions for reading or writing and without one, the store stands
for a view, unless typo states are stored directly.

## Main definitions

* `Concordance.Store.Step`, `reach` — what is done to a store, and where it leads.
* `Concordance.Store.Sound` — a store stands for a view, also in a session for reading.

## Main results

* `Concordance.Store.Sound.step` — every step leaves a store that stands for a view.
* `Concordance.Store.Sound.rests` — without a session the store rests on the view.
-/

namespace Concordance.Store

open Operation

/-! ## What is done to a store -/

/-- What is done to a store. Ids that are put under terms are plain ones. -/
inductive Step
  | createFiles
  | openSession (mode : Mode)
  | commit
  | saveDocument (id : DocId) (fields : Fields)
  | saveIndexes (id : DocId) (plain : id.IsPlain) (fields : Fields)
  | removeFromIndexes (document : Document)
  | saveStates (added removed : List Nat)
  | truncate
  | ask (question : Store → Except Error Unit)
  | renew

namespace Step

/-- A store after a step, whatever came of it. It is made anew over its directory only while no
session is open. -/
def apply (setup : Setup) (step : Step) (store : Store) : Store :=
  match step with
  | createFiles => after Store.createFiles store
  | openSession mode => after (Store.openIn mode) store
  | commit => after Store.commit store
  | saveDocument id fields => after (Store.saveDocument id fields) store
  | saveIndexes id _ fields => after (Store.saveIndexes id fields) store
  | removeFromIndexes document => after (Store.removeFromIndexes document) store
  | saveStates added removed => after (Store.saveStates added removed) store
  | truncate => after Store.truncate store
  | ask question => after (Store.within .read (Op.look question)) store
  | renew => if store.session = none then setup.store store.directory else store

/-- A step does not store typo states directly. -/
def SparesStates : Step → Prop
  | saveStates _ _ => False
  | _ => True

end Step

/-- A store after some steps, starting without any files. -/
def reach (setup : Setup) (steps : List Step) : Store :=
  steps.foldl (fun store step => step.apply setup store) (setup.store ∅)

/-! ## Every step leaves a store that stands for a view -/

variable {setup : Setup} {store : Store} {status : Status} {view : View}

/-- A store stands for a view, whatever a session is open for if there is one. -/
def Sound (setup : Setup) (status : Status) (store : Store) : Prop :=
  (∃ session, store.Stands setup status session anyView) ∨
    status.mode = none ∧ ∃ view, store.Runs setup .read view

namespace Runs

/-- A session for reading is none for writing. -/
lemma ensureOpen_error (h : store.Runs setup .read view) :
    Store.ensureOpen .readWrite store = .error .readOnlySession store := by
  unfold Store.ensureOpen
  rw [get_bind, h.session_eq]
  rfl

/-- In a session for reading nothing is written. -/
lemma within_error {α : Type} (h : store.Runs setup .read view) (op : Op α) :
    Store.within .readWrite op store = .error .readOnlySession store :=
  bind_error h.ensureOpen_error _

/-- In a session for reading a question is asked as it is. -/
lemma within_read {α : Type} (h : store.Runs setup .read view) (op : Op α) :
    Store.within .read op store = op store := by
  refine within_of_open ?_
  unfold Store.ensureOpen
  rw [get_bind, h.session_eq]
  rfl

/-- In a session for reading no step changes what there is, but for the end of the session.

**Proof sketch.** By the kinds of steps. A step that writes fails before it changes anything, a
question changes nothing, and only the end of the session leads out of it. -/
lemma sound_apply (h : store.Runs setup .read view) (hclosed : status.mode = none) {step : Step}
    (hstep : step.SparesStates) : Sound setup status (step.apply setup store) := by
  have hsame : Sound setup status store := .inr ⟨hclosed, view, h⟩
  cases step with
  | createFiles =>
    obtain ⟨store', hrun, h'⟩ := h.createFiles
    rw [Step.apply, after_ok hrun]
    exact .inr ⟨hclosed, view, h'⟩
  | openSession mode =>
    rw [Step.apply, after_error (h.openIn_error mode)]
    exact hsame
  | commit =>
    obtain ⟨store', hrun, hrests⟩ := h.commit
    rw [Step.apply, after_ok hrun]
    exact .inl ⟨none, stands_of_rests hclosed (.inl hrests) trivial⟩
  | saveDocument id fields =>
    have hrun : ∃ e, Store.saveDocument id fields store = .error e store := by
      cases hcheck : store.schema.validate fields with
      | error e => exact ⟨e, bind_error (look_error hcheck) _⟩
      | ok _ => exact ⟨_, (bind_ok (look_ok hcheck) _).trans (h.within_error _)⟩
    obtain ⟨e, hrun⟩ := hrun
    rw [Step.apply, after_error hrun]
    exact hsame
  | saveIndexes id plain fields =>
    rw [Step.apply, Store.saveIndexes, after_error (h.within_error _)]
    exact hsame
  | removeFromIndexes document =>
    rw [Step.apply, Store.removeFromIndexes, after_error (h.within_error _)]
    exact hsame
  | saveStates added removed => exact hstep.elim
  | truncate =>
    rw [Step.apply, Store.truncate, after_error (bind_error h.ensureOpen_error _)]
    exact hsame
  | ask question =>
    have hlook : after (Store.within .read (Op.look question)) store = store := by
      unfold after
      rw [h.within_read]
      cases hanswer : question store with
      | ok a => rw [look_ok hanswer]
      | error e => rw [look_error hanswer]
    rw [Step.apply, hlook]
    exact hsame
  | renew =>
    rw [Step.apply, if_neg (by simp [h.session_eq])]
    exact hsame

end Runs

namespace Stands

variable {session : Option Mode}

/-- A session for reading is started, or it is not and nothing changes. -/
lemma sound_openIn (h : store.Stands setup status session anyView) (mode : Mode) :
    Sound setup status (after (Store.openIn mode) store) := by
  cases mode with
  | readWrite =>
    obtain ⟨session', h'⟩ := h.openIn
    exact .inl ⟨session', h'⟩
  | read =>
    obtain ⟨view, ⟨rfl, hrests⟩ | ⟨rfl, hruns⟩, -⟩ := h.stands
    · rcases hrests.openIn .read with ⟨store', hrun, hruns⟩ | ⟨hunknown, e, store', hrun, hrests'⟩
      · rw [after_ok hrun]
        exact .inr ⟨h.closed, view, hruns⟩
      · rw [after_error hrun]
        exact .inl ⟨none, stands_of_rests h.closed (.inr ⟨hunknown, hrests'⟩) trivial⟩
    · rw [after_error (hruns.openIn_error .read)]
      exact .inl ⟨_, h⟩

/-- The store is made anew, unless a session is open. -/
lemma sound_renew (h : store.Stands setup status session anyView) :
    Sound setup status (Step.renew.apply setup store) := by
  obtain ⟨view, ⟨rfl, hrests⟩ | ⟨rfl, hruns⟩, -⟩ := h.stands
  · rw [Step.apply, if_pos hrests.session_eq]
    exact .inl ⟨none, hrests.renew.stands trivial⟩
  · rw [Step.apply, if_neg (by simp [hruns.session_eq])]
    exact .inl ⟨_, h⟩

end Stands

namespace Sound

/-- **Every step leaves a store that stands for a view**, unless it stores typo states directly.

**Proof sketch.** By the kinds of steps, in a store between sessions or in a session for writing. A
session for reading allows no step but its end to change anything. -/
theorem step (h : Sound setup status store) {step : Step} (hstep : step.SparesStates) :
    Sound setup status (step.apply setup store) := by
  rcases h with ⟨session, hstands⟩ | ⟨hclosed, view, hruns⟩
  · cases step with
    | createFiles => exact .inl ⟨session, hstands.createFiles⟩
    | openSession mode => exact hstands.sound_openIn mode
    | commit => exact .inl ⟨none, hstands.commit⟩
    | saveDocument id fields =>
      exact .inl ⟨session, hstands.saveDocument id fields fun _ _ => trivial⟩
    | saveIndexes id plain fields =>
      exact .inl ⟨session, hstands.saveIndexes plain fields fun _ _ => trivial⟩
    | removeFromIndexes document =>
      exact .inl ⟨session, hstands.removeFromIndexes document fun _ _ => trivial⟩
    | saveStates added removed => exact hstep.elim
    | truncate => exact .inl ⟨session, hstands.truncate trivial⟩
    | ask question => exact .inl ⟨session, hstands.look question⟩
    | renew => exact hstands.sound_renew
  · exact hruns.sound_apply hclosed hstep

/-- All steps do. -/
lemma steps (h : Sound setup status store) {steps : List Step}
    (hsteps : ∀ step ∈ steps, step.SparesStates) :
    Sound setup status (steps.foldl (fun store step => step.apply setup store) store) := by
  induction steps generalizing store with
  | nil => exact h
  | cons step steps ih =>
    have hfirst := hsteps step List.mem_cons_self
    exact ih (h.step hfirst) fun other hother => hsteps other (List.mem_cons_of_mem _ hother)

/-- Without a session a store that stands for a view rests on it. -/
lemma rests (h : Sound setup status store) (hsession : store.session = none) :
    ∃ view, store.Rests setup status view := by
  rcases h with ⟨session, hstands⟩ | ⟨-, view, hruns⟩
  · obtain ⟨view, ⟨-, hrests⟩ | ⟨-, hruns⟩, -⟩ := hstands.stands
    · exact ⟨view, hrests⟩
    · rw [hruns.session_eq] at hsession
      cases hsession
  · rw [hruns.session_eq] at hsession
    cases hsession

end Sound

end Concordance.Store
