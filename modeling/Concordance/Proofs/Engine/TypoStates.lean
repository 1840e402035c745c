import Concordance.Proofs.Engine.Starting

set_option relaxedAutoImplicit false
set_option autoImplicit false

/-!
# Typo states follow the postings

Whatever is done to an engine, the typo states that a session has in memory are those that the
postings of the session carry, and the states that are saved between sessions are those that the
postings carry then. Every posting that takes part in typo-tolerant look-up carries the state of its
term.

## Main definitions

* `Concordance.Engine.Step`, `run` — what is done to an engine.
* `Concordance.Store.Carries` — some posting of a store carries a typo state.
* `Concordance.Store.StatesAgree` — the typo states of a store are those of its postings.

## Main results

* `Concordance.Engine.statesAgree_of_run` — they are, after any steps.
-/

namespace Concordance

open Operation

/-! ## What the files of a store say -/

namespace Store

/-- Some posting of an indexed field whose values are not unique carries a typo state. -/
def Carries (store : Store) (n : Nat) : Prop :=
  ∃ field ∈ store.schema.indexedFields, field.flags.unique = false ∧
    ∃ file, store.indexes.get? field.name = some file ∧
      ∃ postings, file.listed = .ok postings ∧ ∃ posting ∈ postings, posting.state = some n

/-- All postings that take part in typo-tolerant look-up carry the states of their terms. The states
in the memory of a session are those that are carried, and the states that are saved between
sessions are too, each of them once. -/
structure StatesAgree (store : Store) : Prop where
  postings : ∀ field ∈ store.schema.indexedFields, field.flags.unique = false →
    ∃ file postings, store.indexes.get? field.name = some file ∧ file.listed = .ok postings ∧
      ∀ posting ∈ postings, posting.state = some (store.automaton.stateOf posting.key)
  members : store.session = some .readWrite → ∀ n, store.states.has n = true ↔ store.Carries n
  saved : store.session = none → ∃ records, store.stateFile.listed = .ok records ∧
    (records.map TypoState.state).Nodup ∧ ∀ n, n ∈ records.map TypoState.state ↔ store.Carries n

variable {setup : Setup} {store : Store} {docsStatus statesStatus : Status}
  {indexStatus : String → Status} {view : View} {saved : Set Nat}

/-- The states that the postings in the files carry are those that the view carries.

**Proof sketch.** The postings that a file lists are the terms with ids in the view, each with its
state. A field with unique values has no states. -/
lemma Files.carries_iff (h : store.Files setup docsStatus statesStatus indexStatus view saved)
    (n : Nat) : store.Carries n ↔ n ∈ setup.carried view.lists := by
  unfold Carries
  rw [h.schema_eq]
  constructor
  · rintro ⟨field, hfield, -, file, hget, postings, hlisted, posting, hposting, hstate⟩
    obtain ⟨file', postings', hget', hlisted', -, hmem⟩ := h.listed hfield
    obtain rfl := Option.some.inj (hget.symm.trans hget')
    obtain rfl := Except.ok.inj (hlisted.symm.trans hlisted')
    obtain ⟨hne, heq⟩ := (hmem posting).1 hposting
    rw [heq] at hstate
    exact ⟨field, hfield, posting.key, hne, hstate⟩
  · rintro ⟨field, hfield, term, hne, hstate⟩
    obtain ⟨file, postings, hget, hlisted, -, hmem⟩ := h.listed hfield
    have hunique : field.flags.unique = false := by
      by_contra hunique
      simp [Setup.stateFor, hunique] at hstate
    exact ⟨field, hfield, hunique, file, hget, postings, hlisted,
      .of term (view.lists field.name term) (setup.stateFor field term),
      (hmem _).2 ⟨hne, rfl⟩, hstate⟩

/-- The postings of a store carry the states of their terms. -/
lemma Files.states_postings
    (h : store.Files setup docsStatus statesStatus indexStatus view saved) :
    ∀ field ∈ store.schema.indexedFields, field.flags.unique = false →
      ∃ file postings, store.indexes.get? field.name = some file ∧ file.listed = .ok postings ∧
        ∀ posting ∈ postings, posting.state = some (store.automaton.stateOf posting.key) := by
  intro field hfield hunique
  rw [h.schema_eq] at hfield
  obtain ⟨file, postings, hget, hlisted, -, hmem⟩ := h.listed hfield
  refine ⟨file, postings, hget, hlisted, fun posting hposting => ?_⟩
  rw [((hmem posting).1 hposting).2, h.automaton_eq]
  simp [Posting.of, Setup.stateFor, hunique]

/-- A store that stands for a view has the typo states of its postings. -/
theorem Stands.statesAgree {status : Status} {session : Option Mode} {P : View → Prop}
    (h : store.Stands setup status session P) : store.StatesAgree := by
  obtain ⟨view, ⟨-, hrests⟩ | ⟨-, hruns⟩, -⟩ := h.stands
  · refine ⟨hrests.files.states_postings, fun hsession => ?_, fun _ => ?_⟩
    · rw [hrests.session_eq] at hsession
      cases hsession
    · obtain ⟨records, hlisted, hnodup, hmem⟩ := hrests.files.states.1.listed
      refine ⟨records, hlisted, hnodup, fun n => ?_⟩
      rw [hmem, hrests.files.carries_iff]
  · obtain ⟨saved, hfiles, htracks, -⟩ := hruns.files
    refine ⟨hfiles.states_postings, fun _ n => ?_, fun hsession => ?_⟩
    · rw [htracks.has_iff, hfiles.carries_iff]
    · rw [hruns.session_eq] at hsession
      cases hsession

end Store

/-! ## Steps -/

namespace Engine

/-- What is done to an engine and its store. Ids that are put under terms are plain ones. -/
inductive Step
  | createFiles
  | openSession
  | commit
  | saveIndexes (id : DocId) (plain : id.IsPlain) (fields : Fields)
  | removeFromIndexes (document : Document)
  | add (fields : Fields)
  | addWithId (text : String) (fields : Fields)
  | flush
  | truncate

/-- An engine after a step, whatever came of it. -/
def Step.apply : Step → Engine → Engine
  | createFiles => after (onStore Store.createFiles)
  | openSession => after (onStore (Store.openIn .readWrite))
  | commit => after (onStore Store.commit)
  | saveIndexes id _ fields => after (onStore (Store.saveIndexes id fields))
  | removeFromIndexes document => after (onStore (Store.removeFromIndexes document))
  | add fields => after (Engine.add fields)
  | addWithId text fields => after (Engine.addWithId text fields)
  | flush => after Engine.flush
  | truncate => after Engine.truncate

/-- An engine after a list of steps. -/
def run (engine : Engine) (steps : List Step) : Engine :=
  steps.foldl (fun engine step => step.apply engine) engine

/-! ## Every step leaves a store that stands for a view -/

open Store (anyView)

variable {setup : Store.Setup} {status : Store.Status} {session : Option Mode} {engine : Engine}

/-- Storing what is kept of a document, which may fail. -/
lemma takes_saveDocument (id : DocId) (fields : Fields) :
    Store.Takes setup anyView (Store.saveDocument id fields) (fun _ => anyView) anyView := by
  intro store view hruns _
  by_cases hcause : setup.schema.validate fields = .ok () ∧
      view.docs.merged (setup.document id fields) .replace = .ok (setup.document id fields)
  · obtain ⟨store', hrun, hruns'⟩ := hruns.saveDocument hcause.1 hcause.2
    exact .inl ⟨(), store', _, hrun, hruns', trivial⟩
  · rw [not_and_or] at hcause
    obtain ⟨e, hrun⟩ := hruns.saveDocument_error hcause
    exact .inr ⟨e, store, view, hrun, hruns, trivial⟩

/-- Replacing a document.

**Proof sketch.** Each of the steps takes any view to some view, whether it succeeds or fails. -/
lemma takes_replace (written : OrderedMap String Fields) {id : DocId} (hid : id.IsPlain)
    (fields : Fields) :
    Store.Takes setup anyView (replace written id fields) (fun _ => anyView) anyView := by
  have hprevious : Store.Takes setup anyView (previous written id) (fun _ => anyView) anyView := by
    unfold previous
    cases written.get? id.text with
    | some fields => exact .pure fun _ h => h
    | none => exact .look (fun _ _ _ h _ _ => h) fun _ h => h
  have hrest : Store.Takes setup anyView (do
      Store.saveDocument id fields
      Store.saveIndexes id fields) (fun _ => anyView) anyView :=
    (takes_saveDocument id fields).bind fun _ => .saveIndexes hid fields fun _ _ => trivial
  rw [replace_eq]
  refine hprevious.bind fun previous => ?_
  unfold replaceFields
  cases previous with
  | some previous =>
    have hremove : Store.Takes setup anyView (Store.removeFromIndexes ⟨id, previous⟩)
        (fun _ => anyView) anyView := .removeFromIndexes ⟨id, previous⟩ fun _ _ => trivial
    exact hremove.bind fun _ => hrest
  | none => exact hrest

/-- Every step leaves an engine whose store stands for a view.

**Proof sketch.** By the kinds of steps: each of them has been shown to leave a store that stands
for some view. -/
theorem Stands.step (h : engine.Stands setup status session anyView) (step : Step) :
    ∃ session', (step.apply engine).Stands setup status session' anyView := by
  cases step with
  | createFiles => exact ⟨session, h.onStore h.store.createFiles⟩
  | openSession =>
    obtain ⟨session', hstore⟩ := h.store.openIn
    exact ⟨session', h.onStore hstore⟩
  | commit => exact ⟨none, h.onStore h.store.commit⟩
  | saveIndexes id plain fields =>
    exact ⟨session, h.onStore (h.store.saveIndexes plain fields fun _ _ => trivial)⟩
  | removeFromIndexes document =>
    exact ⟨session, h.onStore (h.store.removeFromIndexes document fun _ _ => trivial)⟩
  | add fields => exact ⟨session, h.add fields⟩
  | addWithId text fields => exact ⟨session, h.addWithId text fields⟩
  | flush =>
    refine ⟨session, h.flush fun _ => ?_⟩
    exact .writeBatch (I := fun _ => anyView) (fun _ _ hP => hP)
      (fun written id hid waiting _ => takes_replace written hid waiting.fields) h.plain ∅
  | truncate => exact ⟨session, h.truncate trivial⟩

/-- All steps do. -/
theorem Stands.run (h : engine.Stands setup status session anyView) (steps : List Step) :
    ∃ session', (engine.run steps).Stands setup status session' anyView := by
  induction steps generalizing engine session with
  | nil => exact ⟨session, h⟩
  | cons step steps ih =>
    obtain ⟨session', hstep⟩ := h.step step
    exact ih hstep

/-- **Typo states follow the postings.** After any steps, starting without any files, the typo
states of a store in a session are those of its postings, and so are the saved ones between
sessions. -/
theorem statesAgree_of_run (setup : Store.Setup) (scoring : Scoring) (steps : List Step) :
    (run { store := setup.store ∅, scoring } steps).store.StatesAgree := by
  obtain ⟨session, hstands⟩ := (stands_empty setup scoring trivial).run steps
  exact hstands.store.statesAgree

end Engine

end Concordance
