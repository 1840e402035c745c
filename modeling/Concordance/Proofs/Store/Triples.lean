import Concordance.Proofs.Store.Changes
import Concordance.Proofs.Store.Directories
import Concordance.Proofs.Store.Keeping
import Concordance.Proofs.Store.Lookups

set_option relaxedAutoImplicit false
set_option autoImplicit false

/-!
# A store as a set of triples

Whatever is put under terms and taken away again, in sessions and without them, what look-ups answer
is told by a set of triples of a field, a term and an id.

## Main definitions

* `Concordance.Store.Triple`, `Setup.triplesOf` — the triples of a document.
* `Concordance.Store.IndexStep`, `index` — steps that change a store and a set of triples.
* `Concordance.Store.AnswersFrom`, `Replies` — look-ups answer from triples, and they succeed.

## Main results

* `Concordance.Store.Keeps.step` — every step keeps a store and its triples together.
* `Concordance.Store.answersFrom_of_index` — look-ups after any steps.
-/

namespace Concordance.Store

open Operation

/-! ## Triples -/

/-- An id under a term of a field. -/
structure Triple where
  field : String
  term : String
  id : DocId
  deriving DecidableEq

/-- The triples of an id and the fields of a document: the terms of the values that indexed fields
have. -/
def Setup.triplesOf (setup : Setup) (id : DocId) (fields : Fields) : Set Triple :=
  {triple | triple.id = id ∧ ∃ field ∈ setup.schema.indexedFields, field.name = triple.field ∧
    ∃ value, fields.get? field.name = some value ∧
      triple.term ∈ (setup.store ∅).fieldTerms field value}

/-- What is done to a store. Ids that are put under terms are plain ones. -/
inductive IndexStep
  | openSession
  | commit
  | save (id : DocId) (plain : id.IsPlain) (fields : Fields)
  | remove (document : Document)
  | truncate

namespace IndexStep

/-- The operation of a step. -/
def op : IndexStep → Op Unit
  | openSession => Store.openIn .readWrite
  | commit => Store.commit
  | save id _ fields => Store.saveIndexes id fields
  | remove document => Store.removeFromIndexes document
  | truncate => Store.truncate

/-- The triples after a step. -/
def change (setup : Setup) : IndexStep → Set Triple → Set Triple
  | openSession, triples | commit, triples => triples
  | save id _ fields, triples => triples ∪ setup.triplesOf id fields
  | remove document, triples => triples \ setup.triplesOf document.id document.fields
  | truncate, _ => ∅

/-- A store and triples after a step. The triples change only if the step succeeds. -/
def apply (setup : Setup) (step : IndexStep) (state : Store × Set Triple) : Store × Set Triple :=
  match step.op state.1 with
  | .ok _ store => (store, step.change setup state.2)
  | .error _ store => (store, state.2)

end IndexStep

/-- A store and triples after some steps, starting without any files. -/
def index (setup : Setup) (steps : List IndexStep) : Store × Set Triple :=
  steps.foldl (fun state step => step.apply setup state) (setup.store ∅, ∅)

/-! ## Answers -/

/-- What look-ups answer, if they succeed, is told by triples: the ids under the key of a term,
those under the terms that begin with the key, and those under a term as it is. -/
structure AnswersFrom (store : Store) (setup : Setup) (triples : Set Triple) : Prop where
  byTerm : ∀ term filter found,
    Gives (within .read (Op.look fun store => store.byTerm term filter)) store found →
      Finds setup.schema filter (fun name id => ∃ key, setup.IsKey term name key ∧
        ⟨name, key, id⟩ ∈ triples) found
  byStart : ∀ start filter found,
    Gives (within .read (Op.look fun store => store.byStart start filter)) store found →
      Finds setup.schema filter (fun name id => ∃ key, setup.IsKey start name key ∧
        ∃ term : String, key.toList <+: term.toList ∧ ⟨name, term, id⟩ ∈ triples) found
  postings : ∀ name term list,
    Gives (within .read (Op.look fun store => store.postings name term)) store list →
      list.ids.Nodup ∧ ∀ id, id ∈ list.ids ↔ ⟨name, term, id⟩ ∈ triples

/-- All look-ups succeed. -/
structure Replies (store : Store) : Prop where
  byTerm : ∀ term filter, ∃ found,
    Gives (within .read (Op.look fun store => store.byTerm term filter)) store found
  byStart : ∀ start filter, ∃ found,
    Gives (within .read (Op.look fun store => store.byStart start filter)) store found
  postings : ∀ name term, ∃ list,
    Gives (within .read (Op.look fun store => store.postings name term)) store list

/-! ## Views and triples -/

/-- A view lists what triples say. -/
def View.Shows (setup : Setup) (triples : Set Triple) (view : View) : Prop :=
  ∀ triple : Triple, triple ∈ triples ↔ ∃ field ∈ setup.schema.indexedFields,
    field.name = triple.field ∧ triple.id ∈ (view.lists triple.field triple.term).ids

variable {setup : Setup} {store : Store} {triples : Set Triple} {view : View} {status : Status}
  {session : Option Mode}

/-- An empty view shows no triples. -/
lemma View.shows_empty (setup : Setup) : View.empty.Shows setup ∅ := by
  intro triple
  refine iff_of_false (Set.notMem_empty _) ?_
  rintro ⟨field, -, -, hid⟩
  exact List.not_mem_nil hid

/-- The ids of an indexed field are those of its triples. -/
lemma View.Shows.mem_iff (h : view.Shows setup triples) {field : Field}
    (hfield : field ∈ setup.schema.indexedFields) {term : String} {id : DocId} :
    id ∈ (view.lists field.name term).ids ↔ ⟨field.name, term, id⟩ ∈ triples :=
  ⟨fun hid => (h ⟨field.name, term, id⟩).2 ⟨field, hfield, rfl, hid⟩, fun htriple => by
    obtain ⟨-, -, -, hid⟩ := (h ⟨field.name, term, id⟩).1 htriple
    exact hid⟩

/-- The triples of a document say that its id is under its terms. -/
lemma Setup.mem_triplesOf {id other : DocId} {fields : Fields} {field : Field}
    (hfield : field ∈ setup.schema.indexedFields) {term : String} :
    ⟨field.name, term, other⟩ ∈ setup.triplesOf id fields ↔
      other = id ∧ (field, term) ∈ setup.indexTerms fields := by
  rw [setup.mem_indexTerms]
  constructor
  · rintro ⟨hid, found, hfound, hname, hvalue⟩
    obtain rfl := setup.eq_of_name_eq hfound hfield hname
    exact ⟨hid, hfield, hvalue⟩
  · rintro ⟨hid, -, hvalue⟩
    exact ⟨hid, field, hfield, rfl, hvalue⟩

/-- If all ids change as the triples do, the view lists what the triples say after the change
too. -/
lemma View.Shows.change {view' : View} {changed : Set Triple}
    (hsub : ∀ triple ∈ changed, ∃ field ∈ setup.schema.indexedFields, field.name = triple.field)
    (hlists : ∀ field ∈ setup.schema.indexedFields, ∀ term id,
      id ∈ (view'.lists field.name term).ids ↔ ⟨field.name, term, id⟩ ∈ changed) :
    view'.Shows setup changed := by
  intro triple
  constructor
  · intro htriple
    obtain ⟨field, hfield, hname⟩ := hsub triple htriple
    refine ⟨field, hfield, hname, ?_⟩
    rw [← hname, hlists field hfield, hname]
    exact htriple
  · rintro ⟨field, hfield, hname, hid⟩
    rw [← hname, hlists field hfield, hname] at hid
    exact hid

/-- The triples that a view shows are triples of indexed fields. -/
lemma View.Shows.exists_field (h : view.Shows setup triples) {triple : Triple}
    (htriple : triple ∈ triples) :
    ∃ field ∈ setup.schema.indexedFields, field.name = triple.field := by
  obtain ⟨field, hfield, hname, -⟩ := (h triple).1 htriple
  exact ⟨field, hfield, hname⟩

/-- The triples of a document are added to those that the view shows. -/
lemma View.Shows.save (h : view.Shows setup triples) (id : DocId) (fields : Fields) :
    (view.save setup id fields).Shows setup (triples ∪ setup.triplesOf id fields) := by
  refine .change ?_ fun field hfield term other => ?_
  · rintro triple (htriple | ⟨-, field, hfield, hname, -⟩)
    · exact h.exists_field htriple
    · exact ⟨field, hfield, hname⟩
  · rw [View.mem_save hfield, h.mem_iff hfield, Set.mem_union, Setup.mem_triplesOf hfield]

/-- The triples of a document are removed from those that the view shows. -/
lemma View.Shows.remove (h : view.Shows setup triples) (id : DocId) (fields : Fields) :
    (view.remove setup id fields).Shows setup (triples \ setup.triplesOf id fields) := by
  refine .change (fun triple htriple => h.exists_field htriple.1)
    fun field hfield term other => ?_
  rw [View.mem_remove hfield, h.mem_iff hfield, Set.mem_sdiff, Setup.mem_triplesOf hfield]

/-! ## Steps -/

/-- A store stands for a view that shows triples. -/
def Keeps (setup : Setup) (status : Status) (state : Store × Set Triple) : Prop :=
  ∃ session, state.1.Stands setup status session (View.Shows setup state.2)

/-- A step that succeeds changes the triples as it should. -/
lemma apply_ok {step : IndexStep} {state : Store × Set Triple} {store' : Store}
    (h : step.op state.1 = .ok () store') :
    step.apply setup state = (store', step.change setup state.2) := by
  simp [IndexStep.apply, h]

/-- A step that fails leaves the triples as they were. -/
lemma apply_error {step : IndexStep} {state : Store × Set Triple} {e : Error} {store' : Store}
    (h : step.op state.1 = .error e store') : step.apply setup state = (store', state.2) := by
  simp [IndexStep.apply, h]

/-- What an operation in a session does to the triples a step does, or nothing was known of the
files and the step fails. -/
lemma Stands.keeps_within (h : store.Stands setup status session (View.Shows setup triples))
    {op : Op Unit} {changed : Set Triple}
    (hop : Takes setup (View.Shows setup triples) (Store.within .readWrite op)
      (fun _ => View.Shows setup changed) fun _ => False) :
    (∃ store', Store.within .readWrite op store = .ok () store' ∧
      Keeps setup status (store', changed)) ∨
    status = .unknown ∧ ∃ e store', Store.within .readWrite op store = .error e store' ∧
      Keeps setup status (store', triples) := by
  rcases h.within_cases hop.of_within with ⟨a, store', hrun, hstore'⟩ |
    ⟨e, store', hrun, himpossible | ⟨hunknown, hstore'⟩⟩
  · exact .inl ⟨store', hrun, session, hstore'⟩
  · obtain ⟨_, _, hfalse⟩ := himpossible.stands
    exact hfalse.elim
  · exact .inr ⟨hunknown, e, store', hrun, session, hstore'⟩

/-- **Every step keeps a store and its triples together**, and the triples change as they should
unless nothing is known of the files.

**Proof sketch.** By the kinds of steps, each of which is of one of two sorts: it changes the
triples unless nothing is known of the files, or it leaves them alone, whether it succeeds or not.
-/
theorem Keeps.step {state : Store × Set Triple} (h : Keeps setup status state) (step : IndexStep) :
    Keeps setup status (step.apply setup state) ∧
      (status ≠ .unknown → (step.apply setup state).2 = step.change setup state.2) := by
  obtain ⟨session, hstands⟩ := h
  -- a step that comes to one of these two, like those that may write
  have hcases : ((∃ store', step.op state.1 = .ok () store' ∧
        Keeps setup status (store', step.change setup state.2)) ∨
      status = .unknown ∧ ∃ e store', step.op state.1 = .error e store' ∧
        Keeps setup status (store', state.2)) →
      Keeps setup status (step.apply setup state) ∧
        (status ≠ .unknown → (step.apply setup state).2 = step.change setup state.2) := by
    rintro (⟨store', hrun, hkeeps⟩ | ⟨hunknown, e, store', hrun, hkeeps⟩)
    · rw [apply_ok hrun]
      exact ⟨hkeeps, fun _ => rfl⟩
    · rw [apply_error hrun]
      exact ⟨hkeeps, fun hne => absurd hunknown hne⟩
  -- a step that leaves the triples alone, whether it succeeds or not
  have hsame : (∃ session', (after step.op state.1).Stands setup status session'
        (View.Shows setup state.2)) → step.change setup state.2 = state.2 →
      Keeps setup status (step.apply setup state) ∧
        (status ≠ .unknown → (step.apply setup state).2 = step.change setup state.2) := by
    intro hkeeps hchange
    cases hrun : step.op state.1 with
    | ok a store' =>
      rw [after_ok hrun] at hkeeps
      rw [apply_ok hrun, hchange]
      exact ⟨hkeeps, fun _ => rfl⟩
    | error e store' =>
      rw [after_error hrun] at hkeeps
      rw [apply_error hrun, hchange]
      exact ⟨hkeeps, fun _ => rfl⟩
  cases step with
  | openSession => exact hsame hstands.openIn rfl
  | commit => exact hsame ⟨none, hstands.commit⟩ rfl
  | save id plain fields =>
    exact hcases (hstands.keeps_within (.saveIndexes plain fields fun _ h => h.save id fields))
  | remove document =>
    exact hcases (hstands.keeps_within (.removeFromIndexes document fun _ h =>
      h.remove document.id document.fields))
  | truncate =>
    refine hcases ?_
    rcases hstands.truncate_cases with ⟨store', hrun, hstore'⟩ |
      ⟨hunknown, e, store', hrun, hstore'⟩
    · refine .inl ⟨store', hrun, session, hstore'.imp ?_⟩
      rintro _ rfl
      exact View.shows_empty setup
    · exact .inr ⟨hunknown, e, store', hrun, session, hstore'⟩

/-- All steps do. -/
lemma Keeps.steps {state : Store × Set Triple} (h : Keeps setup status state)
    (steps : List IndexStep) :
    Keeps setup status (steps.foldl (fun state step => step.apply setup state) state) ∧
      (status ≠ .unknown →
        (steps.foldl (fun state step => step.apply setup state) state).2 =
          steps.foldl (fun triples step => step.change setup triples) state.2) := by
  induction steps generalizing state with
  | nil => exact ⟨h, fun _ => rfl⟩
  | cons step steps ih =>
    obtain ⟨hstep, hchange⟩ := h.step step
    obtain ⟨hrest, hchanges⟩ := ih hstep
    refine ⟨hrest, fun hne => ?_⟩
    rw [List.foldl_cons, List.foldl_cons, hchanges hne, hchange hne]

/-! ## Look-ups -/

/-- A look-up that answers from the view in every session.

**Proof sketch.** By whether a session can be started. If so, the answer is that from the view; if
not, nothing is given. -/
lemma Stands.gives {α : Type} {Q : α → Prop} {f : Store → Except Error α}
    (h : store.Stands setup status session (View.Shows setup triples))
    (hf : ∀ {mode : Mode} {view : View} {opened : Store}, opened.Runs setup mode view →
      view.Shows setup triples → ∃ a, f opened = .ok a ∧ Q a) :
    (∀ a, Gives (Store.within .read (Op.look f)) store a → Q a) ∧
      (status ≠ .unknown → ∃ a, Gives (Store.within .read (Op.look f)) store a) := by
  rcases @look_cases _ _ _ _ _ _ (fun result _ => ∃ a, result = .ok a ∧ Q a) h f hf with
    ⟨result, store', view, hrun, -, -, a, rfl, hQ⟩ | ⟨hunknown, e, store', hrun, -⟩
  · have hgives : Gives (Store.within .read (Op.look f)) store a := ⟨store', ok_of_attempt hrun⟩
    refine ⟨fun b hb => ?_, fun _ => ⟨a, hgives⟩⟩
    rw [hb.eq hgives]
    exact hQ
  · refine ⟨fun b hb => ?_, fun hne => absurd hunknown hne⟩
    obtain ⟨store'', hb⟩ := hb
    rw [hrun] at hb
    cases hb

/-- What is found is told by other words for the same ids. -/
lemma Finds.congr {schema : Schema} {filter : Option String}
    {listed listed' : String → DocId → Prop} {found : Matches}
    (h : Finds schema filter listed found)
    (hlisted : ∀ name id, listed name id ↔ listed' name id) : Finds schema filter listed' found :=
  { h with exact := fun name list hget id => (h.exact name list hget id).trans (hlisted name id) }

/-- The ids under a key are those of the triples with the key. -/
lemma View.Shows.mem_of_isKey (h : view.Shows setup triples) {word name key term : String}
    (hkey : setup.IsKey word name key) {id : DocId} :
    id ∈ (view.lists name term).ids ↔ ⟨name, term, id⟩ ∈ triples := by
  obtain ⟨field, hfield, rfl, -⟩ := hkey
  exact h.mem_iff hfield

/-- Look-ups in a store that stands for a view answer from the triples that the view shows.

**Proof sketch.** Each of the three look-ups answers from the postings of the view that the store
stands for, and these are the triples that the view shows. -/
theorem Keeps.answersFrom {state : Store × Set Triple} (h : Keeps setup status state) :
    state.1.AnswersFrom setup state.2 ∧ (status ≠ .unknown → state.1.Replies) := by
  obtain ⟨session, hstands⟩ := h
  have hterm := fun term filter => @Stands.gives _ _ _ _ _ _
    (Finds setup.schema filter fun name id => ∃ key, setup.IsKey term name key ∧
      ⟨name, key, id⟩ ∈ state.2) (fun store => store.byTerm term filter) hstands
    fun hruns hshows => by
      obtain ⟨found, hrun, hfound⟩ := hruns.byTerm term filter
      exact ⟨found, hrun, hfound.congr fun name id => exists_congr fun key =>
        and_congr_right fun hkey => hshows.mem_of_isKey hkey⟩
  have hstart := fun start filter => @Stands.gives _ _ _ _ _ _
    (Finds setup.schema filter fun name id => ∃ key, setup.IsKey start name key ∧
      ∃ term : String, key.toList <+: term.toList ∧ ⟨name, term, id⟩ ∈ state.2)
    (fun store => store.byStart start filter) hstands fun hruns hshows => by
      obtain ⟨found, hrun, hfound⟩ := hruns.byStart start filter
      exact ⟨found, hrun, hfound.congr fun name id => exists_congr fun key =>
        and_congr_right fun hkey => exists_congr fun term =>
          and_congr_right fun _ => hshows.mem_of_isKey hkey⟩
  have hlist := fun name term => @Stands.gives _ _ _ _ _ _
    (fun list => list.ids.Nodup ∧ ∀ id, id ∈ list.ids ↔ ⟨name, term, id⟩ ∈ state.2)
    (fun store => store.postings name term) hstands fun hruns hshows => by
      obtain ⟨list, hrun, hnodup, hmem⟩ := hruns.mem_postings name term
      exact ⟨list, hrun, hnodup, fun id => (hmem id).trans (hshows ⟨name, term, id⟩).symm⟩
  exact ⟨⟨fun term filter => (hterm term filter).1, fun start filter => (hstart start filter).1,
      fun name term => (hlist name term).1⟩,
    fun hne => ⟨fun term filter => (hterm term filter).2 hne,
      fun start filter => (hstart start filter).2 hne, fun name term => (hlist name term).2 hne⟩⟩

/-- **Look-ups answer from a set of triples.** A store starts without any files. After any steps,
every look-up that succeeds answers from the triples that the steps that succeeded have added and
not removed. If the files can have their names, all look-ups succeed, and all steps count that
change the triples.

**Proof sketch.** A store stands for a view that shows its triples: every step keeps this, and
without files both are empty. In a session look-ups answer from the view, and without one they are
asked in a session of their own. -/
theorem answersFrom_of_index (setup : Setup) (steps : List IndexStep) :
    (index setup steps).1.AnswersFrom setup (index setup steps).2 ∧
      (setup.Nameable → (index setup steps).1.Replies ∧ (index setup steps).2 =
        steps.foldl (fun triples step => step.change setup triples) ∅) := by
  have hempty : Keeps setup .unknown (setup.store ∅, ∅) :=
    ⟨none, setup.rests_empty.stands (View.shows_empty setup)⟩
  refine ⟨(hempty.steps steps).1.answersFrom.1, fun hnames => ?_⟩
  have hready : Keeps setup .ready (setup.store ∅, ∅) :=
    ⟨none, hnames.rests_empty.stands (View.shows_empty setup)⟩
  obtain ⟨hkeeps, hchanges⟩ := hready.steps steps
  exact ⟨hkeeps.answersFrom.2 (by simp), hchanges (by simp)⟩

/-- Two books are written in a session, and one of them is taken away after it. -/
def bookSteps : List IndexStep :=
  [.openSession, .save ⟨"a"⟩ (@DocId.isPlain_of_ofText "a" _ rfl)
      (.ofList [("title", .text "Red Fox"), ("code", .text "A-1")]),
    .save ⟨"b"⟩ (@DocId.isPlain_of_ofText "b" _ rfl) (.ofList [("title", .text "Redwood")]),
    .commit,
    .remove ⟨⟨"b"⟩, .ofList [("title", .text "Redwood")]⟩]

/-- The files of books can have their names, so all books are found. -/
theorem answersFrom_of_index_books : bookSetup.Nameable ∧ (index bookSetup bookSteps).1.Replies ∧
    (index bookSetup bookSteps).2 =
      bookSteps.foldl (fun triples step => step.change bookSetup triples) ∅ :=
  ⟨nameable_bookSetup, (answersFrom_of_index bookSetup bookSteps).2 nameable_bookSetup⟩

end Concordance.Store
