import Concordance.Proofs.Engine.UniqueValues

set_option relaxedAutoImplicit false
set_option autoImplicit false

/-!
# Engines at work

An engine starts with an empty directory, and is then used and searched. At any time its documents
can be read, and a document that waits without a chosen id has the number that it would get if the
documents before it were all new. If the numbers of the documents are read back as they are written,
the index is inverted as well.

## Main definitions

* `Concordance.Engine.Task`, `perform` — what is done to an engine, searches included.
* `Concordance.Engine.Waits` — what holds of an engine at work.

## Main results

* `Concordance.Engine.Waits.task` — every task keeps it.
* `Concordance.Engine.exists_waits` — it holds of every engine that has performed some tasks.
* `Concordance.Engine.inverts_perform` — its index is inverted, if numbers are read back.
* `Concordance.Engine.Stands.load`, `count` — what is stored can be asked for.
-/

namespace Concordance

open Operation

variable {setup : Store.Setup} {engine : Engine} {P : Store.View → Prop} {n : Nat}

namespace Engine

/-! ## Tasks -/

/-- What is done to an engine: it is used, or it is searched. -/
inductive Task
  | use (usage : Use)
  | search (text : String)
  | searchQuery (query : Query) (phrase : String)

/-- An engine after a task, whatever came of it. -/
def Task.apply (setup : Store.Setup) : Task → Engine → Engine
  | use usage => usage.apply setup
  | search text => after (Engine.search text)
  | searchQuery query phrase => after (Engine.searchQuery query phrase)

/-- An engine after it has performed some tasks. -/
def perform (setup : Store.Setup) (engine : Engine) (tasks : List Task) : Engine :=
  tasks.foldl (fun engine task => task.apply setup engine) engine

/-- The finite numbers of a document that comes in are read back. -/
def Task.NumbersReadBack : Task → Prop
  | use usage => usage.NumbersReadBack
  | search _ | searchQuery _ _ => True

instance : DecidablePred Task.NumbersReadBack
  | .use usage => inferInstanceAs (Decidable usage.NumbersReadBack)
  | .search _ | .searchQuery _ _ => instDecidableTrue

/-! ## Questions -/

/-- A question that has an answer in every session has one between sessions as well, and asking it
changes nothing. -/
lemma Stands.ask (h : engine.Stands setup .made none P) {α : Type}
    {question : Store → Except Error α} {answer : Store.View → α}
    (hquestion : ∀ {mode : Mode} {view : Store.View} {opened : Store},
      opened.Runs setup mode view → P view → question opened = .ok (answer view)) :
    ∃ view store', P view ∧ store'.Stands setup .made none (· = view) ∧
      Engine.ask question engine = .ok (answer view) { engine with store := store' } := by
  obtain ⟨a, store', view, hrun, hstore', hP, rfl⟩ := @Store.Stands.gives_look _ _ _ _ _ _
    (fun a view => a = answer view) h.store (by simp) question
    fun hruns hview => ⟨_, hquestion hruns hview, rfl⟩
  refine ⟨view, store', hP, hstore', ?_⟩
  unfold Engine.ask Engine.onStore
  rw [hrun]

/-- The stored documents are counted. -/
lemma Stands.count (h : engine.Stands setup .made none P) :
    ∃ view store', P view ∧ store'.Stands setup .made none (· = view) ∧
      Engine.count engine = .ok view.docs.size { engine with store := store' } := by
  refine h.ask fun hruns _ => ?_
  obtain ⟨saved, hfiles, -, -⟩ := hruns.files
  exact hfiles.docs.1.total

/-- What is stored under an id is loaded, if all documents can be read. -/
lemma Stands.load (h : engine.Stands setup .made none P) (hP : ∀ view, P view → view.Readable)
    (id : DocId) :
    ∃ view store', P view ∧ store'.Stands setup .made none (· = view) ∧
      Engine.load id engine = .ok (view.fetched id) { engine with store := store' } :=
  h.ask fun hruns hview => hruns.fetch (hP _ hview) id

/-- A document is added under the number that follows those of the documents that are stored and
those that wait. -/
lemma Stands.add_ok (h : engine.Stands setup .made none P) (fields : Fields) :
    ∃ view store', P view ∧ store'.Stands setup .made none (· = view) ∧
      Engine.add fields engine = .ok (.ofSequence (view.docs.size + engine.pending.length + 1))
        { engine with
          store := store'
          pending := engine.pending ++
            [⟨.ofSequence (view.docs.size + engine.pending.length + 1), fields, true⟩] } := by
  obtain ⟨view, store', hP, hstore', hrun⟩ := h.count
  exact ⟨view, store', hP, hstore', bind_ok hrun _⟩

/-! ## Searches -/

/-- The hits of a query, in a session of its own. -/
def hitsOf (scoring : Scoring) (query : Query) (phrase : String) : Store.Op (List Hit) := do
  Store.openIn .read
  let result ← Store.Op.attempt <| Store.Op.look fun store =>
    Search.run ⟨store, scoring, phrase⟩ query
  let ended ← Store.Op.attempt Store.commit
  match result, ended with
  | .ok set, .ok () => return set.hits
  | .ok _, .error e | .error e, _ => throw e

/-- A query asks the store, and the engine stays as it is otherwise. -/
lemma searchQuery_eq (query : Query) (phrase : String) (engine : Engine) :
    searchQuery query phrase engine = onStore (hitsOf engine.scoring query phrase) engine := rfl

/-- A session comes to what the query comes to in it.

**Proof sketch.** Between opening and committing stands nothing but the query, which changes
nothing. -/
lemma hitsOf_eq {store opened ended : Store} (hopen : Store.openIn .read store = .ok () opened)
    (hcommit : Store.commit opened = .ok () ended) (scoring : Scoring) (query : Query)
    (phrase : String) : hitsOf scoring query phrase store =
      match Search.run ⟨opened, scoring, phrase⟩ query with
      | .ok set => .ok set.hits ended
      | .error e => .error e ended := by
  unfold hitsOf
  cases hrun : Search.run ⟨opened, scoring, phrase⟩ query with
  | ok set =>
    rw [bind_ok hopen, bind_ok (Store.attempt_ok (Store.look_ok hrun)),
      bind_ok (Store.attempt_ok hcommit)]
    rfl
  | error e =>
    rw [bind_ok hopen, bind_ok (Store.attempt_error (Store.look_error hrun)),
      bind_ok (Store.attempt_ok hcommit)]
    rfl

end Engine

open Engine in
/-- A query leaves what a store stands for as it is. -/
lemma Store.Stands.hitsOf {store : Store}
    (h : store.Stands setup .made none P) (scoring : Scoring) (query : Query) (phrase : String) :
    (after (hitsOf scoring query phrase) store).Stands setup .made none P := by
  obtain ⟨view, hrests, hP⟩ := h.exists_rests
  obtain ⟨opened, hopen, hruns⟩ := hrests.exists_openIn .read
  obtain ⟨ended, hcommit, hended⟩ := hruns.commit
  have hafter : after (Engine.hitsOf scoring query phrase) store = ended := by
    unfold after
    rw [Engine.hitsOf_eq hopen hcommit]
    cases Search.run ⟨opened, scoring, phrase⟩ query <;> rfl
  rw [hafter]
  exact hended.stands hP

namespace Engine

/-- After a search, only the store's handles may be others. -/
lemma after_searchQuery (query : Query) (phrase : String) (engine : Engine) :
    after (searchQuery query phrase) engine =
      { engine with store := after (hitsOf engine.scoring query phrase) engine.store } := by
  refine Eq.trans ?_ (after_onStore _ _)
  unfold after
  rw [searchQuery_eq]

/-- A search for what a text spells is a search for a query, or nothing at all. -/
lemma after_search (text : String) (engine : Engine) : after (search text) engine = engine ∨
    ∃ query, after (search text) engine = after (searchQuery query text) engine := by
  unfold search
  cases Query.parse anyField text with
  | error e => exact .inl rfl
  | ok query => exact .inr ⟨query.normalize, rfl⟩

/-! ## What tasks keep -/

/-- A query keeps what holds of the store of an engine. -/
lemma Stands.searchQuery (h : engine.Stands setup .made none P) (query : Query) (phrase : String) :
    (after (Engine.searchQuery query phrase) engine).Stands setup .made none P := by
  rw [after_searchQuery]
  exact ⟨h.store.hitsOf engine.scoring query phrase, h.plain⟩

/-- A search keeps the index inverted. -/
lemma Inverts.searchQuery (h : engine.Inverts setup) (query : Query) (phrase : String) :
    (after (Engine.searchQuery query phrase) engine).Inverts setup := by
  refine ⟨h.stands.searchQuery query phrase, ?_⟩
  rw [after_searchQuery]
  exact h.numbers

/-- Every task keeps the index inverted. -/
lemma Inverts.task (h : engine.Inverts setup) {task : Task} (hnumbers : task.NumbersReadBack) :
    (task.apply setup engine).Inverts setup := by
  cases task with
  | use usage => exact h.use hnumbers
  | search text =>
    rw [Task.apply]
    rcases after_search text engine with hafter | ⟨query, hafter⟩
    · rwa [hafter]
    · rw [hafter]
      exact h.searchQuery query text
  | searchQuery query phrase => exact h.searchQuery query phrase

/-- **The index of an engine at work** is inverted, if it starts with an empty directory and the
finite numbers of all documents are read back. -/
theorem inverts_perform {scoring : Scoring}
    (hstart : (start (setup.store ∅) scoring).1 = .ok engine) {tasks : List Task}
    (hnumbers : ∀ task ∈ tasks, task.NumbersReadBack) :
    (perform setup engine tasks).Inverts setup := by
  obtain ⟨hstands, hpending⟩ := @stands_start setup (fun view => view.Inverted setup) engine scoring
    hstart (Store.View.inverted_empty setup)
  have hengine : engine.Inverts setup :=
    ⟨hstands, fun waiting hwaiting => by rw [hpending] at hwaiting; cases hwaiting⟩
  clear hstart hstands hpending
  induction tasks generalizing engine with
  | nil => exact hengine
  | cons task tasks ih =>
    exact ih (fun other hother => hnumbers other (List.mem_cons_of_mem _ hother))
      (hengine.task (hnumbers task List.mem_cons_self))

/-! ## What holds of an engine at work -/

/-- An engine whose `n` documents can be read. If a document waits without a chosen id, its number
is that of its place behind the stored documents. -/
structure Waits (engine : Engine) (setup : Store.Setup) (n : Nat) : Prop where
  stands : engine.Stands setup .made none fun view => view.Readable ∧ view.docs.size = n
  numbered : ∀ i (waiting : Pending), engine.pending[i]? = some waiting →
    waiting.synthesized = true → waiting.id = .ofSequence (n + i + 1)

/-- An engine without documents that wait, the documents of which can be read. -/
lemma Stands.waits (h : engine.Stands setup .made none Store.View.Readable)
    (hpending : engine.pending = []) : ∃ n, engine.Waits setup n := by
  obtain ⟨view, hview, hread⟩ := h.store.stands
  refine ⟨view.docs.size, ⟨⟨h.store.closed, view, hview, hread, rfl⟩, h.plain⟩,
    fun i waiting hwaiting => ?_⟩
  rw [hpending] at hwaiting
  cases hwaiting

namespace Waits

/-- An engine at work stands for a view of documents that can be read. -/
lemma readable (h : engine.Waits setup n) :
    engine.Stands setup .made none Store.View.Readable :=
  ⟨h.stands.store.imp fun _ => And.left, h.stands.plain⟩

/-- One more document waits, which has the next number or a chosen id.

**Proof sketch.** The new document comes behind the ones that wait. Those in front keep their
places, and its own place tells its number. -/
lemma append (h : engine.Waits setup n) {store : Store} {waiting : Pending}
    (hstore : store.Stands setup .made none fun view => view.Readable ∧ view.docs.size = n)
    (hplain : waiting.id.IsPlain)
    (hid : waiting.synthesized = true → waiting.id = .ofSequence (n + engine.pending.length + 1)) :
    { engine with store, pending := engine.pending ++ [waiting] }.Waits setup n := by
  have hstands : { engine with store }.Stands setup .made none fun view =>
      view.Readable ∧ view.docs.size = n := ⟨hstore, h.stands.plain⟩
  refine ⟨hstands.append fun other hother => ?_, fun i other hother => ?_⟩
  · rw [List.mem_singleton.1 hother]
    exact hplain
  · rcases lt_trichotomy i engine.pending.length with hi | rfl | hi
    · rw [List.getElem?_append_left hi] at hother
      exact h.numbered i other hother
    · rw [List.getElem?_append_right (Nat.le_refl _), Nat.sub_self] at hother
      cases hother
      exact hid
    · rw [List.getElem?_eq_none (by simpa using hi)] at hother
      cases hother

/-- A document is added. -/
lemma add (h : engine.Waits setup n) (fields : Fields) :
    (after (Engine.add fields) engine).Waits setup n := by
  obtain ⟨view, store', ⟨hread, rfl⟩, hstore', hrun⟩ := h.stands.add_ok fields
  rw [after_ok hrun]
  refine h.append (hstore'.imp ?_) (DocId.isPlain_ofSequence _) fun _ => rfl
  rintro _ rfl
  exact ⟨hread, rfl⟩

/-- A document is added under a chosen id, if it can be chosen. -/
lemma addWithId (h : engine.Waits setup n) (text : String) (fields : Fields) :
    (after (Engine.addWithId text fields) engine).Waits setup n := by
  unfold Engine.addWithId
  cases hid : DocId.ofText text with
  | error e => exact h
  | ok id =>
    exact h.append h.stands.store (DocId.isPlain_of_ofText hid) fun hfalse =>
      absurd hfalse Bool.false_ne_true

/-- A search keeps what holds of an engine at work. -/
lemma searchQuery (h : engine.Waits setup n) (query : Query) (phrase : String) :
    (after (Engine.searchQuery query phrase) engine).Waits setup n := by
  refine ⟨h.stands.searchQuery query phrase, ?_⟩
  rw [after_searchQuery]
  exact h.numbered

/-- **Every task keeps what holds of an engine at work**, though another number of documents may be
stored.

**Proof sketch.** By the kinds of tasks. A use leaves documents that can be read, and whatever
waited is flushed, or emptied, or as it was with one document more. A search changes nothing of
this. -/
theorem task (h : engine.Waits setup n) (task : Task) :
    ∃ n', (task.apply setup engine).Waits setup n' := by
  cases task with
  | use usage =>
    have hused := h.readable.use Store.View.readable_empty
      (fun hvalid => Store.takes_writeBatch_readable h.stands.plain hvalid) usage
    cases usage with
    | add fields => exact ⟨n, h.add fields⟩
    | addWithId text fields => exact ⟨n, h.addWithId text fields⟩
    | flush =>
      refine hused.waits ?_
      rcases after_flush engine with ⟨hafter, hempty⟩ | hafter
      · exact (congrArg Engine.pending hafter).trans hempty
      · exact congrArg Engine.pending hafter
    | truncate => exact hused.waits (congrArg Engine.pending (after_truncate engine))
    | reopen =>
      obtain ⟨engine', hrun, -, hpending⟩ := h.readable.reopen
      exact hused.waits ((congrArg Engine.pending (after_ok hrun)).trans hpending)
  | search text =>
    refine ⟨n, ?_⟩
    change (after (Engine.search text) engine).Waits setup n
    rcases after_search text engine with hafter | ⟨query, hafter⟩
    · rwa [hafter]
    · rw [hafter]
      exact h.searchQuery query text
  | searchQuery query phrase => exact ⟨n, h.searchQuery query phrase⟩

/-- All tasks do. -/
lemma perform (h : engine.Waits setup n) (tasks : List Task) :
    ∃ n', (perform setup engine tasks).Waits setup n' := by
  induction tasks generalizing engine n with
  | nil => exact ⟨n, h⟩
  | cons task tasks ih =>
    obtain ⟨n', hfirst⟩ := h.task task
    exact ih hfirst

end Waits

/-- **An engine at work.** What holds of an engine that starts with an empty directory and has
performed some tasks. -/
theorem exists_waits {scoring : Scoring} (hstart : (start (setup.store ∅) scoring).1 = .ok engine)
    (tasks : List Task) : ∃ n, (perform setup engine tasks).Waits setup n := by
  obtain ⟨hstands, hpending⟩ := stands_start hstart (P := Store.View.Readable)
    Store.View.readable_empty
  obtain ⟨n, hwaits⟩ := hstands.waits hpending
  exact hwaits.perform tasks

end Engine

end Concordance
