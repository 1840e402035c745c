import Concordance.Proofs.Engine.Tasks
import Concordance.Proofs.Engine.TypoLookup
import Concordance.Proofs.Search.Failures
import Concordance.Proofs.Store.Untouched

set_option relaxedAutoImplicit false
set_option autoImplicit false

/-!
# Searching

In a session over files that an engine has written every leaf of a query succeeds: terms,
beginnings of terms and similar terms can be looked up in all fields, and the documents that are
found can be read. So a search fails only if it has hits to flag and a fulltext field is not stored.
A session for reading has no typo states to save, so it leaves all files as they were.

## Main definitions

* `Concordance.Engine.HasHit` — a search has a hit of a document.
* `Concordance.Engine.Searches` — a search is a session over files that stay as they are.

## Main results

* `Concordance.Store.Runs.serves` — every leaf succeeds in a session.
* `Concordance.Engine.Stands.exists_searches` — how an engine searches.
* `Concordance.Engine.answered_of_tasks` — which searches fail.
-/

namespace Concordance

open Operation

namespace Store

variable {setup : Setup} {store : Store} {view : View} {mode : Mode}

/-! ## Leaves in a session -/

/-- The ids under a word in all fields that are looked up. -/
lemma Runs.byWord (h : store.Runs setup mode view) (filter : Option String) (word : String) :
    ∃ list, Search.byWord store filter word = .ok list ∧ ∀ id, id ∈ list.ids ↔
      ∃ name, setup.schema.LooksIn filter name ∧
        ∃ key, setup.IsKey word name key ∧ id ∈ (view.lists name key).ids := by
  obtain ⟨found, hfound, hfinds⟩ := h.byTerm word filter
  refine ⟨found.values.foldl PostingList.union .empty, ?_, fun id => ?_⟩
  · unfold Search.byWord
    rw [hfound]
    rfl
  · rw [PostingList.mem_foldl_union, hfinds.exists_mem_values_iff]
    simp [PostingList.empty]

section Leaves

variable (h : store.Runs setup mode view) (hread : view.Readable)

include h hread

/-- Documents can be read, present or not. -/
lemma Runs.exists_documents (ids : List DocId) :
    ∃ documents, store.documents ids = .ok documents :=
  documents_ok_iff.2 fun id _ => ⟨_, h.fetch hread id⟩

/-- Matches can be added to any hits. -/
lemma Runs.exists_attach (found : Matches) (value : String) (hits : ResultSet) :
    ∃ hits', Search.attach store found value hits = .ok hits' := by
  obtain ⟨documents, hdocuments⟩ := h.exists_documents hread (Search.fresh hits found)
  unfold Search.attach
  rw [hdocuments]
  exact ⟨_, rfl⟩

/-- Phrases can be looked for, whatever words they have. -/
lemma Runs.exists_phrase (field value : String) (hits : ResultSet) :
    ∃ hits', Search.phrase store field value hits = .ok hits' := by
  choose list hlist _ using h.byWord (Search.fieldOf field)
  obtain ⟨documents, hdocuments⟩ := h.exists_documents hread
    (Search.common ((Search.words store value).map list)).ids
  unfold Search.phrase
  rw [mapM_ok fun word _ => hlist word]
  simp only [bind, Except.bind, hdocuments]
  exact ⟨_, rfl⟩

/-- **Every leaf succeeds in a session**, for any text in any field.

**Proof sketch.** By the kind of the leaf. A term that is not found as it is written is looked for
among similar ones; a start looks for the beginning; a phrase is looked for word by word. What is
found can be read, so it is attached. -/
theorem Runs.serves (scoring : Scoring) (flagged : String) :
    Search.Serves ⟨store, scoring, flagged⟩ := by
  intro kind field value hits
  cases kind with
  | term =>
    obtain ⟨found, hfound, -⟩ := h.byTerm value (Search.fieldOf field)
    simp only [Search.leaf, Search.term, hfound, bind, Except.bind]
    split
    · obtain ⟨similar, hsimilar, -⟩ := h.byTypo value (Search.fieldOf field)
      rw [hsimilar]
      exact h.exists_attach hread similar value hits
    · exact h.exists_attach hread found value hits
  | start =>
    obtain ⟨found, hfound, -⟩ := h.byStart value (Search.fieldOf field)
    simp only [Search.leaf, Search.start, hfound, bind, Except.bind]
    exact h.exists_attach hread found value hits
  | phrase => exact h.exists_phrase hread field value hits

end Leaves

end Store

/-! ## Searches -/

namespace Engine

variable {setup : Store.Setup} {engine : Engine} {P : Store.View → Prop}

/-- A search for a query has a hit of a document. -/
def HasHit (engine : Engine) (phrase : String) (query : Query) (id : DocId) : Prop :=
  ∃ hits, Gives (searchQuery query phrase) engine hits ∧ id ∈ hits.map Hit.id

/-- How an engine searches: it opens its files, asks the query of them, and closes them as they
were. -/
structure Searches (engine : Engine) (setup : Store.Setup) (view : Store.View)
    (opened ended : Store) : Prop where
  runs : opened.Runs setup .read view
  session_eq : ended.session = none
  directory_eq : ended.directory = engine.store.directory
  searchQuery_eq : ∀ query phrase, searchQuery query phrase engine =
    match Search.run ⟨opened, engine.scoring, phrase⟩ query with
    | .ok set => .ok set.hits { engine with store := ended }
    | .error e => .error e { engine with store := ended }

/-- An engine whose files are there can search. -/
lemma Stands.exists_searches (h : engine.Stands setup .made none P) :
    ∃ view opened ended, P view ∧ engine.Searches setup view opened ended := by
  obtain ⟨view, hrests, hP⟩ := h.store.exists_rests
  obtain ⟨opened, hopen, hruns⟩ := hrests.exists_openIn .read
  have hcommit := Store.commit_eq_close (Store.isDirty_of_openIn hopen)
  have hdisk := Store.leaves_openIn .read engine.store hrests.complete
  rw [after_ok hopen] at hdisk
  refine ⟨view, opened, opened.close, hP, hruns, rfl,
    Store.directory_eq_of_onDisk_eq ((Store.onDisk_close opened).trans hdisk),
    fun query phrase => ?_⟩
  rw [Engine.searchQuery_eq]
  unfold Engine.onStore
  rw [hitsOf_eq hopen hcommit]
  cases Search.run ⟨opened, engine.scoring, phrase⟩ query <;> rfl

namespace Searches

variable {view : Store.View} {opened ended : Store} (h : engine.Searches setup view opened ended)

include h

/-- A search only takes up the files again. -/
lemma after_eq (query : Query) (phrase : String) :
    after (searchQuery query phrase) engine = { engine with store := ended } := by
  unfold after
  rw [h.searchQuery_eq]
  cases Search.run ⟨opened, engine.scoring, phrase⟩ query <;> rfl

/-- A search in the opened store that succeeds is what the engine answers with. -/
lemma gives {query : Query} {phrase : String} {set : ResultSet}
    (hrun : Search.run ⟨opened, engine.scoring, phrase⟩ query = .ok set) :
    Gives (searchQuery query phrase) engine set.hits :=
  ⟨{ engine with store := ended }, by rw [h.searchQuery_eq, hrun]⟩

/-- A search in the opened store that fails is how the engine fails, and the session is ended. -/
lemma fails {query : Query} {phrase : String} {e : Error}
    (hrun : Search.run ⟨opened, engine.scoring, phrase⟩ query = .error e) :
    searchQuery query phrase engine = .error e { engine with store := ended } := by
  rw [h.searchQuery_eq, hrun]

/-- What a search has hits of is what the query returns over the open files. -/
lemma hasHit_iff (phrase : String) (query : Query) (id : DocId) :
    engine.HasHit phrase query id ↔
      (⟨opened, engine.scoring, phrase⟩ : Search).Returns query id := by
  constructor
  · rintro ⟨hits, ⟨engine', hrun⟩, hid⟩
    cases hset : Search.run ⟨opened, engine.scoring, phrase⟩ query with
    | ok set =>
      rw [h.searchQuery_eq, hset] at hrun
      cases hrun
      exact ⟨set, hset, hid⟩
    | error e =>
      rw [h.searchQuery_eq, hset] at hrun
      cases hrun
  · rintro ⟨set, hset, hid⟩
    exact ⟨set.hits, h.gives hset, hid⟩

end Searches

/-- **Only a fulltext field that is not stored makes a search fail.** An engine starts with an empty
directory and performs some tasks. If all fulltext fields are stored, a search for any query and
phrase succeeds. If some fulltext field is not stored, a search for a group whose parts contain no
group fails iff some document is left at the end of the group, with an error about the schema, and
succeeds otherwise. In any case the files are as before, and no session is open.

**Proof sketch.** A search is a session for reading, in which every leaf succeeds. So it fails only
where hits are flagged. Whether a document is left at the end of a group follows from what the parts
return alone, and what they return alone in the session is what a search for them has hits of. -/
theorem answered_of_tasks (setup : Store.Setup) (scoring : Scoring)
    (hstart : (start (setup.store ∅) scoring).1 = .ok engine) (tasks : List Task)
    (query : Query) (phrase : String) :
    let engine₀ := perform setup engine tasks
    ((∀ field ∈ setup.schema.fields, field.flags.fulltext = true → field.flags.stored = true) →
      ∃ hits, Gives (searchQuery query phrase) engine₀ hits) ∧
    (∀ field ∈ setup.schema.fields, field.flags.fulltext = true → field.flags.stored = false →
      ∀ joint parts boost, query = .group joint parts boost → (∀ part ∈ parts, part.IsGroupless) →
        ((∃ e engine', searchQuery query phrase engine₀ = .error e engine' ∧ e.kind = .logic) ↔
          ∃ id, Query.Survives (engine₀.HasHit phrase) joint parts id) ∧
        ((¬ ∃ id, Query.Survives (engine₀.HasHit phrase) joint parts id) →
          ∃ hits, Gives (searchQuery query phrase) engine₀ hits)) ∧
    (after (searchQuery query phrase) engine₀).store.directory = engine₀.store.directory ∧
    (after (searchQuery query phrase) engine₀).store.session = none := by
  intro engine₀
  obtain ⟨n, hwaits⟩ := exists_waits hstart tasks
  obtain ⟨view, opened, ended, ⟨hread, -⟩, hsearches⟩ := hwaits.stands.exists_searches
  change engine₀.Searches setup view opened ended at hsearches
  have hserves := hsearches.runs.serves hread engine₀.scoring phrase
  have hunstored : Search.unstored? opened.schema = none ↔
      ∀ field ∈ setup.schema.fields, field.flags.fulltext = true → field.flags.stored = true := by
    obtain ⟨saved, hfiles, -, -⟩ := hsearches.runs.files
    rw [hfiles.schema_eq, Search.unstored?_eq_none_iff]
  rw [hsearches.after_eq]
  refine ⟨fun hstored => ?_, ?_, hsearches.directory_eq, hsearches.session_eq⟩
  · obtain ⟨set, hset⟩ := Search.succeeds hserves (hunstored.2 hstored) query .empty
    exact ⟨set.hits, hsearches.gives hset⟩
  · rintro field hfield hfulltext hkept joint parts boost rfl hparts
    obtain ⟨missing, hmissing⟩ : ∃ missing, Search.unstored? opened.schema = some missing := by
      refine Option.ne_none_iff_exists'.1 fun hnone => ?_
      rw [hunstored.1 hnone field hfield hfulltext] at hkept
      cases hkept
    have hfinds : engine₀.HasHit phrase =
        (⟨opened, engine₀.scoring, phrase⟩ : Search).Returns :=
      funext₂ fun part id => propext (hsearches.hasHit_iff phrase part id)
    rw [hfinds]
    rcases @Search.run_group_cases ⟨opened, engine₀.scoring, phrase⟩ parts joint hserves hparts
      missing hmissing boost with ⟨hsurvives, herror⟩ | ⟨hno, set, hset⟩
    · have hfails := hsearches.fails herror
      exact ⟨iff_of_true ⟨.unstoredFulltext missing.name, _, hfails, rfl⟩ hsurvives,
        fun hno => absurd hsurvives hno⟩
    · have ⟨answered, hrun⟩ := hsearches.gives hset
      refine ⟨iff_of_false ?_ hno, fun _ => ⟨set.hits, answered, hrun⟩⟩
      rintro ⟨e, engine', hfails, -⟩
      cases hrun.symm.trans hfails

/-- Letters have a subject, and a text that takes part in phrase matches but is not stored. -/
def letterSetup : Store.Setup where
  schema := { name := "letters", fields := [⟨"subject", { stored := true, indexed := true }⟩,
    ⟨"text", { indexed := true, fulltext := true }⟩] }
  config := {}
  analyzer := .standard
  built := @Schema.Built.addField _ _ "text" { indexed := true, fulltext := true }
    (@Schema.Built.addField _ _ "subject" { stored := true, indexed := true }
      (.start "letters" "standard") rfl) rfl

/-- A letter is stored. -/
def letterTasks : List Task :=
  [.use (.add (.ofList [("subject", .text "food"), ("text", .text "More fish.")])), .use .flush]

/-- Letters about food. -/
def foodQuery : List Query := [.leaf .term "subject" "food" none, .nothing ""]

/-- Hits that are computed. -/
lemma hasHit_of_answer? {query : Query} {phrase : String} {id : DocId}
    (h : (answer? (searchQuery query phrase) engine).any fun hits => id ∈ hits.map Hit.id) :
    engine.HasHit phrase query id := by
  cases hanswer : answer? (searchQuery query phrase) engine with
  | none => simp [hanswer] at h
  | some hits => exact ⟨hits, gives_of_answer? hanswer, by simpa [hanswer] using h⟩

/-- A search for letters about food fails, since there is one. -/
theorem answered_of_tasks_letters : ∃ engine, (start (letterSetup.store ∅) {}).1 = .ok engine ∧
    ∃ e engine', searchQuery (.group .any foodQuery none) "food"
        (perform letterSetup engine letterTasks) = .error e engine' ∧ e.kind = .logic ∧
      engine'.store.directory = (perform letterSetup engine letterTasks).store.directory ∧
      engine'.store.session = none := by
  refine ⟨_, rfl, ?_⟩
  obtain ⟨-, hgroup, hdirectory, hsession⟩ := @answered_of_tasks _ letterSetup {} rfl letterTasks
    (.group .any foodQuery none) "food"
  have hgroupless : ∀ part ∈ foodQuery, part.IsGroupless :=
    List.forall_mem_cons.2 ⟨.leaf .., List.forall_mem_singleton.2 (.nothing _)⟩
  obtain ⟨hiff, -⟩ := hgroup ⟨"text", { indexed := true, fulltext := true }⟩ (by decide) rfl rfl
    .any foodQuery none rfl hgroupless
  obtain ⟨e, engine', hrun, hkind⟩ := hiff.2 ⟨⟨"1"⟩,
    ⟨"food", _, List.mem_cons_self, rfl, hasHit_of_answer? (by decide +kernel)⟩,
    fun part boost hpart => by simp [foodQuery] at hpart, nofun⟩
  rw [after_error hrun] at hdirectory hsession
  exact ⟨e, engine', hrun, hkind, hdirectory, hsession⟩

end Engine

end Concordance
