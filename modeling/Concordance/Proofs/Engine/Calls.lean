import Concordance.Proofs.Engine.Tasks
import Concordance.Proofs.Store.Closing

set_option relaxedAutoImplicit false
set_option autoImplicit false

/-!
# Calls leave no session open

Every call of an engine, apart from one that opens a session, closes the session that it works in,
whatever the files hold and whether it succeeds or not. There is one exception: typo states that are
added are stored at the very end of a session, and if that fails, the session stays open.

## Main definitions

* `Concordance.Engine.Call` — the calls of an engine that do not open a session.
* `Concordance.Engine.Call.Storable` — what a call leaves to be stored can be stored.

## Main results

* `Concordance.Store.session_writeAll` — a batch of documents is written in a session of its own.
* `Concordance.Engine.free_of_call` — a call leaves no session open if it succeeds or if what it
  leaves to be stored can be stored.
-/

namespace Concordance

open Operation

/-- Nothing is added to a set by removing something from it. -/
lemma StateSet.isEmpty_added_remove {set : StateSet} (h : set.added.isEmpty = true) (state : Nat) :
    (set.remove state).added.isEmpty = true := by
  have hnot : (set.leave state).added.contains state = false :=
    OrderedMap.contains_of_isEmpty h state
  unfold StateSet.remove
  split
  · simp only [hnot, Bool.false_eq_true, if_false]
    exact h
  · exact h

namespace RecordFile

/-- A file of typo states, once it can be opened and read, takes any states: its lines are even, and
it is not to be made of lines without any width. -/
def TakesStates (file : RecordFile TypoState) : Prop :=
  0 < file.minWidth ∧ Bytes.Even (file.contents.getD [])

end RecordFile

namespace Store

variable {store opened : Store} {mode : Mode}

/-! ## Operations in sessions of their own -/

/-- A session that was opened is open in the mode that was asked for. -/
lemma session_of_openIn (h : openIn mode store = .ok () opened) : opened.session = some mode := by
  by_cases hsession : store.session = none
  · rcases openIn_cases hsession mode with ⟨started, hrun, hstarted⟩ | ⟨e, failed, hrun, -⟩
    · cases hrun.symm.trans h
      exact hstarted
    · cases hrun.symm.trans h
  · have hopen : store.isOpen = true := Option.isSome_iff_ne_none.2 hsession
    rw [openIn_eq, get_bind] at h
    simp only [hopen, if_true] at h
    cases h

/-- A session for writing is open, with a given file of typo states. -/
def WritesOver (file : RecordFile TypoState) (store : Store) : Prop :=
  store.session = some .readWrite ∧ store.stateFile = file

/-- A session that has just been started is one for writing, over the file of typo states that it
opened. -/
lemma JustOpened.writesOver (h : store.JustOpened opened) :
    opened.WritesOver opened.stateFile := ⟨h.session_eq, rfl⟩

/-- If the file has not changed since the session was started, it takes all states that there
are. -/
lemma JustOpened.settles (h : store.JustOpened opened) (htakes : store.stateFile.TakesStates)
    {done : Store} (hdone : done.WritesOver opened.stateFile) : done.Settles := by
  obtain ⟨records, hrecords⟩ := h.scanStates
  exact fun _ _ => .inr (hdone.2 ▸
    RecordFile.admits_of_even htakes.1 htakes.2 h.openStates hrecords _)

/-- In a session that has just been started no typo state is noted as added. -/
lemma JustOpened.isEmpty_added (h : store.JustOpened opened) :
    opened.states.added.isEmpty = true := by
  have hclean := h.clean
  unfold StateSet.isDirty at hclean
  simp only [Bool.or_eq_false_iff, Bool.not_eq_false'] at hclean
  exact hclean.1

section Preserves

variable {P : Store → Prop} {file : RecordFile TypoState}

/-- What every change of one list keeps is kept when the lists of all terms of a document are
changed. -/
lemma preserves_forTerms {change : Field → String → Op Unit} (fields : Fields)
    (hchange : ∀ field term, Preserves P (change field term)) :
    Preserves P (get >>= fun store : Store =>
      (store.indexTerms fields).forM fun (field, term) => change field term) :=
  preserves_get_bind fun _ _ => Preserves.forM (fun (field, term) => hchange field term) _

/-- Storing a document does not touch the file of typo states. -/
lemma preserves_saveDocument (id : DocId) (fields : Fields) :
    Preserves (WritesOver file) (saveDocument id fields) :=
  preserves_get_bind fun _ _ => (preserves_look _).bind fun _ =>
    preserves_within (fun _ h => h.1) (preserves_onDocs fun _ _ h => h)

/-- Putting an id under its terms does not touch the file of typo states: their changes are noted in
memory. -/
lemma preserves_saveIndexes (id : DocId) (fields : Fields) :
    Preserves (WritesOver file) (saveIndexes id fields) :=
  preserves_within (fun _ h => h.1)
    (preserves_forTerms fields fun field term =>
      preserves_addPosting id field term (fun _ _ h => h) fun _ _ h => h)

/-- Nor does taking an id from under its terms. -/
lemma preserves_removeFromIndexes (document : Document) :
    Preserves (WritesOver file) (removeFromIndexes document) :=
  preserves_within (fun _ h => h.1)
    (preserves_forTerms document.fields fun field term =>
      preserves_removePosting document.id field term (fun _ _ h => h) fun _ _ h => h)

/-- Replacing a document does not touch the file of typo states, whether it was there before or not.
-/
lemma preserves_replaceFields (id : DocId) (previous : Option Fields) (fields : Fields) :
    Preserves (WritesOver file) (Engine.replaceFields id previous fields) := by
  have hwrite : Preserves (WritesOver file)
      (saveDocument id fields >>= fun _ => saveIndexes id fields) :=
    (preserves_saveDocument id fields).bind fun _ => preserves_saveIndexes id fields
  unfold Engine.replaceFields
  cases previous with
  | none => exact (preserves_pure ()).bind fun _ => hwrite
  | some previous => exact (preserves_removeFromIndexes _).bind fun _ => hwrite

/-- A batch of documents leaves the file of typo states alone.

**Proof sketch.** Induction on the batch. For each document an id is looked for, and the document
under it is replaced. -/
lemma preserves_writeBatch (batch : List Pending) (written : OrderedMap String Fields) :
    Preserves (WritesOver file) (Engine.writeBatch written batch) := by
  have hprevious : ∀ written id, Preserves (WritesOver file) (Engine.previous written id) := by
    intro written id
    unfold Engine.previous
    cases written.get? id.text with
    | none => exact preserves_look _
    | some fields => exact preserves_pure _
  induction batch generalizing written with
  | nil => exact preserves_pure []
  | cons waiting batch ih =>
    refine (preserves_look _).bind fun id => Preserves.bind ?_ fun _ =>
      (ih _).bind fun ids => preserves_pure _
    rw [Engine.replace_eq]
    exact (hprevious written id).bind fun previous => preserves_replaceFields id previous _

end Preserves

/-! ## What is left open -/

section Sessions

/-- Something asked in a session of its own leaves none open. -/
lemma session_ask {α : Type} (h : store.session = none) (question : Store → Except Error α) :
    (after (within .read (Op.look question)) store).session = none :=
  session_within h fun opened hopen =>
    preserves_look (P := Settles) question opened (settles_of_read (session_of_openIn hopen))

/-- What leaves the typo states of the session as they are leaves nothing to be stored. -/
lemma session_within_clean {α : Type} {op : Op α} (h : store.session = none)
    (hop : Preserves (fun store : Store => store.states.isDirty = false) op) :
    (after (within .readWrite op) store).session = none :=
  session_within h fun opened hopen =>
    settles_of_clean (hop opened (justOpened_of_openIn hopen).clean)

/-- A document that is stored outside a session leaves none open: no typo state changes on the way.
-/
lemma session_saveDocument (h : store.session = none) (id : DocId) (fields : Fields) :
    (after (saveDocument id fields) store).session = none := by
  cases hcheck : store.schema.validate fields with
  | error e =>
    have hrun : saveDocument id fields store = .error e store := bind_error (look_error hcheck) _
    rwa [after_error hrun]
  | ok _ =>
    have hrun : saveDocument id fields store = within .readWrite
        (Op.onDocs (RecordFile.upsert ⟨id.text, store.schema.stored fields⟩ .replace)) store :=
      bind_ok (look_ok hcheck) _
    unfold after
    rw [hrun]
    exact session_within_clean h (preserves_onDocs fun _ _ h => h)

/-- Typo states that are stored outside a session leave none open, since the set in memory is not
touched. -/
lemma session_saveStates (h : store.session = none) (added removed : List Nat) :
    (after (saveStates added removed) store).session = none := by
  have honStates : ∀ {α : Type} (op : RecordFile.Op TypoState α),
      Preserves (fun store : Store => store.states.isDirty = false) (Op.onStates op) :=
    fun op => preserves_onStates fun _ _ h => h
  exact session_within_clean h ((Preserves.forM (fun _ => honStates _) _).bind fun _ =>
    Preserves.forM (fun _ => (honStates _).bind fun _ => preserves_pure _) _)

/-- Terms are put into the index, and no session is left open if the typo states can be stored. -/
lemma session_saveIndexes (h : store.session = none) (id : DocId) (fields : Fields)
    (htakes : store.stateFile.TakesStates) :
    (after (saveIndexes id fields) store).session = none := by
  refine session_within h fun opened hopen => ?_
  have hopened := justOpened_of_openIn hopen
  exact hopened.settles htakes (preserves_forTerms fields (fun field term =>
    preserves_addPosting id field term (fun _ _ h => h) fun _ _ h => h) _ hopened.writesOver)

/-- When terms are taken out of the index, typo states are at most removed. -/
lemma session_removeFromIndexes (h : store.session = none) (document : Document) :
    (after (removeFromIndexes document) store).session = none := by
  refine session_within h fun opened hopen => ?_
  have hopened := justOpened_of_openIn hopen
  have hkeeps := preserves_forTerms
    (P := fun store => store.stateFile.Writable ∧ store.states.added.isEmpty = true)
    document.fields fun field term => preserves_removePosting document.id field term
      (fun _ _ h => h) fun _ state h => ⟨h.1, StateSet.isEmpty_added_remove h.2 state⟩
  exact fun _ _ => .inl (hkeeps opened ⟨hopened.writable.states, hopened.isEmpty_added⟩)

/-- All files of a session for writing can be emptied.

**Proof sketch.** The file of documents, that of the typo states and those of all fields are emptied
one after the other, each of which succeeds in a file that is open for writing. -/
lemma ensures_emptyFiles :
    Ensures AllWritable emptyFiles fun _ store => store.states.isDirty = false := by
  have hdocs : Ensures AllWritable (Op.onDocs RecordFile.truncate) fun _ => AllWritable := by
    intro store hstore
    obtain ⟨_, docs, hrun, hwritable⟩ := RecordFile.ensures_truncate store.docs hstore.docs
    exact ⟨(), { store with docs }, by simp [Op.onDocs, hrun],
      hwritable, hstore.states, hstore.indexes⟩
  have hstates : Ensures AllWritable (Op.onStates RecordFile.truncate) fun _ => AllWritable := by
    intro store hstore
    obtain ⟨_, stateFile, hrun, hwritable⟩ :=
      RecordFile.ensures_truncate store.stateFile hstore.states
    exact ⟨(), { store with stateFile }, by simp [Op.onStates, hrun],
      hstore.docs, hwritable, hstore.indexes⟩
  exact hdocs.bind fun _ => hstates.bind fun _ =>
    (ensures_onIndexes RecordFile.ensures_truncate).bind fun _ store _ =>
      ⟨(), _, rfl, (StateSet.tracks_load store.states []).isDirty_eq_false⟩

/-- Emptying a store outside a session leaves none open. -/
lemma session_truncate (h : store.session = none) : (after truncate store).session = none := by
  rw [truncate_eq]
  rcases ensureOpen_cases h .readWrite with
    ⟨opened, hopen, hensure⟩ | ⟨e, failed, hensure, hfailed⟩
  · obtain ⟨_, emptied, hempty, hclean⟩ :=
      ensures_emptyFiles opened (justOpened_of_openIn hopen).writable
    obtain ⟨ended, hcommit, hended⟩ := (settles_of_clean hclean).commit
    rwa [after_ok ((bind_ok hensure _).trans ((bind_ok hempty _).trans hcommit))]
  · rwa [after_error (bind_error hensure _)]

/-- An operation between the start and the end of a session leaves none open if what it leaves to be
stored can be stored.

**Proof sketch.** Either the session is started and ended whatever the operation came to, or it is
not started, and then there is none. -/
lemma session_between {α β : Type} {op : Op α}
    {finish : Except Error α → Except Error Unit → Op β} (h : store.session = none)
    (hop : ∀ opened, openIn mode store = .ok () opened → (after op opened).Settles)
    (hfinish : ∀ result ended store, after (finish result ended) store = store) :
    (after (do
      openIn mode
      let result ← Op.attempt op
      let ended ← Op.attempt commit
      finish result ended) store).session = none := by
  rcases openIn_cases h mode with ⟨opened, hopen, -⟩ | ⟨e, failed, hopen, hfailed, -⟩
  · obtain ⟨result, hresult⟩ := after_attempt op opened
    obtain ⟨ended, hcommit, hended⟩ := (hop opened hopen).commit
    have hsame := hfinish result (.ok ()) ended
    unfold after at hsame ⊢
    rw [bind_ok hopen, bind_ok hresult, bind_ok (attempt_ok hcommit), hsame]
    exact hended
  · rwa [after_error (bind_error hopen _)]

/-- A query is answered in a session of its own. -/
lemma session_hitsOf (h : store.session = none) (scoring : Scoring) (query : Query)
    (phrase : String) : (after (Engine.hitsOf scoring query phrase) store).session = none := by
  refine session_between h (fun opened hopen => ?_) fun result ended store => ?_
  · exact preserves_look (P := Settles) _ opened (settles_of_read (session_of_openIn hopen))
  · cases result <;> cases ended <;> rfl

/-- **A batch of documents is written in a session of its own**, which is ended if the typo states
can be stored. -/
lemma session_writeAll (h : store.session = none) (batch : List Pending)
    (htakes : store.stateFile.TakesStates) :
    (after (Engine.writeAll batch) store).session = none := by
  unfold Engine.writeAll
  cases hvalid : Engine.validateAll store.schema batch with
  | error e => rwa [after_error (bind_error (look_error hvalid) _)]
  | ok _ =>
    unfold after
    rw [bind_ok (look_ok hvalid)]
    refine session_between h (fun opened hopen => ?_) fun result ended store => ?_
    · have hopened := justOpened_of_openIn hopen
      exact hopened.settles htakes (preserves_writeBatch batch ∅ _ hopened.writesOver)
    · cases result <;> cases ended <;> rfl

/-- A batch that is written leaves no session open. -/
lemma session_of_writeAll {batch : List Pending} {ids : List DocId} {store' : Store}
    (hrun : Engine.writeAll batch store = .ok ids store') : store'.session = none := by
  obtain ⟨_, _, -, hrest⟩ := exists_of_bind_ok hrun
  obtain ⟨_, _, -, hrest⟩ := exists_of_bind_ok hrest
  obtain ⟨result, done, -, hrest⟩ := exists_of_bind_ok hrest
  obtain ⟨ended, closed, hended, hanswer⟩ := exists_of_bind_ok hrest
  cases result with
  | error e => cases hanswer
  | ok ids =>
    cases ended with
    | error e => cases hanswer
    | ok _ =>
      cases hanswer
      exact session_of_commit (ok_of_attempt hended)

end Sessions

end Store

namespace Engine

/-! ## Calls -/

/-- The calls of an engine, those apart that open a session. -/
inductive Call
  | flush
  | search (text : String)
  | searchQuery (query : Query) (phrase : String)
  | commit
  | saveDocument (id : DocId) (fields : Fields)
  | saveIndexes (id : DocId) (fields : Fields)
  | removeFromIndexes (document : Document)
  | saveStates (added removed : List Nat)
  | truncate
  | load (id : DocId)
  | documents (ids : List DocId)
  | byTerm (term : String) (field : Option String)
  | byStart (start : String) (field : Option String)
  | byTypo (term : String) (field : Option String)
  | postings (field term : String)
  | states
  | count

/-- An operation whose answer does not matter. -/
def silently {α : Type} (op : Op α) : Op Unit := do
  let _ ← op

/-- An operation whose answer does not matter changes what the operation changes. -/
lemma after_silently {α : Type} (op : Op α) (engine : Engine) :
    after (silently op) engine = after op engine := by
  cases hrun : op engine with
  | ok a engine' =>
    have hdone : silently op engine = .ok () engine' := bind_ok hrun fun _ => pure ()
    rw [after_ok hdone, after_ok hrun]
  | error e engine' =>
    have hdone : silently op engine = .error e engine' := bind_error hrun fun _ => pure ()
    rw [after_error hdone, after_error hrun]

namespace Call

/-- What a call does. -/
def op : Call → Op Unit
  | flush => silently Engine.flush
  | search text => silently (Engine.search text)
  | searchQuery query phrase => silently (Engine.searchQuery query phrase)
  | commit => onStore Store.commit
  | saveDocument id fields => onStore (Store.saveDocument id fields)
  | saveIndexes id fields => onStore (Store.saveIndexes id fields)
  | removeFromIndexes document => onStore (Store.removeFromIndexes document)
  | saveStates added removed => onStore (Store.saveStates added removed)
  | truncate => onStore Store.truncate
  | load id => silently (Engine.load id)
  | documents ids => silently (ask fun store => store.documents ids)
  | byTerm term field => silently (ask fun store => store.byTerm term field)
  | byStart start field => silently (ask fun store => store.byStart start field)
  | byTypo term field => silently (ask fun store => store.byTypo term field)
  | postings field term => silently (ask fun store => store.postings field term)
  | states => silently (ask fun store => store.stateFile.scanAll)
  | count => silently Engine.count

/-- What a call leaves to be stored at the end of its session can be stored. Only calls that may add
typo states ask anything of the files. -/
def Storable (store : Store) : Call → Prop
  | commit => store.Settles
  | flush | saveIndexes _ _ => store.stateFile.TakesStates
  | _ => True

end Call

variable {engine : Engine}

/-- An operation of the store leaves the engine with the session that it leaves the store with. -/
lemma session_onStore {α : Type} {op : Store.Op α}
    (h : (after op engine.store).session = none) :
    (after (onStore op) engine).store.session = none := by
  rwa [after_onStore]

/-- Something asked of the store leaves no session open. -/
lemma session_silently_ask {α : Type} (h : engine.store.session = none)
    (question : Store → Except Error α) :
    (after (silently (ask question)) engine).store.session = none := by
  rw [after_silently]
  exact session_onStore (Store.session_ask h question)

/-- A query to an engine without a session leaves none open. -/
lemma session_searchQuery (h : engine.store.session = none) (query : Query) (phrase : String) :
    (after (searchQuery query phrase) engine).store.session = none := by
  rw [after_searchQuery]
  exact Store.session_hitsOf h engine.scoring query phrase

/-- An operation that succeeds, whatever its answer. -/
lemma exists_of_silently {α : Type} {op : Op α} (h : Gives (silently op) engine ()) :
    ∃ a engine', op engine = .ok a engine' := by
  obtain ⟨engine', hrun⟩ := h
  obtain ⟨a, engine', hop, -⟩ := exists_of_bind_ok hrun
  exact ⟨a, engine', hop⟩

/-- A flush leaves no session open if it succeeds or if the typo states can be stored. -/
lemma session_flush (hsession : engine.store.session = none)
    (h : Gives (silently flush) engine () ∨ engine.store.stateFile.TakesStates) :
    (after flush engine).store.session = none := by
  rcases flush_eq engine with ⟨hrun, -⟩ | heq
  · rwa [after_ok hrun]
  · rcases h with hgives | htakes
    · obtain ⟨ids, engine', hrun⟩ := exists_of_silently hgives
      obtain ⟨store', hwrite, rfl⟩ := exists_of_onStore (heq.symm.trans hrun)
      rw [after_ok hrun]
      exact Store.session_of_writeAll hwrite
    · have hwrite := Store.session_writeAll hsession engine.pending htakes
      unfold after
      rw [heq]
      exact session_onStore hwrite

/-- **A call leaves no session open** if it succeeds or if what it leaves to be stored can be
stored, and so no later session is refused because of it.

**Proof sketch.** By the kinds of calls. A commit succeeds or can succeed, and leaves no session.
The other calls start a session of their own where there is none: one that looks or changes no typo
state has nothing to be stored when it ends, and one that does can store the states. -/
theorem free_of_call {call : Call} (hsession : engine.store.session = none ∨ call = .commit)
    (h : Gives call.op engine () ∨ call.Storable engine.store) :
    (after call.op engine).store.Free := by
  rw [Store.free_iff]
  by_cases hcommit : call = .commit
  · subst hcommit
    rcases h with ⟨engine', hrun⟩ | hsettles
    · obtain ⟨store', hended, rfl⟩ := exists_of_onStore hrun
      rw [after_ok hrun]
      exact Store.session_of_commit hended
    · obtain ⟨store', hended, hclosed⟩ := Store.Settles.commit hsettles
      refine session_onStore ?_
      rwa [after_ok hended]
  have hnone : engine.store.session = none := hsession.resolve_right hcommit
  cases call with
  | commit => exact absurd rfl hcommit
  | flush => exact (after_silently _ _).symm ▸ session_flush hnone h
  | search text =>
    rw [Call.op, after_silently]
    rcases after_search text engine with hsame | ⟨query, hquery⟩
    · rwa [hsame]
    · rw [hquery]
      exact session_searchQuery hnone query text
  | searchQuery query phrase =>
    rw [Call.op, after_silently]
    exact session_searchQuery hnone query phrase
  | saveDocument id fields => exact session_onStore (Store.session_saveDocument hnone id fields)
  | saveIndexes id fields =>
    rcases h with ⟨engine', hrun⟩ | htakes
    · obtain ⟨store', hsave, rfl⟩ := exists_of_onStore hrun
      rw [after_ok hrun]
      exact Store.session_of_within hnone hsave
    · exact session_onStore (Store.session_saveIndexes hnone id fields htakes)
  | removeFromIndexes document =>
    exact session_onStore (Store.session_removeFromIndexes hnone document)
  | saveStates added removed =>
    exact session_onStore (Store.session_saveStates hnone added removed)
  | truncate => exact session_onStore (Store.session_truncate hnone)
  | load _ | documents _ | byTerm _ _ | byStart _ _ | byTypo _ _ | postings _ _ | states | count =>
    exact session_silently_ask hnone _

/-- One note with the title "b" waits over a directory with a given file in it. -/
def noteOver (name content : String) : Engine :=
  after
    (do
      onStore Store.createFiles
      let _ ← add (.ofList [("title", .text "b")]))
    { store := .withAnalyzer
        { name := "notes", fields := [⟨"title", { stored := true, indexed := true }⟩] } {} .standard
        (.ofList [(name, Bytes.ofText content.toList)]) }

/-- A note that cannot be put under its term, because the line of the term cannot be read. -/
def unreadableTerm : Engine :=
  noteOver "notes_title_index.json" "\x7b\"k\":\"b\",\"ids\":1\x7d\n"

/-- The note cannot be written, but the session is closed. -/
theorem free_of_call_unreadableTerm :
    unreadableTerm.store.session = none ∧ Call.flush.Storable unreadableTerm.store ∧
      ¬ Gives Call.flush.op unreadableTerm () ∧
      (after Call.flush.op unreadableTerm).store.Free := by
  have hsession : unreadableTerm.store.session = none := by decide +kernel
  have hstorable : Call.flush.Storable unreadableTerm.store :=
    ⟨by decide +kernel, 0, [], by simp, by decide +kernel⟩
  exact ⟨hsession, hstorable, by decide +kernel, free_of_call (.inl hsession) (.inr hstorable)⟩

/-- A note over typo states whose lines are not even: what stands where a line should start looks
like the record of the state of its term. -/
def unevenStates : Engine :=
  noteOver "notes_states.json"
    "\x7b\"s\":1\x7d    \n\x7b\"s\":2,\"x\":[\x7b\"s\":3\x7d]\x7d  \n"

/-- The note is written, but its typo state cannot be stored, and the session stays open. -/
theorem not_free_of_unevenStates :
    unevenStates.store.session = none ∧ ¬ (after Call.flush.op unevenStates).store.Free :=
  ⟨by decide +kernel, fun hfree => absurd hfree.1 (by decide +kernel)⟩

end Engine

end Concordance
