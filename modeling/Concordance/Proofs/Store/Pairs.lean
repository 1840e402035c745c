import Concordance.Proofs.Engine.Flushing
import Concordance.Proofs.Store.Closing

set_option relaxedAutoImplicit false
set_option autoImplicit false

/-!
# Two stores that stand for one view

The settings of typo-tolerant look-up decide which typo states the postings of a store have, but
neither which documents are stored nor which ids are listed under a term. So two stores that differ
only in these settings stand for one view, and go on to do so whatever is done to both.

## Main definitions

* `Concordance.Store.Setup.withTypo` — a setup with other settings of typo-tolerant look-up.
* `Concordance.Store.Alike` — two stores have the same documents and ids.
* `Concordance.Store.Paired` — two stores in sessions for writing stand for one view.
* `Concordance.Store.Twins` — two stores stand for one view, in sessions or without.

## Main results

* `Concordance.Store.Alike.resolve_eq` — documents get the same ids in both.
* `Concordance.Store.parallel_writeBatch` — a batch is written to both alike.
* `Concordance.Store.Twins.within`, `writeAll`, `look` — operations in sessions of their own unless
  some are open.
-/

namespace Concordance.Store

open Operation

/-- A setup with other settings of typo-tolerant look-up. -/
def Setup.withTypo (setup : Setup) (typo : TypoConfig) : Setup :=
  { setup with config := { setup.config with typo } }

/-! ## Questions about documents and ids -/

/-- Two stores have the same documents and ids. -/
structure Alike (first second : Store) : Prop where
  schema_eq : first.schema = second.schema
  analyzer_eq : first.analyzer = second.analyzer
  total_eq : first.docs.total = second.docs.total
  fetch_eq : ∀ id, first.fetch id = second.fetch id
  postings_eq : ∀ name term, first.postings name term = second.postings name term

namespace Alike

variable {first second : Store}

/-- Unique values are looked up alike in stores with the same documents and ids. -/
lemma matchIn_eq (h : Alike first second) (values : Fields) (fields : List Field) :
    Engine.matchIn first values fields = Engine.matchIn second values fields := by
  have hsharing : ∀ name value,
      Engine.sharing first name value = Engine.sharing second name value := by
    intro name value
    unfold Engine.sharing
    simp only [h.analyzer_eq, h.postings_eq]
  induction fields with
  | nil => rfl
  | cons field fields ih =>
    unfold Engine.matchIn
    simp only [ih, hsharing]

/-- The first free id is the same in stores with the same documents. -/
lemma freeFrom_eq (h : Alike first second) (fuel : Nat) (id : DocId) :
    Engine.freeFrom first fuel id = Engine.freeFrom second fuel id := by
  induction fuel generalizing id with
  | zero => rfl
  | succ fuel ih =>
    unfold Engine.freeFrom
    simp only [ih, h.fetch_eq]

/-- Documents get the same ids in both. -/
theorem resolve_eq (h : Alike first second) (waiting : Pending) :
    Engine.resolve first waiting = Engine.resolve second waiting := by
  unfold Engine.resolve Engine.uniqueMatch Engine.freeId
  simp only [h.schema_eq, h.matchIn_eq, h.total_eq, h.freeFrom_eq]

end Alike

variable {setup : Setup} {first second : Store} {mode mode' : Mode} {view : View}

/-- What is fetched in a session depends on the stored documents alone. -/
lemma Runs.fetch_eq (h : first.Runs setup mode view) (id : DocId) : first.fetch id =
    ((view.docs.get? (.text id.text)).mapM fun document =>
      RecordFile.decodeLine (Record.line document)) >>= fun found =>
        pure (found.map StoredDocument.fields) := by
  obtain ⟨saved, hfiles, -, -⟩ := h.files
  unfold Store.fetch
  rw [hfiles.docs.1.get?]

/-- In sessions that stand for one view two stores have the same documents and ids.

**Proof sketch.** Both have the documents of the view. In an indexed field both find the list of the
view, and in any other field neither finds an id. -/
theorem Runs.alike {typo typo' : TypoConfig} (h : first.Runs (setup.withTypo typo) mode view)
    (h' : second.Runs (setup.withTypo typo') mode' view) : Alike first second := by
  obtain ⟨saved, hfiles, -, -⟩ := h.files
  obtain ⟨saved', hfiles', -, -⟩ := h'.files
  refine ⟨hfiles.schema_eq.trans hfiles'.schema_eq.symm,
    hfiles.analyzer_eq.trans hfiles'.analyzer_eq.symm,
    hfiles.docs.1.total.trans hfiles'.docs.1.total.symm,
    fun id => (h.fetch_eq id).trans (h'.fetch_eq id).symm, fun name term => ?_⟩
  obtain ⟨list, hrun, -, hlist⟩ := h.postings name term
  obtain ⟨list', hrun', -, hlist'⟩ := h'.postings name term
  rw [hrun, hrun']
  by_cases hindexed : ∃ field ∈ setup.schema.indexedFields, field.name = name
  · obtain ⟨field, hfield, hname⟩ := hindexed
    rw [hlist field hfield hname, hlist' field hfield hname]
  · -- a field without an index has no ids in either
    have hnone : first.indexes.get? name = none := by
      rw [← Option.not_isSome_iff_eq_none, hfiles.isSome_iff]
      exact hindexed
    have hnone' : second.indexes.get? name = none := by
      rw [← Option.not_isSome_iff_eq_none, hfiles'.isSome_iff]
      exact hindexed
    unfold Store.postings at hrun hrun'
    rw [hnone] at hrun
    rw [hnone'] at hrun'
    exact hrun.symm.trans hrun'

/-! ## Operations in sessions -/

/-- Two stores in sessions for writing stand for one view. -/
def Paired (setup : Setup) (typo typo' : TypoConfig) (first second : Store) : Prop :=
  ∃ view, first.Runs (setup.withTypo typo) .readWrite view ∧
    second.Runs (setup.withTypo typo') .readWrite view

section Paired

variable {α : Type} {typo typo' : TypoConfig}

/-- A question that has one answer in stores that are alike. -/
lemma parallel_look {f : Store → Except Error α}
    (h : ∀ {first second : Store}, Alike first second → f first = f second) :
    Parallel (Paired setup typo typo') (Op.look f) := by
  rw [look_eq]
  exact parallel_observe fun _ _ ⟨_, hfirst, hsecond⟩ => h (hfirst.alike hsecond)

/-- An operation that succeeds and changes the view as a function tells. -/
lemma parallel_of_runs {op : Op Unit} (change : View → View)
    (h : ∀ {typo : TypoConfig} {store : Store} {view : View},
      store.Runs (setup.withTypo typo) .readWrite view → ∃ store', op store = .ok () store' ∧
        store'.Runs (setup.withTypo typo) .readWrite (change view)) :
    Parallel (Paired setup typo typo') op := by
  rintro first second ⟨view, hfirst, hsecond⟩
  obtain ⟨first', hrun, hfirst'⟩ := h hfirst
  obtain ⟨second', hrun', hsecond'⟩ := h hsecond
  rw [answer?_ok hrun, answer?_ok hrun', after_ok hrun, after_ok hrun']
  exact ⟨rfl, change view, hfirst', hsecond'⟩

/-- Putting an id under its terms succeeds or fails alike in both stores. -/
lemma parallel_saveIndexes {id : DocId} (hid : id.IsPlain) (fields : Fields) :
    Parallel (Paired setup typo typo') (saveIndexes id fields) :=
  parallel_of_runs (fun view => view.save setup id fields) fun h => h.saveIndexes hid fields

/-- Taking an id from under its terms succeeds or fails alike in both stores. -/
lemma parallel_removeFromIndexes (document : Document) :
    Parallel (Paired setup typo typo') (removeFromIndexes document) :=
  parallel_of_runs (fun view => view.remove setup document.id document.fields)
    fun h => h.removeFromIndexes document

/-- A document is stored in both, or it cannot be stored in either. -/
lemma parallel_saveDocument (id : DocId) (fields : Fields) :
    Parallel (Paired setup typo typo') (saveDocument id fields) := by
  rintro first second ⟨view, hfirst, hsecond⟩
  by_cases hcause : setup.schema.validate fields = .ok () ∧
      view.docs.merged (setup.document id fields) .replace = .ok (setup.document id fields)
  · obtain ⟨first', hrun, hfirst'⟩ := hfirst.saveDocument hcause.1 hcause.2
    obtain ⟨second', hrun', hsecond'⟩ := hsecond.saveDocument hcause.1 hcause.2
    rw [answer?_ok hrun, answer?_ok hrun', after_ok hrun, after_ok hrun']
    exact ⟨rfl, _, hfirst', hsecond'⟩
  · rw [not_and_or] at hcause
    obtain ⟨e, hrun⟩ := hfirst.saveDocument_error hcause
    obtain ⟨e', hrun'⟩ := hsecond.saveDocument_error hcause
    rw [answer?_error hrun, answer?_error hrun', after_error hrun, after_error hrun']
    exact ⟨rfl, view, hfirst, hsecond⟩

/-- Replacing a document succeeds or fails alike in both stores.

**Proof sketch.** The document that was there before is the same in both stores. It is removed from
the indexes, and the new one is stored and indexed, each of which goes alike. -/
lemma parallel_replace (written : OrderedMap String Fields) {id : DocId} (hid : id.IsPlain)
    (fields : Fields) : Parallel (Paired setup typo typo') (Engine.replace written id fields) := by
  have hprevious : Parallel (Paired setup typo typo') (Engine.previous written id) := by
    unfold Engine.previous
    cases written.get? id.text with
    | some fields => exact parallel_pure _
    | none => exact parallel_look fun halike => halike.fetch_eq id
  have hwrite : Parallel (Paired setup typo typo')
      (saveDocument id fields >>= fun _ => saveIndexes id fields) :=
    (parallel_saveDocument id fields).bind fun _ _ => parallel_saveIndexes hid fields
  rw [Engine.replace_eq]
  refine hprevious.bind fun previous _ => ?_
  unfold Engine.replaceFields
  cases previous with
  | none => exact (parallel_pure ()).bind fun _ _ => hwrite
  | some previous => exact (parallel_removeFromIndexes _).bind fun _ _ => hwrite

/-- **A batch is written to both alike.**

**Proof sketch.** Induction on the batch. A document gets the same id in both, and replaces the same
document. -/
theorem parallel_writeBatch {batch : List Pending} (hplain : ∀ waiting ∈ batch, waiting.id.IsPlain)
    (written : OrderedMap String Fields) :
    Parallel (Paired setup typo typo') (Engine.writeBatch written batch) := by
  induction batch generalizing written with
  | nil => exact parallel_pure []
  | cons waiting batch ih =>
    have hrest := ih fun other hother => hplain other (List.mem_cons_of_mem _ hother)
    refine Parallel.bind (parallel_look fun halike => halike.resolve_eq waiting) ?_
    rintro id ⟨first, second, ⟨view, hfirst, -⟩, hid⟩
    have hresolve : Engine.resolve first waiting = .ok id := by
      cases hrun : Engine.resolve first waiting with
      | ok found =>
        rw [answer?_ok (look_ok hrun)] at hid
        rw [Option.some.inj hid]
      | error e =>
        rw [answer?_error (look_error hrun)] at hid
        cases hid
    have hidPlain := Engine.isPlain_of_resolve hfirst (hplain waiting List.mem_cons_self) hresolve
    exact (parallel_replace written hidPlain _).bind fun _ _ =>
      (hrest _).bind fun ids _ => parallel_pure _

/-- In a session for writing it does not matter whether an operation would open one. -/
lemma parallel_of_within {op : Op α} (h : Parallel (Paired setup typo typo') (within mode op)) :
    Parallel (Paired setup typo typo') op := by
  rintro first second ⟨view, hfirst, hsecond⟩
  have hrun := h first second ⟨view, hfirst, hsecond⟩
  unfold answer? after at hrun ⊢
  rwa [hfirst.within, hsecond.within] at hrun

end Paired

/-! ## Operations in sessions or without them -/

/-- Two stores stand for one view, both in a session for writing or both without a session. All
files are there. -/
def Twins (setup : Setup) (typo typo' : TypoConfig) (session : Option Mode) (first second : Store) :
    Prop :=
  ∃ view, first.Stands (setup.withTypo typo) .made session (· = view) ∧
    second.Stands (setup.withTypo typo') .made session (· = view)

section Twins

variable {α : Type} {typo typo' : TypoConfig} {session : Option Mode}

/-- In a session of a store that stands for a view. -/
lemma Stands.runs (h : first.Stands setup .made (some .readWrite) (· = view)) :
    first.Runs setup .readWrite view := by
  obtain ⟨_, ⟨himpossible, -⟩ | ⟨-, hruns⟩, rfl⟩ := h.stands
  · cases himpossible
  · exact hruns

/-- Without a session. -/
lemma Stands.rests (h : first.Stands setup .made none (· = view)) :
    first.Rests setup .made view := by
  obtain ⟨_, hrests, rfl⟩ := h.exists_rests
  exact hrests

/-- The session of a store that stands for a view. -/
lemma Stands.session_cases {status : Status} {P : View → Prop}
    (h : first.Stands setup status session P) : session = none ∨ session = some .readWrite := by
  obtain ⟨_, ⟨hnone, -⟩ | ⟨hsome, -⟩, -⟩ := h.stands
  · exact .inl hnone
  · exact .inr hsome

namespace Paired

/-- Stores that are paired are twins in a session for writing. -/
lemma twins (h : Paired setup typo typo' first second) :
    Twins setup typo typo' (some .readWrite) first second := by
  obtain ⟨view, hfirst, hsecond⟩ := h
  exact ⟨view, hfirst.stands rfl rfl, hsecond.stands rfl rfl⟩

/-- The end of the sessions. -/
lemma commit (h : Paired setup typo typo' first second) :
    ∃ first' second', Store.commit first = .ok () first' ∧ Store.commit second = .ok () second' ∧
      Twins setup typo typo' none first' second' := by
  obtain ⟨view, hfirst, hsecond⟩ := h
  obtain ⟨first', hrun, hrests⟩ := hfirst.commit
  obtain ⟨second', hrun', hrests'⟩ := hsecond.commit
  exact ⟨first', second', hrun, hrun', view, hrests.stands rfl, hrests'.stands rfl⟩

end Paired

namespace Twins

/-- Twins in sessions. -/
lemma paired (h : Twins setup typo typo' (some .readWrite) first second) :
    Paired setup typo typo' first second := by
  obtain ⟨view, hfirst, hsecond⟩ := h
  exact ⟨view, hfirst.runs, hsecond.runs⟩

/-- The start of sessions. -/
lemma exists_openIn (h : Twins setup typo typo' none first second) :
    ∃ first' second', Store.openIn .readWrite first = .ok () first' ∧
      Store.openIn .readWrite second = .ok () second' ∧
        Paired setup typo typo' first' second' := by
  obtain ⟨view, hfirst, hsecond⟩ := h
  obtain ⟨first', hrun, hruns⟩ := hfirst.rests.exists_openIn .readWrite
  obtain ⟨second', hrun', hruns'⟩ := hsecond.rests.exists_openIn .readWrite
  exact ⟨first', second', hrun, hrun', view, hruns, hruns'⟩

/-- The start of sessions, unless there are some. -/
lemma openIn (h : Twins setup typo typo' session first second) :
    ∃ session', Twins setup typo typo' session' (after (Store.openIn .readWrite) first)
      (after (Store.openIn .readWrite) second) := by
  have hcases := h
  obtain ⟨view, hfirst, hsecond⟩ := hcases
  rcases hfirst.session_cases with rfl | rfl
  · obtain ⟨first', second', hrun, hrun', hpaired⟩ := h.exists_openIn
    rw [after_ok hrun, after_ok hrun']
    exact ⟨_, hpaired.twins⟩
  · rw [after_error (hfirst.runs.openIn_error _), after_error (hsecond.runs.openIn_error _)]
    exact ⟨_, h⟩

/-- Twins stay twins when files are made, which are there already. -/
lemma createFiles (h : Twins setup typo typo' session first second) :
    Twins setup typo typo' session (after Store.createFiles first)
      (after Store.createFiles second) := by
  obtain ⟨view, hfirst, hsecond⟩ := h
  exact ⟨view, hfirst.createFiles, hsecond.createFiles⟩

/-- Twins stay twins when their sessions are committed. -/
lemma commit (h : Twins setup typo typo' session first second) :
    Twins setup typo typo' none (after Store.commit first) (after Store.commit second) := by
  obtain ⟨view, hfirst, hsecond⟩ := h
  exact ⟨view, hfirst.commit, hsecond.commit⟩

/-- Both stores are emptied. -/
lemma truncate (h : Twins setup typo typo' session first second) :
    Twins setup typo typo' session (after Store.truncate first) (after Store.truncate second) := by
  obtain ⟨view, hfirst, hsecond⟩ := h
  rcases hfirst.truncate_cases with ⟨first', hrun, hfirst'⟩ | ⟨himpossible, -⟩
  · rcases hsecond.truncate_cases with ⟨second', hrun', hsecond'⟩ | ⟨himpossible, -⟩
    · rw [after_ok hrun, after_ok hrun']
      exact ⟨View.empty, hfirst', hsecond'⟩
    · cases himpossible
  · cases himpossible

/-- An operation between the start and the end of sessions. -/
lemma between {op : Op α} (h : Twins setup typo typo' none first second)
    (hop : Parallel (Paired setup typo typo') op) :
    ∃ opened opened' ended ended', Store.openIn .readWrite first = .ok () opened ∧
      Store.openIn .readWrite second = .ok () opened' ∧
      Store.commit (after op opened) = .ok () ended ∧
      Store.commit (after op opened') = .ok () ended' ∧
      Twins setup typo typo' none ended ended' := by
  obtain ⟨opened, opened', hopen, hopen', hpaired⟩ := h.exists_openIn
  obtain ⟨-, hdone⟩ := hop opened opened' hpaired
  obtain ⟨ended, ended', hcommit, hcommit', htwins⟩ := hdone.commit
  exact ⟨opened, opened', ended, ended', hopen, hopen', hcommit, hcommit', htwins⟩

/-- **An operation that agrees in sessions** leaves two stores that stand for one view, also if
sessions have to be opened for it.

**Proof sketch.** Without a session both stores are opened and both committed; in a session the
operation runs by itself. Either way it runs over stores that stand for one view. -/
theorem within {op : Op α} (h : Twins setup typo typo' session first second)
    (hop : Parallel (Paired setup typo typo') op) :
    Twins setup typo typo' session (after (Store.within .readWrite op) first)
      (after (Store.within .readWrite op) second) := by
  have hcases := h
  obtain ⟨view, hfirst, hsecond⟩ := hcases
  rcases hfirst.session_cases with rfl | rfl
  · have hwithin : ∀ {store opened ended : Store}, store.session = none →
        Store.openIn .readWrite store = .ok () opened →
        Store.commit (after op opened) = .ok () ended →
          after (Store.within .readWrite op) store = ended := by
      intro store opened ended hsession hopen hcommit
      obtain ⟨result, hresult⟩ := after_attempt op opened
      exact after_of_attempt
        (within_of_opened (ensureOpen_of_openIn hsession hopen) hresult hcommit)
    obtain ⟨opened, opened', ended, ended', hopen, hopen', hcommit, hcommit', htwins⟩ :=
      h.between hop
    rwa [hwithin hfirst.rests.session_eq hopen hcommit,
      hwithin hsecond.rests.session_eq hopen' hcommit']
  · have hdone := (hop first second h.paired).2.twins
    unfold after at hdone ⊢
    rwa [hfirst.runs.within, hsecond.runs.within]

/-- **A batch is written to both alike**, whatever comes of it.

**Proof sketch.** A batch that is not valid is refused by both before anything is written. Without a
session both write between opening and committing, and in a session both refuse. -/
theorem writeAll {batch : List Pending} (h : Twins setup typo typo' session first second)
    (hplain : ∀ waiting ∈ batch, waiting.id.IsPlain) :
    Twins setup typo typo' session (after (Engine.writeAll batch) first)
      (after (Engine.writeAll batch) second) := by
  have hcases := h
  obtain ⟨view, hfirst, hsecond⟩ := hcases
  have hschema : second.schema = first.schema := hsecond.schema_eq.trans hfirst.schema_eq.symm
  cases hvalid : Engine.validateAll first.schema batch with
  | error e =>
    have hvalid' := hvalid
    rw [← hschema] at hvalid'
    have hfail : ∀ {store : Store}, Engine.validateAll store.schema batch = .error e →
        after (Engine.writeAll batch) store = store :=
      fun hvalid => after_error (bind_error (look_error hvalid) _)
    rwa [hfail hvalid, hfail hvalid']
  | ok _ =>
    have hvalid' := hvalid
    rw [← hschema] at hvalid'
    rcases hfirst.session_cases with rfl | rfl
    · have hwrite : ∀ {store opened ended : Store},
          Engine.validateAll store.schema batch = .ok () →
          Store.openIn .readWrite store = .ok () opened →
          Store.commit (after (Engine.writeBatch ∅ batch) opened) = .ok () ended →
            after (Engine.writeAll batch) store = ended := by
        intro store opened ended hvalid hopen hcommit
        obtain ⟨result, hresult⟩ := after_attempt (Engine.writeBatch ∅ batch) opened
        unfold after Engine.writeAll
        rw [bind_ok (look_ok hvalid), bind_ok hopen, bind_ok hresult, bind_ok (attempt_ok hcommit)]
        cases result <;> rfl
      obtain ⟨opened, opened', ended, ended', hopen, hopen', hcommit, hcommit', htwins⟩ :=
        h.between (parallel_writeBatch hplain ∅)
      rwa [hwrite hvalid hopen hcommit, hwrite hvalid' hopen' hcommit']
    · have hrefuse : ∀ {store : Store} {typo : TypoConfig} {view : View},
          store.Runs (setup.withTypo typo) .readWrite view →
          Engine.validateAll store.schema batch = .ok () →
            after (Engine.writeAll batch) store = store := fun hruns hvalid =>
        after_error ((bind_ok (look_ok hvalid) _).trans (bind_error (hruns.openIn_error _) _))
      rwa [hrefuse hfirst.runs hvalid, hrefuse hsecond.runs hvalid']

/-- A question that is asked of both stores, in sessions for reading unless some are open, is asked
in sessions that stand for one view.

**Proof sketch.** Each of the stores answers in a session that stands for its view, and the views of
the two are the same. -/
theorem look (h : Twins setup typo typo' session first second) (question : Store → Except Error α) :
    ∃ (asked asked' : Store) (mode mode' : Mode) (view : View) (first' second' : Store),
      asked.Runs (setup.withTypo typo) mode view ∧ asked'.Runs (setup.withTypo typo') mode' view ∧
      Op.attempt (Store.within .read (Op.look question)) first = .ok (question asked) first' ∧
      Op.attempt (Store.within .read (Op.look question)) second = .ok (question asked') second' ∧
      Twins setup typo typo' session first' second' := by
  obtain ⟨view, hfirst, hsecond⟩ := h
  have hone : ∀ {typo : TypoConfig} {store : Store},
      store.Stands (setup.withTypo typo) .made session (· = view) → ∃ asked mode store',
        asked.Runs (setup.withTypo typo) mode view ∧
        Op.attempt (Store.within .read (Op.look question)) store = .ok (question asked) store' ∧
        store'.Stands (setup.withTypo typo) .made session (· = view) := by
    intro typo store hstore
    rcases @Stands.look_cases _ _ _ _ _ _ (fun result view => ∃ asked mode,
        asked.Runs (setup.withTypo typo) mode view ∧ result = question asked) hstore question
        (fun hopened _ => ⟨_, _, hopened, rfl⟩) with
      ⟨_, store', _, hrun, hstore', rfl, asked, mode, hasked, rfl⟩ | ⟨himpossible, -⟩
    · exact ⟨asked, mode, store', hasked, hrun, hstore'⟩
    · cases himpossible
  obtain ⟨asked, mode, first', hasked, hrun, hfirst'⟩ := hone hfirst
  obtain ⟨asked', mode', second', hasked', hrun', hsecond'⟩ := hone hsecond
  exact ⟨asked, asked', mode, mode', view, first', second', hasked, hasked', hrun, hrun', view,
    hfirst', hsecond'⟩

end Twins

end Twins

end Concordance.Store
