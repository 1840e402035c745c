import Concordance.Proofs.Engine.Tasks

set_option relaxedAutoImplicit false
set_option autoImplicit false

/-!
# Batches

A batch of valid documents is always stored, and each document of it gets an id. Under an id that
some of them get, the last of these is stored, and what is under the other ids stays.

## Main definitions

* `Concordance.Store.Setup.putAll` — documents that are stored one after the other.

## Main results

* `Concordance.Store.Runs.writeBatch` — a batch in a session.
* `Concordance.Engine.Stands.flush_ok` — a flush of valid documents.
* `Concordance.Engine.stored_of_flush` — what is stored after a flush.
-/

namespace Concordance

open Operation

namespace Store

variable {setup : Setup} {store : Store} {view : View} {mode : Mode}

/-! ## Documents stored one after the other -/

/-- The documents once those of a batch are stored under their ids, one after the other. -/
def Setup.putAll (setup : Setup) (docs : Table StoredDocument) (entries : List (Pending × DocId)) :
    Table StoredDocument :=
  entries.foldl (fun docs entry => docs.put (setup.document entry.2 entry.1.fields)) docs

section Documents

variable {docs : Table StoredDocument} {entries : List (Pending × DocId)} {id : DocId}

/-- What is under an id that no document of a batch gets. -/
lemma get?_putAll_of_not_mem (h : ∀ entry ∈ entries, entry.2 ≠ id) :
    (setup.putAll docs entries).get? (.text id.text) = docs.get? (.text id.text) := by
  induction entries generalizing docs with
  | nil => rfl
  | cons entry entries ih =>
    have hne : Key.text id.text ≠ Record.key (setup.document entry.2 entry.1.fields) := fun hkey =>
      h entry List.mem_cons_self (congrArg DocId.mk (Key.text.inj hkey).symm)
    refine (ih fun other hother => h other (List.mem_cons_of_mem _ hother)).trans ?_
    rw [Table.get?_put, if_neg hne]

/-- Under an id is the last document of a batch that gets it. -/
lemma get?_putAll_of_isLatest {waiting : Pending} (h : IsLatest Prod.snd entries (waiting, id)) :
    (setup.putAll docs entries).get? (.text id.text) = some (setup.document id waiting.fields) := by
  obtain ⟨before, after, rfl, hafter⟩ := h
  have hkey : Key.text id.text = Record.key (setup.document id waiting.fields) := rfl
  unfold Setup.putAll
  rw [List.foldl_append, List.foldl_cons]
  refine (get?_putAll_of_not_mem hafter).trans ?_
  rw [Table.get?_put, if_pos hkey]

/-- What holds of the documents before and of those of a batch holds of all documents after it. -/
lemma forall_mem_putAll {P : StoredDocument → Prop} (hdocs : ∀ document ∈ docs.records, P document)
    (hentries : ∀ entry ∈ entries, P (setup.document entry.2 entry.1.fields)) :
    ∀ document ∈ (setup.putAll docs entries).records, P document := by
  induction entries generalizing docs with
  | nil => exact hdocs
  | cons entry entries ih =>
    refine ih (fun document hdocument => ?_) fun other hother =>
      hentries other (List.mem_cons_of_mem _ hother)
    rcases Table.mem_put.1 hdocument with rfl | ⟨hold, -⟩
    · exact hentries entry List.mem_cons_self
    · exact hdocs document hold

end Documents

/-! ## Batches in a session -/

/-- An id is found for each document.

**Proof sketch.** The look-up by unique values succeeds in a session. If nothing is replaced,
counting up ends after as many tries as there are documents and one more, and every try reads a
document that can be read or finds none. -/
lemma Runs.exists_resolve (h : store.Runs setup mode view) (hread : view.Readable)
    (waiting : Pending) :
    ∃ id, Engine.resolve store waiting = .ok id := by
  have hfree : ∀ fuel id, ∃ free, Engine.freeFrom store fuel id = .ok free := by
    intro fuel
    induction fuel with
    | zero => exact fun id => ⟨id, rfl⟩
    | succ fuel ih =>
      intro id
      rw [Engine.freeFrom, h.fetch hread]
      cases view.fetched id with
      | none => exact ⟨id, rfl⟩
      | some fields => exact ih _
  obtain ⟨found, hmatch, -⟩ :=
    Engine.matchIn_ok h waiting.fields (Engine.uniqueFields store.schema waiting.fields)
  have hmatch : Engine.uniqueMatch store waiting.fields = .ok found := hmatch
  obtain ⟨saved, hfiles, -, -⟩ := h.files
  unfold Engine.resolve
  rw [hmatch]
  cases found with
  | some id => exact ⟨id, rfl⟩
  | none =>
    cases waiting.synthesized with
    | false => exact ⟨waiting.id, rfl⟩
    | true =>
      obtain ⟨free, hrun⟩ := hfree (view.docs.size + 1) waiting.id
      refine ⟨free, ?_⟩
      simp only [bind, Except.bind, if_true, Engine.freeId, hfiles.docs.1.total]
      exact hrun

/-- **A batch in a session.** Valid documents are stored one after the other.

**Proof sketch.** Induction on the batch: an id is found for the next document, which takes its
place there and can be read like those before. -/
theorem Runs.writeBatch (h : store.Runs setup .readWrite view) (hread : view.Readable)
    {batch : List Pending} (hplain : ∀ waiting ∈ batch, waiting.id.IsPlain)
    (hvalid : ∀ waiting ∈ batch, setup.schema.validate waiting.fields = .ok ())
    (written : OrderedMap String Fields) :
    ∃ ids store' view', Engine.writeBatch written batch store = .ok ids store' ∧
      store'.Runs setup .readWrite view' ∧ ids.length = batch.length ∧
      view'.docs = setup.putAll view.docs (batch.zip ids) ∧ view'.Readable := by
  induction batch generalizing store view written with
  | nil => exact ⟨[], store, view, rfl, h, rfl, rfl, hread⟩
  | cons waiting batch ih =>
    obtain ⟨id, hresolve⟩ := h.exists_resolve hread waiting
    have hid := Engine.isPlain_of_resolve h (hplain waiting List.mem_cons_self) hresolve
    have hfits := hvalid waiting List.mem_cons_self
    obtain ⟨previous, store₁, -, hreplace, h₁⟩ := h.replace hread hid hfits written
    obtain ⟨ids, store', view', hrest, h', hlength, hdocs', hread'⟩ :=
      ih h₁ (hread.replaced hfits previous)
        (fun other hother => hplain other (List.mem_cons_of_mem _ hother))
        (fun other hother => hvalid other (List.mem_cons_of_mem _ hother))
        (written.insert id.text waiting.fields)
    refine ⟨id :: ids, store', view', ?_, h', congrArg Nat.succ hlength, ?_, hread'⟩
    · unfold Engine.writeBatch
      rw [bind_ok (look_ok hresolve), bind_ok hreplace, bind_ok hrest]
      rfl
    · rw [hdocs', View.docs_replaced]
      rfl

end Store

/-! ## Flushes -/

namespace Engine

variable {setup : Store.Setup} {engine : Engine} {P : Store.View → Prop} {n : Nat}

/-- What a batch does in a session it does if the session is opened for it. -/
lemma writeAll_ok {store opened done ended : Store} {batch : List Pending} {ids : List DocId}
    (hvalid : ∀ waiting ∈ batch, store.schema.validate waiting.fields = .ok ())
    (hopen : Store.openIn .readWrite store = .ok () opened)
    (hrun : writeBatch ∅ batch opened = .ok ids done) (hcommit : Store.commit done = .ok () ended) :
    writeAll batch store = .ok ids ended := by
  unfold writeAll
  rw [bind_ok (Store.look_ok (validateAll_eq_ok_iff.2 hvalid)), bind_ok hopen,
    bind_ok (Store.attempt_ok hrun), bind_ok (Store.attempt_ok hcommit)]
  rfl

/-- **A flush of valid documents** stores all of them, in a session that starts with what is stored
before.

**Proof sketch.** Without documents that wait a flush does nothing. Otherwise the documents are
valid, a session for writing opens, the batch is written document by document, and the session is
committed over the view that is left. -/
theorem Stands.flush_ok (h : engine.Stands setup .made none P)
    (hread : ∀ view, P view → view.Readable)
    (hvalid : ∀ waiting ∈ engine.pending, setup.schema.validate waiting.fields = .ok ()) :
    ∃ view view' opened done ids store', P view ∧ engine.store.Stands setup .made none (· = view) ∧
      Store.openIn .readWrite engine.store = .ok () opened ∧ opened.Runs setup .readWrite view ∧
      writeBatch ∅ engine.pending opened = .ok ids done ∧ ids.length = engine.pending.length ∧
      view'.docs = setup.putAll view.docs (engine.pending.zip ids) ∧ view'.Readable ∧
      store'.Stands setup .made none (· = view') ∧
      Engine.flush engine = .ok ids { engine with store := store', pending := [] } := by
  obtain ⟨view, hrests, hP⟩ := h.store.exists_rests
  obtain ⟨opened, hopen, hruns⟩ := hrests.exists_openIn .readWrite
  obtain ⟨ids, done, view', hrun, hdone, hlength, hdocs, hread'⟩ :=
    hruns.writeBatch (hread view hP) h.plain hvalid ∅
  rcases flush_eq engine with ⟨hflush, hempty⟩ | hflush
  · rw [hempty] at hrun hlength hdocs
    cases hrun
    refine ⟨view, view, opened, opened, [], engine.store, hP, hrests.stands rfl, hopen, hruns,
      by rw [hempty]; rfl, by rw [hempty]; rfl, by rw [hempty]; rfl, hread view hP,
      hrests.stands rfl, ?_⟩
    rw [hflush, ← hempty]
  · obtain ⟨ended, hcommit, hended⟩ := hdone.commit
    have hwrite := writeAll_ok (by rw [hrests.files.schema_eq]; exact hvalid) hopen hrun hcommit
    refine ⟨view, view', opened, done, ids, ended, hP, hrests.stands rfl, hopen, hruns, hrun,
      hlength, hdocs, hread', hended.stands rfl, ?_⟩
    rw [hflush]
    simp only [Engine.onStore, hwrite]

/-- What is loaded from an engine whose store stands for one view. -/
lemma Stands.gives_load {view : Store.View} (h : engine.Stands setup .made none (· = view))
    (hread : view.Readable) (id : DocId) : Gives (Engine.load id) engine (view.fetched id) := by
  obtain ⟨_, store', rfl, -, hrun⟩ := h.load (fun _ heq => heq ▸ hread) id
  exact ⟨_, hrun⟩

/-- The count of an engine whose store stands for one view. -/
lemma Stands.gives_count {view : Store.View} (h : engine.Stands setup .made none (· = view)) :
    Gives Engine.count engine view.docs.size := by
  obtain ⟨_, store', rfl, -, hrun⟩ := h.count
  exact ⟨_, hrun⟩

/-- There are as many ids with documents as are counted.

**Proof sketch.** The ids with documents are those of the records of the view, and its records have
different keys. -/
lemma encard_ids {view : Store.View} (h : engine.Stands setup .made none (· = view))
    (hread : view.Readable) :
    {id | ∃ fields, Gives (load id) engine (some fields)}.encard = view.docs.size := by
  have hnodup : (view.docs.records.map fun document => (⟨document.id⟩ : DocId)).Nodup := by
    refine List.pairwise_map.2 (view.docs.pairwise_key_ne.imp fun hne heq => hne ?_)
    exact congrArg (fun id : DocId => Key.text id.text) heq
  have hset : {id | ∃ fields, Gives (load id) engine (some fields)} =
      ((view.docs.records.map fun document => (⟨document.id⟩ : DocId)).toFinset : Set DocId) := by
    ext id
    rw [List.coe_toFinset, Set.mem_ofPred_eq, Set.mem_ofPred_eq, List.mem_map]
    constructor
    · rintro ⟨fields, hfields⟩
      have hsome : view.fetched id ≠ none := by
        rw [← hfields.eq (h.gives_load hread id)]
        exact Option.some_ne_none fields
      obtain ⟨document, hget⟩ := Option.ne_none_iff_exists'.1
        (mt (Store.View.fetched_eq_none_iff hread).2 hsome)
      obtain ⟨hmem, hkey⟩ := Table.get?_eq_some_iff.1 hget
      exact ⟨document, hmem, congrArg DocId.mk (Key.text.inj hkey)⟩
    · rintro ⟨document, hmem, rfl⟩
      have hget : view.docs.get? (.text document.id) = some document :=
        Table.get?_eq_some_iff.2 ⟨hmem, rfl⟩
      have hsome : view.fetched ⟨document.id⟩ ≠ none := by
        rw [ne_eq, Store.View.fetched_eq_none_iff hread, hget]
        exact Option.some_ne_none document
      obtain ⟨fields, hfields⟩ := Option.ne_none_iff_exists'.1 hsome
      exact ⟨fields, hfields ▸ h.gives_load hread ⟨document.id⟩⟩
  rw [hset, Set.encard_coe_eq_coe_finsetCard, List.toFinset_card_of_nodup hnodup, List.length_map]
  rfl

/-- **A flush writes exactly the batch.** An engine starts with an empty directory and performs some
tasks. If all documents that wait are valid, a flush succeeds and tells one id for each. What is
kept of the last document with an id is then stored under the id, and what is stored under any other
id stays. The count is the number of ids with a document.

**Proof sketch.** A flush takes the view to one whose documents are those of the batch put one after
the other. The last one that is put under an id is found there, and ids that none is put under find
what they found before. All documents are read back, as their numbers are, so the view tells what is
loaded and counted. -/
theorem stored_of_flush (setup : Store.Setup) (scoring : Scoring)
    (hstart : (start (setup.store ∅) scoring).1 = .ok engine) {tasks : List Task}
    (hnumbers : ∀ task ∈ tasks, task.NumbersReadBack)
    (hvalid : ∀ waiting ∈ (perform setup engine tasks).pending,
      setup.schema.validate waiting.fields = .ok ()) :
    ∃ ids engine', flush (perform setup engine tasks) = .ok ids engine' ∧
      ids.length = (perform setup engine tasks).pending.length ∧
      (∀ waiting id,
        IsLatest Prod.snd ((perform setup engine tasks).pending.zip ids) (waiting, id) →
          Gives (load id) engine' (some (setup.schema.stored waiting.fields))) ∧
      (∀ id, id ∉ ids → ∃ found, Gives (load id) (perform setup engine tasks) found ∧
        Gives (load id) engine' found) ∧
      ∃ total : Nat, Gives count engine' total ∧
        {id | ∃ fields, Gives (load id) engine' (some fields)}.encard = total := by
  have hinverts := inverts_perform hstart hnumbers
  generalize perform setup engine tasks = engine₀ at *
  obtain ⟨view, view', opened, done, ids, store', hinv, hbefore, -, -, -, hlength, hdocs, hread',
    hafter, hflush⟩ := hinverts.stands.flush_ok (fun _ hinv => hinv.readable) hvalid
  have hstands : engine₀.Stands setup .made none (· = view) := ⟨hbefore, hinverts.stands.plain⟩
  have hstands' : { engine₀ with store := store', pending := [] }.Stands setup .made none
      (· = view') := .of_store hafter
  have hstorable : ∀ document ∈ view'.docs.records, document.Storable := by
    rw [hdocs]
    refine Store.forall_mem_putAll hinv.storable fun entry hentry => ?_
    have hwaiting := (List.of_mem_zip hentry).1
    exact Store.storable_document (hvalid _ hwaiting) (hinverts.numbers _ hwaiting) entry.2
  refine ⟨ids, _, hflush, hlength, fun waiting id hlatest => ?_, fun id hid => ?_,
    view'.docs.size, hstands'.gives_count, encard_ids hstands' hread'⟩
  · have hload := hstands'.gives_load hread' id
    rw [Store.View.fetched_of_storable hstorable, hdocs,
      Store.get?_putAll_of_isLatest hlatest] at hload
    exact hload
  · refine ⟨_, hstands.gives_load hinv.readable id, ?_⟩
    have hsame : view'.fetched id = view.fetched id := Store.View.fetched_congr <| by
      rw [hdocs]
      exact Store.get?_putAll_of_not_mem fun entry hentry heq =>
        hid (heq ▸ (List.of_mem_zip hentry).2)
    rw [← hsame]
    exact hstands'.gives_load hread' id

/-- Two pets are stored. Then three more wait, two of them with the tag of a stored one. -/
def petTasks : List Task :=
  [.use (.add (.ofList [("name", .text "Tom"), ("tag", .text "7")])),
    .use (.addWithId "rex" (.ofList [("name", .text "Rex"), ("age", .number halfPastOne)])),
    .use .flush, .search "tom",
    .use (.add (.ofList [("name", .text "Kit"), ("tag", .text "7")])),
    .use (.add (.ofList [("name", .text "Kat"), ("tag", .text "7")])),
    .use (.add (.ofList [("name", .text "Tam")]))]

/-- The three pets that wait are flushed. -/
theorem stored_of_flush_pets : ∃ engine, (start (petSetup.store ∅) {}).1 = .ok engine ∧
    ∃ ids engine', flush (perform petSetup engine petTasks) = .ok ids engine' ∧ ids.length = 3 ∧
      ∃ total : Nat, Gives count engine' total ∧
        {id | ∃ fields, Gives (load id) engine' (some fields)}.encard = total := by
  refine ⟨_, rfl, ?_⟩
  obtain ⟨ids, engine', hflush, hlength, -, -, hcount⟩ :=
    @stored_of_flush _ petSetup {} rfl petTasks (by decide +kernel) (by decide +kernel)
  exact ⟨ids, engine', hflush, hlength.trans (by decide +kernel), hcount⟩

end Engine

end Concordance
