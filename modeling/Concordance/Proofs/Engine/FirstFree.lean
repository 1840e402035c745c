import Concordance.Proofs.Engine.Batches

set_option relaxedAutoImplicit false
set_option autoImplicit false

/-!
# The ids of a batch

A document whose id is not chosen overwrites nothing: it takes over the id of a stored document only
if it has its values, and else gets the first free id, counting up from its number. An id is free if
no document is stored under it and no earlier document of the batch has got it.

## Main definitions

* `Concordance.Engine.IsFirstFree` — the first free id, counting up from a number.
* `Concordance.Engine.GetsId` — the id that a document of a batch gets.

## Main results

* `Concordance.Engine.exists_of_writeBatch_append` — a batch is written part by part.
* `Concordance.Engine.getsId_of_flush` — the ids that the documents of a flush get.
-/

namespace Concordance

open Operation

namespace Store

variable {setup : Setup} {docs : Table StoredDocument} {entries : List (Pending × DocId)}
  {id : DocId}

/-! ## Documents stored one after the other -/

/-- After a batch, an id has no document iff it had none before and no document of the batch gets
it. -/
lemma get?_putAll_eq_none_iff : (setup.putAll docs entries).get? (.text id.text) = none ↔
    docs.get? (.text id.text) = none ∧ id ∉ entries.map Prod.snd := by
  by_cases hid : id ∈ entries.map Prod.snd
  · obtain ⟨entry, hentry, rfl⟩ := List.mem_map.1 hid
    obtain ⟨⟨waiting, id⟩, hlatest, hkey⟩ := @exists_isLatest _ _ Prod.snd _ _ hentry
    have hkey : id = entry.2 := hkey
    subst hkey
    simp [get?_putAll_of_isLatest hlatest, hid]
  · rw [get?_putAll_of_not_mem fun entry hentry heq => hid (List.mem_map.2 ⟨entry, hentry, heq⟩)]
    simp [hid]

/-- A batch adds no more than one document for each of its own. -/
lemma size_putAll_le : (setup.putAll docs entries).size ≤ docs.size + entries.length := by
  induction entries generalizing docs with
  | nil => exact Nat.le_refl _
  | cons entry entries ih =>
    have hrest := @ih (docs.put (setup.document entry.2 entry.1.fields))
    have hfirst := docs.size_put_le (setup.document entry.2 entry.1.fields)
    rw [List.length_cons]
    exact hrest.trans (by omega)

/-- A batch whose ids are new and all different adds one document for each of its own.

**Proof sketch.** Induction on the batch. The first document is new, and since the ids differ it
does not make the others any less new. -/
lemma size_putAll_of_new (hnew : ∀ id ∈ entries.map Prod.snd, docs.get? (.text id.text) = none)
    (hnodup : (entries.map Prod.snd).Nodup) :
    (setup.putAll docs entries).size = docs.size + entries.length := by
  induction entries generalizing docs with
  | nil => rfl
  | cons entry entries ih =>
    rw [List.map_cons] at hnew hnodup
    obtain ⟨hnot, hnodup⟩ := List.nodup_cons.1 hnodup
    have hfirst := @Table.size_put_of_new _ _ docs (setup.document entry.2 entry.1.fields)
      (hnew entry.2 List.mem_cons_self)
    have hrest := @ih (docs.put (setup.document entry.2 entry.1.fields)) (fun id hid => ?_) hnodup
    · rw [List.length_cons]
      exact hrest.trans (by omega)
    · have hne : Key.text id.text ≠ Record.key (setup.document entry.2 entry.1.fields) :=
        fun hkey => hnot <| by
          have heq : id = entry.2 := congrArg DocId.mk (Key.text.inj hkey)
          rwa [heq] at hid
      rw [Table.get?_put, if_neg hne]
      exact hnew id (List.mem_cons_of_mem _ hid)

end Store

namespace Engine

variable {setup : Store.Setup} {store : Store} {view : Store.View} {engine : Engine} {mode : Mode}
  {n : Nat} {id : DocId}

/-! ## Which ids are free -/

/-- No document is stored under an id, and it is none of those that are taken. -/
def IsFree (engine : Engine) (taken : List DocId) (id : DocId) : Prop :=
  Gives (load id) engine none ∧ id ∉ taken

/-- The first free id, counting up from a number. -/
def IsFirstFree (engine : Engine) (taken : List DocId) (n : Nat) (id : DocId) : Prop :=
  ∃ k, id = .ofSequence (n + k) ∧ engine.IsFree taken id ∧
    ∀ i < k, ¬ engine.IsFree taken (.ofSequence (n + i))

/-- The id that a document of a batch gets, in a store that holds the documents of the batch before
it under the ids that are taken: that of the document that it replaces by its values, or its own if
it was chosen, or the first free one, counting up from the number of its provisional id. -/
def GetsId (engine : Engine) (store : Store) (taken : List DocId) (n : Nat) (waiting : Pending)
    (id : DocId) : Prop :=
  ∃ found, uniqueMatch store waiting.fields = .ok found ∧
    match found with
    | some other => id = other
    | none =>
      if waiting.synthesized then waiting.id = .ofSequence n ∧ engine.IsFirstFree taken n id
      else id = waiting.id

/-- What is free is told by the view of an engine's store. -/
lemma Stands.isFree_iff (h : engine.Stands setup .made none (· = view)) (hread : view.Readable)
    (taken : List DocId) (id : DocId) :
    engine.IsFree taken id ↔ view.docs.get? (.text id.text) = none ∧ id ∉ taken := by
  have hload := h.gives_load hread id
  rw [← Store.View.fetched_eq_none_iff hread]
  refine and_congr_left fun _ => ⟨fun hnone => hload.eq hnone, fun hnone => ?_⟩
  rwa [hnone] at hload

/-- **The id of a document.** In a session that has stored a part of a batch under some ids, the
next document gets its id with regard to these and to what was stored before.

**Proof sketch.** The id is looked for in the session as the documents before it have left it. What
is taken there are the ids that had a document before the batch and those that the batch has given,
since the documents are those of the view with the entries put into it. -/
theorem Stands.getsId (h : engine.Stands setup .made none (· = view)) (hread : view.Readable)
    {view' : Store.View} (hruns : store.Runs setup mode view') (hread' : view'.Readable)
    {entries : List (Pending × DocId)} (hdocs : view'.docs = setup.putAll view.docs entries)
    {waiting : Pending} (hnumbered : waiting.synthesized = true → waiting.id = .ofSequence n)
    (hn : n + (view'.docs.size + 1) ≤ 2 ^ 64) (hresolve : resolve store waiting = .ok id) :
    GetsId engine store (entries.map Prod.snd) n waiting id := by
  have hfree : ∀ id, engine.IsFree (entries.map Prod.snd) id ↔
      view'.docs.get? (.text id.text) = none := fun id => by
    rw [h.isFree_iff hread, hdocs, Store.get?_putAll_eq_none_iff]
  obtain ⟨found, hmatch, -⟩ :=
    matchIn_ok hruns waiting.fields (uniqueFields store.schema waiting.fields)
  have hmatch : uniqueMatch store waiting.fields = .ok found := hmatch
  refine ⟨found, hmatch, ?_⟩
  unfold resolve at hresolve
  rw [hmatch] at hresolve
  cases found with
  | some other => exact (Except.ok.inj hresolve).symm
  | none =>
    simp only [bind, Except.bind] at hresolve ⊢
    split at hresolve
    · next hsynthesized =>
      rw [if_pos hsynthesized]
      obtain ⟨k, hrun, htaken, hnone⟩ := freeId_ok hruns hread' hn
      rw [hnumbered hsynthesized, hrun] at hresolve
      obtain rfl := Except.ok.inj hresolve
      refine ⟨hnumbered hsynthesized, k, rfl, (hfree _).2 hnone, fun i hi hi' => ?_⟩
      have hsome := htaken i hi
      rw [(hfree _).1 hi'] at hsome
      cases hsome
    · next hsynthesized =>
      rw [if_neg hsynthesized]
      exact (Except.ok.inj hresolve).symm

/-! ## Parts of a batch -/

/-- A batch is written part by part.

**Proof sketch.** Induction on the first part: each of its documents is looked up and stored before
the rest is written. -/
lemma exists_of_writeBatch_append {written : OrderedMap String Fields} {before rest : List Pending}
    {ids : List DocId} {store' : Store}
    (h : writeBatch written (before ++ rest) store = .ok ids store') :
    ∃ written' idsBefore idsRest middle, writeBatch written before store = .ok idsBefore middle ∧
      writeBatch written' rest middle = .ok idsRest store' ∧ ids = idsBefore ++ idsRest := by
  induction before generalizing written store ids with
  | nil => exact ⟨written, [], ids, store, rfl, h, rfl⟩
  | cons waiting before ih =>
    obtain ⟨id, store₁, hlook, h⟩ := exists_of_bind_ok h
    obtain ⟨_, store₂, hreplace, h⟩ := exists_of_bind_ok h
    obtain ⟨idsRest, store₃, hwrite, h⟩ := exists_of_bind_ok h
    cases h
    obtain ⟨written', idsBefore, idsRest, middle, hbefore, hrest, rfl⟩ := ih hwrite
    refine ⟨written', id :: idsBefore, idsRest, middle, ?_, hrest, rfl⟩
    unfold writeBatch
    rw [bind_ok hlook, bind_ok hreplace, bind_ok hbefore]
    rfl

/-- A batch that is written has one id for each document. -/
lemma length_of_writeBatch {written : OrderedMap String Fields} {batch : List Pending}
    {ids : List DocId} {store' : Store} (h : writeBatch written batch store = .ok ids store') :
    ids.length = batch.length := by
  induction batch generalizing written store ids with
  | nil =>
    cases h
    rfl
  | cons waiting batch ih =>
    obtain ⟨id, store₁, -, h⟩ := exists_of_bind_ok h
    obtain ⟨_, store₂, -, h⟩ := exists_of_bind_ok h
    obtain ⟨rest, store₃, hwrite, h⟩ := exists_of_bind_ok h
    cases h
    exact congrArg Nat.succ (ih hwrite)

/-- A document of a batch gets its id in the session in which those before it are written.

**Proof sketch.** A batch is written in two parts, and the second starts with the document: its id
is found in the store that the first part leaves. -/
lemma resolve_of_writeBatch {written : OrderedMap String Fields} {batch : List Pending}
    {ids : List DocId} {store' : Store} (h : writeBatch written batch store = .ok ids store')
    {i : Nat} {waiting : Pending} (hwaiting : batch[i]? = some waiting) (hid : ids[i]? = some id) :
    ∃ middle, writeBatch written (batch.take i) store = .ok (ids.take i) middle ∧
      resolve middle waiting = .ok id := by
  obtain ⟨hi, rfl⟩ := List.getElem?_eq_some_iff.1 hwaiting
  have hsplit : batch.take i ++ batch[i] :: batch.drop (i + 1) = batch := by
    rw [← List.drop_eq_getElem_cons hi, List.take_append_drop]
  rw [← hsplit] at h
  obtain ⟨written', idsBefore, idsRest, middle, hbefore, hrest, rfl⟩ :=
    exists_of_writeBatch_append h
  obtain ⟨first, store₁, hlook, hrest⟩ := exists_of_bind_ok hrest
  obtain ⟨_, store₂, -, hrest⟩ := exists_of_bind_ok hrest
  obtain ⟨idsAfter, store₃, -, hrest⟩ := exists_of_bind_ok hrest
  cases hrest
  have hlength : idsBefore.length = i := by
    rw [length_of_writeBatch hbefore, List.length_take, Nat.min_eq_left hi.le]
  subst hlength
  rw [List.getElem?_append_right (Nat.le_refl _), Nat.sub_self, List.getElem?_cons_zero] at hid
  obtain rfl := Option.some.inj hid
  refine ⟨middle, by rw [List.take_left]; exact hbefore, ?_⟩
  unfold Store.Op.look at hlook
  cases hresolve : resolve middle batch[idsBefore.length] with
  | ok id =>
    simp only [hresolve] at hlook
    cases hlook
    rfl
  | error e =>
    simp only [hresolve] at hlook
    cases hlook

/-! ## Flushes -/

/-- The ids of a batch are all different if none of them is taken when its document gets it. -/
lemma nodup_of_not_mem_take {ids : List DocId}
    (h : ∀ i id, ids[i]? = some id → id ∉ ids.take i) : ids.Nodup := by
  refine List.pairwise_iff_getElem.2 fun i j hi hj hlt heq => ?_
  refine h j ids[j] (List.getElem?_eq_getElem hj) ?_
  exact List.mem_take_iff_getElem.2 ⟨i, by omega, heq⟩

/-- Without unique fields that are indexed, no document replaces another one by its values. -/
lemma uniqueMatch_eq_none {store : Store} (fields : Fields)
    (h : ∀ field ∈ store.schema.indexedFields, field.flags.unique = false) :
    uniqueMatch store fields = .ok none := by
  have hnil : uniqueFields store.schema fields = [] := by
    refine List.filter_eq_nil_iff.2 fun field hfield hflags => ?_
    simp only [Bool.and_eq_true] at hflags
    have hunique := h field (Schema.mem_indexedFields.2 ⟨hfield, hflags.1.2⟩)
    rw [hunique] at hflags
    exact Bool.false_ne_true hflags.1.1
  unfold uniqueMatch
  rw [hnil]
  rfl

/-- An id that a document gets because it is the first one to be free is free. -/
lemma GetsId.isFree {taken : List DocId} {waiting : Pending}
    (h : GetsId engine store taken n waiting id)
    (hmatch : uniqueMatch store waiting.fields = .ok none)
    (hsynthesized : waiting.synthesized = true) : engine.IsFree taken id := by
  obtain ⟨found, hfound, hcase⟩ := h
  obtain rfl := Except.ok.inj (hmatch.symm.trans hfound)
  simp only [hsynthesized, if_true] at hcase
  obtain ⟨-, k, -, hfree, -⟩ := hcase
  exact hfree

/-- Each document of a batch gets its id in the session in which those before it are written.

**Proof sketch.** The batch up to the document is written in the session as the whole batch is. It
stores no more documents than it has, so there is room to count up. -/
lemma Waits.getsId (h : engine.Waits setup view.docs.size)
    (hstands : engine.Stands setup .made none (· = view)) (hread : view.Readable)
    (hvalid : ∀ waiting ∈ engine.pending, setup.schema.validate waiting.fields = .ok ())
    (hroom : view.docs.size + engine.pending.length ≤ 2 ^ 63) {opened done : Store}
    (hruns : opened.Runs setup .readWrite view) {ids : List DocId}
    (hrun : writeBatch ∅ engine.pending opened = .ok ids done) {i : Nat} {waiting : Pending}
    (hwaiting : engine.pending[i]? = some waiting) (hid : ids[i]? = some id) :
    ∃ middle, writeBatch ∅ (engine.pending.take i) opened = .ok (ids.take i) middle ∧
      middle.schema = setup.schema ∧
      GetsId engine middle (ids.take i) (view.docs.size + i + 1) waiting id := by
  have hi : i < engine.pending.length := (List.getElem?_eq_some_iff.1 hwaiting).1
  obtain ⟨middle, hpart, hresolve⟩ := resolve_of_writeBatch hrun hwaiting hid
  obtain ⟨_, _, view', hpart', hmiddle, hlength, hdocs, hread'⟩ :=
    @Store.Runs.writeBatch _ _ _ hruns hread (engine.pending.take i)
      (fun waiting hmem => h.stands.plain waiting (List.mem_of_mem_take hmem))
      (fun waiting hmem => hvalid waiting (List.mem_of_mem_take hmem)) ∅
  cases hpart.symm.trans hpart'
  have hsize : view'.docs.size ≤ view.docs.size + i := by
    have hle := @Store.size_putAll_le setup view.docs ((engine.pending.take i).zip (ids.take i))
    rw [List.length_zip, List.length_take, List.length_take] at hle
    rw [hdocs]
    omega
  obtain ⟨saved, hfiles, -, -⟩ := hmiddle.files
  have hgets := hstands.getsId hread hmiddle hread' hdocs (h.numbered i waiting hwaiting)
    (by omega) hresolve
  rw [List.map_snd_zip hlength.le] at hgets
  exact ⟨middle, hpart, hfiles.schema_eq, hgets⟩

/-- **A synthesized id overwrites nothing.** An engine starts with an empty directory and performs
some tasks, after which `n` documents are stored. If all documents that wait are valid, a flush
succeeds. The document at place `i` of the batch gets its id in the session in which those before it
are written: if its id is not chosen, and it does not replace a document by its values, this is the
first free id, counting up from `n + i + 1`. So if no field is unique and indexed and no id is
chosen, the ids are all different and new, as many documents are added, and none that was stored
changes.

Numbers are read back from ids as machine words, which leaves room for `2 ^ 63` documents.

**Proof sketch.** A flush of valid documents leads from one view to another, and each id is found in
the session with the documents before it. If nothing is replaced by its values, this id is free: it
is not stored, and not given to a document before. So the ids are different and new, and the
documents put under them add to those that are there. -/
theorem getsId_of_flush (setup : Store.Setup) (scoring : Scoring)
    (hstart : (start (setup.store ∅) scoring).1 = .ok engine) {tasks : List Task}
    (hvalid : ∀ waiting ∈ (perform setup engine tasks).pending,
      setup.schema.validate waiting.fields = .ok ())
    (hsize : ∀ n, Gives count (perform setup engine tasks) n →
      n + (perform setup engine tasks).pending.length ≤ 2 ^ 63) :
    ∃ n ids engine' opened, Gives count (perform setup engine tasks) n ∧
      flush (perform setup engine tasks) = .ok ids engine' ∧
      ids.length = (perform setup engine tasks).pending.length ∧
      Store.openIn .readWrite (perform setup engine tasks).store = .ok () opened ∧
      (∀ i waiting id, (perform setup engine tasks).pending[i]? = some waiting →
        ids[i]? = some id → ∃ store,
          writeBatch ∅ ((perform setup engine tasks).pending.take i) opened =
            .ok (ids.take i) store ∧
          GetsId (perform setup engine tasks) store (ids.take i) (n + i + 1) waiting id) ∧
      ((∀ field ∈ setup.schema.indexedFields, field.flags.unique = false) →
        (∀ waiting ∈ (perform setup engine tasks).pending, waiting.synthesized = true) →
          ids.Nodup ∧ Gives count engine' (n + ids.length) ∧
            ∀ id fields, Gives (load id) (perform setup engine tasks) (some fields) →
              Gives (load id) engine' (some fields)) := by
  obtain ⟨n, hwaits⟩ := exists_waits hstart tasks
  generalize perform setup engine tasks = engine₀ at *
  obtain ⟨view, view', opened, done, ids, store', ⟨hread, rfl⟩, hbefore, hopen, hruns, hrun,
    hlength, hdocs, hread', hafter, hflush⟩ :=
      hwaits.stands.flush_ok (fun _ => And.left) hvalid
  have hstands : engine₀.Stands setup .made none (· = view) := ⟨hbefore, hwaits.stands.plain⟩
  have hstands' : { engine₀ with store := store', pending := [] }.Stands setup .made none
      (· = view') := .of_store hafter
  have hroom := hsize _ hstands.gives_count
  have hids := fun i waiting id =>
    @Waits.getsId _ view engine₀ id hwaits hstands hread hvalid hroom _ _ hruns _ hrun i waiting
  refine ⟨_, ids, _, opened, hstands.gives_count, hflush, hlength, hopen,
    fun i waiting id hwaiting hid => ?_, fun hnotUnique hsynthesized => ?_⟩
  · obtain ⟨middle, hpart, -, hgets⟩ := hids i waiting id hwaiting hid
    exact ⟨middle, hpart, hgets⟩
  -- nothing is replaced by its values, so each id is free when its document gets it
  have hfree : ∀ i id, ids[i]? = some id → engine₀.IsFree (ids.take i) id := by
    intro i id hid
    have hi : i < engine₀.pending.length := hlength ▸ (List.getElem?_eq_some_iff.1 hid).1
    obtain ⟨middle, -, hschema, hgets⟩ := hids i _ id (List.getElem?_eq_getElem hi) hid
    exact hgets.isFree (uniqueMatch_eq_none _ (hschema ▸ hnotUnique))
      (hsynthesized _ (List.getElem_mem hi))
  have hnew : ∀ id ∈ ids, view.docs.get? (.text id.text) = none := by
    intro id hid
    obtain ⟨i, hi⟩ := List.getElem?_of_mem hid
    exact ((hstands.isFree_iff hread _ _).1 (hfree i id hi)).1
  have hnodup : ids.Nodup := nodup_of_not_mem_take fun i id hid => (hfree i id hid).2
  have hsnd : (engine₀.pending.zip ids).map Prod.snd = ids := List.map_snd_zip hlength.le
  have hcount := hstands'.gives_count
  rw [hdocs, Store.size_putAll_of_new (hsnd.symm ▸ hnew) (hsnd.symm ▸ hnodup), List.length_zip,
    ← hlength, Nat.min_self] at hcount
  refine ⟨hnodup, hcount, fun id fields hfields => ?_⟩
  have hload := hstands.gives_load hread id
  have hsame : view'.fetched id = view.fetched id := Store.View.fetched_congr <| by
    rw [hdocs]
    refine Store.get?_putAll_of_not_mem fun entry hentry heq => ?_
    have hnone := hnew id (heq ▸ (List.of_mem_zip hentry).2)
    rw [(Store.View.fetched_eq_none_iff hread).2 hnone] at hload
    cases hload.eq hfields
  rw [hfields.eq hload, ← hsame]
  exact hstands'.gives_load hread' id

/-- Two pets are stored, one of them under a chosen number. Of the three that wait, one has the same
number and another one that of a pet before it. -/
def crowdedTasks : List Task :=
  [.use (.add (.ofList [("name", .text "Tom"), ("tag", .text "7")])),
    .use (.addWithId "3" (.ofList [("name", .text "Rex")])), .use .flush,
    .use (.add (.ofList [("name", .text "Kit")])),
    .use (.addWithId "5" (.ofList [("name", .text "Kat"), ("tag", .text "8")])),
    .use (.add (.ofList [("name", .text "Tam")]))]

/-- The ids of the pets that wait. -/
theorem getsId_of_flush_pets : ∃ engine, (start (petSetup.store ∅) {}).1 = .ok engine ∧
    ∃ n ids engine', Gives count (perform petSetup engine crowdedTasks) n ∧
      flush (perform petSetup engine crowdedTasks) = .ok ids engine' ∧ ids.length = 3 ∧
      ∀ i waiting id, (perform petSetup engine crowdedTasks).pending[i]? = some waiting →
        ids[i]? = some id → ∃ store,
          GetsId (perform petSetup engine crowdedTasks) store (ids.take i) (n + i + 1) waiting
            id := by
  refine ⟨_, rfl, ?_⟩
  obtain ⟨n, ids, engine', opened, hcount, hflush, hlength, -, hids, -⟩ :=
    @getsId_of_flush _ petSetup {} rfl crowdedTasks (by decide +kernel)
      fun n hn => by
        rw [hn.eq (by decide +kernel : Gives _ _ 2)]
        decide +kernel
  refine ⟨n, ids, engine', hcount, hflush, hlength.trans (by decide +kernel),
    fun i waiting id hwaiting hid => ?_⟩
  obtain ⟨store, -, hgets⟩ := hids i waiting id hwaiting hid
  exact ⟨store, hgets⟩

end Engine

end Concordance
