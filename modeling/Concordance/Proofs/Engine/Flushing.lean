import Concordance.Engine.Flush
import Concordance.Proofs.Store.Keeping
import Concordance.Proofs.Store.Lookups

set_option relaxedAutoImplicit false
set_option autoImplicit false

/-!
# Flushing

A flush writes the documents that wait one after the other. Which id each of them gets depends on
what is stored; it is a plain one in any case. What holds of the view of a store before a flush
holds after it if every single replacement of a document keeps it.

## Main definitions

* `Concordance.Engine.Stands` — an engine over a store that stands for a view with a property.

## Main results

* `Concordance.Engine.isPlain_of_resolve` — documents get plain ids.
* `Concordance.Store.Takes.writeBatch` — what every replacement keeps, a batch keeps.
* `Concordance.Engine.Stands.flush` — what every replacement keeps, a flush keeps.
-/

namespace Concordance

open Operation

variable {setup : Store.Setup} {store : Store} {view : Store.View} {mode : Mode}

/-! ## The ids of documents -/

/-- An id is common to several lists if there are some and it is in all of them.

**Proof sketch.** Intersecting keeps those ids of the first list that are in the next one, so by
induction those that are in all. -/
lemma Search.mem_common_iff {lists : List PostingList} {id : DocId} :
    id ∈ (common lists).ids ↔ lists ≠ [] ∧ ∀ list ∈ lists, id ∈ list.ids := by
  have hfoldl : ∀ (lists : List PostingList) (list : PostingList),
      id ∈ (lists.foldl PostingList.intersect list).ids ↔
        id ∈ list.ids ∧ ∀ other ∈ lists, id ∈ other.ids := by
    intro lists
    induction lists with
    | nil => simp
    | cons first lists ih =>
      intro list
      rw [List.foldl_cons, ih, List.forall_mem_cons, ← and_assoc]
      refine and_congr_left fun _ => ?_
      rw [PostingList.intersect, List.mem_filter, PostingList.contains_iff]
  cases lists with
  | nil => simp [common, PostingList.empty]
  | cons list lists => simp [common, hfoldl]

namespace Engine

/-- The ids that share a value with a document are those under all its tokens. -/
lemma sharing_ok (h : store.Runs setup mode view) (name : String) (value : Value) :
    ∃ found, sharing store name value = .ok found ∧ ∀ id,
      (∃ list, found = some list ∧ id ∈ list.ids) ↔
        store.analyzer.rawTerms value.asText ≠ [] ∧
          ∀ token ∈ store.analyzer.rawTerms value.asText,
            ∃ list, store.postings name token = .ok list ∧ id ∈ list.ids := by
  choose list hrun _ _ using h.postings name
  unfold sharing
  split
  · next hnil => exact ⟨none, rfl, fun id => by simp [hnil]⟩
  · rw [mapM_ok fun token _ => hrun token]
    refine ⟨_, rfl, fun id => ?_⟩
    simp [Search.mem_common_iff, hrun]

/-- The stored document that a document replaces by its values has a plain id.

**Proof sketch.** Induction on the fields. A field without a value, or whose value no document
shares, is passed over. Otherwise the first document under the tokens of the value is found, and ids
that are listed in a session are plain. -/
lemma matchIn_ok (h : store.Runs setup mode view) (values : Fields) (fields : List Field) :
    ∃ found, matchIn store values fields = .ok found ∧ ∀ id, found = some id → id.IsPlain := by
  induction fields with
  | nil => exact ⟨none, rfl, fun id hid => by cases hid⟩
  | cons field fields ih =>
    unfold matchIn
    cases values.get? field.name with
    | none => exact ih
    | some value =>
      obtain ⟨found, hrun, hids⟩ := sharing_ok h field.name value
      simp only [hrun, bind, Except.bind]
      cases hhead : found.bind fun list => list.ids.head? with
      | none => exact ih
      | some id =>
        obtain ⟨list, hlist, hid⟩ := Option.bind_eq_some_iff.1 hhead
        obtain ⟨hne, htokens⟩ := (hids id).1 ⟨list, hlist, List.mem_of_mem_head? hid⟩
        obtain ⟨token, htoken⟩ := List.exists_mem_of_ne_nil _ hne
        obtain ⟨under, hunder, hmem⟩ := htokens token htoken
        obtain ⟨_, hpostings, hplain, -⟩ := h.postings field.name token
        obtain rfl := Except.ok.inj (hunder.symm.trans hpostings)
        refine ⟨some id, rfl, fun other hother => ?_⟩
        cases hother
        exact hplain.ids id hmem

/-- Free ids are plain.

**Proof sketch.** Induction on the number of tries. An id is returned as it came in or as one of a
number, and both are plain. -/
lemma isPlain_of_freeFrom {fuel : Nat} {id free : DocId} (hid : id.IsPlain)
    (h : freeFrom store fuel id = .ok free) : free.IsPlain := by
  induction fuel generalizing id with
  | zero =>
    cases h
    exact hid
  | succ fuel ih =>
    unfold freeFrom at h
    cases hfetch : store.fetch id with
    | error e =>
      rw [hfetch] at h
      cases h
    | ok stored =>
      rw [hfetch] at h
      cases stored with
      | none =>
        cases h
        exact hid
      | some fields => exact ih (DocId.isPlain_ofSequence _) h

/-- Documents get plain ids.

**Proof sketch.** The id is that of a stored document, which is listed and plain, or a free one
counted up from the document's own, or its own. -/
theorem isPlain_of_resolve (h : store.Runs setup mode view) {pending : Pending} {id : DocId}
    (hpending : pending.id.IsPlain) (hid : resolve store pending = .ok id) : id.IsPlain := by
  obtain ⟨found, hrun, hplain⟩ :=
    matchIn_ok h pending.fields (uniqueFields store.schema pending.fields)
  have hmatch : uniqueMatch store pending.fields = .ok found := hrun
  unfold resolve at hid
  rw [hmatch] at hid
  cases found with
  | some other =>
    cases hid
    exact hplain _ rfl
  | none =>
    simp only [bind, Except.bind] at hid
    split at hid
    · unfold freeId at hid
      cases htotal : store.docs.total with
      | error e =>
        rw [htotal] at hid
        cases hid
      | ok total =>
        rw [htotal] at hid
        exact isPlain_of_freeFrom hpending hid
    · cases hid
      exact hpending

end Engine

/-! ## Batches -/

namespace Engine

/-- The fields that a document replaces: those that the same batch has written under the id, or what
is stored under it. -/
def previous (written : OrderedMap String Fields) (id : DocId) : Store.Op (Option Fields) :=
  match written.get? id.text with
  | some fields => pure (some fields)
  | none => Store.Op.look fun store => store.fetch id

/-- Stores a document in the place of given fields. -/
def replaceFields (id : DocId) (previous : Option Fields) (fields : Fields) : Store.Op Unit := do
  match previous with
  | some previous => Store.removeFromIndexes ⟨id, previous⟩
  | none => pure ()
  Store.saveDocument id fields
  Store.saveIndexes id fields

/-- Replacing a document first looks at what is written under its id, and then writes. -/
lemma replace_eq (written : OrderedMap String Fields) (id : DocId) (fields : Fields) :
    replace written id fields =
      previous written id >>= fun previous => replaceFields id previous fields := by
  unfold replace previous replaceFields
  cases written.get? id.text <;> rfl

end Engine

open Engine in
/-- What every replacement of a document keeps, a batch keeps. The property may depend on what the
batch has written so far.

**Proof sketch.** Induction on the batch. An id is looked for, which changes nothing, and the
document under it is replaced. -/
theorem Store.Takes.writeBatch {I : OrderedMap String Fields → View → Prop} {P : View → Prop}
    (hfail : ∀ written view, I written view → P view) {batch : List Pending}
    (hreplace : ∀ written id, id.IsPlain → ∀ waiting ∈ batch, Takes setup (I written)
      (replace written id waiting.fields) (fun _ => I (written.insert id.text waiting.fields)) P)
    (hplain : ∀ waiting ∈ batch, waiting.id.IsPlain) (written : OrderedMap String Fields) :
    Takes setup (I written) (writeBatch written batch) (fun _ => P) P := by
  induction batch generalizing written with
  | nil => exact .pure (hfail written)
  | cons waiting batch ih =>
    have hwaiting := hplain waiting List.mem_cons_self
    have hrest := ih (fun written id hid other hother =>
      hreplace written id hid other (List.mem_cons_of_mem _ hother))
      fun other hother => hplain other (List.mem_cons_of_mem _ hother)
    have hlook : Takes setup (I written) (Op.look fun store => resolve store waiting)
        (fun id view => id.IsPlain ∧ I written view) P :=
      .look (fun store view hruns hI id hid => ⟨isPlain_of_resolve hruns hwaiting hid, hI⟩)
        (hfail written)
    refine hlook.bind fun id => ?_
    intro store view hruns ⟨hid, hI⟩
    have hend : ∀ ids, Takes setup P (Pure.pure (id :: ids) : Op (List DocId)) (fun _ => P) P :=
      fun ids => .pure fun _ hP => hP
    have hstep := (hreplace written id hid waiting List.mem_cons_self).bind fun _ =>
      (hrest (written.insert id.text waiting.fields)).bind hend
    exact hstep store view hruns hI

namespace Engine

/-! ## Engines -/

/-- Stores the documents that wait, in a session. -/
def writeAll (batch : List Pending) : Store.Op (List DocId) := do
  Store.Op.look fun store => validateAll store.schema batch
  Store.openIn .readWrite
  let result ← Store.Op.attempt (writeBatch ∅ batch)
  let ended ← Store.Op.attempt Store.commit
  match result, ended with
  | .ok ids, .ok () => return ids
  | .ok _, .error e | .error e, _ => throw e

/-- A batch is valid if all its documents fit the schema. -/
lemma validateAll_eq_ok_iff {schema : Schema} {batch : List Pending} :
    validateAll schema batch = .ok () ↔
      ∀ waiting ∈ batch, schema.validate waiting.fields = .ok () := by
  induction batch with
  | nil => exact iff_of_true rfl (List.forall_mem_nil _)
  | cons waiting batch ih =>
    change (schema.validate waiting.fields >>= fun _ => validateAll schema batch) = _ ↔ _
    rw [List.forall_mem_cons, ← ih]
    cases schema.validate waiting.fields with
    | error e => exact iff_of_false nofun nofun
    | ok _ => exact (and_iff_right rfl).symm

end Engine

open Engine in
/-- Whatever comes of it, a store stands for what a batch of valid documents takes it to, or for
what it stood for before.

**Proof sketch.** If the batch is not valid nothing is done. In a store without a session one for
writing is opened, in which the batch takes the view somewhere, whether it succeeds or fails, and
the session is committed over that. In a session a second one is refused. -/
theorem Store.Stands.writeAll_cases {status : Status} {session : Option Mode}
    {P Q fail : View → Prop} (h : store.Stands setup status session P) {batch : List Pending}
    (hbatch : (∀ waiting ∈ batch, setup.schema.validate waiting.fields = .ok ()) →
      Takes setup P (writeBatch ∅ batch) (fun _ => Q) fail) :
    (∃ ids store', writeAll batch store = .ok ids store' ∧ store'.Stands setup status session Q) ∨
    ∃ e store', writeAll batch store = .error e store' ∧
      store'.Stands setup status session fun view => P view ∨ fail view := by
  unfold Engine.writeAll
  cases hvalid : validateAll store.schema batch with
  | error e =>
    exact .inr ⟨e, store, bind_error (look_error hvalid) _, h.imp fun _ => .inl⟩
  | ok _ =>
    have hlook : Op.look (fun store => validateAll store.schema batch) store = .ok () store :=
      look_ok hvalid
    obtain ⟨view, ⟨rfl, hrests⟩ | ⟨rfl, hruns⟩, hP⟩ := h.stands
    · have hwrite := hbatch fun waiting hwaiting => by
        rw [← hrests.files.schema_eq]
        exact validateAll_eq_ok_iff.1 hvalid waiting hwaiting
      rcases hrests.openIn .readWrite with
        ⟨opened, hopen, hopened⟩ | ⟨hunknown, e, store', hopen, hrests'⟩
      · obtain ⟨result, done, view', hrun, hdone, hcase⟩ := hwrite.attempt hopened hP
        obtain ⟨ended, hcommit, hended⟩ := hdone.commit
        -- the session ends before the result of the batch is looked at
        have hsteps : ∀ f : Except Error (List DocId) → Except Error Unit → Op (List DocId),
            (do
              Op.look fun store => validateAll store.schema batch
              Store.openIn .readWrite
              let result ← Op.attempt (writeBatch ∅ batch)
              let ended ← Op.attempt Store.commit
              f result ended : Op (List DocId)) store = f result (.ok ()) ended := by
          intro f
          rw [bind_ok hlook, bind_ok hopen, bind_ok hrun, bind_ok (attempt_ok hcommit)]
        rcases hcase with ⟨ids, rfl, hQ⟩ | ⟨⟨e, rfl⟩, hfail⟩
        · exact .inl ⟨ids, ended, hsteps _, stands_of_rests h.closed (.inl hended) hQ⟩
        · exact .inr ⟨e, ended, hsteps _, stands_of_rests h.closed (.inl hended) (.inr hfail)⟩
      · exact .inr ⟨e, store', (bind_ok hlook _).trans (bind_error hopen _),
          stands_of_rests h.closed (.inr ⟨hunknown, hrests'⟩) (.inl hP)⟩
    · exact .inr ⟨.alreadyOpen, store,
        (bind_ok hlook _).trans (bind_error (hruns.openIn_error .readWrite) _), h.imp fun _ => .inl⟩

open Engine in
/-- What a batch of valid documents keeps, a store keeps, whatever comes of the batch. -/
theorem Store.Stands.writeAll {status : Status} {session : Option Mode} {P : View → Prop}
    (h : store.Stands setup status session P) {batch : List Pending}
    (hbatch : (∀ waiting ∈ batch, setup.schema.validate waiting.fields = .ok ()) →
      Takes setup P (writeBatch ∅ batch) (fun _ => P) P) :
    (after (writeAll batch) store).Stands setup status session P := by
  rcases h.writeAll_cases hbatch with ⟨ids, store', hrun, hstands⟩ | ⟨e, store', hrun, hstands⟩
  · rwa [after_ok hrun]
  · rw [after_error hrun]
    exact hstands.imp fun _ => (or_self_iff).1

namespace Engine

/-! ## What is done to an engine -/

variable {status : Store.Status} {session : Option Mode} {P : Store.View → Prop}
  {engine : Engine}

/-- An operation on the store of an engine is one on a part of the engine. -/
lemma onStore_eq {α : Type} (op : Store.Op α) :
    onStore op = onPart Engine.store (fun engine store => { engine with store }) op := by
  funext engine
  unfold onStore onPart
  cases op engine.store <;> rfl

/-- After an operation on the store there is in its place what it led to. -/
lemma after_onStore {α : Type} (op : Store.Op α) (engine : Engine) :
    after (onStore op) engine = { engine with store := after op engine.store } := by
  rw [onStore_eq, after_onPart]

/-- An operation on the store of an engine that has succeeded did so on the store. -/
lemma exists_of_onStore {α : Type} {op : Store.Op α} {a : α} {engine' : Engine}
    (h : onStore op engine = .ok a engine') :
    ∃ store', op engine.store = .ok a store' ∧ engine' = { engine with store := store' } := by
  rw [onStore_eq] at h
  exact exists_of_onPart_ok h

/-- Adding a document counts what is stored. If that succeeds, one more document waits under the id
of a sequence number.

**Proof sketch.** By whether the count succeeds: only then is the document put behind those that
wait. -/
lemma after_add (fields : Fields) (engine : Engine) : ∃ extra, after (add fields) engine =
      { engine with
        store := after (Store.within .read (Store.Op.look fun store => store.docs.total))
          engine.store
        pending := engine.pending ++ extra } ∧
    ∀ waiting ∈ extra, waiting.fields = fields ∧ ∃ n, waiting.id = DocId.ofSequence n := by
  have hcount := after_onStore
    (Store.within .read (Store.Op.look fun store => store.docs.total)) engine
  change after count engine = _ at hcount
  cases hrun : count engine with
  | error e engine' =>
    have hfail : add fields engine = .error e engine' := bind_error hrun _
    rw [after_error hrun] at hcount
    exact ⟨[], by rw [after_error hfail, hcount, List.append_nil], by simp⟩
  | ok stored engine' =>
    have hok : add fields engine =
        .ok (DocId.ofSequence (stored + engine'.pending.length + 1))
          { engine' with pending := engine'.pending ++
            [⟨DocId.ofSequence (stored + engine'.pending.length + 1), fields, true⟩] } :=
      bind_ok hrun _
    rw [after_ok hrun] at hcount
    refine ⟨[⟨DocId.ofSequence (stored + engine'.pending.length + 1), fields, true⟩], ?_,
      fun waiting hwaiting => ?_⟩
    · rw [after_ok hok, hcount]
    · rw [List.mem_singleton.1 hwaiting]
      exact ⟨rfl, _, rfl⟩

/-- Adding a document under a chosen id lets it wait, if the id can be chosen.

**Proof sketch.** By whether the text can be an id: only then is the document put behind those that
wait. -/
lemma after_addWithId (text : String) (fields : Fields) (engine : Engine) : ∃ extra,
    after (addWithId text fields) engine = { engine with pending := engine.pending ++ extra } ∧
      ∀ waiting ∈ extra, waiting.fields = fields ∧ waiting.id.IsPlain ∧
        waiting.synthesized = false := by
  cases hid : DocId.ofText text with
  | error e =>
    have hfail : addWithId text fields engine = .error e engine := by
      unfold addWithId
      rw [hid]
      rfl
    exact ⟨[], by rw [after_error hfail, List.append_nil], by simp⟩
  | ok id =>
    have hok : addWithId text fields engine =
        .ok id { engine with pending := engine.pending ++ [⟨id, fields, false⟩] } := by
      unfold addWithId
      rw [hid]
      rfl
    refine ⟨[⟨id, fields, false⟩], after_ok hok, fun waiting hwaiting => ?_⟩
    rw [List.mem_singleton.1 hwaiting]
    exact ⟨rfl, DocId.isPlain_of_ofText hid, rfl⟩

/-- A flush writes the documents that wait. -/
lemma flush_eq (engine : Engine) : flush engine = .ok [] engine ∧ engine.pending = [] ∨
    flush engine = onStore (writeAll engine.pending) { engine with pending := [] } := by
  by_cases hempty : engine.pending.isEmpty
  · refine .inl ⟨?_, List.isEmpty_iff.1 hempty⟩
    unfold flush
    rw [get_bind]
    simp only [hempty, if_true]
    rfl
  · refine .inr ?_
    unfold flush
    rw [get_bind]
    simp only [hempty]
    rfl

/-- A flush changes nothing if no document waits. Otherwise the batch is written, and none waits any
longer. -/
lemma after_flush (engine : Engine) : after flush engine = engine ∧ engine.pending = [] ∨
    after flush engine =
      { engine with store := after (writeAll engine.pending) engine.store, pending := [] } := by
  rcases flush_eq engine with ⟨hrun, hempty⟩ | hrun
  · exact .inl ⟨after_ok hrun, hempty⟩
  · have hsame : after flush engine =
        after (onStore (writeAll engine.pending)) { engine with pending := [] } := by
      unfold after
      rw [hrun]
    exact .inr (hsame.trans (after_onStore _ _))

/-- Emptying an engine empties its store, and no document waits any longer. -/
lemma after_truncate (engine : Engine) : after truncate engine =
    { engine with store := after Store.truncate engine.store, pending := [] } :=
  after_onStore _ _

/-- An engine whose store stands for a view with a property. The documents that wait have plain
ids. -/
structure Stands (engine : Engine) (setup : Store.Setup) (status : Store.Status)
    (session : Option Mode) (P : Store.View → Prop) : Prop where
  store : engine.store.Stands setup status session P
  plain : ∀ waiting ∈ engine.pending, waiting.id.IsPlain

namespace Stands

/-- An operation on the store, which may have started or ended a session. -/
lemma onStore {α : Type} {session' : Option Mode} {Q : Store.View → Prop}
    (h : engine.Stands setup status session P) {op : Store.Op α}
    (hop : (after op engine.store).Stands setup status session' Q) :
    (after (Engine.onStore op) engine).Stands setup status session' Q := by
  rw [after_onStore]
  exact ⟨hop, h.plain⟩

/-- More documents wait, all of them under plain ids. -/
lemma append (h : engine.Stands setup status session P) {extra : List Pending}
    (hplain : ∀ waiting ∈ extra, waiting.id.IsPlain) :
    { engine with pending := engine.pending ++ extra }.Stands setup status session P := by
  refine ⟨h.store, fun waiting hwaiting => ?_⟩
  rcases List.mem_append.1 hwaiting with hwaiting | hwaiting
  · exact h.plain waiting hwaiting
  · exact hplain waiting hwaiting

/-- No documents wait any more. -/
lemma of_store {store : Store} (h : store.Stands setup status session P) :
    { engine with store, pending := [] }.Stands setup status session P :=
  ⟨h, fun waiting hwaiting => by cases hwaiting⟩

/-- A document is added under the id of a sequence number. -/
theorem add (h : engine.Stands setup status session P) (fields : Fields) :
    (after (Engine.add fields) engine).Stands setup status session P := by
  obtain ⟨extra, hafter, hextra⟩ := after_add fields engine
  have hcounted : ({ engine with store := after (Store.within .read
      (Store.Op.look fun store => store.docs.total)) engine.store } : Engine).Stands setup status
        session P := ⟨h.store.look _, h.plain⟩
  rw [hafter]
  refine hcounted.append fun waiting hwaiting => ?_
  obtain ⟨-, n, hn⟩ := hextra waiting hwaiting
  rw [hn]
  exact DocId.isPlain_ofSequence n

/-- A document is added under a chosen id. -/
theorem addWithId (h : engine.Stands setup status session P) (text : String) (fields : Fields) :
    (after (Engine.addWithId text fields) engine).Stands setup status session P := by
  obtain ⟨extra, hafter, hextra⟩ := after_addWithId text fields engine
  rw [hafter]
  exact h.append fun waiting hwaiting => (hextra waiting hwaiting).2.1

/-- What a batch of valid documents keeps, a flush keeps. -/
theorem flush (h : engine.Stands setup status session P)
    (hbatch : (∀ waiting ∈ engine.pending, setup.schema.validate waiting.fields = .ok ()) →
      Store.Takes setup P (writeBatch ∅ engine.pending) (fun _ => P) P) :
    (after Engine.flush engine).Stands setup status session P := by
  rcases after_flush engine with ⟨hafter, -⟩ | hafter
  · rw [hafter]
    exact h
  · rw [hafter]
    exact .of_store (h.store.writeAll hbatch)

/-- All documents are dropped, stored and waiting. -/
theorem truncate (h : engine.Stands setup status session P) (hempty : P Store.View.empty) :
    (after Engine.truncate engine).Stands setup status session P := by
  rw [after_truncate]
  exact .of_store (h.store.truncate hempty)

end Stands

end Engine

end Concordance
