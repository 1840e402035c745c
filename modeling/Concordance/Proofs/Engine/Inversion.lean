import Concordance.Proofs.Engine.Replacing

set_option relaxedAutoImplicit false
set_option autoImplicit false

/-!
# The index inverts the documents

In an engine the ids under a term of a field are those of the stored documents with the term, as far
as the field is both indexed and stored. What a document replaces is taken from the index before it
comes in, and is remembered in full by the batch that has written it, or else as far as it is
stored.

## Main definitions

* `Concordance.Store.View.Inverted` — the lists of a view invert its documents.
* `Concordance.Engine.Use`, `useAll` — what is done to an engine.
* `Concordance.Store.Inverted` — the files of a store's index invert its documents.

## Main results

* `Concordance.Store.View.Inverted.replaced` — replacing a document keeps the index inverted.
* `Concordance.Engine.Stands.use` — what every batch keeps, every use of an engine keeps.
* `Concordance.Engine.inverted_of_uses` — the index of an engine is always inverted.
-/

namespace Concordance

open Operation

/-! ## Views -/

namespace Store

variable {setup : Setup} {store : Store} {view : View} {id : DocId}

/-- The document stored under an id has a term in a field. -/
def HasTerm (setup : Setup) (docs : Table StoredDocument) (field : Field) (term : String)
    (id : DocId) : Prop :=
  ∃ document value, docs.get? (.text id.text) = some document ∧
    document.fields.get? field.name = some value ∧
      term ∈ (setup.store ∅).fieldTerms field value

/-- The lists of fields that are indexed and stored invert the stored documents, all of which can be
read. -/
structure View.Inverted (view : View) (setup : Setup) : Prop where
  storable : ∀ document ∈ view.docs.records, document.Storable
  mem_iff : ∀ field ∈ setup.schema.indexedFields, field.flags.stored = true → ∀ term id,
    id ∈ (view.lists field.name term).ids ↔ HasTerm setup view.docs field term id

/-- The documents of an inverted view can be read. -/
lemma View.Inverted.readable (h : view.Inverted setup) : view.Readable :=
  fun document hdocument => (h.storable document hdocument).readable

/-- Nothing is stored in an empty view, and nothing is listed. -/
lemma View.inverted_empty (setup : Setup) : View.empty.Inverted setup := by
  refine { storable := fun document hdocument => ?_, mem_iff := fun field _ _ term id => ?_ }
  · exact absurd hdocument List.not_mem_nil
  refine iff_of_false List.not_mem_nil ?_
  rintro ⟨document, value, hdocument, -⟩
  cases hdocument

/-! ## What a document replaces -/

/-- What a batch has written is stored. -/
def Agrees (setup : Setup) (written : OrderedMap String Fields) (view : View) : Prop :=
  ∀ id fields, written.get? id.text = some fields →
    view.docs.get? (.text id.text) = some (setup.document id fields)

/-- The fields that are remembered of the document under an id are those that are stored of it, as
far as fields are stored. Nothing is remembered if there is no document. -/
def Recalls (setup : Setup) (view : View) (id : DocId) : Option Fields → Prop
  | none => view.docs.get? (.text id.text) = none
  | some fields => ∃ document, view.docs.get? (.text id.text) = some document ∧
      ∀ field ∈ setup.schema.fields, field.flags.stored = true →
        document.fields.get? field.name = fields.get? field.name

/-- The terms of the document under an id are those of the fields that are remembered of it.

**Proof sketch.** Without anything remembered there is no document. Otherwise the document that is
stored has the same values in stored fields. -/
lemma Recalls.hasTerm_iff {previous : Option Fields} (h : Recalls setup view id previous)
    {field : Field} (hfield : field ∈ setup.schema.indexedFields)
    (hstored : field.flags.stored = true) (term : String) :
    HasTerm setup view.docs field term id ↔
      ∃ fields, previous = some fields ∧ (field, term) ∈ setup.indexTerms fields := by
  unfold HasTerm
  cases previous with
  | none =>
    have hnone : view.docs.get? (.text id.text) = none := h
    simp [hnone]
  | some fields =>
    obtain ⟨document, hdocument, hfields⟩ := h
    have hsame := hfields field (Schema.mem_indexedFields.1 hfield).1 hstored
    simp only [hdocument, Option.some.injEq, Setup.mem_indexTerms, hfield, true_and]
    constructor
    · rintro ⟨document', value, rfl, hvalue, hterm⟩
      exact ⟨fields, rfl, value, hsame ▸ hvalue, hterm⟩
    · rintro ⟨fields', rfl, value, hvalue, hterm⟩
      exact ⟨document, value, rfl, hsame.trans hvalue, hterm⟩

/-- What a document replaces is remembered.

**Proof sketch.** What has been written in the batch is remembered as it came in, which has the
stored fields that are kept of it. Otherwise the store is asked, and what it reads is the document
that is there. -/
lemma Runs.recalls (h : store.Runs setup .readWrite view)
    (hstorable : ∀ document ∈ view.docs.records, document.Storable)
    {written : OrderedMap String Fields} (hwritten : Agrees setup written view)
    {previous : Option Fields} (hprevious : Engine.previous written id store = .ok previous store) :
    Recalls setup view id previous := by
  unfold Engine.previous at hprevious
  cases hget : written.get? id.text with
  | some fields =>
    rw [hget] at hprevious
    cases hprevious
    refine ⟨_, hwritten id fields hget, fun field hfield hstored => ?_⟩
    exact setup.built.get?_stored hfield hstored fields
  | none =>
    have hread : view.Readable := fun document hdocument => (hstorable document hdocument).readable
    have hlook : Op.look (fun store => store.fetch id) store = .ok (view.fetched id) store :=
      look_ok (h.fetch hread id)
    rw [hget] at hprevious
    cases hlook.symm.trans hprevious
    rw [View.fetched_of_storable hstorable]
    cases hdocument : view.docs.get? (.text id.text) with
    | none => exact hdocument
    | some document => exact ⟨document, hdocument, fun _ _ _ => rfl⟩

/-- Once what a document replaces is taken from the index, its id is under no term of a stored
field.

**Proof sketch.** If nothing was stored under the id, it has no terms and there is nothing to take
away. Otherwise its terms are those of what it replaces, and it is taken from under all of them. -/
lemma View.Inverted.mem_without (hinv : view.Inverted setup) {previous : Option Fields}
    (hprevious : Recalls setup view id previous) {field : Field}
    (hfield : field ∈ setup.schema.indexedFields) (hstored : field.flags.stored = true)
    (term : String) (other : DocId) :
    other ∈ ((view.without setup id previous).lists field.name term).ids ↔
      other ≠ id ∧ HasTerm setup view.docs field term other := by
  cases previous with
  | none =>
    rw [View.without, hinv.mem_iff field hfield hstored]
    refine (and_iff_right_of_imp ?_).symm
    rintro hterm rfl
    simpa using (hprevious.hasTerm_iff hfield hstored term).1 hterm
  | some fields =>
    rw [View.without, View.mem_remove hfield, hinv.mem_iff field hfield hstored]
    by_cases heq : other = id
    · subst heq
      have hiff := hprevious.hasTerm_iff hfield hstored term
      simp only [Option.some.injEq, exists_eq_left'] at hiff
      simp [hiff]
    · simp [heq, and_comm]

/-! ## A document that comes in -/

/-- What is kept of a valid document is read back if its finite numbers are. -/
lemma storable_document {fields : Fields} (hvalid : setup.schema.validate fields = .ok ())
    (hnumbers : ∀ x, Value.number x ∈ fields.values → x.isFinite = true →
      (Value.number x).ReadsBack) (id : DocId) : (setup.document id fields).Storable := by
  have hread := readable_document hvalid id
  refine ⟨hread.noId, fun x hx => hnumbers x ?_ (hread.numbers x hx)⟩
  exact setup.built.mem_values_of_mem_stored hx

/-- The terms of documents once a document is stored under an id.

**Proof sketch.** By whether the other id is this one. If so, the document found is the new one, and
what is kept of it has the values of all stored fields. -/
lemma hasTerm_put {fields : Fields} {field : Field}
    (hfield : field ∈ setup.schema.indexedFields) (hstored : field.flags.stored = true)
    (term : String) (other : DocId) :
    HasTerm setup (view.docs.put (setup.document id fields)) field term other ↔
      if other = id then (field, term) ∈ setup.indexTerms fields
      else HasTerm setup view.docs field term other := by
  unfold HasTerm
  simp only [Table.get?_put]
  by_cases heq : other = id
  · subst heq
    have hkey : Key.text other.text = Record.key (setup.document other fields) := rfl
    have hkept : (setup.document other fields).fields.get? field.name = fields.get? field.name :=
      setup.built.get?_stored (Schema.mem_indexedFields.1 hfield).1 hstored fields
    simp only [if_pos hkey, if_true, Option.some.injEq, Setup.mem_indexTerms, hfield, true_and]
    constructor
    · rintro ⟨document, value, rfl, hvalue, hterm⟩
      exact ⟨value, hkept ▸ hvalue, hterm⟩
    · rintro ⟨value, hvalue, hterm⟩
      exact ⟨_, value, rfl, hkept.trans hvalue, hterm⟩
  · have hkey : Key.text other.text ≠ Record.key (setup.document id fields) := by
      intro hkey
      refine heq ?_
      obtain ⟨text⟩ := other
      obtain ⟨text'⟩ := id
      exact congrArg DocId.mk (Key.text.inj hkey)
    simp only [if_neg hkey, if_neg heq]

/-- **A document takes its place** in an inverted view, and the index stays inverted.

**Proof sketch.** Once what was under the id before is taken from the index, the id is under no term
of a stored field. The document is then stored, and the id comes under its terms. -/
theorem View.Inverted.replaced (hinv : view.Inverted setup) {previous : Option Fields}
    (hprevious : Recalls setup view id previous) {fields : Fields}
    (hvalid : setup.schema.validate fields = .ok ())
    (hnumbers : ∀ x, Value.number x ∈ fields.values → x.isFinite = true →
      (Value.number x).ReadsBack) :
    (view.replaced setup id previous fields).Inverted setup := by
  refine ⟨fun document hdocument => ?_, fun field hfield hstored term other => ?_⟩
  · rcases Table.mem_put.1 hdocument with rfl | ⟨hold, -⟩
    · exact storable_document hvalid hnumbers id
    · exact hinv.storable document hold
  · rw [View.docs_replaced, hasTerm_put hfield hstored, View.replaced, View.mem_save hfield,
      hinv.mem_without hprevious hfield hstored]
    by_cases heq : other = id
    · simp [heq]
    · simp [heq]

/-- What a batch has written is stored, also once a document has taken its place.

**Proof sketch.** By whether the id is the new one. If so, the document just stored is the one
found; otherwise nothing has changed for it. -/
lemma Agrees.put {written : OrderedMap String Fields} (h : Agrees setup written view)
    {view' : View} {fields : Fields}
    (hdocs : view'.docs = view.docs.put (setup.document id fields)) :
    Agrees setup (written.insert id.text fields) view' := by
  intro other others hget
  rw [hdocs, Table.get?_put]
  by_cases heq : other.text = id.text
  · rw [heq, OrderedMap.get?_insert_self] at hget
    obtain rfl := Option.some.inj hget
    have hkey : Key.text other.text = Record.key (setup.document id fields) :=
      congrArg Key.text heq
    rw [if_pos hkey, Setup.document, Setup.document, heq]
  · rw [OrderedMap.get?_insert_of_ne heq] at hget
    have hkey : Key.text other.text ≠ Record.key (setup.document id fields) :=
      fun hkey => heq (Key.text.inj hkey)
    rw [if_neg hkey, h other others hget]

/-- A property that holds of a view with a document in its place holds after the document has taken
it in a session over an inverted view. -/
theorem takes_replace_inverted {P Q fail : View → Prop} {written : OrderedMap String Fields}
    (hid : id.IsPlain) {fields : Fields} (hvalid : setup.schema.validate fields = .ok ())
    (hnumbers : ∀ x, Value.number x ∈ fields.values → x.isFinite = true →
      (Value.number x).ReadsBack)
    (hP : ∀ view, P view → view.Inverted setup ∧ Agrees setup written view)
    (hQ : ∀ view view', P view → view'.docs = view.docs.put (setup.document id fields) →
      view'.Inverted setup → Q view') :
    Takes setup P (Engine.replace written id fields)
      (fun _ view => Q view ∧ Agrees setup (written.insert id.text fields) view) fail := by
  intro store view hruns hview
  obtain ⟨hinv, hwritten⟩ := hP view hview
  obtain ⟨previous, store', hprevious, hrun, hruns'⟩ :=
    hruns.replace hinv.readable hid hvalid written
  have hinv' := hinv.replaced (hruns.recalls hinv.storable hwritten hprevious) hvalid hnumbers
  exact .inl ⟨(), store', _, hrun, hruns', hQ view _ hview rfl hinv', hwritten.put rfl⟩

/-- The files of a store invert its documents. Every id and every term stand at most once in their
files, every posting lists some ids, and none twice. An id is listed under a term of a field that is
indexed and stored iff the document that is stored under the id has a value with this term. -/
def Inverted (store : Store) : Prop :=
  ∃ documents, store.docs.listed = .ok documents ∧
    documents.Pairwise (fun a b => a.id ≠ b.id) ∧
    ∀ field ∈ store.schema.indexedFields, ∃ file postings,
      store.indexes.get? field.name = some file ∧ file.listed = .ok postings ∧
      postings.Pairwise (fun a b => a.key ≠ b.key) ∧ (∀ posting ∈ postings, posting.Proper) ∧
      (field.flags.stored = true → ∀ term (id : DocId),
        (∃ posting ∈ postings, posting.key = term ∧ id ∈ posting.list.ids) ↔
          ∃ document ∈ documents, document.id = id.text ∧
            ∃ value, document.fields.get? field.name = some value ∧
              term ∈ store.fieldTerms field value)

variable {setup : Setup} {store : Store} {view : View} {status : Status}

/-- The files of a store that stands for an inverted view.

**Proof sketch.** The files are read in full: that of the documents has the records of the view, and
those of the fields have the postings of its lists. The view is inverted, so these are the terms of
the documents. -/
theorem Rests.inverted (h : store.Rests setup status view) (hinv : view.Inverted setup) :
    store.Inverted := by
  refine ⟨view.docs.records, h.files.docs.1.listed fun document hdocument =>
    StoredDocument.readsBack (hinv.storable document hdocument), ?_, fun field hfield => ?_⟩
  · exact view.docs.pairwise_key_ne.imp fun hne heq => hne (congrArg Key.text heq)
  · rw [h.files.schema_eq] at hfield
    obtain ⟨file, postings, hget, hlisted, hpairwise, -⟩ := h.files.listed hfield
    refine ⟨file, postings, hget, hlisted, hpairwise,
      fun _ hposting => h.files.proper hfield hget hlisted hposting, fun hstored term id => ?_⟩
    rw [h.files.mem_postings_iff hfield hget hlisted, hinv.mem_iff field hfield hstored,
      h.files.fieldTerms_eq]
    constructor
    · rintro ⟨document, value, hdocument, hvalue, hterm⟩
      obtain ⟨hmem', hkey⟩ := Table.get?_eq_some_iff.1 hdocument
      exact ⟨document, hmem', Key.text.inj hkey, value, hvalue, hterm⟩
    · rintro ⟨document, hdocument, hid, value, hvalue, hterm⟩
      exact ⟨document, value, Table.get?_eq_some_iff.2 ⟨hdocument, congrArg Key.text hid⟩,
        hvalue, hterm⟩

end Store

/-! ## Uses of an engine -/

namespace Engine

/-- What is done to an engine. -/
inductive Use
  | add (fields : Fields)
  | addWithId (text : String) (fields : Fields)
  | flush
  | truncate
  | reopen

/-- An engine after it is used, whatever came of it. It is reopened with the same setup. -/
def Use.apply (setup : Store.Setup) : Use → Engine → Engine
  | add fields => after (Engine.add fields)
  | addWithId text fields => after (Engine.addWithId text fields)
  | flush => after Engine.flush
  | truncate => after Engine.truncate
  | reopen => after (Engine.reopen fun directory => .ok (setup.store directory))

/-- An engine after it is used several times. -/
def useAll (setup : Store.Setup) (engine : Engine) (uses : List Use) : Engine :=
  uses.foldl (fun engine use => use.apply setup engine) engine

/-- The finite numbers of a document are read back as they are written. -/
def NumbersReadBack (fields : Fields) : Prop :=
  ∀ x, Value.number x ∈ fields.values → x.isFinite = true → (Value.number x).ReadsBack

instance (fields : Fields) : Decidable (NumbersReadBack fields) :=
  decidable_of_iff (∀ value ∈ fields.values,
      (match value with | .number x => x.isFinite | _ => false) = true → value.ReadsBack) <| by
    constructor
    · exact fun h x hx hfinite => h _ hx hfinite
    · rintro h (text | x | b) hvalue hfinite
      · cases hfinite
      · exact h x hvalue hfinite
      · cases hfinite

/-- The finite numbers of a document that comes in are read back. -/
def Use.NumbersReadBack : Use → Prop
  | add fields | addWithId _ fields => Engine.NumbersReadBack fields
  | flush | truncate | reopen => True

instance : DecidablePred Use.NumbersReadBack
  | .add fields | .addWithId _ fields => inferInstanceAs (Decidable (NumbersReadBack fields))
  | .flush | .truncate | .reopen => instDecidableTrue

variable {setup : Store.Setup} {engine : Engine}

/-- An engine whose index is inverted, and remains so when the documents that wait are flushed. -/
structure Inverts (engine : Engine) (setup : Store.Setup) : Prop where
  stands : engine.Stands setup .made none fun view => view.Inverted setup
  numbers : ∀ waiting ∈ engine.pending, NumbersReadBack waiting.fields

/-- A batch of valid documents keeps the index inverted. -/
lemma takes_writeBatch_inverted {batch : List Pending}
    (hplain : ∀ waiting ∈ batch, waiting.id.IsPlain)
    (hvalid : ∀ waiting ∈ batch, setup.schema.validate waiting.fields = .ok ())
    (hnumbers : ∀ waiting ∈ batch, NumbersReadBack waiting.fields) :
    Store.Takes setup (fun view => view.Inverted setup) (writeBatch ∅ batch)
      (fun _ view => view.Inverted setup) fun view => view.Inverted setup := by
  have hbatch := @Store.Takes.writeBatch setup
    (fun written view => view.Inverted setup ∧ Store.Agrees setup written view)
    (fun view => view.Inverted setup) (fun written view h => h.1) batch
    (fun written id hid waiting hwaiting => Store.takes_replace_inverted hid
      (hvalid waiting hwaiting) (hnumbers waiting hwaiting) (fun _ h => h)
      fun _ _ _ _ hinv => hinv) hplain ∅
  refine hbatch.of_imp fun view hinv => ⟨hinv, fun id fields hget => ?_⟩
  rw [OrderedMap.get?_empty] at hget
  cases hget

/-- What every batch of valid documents keeps, and holds of an empty view, every use of an engine
keeps. -/
theorem Stands.use {P : Store.View → Prop} (h : engine.Stands setup .made none P)
    (hempty : P Store.View.empty)
    (hbatch : (∀ waiting ∈ engine.pending, setup.schema.validate waiting.fields = .ok ()) →
      Store.Takes setup P (writeBatch ∅ engine.pending) (fun _ => P) P) (use : Use) :
    (use.apply setup engine).Stands setup .made none P := by
  cases use with
  | add fields => exact h.add fields
  | addWithId text fields => exact h.addWithId text fields
  | flush => exact h.flush hbatch
  | truncate => exact h.truncate hempty
  | reopen =>
    obtain ⟨engine', hrun, hstands, -⟩ := h.reopen
    have hafter : Use.reopen.apply setup engine = engine' := after_ok hrun
    rwa [hafter]

/-- The documents that wait after a use did so before, or come in by it.

**Proof sketch.** By the kinds of uses: at most one document more waits, which has just come in, or
none waits any longer. -/
lemma Stands.numbers_use {P : Store.View → Prop} (h : engine.Stands setup .made none P)
    (hold : ∀ waiting ∈ engine.pending, NumbersReadBack waiting.fields) {use : Use}
    (hnumbers : use.NumbersReadBack) :
    ∀ waiting ∈ (use.apply setup engine).pending, NumbersReadBack waiting.fields := by
  have hextra : ∀ {fields : Fields} {extra : List Pending}, NumbersReadBack fields →
      (∀ waiting ∈ extra, waiting.fields = fields) →
        ∀ waiting ∈ engine.pending ++ extra, NumbersReadBack waiting.fields := by
    intro fields extra hfields hextra waiting hwaiting
    rcases List.mem_append.1 hwaiting with hwaiting | hwaiting
    · exact hold waiting hwaiting
    · rw [hextra waiting hwaiting]
      exact hfields
  cases use with
  | add fields =>
    obtain ⟨extra, hafter, hfields⟩ := after_add fields engine
    rw [Use.apply, hafter]
    exact hextra hnumbers fun waiting hwaiting => (hfields waiting hwaiting).1
  | addWithId text fields =>
    obtain ⟨extra, hafter, hfields⟩ := after_addWithId text fields engine
    rw [Use.apply, hafter]
    exact hextra hnumbers fun waiting hwaiting => (hfields waiting hwaiting).1
  | flush =>
    rw [Use.apply]
    rcases after_flush engine with ⟨hafter, -⟩ | hafter
    · rwa [hafter]
    · rw [hafter]
      exact List.forall_mem_nil _
  | truncate =>
    rw [Use.apply, after_truncate]
    exact List.forall_mem_nil _
  | reopen =>
    obtain ⟨engine', hrun, -, hpending⟩ := h.reopen
    have hafter : Use.reopen.apply setup engine = engine' := after_ok hrun
    rw [hafter, hpending]
    exact List.forall_mem_nil _

/-- Whatever is done to an engine, its index stays inverted. -/
theorem Inverts.use (h : engine.Inverts setup) {use : Use} (hnumbers : use.NumbersReadBack) :
    (use.apply setup engine).Inverts setup where
  stands := h.stands.use (Store.View.inverted_empty setup)
    (fun hvalid => takes_writeBatch_inverted h.stands.plain hvalid h.numbers) use
  numbers := h.stands.numbers_use h.numbers hnumbers

/-- However often it is used, its index stays inverted. -/
theorem Inverts.useAll (h : engine.Inverts setup) {uses : List Use}
    (hnumbers : ∀ use ∈ uses, use.NumbersReadBack) : (useAll setup engine uses).Inverts setup := by
  induction uses generalizing engine with
  | nil => exact h
  | cons use uses ih =>
    exact ih (h.use (hnumbers use List.mem_cons_self))
      fun other hother => hnumbers other (List.mem_cons_of_mem _ hother)

/-- **The index inverts the documents.** However an engine is used that starts with an empty
directory, an id is listed under a term of a field that is indexed and stored iff the document that
is stored under the id has a value with this term. -/
theorem inverted_of_uses (setup : Store.Setup) (scoring : Scoring)
    (hstart : (start (setup.store ∅) scoring).1 = .ok engine) {uses : List Use}
    (hnumbers : ∀ use ∈ uses, use.NumbersReadBack) : (useAll setup engine uses).store.Inverted := by
  obtain ⟨hstands, hpending⟩ := @stands_start setup (fun view => view.Inverted setup) engine scoring
    hstart (Store.View.inverted_empty setup)
  have hengine : engine.Inverts setup :=
    ⟨hstands, fun waiting hwaiting => by rw [hpending] at hwaiting; cases hwaiting⟩
  obtain ⟨view, ⟨-, hrests⟩ | ⟨himpossible, -⟩, hinv⟩ :=
    (hengine.useAll hnumbers).stands.store.stands
  · exact hrests.inverted hinv
  · cases himpossible

/-- Pets have a name, a tag that no two of them share, and an age. -/
def petSchema : Schema where
  name := "pets"
  fields := [⟨"name", { stored := true, indexed := true }⟩,
    ⟨"tag", { stored := true, indexed := true, unique := true }⟩, ⟨"age", { stored := true }⟩]

/-- The schema of the example is one that can be built. -/
lemma petSchema_built : petSchema.Built :=
  @Schema.Built.addField _ _ "age" { stored := true }
    (@Schema.Built.addField _ _ "tag" { stored := true, indexed := true, unique := true }
      (@Schema.Built.addField _ _ "name" { stored := true, indexed := true }
        (.start "pets" "standard") rfl) rfl) rfl

/-- The pets of the example are kept with the default settings. -/
def petSetup : Store.Setup := ⟨petSchema, {}, .standard, petSchema_built⟩

/-- One and a half. -/
def halfPastOne : Double := ⟨0x3ff8000000000000⟩

/-- A pet comes in, is replaced by another one with its tag, and the engine is reopened. -/
def petUses : List Use :=
  [.add (.ofList [("name", .text "Tom"), ("tag", .text "7"), ("age", .number halfPastOne)]),
    .flush, .addWithId "kit" (.ofList [("name", .text "Kit"), ("tag", .text "7")]), .flush, .reopen]

/-- The index after these uses inverts the pets. -/
theorem inverted_of_uses_pets : ∃ engine, (start (petSetup.store ∅) {}).1 = .ok engine ∧
    (useAll petSetup engine petUses).store.Inverted := by
  refine ⟨_, rfl, inverted_of_uses petSetup {} rfl fun use huse => ?_⟩
  have hhalf : (Value.number halfPastOne).ReadsBack := by
    unfold Value.ReadsBack
    decide +kernel
  simp only [petUses, List.mem_cons, List.not_mem_nil, or_false] at huse
  rcases huse with rfl | rfl | rfl | rfl | rfl
  · intro x hx _
    have hvalues : (OrderedMap.ofList [("name", Value.text "Tom"), ("tag", .text "7"),
        ("age", .number halfPastOne)]).values =
          [.number halfPastOne, .text "Tom", .text "7"] := rfl
    rw [hvalues] at hx
    have hx : x = halfPastOne := by simpa using hx
    rw [hx]
    exact hhalf
  · trivial
  · intro x hx _
    have hvalues : (OrderedMap.ofList [("name", Value.text "Kit"), ("tag", .text "7")]).values =
        [.text "Kit", .text "7"] := rfl
    rw [hvalues] at hx
    simp at hx
  · trivial
  · trivial

end Engine

end Concordance
