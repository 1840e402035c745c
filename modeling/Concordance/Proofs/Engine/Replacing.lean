import Concordance.Proofs.Engine.Starting

set_option relaxedAutoImplicit false
set_option autoImplicit false

/-!
# Documents that take a place

A document that is stored takes the place of the one under its id. This one is read to take it from
the index before, unless the same batch has written it. So all that is needed of the documents that
are stored is that they can be read, as those can whose numbers are finite. Valid documents are of
this kind, and nothing else comes in.

## Main definitions

* `Concordance.Store.View.Readable` — all documents of a view can be read.
* `Concordance.Store.View.fetched` — what is read under an id.
* `Concordance.Store.View.without`, `replaced` — a view once a document has taken a place.

## Main results

* `Concordance.Store.Runs.fetch` — what is stored under an id is fetched.
* `Concordance.Store.Runs.replace` — a valid document takes its place.
* `Concordance.Store.takes_writeBatch_readable` — what a batch writes can be read.
-/

namespace Concordance.Store

open Operation

variable {setup : Setup} {store : Store} {view : View} {mode : Mode} {id : DocId}

/-! ## Documents that can be read -/

/-- All documents of a view can be read. -/
def View.Readable (view : View) : Prop := ∀ document ∈ view.docs.records, document.Readable

/-- All documents of an empty view can be read. -/
lemma View.readable_empty : View.empty.Readable :=
  fun _ hdocument => absurd hdocument List.not_mem_nil

/-- The fields that are read under an id. -/
def View.fetched (view : View) (id : DocId) : Option Fields :=
  (view.docs.get? (.text id.text)).bind fun document =>
    (Record.decode? (Record.line document)).map fun found : StoredDocument => found.fields

/-- Fields are read iff there is a document. -/
lemma View.fetched_eq_none_iff (h : view.Readable) :
    view.fetched id = none ↔ view.docs.get? (.text id.text) = none := by
  unfold fetched
  cases hget : view.docs.get? (.text id.text) with
  | none => simp
  | some document =>
    obtain ⟨found, hfound⟩ := (h document (Table.get?_eq_some_iff.1 hget).1).exists_decode?_line
    simp [hfound]

/-- What is read depends on the document alone. -/
lemma View.fetched_congr {view' : View}
    (h : view'.docs.get? (.text id.text) = view.docs.get? (.text id.text)) :
    view'.fetched id = view.fetched id := by
  rw [fetched, h, fetched]

/-- Of a document that is read back unchanged its own fields are read. -/
lemma View.fetched_of_storable (h : ∀ document ∈ view.docs.records, document.Storable)
    (id : DocId) :
    view.fetched id = (view.docs.get? (.text id.text)).map StoredDocument.fields := by
  unfold fetched
  cases hget : view.docs.get? (.text id.text) with
  | none => rfl
  | some document =>
    have hread := StoredDocument.readsBack (h document (Table.get?_eq_some_iff.1 hget).1)
    unfold Record.ReadsBack at hread
    rw [Option.bind_some, hread, Option.map_some]

/-- In a session what is stored under an id is fetched, if all documents can be read. -/
theorem Runs.fetch (h : store.Runs setup mode view) (hread : view.Readable) (id : DocId) :
    store.fetch id = .ok (view.fetched id) := by
  obtain ⟨saved, hfiles, -, -⟩ := h.files
  unfold Store.fetch View.fetched
  rw [hfiles.docs.1.get?]
  cases hget : view.docs.get? (.text id.text) with
  | none => rfl
  | some document =>
    obtain ⟨found, hfound⟩ := (hread document (Table.get?_eq_some_iff.1 hget).1).exists_decode?_line
    have hdecode : RecordFile.decodeLine (Record.line document) = .ok found := by
      rw [RecordFile.decodeLine, hfound]
    rw [Option.mapM_some, hdecode, Option.bind_some, hfound]
    rfl

/-- What is kept of a valid document can be read. -/
lemma readable_document {fields : Fields} (hvalid : setup.schema.validate fields = .ok ())
    (id : DocId) : (setup.document id fields).Readable := by
  refine ⟨?_, fun x hx => ?_⟩
  · cases hget : (setup.document id fields).fields.get? "id" with
    | none => rfl
    | some value =>
      obtain ⟨⟨field, hfield, -, hname⟩, -⟩ := setup.built.get?_stored_eq_some_iff.1 hget
      exact absurd hname (setup.built.name_ne_id hfield)
  · exact Schema.isFinite_of_validate hvalid (setup.built.mem_values_of_mem_stored hx)

/-! ## Taking a place -/

/-- A view without an id under the terms of what a document replaces, if it replaces anything. -/
def View.without (setup : Setup) (id : DocId) (previous : Option Fields) (view : View) : View :=
  match previous with
  | some previous => view.remove setup id previous
  | none => view

/-- A view once a document has taken the place of given fields under an id. -/
def View.replaced (setup : Setup) (id : DocId) (previous : Option Fields) (fields : Fields)
    (view : View) : View :=
  View.save setup id fields
    ⟨view.docs.put (setup.document id fields), (view.without setup id previous).lists⟩

/-- Replacing a document puts it into the table of documents, whatever was known of its predecessor.
-/
lemma View.docs_replaced (id : DocId) (previous : Option Fields) (fields : Fields) (view : View) :
    (view.replaced setup id previous fields).docs = view.docs.put (setup.document id fields) := rfl

/-- The documents of a view can still be read after a valid one has come among them. -/
lemma View.Readable.replaced (h : view.Readable) {fields : Fields}
    (hvalid : setup.schema.validate fields = .ok ()) (previous : Option Fields) :
    (view.replaced setup id previous fields).Readable := by
  intro document hdocument
  rcases Table.mem_put.1 hdocument with rfl | ⟨hold, -⟩
  · exact readable_document hvalid id
  · exact h document hold

/-- **A valid document takes its place** in a session: what it replaces is found and taken from the
index, the document is stored, and its id comes under its terms.

**Proof sketch.** What is written or stored under the id tells what the new document replaces. As
all documents can be read, the one that is stored there is merged with the new one, which means
replaced by it. So each of the three steps succeeds. -/
theorem Runs.replace (h : store.Runs setup .readWrite view) (hread : view.Readable)
    (hid : id.IsPlain) {fields : Fields} (hvalid : setup.schema.validate fields = .ok ())
    (written : OrderedMap String Fields) :
    ∃ previous store', Engine.previous written id store = .ok previous store ∧
      Engine.replace written id fields store = .ok () store' ∧
      store'.Runs setup .readWrite (view.replaced setup id previous fields) := by
  obtain ⟨previous, hprevious⟩ :
      ∃ previous, Engine.previous written id store = .ok previous store := by
    unfold Engine.previous
    cases written.get? id.text with
    | some fields => exact ⟨_, rfl⟩
    | none => exact ⟨_, look_ok (h.fetch hread id)⟩
  have hmerged : view.docs.merged (setup.document id fields) .replace =
      .ok (setup.document id fields) := Table.merged_replace fun existing hget => by
    obtain ⟨found, hfound⟩ :=
      (hread existing (Table.get?_eq_some_iff.1 hget).1).exists_decode?_line
    exact ⟨found, by rw [RecordFile.decodeLine, hfound]⟩
  have hrun : Engine.replace written id fields store =
      Engine.replaceFields id previous fields store := by
    rw [Engine.replace_eq, bind_ok hprevious]
  unfold Engine.replaceFields at hrun
  cases previous with
  | none =>
    obtain ⟨store₁, hsave, h₁⟩ := h.saveDocument hvalid hmerged
    obtain ⟨store₂, hindex, h₂⟩ := h₁.saveIndexes hid fields
    exact ⟨none, store₂, hprevious, hrun.trans ((bind_ok hsave _).trans hindex), h₂⟩
  | some previous =>
    obtain ⟨store₁, hremove, h₁⟩ := h.removeFromIndexes ⟨id, previous⟩
    obtain ⟨store₂, hsave, h₂⟩ := h₁.saveDocument hvalid hmerged
    obtain ⟨store₃, hindex, h₃⟩ := h₂.saveIndexes hid fields
    exact ⟨some previous, store₃, hprevious,
      hrun.trans ((bind_ok hremove _).trans ((bind_ok hsave _).trans hindex)), h₃⟩

/-- What a batch of valid documents writes can be read. -/
theorem takes_writeBatch_readable {batch : List Pending}
    (hplain : ∀ waiting ∈ batch, waiting.id.IsPlain)
    (hvalid : ∀ waiting ∈ batch, setup.schema.validate waiting.fields = .ok ()) :
    Takes setup View.Readable (Engine.writeBatch ∅ batch) (fun _ => View.Readable)
      View.Readable := by
  refine @Takes.writeBatch setup (fun _ => View.Readable) View.Readable (fun _ _ h => h) batch
    (fun written id hid waiting hwaiting => ?_) hplain ∅
  intro store view hruns hread
  obtain ⟨previous, store', -, hrun, hruns'⟩ :=
    hruns.replace hread hid (hvalid waiting hwaiting) written
  exact .inl ⟨(), store', _, hrun, hruns', hread.replaced (hvalid waiting hwaiting) previous⟩

end Concordance.Store
