import Concordance.Proofs.OrderedMaps
import Concordance.Schema

set_option relaxedAutoImplicit false
set_option autoImplicit false

/-!
# Schemas that are built field by field

## Main definitions

* `Concordance.Schema.Built` — the schemas that fields can be added up to.
* `Concordance.Schema.Rejects` — a document does not fit.

## Main results

* `Concordance.Schema.Built.eq_of_name_eq` — the names of the fields are distinct.
* `Concordance.Schema.Built.name_ne_id` — no field takes the name of the id.
* `Concordance.Schema.Built.get?_stored` — what is kept of a document.
* `Concordance.Schema.validate_eq_ok_iff` — a document is valid unless it is to be rejected.
-/

namespace Concordance.Schema

/-- The schemas that start without fields and get one field after the other. -/
inductive Built : Schema → Prop
  | start (name analyzer : String) : Built { name, analyzer }
  | addField {schema schema' : Schema} {name : String} {flags : Flags} (built : Built schema)
      (added : schema.addField name flags = .ok schema') : Built schema'

variable {schema schema' : Schema}

/-- A field is added under a new name. -/
lemma fields_of_addField {name : String} {flags : Flags}
    (h : schema.addField name flags = .ok schema') :
    schema'.fields = schema.fields ++ [⟨name, flags⟩] ∧ name ≠ "id" ∧
      ∀ field ∈ schema.fields, field.name ≠ name := by
  unfold addField at h
  split at h
  · cases h
  · next hid =>
    split at h
    · cases h
    · next hname =>
      cases h
      rw [not_or] at hname
      refine ⟨rfl, hid, fun field hfield heq => hname.2 ?_⟩
      exact List.find?_isSome.2 ⟨field, hfield, by simpa using heq⟩

namespace Built

/-- The names of the fields are distinct. -/
lemma pairwise (h : schema.Built) : schema.fields.Pairwise fun a b => a.name ≠ b.name := by
  induction h with
  | start name analyzer => exact List.Pairwise.nil
  | addField built added ih =>
    obtain ⟨hfields, -, hnew⟩ := fields_of_addField added
    rw [hfields]
    refine List.pairwise_append.2 ⟨ih, List.pairwise_singleton _ _, fun a ha b hb => ?_⟩
    rw [List.mem_singleton.1 hb]
    exact hnew a ha

/-- Fields with one name are one field. -/
theorem eq_of_name_eq (h : schema.Built) {a b : Field} (ha : a ∈ schema.fields)
    (hb : b ∈ schema.fields) (heq : a.name = b.name) : a = b := by
  have hnodup : (schema.fields.map Field.name).Nodup := List.pairwise_map.2 h.pairwise
  exact List.inj_on_of_nodup_map hnodup ha hb heq

/-- No field takes the name of the id. -/
theorem name_ne_id (h : schema.Built) {field : Field} (hfield : field ∈ schema.fields) :
    field.name ≠ "id" := by
  induction h with
  | start name analyzer => cases hfield
  | addField built added ih =>
    obtain ⟨hfields, hid, -⟩ := fields_of_addField added
    rw [hfields, List.mem_append, List.mem_singleton] at hfield
    rcases hfield with hfield | rfl
    · exact ih hfield
    · exact hid

/-- Looking up the name of a field finds the field. -/
lemma field?_name (h : schema.Built) {field : Field} (hfield : field ∈ schema.fields) :
    schema.field? field.name = some field := by
  have hsome : (schema.field? field.name).isSome :=
    List.find?_isSome.2 ⟨field, hfield, by simp⟩
  obtain ⟨found, hfound⟩ := Option.isSome_iff_exists.1 hsome
  have hname : found.name = field.name := by simpa using List.find?_some hfound
  rw [hfound, h.eq_of_name_eq (List.mem_of_find?_eq_some hfound) hfield hname]

/-- What is kept of a document is what its fields that are stored hold.

**Proof sketch.** The fields that are stored have different names, so what is kept of the document
has one entry for each of them that has a value. -/
theorem get?_stored_eq_some_iff (h : schema.Built) {fields : Fields} {name : String}
    {value : Value} : (schema.stored fields).get? name = some value ↔
      (∃ field ∈ schema.fields, field.flags.stored = true ∧ field.name = name) ∧
        fields.get? name = some value := by
  have hnodup : (((schema.fields.filter fun field => field.flags.stored).filterMap fun field =>
      (fields.get? field.name).map fun value => (field.name, value)).map Prod.fst).Nodup := by
    refine List.pairwise_map.2 (List.pairwise_filterMap.2 ?_)
    refine (h.pairwise.sublist List.filter_sublist).imp ?_
    intro a b hne entry hentry other hother
    obtain ⟨_, -, rfl⟩ := Option.map_eq_some_iff.1 hentry
    obtain ⟨_, -, rfl⟩ := Option.map_eq_some_iff.1 hother
    exact hne
  unfold stored
  rw [OrderedMap.get?_ofList hnodup, List.mem_filterMap]
  constructor
  · rintro ⟨field, hfield, hentry⟩
    obtain ⟨other, hget, heq⟩ := Option.map_eq_some_iff.1 hentry
    obtain ⟨rfl, rfl⟩ := Prod.mk.inj heq
    obtain ⟨hmem, hstored⟩ := List.mem_filter.1 hfield
    exact ⟨⟨field, hmem, hstored, rfl⟩, hget⟩
  · rintro ⟨⟨field, hfield, hstored, rfl⟩, hget⟩
    exact ⟨field, List.mem_filter.2 ⟨hfield, hstored⟩, by rw [hget, Option.map_some]⟩

/-- A field that is stored is kept as it is. -/
lemma get?_stored (h : schema.Built) {field : Field} (hfield : field ∈ schema.fields)
    (hstored : field.flags.stored = true) (fields : Fields) :
    (schema.stored fields).get? field.name = fields.get? field.name := by
  ext value
  rw [h.get?_stored_eq_some_iff]
  exact and_iff_right ⟨field, hfield, hstored, rfl⟩

/-- The values that are kept of a document are values of it. -/
lemma mem_values_of_mem_stored (h : schema.Built) {fields : Fields} {value : Value}
    (hvalue : value ∈ (schema.stored fields).values) : value ∈ fields.values := by
  obtain ⟨⟨name, _⟩, hentry, rfl⟩ := List.mem_map.1 hvalue
  have hget := (h.get?_stored_eq_some_iff.1 (OrderedMap.get?_eq_some_iff.2 hentry)).2
  exact List.mem_map.2 ⟨_, OrderedMap.get?_eq_some_iff.1 hget, rfl⟩

end Built

/-! ## Validation -/

/-- A document does not fit: it lacks a required field or holds a number that is not finite. -/
def Rejects (schema : Schema) (fields : Fields) : Prop :=
  (∃ field ∈ schema.fields, field.flags.required = true ∧ fields.get? field.name = none) ∨
    ∃ name x, fields.get? name = some (.number x) ∧ x.isFinite = false

/-- No number is found that is not finite unless there is one.

**Proof sketch.** A number that is not finite is found in the entries iff some name has it for its
value. -/
lemma nonFinite?_eq_none_iff {fields : Fields} :
    nonFinite? fields = none ↔
      ¬ ∃ name x, fields.get? name = some (.number x) ∧ x.isFinite = false := by
  unfold nonFinite?
  rw [List.findSome?_eq_none_iff]
  constructor
  · rintro h ⟨name, x, hget, hx⟩
    have hnone := h (name, .number x) (OrderedMap.get?_eq_some_iff.1 hget)
    simp [hx] at hnone
  · rintro h ⟨name, value⟩ hentry
    cases value with
    | number x =>
      have hget := OrderedMap.get?_eq_some_iff.2 hentry
      have hfinite : x.isFinite = true := by
        by_contra hx
        exact h ⟨name, x, hget, by simpa using hx⟩
      simp [hfinite]
    | text _ => rfl
    | boolean _ => rfl

/-- No required field is found missing unless there is one without a value. -/
lemma missing?_eq_none_iff {fields : Fields} : schema.missing? fields = none ↔
    ¬ ∃ field ∈ schema.fields, field.flags.required = true ∧ fields.get? field.name = none := by
  simp [missing?, OrderedMap.contains]

/-- **A document is valid unless it is to be rejected.** -/
theorem validate_eq_ok_iff {fields : Fields} :
    schema.validate fields = .ok () ↔ ¬ schema.Rejects fields := by
  unfold Rejects
  rw [not_or, ← missing?_eq_none_iff, ← nonFinite?_eq_none_iff]
  unfold validate
  cases nonFinite? fields with
  | some _ => simp
  | none =>
    cases schema.missing? fields with
    | some _ => simp
    | none => simp

/-- Fields that a schema rejects are not valid. -/
lemma exists_of_rejects {fields : Fields} (h : schema.Rejects fields) :
    ∃ e, schema.validate fields = .error e := by
  cases hrun : schema.validate fields with
  | error e => exact ⟨e, rfl⟩
  | ok _ => exact absurd h (validate_eq_ok_iff.1 hrun)

/-- The error of a document that does not fit. -/
lemma kind_of_validate {fields : Fields} {e : Error} (h : schema.validate fields = .error e) :
    e.kind = .validation := by
  unfold validate at h
  split at h
  · cases h
    rfl
  · split at h
    · cases h
      rfl
    · cases h

/-- Valid documents have finite numbers. -/
theorem isFinite_of_validate {fields : Fields} (h : schema.validate fields = .ok ()) {x : Double}
    (hx : Value.number x ∈ fields.values) : x.isFinite = true := by
  obtain ⟨⟨name, value⟩, hentry, hvalue⟩ := List.mem_map.1 hx
  obtain rfl : value = .number x := hvalue
  by_contra hfinite
  exact validate_eq_ok_iff.1 h
    (.inr ⟨name, x, OrderedMap.get?_eq_some_iff.2 hentry, by simpa using hfinite⟩)

/-- The indexed fields of a schema are those with this flag. -/
lemma mem_indexedFields {field : Field} :
    field ∈ schema.indexedFields ↔ field ∈ schema.fields ∧ field.flags.indexed = true := by
  simp [indexedFields]

end Concordance.Schema
