import Concordance.Proofs.Engine.Batches

set_option relaxedAutoImplicit false
set_option autoImplicit false

/-!
# Rejections

A batch is validated before the session for it starts. If some document of it does not fit the
schema, the flush fails with the error of the first such document, and nothing is written: no
session has been started, and the files are as they were. The batch is dropped, though. If all
documents fit, nothing can go wrong any more.

## Main results

* `Concordance.Engine.exists_of_validateAll` — where the validation of a batch fails.
* `Concordance.Engine.Stands.flush_error` — a flush of documents of which one is not valid.
* `Concordance.Engine.rejected_of_flush` — when a flush fails, and what it leaves then.
-/

namespace Concordance.Engine

open Operation

variable {setup : Store.Setup} {engine : Engine} {P : Store.View → Prop}

/-! ## Batches that are not valid -/

/-- The validation of a batch fails at the first document that does not fit.

**Proof sketch.** Induction on the batch: the first document is rejected, or validated and the
rejected one is among the others. -/
lemma exists_of_validateAll {schema : Schema} {batch : List Pending} {waiting : Pending}
    (hwaiting : waiting ∈ batch) (hrejects : schema.Rejects waiting.fields) :
    ∃ e before first behind, validateAll schema batch = .error e ∧
      batch = before ++ first :: behind ∧ (∀ other ∈ before, ¬ schema.Rejects other.fields) ∧
      schema.Rejects first.fields ∧ schema.validate first.fields = .error e := by
  induction batch with
  | nil => cases hwaiting
  | cons first batch ih =>
    have hstep : validateAll schema (first :: batch) =
        schema.validate first.fields >>= fun _ => validateAll schema batch := rfl
    rw [hstep]
    by_cases hfirst : schema.Rejects first.fields
    · obtain ⟨e, hrun⟩ := Schema.exists_of_rejects hfirst
      rw [hrun]
      exact ⟨e, [], first, batch, rfl, rfl, List.forall_mem_nil _, hfirst, hrun⟩
    · have hbehind : waiting ∈ batch := by
        rcases List.mem_cons.1 hwaiting with rfl | hbehind
        · exact absurd hrejects hfirst
        · exact hbehind
      obtain ⟨e, before, other, behind, hrun, rfl, hbefore, hother⟩ := ih hbehind
      rw [Schema.validate_eq_ok_iff.2 hfirst]
      exact ⟨e, first :: before, other, behind, hrun, rfl,
        List.forall_mem_cons.2 ⟨hfirst, hbefore⟩, hother⟩

/-- A flush of a batch that is not valid drops the batch and does nothing else. -/
lemma Stands.flush_error (h : engine.Stands setup .made none P) {e : Error}
    (hinvalid : validateAll setup.schema engine.pending = .error e) :
    Engine.flush engine = .error e { engine with pending := [] } ∧ engine.store.session = none := by
  obtain ⟨view, hrests, -⟩ := h.store.exists_rests
  refine ⟨?_, hrests.session_eq⟩
  rcases flush_eq engine with ⟨-, hempty⟩ | hflush
  · rw [hempty] at hinvalid
    cases hinvalid
  · have hlook : validateAll engine.store.schema engine.pending = .error e := by
      rwa [hrests.files.schema_eq]
    have hwrite : writeAll engine.pending engine.store = .error e engine.store :=
      bind_error (Store.look_error hlook) _
    rw [hflush]
    simp only [Engine.onStore, hwrite]

/-! ## Flushes -/

/-- **A flush fails iff it rejects a document.** An engine starts with an empty directory and
performs some tasks. A flush then fails iff some document that waits lacks a required field or holds
a number that is not finite, and succeeds otherwise. When it fails, the error is that of validating
the first such document, in the order in which they were added. The files are as before, no session
is open, and no document waits any more.

**Proof sketch.** If all documents are valid, the flush succeeds, since each step of it does in a
session over documents that can be read. If one is not, the validation of the batch fails, with
which the flush begins. -/
theorem rejected_of_flush (setup : Store.Setup) (scoring : Scoring)
    (hstart : (start (setup.store ∅) scoring).1 = .ok engine) (tasks : List Task) :
    let engine₀ := perform setup engine tasks
    ((∃ e engine', flush engine₀ = .error e engine') ↔
      ∃ waiting ∈ engine₀.pending, setup.schema.Rejects waiting.fields) ∧
    ((∀ waiting ∈ engine₀.pending, ¬ setup.schema.Rejects waiting.fields) →
      ∃ ids engine', flush engine₀ = .ok ids engine') ∧
    ∀ e engine', flush engine₀ = .error e engine' →
      (∃ before first behind, engine₀.pending = before ++ first :: behind ∧
        (∀ other ∈ before, ¬ setup.schema.Rejects other.fields) ∧
        setup.schema.Rejects first.fields ∧ setup.schema.validate first.fields = .error e) ∧
      e.kind = .validation ∧ engine'.store.directory = engine₀.store.directory ∧
      engine'.store.session = none ∧ engine'.pending = [] := by
  intro engine₀
  obtain ⟨n, hwaits⟩ := exists_waits hstart tasks
  change engine₀.Waits setup n at hwaits
  by_cases hrejects : ∃ waiting ∈ engine₀.pending, setup.schema.Rejects waiting.fields
  · have ⟨waiting, hwaiting, hwrong⟩ := hrejects
    obtain ⟨e, before, first, behind, hinvalid, hbatch, hbefore, hfirst, hvalidate⟩ :=
      exists_of_validateAll hwaiting hwrong
    obtain ⟨hflush, hsession⟩ := hwaits.stands.flush_error hinvalid
    refine ⟨iff_of_true ⟨e, _, hflush⟩ hrejects,
      fun hvalid => absurd hwrong (hvalid waiting hwaiting), fun e' engine' hrun => ?_⟩
    cases hflush.symm.trans hrun
    exact ⟨⟨before, first, behind, hbatch, hbefore, hfirst, hvalidate⟩,
      Schema.kind_of_validate hvalidate, rfl, hsession, rfl⟩
  · have hvalid : ∀ waiting ∈ engine₀.pending, setup.schema.validate waiting.fields = .ok () :=
      fun waiting hwaiting =>
        Schema.validate_eq_ok_iff.2 fun hwrong => hrejects ⟨waiting, hwaiting, hwrong⟩
    obtain ⟨_, _, _, _, ids, store', _, _, _, _, _, _, _, _, _, hflush⟩ :=
      hwaits.stands.flush_ok (fun _ => And.left) hvalid
    have hnot : ∀ e engine', flush engine₀ ≠ .error e engine' := fun e engine' hrun => by
      cases hflush.symm.trans hrun
    exact ⟨iff_of_false (fun ⟨e, engine', hrun⟩ => hnot e engine' hrun) hrejects,
      fun _ => ⟨ids, _, hflush⟩, fun e engine' hrun => absurd hrun (hnot e engine')⟩

/-- Forms have a name, which must be given, and a number. -/
def formSetup : Store.Setup where
  schema := { name := "forms", fields := [⟨"name", { required := true, stored := true }⟩,
    ⟨"number", { stored := true }⟩] }
  config := {}
  analyzer := .standard
  built := @Schema.Built.addField _ _ "number" { stored := true }
    (@Schema.Built.addField _ _ "name" { required := true, stored := true }
      (.start "forms" "standard") rfl) rfl

/-- A form is stored. Then three more wait, of which the second lacks the name and the third holds
an infinite number. -/
def formTasks : List Task :=
  [.use (.add (.ofList [("name", .text "first")])), .use .flush,
    .use (.addWithId "second" (.ofList [("name", .text "second")])),
    .use (.add (.ofList [("number", .boolean true)])),
    .use (.add (.ofList [("name", .text "fourth"), ("number", .number ⟨0x7ff0000000000000⟩)]))]

/-- These forms are rejected. -/
theorem rejected_of_flush_forms : ∃ engine, (start (formSetup.store ∅) {}).1 = .ok engine ∧
    ∃ e engine', flush (perform formSetup engine formTasks) = .error e engine' ∧
      e.kind = .validation ∧
      engine'.store.directory = (perform formSetup engine formTasks).store.directory ∧
      engine'.store.session = none ∧ engine'.pending = [] := by
  refine ⟨_, rfl, ?_⟩
  obtain ⟨hiff, -, herror⟩ := @rejected_of_flush _ formSetup {} rfl formTasks
  obtain ⟨e, engine', hrun⟩ := hiff.2 <| by
    by_contra hnone
    exact absurd (fun waiting hwaiting => Schema.validate_eq_ok_iff.2 fun hrejects =>
      hnone ⟨waiting, hwaiting, hrejects⟩) (by decide +kernel)
  exact ⟨e, engine', hrun, (herror e engine' hrun).2⟩

end Concordance.Engine
