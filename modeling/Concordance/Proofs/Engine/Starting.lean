import Concordance.Proofs.Engine.Flushing
import Concordance.Proofs.Store.Directories

set_option relaxedAutoImplicit false
set_option autoImplicit false

/-!
# Starting an engine

An engine starts with an empty directory, or takes up what another one has left in its directory.
Its record files are there from then on.

## Main results

* `Concordance.Engine.stands_start` — an engine that starts with an empty directory.
* `Concordance.Engine.Stands.reopen` — an engine that takes up its own directory again.
-/

namespace Concordance.Engine

open Operation

variable {setup : Store.Setup} {P : Store.View → Prop} {engine : Engine}

/-- An engine over an empty directory, before any files are made. -/
lemma stands_empty (setup : Store.Setup) (scoring : Scoring) (hempty : P Store.View.empty) :
    ({ store := setup.store ∅, scoring } : Engine).Stands setup .unknown none P :=
  ⟨setup.rests_empty.stands hempty, fun waiting hwaiting => by cases hwaiting⟩

/-- An engine that starts with an empty directory. -/
theorem stands_start {scoring : Scoring} (hstart : (start (setup.store ∅) scoring).1 = .ok engine)
    (hempty : P Store.View.empty) : engine.Stands setup .made none P ∧ engine.pending = [] := by
  unfold start at hstart
  rcases setup.rests_empty.createFiles with ⟨store, hrun, hrests⟩ | ⟨-, e, store, hrun, -⟩
  · rw [hrun] at hstart
    cases hstart
    exact ⟨⟨hrests.stands hempty, fun waiting hwaiting => by cases hwaiting⟩, rfl⟩
  · rw [hrun] at hstart
    cases hstart

/-- An engine that takes up its own directory again, where all files are there. -/
theorem Stands.reopen (h : engine.Stands setup .made none P) :
    ∃ engine', Engine.reopen (fun directory => .ok (setup.store directory)) engine =
        .ok () engine' ∧ engine'.Stands setup .made none P ∧ engine'.pending = [] := by
  obtain ⟨view, hrests, hP⟩ := h.store.exists_rests
  rcases hrests.renew.createFiles with ⟨store, hrun, hrests'⟩ | ⟨himpossible, -⟩
  · refine ⟨{ store, scoring := engine.scoring }, ?_,
      ⟨hrests'.stands hP, fun waiting hwaiting => by cases hwaiting⟩, rfl⟩
    unfold Engine.reopen start
    simp only [hrun]
  · cases himpossible

end Concordance.Engine
