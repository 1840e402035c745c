import Concordance.Proofs.DocIds
import Concordance.Proofs.Engine.Replacing

set_option relaxedAutoImplicit false
set_option autoImplicit false

/-!
# Free ids

The id of a sequence number is read back as the number, so counting up from one id to the next
visits the ids of numbers in a row. All of them differ, and there are more tries than documents: one
of them is free.

## Main results

* `Concordance.Engine.freeId_ok` — the next free id is found, and is the first without a document.
-/

namespace Concordance

-- Powers are those of the core library, as in the definition of ids.
attribute [local instance (high)] instPowNat

namespace Engine

variable {setup : Store.Setup} {store : Store} {view : Store.View} {mode : Mode}

/-! ## Counting up -/

/-- Counting up ends at the first id without a document, unless it runs out of tries before.

**Proof sketch.** Induction on the tries. If the first id has a document, the number of the next one
is one more, since ids are read as 64 bits; the ids that are passed over are the first one and those
passed over from there. -/
lemma freeFrom_ok (h : store.Runs setup mode view) (hread : view.Readable) {fuel n : Nat}
    (hn : n + fuel ≤ 2 ^ 64) :
    ∃ k, freeFrom store fuel (.ofSequence n) = .ok (.ofSequence (n + k)) ∧
      (∀ i < k, (view.docs.get? (.text (DocId.ofSequence (n + i)).text)).isSome) ∧
      (view.docs.get? (.text (DocId.ofSequence (n + k)).text) = none ∨ k = fuel) := by
  induction fuel generalizing n with
  | zero => exact ⟨0, rfl, fun i hi => absurd hi (Nat.not_lt_zero i), .inr rfl⟩
  | succ fuel ih =>
    rw [freeFrom, h.fetch hread]
    cases hfetched : view.fetched (.ofSequence n) with
    | none =>
      exact ⟨0, rfl, fun i hi => absurd hi (Nat.not_lt_zero i),
        .inl ((Store.View.fetched_eq_none_iff hread).1 hfetched)⟩
    | some fields =>
      have hget : (view.docs.get? (.text (DocId.ofSequence n).text)).isSome := by
        rw [Option.isSome_iff_ne_none, ne_eq, ← Store.View.fetched_eq_none_iff hread, hfetched]
        exact Option.some_ne_none fields
      obtain ⟨k, hrun, htaken, hend⟩ := @ih (n + 1) (by omega)
      have hsum : n + 1 + k = n + (k + 1) := by omega
      refine ⟨k + 1, ?_, fun i hi => ?_, ?_⟩
      · simp only [Option.map_some, bind, Except.bind,
          DocId.sequence?_ofSequence (by omega : n < 2 ^ 64), Option.getD_some]
        rw [hrun, hsum]
      · cases i with
        | zero => exact hget
        | succ i =>
          rw [← Nat.add_assoc, Nat.add_right_comm]
          exact htaken i (by omega)
      · rw [← hsum]
        exact hend.imp_right fun hk => congrArg Nat.succ hk

/-- A table does not hold more documents under the ids of numbers in a row than it has records.

**Proof sketch.** The numbers in a row have different ids, and each of these is that of a record. So
they are no more than the records. -/
lemma le_size_of_isSome {docs : Table StoredDocument} {n count : Nat} (hn : n + count ≤ 2 ^ 64)
    (hall : ∀ i < count, (docs.get? (.text (DocId.ofSequence (n + i)).text)).isSome) :
    count ≤ docs.size := by
  have hnodup : ((List.range count).map fun i => DocId.ofSequence (n + i)).Nodup := by
    refine List.Nodup.map_on (fun i hi j hj heq => ?_) List.nodup_range
    rw [List.mem_range] at hi hj
    have := DocId.ofSequence_inj (by omega) (by omega) heq
    omega
  have hsubset : ((List.range count).map fun i => DocId.ofSequence (n + i)) ⊆
      docs.records.map fun document => (⟨document.id⟩ : DocId) := by
    intro id hid
    obtain ⟨i, hi, rfl⟩ := List.mem_map.1 hid
    obtain ⟨document, hdocument⟩ := Option.isSome_iff_exists.1 (hall i (List.mem_range.1 hi))
    obtain ⟨hmem, hkey⟩ := Table.get?_eq_some_iff.1 hdocument
    exact List.mem_map.2 ⟨document, hmem, congrArg DocId.mk (Key.text.inj hkey)⟩
  have hlength := (hnodup.subperm hsubset).length_le
  rwa [List.length_map, List.length_map, List.length_range] at hlength

/-- **The next free id** is the first one without a document, counting up. It is found, since there
are more tries than documents. -/
theorem freeId_ok (h : store.Runs setup mode view) (hread : view.Readable) {n : Nat}
    (hn : n + (view.docs.size + 1) ≤ 2 ^ 64) :
    ∃ k, freeId store (.ofSequence n) = .ok (.ofSequence (n + k)) ∧
      (∀ i < k, (view.docs.get? (.text (DocId.ofSequence (n + i)).text)).isSome) ∧
      view.docs.get? (.text (DocId.ofSequence (n + k)).text) = none := by
  obtain ⟨saved, hfiles, -, -⟩ := h.files
  obtain ⟨k, hrun, htaken, hend⟩ := freeFrom_ok h hread hn
  refine ⟨k, ?_, htaken, hend.resolve_right fun hk => ?_⟩
  · rw [freeId, hfiles.docs.1.total]
    exact hrun
  · have := le_size_of_isSome hn (hk ▸ htaken)
    omega

/-- An id that is found to be free has no document. -/
theorem get?_of_freeId (h : store.Runs setup mode view) (hread : view.Readable) {n : Nat}
    (hn : n + (view.docs.size + 1) ≤ 2 ^ 64) {id : DocId}
    (hrun : freeId store (.ofSequence n) = .ok id) :
    view.docs.get? (.text id.text) = none := by
  obtain ⟨k, hfree, -, hnone⟩ := freeId_ok h hread hn
  cases hrun.symm.trans hfree
  exact hnone

end Engine

end Concordance
