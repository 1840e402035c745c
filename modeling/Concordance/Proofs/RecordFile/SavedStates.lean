import Concordance.Proofs.Record.Codec
import Concordance.Proofs.RecordFile.Change

set_option relaxedAutoImplicit false
set_option autoImplicit false

/-!
# Files of typo states

The file of typo states stands for a set of states, each of which is listed once.

## Main definitions

* `Concordance.RecordFile.Saves` — a file stands for a set of states.

## Main results

* `Concordance.RecordFile.Saves.insert`, `remove` — what is written into the file.
* `Concordance.RecordFile.Saves.listed` — all states of the file.
-/

namespace Concordance.RecordFile

open Record Operation

/-- A file of typo states stands for a set of states. -/
structure Saves (file : RecordFile TypoState) (name : String) (minWidth : Nat)
    (opened : Option Mode) (saved : Set Nat) : Prop where
  lt : ∀ n ∈ saved, n < 2 ^ 64
  holds : file.HoldsSome name minWidth opened fun table => ∀ n, ⟨n⟩ ∈ table.records ↔ n ∈ saved

variable {file : RecordFile TypoState} {name : String} {minWidth : Nat} {opened : Option Mode}
  {mode : Mode} {saved : Set Nat}

/-- A file without records has no states. -/
lemma Holds.saves_empty (h : file.Holds name minWidth opened ∅) :
    file.Saves name minWidth opened ∅ :=
  ⟨fun n hn => absurd hn (Set.notMem_empty n), ∅, h,
    fun n => iff_of_false List.not_mem_nil (Set.notMem_empty n)⟩

namespace Saves

/-- The states of the file are small enough to be read back. -/
lemma storable {table : Table TypoState} (h : file.Saves name minWidth opened saved)
    (htable : ∀ n, ⟨n⟩ ∈ table.records ↔ n ∈ saved) : ∀ record ∈ table.records, record.Storable :=
  fun record hrecord => h.lt record.state ((htable record.state).1 hrecord)

/-- Storing a state inserts it.

**Proof sketch.** The state becomes a record of the table in place of an equal one, and a record has
the key of a state only if it is that of the state. -/
theorem insert (h : file.Saves name minWidth (some .readWrite) saved) {n : Nat} (hn : n < 2 ^ 64) :
    ∃ file', RecordFile.upsert ⟨n⟩ .replace file = .ok () file' ∧
      file'.Saves name minWidth (some .readWrite) (Insert.insert n saved) := by
  obtain ⟨table, hholds, htable⟩ := h.holds
  have hmerged : table.merged ⟨n⟩ .replace = .ok ⟨n⟩ :=
    Table.merged_replace fun existing hget => ⟨existing, decodeLine_line <|
      TypoState.readsBack (h.storable htable existing (Table.get?_eq_some_iff.1 hget).1)⟩
  obtain ⟨file', hrun, hholds'⟩ := hholds.upsert hmerged rfl
  refine ⟨file', hrun, fun m hm => ?_, _, hholds', fun m => ?_⟩
  · rcases hm with rfl | hm
    · exact hn
    · exact h.lt m hm
  · rw [Table.mem_put, htable, Set.mem_insert_iff]
    have hkey : key (⟨m⟩ : TypoState) ≠ key (⟨n⟩ : TypoState) ↔ m ≠ n := by
      change Key.number m ≠ Key.number n ↔ m ≠ n
      simp
    rw [hkey, TypoState.mk.injEq]
    tauto

/-- Deleting a state removes it. -/
theorem remove (h : file.Saves name minWidth (some .readWrite) saved) (n : Nat) :
    ∃ present file', RecordFile.delete (.number n) file = .ok present file' ∧
      file'.Saves name minWidth (some .readWrite) (saved \ {n}) := by
  obtain ⟨table, hholds, htable⟩ := h.holds
  obtain ⟨file', hrun, hholds'⟩ := hholds.delete (.number n)
  refine ⟨_, file', hrun, fun m hm => h.lt m hm.1, _, hholds', fun m => ?_⟩
  rw [Table.mem_erase, htable, Set.mem_sdiff, Set.mem_singleton_iff]
  have hkey : key (⟨m⟩ : TypoState) ≠ .number n ↔ m ≠ n := by
    change Key.number m ≠ Key.number n ↔ m ≠ n
    simp
  rw [hkey]

/-- All states of the file are listed, each once. -/
theorem listed (h : file.Saves name minWidth opened saved) :
    ∃ records, file.listed = .ok records ∧ (records.map TypoState.state).Nodup ∧
      ∀ n, n ∈ records.map TypoState.state ↔ n ∈ saved := by
  obtain ⟨table, hholds, htable⟩ := h.holds
  refine ⟨table.records, hholds.listed fun record hrecord => ?_, ?_, fun n => ?_⟩
  · exact TypoState.readsBack (h.storable htable record hrecord)
  · refine List.pairwise_map.2 (table.pairwise_key_ne.imp fun {a b} hne heq => hne ?_)
    change Key.number a.state = Key.number b.state
    rw [heq]
  · rw [← htable, List.mem_map]
    constructor
    · rintro ⟨record, hrecord, rfl⟩
      exact hrecord
    · exact fun hn => ⟨⟨n⟩, hn, rfl⟩

/-- What a file lists is determined by the set that it stands for. -/
theorem listed_eq {file' : RecordFile TypoState} {opened' : Option Mode}
    (h : file.Saves name minWidth opened saved) (h' : file'.Saves name minWidth opened' saved) :
    file'.listed = file.listed := by
  refine h.holds.listed_eq h'.holds (fun table table' htable htable' => ?_)
    fun table htable record hrecord => TypoState.readsBack (h.storable htable record hrecord)
  exact Table.ext_mem fun record => (htable record.state).trans (htable' record.state).symm

end Saves

end Concordance.RecordFile
