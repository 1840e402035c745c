import Concordance.Proofs.Record.Codec
import Concordance.Proofs.RecordFile.Change

set_option relaxedAutoImplicit false
set_option autoImplicit false

/-!
# Record files are finite maps

Whatever is done to a record file that starts out empty, at any time its answers are those of a
map from keys to records to which the same was done.

## Main definitions

* `Concordance.RecordKind` — the kinds of record, each with the records that are read back.
* `Concordance.RecordFile.Step` — what is done to a record file, and to a map.
* `Concordance.RecordFile.Throughout` — a condition on each step and the file that it finds.
* `Concordance.RecordFile.Answers` — a record file answers like a map.

## Main results

* `Concordance.RecordFile.Represents.step` — one step keeps file and map together.
* `Concordance.RecordFile.answers_of_run` — after any steps an open file answers like the map.
-/

namespace Concordance

open Record

/-! ## Kinds of record -/

/-- The kinds of record. -/
inductive RecordKind
  | document
  | posting
  | typoState

namespace RecordKind

/-- The records of a kind. -/
def Carrier : RecordKind → Type
  | document => StoredDocument
  | posting => Posting
  | typoState => TypoState

instance : (kind : RecordKind) → Record kind.Carrier
  | document => inferInstanceAs (Record StoredDocument)
  | posting => inferInstanceAs (Record Posting)
  | typoState => inferInstanceAs (Record TypoState)

instance (kind : RecordKind) : Lawful kind.Carrier := by
  cases kind
  · exact inferInstanceAs (Lawful StoredDocument)
  · exact inferInstanceAs (Lawful Posting)
  · exact inferInstanceAs (Lawful TypoState)

/-- The records of a kind that come back as they were written. -/
def Storable : (kind : RecordKind) → kind.Carrier → Prop
  | document => StoredDocument.Storable
  | posting => Posting.Storable
  | typoState => TypoState.Storable

variable {kind : RecordKind}

/-- Storable records are read back, whatever their kind is. -/
lemma readsBack {record : kind.Carrier} (h : kind.Storable record) : ReadsBack record := by
  cases kind
  · exact StoredDocument.readsBack h
  · exact Posting.readsBack h
  · exact TypoState.readsBack h

/-- Uniting two storable records gives a storable one. -/
lemma storable_unite {incoming existing : kind.Carrier} (hincoming : kind.Storable incoming)
    (hexisting : kind.Storable existing) : kind.Storable (unite incoming existing) := by
  cases kind with
  | document => exact hincoming
  | typoState => exact hincoming
  | posting =>
    intro n hn
    change (incoming.state <|> existing.state) = some n at hn
    cases hstate : incoming.state with
    | none =>
      rw [hstate] at hn
      exact hexisting n hn
    | some m =>
      rw [hstate] at hn
      exact hincoming n (hstate.trans hn)

end RecordKind

/-- A way of merging keeps the key of the incoming record, and makes storable records of storable
ones. -/
def Merge.Keeps {kind : RecordKind} : Merge kind.Carrier → Prop
  | .replace | .unite => True
  | .custom merge => ∀ incoming existing, kind.Storable incoming → kind.Storable existing →
      key incoming = key existing →
        key (merge incoming existing) = key incoming ∧ kind.Storable (merge incoming existing)

/-- Merging storable records with the same key gives a storable record with that key. -/
lemma Merge.Keeps.apply {kind : RecordKind} {merge : Merge kind.Carrier} (h : merge.Keeps)
    {incoming existing : kind.Carrier} (hincoming : kind.Storable incoming)
    (hexisting : kind.Storable existing) (hkey : key incoming = key existing) :
    key (merge.apply incoming existing) = key incoming ∧
      kind.Storable (merge.apply incoming existing) := by
  cases merge with
  | replace => exact ⟨rfl, hincoming⟩
  | unite => exact ⟨Lawful.key_unite _ _, RecordKind.storable_unite hincoming hexisting⟩
  | custom merge => exact h incoming existing hincoming hexisting hkey

namespace RecordFile

/-! ## Steps -/

/-- What is done to a record file. -/
inductive Step (R : Type)
  | openIt
  | close
  | upsert (record : R) (merge : Merge R)
  | delete (k : Key)
  | truncate

/-- A map from keys to records. -/
abbrev KeyMap (R : Type) := Key → Option R

namespace Step

variable {R : Type} [Record R]

/-- The record file after a step. -/
def onFile : Step R → RecordFile R → RecordFile R
  | openIt => Operation.after (openIn .readWrite)
  | close => RecordFile.close
  | upsert record merge => Operation.after (RecordFile.upsert record merge)
  | delete k => Operation.after (RecordFile.delete k)
  | truncate => Operation.after RecordFile.truncate

/-- The map after a step that finds the record file open or not. Records are only stored in an
open file and only deleted from one. -/
def onMap (opened : Bool) : Step R → KeyMap R → KeyMap R
  | openIt, map | close, map => map
  | upsert record merge, map =>
    if opened then Function.update map (key record)
      (some ((map (key record)).elim record (merge.apply record)))
    else map
  | delete k, map => if opened then Function.update map k none else map
  | truncate, _ => fun _ => none

/-- A record file and a map after a step. -/
def onBoth (step : Step R) (state : RecordFile R × KeyMap R) : RecordFile R × KeyMap R :=
  (step.onFile state.1, step.onMap state.1.isOpen state.2)

end Step

/-- The record of a step is storable, and its merge keeps keys. -/
def Step.Keeps {kind : RecordKind} : Step kind.Carrier → Prop
  | .upsert record merge => kind.Storable record ∧ merge.Keeps
  | _ => True

/-- A record file that starts out missing or empty, and a map that starts out empty, after a list
of steps. -/
def run {R : Type} [Record R] (name : String) (minWidth : Nat) (contents : Option Bytes)
    (steps : List (Step R)) : RecordFile R × KeyMap R :=
  steps.foldl (fun state step => step.onBoth state) (new name minWidth contents, fun _ => none)

/-- Something holds of each step of a run and the file that the step finds. -/
def Throughout {R : Type} [Record R] (name : String) (minWidth : Nat) (contents : Option Bytes)
    (steps : List (Step R)) (C : RecordFile R → Step R → Prop) : Prop :=
  ∀ before step after, steps = before ++ step :: after →
    C (run name minWidth contents before).1 step

/-- What holds of a step whatever file it finds holds of it throughout a run. -/
lemma throughout_of_forall {R : Type} [Record R] {name : String} {minWidth : Nat}
    {contents : Option Bytes} {steps : List (Step R)} {C : RecordFile R → Step R → Prop}
    (h : ∀ step ∈ steps, ∀ file, C file step) : Throughout name minWidth contents steps C := by
  rintro before step after rfl
  exact h step (by simp) _

/-- The record of a step is storable, and if it is merged with the one that the file has under its
key, the outcome is storable and has the key. -/
def Step.KeepsIn {kind : RecordKind} (file : RecordFile kind.Carrier) : Step kind.Carrier → Prop
  | .upsert record merge => kind.Storable record ∧ ∀ existing,
      file.get? (key record) = .ok (some existing) → key existing = key record →
        kind.Storable existing →
          key (merge.apply record existing) = key record ∧
            kind.Storable (merge.apply record existing)
  | _ => True

/-- A merge that always keeps keys does so in any file. -/
lemma Step.Keeps.keepsIn {kind : RecordKind} {step : Step kind.Carrier} (h : step.Keeps)
    (file : RecordFile kind.Carrier) : step.KeepsIn file := by
  cases step with
  | upsert record merge =>
    exact ⟨h.1, fun existing _ hkey hexisting => h.2.apply h.1 hexisting hkey.symm⟩
  | openIt => trivial
  | close => trivial
  | delete k => trivial
  | truncate => trivial

/-! ## Files that are open for writing or not open -/

section Table

variable {R : Type} [Record R] [Lawful R] {name : String} {minWidth : Nat} {file : RecordFile R}
  {table : Table R} {opened : Bool}

/-- Opening a file leaves it with its records, also if it fails.

**Proof sketch.** The file is opened, or it is not there and cannot be made, which changes nothing.
-/
lemma Holds.after_openIn
    (h : file.Holds name minWidth (if opened then some .readWrite else none) table) :
    ∃ opened' : Bool, (Operation.after (RecordFile.openIn .readWrite) file).Holds name minWidth
      (if opened' then some .readWrite else none) table := by
  by_cases hready : file.contents.isSome ∨ usableName name = true
  · have hmode : file.contents.isSome ∨ Mode.readWrite = .readWrite ∧ usableName name = true :=
      hready.imp_right fun hname => ⟨rfl, hname⟩
    obtain ⟨file', hrun, hholds⟩ := h.openIn hmode
    rw [Operation.after_ok hrun]
    exact ⟨true, hholds⟩
  · rw [not_or] at hready
    have hnone : file.contents = none := by simpa using hready.1
    have hrun : RecordFile.openIn .readWrite file = .error .inaccessibleFile file :=
      openIn_error hnone fun hname => hready.2 (h.name_eq ▸ hname.2)
    rw [Operation.after_error hrun]
    exact ⟨opened, h⟩

/-- Only an open file is changed by a deletion. -/
lemma Holds.after_delete
    (h : file.Holds name minWidth (if opened then some .readWrite else none) table) (k : Key) :
    (Operation.after (RecordFile.delete k) file).Holds name minWidth
      (if opened then some .readWrite else none) (if opened then table.erase k else table) := by
  cases opened with
  | false =>
    rw [Operation.after_error (delete_closed (R := R) h.handle_eq k)]
    exact h
  | true =>
    obtain ⟨file', hrun, hholds⟩ := h.delete k
    rw [Operation.after_ok hrun]
    exact hholds

omit [Lawful R] in
/-- A file is emptied whether it is open or not. One that cannot be made holds no records anyway.

**Proof sketch.** If the file is open it is emptied. If it is not, it is made empty if it can have
its name, and otherwise nothing changes. -/
lemma Holds.after_truncate
    (h : file.Holds name minWidth (if opened then some .readWrite else none) table) :
    (Operation.after RecordFile.truncate file).Holds name minWidth
      (if opened then some .readWrite else none) ∅ := by
  cases opened with
  | true =>
    obtain ⟨file', hrun, hholds⟩ := h.truncate
    rw [Operation.after_ok hrun]
    exact hholds
  | false =>
    by_cases hready : file.contents.isSome ∨ usableName name = true
    · obtain ⟨file', hrun, hholds⟩ := h.truncate_closed hready
      rw [Operation.after_ok hrun]
      exact hholds
    · rw [not_or] at hready
      have hnone : file.contents = none := by simpa using hready.1
      have hrun := truncate_error h.handle_eq hnone fun hname => hready.2 (h.name_eq ▸ hname)
      obtain rfl := h.eq_empty hnone
      rw [Operation.after_error hrun]
      exact h

end Table

/-! ## Keeping file and map together -/

/-- A record file holds the records of a map, all of which are storable. -/
def Represents {kind : RecordKind} (name : String) (minWidth : Nat)
    (file : RecordFile kind.Carrier) (map : KeyMap kind.Carrier) : Prop :=
  ∃ (opened : Bool) (table : Table kind.Carrier),
    file.Holds name minWidth (if opened then some .readWrite else none) table ∧
      (∀ k, table.get? k = map k) ∧ ∀ record ∈ table.records, kind.Storable record

variable {kind : RecordKind} {name : String} {minWidth : Nat} {file : RecordFile kind.Carrier}
  {map : KeyMap kind.Carrier}

/-- Storing a record in an open file stores it in the map.

**Proof sketch.** If the file has no record with the key, the incoming one is stored. Otherwise the
existing one is storable, so it is read back, and merging keeps the key and what is needed to store
the outcome. -/
lemma Holds.upsert_map {table : Table kind.Carrier}
    (h : file.Holds name minWidth (some .readWrite) table) (hmap : ∀ k, table.get? k = map k)
    (hstorable : ∀ record ∈ table.records, kind.Storable record) {record : kind.Carrier}
    {merge : Merge kind.Carrier} (hstep : (Step.upsert record merge).KeepsIn file) :
    ∃ (stored : kind.Carrier) (file' : RecordFile kind.Carrier),
      stored = (map (key record)).elim record (merge.apply record) ∧ kind.Storable stored ∧
        key stored = key record ∧ RecordFile.upsert record merge file = .ok () file' ∧
          file'.Holds name minWidth (some .readWrite) (table.put stored) := by
  have hmerged : ∃ stored, stored = (map (key record)).elim record (merge.apply record) ∧
      kind.Storable stored ∧ key stored = key record ∧ table.merged record merge = .ok stored := by
    rw [← hmap]
    cases hget : table.get? (key record) with
    | none => exact ⟨record, rfl, hstep.1, rfl, Table.merged_of_none hget⟩
    | some existing =>
      obtain ⟨hexisting, hkey⟩ := Table.get?_eq_some_iff.1 hget
      have hread : ∀ record ∈ table.records, ReadsBack record := fun record hrecord =>
        RecordKind.readsBack (hstorable record hrecord)
      obtain ⟨hkey', hstored⟩ := hstep.2 existing
        ((h.get?_of_readsBack hread _).trans (congrArg Except.ok hget)) hkey
        (hstorable existing hexisting)
      exact ⟨merge.apply record existing, rfl, hstored, hkey',
        Table.merged_of_readsBack hget (hread existing hexisting)⟩
  obtain ⟨stored, hstored, hkeeps, hkey, hmerged⟩ := hmerged
  obtain ⟨file', hupsert, hholds⟩ := h.upsert hmerged hkey
  exact ⟨stored, file', hstored, hkeeps, hkey, hupsert, hholds⟩

/-- Opening a file leaves it with its records. -/
lemma Represents.openIt (h : Represents name minWidth file map) :
    Represents name minWidth (Operation.after (openIn .readWrite) file) map := by
  obtain ⟨opened, table, hholds, hmap, hstorable⟩ := h
  obtain ⟨opened', hholds'⟩ := hholds.after_openIn
  exact ⟨opened', table, hholds', hmap, hstorable⟩

/-- What an upsert does to an open file it does to the map.

**Proof sketch.** An upsert in a file that is not open changes neither the file nor the map. In an
open file what is stored under the key is what the map gets there, and the other keys keep their
records. -/
lemma Represents.upsert (h : Represents name minWidth file map) {record : kind.Carrier}
    {merge : Merge kind.Carrier} (hstep : (Step.upsert record merge).KeepsIn file) :
    Represents name minWidth (Operation.after (RecordFile.upsert record merge) file)
      (Step.onMap file.isOpen (.upsert record merge) map) := by
  obtain ⟨opened, table, hholds, hmap, hstorable⟩ := h
  rw [hholds.isOpen_eq]
  cases opened with
  | false =>
    rw [Operation.after_error (upsert_closed hholds.handle_eq record merge)]
    exact ⟨false, table, hholds, hmap, hstorable⟩
  | true =>
    obtain ⟨stored, file', hstored, hkeeps, hkey, hrun, hholds'⟩ :=
      hholds.upsert_map hmap hstorable hstep
    rw [Operation.after_ok hrun]
    refine ⟨true, table.put stored, hholds', fun k => ?_, fun other hother => ?_⟩
    · rw [Table.get?_put, hkey, hmap, hstored]
      simp [Step.onMap, Function.update_apply]
    · rcases Table.mem_put.1 hother with rfl | ⟨hother, -⟩
      · exact hkeeps
      · exact hstorable other hother

/-- What a deletion does to an open file it does to the map. -/
lemma Represents.delete (h : Represents name minWidth file map) (k : Key) :
    Represents name minWidth (Operation.after (RecordFile.delete k) file)
      (Step.onMap file.isOpen (.delete k) map) := by
  obtain ⟨opened, table, hholds, hmap, hstorable⟩ := h
  have hholds' := hholds.after_delete k
  rw [hholds.isOpen_eq]
  cases opened with
  | false => exact ⟨false, table, hholds', hmap, hstorable⟩
  | true =>
    refine ⟨true, table.erase k, hholds', fun k' => ?_, fun other hother => ?_⟩
    · rw [Table.get?_erase, hmap]
      simp [Step.onMap, Function.update_apply]
    · exact hstorable other (Table.mem_erase.1 hother).1

/-- Emptying a file leaves no records. -/
lemma Represents.truncate (h : Represents name minWidth file map) :
    Represents name minWidth (Operation.after RecordFile.truncate file) fun _ => none := by
  obtain ⟨opened, table, hholds, -, -⟩ := h
  exact ⟨opened, ∅, hholds.after_truncate, fun _ => rfl,
    fun _ hrecord => absurd hrecord List.not_mem_nil⟩

/-- One step keeps file and map together: each operation does to the table of the file what the step
does to the map, and a step that fails leaves both as they are. -/
theorem Represents.step (h : Represents name minWidth file map) {step : Step kind.Carrier}
    (hstep : step.KeepsIn file) :
    Represents name minWidth (step.onFile file) (step.onMap file.isOpen map) := by
  cases step with
  | openIt => exact h.openIt
  | close =>
    obtain ⟨opened, table, hholds, hmap, hstorable⟩ := h
    exact ⟨false, table, hholds.close, hmap, hstorable⟩
  | upsert record merge => exact h.upsert hstep
  | delete k => exact h.delete k
  | truncate => exact h.truncate

/-- What holds of a missing or empty file and an empty map, and is kept by each of the steps where
it stands in the run, holds after all of them.

**Proof sketch.** Induction on the steps from behind. The condition on each step speaks of the run
up to it, so it holds in the shorter run as well. -/
lemma run_induction {R : Type} [Record R] {P : RecordFile R → KeyMap R → Prop}
    {C : RecordFile R → Step R → Prop} {contents : Option Bytes} {steps : List (Step R)}
    (hsteps : Throughout name minWidth contents steps C)
    (start : P (new name minWidth contents) fun _ => none)
    (keeps : ∀ step file map, C file step → P file map →
      P (step.onFile file) (step.onMap file.isOpen map)) :
    P (run name minWidth contents steps).1 (run name minWidth contents steps).2 := by
  induction steps using List.reverseRecOn with
  | nil => exact start
  | append_singleton steps last ih =>
    have hrun : run name minWidth contents (steps ++ [last]) =
        last.onBoth (run name minWidth contents steps) := List.foldl_concat _ _ _ _
    rw [hrun]
    refine keeps last _ _ (hsteps steps last [] rfl) (ih ?_)
    rintro before step after rfl
    exact hsteps before step (after ++ [last]) (by simp)

/-- Any steps keep file and map together. -/
theorem represents_run {contents : Option Bytes} (hempty : contents.getD [] = [])
    {steps : List (Step kind.Carrier)}
    (hsteps : Throughout name minWidth contents steps Step.KeepsIn) :
    Represents name (max minWidth leastWidth) (run name minWidth contents steps).1
      (run name minWidth contents steps).2 :=
  run_induction hsteps ⟨false, ∅, holds_empty name minWidth hempty, fun _ => rfl,
    fun _ hrecord => absurd hrecord List.not_mem_nil⟩ fun _ _ _ hstep h => h.step hstep

/-! ## Answers -/

/-- A record file answers like a map: to look-ups, to deletions, with the number of its records, and
with all of them in the order of their codes. -/
structure Answers {R : Type} [Record R] (file : RecordFile R) (map : KeyMap R) : Prop where
  get? : ∀ k, file.get? k = .ok (map k)
  delete : ∀ k, ∃ file', RecordFile.delete k file = .ok (map k).isSome file'
  total : {k | (map k).isSome}.Finite ∧ file.total = .ok {k | (map k).isSome}.ncard
  scanAll : ∃ records, file.scanAll = .ok records ∧
    records.Pairwise (fun a b => compare (code a) (code b) = .lt) ∧
      ∀ record, record ∈ records ↔ map (key record) = some record

/-- An open file that represents a map holds a table of its records. -/
lemma Represents.exists_table (h : Represents name minWidth file map)
    (hopen : file.isOpen = true) :
    ∃ table : Table kind.Carrier, file.Holds name minWidth (some .readWrite) table ∧
      table.get? = map ∧ ∀ record ∈ table.records, kind.Storable record := by
  obtain ⟨opened, table, hholds, hmap, hstorable⟩ := h
  obtain rfl : opened = true := by
    rw [hholds.isOpen_eq] at hopen
    cases opened
    · cases hopen
    · rfl
  exact ⟨table, hholds, funext hmap, hstorable⟩

/-- An open file that represents a map answers like it. -/
theorem Represents.answers (h : Represents name minWidth file map) (hopen : file.isOpen = true) :
    file.Answers map := by
  obtain ⟨table, hholds, rfl, hstorable⟩ := h.exists_table hopen
  have hread : ∀ record ∈ table.records, ReadsBack record := fun record hrecord =>
    RecordKind.readsBack (hstorable record hrecord)
  refine ⟨fun k => ?_, fun k => ?_, ⟨?_, ?_⟩, table.records, ?_, table.sorted, fun record => ?_⟩
  · exact hholds.get?_of_readsBack hread k
  · obtain ⟨file', hrun, -⟩ := hholds.delete k
    exact ⟨file', hrun⟩
  · exact table.finite_keys
  · rw [← table.size_eq_ncard]
    exact hholds.total
  · exact hholds.scanAll (by rw [hholds.contents]; rfl) hread
  · rw [Table.get?_eq_some_iff]
    simp

/-- **Record files refine maps.** After any steps on a record file of any kind of record, starting
with a missing or an empty file, the file answers like the map to which the same was done, whenever
it is open. -/
theorem answers_of_run (kind : RecordKind) (name : String) (minWidth : Nat)
    (contents : Option Bytes) (hempty : contents = none ∨ contents = some [])
    (steps : List (Step kind.Carrier)) (hsteps : ∀ step ∈ steps, step.Keeps)
    (hopen : (run name minWidth contents steps).1.isOpen = true) :
    (run name minWidth contents steps).1.Answers (run name minWidth contents steps).2 := by
  have hbytes : contents.getD [] = [] := by
    rcases hempty with rfl | rfl <;> rfl
  have hkeeps : Throughout name minWidth contents steps Step.KeepsIn :=
    throughout_of_forall fun step hstep => (hsteps step hstep).keepsIn
  exact (represents_run hbytes hkeeps).answers hopen

/-- The ids under a term come in one by one, and the file is closed in between. -/
def unitedSteps : List (Step RecordKind.posting.Carrier) :=
  [.openIt, .upsert (Posting.of "cat" (.ofList [⟨"1"⟩]) (some 3)) .unite, .close, .openIt,
    .upsert (Posting.of "cat" (.ofList [⟨"2"⟩]) none) .unite, .delete (.text "dog")]

/-- The answers after these steps are those of a map with the two ids under the term. -/
theorem answers_of_run_unitedSteps :
    (run "pets_kind_index.json" 12 none unitedSteps).1.Answers
      (run "pets_kind_index.json" 12 none unitedSteps).2 := by
  refine answers_of_run .posting "pets_kind_index.json" 12 none (.inl rfl) unitedSteps ?_
    (by decide +kernel)
  have hfirst : Posting.Storable (Posting.of "cat" (.ofList [⟨"1"⟩]) (some 3)) := by
    intro n hn
    obtain rfl : 3 = n := Option.some.inj hn
    decide
  have hsecond : Posting.Storable (Posting.of "cat" (.ofList [⟨"2"⟩]) none) :=
    fun n hn => by cases hn
  intro step hstep
  simp only [unitedSteps, List.mem_cons, List.not_mem_nil, or_false] at hstep
  rcases hstep with rfl | rfl | rfl | rfl | rfl | rfl
  · trivial
  · exact ⟨hfirst, trivial⟩
  · trivial
  · trivial
  · exact ⟨hsecond, trivial⟩
  · trivial

end RecordFile

end Concordance
