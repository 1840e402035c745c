import Concordance.Proofs.RecordFile.EvenLines

set_option relaxedAutoImplicit false
set_option autoImplicit false

/-!
# Changes that fail

A change of a record file that fails has changed nothing, whatever is in the file. Into a file that
is not open for writing nothing is written at all. In a file that is open for writing a change can
only fail while it is looking for its line and reading it, and it has read everything before it
writes the first byte.

## Main definitions

* `Concordance.RecordFile.OpenFor` — a file is open for reading or for writing.
* `Concordance.RecordFile.Written` — what comes of writing into a file.
* `Concordance.RecordFile.Lasting` — a property of files that writing keeps.
* `Concordance.RecordFile.Steady` — such a property of files that are open for writing.
* `Concordance.RecordFile.Change` — the changes of a record file.

## Main results

* `Concordance.RecordFile.written_writeAt`, `written_setLength` — the two ways to write.
* `Concordance.RecordFile.exists_search` — a search in an open file succeeds, and ends within it.
* `Concordance.RecordFile.Steady.ensures_delete`, `ensures_truncate`, `ensures_makeRoom`,
  `ensures_writeLine` — what succeeds in a file that is open for writing.
* `Concordance.RecordFile.Change.eq_of_error` — a change that fails leaves the file as it is.
-/

namespace Concordance.RecordFile

open Record Operation

/-! ## Writing -/

section Writing

variable {R : Type} {file : RecordFile R} {handle : Handle} {mode : Mode}

/-- A file is open for reading or for writing, under its name or without one. -/
def OpenFor (mode : Mode) (file : RecordFile R) : Prop :=
  ∃ handle, file.handle = some handle ∧ handle.mode = mode

/-- A file without a handle is open in no mode. -/
lemma not_openFor_of_none (h : file.handle = none) : ¬ file.OpenFor mode := by
  rintro ⟨handle, hhandle, -⟩
  rw [h] at hhandle
  cases hhandle

/-- A file is open in the mode of its handle. -/
lemma OpenFor.mode_eq (h : file.OpenFor mode) (hhandle : file.handle = some handle) :
    handle.mode = mode := by
  obtain ⟨other, hother, rfl⟩ := h
  cases hhandle.symm.trans hother
  rfl

/-- What comes of writing into a file. It is refused, or there is nothing to do, or other bytes are
behind the handle. -/
inductive Written (file : RecordFile R) : EStateM.Result Error (RecordFile R) Unit → Prop
  | refused (e : Error) (h : ¬ file.OpenFor .readWrite) : Written file (.error e file)
  | idle : Written file (.ok () file)
  | replaced (handle : Handle) (bytes : Bytes) (hhandle : file.handle = some handle)
      (hmode : handle.mode = .readWrite) :
      Written file (.ok () (file.replaceBehind handle bytes))

/-- Bytes are written behind the handle of a file that is open for writing; otherwise this is an
error, and nothing changes. -/
lemma written_writeAt (offset : Nat) (data : Bytes) (file : RecordFile R) :
    Written file (writeAt offset data file) := by
  unfold writeAt
  split
  · rename_i hnone
    exact .refused _ (not_openFor_of_none hnone)
  · rename_i handle hhandle
    split_ifs
    · exact .idle
    · cases hmode : handle.mode with
      | read => exact .refused _ fun h => by cases hmode.symm.trans (h.mode_eq hhandle)
      | readWrite => exact .replaced handle _ hhandle hmode

/-- Only a file that is open for writing can be cut. -/
lemma setLength_error (h : ¬ file.OpenFor .readWrite) (length : Nat) :
    ∃ e, setLength length file = .error e file := by
  unfold setLength
  split
  · exact ⟨_, rfl⟩
  · rename_i handle hhandle
    cases hmode : handle.mode with
    | read => exact ⟨_, rfl⟩
    | readWrite => exact absurd ⟨handle, hhandle, hmode⟩ h

/-- The length is set behind the handle of a file that is open for writing; otherwise this is an
error, and nothing changes. -/
lemma written_setLength (length : Nat) (file : RecordFile R) :
    Written file (setLength length file) := by
  by_cases hopen : file.OpenFor .readWrite
  · obtain ⟨handle, hhandle, hmode⟩ := hopen
    simp only [setLength, hhandle, hmode]
    exact .replaced handle _ hhandle hmode
  · obtain ⟨e, he⟩ := setLength_error hopen length
    rw [he]
    exact .refused e hopen

end Writing

/-! ## Reading -/

section Reading

variable {R : Type} {file : RecordFile R} {mode : Mode}

/-- The bytes of an open file are those behind its handle. -/
lemma bytes_of_handle {handle : Handle} (h : file.handle = some handle) :
    file.bytes = .ok (file.behind handle) := by
  rw [bytes, h]

/-- The bytes of an open file can be read. -/
lemma OpenFor.exists_bytes (h : file.OpenFor mode) : ∃ bytes, file.bytes = .ok bytes := by
  obtain ⟨handle, hhandle, -⟩ := h
  exact ⟨_, bytes_of_handle hhandle⟩

/-- A search among whole lines succeeds, whatever is on them, and a hit is one of them.

**Proof sketch.** Induction on the search. The middle line lies within the bytes, so its beginning
can be read, and both halves are among whole lines. -/
lemma exists_searchBetween (bytes : Bytes) (width : Nat) (pattern : Bytes) (low high : Nat)
    (hhigh : high * width ≤ bytes.length) :
    ∃ hit i, searchBetween bytes width pattern low high = .ok (hit, i) ∧
      (hit = true → i < high) := by
  fun_induction searchBetween bytes width pattern low high with
  | case1 low high hlt middle ih₁ ih₂ =>
    have hmiddle : middle + 1 ≤ high := by omega
    have hline : (middle + 1) * width ≤ bytes.length :=
      (Nat.mul_le_mul_right width hmiddle).trans hhigh
    rw [Nat.succ_mul] at hline
    have hread : readAt bytes (middle * width) (min pattern.length width) =
        .ok ((bytes.drop (middle * width)).take (min pattern.length width)) := by
      unfold readAt
      rw [if_neg]
      simp only [List.length_take, List.length_drop]
      omega
    rw [hread]
    simp only [bind, Except.bind]
    split
    · exact ⟨true, middle, rfl, fun _ => hmiddle⟩
    · exact ih₁ hhigh
    · obtain ⟨hit, i, hfound, hi⟩ := ih₂ ((Nat.mul_le_mul_right width (by omega)).trans hhigh)
      exact ⟨hit, i, hfound, fun h => (hi h).trans hmiddle⟩
  | case2 low high hlt => exact ⟨false, low, rfl, by simp⟩

/-- A search in an open file succeeds, whatever is in it, and a hit is a line of full width. -/
lemma exists_search {bytes : Bytes} (h : file.bytes = .ok bytes) (pattern : Bytes) :
    ∃ hit i, file.search pattern = .ok (hit, i) ∧
      (hit = true → i * file.width + file.width ≤ bytes.length) := by
  unfold RecordFile.search RecordFile.total
  rw [h]
  obtain ⟨hit, i, hfound, hi⟩ := exists_searchBetween bytes file.width pattern 0
    (bytes.length / file.width) (Nat.div_mul_le_self _ _)
  refine ⟨hit, i, hfound, fun hhit => ?_⟩
  rw [← Nat.succ_mul]
  exact (Nat.mul_le_mul_right _ (hi hhit)).trans (Nat.div_mul_le_self _ _)

/-- A line that is found is within the file. -/
lemma exists_bytes_of_hit {pattern : Bytes} {i : Nat} (h : file.search pattern = .ok (true, i)) :
    ∃ bytes, file.bytes = .ok bytes ∧ i * file.width + file.width ≤ bytes.length := by
  obtain ⟨bytes, hbytes, -⟩ := bind_eq_ok_iff.1 h
  obtain ⟨hit, j, hsearch, hline⟩ := exists_search hbytes pattern
  cases h.symm.trans hsearch
  exact ⟨bytes, hbytes, hline rfl⟩

end Reading

/-! ## What lasts when a file is written into -/

/-- A property of record files that other bytes behind a handle for writing do nothing to. -/
def Lasting {R : Type} (P : RecordFile R → Prop) : Prop :=
  ∀ (file : RecordFile R) (handle : Handle) (bytes : Bytes), file.handle = some handle →
    handle.mode = .readWrite → P file → P (file.replaceBehind handle bytes)

namespace Lasting

variable {R : Type} {P : RecordFile R → Prop}

/-- Writing keeps such a property. -/
lemma preserves (hP : Lasting P) {op : Op R Unit} (hop : ∀ file, Written file (op file)) :
    Preserves P op := by
  intro file hfile
  have hwritten := hop file
  unfold after
  cases hrun : op file with
  | ok _ file' =>
    rw [hrun] at hwritten
    cases hwritten with
    | idle => exact hfile
    | replaced handle bytes hhandle hmode => exact hP file handle bytes hhandle hmode hfile
  | error e file' =>
    rw [hrun] at hwritten
    cases hwritten
    exact hfile

/-- What lasts when lines grow lasts when room is made. -/
lemma preserves_makeRoom (hgrow : ∀ needed, Preserves P (grow needed)) (needed : Nat) :
    Preserves P (makeRoom needed) := by
  refine preserves_get_bind fun _ _ => ?_
  split
  · exact hgrow needed
  · exact preserves_pure ()

/-- What lasts when bytes are written lasts when a line is, over another or before others. -/
lemma preserves_writeLine (hP : Lasting P) (replaces : Bool) (i : Nat) (record : Bytes) :
    Preserves P (writeLine replaces i record) := by
  refine preserves_get_bind fun _ _ => ?_
  cases replaces with
  | true => exact hP.preserves (written_writeAt _ _)
  | false => exact (preserves_look _).bind fun _ =>
      (hP.preserves (written_writeAt _ _)).bind fun _ => hP.preserves (written_writeAt _ _)

/-- What lasts when lines grow lasts when a record is stored. -/
lemma preserves_upsert [Record R] (hP : Lasting P) (hgrow : ∀ needed, Preserves P (grow needed))
    (record : R) (merge : Merge R) : Preserves P (upsert record merge) := by
  rw [upsert_eq_bind]
  exact (preserves_look _).bind fun (hit, i, _) =>
    (preserves_makeRoom hgrow _).bind fun _ => hP.preserves_writeLine hit i _

/-- What lasts when bytes are written lasts when a record is deleted. -/
lemma preserves_delete [Record R] (hP : Lasting P) (k : Key) :
    Preserves P (delete (R := R) k) := by
  refine (preserves_look _).bind fun (hit, i) => ?_
  cases hit with
  | false => exact preserves_pure false
  | true =>
    exact preserves_get_bind fun _ _ => (preserves_look _).bind fun _ =>
      (hP.preserves (written_writeAt _ _)).bind fun _ =>
        (hP.preserves (written_setLength _)).bind fun _ => preserves_pure true

end Lasting

/-- No bytes are behind the handle of a file that is not open for writing but its own. -/
lemma lasting_of_not_openFor {R : Type} {file : RecordFile R} (h : ¬ file.OpenFor .readWrite) :
    Lasting (· = file) := by
  rintro _ handle bytes hhandle hmode rfl
  exact absurd ⟨handle, hhandle, hmode⟩ h

/-! ## Files that are open for writing -/

/-- A property of files that are open for writing which neither their bytes nor their width have
to do with. -/
structure Steady {R : Type} (P : RecordFile R → Prop) : Prop where
  openFor {file : RecordFile R} (h : P file) : file.OpenFor .readWrite
  lasting : Lasting P
  resized {file : RecordFile R} (width : Nat) (h : P file) : P { file with width }

section Steady

variable {R : Type} {P : RecordFile R → Prop}

/-- To be open for writing is such a property. -/
lemma steady_openFor : Steady (OpenFor (R := R) .readWrite) where
  openFor h := h
  lasting file handle bytes hhandle hmode _ := by
    unfold replaceBehind
    split
    · exact ⟨{ handle with detached := some bytes }, rfl, hmode⟩
    · exact ⟨handle, hhandle, hmode⟩
  resized _ h := h

namespace Steady

/-- Writing succeeds. -/
lemma ensures (hP : Steady P) {op : Op R Unit} (hop : ∀ file, Written file (op file)) :
    Ensures P op fun _ => P := by
  intro file hfile
  have hafter := hP.lasting.preserves hop file hfile
  have hwritten := hop file
  cases hrun : op file with
  | ok _ file' => exact ⟨(), file', rfl, after_ok hrun ▸ hafter⟩
  | error e file' =>
    rw [hrun] at hwritten
    cases hwritten with
    | refused _ hclosed => exact absurd (hP.openFor hfile) hclosed

/-- The width that a record file keeps in memory has nothing to do with what can be written. -/
lemma ensures_resize (hP : Steady P) (width : RecordFile R → Nat) :
    Ensures P (modify fun file => { file with width := width file } : Op R PUnit) fun _ => P :=
  fun file hfile => ⟨⟨⟩, { file with width := width file }, rfl, hP.resized _ hfile⟩

/-- The bytes of the open file are read. -/
lemma ensures_bytes (hP : Steady P) : Ensures P (look bytes) fun _ => P := by
  intro file hfile
  obtain ⟨bytes, hbytes⟩ := (hP.openFor hfile).exists_bytes
  exact ⟨bytes, file, look_ok hbytes, hfile⟩

/-- What an operation ensures for every file it ensures after a look at the file. -/
lemma ensures_get_bind {α : Type} {f : RecordFile R → Op R α} {Q : α → RecordFile R → Prop}
    (h : ∀ file, Ensures P (f file) Q) : Ensures P (get >>= f) Q :=
  fun file hfile => h file file hfile

/-- The lines of a file that is open for writing can be made wider, whatever is in it. -/
lemma ensures_grow (hP : Steady P) (needed : Nat) : Ensures P (grow needed) fun _ => P :=
  ensures_get_bind fun _ => hP.ensures_bytes.bind fun _ =>
    (hP.ensures (written_setLength 0)).bind fun _ =>
      (hP.ensures (written_writeAt 0 _)).bind fun _ => hP.ensures_resize _

/-- Room can be made, whatever is in the file. -/
lemma ensures_makeRoom (hP : Steady P) (needed : Nat) : Ensures P (makeRoom needed) fun _ => P := by
  refine ensures_get_bind fun file => ?_
  split
  · exact hP.ensures_grow needed
  · exact fun file hfile => ⟨(), file, rfl, hfile⟩

/-- A line can be written to a file that is open for writing, over another or before others. -/
lemma ensures_writeLine (hP : Steady P) (replaces : Bool) (i : Nat) (record : Bytes) :
    Ensures P (writeLine replaces i record) fun _ => P := by
  refine ensures_get_bind fun file => ?_
  cases replaces with
  | true => exact hP.ensures (written_writeAt _ _)
  | false => exact hP.ensures_bytes.bind fun _ =>
      (hP.ensures (written_writeAt _ _)).bind fun _ => hP.ensures (written_writeAt _ _)

/-- Records can be deleted, whatever is in the file. -/
theorem ensures_delete [Record R] (hP : Steady P) (k : Key) : Ensures P (delete k) fun _ => P := by
  intro file hfile
  obtain ⟨bytes, hbytes⟩ := (hP.openFor hfile).exists_bytes
  obtain ⟨hit, i, hsearch, -⟩ := exists_search hbytes (pattern R k)
  unfold delete
  rw [bind_ok (look_ok hsearch)]
  cases hit with
  | false => exact ⟨false, file, rfl, hfile⟩
  | true =>
    exact (ensures_get_bind fun _ => hP.ensures_bytes.bind fun _ =>
      (hP.ensures (written_writeAt _ _)).bind fun _ => (hP.ensures (written_setLength _)).bind
        fun _ file hfile => ⟨true, file, rfl, hfile⟩) file hfile

/-- A file can be emptied, whatever is in it. -/
theorem ensures_truncate (hP : Steady P) : Ensures P truncate fun _ => P := by
  intro file hfile
  obtain ⟨handle, hhandle, -⟩ := hP.openFor hfile
  have hopen : file.isOpen = true := by rw [isOpen, hhandle]; rfl
  unfold truncate
  rw [get_bind]
  simp only [hopen, if_true]
  exact ((hP.ensures (written_setLength 0)).bind fun _ => hP.ensures_resize _) file hfile

end Steady

end Steady

/-! ## Changes -/

/-- What can be changed in a record file. -/
inductive Change (R : Type)
  | upsert (record : R) (merge : Merge R)
  | delete (k : Key)
  | truncate

section Changes

variable {R : Type} [Record R] {file file' : RecordFile R} {e : Error}

/-- The change as an operation. -/
def Change.run : Change R → Op R Unit
  | upsert record merge => RecordFile.upsert record merge
  | delete k => do let _ ← RecordFile.delete k
  | truncate => RecordFile.truncate

section NotOpen

variable (h : ¬ file.OpenFor .readWrite)
include h

omit [Record R] in
/-- What would come after cutting the file does not come. -/
lemma preserves_setLength_bind {α : Type} (length : Nat) (f : Unit → Op R α) :
    Preserves (· = file) (setLength length >>= f) := by
  rintro _ rfl
  obtain ⟨e, he⟩ := setLength_error h length
  exact after_error (bind_error he f)

omit [Record R] in
/-- Lines do not grow, as the file would have to be emptied first. -/
lemma preserves_grow (needed : Nat) : Preserves (· = file) (grow (R := R) needed) :=
  preserves_get_bind fun _ _ => (preserves_look _).bind fun _ => preserves_setLength_bind h 0 _

end NotOpen

/-- In a file that is open for writing only what an upsert finds out before it writes can be an
error.

**Proof sketch.** In a file that is open for writing, room is made and lines are written without
error, so the error is that of finding out. In any other file nothing can be changed at all. -/
lemma eq_of_upsert_error {record : R} {merge : Merge R}
    (h : upsert record merge file = .error e file') : file' = file := by
  by_cases hopen : file.OpenFor .readWrite
  · cases hresolve : resolve record merge file with
    | error e =>
      rw [upsert_eq_bind, bind_error (look_error hresolve)] at h
      cases h
      rfl
    | ok answer =>
      obtain ⟨hit, i, stored⟩ := answer
      obtain ⟨_, _, hrun, -⟩ := (steady_openFor.ensures_makeRoom ((line stored).length + 1)).bind
        (fun _ => steady_openFor.ensures_writeLine hit i (line stored)) file hopen
      rw [upsert_of_resolve hresolve, hrun] at h
      cases h
  · exact (after_error h).symm.trans ((lasting_of_not_openFor hopen).preserves_upsert
      (preserves_grow hopen) record merge file rfl)

/-- A deletion that fails has changed nothing. -/
lemma eq_of_delete_error {k : Key} (h : delete (R := R) k file = .error e file') :
    file' = file := by
  by_cases hopen : file.OpenFor .readWrite
  · obtain ⟨answer, _, hrun, -⟩ := steady_openFor.ensures_delete (R := R) k file hopen
    cases h.symm.trans hrun
  · exact (after_error h).symm.trans
      ((lasting_of_not_openFor hopen).preserves_delete k file rfl)

omit [Record R] in
/-- A file that is not open is emptied by its name, unless it cannot be made.

**Proof sketch.** A file that is open for writing is emptied without error. An open one is emptied
through its handle, which refuses before it changes anything. One that is not open fails only if it
is not there and cannot be made. -/
lemma eq_of_truncate_error (h : truncate file = .error e file') : file' = file := by
  by_cases hopen : file.OpenFor .readWrite
  · obtain ⟨_, _, hrun, -⟩ := steady_openFor.ensures_truncate (R := R) file hopen
    cases h.symm.trans hrun
  cases hhandle : file.handle with
  | some handle =>
    have hisOpen : file.isOpen = true := by rw [isOpen, hhandle]; rfl
    unfold truncate at h
    rw [get_bind] at h
    simp only [hisOpen, if_true] at h
    exact (after_error h).symm.trans (preserves_setLength_bind hopen 0 _ file rfl)
  | none =>
    by_cases hready : file.contents.isSome ∨ usableName file.name = true
    · cases h.symm.trans (truncate_of_closed hhandle hready)
    · rw [not_or] at hready
      cases h.symm.trans (truncate_error hhandle (by simpa using hready.1) hready.2)
      rfl

/-- **A change that fails leaves the file as it is**, whatever is in it: its bytes, its width and
its handle. -/
theorem Change.eq_of_error (change : Change R) (h : change.run file = .error e file') :
    file' = file := by
  cases change with
  | upsert record merge => exact eq_of_upsert_error h
  | truncate => exact eq_of_truncate_error h
  | delete k =>
    cases hdelete : RecordFile.delete (R := R) k file with
    | ok answer file₁ => cases h.symm.trans (bind_ok hdelete _)
    | error e₁ file₁ =>
      cases h.symm.trans (bind_error hdelete _)
      exact eq_of_delete_error hdelete

end Changes

end Concordance.RecordFile
