import Concordance.Proofs.RecordFile.Failures

set_option relaxedAutoImplicit false
set_option autoImplicit false

/-!
# The arithmetic of record files

Lengths, offsets and widths are unsigned numbers. Here the changes of a record file are run once
more with every difference and every quotient checked: a difference below zero, a quotient by zero
and chunks of size zero put an end to the run. From every file that a program can hold, whatever is
stored in it, these runs are those without the checks.

## Main definitions

* `Concordance.RecordFile.Reached` — a program can hold this record file.
* `Concordance.RecordFile.Halt` — why a run with checks ends early.
* `Concordance.RecordFile.Checked.upsert`, `delete` — the changes with their arithmetic checked.
* `Concordance.RecordFile.Checked.Mirrors` — the checks of an operation make no difference.

## Main results

* `Concordance.RecordFile.reached_iff` — all widths from one on occur, with any content and handle.
* `Concordance.RecordFile.Checked.search_eq` — a search computes no number below zero.
* `Concordance.RecordFile.Checked.mirrors_upsert`, `mirrors_delete` — no change comes upon a fault.
* `Concordance.RecordFile.Change.safe_of_reached` — a change that fails has changed nothing, and has
  not failed for its arithmetic.
-/

namespace Concordance.RecordFile

open Record Operation

/-! ## Widths -/

section Widths

variable {R : Type} {file : RecordFile R}

/-- The lines of a record file are not empty, and the smallest width leaves room for a record. -/
structure Wide (file : RecordFile R) : Prop where
  pos : 0 < file.width
  least_le : leastWidth ≤ file.minWidth

namespace Wide

/-- The smallest width is that of a line with room, so it is not zero. -/
lemma minWidth_pos (h : file.Wide) : 0 < file.minWidth :=
  (by decide : 0 < leastWidth).trans_le h.least_le

/-- What is stored and the handle have nothing to do with the widths. -/
lemma disturbed (h : file.Wide) (contents : Option Bytes) (handle : Option Handle) :
    Wide (R := R) { file with contents, handle } :=
  ⟨h.pos, h.least_le⟩

/-- Writing to the file leaves the widths as they are. -/
lemma lasting : Lasting (Wide (R := R)) := by
  intro file handle bytes _ _ hfile
  unfold replaceBehind
  split
  · exact hfile.disturbed _ _
  · exact hfile.disturbed _ _

/-- A first line has its line feed. -/
lemma pos_of_firstWidth (h : file.Wide) {name : String} {bytes : Bytes} {first : Option Nat}
    (hfirst : firstWidth name bytes = .ok first) : 0 < first.getD file.minWidth := by
  unfold firstWidth at hfirst
  split_ifs at hfirst
  · cases hfirst
    exact h.minWidth_pos
  · split at hfirst
    · cases hfirst
      exact Nat.succ_pos _
    · cases hfirst

/-- Making a file leaves the widths as they are. -/
lemma preserves_create : Preserves (Wide (R := R)) create := by
  intro file hfile
  unfold after create
  split_ifs
  · exact hfile
  · exact hfile.disturbed _ _
  · exact hfile

/-- An opened file has lines that are not empty: the width of a first line counts its line feed. -/
lemma preserves_openIn (mode : Mode) : Preserves (Wide (R := R)) (openIn mode) := by
  unfold openIn
  refine preserves_create.ite_bind (mode = .readWrite) (preserves_get_bind fun file _ => ?_)
  intro held hheld
  split
  · exact hheld
  · rename_i bytes _
    unfold after
    cases hfirst : firstWidth file.name bytes with
    | error e => exact hheld
    | ok first => exact ⟨hheld.pos_of_firstWidth hfirst, hheld.least_le⟩

/-- An emptied file falls back to the smallest width. -/
lemma preserves_truncate : Preserves (Wide (R := R)) truncate := by
  have hfall : Preserves (Wide (R := R))
      (modify fun file => { file with width := file.minWidth } : Op R PUnit) :=
    preserves_modify fun _ hfile => ⟨hfile.minWidth_pos, hfile.least_le⟩
  refine preserves_get_bind fun file hfile => ?_
  split
  · exact (lasting.preserves (written_setLength 0)).bind fun _ => hfall
  · exact preserves_create.bind fun _ =>
      (preserves_modify fun _ hfile => hfile.disturbed _ _).bind fun _ => hfall

/-- Wider lines are not empty either. -/
lemma preserves_grow (needed : Nat) : Preserves (Wide (R := R)) (grow needed) :=
  preserves_get_bind fun _ hfile => (preserves_look _).bind fun _ =>
    (lasting.preserves (written_setLength 0)).bind fun _ =>
      (lasting.preserves (written_writeAt 0 _)).bind fun _ => preserves_modify fun _ hfile' =>
        ⟨(Nat.zero_le _).trans_lt (lt_grownWidth hfile.minWidth_pos needed), hfile'.least_le⟩

end Wide

/-- A program can hold this record file: it has made and opened it and changed records in it, while
anything may have been done to what is stored and to the handle. -/
inductive Reached [Record R] : RecordFile R → Prop
  | new (name : String) (minWidth : Nat) (contents : Option Bytes) :
      Reached (RecordFile.new name minWidth contents)
  | opened (mode : Mode) {file : RecordFile R} (h : Reached file) :
      Reached (after (openIn mode) file)
  | upserted (record : R) (merge : Merge R) {file : RecordFile R} (h : Reached file) :
      Reached (after (upsert record merge) file)
  | deleted (k : Key) {file : RecordFile R} (h : Reached file) : Reached (after (delete k) file)
  | truncated {file : RecordFile R} (h : Reached file) : Reached (after truncate file)
  | disturbed (contents : Option Bytes) (handle : Option Handle) {file : RecordFile R}
      (h : Reached file) : Reached { file with contents, handle }

variable [Record R]

/-- No width is zero. -/
theorem Reached.wide (h : file.Reached) : file.Wide := by
  induction h with
  | new name minWidth contents =>
    exact ⟨(by decide : 0 < leastWidth).trans_le (le_max_right _ _), le_max_right _ _⟩
  | opened mode _ ih => exact Wide.preserves_openIn mode _ ih
  | upserted record merge _ ih =>
    exact Wide.lasting.preserves_upsert Wide.preserves_grow record merge _ ih
  | deleted k _ ih => exact Wide.lasting.preserves_delete k _ ih
  | truncated _ ih => exact Wide.preserves_truncate _ ih
  | disturbed contents handle _ ih => exact ih.disturbed contents handle

/-- All other widths occur, whatever is stored and whatever the handle is: a line of that width
stands in a file while it is opened, and is replaced. -/
theorem reached_iff : file.Reached ↔ file.Wide := by
  refine ⟨Reached.wide, fun h => ?_⟩
  obtain ⟨name, minWidth, width, contents, handle⟩ := file
  obtain ⟨n, rfl⟩ : ∃ n, width = n + 1 := ⟨width - 1, (Nat.succ_pred_eq_of_pos h.pos).symm⟩
  have hmin : max minWidth leastWidth = minWidth := max_eq_left h.least_le
  have hfeed : Bytes.lineFeed ∉ List.replicate n (0 : UInt8) := fun hmem => by
    cases List.eq_of_mem_replicate hmem
  have hfirst := firstWidth_append hfeed name []
  rw [List.length_replicate] at hfirst
  let made : RecordFile R := .new name minWidth (some (List.replicate n 0 ++ [Bytes.lineFeed]))
  have hmade : made.Reached := .new _ _ _
  have hopened := (hmade.opened .read).disturbed contents handle
  rw [after_ok (@openIn_of_firstWidth R made _ _ rfl hfirst .read)] at hopened
  simpa only [made, RecordFile.new, Option.getD_some, hmin] using hopened

end Widths

/-! ## Checked arithmetic -/

/-- Why a run with checked arithmetic ends early. -/
inductive Halt
  /-- A difference below zero, a quotient by zero, or chunks of size zero. -/
  | fault
  /-- The operation has failed. -/
  | failure (e : Error)
  deriving DecidableEq, Repr

namespace Checked

variable {R α β : Type}

/-- An operation on a record file whose arithmetic is checked. -/
abbrev Op (R : Type) := EStateM Halt (RecordFile R)

/-- A difference, with the proof that it is one. -/
def difference (a b : Nat) : Except Halt {d : Nat // d + b = a} :=
  if h : b ≤ a then .ok ⟨a - b, Nat.sub_add_cancel h⟩ else .error .fault

/-- A quotient, rounded down. -/
def quotient (a b : Nat) : Except Halt Nat := if b = 0 then .error .fault else .ok (a / b)

/-- Bytes cut into chunks of `size`. -/
def chunks (size : Nat) (bytes : Bytes) : Except Halt (List Bytes) :=
  if size = 0 then .error .fault else .ok (Bytes.chunks size bytes)

/-- The number of whole lines in the open file. -/
def total (file : RecordFile R) : Except Halt Nat := do
  quotient (← file.bytes.mapError .failure).length file.width

/-- Binary search between two lines. -/
def searchBetween (bytes : Bytes) (width : Nat) (pattern : Bytes) (low high : Nat) :
    Except Halt (Bool × Nat) :=
  if low < high then do
    let ⟨gap, _⟩ ← difference high low
    let middle := low + gap / 2
    let probe ← (readAt bytes (middle * width) (min pattern.length width)).mapError .failure
    match compare probe pattern with
    | .eq => return (true, middle)
    | .lt => searchBetween bytes width pattern (middle + 1) high
    | .gt => searchBetween bytes width pattern low middle
  else return (false, low)
  termination_by high - low

/-- Binary search for a line that starts with `pattern`. -/
def search (file : RecordFile R) (pattern : Bytes) : Except Halt (Bool × Nat) := do
  searchBetween (← file.bytes.mapError .failure) file.width pattern 0 (← total file)

/-- A line of a given width: the record cut or filled with blanks to one byte less, and a line
feed. -/
def padded (width : Nat) (record : Bytes) : Except Halt Bytes := do
  let ⟨room, _⟩ ← difference width 1
  return record.take room ++ List.replicate (room - record.length) Bytes.blank ++ [Bytes.lineFeed]

/-- The width that lines grow to so that `needed` bytes fit. -/
def grownWidth (minWidth needed : Nat) : Except Halt Nat := do
  let ⟨last, _⟩ ← difference (needed + minWidth) 1
  return minWidth * ((← quotient last minWidth) + 1)

/-- The lines of a file at another width. -/
def widened (width newWidth : Nat) (bytes : Bytes) : Except Halt Bytes := do
  let lines ← (← chunks width bytes).mapM fun line => padded newWidth (Bytes.trimEnd line)
  return lines.flatten

/-- An operation that only looks at the file. -/
def look (f : RecordFile R → Except Halt α) : Op R α := fun file =>
  match f file with
  | .ok a => .ok a file
  | .error e => .error e file

/-- An operation without arithmetic of its own. -/
def plain (op : RecordFile.Op R α) : Op R α := op.adaptExcept .failure

/-- Writes all lines anew at a width at which `needed` bytes fit. -/
def grow (needed : Nat) : Op R Unit := do
  let file ← get
  let newWidth ← look fun _ => grownWidth file.minWidth needed
  let old ← plain (RecordFile.look bytes)
  let lines ← look fun _ => widened file.width newWidth old
  plain (setLength 0)
  plain (writeAt 0 lines)
  modify fun file => { file with width := newWidth }

/-- Makes room for a number of bytes on every line. -/
def makeRoom (needed : Nat) : Op R Unit := do
  if (← get).width < needed then grow needed

/-- Writes a record on a line of the open file: over line `i`, or in front of it. -/
def writeLine (replaces : Bool) (i : Nat) (record : Bytes) : Op R Unit := do
  let width := (← get).width
  let line ← look fun _ => padded width record
  if replaces then plain (writeAt (i * width) line)
  else
    let rest := (← plain (RecordFile.look bytes)).drop (i * width)
    plain (writeAt (i * width) line)
    plain (writeAt (i * width + line.length) rest)

/-- What an upsert finds out. -/
def resolve [Record R] (record : R) (merge : Merge R) (file : RecordFile R) :
    Except Halt (Bool × Nat × R) := do
  let (hit, i) ← search file (pattern R (key record))
  if hit then
    let existing ← (file.recordAt i).mapError .failure
    return (hit, i, merge.apply record existing)
  else return (hit, i, record)

/-- Stores a record. -/
def upsert [Record R] (record : R) (merge : Merge R) : Op R Unit := do
  let (hit, i, stored) ← look (resolve record merge)
  makeRoom ((line stored).length + 1)
  writeLine hit i (line stored)

/-- Removes the record of a key. -/
def delete [Record R] (k : Key) : Op R Bool := do
  let (hit, i) ← look fun file => search file (pattern R k)
  if hit then
    let width := (← get).width
    let bytes ← plain (RecordFile.look bytes)
    plain (writeAt (i * width) (bytes.drop (i * width + width)))
    let ⟨length, _⟩ ← look fun _ => difference bytes.length width
    plain (setLength length)
    return true
  else return false

/-! ## The checks make no difference -/

variable {file file' : RecordFile R} {op : RecordFile.Op R α} {f : α → RecordFile.Op R β}
  {checked : Op R α} {then? : α → Op R β} {a : α} {e : Error}

/-- A difference that is not negative is computed. -/
lemma difference_ok {a b : Nat} (h : b ≤ a) :
    difference a b = .ok ⟨a - b, Nat.sub_add_cancel h⟩ :=
  dif_pos h

/-- A quotient by a number that is not zero is computed. -/
lemma quotient_ok {b : Nat} (h : 0 < b) (a : Nat) : quotient a b = .ok (a / b) := if_neg h.ne'

/-- Bytes are cut into pieces of a size that is not zero. -/
lemma chunks_ok {size : Nat} (h : 0 < size) (bytes : Bytes) :
    chunks size bytes = .ok (Bytes.chunks size bytes) :=
  if_neg h.ne'

/-- A record is padded to any width but zero. -/
lemma padded_ok {width : Nat} (h : 0 < width) (record : Bytes) :
    padded width record = .ok (RecordFile.padded width record) := by
  unfold padded
  rw [difference_ok h]
  rfl

/-- The width for a longer record is computed, since the smallest width is not zero. -/
lemma grownWidth_ok {minWidth : Nat} (h : 0 < minWidth) (needed : Nat) :
    grownWidth minWidth needed = .ok (RecordFile.grownWidth minWidth needed) := by
  unfold grownWidth
  rw [difference_ok (h.trans_le (Nat.le_add_left _ _))]
  simp only [bind, Except.bind, quotient_ok h]
  rfl

/-- Lines are widened from a width and to a width that are not zero. -/
lemma widened_ok {width newWidth : Nat} (h : 0 < width) (hnew : 0 < newWidth) (bytes : Bytes) :
    widened width newWidth bytes = .ok (RecordFile.widened width newWidth bytes) := by
  unfold widened
  rw [chunks_ok h]
  simp only [bind, Except.bind, pure, Except.pure]
  rw [mapM_ok fun line _ => padded_ok hnew (Bytes.trimEnd line), RecordFile.widened,
    List.flatMap_def]

/-- What is between the two lines is not below zero, as long as there is anything.

**Proof sketch.** By the recursion of the search. The middle is computed from the distance of the
two ends, which is not below zero while the search goes on. -/
lemma searchBetween_eq (bytes : Bytes) (width : Nat) (pattern : Bytes) (low high : Nat) :
    searchBetween bytes width pattern low high =
      (RecordFile.searchBetween bytes width pattern low high).mapError .failure := by
  fun_induction RecordFile.searchBetween bytes width pattern low high with
  | case1 low high hlt middle ih₁ ih₂ =>
    rw [searchBetween, if_pos hlt, difference_ok hlt.le]
    simp only [bind, Except.bind]
    cases readAt bytes (middle * width) (min pattern.length width) with
    | error e => rfl
    | ok probe =>
      simp only [Except.mapError]
      cases hside : compare probe pattern with
      | eq => rfl
      | lt => exact ih₁
      | gt => exact ih₂
  | case2 low high hlt =>
    rw [searchBetween, if_neg hlt]
    rfl

/-- The search computes no difference or quotient that would be refused: it gives what it gives
without the checks. -/
lemma search_eq (h : file.Wide) (pattern : Bytes) :
    search file pattern = (file.search pattern).mapError .failure := by
  unfold search RecordFile.search total RecordFile.total
  cases file.bytes with
  | error e => rfl
  | ok bytes =>
    simp only [bind, Except.bind, Except.mapError, quotient_ok h.pos]
    exact searchBetween_eq _ _ _ _ _

/-- The place of a record is found with checks as it is without them. -/
lemma resolve_eq [Record R] (h : file.Wide) (record : R) (merge : Merge R) :
    resolve record merge file = (RecordFile.resolve record merge file).mapError .failure := by
  unfold resolve RecordFile.resolve
  rw [search_eq h]
  cases file.search (pattern R (key record)) with
  | error e => rfl
  | ok answer =>
    obtain ⟨hit, i⟩ := answer
    cases hit with
    | false => rfl
    | true =>
      simp only [bind, Except.bind, Except.mapError, if_true]
      cases file.recordAt i <;> rfl

/-- From every file with positive widths, an operation with checks runs like one without. -/
def Mirrors (checked : Op R α) (op : RecordFile.Op R α) : Prop :=
  ∀ file, file.Wide → checked file = plain op file

/-- An operation that succeeds succeeds as one with checks. -/
lemma plain_ok (h : op file = .ok a file') : plain op file = .ok a file' := by
  simp [plain, EStateM.adaptExcept, h]

/-- An operation that fails fails as one with checks, with a failure and not with a fault. -/
lemma plain_error (h : op file = .error e file') : plain op file = .error (.failure e) file' := by
  simp [plain, EStateM.adaptExcept, h]

/-- What follows an operation that succeeded goes on from where it left the file. -/
lemma plain_bind_ok (h : op file = .ok a file') (f : α → RecordFile.Op R β) :
    plain (op >>= f) file = plain (f a) file' := by
  unfold plain EStateM.adaptExcept
  rw [bind_ok h]

/-- What follows a look at the file is what follows for this file. -/
lemma plain_get_bind (f : RecordFile R → RecordFile.Op R β) :
    plain (get >>= f) file = plain (f file) file :=
  rfl

/-- An operation without arithmetic is its own checked form. -/
lemma mirrors_plain (op : RecordFile.Op R α) : Mirrors (plain op) op := fun _ _ => rfl

/-- A result is its own checked form. -/
lemma mirrors_pure (a : α) : Mirrors (pure a : Op R α) (pure a) := fun _ _ => rfl

/-- A question with checks changes nothing. -/
lemma look_eq (f : RecordFile R → Except Halt α) : look f = observe f := by
  funext file
  unfold look observe
  cases f file <;> rfl

/-- A question with checks that has an answer. -/
lemma look_ok {f : RecordFile R → Except Halt α} (h : f file = .ok a) :
    look f file = .ok a file := by
  rw [look_eq]
  exact observe_ok h

/-- A question with checks that has none. -/
lemma look_error {f : RecordFile R → Except Halt α} {halt : Halt} (h : f file = .error halt) :
    look f file = .error halt file := by
  rw [look_eq]
  exact observe_error h

/-- A question with checks gives what it gives without them if it does so of all files with wide
lines. -/
lemma mirrors_look {f : RecordFile R → Except Halt α} {g : RecordFile R → Except Error α}
    (h : ∀ file, file.Wide → f file = (g file).mapError .failure) :
    Mirrors (look f) (RecordFile.look g) := by
  intro file hfile
  have hf := h file hfile
  cases hg : g file with
  | ok a =>
    rw [plain_ok (RecordFile.look_ok hg)]
    exact look_ok (hf.trans (by rw [hg]; rfl))
  | error e =>
    rw [plain_error (RecordFile.look_error hg)]
    exact look_error (hf.trans (by rw [hg]; rfl))

namespace Mirrors

/-- One operation after the other. -/
lemma bind (h : Mirrors checked op) (hwide : Preserves Wide op)
    (hf : ∀ a, Mirrors (then? a) (f a)) : Mirrors (checked >>= then?) (op >>= f) := by
  intro file hfile
  have hfirst := h file hfile
  have hafter := hwide file hfile
  cases hrun : op file with
  | ok a file' =>
    rw [plain_ok hrun] at hfirst
    rw [after_ok hrun] at hafter
    rw [bind_ok hfirst, plain_bind_ok hrun]
    exact hf a file' hafter
  | error e file' =>
    rw [plain_error hrun] at hfirst
    rw [bind_error hfirst, plain_error (bind_error hrun f)]

/-- A look at the file first does not matter: what follows is mirrored for every file with wide
lines. -/
lemma get_bind {c : RecordFile R → Op R α} {f : RecordFile R → RecordFile.Op R α}
    (h : ∀ file, file.Wide → Mirrors (c file) (f file)) : Mirrors (get >>= c) (get >>= f) :=
  fun file hfile => h file hfile file hfile

/-- A computation that comes upon no fault is no step of its own. -/
lemma compute {x : Except Halt β} {b : β} (hx : x = .ok b) {c : β → Op R α}
    (h : Mirrors (c b) op) : Mirrors (look (fun _ => x) >>= c) op := by
  intro file hfile
  rw [bind_ok (look_ok hx)]
  exact h file hfile

end Mirrors

/-- No fault comes up while the lines of a file are made wider. -/
lemma mirrors_grow (needed : Nat) : Mirrors (R := R) (grow needed) (RecordFile.grow needed) :=
  .get_bind fun file hfile =>
    have hnew : 0 < RecordFile.grownWidth file.minWidth needed :=
      (Nat.zero_le _).trans_lt (lt_grownWidth hfile.minWidth_pos needed)
    .compute (grownWidth_ok hfile.minWidth_pos needed) <|
      (mirrors_plain _).bind (preserves_look _) fun old =>
        .compute (widened_ok hfile.pos hnew old) <|
          (mirrors_plain _).bind (Wide.lasting.preserves (written_setLength 0)) fun _ =>
            (mirrors_plain _).bind (Wide.lasting.preserves (written_writeAt 0 _)) fun _ _ _ => rfl

/-- No fault comes up while room is made. -/
lemma mirrors_makeRoom (needed : Nat) :
    Mirrors (R := R) (makeRoom needed) (RecordFile.makeRoom needed) :=
  .get_bind fun file _ => by
    split
    · exact mirrors_grow needed
    · exact mirrors_pure ()

/-- No fault comes up while a line is written, over another or before others. -/
lemma mirrors_writeLine (replaces : Bool) (i : Nat) (record : Bytes) :
    Mirrors (R := R) (writeLine replaces i record) (RecordFile.writeLine replaces i record) :=
  .get_bind fun file hfile => .compute (padded_ok hfile.pos record) <| by
    cases replaces with
    | true => exact mirrors_plain _
    | false => exact (mirrors_plain _).bind (preserves_look _) fun _ =>
        (mirrors_plain _).bind (Wide.lasting.preserves (written_writeAt _ _)) fun _ =>
          mirrors_plain _

/-- **Storing a record comes upon no fault.** -/
theorem mirrors_upsert [Record R] (record : R) (merge : Merge R) :
    Mirrors (upsert record merge) (RecordFile.upsert record merge) := by
  rw [upsert_eq_bind]
  exact (mirrors_look fun file hfile => resolve_eq hfile record merge).bind (preserves_look _)
    fun (hit, i, stored) =>
      (mirrors_makeRoom _).bind (Lasting.preserves_makeRoom Wide.preserves_grow _) fun _ =>
        mirrors_writeLine hit i _

/-- **Deleting a record comes upon no fault**: the line that is found has the full width.

**Proof sketch.** Step by step as without checks. The line that is found lies within the bytes, so
the bytes are no fewer than the width that is taken from their number. -/
theorem mirrors_delete [Record R] (k : Key) :
    Mirrors (R := R) (delete k) (RecordFile.delete k) := by
  intro file hfile
  have hchecked := search_eq hfile (pattern R k)
  unfold delete RecordFile.delete
  cases hsearch : file.search (pattern R k) with
  | error e =>
    rw [hsearch] at hchecked
    rw [plain_error (bind_error (RecordFile.look_error hsearch) _),
      bind_error (look_error hchecked)]
  | ok answer =>
    rw [hsearch] at hchecked
    rw [plain_bind_ok (RecordFile.look_ok hsearch), bind_ok (look_ok hchecked)]
    obtain ⟨hit, i⟩ := answer
    cases hit with
    | false => rfl
    | true =>
      obtain ⟨bytes, hbytes, hline⟩ := exists_bytes_of_hit hsearch
      -- the operation behind the search, for the bytes and the line that the search has found
      have hrest : Mirrors (R := R)
          (do
            plain (writeAt (i * file.width) (bytes.drop (i * file.width + file.width)))
            let ⟨length, _⟩ ← look fun _ => difference bytes.length file.width
            plain (setLength length)
            return true)
          (do
            writeAt (i * file.width) (bytes.drop (i * file.width + file.width))
            setLength (bytes.length - file.width)
            return true) :=
        (mirrors_plain _).bind (Wide.lasting.preserves (written_writeAt _ _)) fun _ =>
          .compute (difference_ok ((Nat.le_add_left _ _).trans hline)) <|
            (mirrors_plain _).bind (Wide.lasting.preserves (written_setLength _)) fun _ =>
              mirrors_pure true
      simp only [if_true]
      rw [get_bind, bind_ok (plain_ok (RecordFile.look_ok hbytes))]
      refine (hrest file hfile).trans ?_
      rw [plain_get_bind, plain_bind_ok (RecordFile.look_ok hbytes)]

end Checked

/-! ## Safety -/

section Safety

variable {R : Type} [Record R]

/-- The change with its arithmetic checked. -/
def Change.runChecked : Change R → Checked.Op R Unit
  | upsert record merge => Checked.upsert record merge
  | delete k => do let _ ← Checked.delete k
  | truncate => Checked.plain RecordFile.truncate

/-- A change with checks does what it does without them. -/
lemma Change.mirrors (change : Change R) : Checked.Mirrors change.runChecked change.run := by
  cases change with
  | upsert record merge => exact Checked.mirrors_upsert record merge
  | delete k => exact (Checked.mirrors_delete k).bind (Wide.lasting.preserves_delete k) fun _ =>
      Checked.mirrors_pure ()
  | truncate => exact Checked.mirrors_plain _

/-- **Changes are safe on whatever a program can hold.** A record file is open for reading or for
writing or not open, at any width, and any bytes are stored in it. Then a change computes no
difference below zero and no quotient by zero, and if it fails, the file is as it was before: its
bytes, its width and its handle. -/
theorem Change.safe_of_reached {file : RecordFile R} (h : file.Reached) (change : Change R) :
    change.runChecked file = Checked.plain change.run file ∧
      (∀ file', change.runChecked file ≠ .error .fault file') ∧
      ∀ e file', change.run file = .error e file' → file' = file := by
  have hmirrors := change.mirrors file h.wide
  refine ⟨hmirrors, fun file' hfault => ?_, fun e file' => change.eq_of_error⟩
  cases hrun : change.run file with
  | ok _ _ =>
    rw [hmirrors, Checked.plain_ok hrun] at hfault
    cases hfault
  | error _ _ =>
    rw [hmirrors, Checked.plain_error hrun] at hfault
    cases hfault

/-- A file whose only line has lost its closing brace, with half a line after it. -/
def damaged : RecordFile Posting :=
  after (openIn .readWrite) <| .new "pets_kind_index.json" 12 <|
    some (Bytes.ofText "\x7b\"k\":\"cat\",\"ids\":\"1\" \n\x7b\"k\"".toList)

/-- The line is found but not read, and stays as it is. -/
theorem Change.safe_of_reached_damaged :
    (Change.upsert (⟨"cat", "2", none⟩ : Posting) .unite).run damaged =
      .error .undecodableRecord damaged := by
  have hfails : (match (Change.upsert (⟨"cat", "2", none⟩ : Posting) .unite).run damaged with
      | .ok _ _ => none
      | .error e _ => some e) = some Error.undecodableRecord := by decide +kernel
  obtain ⟨-, -, hsame⟩ := Change.safe_of_reached ((Reached.new _ _ _).opened .readWrite)
    (.upsert (⟨"cat", "2", none⟩ : Posting) .unite)
  cases hrun : (Change.upsert (⟨"cat", "2", none⟩ : Posting) .unite).run damaged with
  | ok answer file' =>
    rw [hrun] at hfails
    cases hfails
  | error e file' =>
    rw [hrun] at hfails
    obtain rfl : e = .undecodableRecord := Option.some.inj hfails
    exact congrArg _ (hsame _ file' hrun)

end Safety

end Concordance.RecordFile
