import Concordance.Proofs.Operations
import Concordance.Proofs.RecordFile.Search

set_option relaxedAutoImplicit false
set_option autoImplicit false

/-!
# Files of even lines

What the operations on a record file do to its lines, as long as all of them have its width. Here
the lines need be neither records nor in order: a search ends somewhere, and one line is written
over another one, put in front of another one, or taken out.

## Main definitions

* `Concordance.RecordFile.Lined` — an open file consists of lines of its width.
* `Concordance.RecordFile.withLines` — the file with other lines.
* `Concordance.RecordFile.Roomy` — the file once there is room for a number of bytes on every line.
* `Concordance.RecordFile.resolve` — what an upsert finds out before it changes anything.

## Main results

* `Concordance.RecordFile.Lined.search` — every search succeeds.
* `Concordance.RecordFile.Lined.makeRoom` — room can always be made.
* `Concordance.RecordFile.upsert_eq_bind` — an upsert reads, makes room, and writes a line.
* `Concordance.RecordFile.Lined.upsert_miss`, `upsert_hit`, `upsert_unreadable` — an upsert writes
  one line, or fails because it cannot read the line that it was to write over.
* `Concordance.RecordFile.Lined.delete_hit`, `delete_miss` — a deletion takes one line out, or none.
* `Concordance.RecordFile.openIn_of_firstWidth`, `openIn_of_none` — how files are opened.
-/

namespace Concordance

namespace RecordFile

open Record Operation

/-! ## Writing bytes -/

section Bytes

variable {R : Type} {file : RecordFile R}

/-- Writing behind the first bytes of a file replaces as many bytes as are written. -/
lemma overwrite_append (a data b : Bytes) :
    overwrite a.length data (a ++ b) = a ++ data ++ b.drop data.length := by
  simp [overwrite, resize, List.drop_append]

/-- Cutting a file behind its first bytes leaves these. -/
lemma resize_append (a b : Bytes) : resize a.length (a ++ b) = a := by
  simp [resize]

/-- Bytes that are written behind all others are appended. -/
lemma writeAt_append (hhandle : file.handle = some { mode := .readWrite }) {a b : Bytes}
    (hcontents : file.contents = some (a ++ b)) (data : Bytes) {offset : Nat}
    (hoffset : offset = a.length) :
    writeAt offset data file =
      .ok () { file with contents := some (a ++ data ++ b.drop data.length) } := by
  obtain ⟨name, minWidth, width, contents, handle⟩ := file
  obtain rfl : handle = some { mode := .readWrite } := hhandle
  obtain rfl : contents = some (a ++ b) := hcontents
  by_cases hdata : data = []
  · subst hdata
    simp [writeAt]
  · simp [writeAt, hdata, hoffset, replaceBehind, behind, overwrite_append]

/-- Setting the length to that of the first bytes leaves those. -/
lemma setLength_append (hhandle : file.handle = some { mode := .readWrite }) {a b : Bytes}
    (hcontents : file.contents = some (a ++ b)) {length : Nat} (hlength : length = a.length) :
    setLength length file = .ok () { file with contents := some a } := by
  obtain ⟨name, minWidth, width, contents, handle⟩ := file
  obtain rfl : handle = some { mode := .readWrite } := hhandle
  obtain rfl : contents = some (a ++ b) := hcontents
  simp [setLength, hlength, replaceBehind, behind, resize_append]

/-- A question about a file changes nothing. -/
lemma look_eq {α : Type} (f : RecordFile R → Except Error α) : look f = observe f := by
  funext file
  unfold look observe
  cases f file <;> rfl

/-- A question about a file that has an answer. -/
lemma look_ok {α : Type} {f : RecordFile R → Except Error α} {a : α} (h : f file = .ok a) :
    look f file = .ok a file := by
  rw [look_eq]
  exact observe_ok h

/-- A question about a file that has none. -/
lemma look_error {α : Type} {f : RecordFile R → Except Error α} {e : Error}
    (h : f file = .error e) : look f file = .error e file := by
  rw [look_eq]
  exact observe_error h

/-- A question about a file keeps everything. -/
lemma preserves_look {α : Type} {P : RecordFile R → Prop} (f : RecordFile R → Except Error α) :
    Preserves P (look f) := by
  rw [look_eq]
  exact preserves_observe f

end Bytes

/-! ## Lines -/

section Lines

variable {R : Type} {file : RecordFile R} {ls ls' : List Bytes}

/-- A record file is open for writing and consists of lines of its width. -/
structure Lined (file : RecordFile R) (ls : List Bytes) : Prop where
  handle : file.handle = some { mode := .readWrite }
  contents : file.contents = some ls.flatten
  pos : 0 < file.width
  length_of_mem : ∀ l ∈ ls, l.length = file.width

/-- A record file with other lines. -/
def withLines (file : RecordFile R) (ls : List Bytes) : RecordFile R :=
  { file with contents := some ls.flatten }

namespace Lined

/-- Other lines of the same width can stand in for those of a file. -/
lemma withLines (h : file.Lined ls) (hlength : ∀ l ∈ ls', l.length = file.width) :
    (file.withLines ls').Lined ls' :=
  ⟨h.handle, rfl, h.pos, hlength⟩

/-- The bytes of a file are those of its lines. -/
lemma bytes (h : file.Lined ls) : file.bytes = .ok ls.flatten := by
  simp [RecordFile.bytes, h.handle, behind, h.contents]

/-- Lines of one width have as many bytes as there are lines, times the width. -/
lemma length_flatten (h : file.Lined ls) : ls.flatten.length = ls.length * file.width :=
  Bytes.length_flatten h.length_of_mem

/-- There are as many records as lines. -/
lemma total (h : file.Lined ls) : file.total = .ok ls.length := by
  unfold RecordFile.total
  rw [h.bytes]
  simp only [bind, Except.bind, pure, Except.pure, h.length_flatten, Nat.mul_div_cancel _ h.pos]

/-- A search between two lines ends at one of them or behind the last one, whatever their order,
and a hit starts with the pattern. -/
lemma searchBetween (h : file.Lined ls) (pattern : Bytes) (low high : Nat) (hle : low ≤ high)
    (hhigh : high ≤ ls.length) :
    ∃ hit i, RecordFile.searchBetween ls.flatten file.width pattern low high = .ok (hit, i) ∧
      i ≤ ls.length ∧ (hit = true → ∃ hi : i < ls.length, pattern <+: ls[i]) := by
  fun_induction RecordFile.searchBetween ls.flatten file.width pattern low high with
  | case1 low high hlt middle ih₁ ih₂ =>
    have hmiddle : middle < ls.length := by omega
    rw [readAt_probe h.length_of_mem hmiddle]
    simp only [bind, Except.bind]
    cases hside : compare (ls[middle].take pattern.length) pattern with
    | eq => exact ⟨true, middle, rfl, hmiddle.le, fun _ =>
        ⟨hmiddle, Bytes.compare_take_eq_iff.1 hside⟩⟩
    | lt => exact ih₁ (by omega) hhigh
    | gt => exact ih₂ (by omega) (by omega)
  | case2 low high hlt => exact ⟨false, low, rfl, by omega, by simp⟩

/-- Every search succeeds. -/
theorem search (h : file.Lined ls) (pattern : Bytes) :
    ∃ hit i, file.search pattern = .ok (hit, i) ∧ i ≤ ls.length ∧
      (hit = true → ∃ hi : i < ls.length, pattern <+: ls[i]) := by
  unfold RecordFile.search
  rw [h.bytes, h.total]
  exact h.searchBetween pattern 0 ls.length (Nat.zero_le _) le_rfl

/-- The line at a place is read from where it begins, which is that many widths into the file. -/
lemma lineAt (h : file.Lined ls) {i : Nat} (hi : i < ls.length) : file.lineAt i = .ok ls[i] := by
  unfold RecordFile.lineAt
  rw [h.bytes]
  change readAt ls.flatten _ _ = _
  rw [readAt_flatten h.length_of_mem hi le_rfl,
    List.take_of_length_le (h.length_of_mem _ (List.getElem_mem hi)).le]

/-- The record at a place is what its line decodes to. -/
lemma recordAt [Record R] (h : file.Lined ls) {i : Nat} (hi : i < ls.length) :
    file.recordAt i = decodeLine ls[i] := by
  unfold RecordFile.recordAt decodeLine
  rw [h.lineAt hi]
  simp only [bind, Except.bind]
  cases decode? (R := R) ls[i] <;> rfl

/-! ## Writing lines -/

/-- The first lines of a file fill as many widths. -/
lemma length_take (h : file.Lined ls) {i : Nat} (hi : i ≤ ls.length) :
    (ls.take i).flatten.length = i * file.width := by
  rw [Bytes.length_flatten fun l hl => h.length_of_mem l (List.mem_of_mem_take hl),
    List.length_take_of_le hi]

/-- A file is divided behind some of its lines. -/
lemma contents_split (h : file.Lined ls) (i : Nat) :
    file.contents = some ((ls.take i).flatten ++ (ls.drop i).flatten) := by
  rw [h.contents, ← List.flatten_append, List.take_append_drop]

end Lined

/-- Writes a record on a line of the open file: over line `i`, or in front of it. -/
def writeLine (replaces : Bool) (i : Nat) (record : Bytes) : Op R Unit := do
  let width := (← get).width
  let line := padded width record
  if replaces then writeAt (i * width) line
  else
    let rest := (← look bytes).drop (i * width)
    writeAt (i * width) line
    writeAt (i * width + line.length) rest

namespace Lined

variable {record : Bytes} {i : Nat}

/-- A line is written over another one. -/
lemma writeLine_over (h : file.Lined ls) (hi : i < ls.length) (hroom : record.length < file.width) :
    writeLine true i record file =
      .ok () (file.withLines (ls.take i ++ padded file.width record :: ls.drop (i + 1))) := by
  have hline : (padded file.width record).length = file.width := length_padded hroom
  have hrest : (ls.drop i).flatten.drop file.width = (ls.drop (i + 1)).flatten := by
    rw [List.drop_eq_getElem_cons hi, List.flatten_cons,
      List.drop_left' (h.length_of_mem _ (List.getElem_mem hi))]
  unfold writeLine
  rw [get_bind]
  simp only [if_true]
  rw [writeAt_append h.handle (h.contents_split i) _ (h.length_take hi.le).symm, hline, hrest]
  simp [RecordFile.withLines]

/-- A line is written between two others. -/
lemma writeLine_before (h : file.Lined ls) (hi : i ≤ ls.length)
    (hroom : record.length < file.width) :
    writeLine false i record file =
      .ok () (file.withLines (ls.take i ++ padded file.width record :: ls.drop i)) := by
  have hline : (padded file.width record).length = file.width := length_padded hroom
  let inserted : RecordFile R := { file with contents := some ((ls.take i).flatten ++
    padded file.width record ++ (ls.drop i).flatten.drop (padded file.width record).length) }
  have hfirst : writeAt (i * file.width) (padded file.width record) file = .ok () inserted :=
    writeAt_append h.handle (h.contents_split i) _ (h.length_take hi).symm
  unfold writeLine
  rw [get_bind]
  simp only [Bool.false_eq_true, if_false]
  rw [bind_ok (look_ok h.bytes), bind_ok hfirst, Bytes.drop_flatten h.length_of_mem,
    @writeAt_append R inserted h.handle _ _ rfl _ _ (by rw [List.length_append, h.length_take hi])]
  simp [inserted, RecordFile.withLines, List.drop_drop]

/-- A line is taken out.

**Proof sketch.** The lines behind the one at the place are written over it, and then the length is
set to that of all lines but one. -/
lemma takeOut (h : file.Lined ls) (hi : i < ls.length) :
    ∃ moved, writeAt (i * file.width) (ls.flatten.drop (i * file.width + file.width)) file =
        .ok () moved ∧ setLength (ls.flatten.length - file.width) moved =
          .ok () (file.withLines (ls.take i ++ ls.drop (i + 1))) := by
  have hrest : ls.flatten.drop (i * file.width + file.width) = (ls.drop (i + 1)).flatten := by
    rw [← Nat.succ_mul, Bytes.drop_flatten h.length_of_mem]
  have hlength : ls.flatten.length - file.width =
      ((ls.take i).flatten ++ (ls.drop (i + 1)).flatten).length := by
    have hdrop : (ls.drop (i + 1)).flatten.length = (ls.length - (i + 1)) * file.width := by
      rw [Bytes.length_flatten fun l hl => h.length_of_mem l (List.mem_of_mem_drop hl),
        List.length_drop]
    have hsplit : ls.length = i + (ls.length - (i + 1)) + 1 := by omega
    rw [List.length_append, h.length_take hi.le, hdrop, h.length_flatten]
    conv_lhs => rw [hsplit]
    rw [Nat.add_mul, Nat.add_mul, Nat.one_mul, Nat.add_sub_cancel]
  let moved : RecordFile R := { file with contents := some ((ls.take i).flatten ++
    (ls.drop (i + 1)).flatten ++ (ls.drop i).flatten.drop (ls.drop (i + 1)).flatten.length) }
  have hmoved : writeAt (i * file.width) (ls.drop (i + 1)).flatten file = .ok () moved :=
    writeAt_append h.handle (h.contents_split i) _ (h.length_take hi.le).symm
  refine ⟨moved, by rw [hrest, hmoved], ?_⟩
  rw [@setLength_append R moved h.handle _ _ rfl _ hlength]
  simp [moved, RecordFile.withLines]

end Lined

/-! ## Room for lines -/

/-- Lines that have grown have room for what they had to grow for. -/
lemma lt_grownWidth {minWidth : Nat} (h : 0 < minWidth) (needed : Nat) :
    needed < grownWidth minWidth needed := by
  unfold grownWidth
  have := Nat.lt_mul_div_succ (needed + minWidth - 1) h
  omega

/-- Lines get wider by whole multiples of the smallest width. -/
lemma dvd_grownWidth (minWidth needed : Nat) : minWidth ∣ grownWidth minWidth needed :=
  Nat.dvd_mul_right _ _

/-- Makes room for a number of bytes on every line. -/
def makeRoom (needed : Nat) : Op R Unit := do
  if (← get).width < needed then grow needed

/-- Lines at another width. -/
def refitted (width : Nat) (ls : List Bytes) : List Bytes :=
  ls.map fun l => padded width (Bytes.trimEnd l)

/-- A file once there is room for a number of bytes on every line: as it was, or with wider lines
that have kept what is on them. -/
inductive Roomy (file : RecordFile R) (ls : List Bytes) (needed : Nat) :
    RecordFile R → List Bytes → Prop
  | same (hroom : needed ≤ file.width) : Roomy file ls needed file ls
  | grown (width : Nat) (htight : file.width < needed) (hroom : needed ≤ width)
      (hdvd : file.minWidth ∣ width) :
      Roomy file ls needed { file.withLines (refitted width ls) with width } (refitted width ls)

/-- Cutting off blanks at the end makes nothing longer. -/
lemma length_trimEnd_le (bytes : Bytes) : (Bytes.trimEnd bytes).length ≤ bytes.length := by
  unfold Bytes.trimEnd
  rw [List.length_reverse]
  exact ((List.dropWhile_sublist _).length_le).trans_eq List.length_reverse

namespace Roomy

variable {needed : Nat} {wide : RecordFile R}

/-- Where room was made there is room for what needed it. -/
lemma le (h : Roomy file ls needed wide ls') : needed ≤ wide.width := by
  cases h with
  | same hroom => exact hroom
  | grown width htight hroom hdvd => exact hroom

/-- Wider lines are even, too. -/
lemma lined (h : Roomy file ls needed wide ls') (hlined : file.Lined ls) : wide.Lined ls' := by
  cases h with
  | same hroom => exact hlined
  | grown width htight hroom hdvd =>
    refine ⟨hlined.handle, rfl, by change 0 < width; omega, fun l hl => ?_⟩
    obtain ⟨old, hold, rfl⟩ := List.mem_map.1 hl
    have hlength := length_trimEnd_le old
    rw [hlined.length_of_mem old hold] at hlength
    exact length_padded (by omega)

/-- Making room keeps the number of lines. -/
lemma length_eq (h : Roomy file ls needed wide ls') : ls'.length = ls.length := by
  cases h with
  | same hroom => rfl
  | grown width htight hroom hdvd => exact List.length_map _

end Roomy

/-- Room can always be made.

**Proof sketch.** If the lines are too narrow, all bytes are read, the file is cut to none, and the
lines are written at the new width. -/
theorem Lined.makeRoom (h : file.Lined ls) (hmin : 0 < file.minWidth) (needed : Nat) :
    ∃ wide ls', RecordFile.makeRoom needed file = .ok () wide ∧
      Roomy file ls needed wide ls' := by
  unfold RecordFile.makeRoom
  rw [get_bind]
  by_cases hneeded : file.width < needed
  · let newWidth := grownWidth file.minWidth needed
    let emptied : RecordFile R := { file with contents := some [] }
    have hcut : setLength 0 file = .ok () emptied :=
      @setLength_append R file h.handle [] _ h.contents 0 rfl
    have hwidened : widened file.width newWidth ls.flatten = (refitted newWidth ls).flatten := by
      rw [widened, Bytes.chunks_flatten h.pos h.length_of_mem, refitted, List.flatMap_def]
    have hwrite : writeAt 0 (widened file.width newWidth ls.flatten) emptied =
        .ok () (file.withLines (refitted newWidth ls)) := by
      rw [hwidened, @writeAt_append R emptied h.handle [] [] rfl _ 0 rfl]
      simp [emptied, RecordFile.withLines]
    refine ⟨_, _, ?_, .grown newWidth hneeded (lt_grownWidth hmin needed).le
      (dvd_grownWidth _ _)⟩
    rw [if_pos hneeded]
    unfold grow
    rw [get_bind, bind_ok (look_ok h.bytes), bind_ok hcut, bind_ok hwrite]
    rfl
  · rw [if_neg hneeded]
    exact ⟨file, ls, rfl, .same (by omega)⟩

end Lines

/-! ## Upserts and deletions -/

section Records

variable {R : Type} [Record R] {file : RecordFile R} {ls : List Bytes} {record : R}
  (merge : Merge R) {i : Nat}

/-- What an upsert finds out: whether the key is there, on which line or in front of which one, and
what is to be stored. -/
def resolve (record : R) (merge : Merge R) (file : RecordFile R) :
    Except Error (Bool × Nat × R) := do
  let (hit, i) ← file.search (pattern R (key record))
  if hit then return (hit, i, merge.apply record (← file.recordAt i)) else return (hit, i, record)

section Resolve

variable {merge}

/-- A record that is not found is to be stored as it is, at the place where it belongs. -/
lemma resolve_miss (hsearch : file.search (pattern R (key record)) = .ok (false, i)) :
    resolve record merge file = .ok (false, i, record) := by
  unfold resolve
  rw [hsearch]
  rfl

/-- A record that is found is to be stored as what it merges to with the one that is there. -/
lemma resolve_hit (hsearch : file.search (pattern R (key record)) = .ok (true, i)) {existing : R}
    (hexisting : file.recordAt i = .ok existing) :
    resolve record merge file = .ok (true, i, merge.apply record existing) := by
  unfold resolve
  rw [hsearch]
  simp only [bind, Except.bind, if_true, hexisting]
  rfl

/-- If the record that is there cannot be read, that is the error. -/
lemma resolve_unreadable (hsearch : file.search (pattern R (key record)) = .ok (true, i))
    {e : Error} (hrecord : file.recordAt i = .error e) :
    resolve record merge file = .error e := by
  unfold resolve
  rw [hsearch]
  simp only [bind, Except.bind, if_true, hrecord]

/-- If the search fails, that is the error. -/
lemma resolve_error {e : Error} (hsearch : file.search (pattern R (key record)) = .error e) :
    resolve record merge file = .error e := by
  unfold resolve
  rw [hsearch]
  rfl

end Resolve

/-- **An upsert reads before it writes**: all that it needs to know it finds out first, then it
makes room, and then it writes a line.

**Proof sketch.** By what the search finds, and for a record that is found by whether it can be
read. In each case it is known what to store before anything is written. -/
theorem upsert_eq_bind (record : R) : upsert record merge =
    (look (resolve record merge) >>= fun (hit, i, stored) =>
      makeRoom ((line stored).length + 1) >>= fun _ => writeLine hit i (line stored)) := by
  funext file
  unfold upsert
  cases hsearch : file.search (pattern R (key record)) with
  | error e => rw [bind_error (look_error hsearch), bind_error (look_error (resolve_error hsearch))]
  | ok answer =>
    obtain ⟨hit, i⟩ := answer
    have hstore : ∀ stored : R, (if file.width < (line stored).length + 1 then
        grow ((line stored).length + 1) >>= fun _ => writeLine hit i (line stored)
        else writeLine hit i (line stored)) file =
          (makeRoom ((line stored).length + 1) >>= fun _ => writeLine hit i (line stored)) file :=
      fun stored => congrFun (ite_bind _ (grow ((line stored).length + 1))
        fun _ => writeLine hit i (line stored)) file
    rw [bind_ok (look_ok hsearch)]
    cases hit with
    | false =>
      rw [bind_ok (look_ok (resolve_miss hsearch))]
      exact hstore record
    | true =>
      simp only [if_true]
      cases hexisting : file.recordAt i with
      | error e =>
        rw [bind_error (look_error hexisting),
          bind_error (look_error (resolve_unreadable hsearch hexisting))]
      | ok existing =>
        rw [bind_ok (look_ok hexisting), bind_ok (look_ok (resolve_hit hsearch hexisting))]
        exact hstore (merge.apply record existing)

/-- Once it is known what to store and where, an upsert makes room and writes a line. -/
lemma upsert_of_resolve {merge : Merge R} {hit : Bool} {stored : R}
    (h : resolve record merge file = .ok (hit, i, stored)) : upsert record merge file =
      (makeRoom ((line stored).length + 1) >>= fun _ => writeLine hit i (line stored)) file := by
  rw [upsert_eq_bind]
  exact bind_ok (look_ok h) _

namespace Lined

/-- A record whose key is not found is written on a line of its own. -/
theorem upsert_miss (h : file.Lined ls) (hmin : 0 < file.minWidth) (hi : i ≤ ls.length)
    (hsearch : file.search (pattern R (key record)) = .ok (false, i)) :
    ∃ wide ls', Roomy file ls ((line record).length + 1) wide ls' ∧
      upsert record merge file = .ok () (wide.withLines
        (ls'.take i ++ padded wide.width (line record) :: ls'.drop i)) := by
  obtain ⟨wide, ls', hwide, hroomy⟩ := h.makeRoom hmin ((line record).length + 1)
  refine ⟨wide, ls', hroomy, ?_⟩
  rw [upsert_of_resolve (resolve_miss hsearch), bind_ok hwide,
    (hroomy.lined h).writeLine_before (by rw [hroomy.length_eq]; exact hi) hroomy.le]

/-- A record whose key is found is merged with what is read there, and written over it. -/
theorem upsert_hit (h : file.Lined ls) (hmin : 0 < file.minWidth) (hi : i < ls.length)
    (hsearch : file.search (pattern R (key record)) = .ok (true, i)) {existing : R}
    (hexisting : decodeLine ls[i] = .ok existing) :
    ∃ wide ls', Roomy file ls ((line (merge.apply record existing)).length + 1) wide ls' ∧
      upsert record merge file = .ok () (wide.withLines (ls'.take i ++
        padded wide.width (line (merge.apply record existing)) :: ls'.drop (i + 1))) := by
  obtain ⟨wide, ls', hwide, hroomy⟩ :=
    h.makeRoom hmin ((line (merge.apply record existing)).length + 1)
  refine ⟨wide, ls', hroomy, ?_⟩
  rw [upsert_of_resolve (resolve_hit hsearch ((h.recordAt hi).trans hexisting)), bind_ok hwide,
    (hroomy.lined h).writeLine_over (by rw [hroomy.length_eq]; exact hi) hroomy.le]

/-- An upsert over a line that cannot be read fails and changes nothing. -/
theorem upsert_unreadable (h : file.Lined ls) (hi : i < ls.length)
    (hsearch : file.search (pattern R (key record)) = .ok (true, i)) {e : Error}
    (hrecord : decodeLine (R := R) ls[i] = .error e) :
    upsert record merge file = .error e file := by
  rw [upsert_eq_bind,
    bind_error (look_error (resolve_unreadable hsearch ((h.recordAt hi).trans hrecord)))]

/-- A deletion takes out the line that is found. -/
theorem delete_hit (h : file.Lined ls) (hi : i < ls.length) {k : Key}
    (hsearch : file.search (pattern R k) = .ok (true, i)) :
    delete k file = .ok true (file.withLines (ls.take i ++ ls.drop (i + 1))) := by
  obtain ⟨moved, hmoved, hcut⟩ := h.takeOut hi
  unfold delete
  rw [bind_ok (look_ok hsearch)]
  simp only [if_true]
  rw [get_bind, bind_ok (look_ok h.bytes), bind_ok hmoved, bind_ok hcut]
  rfl

end Lined

/-- A deletion of a key that is not found does nothing. -/
lemma delete_miss {k : Key} (hsearch : file.search (pattern R k) = .ok (false, i)) :
    delete k file = .ok false file := by
  unfold delete
  rw [bind_ok (look_ok hsearch)]
  rfl

end Records

/-! ## Opening and emptying -/

section Opening

variable {R : Type} {file : RecordFile R}

/-- The first line feed stands behind what has none. -/
lemma findIdx?_lineFeed {a : Bytes} (h : Bytes.lineFeed ∉ a) (rest : Bytes) :
    (a ++ Bytes.lineFeed :: rest).findIdx? (· = Bytes.lineFeed) = some a.length := by
  induction a with
  | nil => simp [List.findIdx?_cons]
  | cons b a ih =>
    rw [List.mem_cons, not_or] at h
    simp [List.findIdx?_cons, Ne.symm h.1, ih h.2]

/-- The width of a file is that of its first line. -/
lemma firstWidth_append {a : Bytes} (h : Bytes.lineFeed ∉ a) (name : String) (rest : Bytes) :
    firstWidth name (a ++ Bytes.lineFeed :: rest) = .ok (some (a.length + 1)) := by
  unfold firstWidth
  rw [if_neg (by simp), findIdx?_lineFeed h]

/-- A file that is there is opened at the width of its first line. -/
lemma openIn_of_firstWidth {bytes : Bytes} {first : Option Nat}
    (hcontents : file.contents = some bytes) (hfirst : firstWidth file.name bytes = .ok first)
    (mode : Mode) : RecordFile.openIn mode file =
      .ok () { file with width := first.getD file.minWidth, handle := some { mode } } := by
  have hcreate : (if mode = .readWrite then RecordFile.create else pure () : Op R Unit) file =
      .ok () file := by
    split
    · rw [RecordFile.create, if_pos (by rw [hcontents]; rfl)]
    · rfl
  have hlook : look (fun _ => firstWidth file.name bytes) file = .ok first file := look_ok hfirst
  unfold RecordFile.openIn
  refine (ite_bind_ok hcreate _).trans ?_
  simp only [get_bind, hcontents]
  rw [bind_ok hlook, ← hcontents]
  rfl

/-- A file that is there need not be made. -/
lemma create_of_isSome (h : file.contents.isSome) : RecordFile.create file = .ok () file := by
  rw [RecordFile.create, if_pos h]

/-- A file that is missing is made if it can have its name. -/
lemma create_of_none (hnone : file.contents = none) (hname : usableName file.name = true) :
    RecordFile.create file = .ok () { file with contents := some [] } := by
  simp [RecordFile.create, hnone, hname]

/-- A file that is missing is made when it is opened for writing, if it can have its name. -/
lemma openIn_of_none (hnone : file.contents = none) (hname : usableName file.name = true) :
    RecordFile.openIn .readWrite file = .ok () { file with
      contents := some [], width := file.minWidth, handle := some { mode := .readWrite } } := by
  let made : RecordFile R := { file with contents := some [] }
  have hmade : RecordFile.create file = .ok () made := create_of_none hnone hname
  have hagain : RecordFile.create made = .ok () made := rfl
  refine Eq.trans ?_ (@openIn_of_firstWidth R made [] none rfl rfl .readWrite)
  unfold RecordFile.openIn
  simp only [if_true]
  rw [bind_ok hmade, bind_ok hagain]

/-- A file that is missing and cannot have its name is not made. -/
lemma create_error (hnone : file.contents = none) (hname : ¬ usableName file.name = true) :
    RecordFile.create file = .error .inaccessibleFile file := by
  simp [RecordFile.create, hnone, hname]

/-- A file that is missing and cannot be made is not opened. -/
lemma openIn_error (hnone : file.contents = none) {mode : Mode}
    (h : ¬ (mode = .readWrite ∧ usableName file.name)) :
    RecordFile.openIn mode file = .error .inaccessibleFile file := by
  unfold RecordFile.openIn
  by_cases hmode : mode = .readWrite
  · have hname : ¬ usableName file.name = true := fun hname => h ⟨hmode, hname⟩
    simp only [if_pos hmode]
    exact bind_error (create_error hnone hname) _
  · simp only [if_neg hmode]
    rw [get_bind, hnone]
    rfl

/-- An open file is emptied through its handle. -/
lemma Lined.truncate {ls : List Bytes} (h : file.Lined ls) : RecordFile.truncate file =
    .ok () { file with contents := some [], width := file.minWidth } := by
  have hopen : file.isOpen = true := by rw [isOpen, h.handle]; rfl
  unfold RecordFile.truncate
  rw [get_bind]
  simp only [hopen, if_true]
  rw [bind_ok (@setLength_append R file h.handle [] _ h.contents 0 rfl)]
  rfl

/-- A file that is not open is emptied by its name. -/
lemma truncate_of_closed (hhandle : file.handle = none)
    (hready : file.contents.isSome ∨ usableName file.name = true) : RecordFile.truncate file =
      .ok () { file with contents := some [], width := file.minWidth } := by
  have hclosed : file.isOpen = false := by rw [isOpen, hhandle]; rfl
  unfold RecordFile.truncate
  rw [get_bind]
  simp only [hclosed, Bool.false_eq_true, if_false]
  by_cases hsome : file.contents.isSome
  · rw [bind_ok (create_of_isSome hsome)]
    rfl
  · rw [bind_ok (create_of_none (by simpa using hsome) (hready.resolve_left hsome))]
    rfl

/-- A file that is missing and cannot be made is not emptied. -/
lemma truncate_error (hhandle : file.handle = none) (hnone : file.contents = none)
    (hname : ¬ usableName file.name = true) :
    RecordFile.truncate file = .error .inaccessibleFile file := by
  unfold RecordFile.truncate
  rw [get_bind]
  simp only [isOpen, hhandle, Option.isSome_none, Bool.false_eq_true, if_false]
  rw [bind_error (create_error hnone hname)]

end Opening

end RecordFile

end Concordance
