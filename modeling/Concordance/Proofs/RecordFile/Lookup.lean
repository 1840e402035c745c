import Concordance.Proofs.Operations
import Concordance.Proofs.RecordFile.Search

set_option relaxedAutoImplicit false
set_option autoImplicit false

/-!
# Record files that hold tables

What a record file answers follows from the table that it holds: from the order of the table and
from what its records are read back as, but from nothing else about the file.

## Main definitions

* `Concordance.RecordFile.Holds` — a record file holds a table, and is open or not.

## Main results

* `Concordance.RecordFile.Holds.total` — the number of its records.
* `Concordance.RecordFile.Holds.get?` — the record of a key.
* `Concordance.RecordFile.Holds.scanAll`, `listed` — all records in order.
-/

namespace Concordance

namespace RecordFile

open Record Operation

variable {R : Type} [Record R]

/-! ## Lines found by their line feeds -/

/-- The first line feed ends the first line. -/
lemma lines_append_lineFeed {a : Bytes} (h : Bytes.lineFeed ∉ a) (rest : Bytes) :
    Bytes.lines (a ++ Bytes.lineFeed :: rest) = a :: Bytes.lines rest := by
  induction a with
  | nil => simp [Bytes.lines]
  | cons b a ih =>
    rw [List.mem_cons, not_or] at h
    rw [List.cons_append, Bytes.lines, if_neg (Ne.symm h.1), ih h.2]

/-- A line without its line feed has no line feed. -/
lemma lineFeed_not_mem_padded [Lawful R] (record : R) (count : Nat) :
    Bytes.lineFeed ∉ line record ++ List.replicate count Bytes.blank := by
  rw [List.mem_append, not_or]
  exact ⟨Lawful.lineFeed_not_mem record,
    fun hmem => absurd (List.eq_of_mem_replicate hmem) (by decide)⟩

/-- The first line of several ends with its line feed. -/
lemma pile_cons_eq {width : Nat} {record : R} (hroom : (line record).length < width)
    (records : List R) : Table.pile width (record :: records) =
      line record ++ List.replicate (width - 1 - (line record).length) Bytes.blank ++
        Bytes.lineFeed :: Table.pile width records := by
  rw [Table.pile_cons, padded_eq hroom, padding]
  simp

/-- The text lines of a file of records are the lines of its records.

**Proof sketch.** Induction on the records: each line ends at its line feed, and what is left of it
without the blanks is the line of the record, which is not empty. -/
lemma textLines_pile [Lawful R] {width : Nat} {records : List R}
    (room : ∀ record ∈ records, (line record).length < width) :
    textLines (Table.pile width records) = records.map line := by
  induction records with
  | nil => rfl
  | cons record records ih =>
    have hblank : ∀ b ∈ List.replicate (width - 1 - (line record).length) Bytes.blank,
        Bytes.isBlank b = true := by
      intro b hb
      rw [List.eq_of_mem_replicate hb]
      decide
    have hne : line record ≠ [] := by
      intro hnil
      have := Lawful.getLast?_line record
      simp [hnil] at this
    have htail := ih fun r hr => room r (List.mem_cons_of_mem _ hr)
    rw [pile_cons_eq (room record List.mem_cons_self)]
    unfold textLines at htail ⊢
    rw [lines_append_lineFeed (lineFeed_not_mem_padded record _), List.map_cons,
      trimEnd_line_append record hblank, List.filter_cons_of_pos (by simpa using hne), htail,
      List.map_cons]

/-- A record that comes back unchanged does so from its line. -/
lemma decodeLine_line {record : R} (h : ReadsBack record) :
    decodeLine (line record) = .ok record := by
  unfold ReadsBack at h
  rw [decodeLine, h]

/-- Records that come back unchanged do so from a list of lines. -/
lemma mapM_decodeLine {records : List R} (h : ∀ record ∈ records, ReadsBack record) :
    (records.map line).mapM decodeLine = .ok records := by
  have hdecode : ∀ record ∈ records, (decodeLine ∘ line) record = .ok (id record) :=
    fun record hrecord => decodeLine_line (h record hrecord)
  rw [List.mapM_map, mapM_ok hdecode, List.map_id]

/-! ## What a record file holds -/

/-- A record file with a given name and least width holds a table, and is open in some mode or not
at all. A file that is not open may be missing, and may have other widths than when it was last
open. -/
structure Holds (file : RecordFile R) (name : String) (minWidth : Nat) (opened : Option Mode)
    (table : Table R) : Prop where
  name_eq : file.name = name
  minWidth_eq : file.minWidth = minWidth
  handle_eq : file.handle = opened.map fun mode => { mode }
  stored : ∃ width, table.Fits minWidth width ∧ file.contents.getD [] = table.bytes width ∧
    (opened.isSome → file.contents.isSome ∧ file.width = width)

variable {name : String} {minWidth : Nat} {mode : Mode} {opened : Option Mode} {table : Table R}
  {file : RecordFile R}

/-- An open file holds a table if its width fits and it is the file of the table at this width. -/
lemma holds_open (hname : file.name = name) (hmin : file.minWidth = minWidth)
    (hhandle : file.handle = some { mode }) (hfits : table.Fits minWidth file.width)
    (hcontents : file.contents = some (table.bytes file.width)) :
    file.Holds name minWidth (some mode) table :=
  ⟨hname, hmin, hhandle, file.width, hfits, by rw [hcontents]; rfl, fun _ => by simp [hcontents]⟩

/-- A file that is missing or empty holds no records. -/
lemma holds_empty (name : String) (minWidth : Nat) {contents : Option Bytes}
    (h : contents.getD [] = []) :
    (new name minWidth contents : RecordFile R).Holds name (max minWidth leastWidth) none ∅ :=
  ⟨rfl, rfl, rfl, _, .empty (Nat.le_max_right _ _) le_rfl (dvd_refl _), h, by simp⟩

namespace Holds

/-- An open file has a handle of its mode, on what is stored. -/
lemma handle (h : file.Holds name minWidth (some mode) table) : file.handle = some { mode } :=
  h.handle_eq

/-- A file is open if it is open in some mode. -/
lemma isOpen_eq (h : file.Holds name minWidth opened table) : file.isOpen = opened.isSome := by
  rw [isOpen, h.handle_eq]
  cases opened <;> rfl

/-- A file that is missing holds no records. -/
lemma eq_empty (h : file.Holds name minWidth opened table) (hnone : file.contents = none) :
    table = ∅ := by
  obtain ⟨width, hfits, hcontents, -⟩ := h.stored
  have hlength := hfits.length_bytes
  rw [← hcontents, hnone] at hlength
  have hsize : table.size = 0 := by
    rcases Nat.mul_eq_zero.1 hlength.symm with hsize | hwidth
    · exact hsize
    · exact absurd hwidth hfits.pos.ne'
  have hrecords : table.records = [] := List.length_eq_zero_iff.1 hsize
  obtain ⟨records, sorted⟩ := table
  obtain rfl : records = [] := hrecords
  rfl

/-- An open file has lines that its table fits into. -/
lemma fits (h : file.Holds name minWidth (some mode) table) : table.Fits minWidth file.width := by
  obtain ⟨width, hfits, -, hopen⟩ := h.stored
  rw [(hopen rfl).2]
  exact hfits

/-- An open file is there. -/
lemma isSome (h : file.Holds name minWidth (some mode) table) : file.contents.isSome := by
  obtain ⟨width, -, -, hopen⟩ := h.stored
  exact (hopen rfl).1

/-- The bytes of an open file are those of its table. -/
lemma contents (h : file.Holds name minWidth (some mode) table) :
    file.contents = some (table.bytes file.width) := by
  obtain ⟨width, -, hcontents, hopen⟩ := h.stored
  obtain ⟨hsome, hwidth⟩ := hopen rfl
  obtain ⟨bytes, hbytes⟩ := Option.isSome_iff_exists.1 hsome
  rw [hbytes, Option.getD_some] at hcontents
  rw [hbytes, hcontents, hwidth]

/-- The bytes of an open file are those of its table. -/
lemma bytes (h : file.Holds name minWidth (some mode) table) :
    file.bytes = .ok (table.bytes file.width) := by
  simp [RecordFile.bytes, h.handle, behind, h.contents]

/-- The number of records. -/
theorem total (h : file.Holds name minWidth (some mode) table) : file.total = .ok table.size := by
  unfold RecordFile.total
  rw [h.bytes]
  simp only [bind, Except.bind, pure, Except.pure, h.fits.length_bytes,
    Nat.mul_div_cancel _ h.fits.pos]

/-- Every key is searched successfully. -/
lemma search [Lawful R] (h : file.Holds name minWidth (some mode) table) (k : Key) :
    ∃ answer, file.search (pattern R k) = .ok answer ∧ table.Located k answer := by
  obtain ⟨answer, hanswer, hlocated⟩ := table.exists_located h.fits k
  refine ⟨answer, ?_, hlocated⟩
  unfold RecordFile.search
  rw [h.bytes, h.total]
  exact hanswer

/-- A line is read at its place. -/
lemma lineAt (h : file.Holds name minWidth (some mode) table) {record : R}
    {pre post : List R} (split : table.records = pre ++ record :: post) :
    file.lineAt pre.length = .ok (line record ++ padding file.width (line record)) := by
  have hlength : pre.length < (table.lines file.width).length := by
    rw [Table.lines, List.length_map, split, List.length_append, List.length_cons]
    omega
  have hget : (table.lines file.width)[pre.length] = padded file.width (line record) := by
    simp [Table.lines, split]
  have hroom : (line record).length < file.width := h.fits.room record (by simp [split])
  unfold RecordFile.lineAt
  rw [h.bytes]
  change readAt (table.lines file.width).flatten _ _ = _
  rw [readAt_flatten h.fits.length_of_mem hlength le_rfl, hget,
    List.take_of_length_le (by rw [length_padded hroom]), padded_eq hroom]

/-- A record is read from its line. -/
lemma recordAt [Lawful R] (h : file.Holds name minWidth (some mode) table) {record : R}
    {pre post : List R} (split : table.records = pre ++ record :: post) :
    file.recordAt pre.length = decodeLine (line record) := by
  unfold RecordFile.recordAt decodeLine
  rw [h.lineAt split]
  simp only [bind, Except.bind]
  rw [decode?_padding record isBlank_padding]
  cases decode? (R := R) (line record) <;> rfl

/-- Looking up a key finds what its record is read as.

**Proof sketch.** By where the key is found: at the place of its record, whose line is read, or
between two records, and then it is not in the table. -/
theorem get? [Lawful R] (h : file.Holds name minWidth (some mode) table) (k : Key) :
    file.get? k = (table.get? k).mapM fun record => decodeLine (line record) := by
  obtain ⟨answer, hsearch, hlocated⟩ := h.search k
  unfold RecordFile.get?
  rw [hsearch]
  cases hlocated with
  | hit pre record post split hkey =>
    have hget : table.get? k = some record :=
      Table.get?_eq_some_iff.2 ⟨by simp [split], hkey⟩
    rw [hget]
    simp only [bind, Except.bind, h.recordAt split, Option.mapM_some]
    cases decodeLine (R := R) (line record) <;> rfl
  | miss pre post split before behind =>
    have hget : table.get? k = none := Table.get?_of_split split before behind
    rw [hget]
    rfl

/-- Looking up a key finds its record, if all records are read back. -/
lemma get?_of_readsBack [Lawful R] (h : file.Holds name minWidth (some mode) table)
    (hread : ∀ record ∈ table.records, ReadsBack record) (k : Key) :
    file.get? k = .ok (table.get? k) := by
  rw [h.get?]
  cases hget : table.get? k with
  | none => rfl
  | some record =>
    rw [Option.mapM_some, decodeLine_line (hread record (Table.get?_eq_some_iff.1 hget).1)]
    rfl

/-- A file that is there has the lines of its table under its name. -/
lemma namedLines [Lawful R] (h : file.Holds name minWidth opened table)
    (hsome : file.contents.isSome) : file.namedLines = .ok (table.records.map line) := by
  obtain ⟨width, hfits, hcontents, -⟩ := h.stored
  obtain ⟨bytes, hbytes⟩ := Option.isSome_iff_exists.1 hsome
  rw [hbytes, Option.getD_some] at hcontents
  unfold RecordFile.namedLines
  rw [hbytes, hcontents]
  simp only [Table.bytes_eq_pile, textLines_pile hfits.room]

/-- Going through a file finds all records of its table, in order. -/
theorem scanAll [Lawful R] (h : file.Holds name minWidth opened table)
    (hsome : file.contents.isSome) (hread : ∀ record ∈ table.records, ReadsBack record) :
    file.scanAll = .ok table.records := by
  unfold RecordFile.scanAll
  rw [h.namedLines hsome]
  exact mapM_decodeLine hread

end Holds

/-- The records of a file in order; a file that is missing has none. -/
def listed (file : RecordFile R) : Except Error (List R) :=
  if file.contents.isSome then file.scanAll else .ok []

/-- A file lists the records of its table. -/
theorem Holds.listed [Lawful R] (h : file.Holds name minWidth opened table)
    (hread : ∀ record ∈ table.records, ReadsBack record) : file.listed = .ok table.records := by
  unfold RecordFile.listed
  by_cases hsome : file.contents.isSome
  · rw [if_pos hsome]
    exact h.scanAll hsome hread
  · obtain rfl := h.eq_empty (by simpa using hsome)
    rw [if_neg hsome]
    rfl

end RecordFile

end Concordance
