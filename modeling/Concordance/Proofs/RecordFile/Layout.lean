import Concordance.Proofs.RecordFile.Table
import Concordance.RecordFile.Change

set_option relaxedAutoImplicit false
set_option autoImplicit false

/-!
# The layout of record files

A record file is its lines one behind the other, all of the same width. So the lines can be taken
apart again by their width as well as by their line feeds, and changing lines means writing at
multiples of the width.

## Main definitions

* `Concordance.Table.lines`, `bytes` — the lines of a table at a width, and its file.
* `Concordance.Table.Fits` — the widths that a table can have.

## Main results

* `Concordance.RecordFile.readAt_flatten` — reading the beginning of a line.
-/

namespace Concordance

/-! ## Lines of one width -/

namespace Bytes

variable {width : Nat} {ls : List Bytes}

/-- Lists of one length have together that length times their number. -/
lemma length_flatten (h : ∀ l ∈ ls, l.length = width) : ls.flatten.length = ls.length * width := by
  induction ls with
  | nil => simp
  | cons l ls ih =>
    rw [List.flatten_cons, List.length_append, h l List.mem_cons_self,
      ih fun l' hl' => h l' (List.mem_cons_of_mem _ hl'), List.length_cons, Nat.succ_mul,
      Nat.add_comm]

/-- Dropping whole lines leaves the other lines. -/
lemma drop_flatten (h : ∀ l ∈ ls, l.length = width) (i : Nat) :
    ls.flatten.drop (i * width) = (ls.drop i).flatten := by
  induction ls generalizing i with
  | nil => simp
  | cons l ls ih =>
    cases i with
    | zero => simp
    | succ i =>
      have hl := h l List.mem_cons_self
      rw [List.flatten_cons, Nat.succ_mul, Nat.add_comm, List.drop_succ_cons, ← List.drop_drop,
        List.drop_left' hl, ih fun l' hl' => h l' (List.mem_cons_of_mem _ hl')]

/-- Cutting into chunks of the width takes the lines apart. -/
lemma chunks_flatten (hwidth : 0 < width) (h : ∀ l ∈ ls, l.length = width) :
    chunks width ls.flatten = ls := by
  induction ls with
  | nil => simp [chunks]
  | cons l ls ih =>
    have hl := h l List.mem_cons_self
    cases l with
    | nil => simp at hl; omega
    | cons b l =>
      have hlength : l.length = width - 1 := by
        rw [List.length_cons] at hl
        omega
      rw [List.flatten_cons, List.cons_append, chunks, List.take_left' hlength,
        List.drop_left' hlength, ih fun l' hl' => h l' (List.mem_cons_of_mem _ hl')]

end Bytes

/-! ## Padded lines -/

namespace RecordFile

variable {R : Type} [Record R]

/-- The blanks and the line feed behind a record. -/
def padding (width : Nat) (record : Bytes) : Bytes :=
  List.replicate (width - 1 - record.length) Bytes.blank ++ [Bytes.lineFeed]

/-- What fills up a line are blanks and the line feed, which count as blank at its end. -/
lemma isBlank_padding {width : Nat} {record : Bytes} :
    ∀ b ∈ padding width record, Bytes.isBlank b = true := by
  intro b hb
  rcases List.mem_append.1 hb with hb | hb
  · rw [List.eq_of_mem_replicate hb]
    decide
  · rw [List.mem_singleton.1 hb]
    decide

/-- A line with room for its record is the record with padding. -/
lemma padded_eq {width : Nat} {record : Bytes} (h : record.length < width) :
    padded width record = record ++ padding width record := by
  rw [padded, List.take_of_length_le (by omega), padding, List.append_assoc]

/-- A record with room is padded to the width. -/
lemma length_padded {width : Nat} {record : Bytes} (h : record.length < width) :
    (padded width record).length = width := by
  rw [padded_eq h, padding]
  simp only [List.length_append, List.length_replicate, List.length_singleton]
  omega

end RecordFile

/-! ## Files of tables -/

namespace Table

open Record

variable {R : Type} [Record R]

/-- The lines of a table at a width. -/
def lines (table : Table R) (width : Nat) : List Bytes :=
  table.records.map fun record => RecordFile.padded width (line record)

/-- The file of a table at a width. -/
def bytes (table : Table R) (width : Nat) : Bytes := (table.lines width).flatten

/-- The lines of records one behind the other. -/
def pile (width : Nat) (records : List R) : Bytes :=
  (records.map fun record => RecordFile.padded width (line record)).flatten

/-- The first record of a file stands in front of the others. -/
lemma pile_cons (width : Nat) (record : R) (records : List R) :
    pile width (record :: records) =
      RecordFile.padded width (line record) ++ pile width records := by
  simp [pile]

/-- A file of records has as many bytes as there are records, times the width. -/
lemma length_pile {width : Nat} {records : List R}
    (room : ∀ record ∈ records, (line record).length < width) :
    (pile width records).length = records.length * width := by
  unfold pile
  rw [Bytes.length_flatten, List.length_map]
  intro l hl
  obtain ⟨record, hrecord, rfl⟩ := List.mem_map.1 hl
  exact RecordFile.length_padded (room record hrecord)

/-- The bytes of a table are its records, padded and in their order. -/
lemma bytes_eq_pile (table : Table R) (width : Nat) :
    table.bytes width = pile width table.records := rfl

/-- The widths that a table can have: multiples of the least width with room for all records. -/
structure Fits (table : Table R) (minWidth width : Nat) : Prop where
  least : RecordFile.leastWidth ≤ minWidth
  le : minWidth ≤ width
  dvd : minWidth ∣ width
  room : ∀ record ∈ table.records, (line record).length < width

namespace Fits

variable {table : Table R} {minWidth width : Nat}

/-- A width with room for records is not zero. -/
lemma pos (h : table.Fits minWidth width) : 0 < width :=
  Nat.lt_of_lt_of_le (by decide) (h.least.trans h.le)

/-- All lines of a table have the width. -/
lemma length_of_mem (h : table.Fits minWidth width) :
    ∀ l ∈ table.lines width, l.length = width := by
  intro l hl
  obtain ⟨record, hrecord, rfl⟩ := List.mem_map.1 hl
  exact RecordFile.length_padded (h.room record hrecord)

/-- The file of a table has as many bytes as there are records, times the width. -/
lemma length_bytes (h : table.Fits minWidth width) :
    (table.bytes width).length = table.size * width := by
  rw [bytes, Bytes.length_flatten h.length_of_mem, lines, List.length_map, size]

/-- A table without records fits into every width that is a multiple of the smallest one. -/
lemma empty {minWidth width : Nat} (least : RecordFile.leastWidth ≤ minWidth)
    (le : minWidth ≤ width) (dvd : minWidth ∣ width) : (∅ : Table R).Fits minWidth width :=
  ⟨least, le, dvd, fun _ h => by cases h⟩

/-- A record with room can be put. -/
lemma put (h : table.Fits minWidth width) {record : R} (room : (line record).length < width) :
    (table.put record).Fits minWidth width := by
  refine ⟨h.least, h.le, h.dvd, fun other hother => ?_⟩
  rcases mem_put.1 hother with rfl | ⟨hother, -⟩
  · exact room
  · exact h.room other hother

/-- A table with fewer records fits as well. -/
lemma erase (h : table.Fits minWidth width) (k : Key) :
    (table.erase k).Fits minWidth width :=
  ⟨h.least, h.le, h.dvd, fun other hother => h.room other (mem_erase.1 hother).1⟩

/-- Lines can be made wider. -/
lemma widen (h : table.Fits minWidth width) {newWidth : Nat} (hle : width ≤ newWidth)
    (hdvd : minWidth ∣ newWidth) : table.Fits minWidth newWidth :=
  ⟨h.least, h.le.trans hle, hdvd, fun record hrecord => (h.room record hrecord).trans_le hle⟩

/-- The lines are in strict order, like the codes they start with. -/
lemma sorted_lines [Lawful R] (h : table.Fits minWidth width) :
    (table.lines width).Pairwise fun a b => compare a b = .lt := by
  refine List.pairwise_map.2 (table.sorted.imp_of_mem fun {a b} ha hb hlt => ?_)
  rw [RecordFile.padded_eq (h.room a ha), RecordFile.padded_eq (h.room b hb),
    compare_line_append_of_ne (key_ne_of_lt hlt)]
  exact hlt

end Fits

end Table

namespace RecordFile

variable {R : Type} [Record R]

/-! ## Reading and rewriting lines -/

/-- The beginning of a line is read at a multiple of the width. -/
lemma readAt_flatten {width : Nat} {ls : List Bytes} (h : ∀ l ∈ ls, l.length = width) {i : Nat}
    (hi : i < ls.length) {n : Nat} (hn : n ≤ width) :
    readAt ls.flatten (i * width) n = .ok (ls[i].take n) := by
  have hl : ls[i].length = width := h _ (List.getElem_mem hi)
  have htake : (ls.flatten.drop (i * width)).take n = ls[i].take n := by
    rw [Bytes.drop_flatten h, List.drop_eq_getElem_cons hi, List.flatten_cons,
      List.take_append_of_le_length (by omega)]
  unfold readAt
  simp only [htake]
  rw [if_neg]
  simp only [List.length_take]
  omega

end RecordFile

end Concordance
