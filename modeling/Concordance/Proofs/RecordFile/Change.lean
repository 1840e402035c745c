import Concordance.Proofs.RecordFile.EvenLines
import Concordance.Proofs.RecordFile.Lookup

set_option relaxedAutoImplicit false
set_option autoImplicit false

/-!
# Changing record files

Every operation on a record file does to the table that the file holds what it is meant to do. An
upsert looks up the record with the key of the incoming one, makes all lines wider if the record
to store needs it, and writes one line over another or between two others.

## Main definitions

* `Concordance.Table.merged` — the record that an upsert stores.
* `Concordance.RecordFile.HoldsSome` — a file holds a table with a property.

## Main results

* `Concordance.RecordFile.Holds.upsert` — an upsert puts this record.
* `Concordance.RecordFile.Holds.upsert_error` — an upsert over a record that cannot be read
  fails and changes nothing.
* `Concordance.RecordFile.Holds.delete` — a deletion erases a key, and tells whether it was there.
* `Concordance.RecordFile.Holds.openIn`, `close`, `truncate` — the others.
-/

namespace Concordance

namespace Table

open Record RecordFile

variable {R : Type} [Record R] {table : Table R} {record existing : R} {merge : Merge R}

/-- The record that an upsert stores: the incoming one, merged with what the record of its key is
read as if there is one. -/
def merged (table : Table R) (record : R) (merge : Merge R) : Except Error R :=
  match table.get? (key record) with
  | none => .ok record
  | some existing => (decodeLine (line existing)).map (merge.apply record)

/-- A record without a predecessor is stored as it is. -/
lemma merged_of_none (h : table.get? (key record) = none) :
    table.merged record merge = .ok record := by
  rw [merged, h]

/-- A record is merged with what is read from the line of its predecessor, if that can be read. -/
lemma merged_of_some (h : table.get? (key record) = some existing) :
    table.merged record merge = (decodeLine (line existing)).map (merge.apply record) := by
  rw [merged, h]

/-- A record that is read back is merged as it is. -/
lemma merged_of_readsBack (h : table.get? (key record) = some existing)
    (hread : ReadsBack existing) :
    table.merged record merge = .ok (merge.apply record existing) := by
  rw [merged_of_some h, decodeLine_line hread]
  rfl

/-- A record takes the place of another one if that is read as anything. -/
lemma merged_replace (h : ∀ existing, table.get? (key record) = some existing →
    ∃ found : R, decodeLine (line existing) = .ok found) :
    table.merged record .replace = .ok record := by
  cases hget : table.get? (key record) with
  | none => exact merged_of_none hget
  | some existing =>
    obtain ⟨found, hfound⟩ := h existing hget
    rw [merged_of_some hget, hfound]
    rfl

end Table

namespace RecordFile

open Record Operation

variable {R : Type} [Record R] {name : String} {minWidth : Nat} {table : Table R}
  {file : RecordFile R}

/-! ## The lines of a table -/

/-- Records at another width are the same records. -/
lemma refitted_lines [Lawful R] {width newWidth : Nat} {records : List R}
    (room : ∀ record ∈ records, (line record).length < width) :
    refitted newWidth (records.map fun record => padded width (line record)) =
      records.map fun record => padded newWidth (line record) := by
  rw [refitted, List.map_map]
  refine List.map_congr_left fun record hrecord => ?_
  rw [Function.comp_apply, padded_eq (room record hrecord),
    trimEnd_line_append record isBlank_padding]

namespace Holds

/-- An open file has the lines of its table. -/
lemma lined (h : file.Holds name minWidth (some .readWrite) table) :
    file.Lined (table.lines file.width) :=
  ⟨h.handle, h.contents, h.fits.pos, h.fits.length_of_mem⟩

/-- The smallest width of an open file leaves room for a record. -/
lemma minWidth_pos (h : file.Holds name minWidth (some .readWrite) table) : 0 < file.minWidth := by
  rw [h.minWidth_eq]
  exact Nat.lt_of_lt_of_le (by decide) h.fits.least

/-- A file with the lines of another table. -/
lemma withLines {other : Table R} {ls : List Bytes}
    (h : file.Holds name minWidth (some .readWrite) table)
    (hfits : other.Fits minWidth file.width) (hls : ls = other.lines file.width) :
    (file.withLines ls).Holds name minWidth (some .readWrite) other :=
  holds_open h.name_eq h.minWidth_eq h.handle hfits (by rw [hls]; rfl)

/-- Room on the lines of a table is made without a change of the table. -/
lemma roomy [Lawful R] (h : file.Holds name minWidth (some .readWrite) table) {needed : Nat}
    {wide : RecordFile R} {ls : List Bytes}
    (hroomy : Roomy file (table.lines file.width) needed wide ls) :
    wide.Holds name minWidth (some .readWrite) table ∧ ls = table.lines wide.width := by
  cases hroomy with
  | same hroom => exact ⟨h, rfl⟩
  | grown width htight hroom hdvd =>
    have hls : refitted width (table.lines file.width) = table.lines width :=
      refitted_lines h.fits.room
    have hfits : table.Fits minWidth width := h.fits.widen (by omega) (h.minWidth_eq ▸ hdvd)
    exact ⟨holds_open h.name_eq h.minWidth_eq h.handle hfits (by rw [hls]; rfl), hls⟩

end Holds

/-! ## Upserts -/

variable [Lawful R]

omit [Lawful R] in
/-- The lines once a record is put over the one with its key. -/
lemma lines_put_over {width : Nat} {record existing : R} {pre post : List R}
    (split : table.records = pre ++ existing :: post) (hkey : key existing = key record) :
    (table.put record).lines width = (table.lines width).take pre.length ++
      padded width (line record) :: (table.lines width).drop (pre.length + 1) := by
  have hcode : code record = code existing := Table.code_eq_iff.2 hkey.symm
  obtain ⟨hbefore, hbehind⟩ := Table.around split
  have hsplit : table.records = pre ++ [existing] ++ post := by simpa using split
  have hrecords : (table.put record).records = pre ++ record :: post := by
    refine Table.records_put hsplit ?_ ?_ ?_
    · rw [hcode]
      exact hbefore
    · simpa using hkey
    · rw [hcode]
      exact hbehind
  simp [Table.lines, hrecords, split, List.drop_append]

omit [Lawful R] in
/-- The lines once a record is put between those before it and those behind it. -/
lemma lines_put_between {width : Nat} {record : R} {pre post : List R}
    (split : table.records = pre ++ post)
    (hbefore : ∀ other ∈ pre, compare (code other) (code record) = .lt)
    (hbehind : ∀ other ∈ post, compare (code record) (code other) = .lt) :
    (table.put record).lines width = (table.lines width).take pre.length ++
      padded width (line record) :: (table.lines width).drop pre.length := by
  have hsplit : table.records = pre ++ [] ++ post := by simpa using split
  have hrecords : (table.put record).records = pre ++ record :: post :=
    Table.records_put hsplit hbefore (by simp) hbehind
  simp [Table.lines, hrecords, split]

omit [Lawful R] in
/-- A record of a table has a line in the file. -/
lemma length_lt_of_split {width : Nat} {existing : R} {pre post : List R}
    (split : table.records = pre ++ existing :: post) :
    pre.length < (table.lines width).length := by
  simp [Table.lines, split]

/-- What is read on the line of a record is what the record is read as. -/
lemma Holds.decodeLine_eq (h : file.Holds name minWidth (some .readWrite) table)
    {existing : R} {pre post : List R} (split : table.records = pre ++ existing :: post)
    (hi : pre.length < (table.lines file.width).length) :
    decodeLine (R := R) (table.lines file.width)[pre.length] = decodeLine (line existing) := by
  rw [← h.lined.recordAt hi, h.recordAt split]

omit [Lawful R] in
/-- What an upsert stores over a record is what merging with the record that is read there comes
to. -/
lemma exists_merged {record stored existing : R} {merge : Merge R} {pre post : List R}
    (split : table.records = pre ++ existing :: post) (hkey : key existing = key record)
    (hmerged : table.merged record merge = .ok stored) :
    ∃ old, decodeLine (line existing) = .ok old ∧ stored = merge.apply record old := by
  have hget : table.get? (key record) = some existing :=
    Table.get?_eq_some_iff.2 ⟨by simp [split], hkey⟩
  rw [Table.merged_of_some hget] at hmerged
  cases hdecode : decodeLine (R := R) (line existing) with
  | error e =>
    rw [hdecode] at hmerged
    cases hmerged
  | ok old =>
    rw [hdecode] at hmerged
    cases hmerged
    exact ⟨old, rfl, rfl⟩

/-- An upsert puts the incoming record, or what merging it with the record of its key comes to.

**Proof sketch.** The search finds the line of the key's record or the place for it. Making room
keeps the table, so the place is still right, and one line is written there. -/
theorem Holds.upsert (h : file.Holds name minWidth (some .readWrite) table) {record stored : R}
    {merge : Merge R} (hmerged : table.merged record merge = .ok stored)
    (hkey : key stored = key record) :
    ∃ file', RecordFile.upsert record merge file = .ok () file' ∧
      file'.Holds name minWidth (some .readWrite) (table.put stored) := by
  obtain ⟨answer, hsearch, hlocated⟩ := h.search (key record)
  cases hlocated with
  | hit pre existing post split hexisting =>
    obtain ⟨old, hold, rfl⟩ := exists_merged split hexisting hmerged
    obtain ⟨wide, ls, hroomy, hrun⟩ := h.lined.upsert_hit merge h.minWidth_pos
      (length_lt_of_split split) hsearch ((h.decodeLine_eq split _).trans hold)
    obtain ⟨hwide, rfl⟩ := h.roomy hroomy
    exact ⟨_, hrun, hwide.withLines (hwide.fits.put hroomy.le)
      (lines_put_over split (hexisting.trans hkey.symm)).symm⟩
  | miss pre post split before behind =>
    obtain rfl : record = stored := by
      rw [Table.merged_of_none (Table.get?_of_split split before behind)] at hmerged
      exact Except.ok.inj hmerged
    obtain ⟨wide, ls, hroomy, hrun⟩ := h.lined.upsert_miss merge h.minWidth_pos
      (by simp [Table.lines, split]) hsearch
    obtain ⟨hwide, rfl⟩ := h.roomy hroomy
    exact ⟨_, hrun, hwide.withLines (hwide.fits.put hroomy.le)
      (lines_put_between split before behind).symm⟩

/-- An upsert that comes to the record that is there changes nothing.

**Proof sketch.** The record has room on its line, so the lines need not grow, and the line is
written over with the same bytes. -/
theorem Holds.upsert_same (h : file.Holds name minWidth (some .readWrite) table)
    {record stored : R} {merge : Merge R} (hget : table.get? (key record) = some stored)
    (hmerged : table.merged record merge = .ok stored) :
    RecordFile.upsert record merge file = .ok () file := by
  obtain ⟨hmem, hkey⟩ := Table.get?_eq_some_iff.1 hget
  obtain ⟨answer, hsearch, hlocated⟩ := h.search (key record)
  cases hlocated with
  | hit pre existing post split hexisting =>
    obtain ⟨old, hold, rfl⟩ := exists_merged split hexisting hmerged
    obtain ⟨wide, ls, hroomy, hrun⟩ := h.lined.upsert_hit merge h.minWidth_pos
      (length_lt_of_split split) hsearch ((h.decodeLine_eq split _).trans hold)
    have hroom := h.fits.room _ hmem
    cases hroomy with
    | grown width htight _ _ => omega
    | same _ =>
      rw [hrun, ← lines_put_over split (hexisting.trans hkey.symm), Table.put_of_mem hmem]
      change EStateM.Result.ok () { file with contents := some (table.bytes file.width) } = _
      rw [← h.contents]
  | miss pre post split before behind =>
    rw [Table.get?_of_split split before behind] at hget
    cases hget

/-- An upsert over a record that cannot be read fails and changes nothing.

**Proof sketch.** The record is found, since otherwise nothing would be read. What is read there is
the error. -/
theorem Holds.upsert_error (h : file.Holds name minWidth (some .readWrite) table) {record : R}
    {merge : Merge R} {e : Error} (hmerged : table.merged record merge = .error e) :
    RecordFile.upsert record merge file = .error e file := by
  obtain ⟨answer, hsearch, hlocated⟩ := h.search (key record)
  cases hlocated with
  | hit pre existing post split hexisting =>
    have hget : table.get? (key record) = some existing :=
      Table.get?_eq_some_iff.2 ⟨by simp [split], hexisting⟩
    have hrecord : decodeLine (R := R) (line existing) = .error e := by
      rw [Table.merged_of_some hget] at hmerged
      cases hdecode : decodeLine (R := R) (line existing) with
      | error e' =>
        rw [hdecode] at hmerged
        cases hmerged
        rfl
      | ok old =>
        rw [hdecode] at hmerged
        cases hmerged
    exact h.lined.upsert_unreadable merge (length_lt_of_split split) hsearch
      ((h.decodeLine_eq split _).trans hrecord)
  | miss pre post split before behind =>
    rw [Table.merged_of_none (Table.get?_of_split split before behind)] at hmerged
    cases hmerged

omit [Record R] [Lawful R] in
/-- Nothing is searched in a file that is not open. -/
lemma search_closed (hhandle : file.handle = none) (pattern : Bytes) :
    file.search pattern = .error (.notOpen file.name) := by
  simp [RecordFile.search, bytes, hhandle, bind, Except.bind]

omit [Lawful R] in
/-- Nothing is stored in a file that is not open. -/
lemma upsert_closed (hhandle : file.handle = none) (record : R) (merge : Merge R) :
    RecordFile.upsert record merge file = .error (.notOpen file.name) file := by
  unfold RecordFile.upsert
  rw [bind_error (look_error (search_closed hhandle _))]

/-! ## Deletions -/

omit [Lawful R] in
/-- Nothing is deleted from a file that is not open. -/
lemma delete_closed (hhandle : file.handle = none) (k : Key) :
    RecordFile.delete k file = .error (.notOpen file.name) file := by
  unfold RecordFile.delete
  rw [bind_error (look_error (search_closed hhandle _))]

/-- A deletion erases a key, and tells whether it was there.

**Proof sketch.** By where the key is found. At the place of its record this line is taken out; at a
place between two records there is nothing to erase. -/
theorem Holds.delete (h : file.Holds name minWidth (some .readWrite) table) (k : Key) :
    ∃ file', RecordFile.delete k file = .ok (table.get? k).isSome file' ∧
      file'.Holds name minWidth (some .readWrite) (table.erase k) := by
  obtain ⟨answer, hsearch, hlocated⟩ := h.search k
  cases hlocated with
  | hit pre record post split hkey =>
    have hget : table.get? k = some record := Table.get?_eq_some_iff.2 ⟨by simp [split], hkey⟩
    have hrecords : (table.erase k).records = pre ++ post := hkey ▸ Table.records_erase split
    have hlines : (table.lines file.width).take pre.length ++
        (table.lines file.width).drop (pre.length + 1) = (table.erase k).lines file.width := by
      simp [Table.lines, hrecords, split, List.drop_append]
    rw [hget]
    exact ⟨_, h.lined.delete_hit (length_lt_of_split split) hsearch,
      h.withLines (h.fits.erase k) hlines⟩
  | miss pre post split before behind =>
    have hget : table.get? k = none := Table.get?_of_split split before behind
    rw [hget, Table.erase_of_get?_eq_none hget]
    exact ⟨file, delete_miss hsearch, h⟩

/-! ## Opening, closing and emptying -/

/-- The first line of a file of records has its width. -/
lemma firstWidth_pile (name : String) {width : Nat} {records : List R}
    (room : ∀ record ∈ records, (line record).length < width) :
    firstWidth name (Table.pile width records) =
      .ok (if records = [] then none else some width) := by
  cases records with
  | nil => rfl
  | cons record records =>
    have hroom := room record List.mem_cons_self
    rw [pile_cons_eq hroom, firstWidth_append (lineFeed_not_mem_padded record _),
      if_neg (List.cons_ne_nil _ _)]
    simp only [List.length_append, List.length_replicate, Except.ok.injEq, Option.some.injEq]
    omega

/-- Whatever the table, the first line of its file has its width. -/
lemma firstWidth_bytes (name : String) {width : Nat} (h : table.Fits minWidth width) :
    ∃ first, firstWidth name (table.bytes width) = .ok first ∧
      table.Fits minWidth (first.getD minWidth) ∧
        table.bytes width = table.bytes (first.getD minWidth) := by
  refine ⟨_, firstWidth_pile name h.room, ?_⟩
  by_cases hrecords : table.records = []
  · rw [if_pos hrecords]
    refine ⟨⟨h.least, le_rfl, dvd_refl _, by simp [hrecords]⟩, ?_⟩
    rw [Table.bytes_eq_pile, Table.bytes_eq_pile, hrecords]
    rfl
  · rw [if_neg hrecords]
    exact ⟨h, rfl⟩

omit [Lawful R] in
/-- What a file that is not open holds is determined by its name, its least width and what is stored
under its name. -/
lemma Holds.congr {opened : Option Mode} (h : file.Holds name minWidth opened table)
    {other : RecordFile R} (hname : other.name = name) (hminWidth : other.minWidth = minWidth)
    (hhandle : other.handle = none) (hcontents : other.contents = file.contents) :
    other.Holds name minWidth none table := by
  obtain ⟨width, hfits, hbytes, -⟩ := h.stored
  exact ⟨hname, hminWidth, by rw [hhandle]; rfl, width, hfits, by rw [hcontents, hbytes], by simp⟩

omit [Lawful R] in
/-- An open file is closed over what it holds. -/
lemma Holds.close {opened : Option Mode} (h : file.Holds name minWidth opened table) :
    file.close.Holds name minWidth none table :=
  h.congr h.name_eq h.minWidth_eq rfl rfl

omit [Lawful R] in
/-- Another record file over what is stored under the name of one that is not open. -/
lemma Holds.renew {opened : Option Mode}
    (h : file.Holds name (max minWidth leastWidth) opened table) :
    (new name minWidth file.contents : RecordFile R).Holds name (max minWidth leastWidth) none
      table :=
  h.congr rfl rfl rfl rfl

omit [Lawful R] in
/-- A file is made unless there is one, if it can have its name. -/
lemma Holds.create {opened : Option Mode} (h : file.Holds name minWidth opened table)
    (hname : file.contents.isSome ∨ usableName name) :
    ∃ file', RecordFile.create file = .ok () file' ∧ file'.Holds name minWidth opened table ∧
      file'.contents.isSome := by
  by_cases hsome : file.contents.isSome
  · exact ⟨file, create_of_isSome hsome, h, hsome⟩
  · have hnone : file.contents = none := by simpa using hsome
    have husable : usableName file.name = true := by
      rw [h.name_eq]
      exact hname.resolve_left hsome
    refine ⟨_, create_of_none hnone husable, ?_, rfl⟩
    obtain ⟨width, hfits, hcontents, hopen⟩ := h.stored
    rw [hnone] at hcontents hopen
    exact ⟨h.name_eq, h.minWidth_eq, h.handle_eq, width, hfits, hcontents,
      fun hsome' => absurd (hopen hsome').1 (by simp)⟩

/-- A file that is there is opened over what it holds, at the width of its first line. -/
lemma Holds.openIn_of_isSome {opened : Option Mode} (h : file.Holds name minWidth opened table)
    (hsome : file.contents.isSome) (mode : Mode) :
    ∃ file', RecordFile.openIn mode file = .ok () file' ∧
      file'.Holds name minWidth (some mode) table := by
  obtain ⟨width, hfits, hcontents, -⟩ := h.stored
  obtain ⟨bytes, hbytes⟩ := Option.isSome_iff_exists.1 hsome
  obtain rfl : bytes = table.bytes width := by simpa [hbytes] using hcontents
  obtain ⟨first, hfirst, hfits', hsame⟩ := firstWidth_bytes file.name hfits
  refine ⟨_, openIn_of_firstWidth hbytes hfirst mode,
    holds_open h.name_eq h.minWidth_eq rfl (h.minWidth_eq ▸ hfits') ?_⟩
  rw [hbytes, hsame, h.minWidth_eq]

/-- A file can be opened for writing if it can have its name. -/
theorem Holds.openIn {opened : Option Mode} (h : file.Holds name minWidth opened table)
    {mode : Mode} (hready : file.contents.isSome ∨ mode = .readWrite ∧ usableName name) :
    ∃ file', RecordFile.openIn mode file = .ok () file' ∧
      file'.Holds name minWidth (some mode) table := by
  by_cases hsome : file.contents.isSome
  · exact h.openIn_of_isSome hsome mode
  · have hnone : file.contents = none := by simpa using hsome
    obtain ⟨rfl, hname⟩ := hready.resolve_left hsome
    obtain rfl := h.eq_empty hnone
    obtain ⟨width, hfits, -, -⟩ := h.stored
    exact ⟨_, openIn_of_none hnone (h.name_eq ▸ hname), holds_open h.name_eq h.minWidth_eq rfl
      (.empty hfits.least (by rw [h.minWidth_eq]) (by rw [h.minWidth_eq])) rfl⟩

omit [Lawful R] in
/-- Emptying an open file leaves no records. -/
theorem Holds.truncate (h : file.Holds name minWidth (some .readWrite) table) :
    ∃ file', RecordFile.truncate file = .ok () file' ∧
      file'.Holds name minWidth (some .readWrite) ∅ :=
  ⟨_, h.lined.truncate, holds_open h.name_eq h.minWidth_eq h.handle
    (.empty h.fits.least (by rw [h.minWidth_eq]) (by rw [h.minWidth_eq])) rfl⟩

omit [Lawful R] in
/-- A file that is not open is emptied by its name. -/
lemma Holds.truncate_closed (h : file.Holds name minWidth none table)
    (hready : file.contents.isSome ∨ usableName name) :
    ∃ file', RecordFile.truncate file = .ok () file' ∧ file'.Holds name minWidth none ∅ := by
  obtain ⟨width, hfits, -, -⟩ := h.stored
  exact ⟨_, truncate_of_closed h.handle_eq (h.name_eq ▸ hready),
    ⟨h.name_eq, h.minWidth_eq, h.handle_eq, minWidth,
      .empty hfits.least le_rfl (dvd_refl _), rfl, by simp⟩⟩

/-! ## Files of which less is known than their table -/

/-- A file holds a table with a property. -/
def HoldsSome (file : RecordFile R) (name : String) (minWidth : Nat) (opened : Option Mode)
    (P : Table R → Prop) : Prop :=
  ∃ table, file.Holds name minWidth opened table ∧ P table

namespace HoldsSome

variable {opened : Option Mode} {mode : Mode} {P : Table R → Prop}

omit [Lawful R] in
/-- The name of the file. -/
lemma name_eq (h : file.HoldsSome name minWidth opened P) : file.name = name := by
  obtain ⟨table, hholds, -⟩ := h
  exact hholds.name_eq

omit [Lawful R] in
/-- A file that is open is there. -/
lemma isSome (h : file.HoldsSome name minWidth (some mode) P) : file.contents.isSome := by
  obtain ⟨table, hholds, -⟩ := h
  exact hholds.isSome

omit [Lawful R] in
/-- An open file is closed over what it holds. -/
lemma close (h : file.HoldsSome name minWidth opened P) :
    file.close.HoldsSome name minWidth none P :=
  h.imp fun _ => And.imp_left Holds.close

omit [Lawful R] in
/-- Another record file over what is stored under the name of one that is not open. -/
lemma renew (h : file.HoldsSome name (max minWidth leastWidth) opened P) :
    (new name minWidth file.contents : RecordFile R).HoldsSome name (max minWidth leastWidth) none
      P :=
  h.imp fun _ => And.imp_left Holds.renew

omit [Lawful R] in
/-- A file is made unless there is one, if it can have its name. -/
lemma create (h : file.HoldsSome name minWidth opened P)
    (hready : file.contents.isSome ∨ usableName name) :
    ∃ file', RecordFile.create file = .ok () file' ∧ file'.HoldsSome name minWidth opened P ∧
      file'.contents.isSome := by
  obtain ⟨table, hholds, htable⟩ := h
  obtain ⟨file', hrun, hholds', hsome⟩ := hholds.create hready
  exact ⟨file', hrun, ⟨table, hholds', htable⟩, hsome⟩

/-- A file can be opened if it is there, or for writing if it can have its name. -/
lemma openIn (h : file.HoldsSome name minWidth opened P)
    (hready : file.contents.isSome ∨ mode = .readWrite ∧ usableName name) :
    ∃ file', RecordFile.openIn mode file = .ok () file' ∧
      file'.HoldsSome name minWidth (some mode) P := by
  obtain ⟨table, hholds, htable⟩ := h
  obtain ⟨file', hrun, hholds'⟩ := hholds.openIn hready
  exact ⟨file', hrun, table, hholds', htable⟩

omit [Lawful R] in
/-- Emptying an open file leaves no records. -/
lemma truncate (h : file.HoldsSome name minWidth (some .readWrite) P) :
    ∃ file', RecordFile.truncate file = .ok () file' ∧
      file'.Holds name minWidth (some .readWrite) ∅ := by
  obtain ⟨table, hholds, -⟩ := h
  exact hholds.truncate

/-- What a file lists is determined by the property if there is only one table with it. -/
lemma listed_eq {file' : RecordFile R} {opened' : Option Mode}
    (h : file.HoldsSome name minWidth opened P) (h' : file'.HoldsSome name minWidth opened' P)
    (hunique : ∀ table table', P table → P table' → table = table')
    (hread : ∀ table, P table → ∀ record ∈ table.records, ReadsBack record) :
    file'.listed = file.listed := by
  obtain ⟨table, hholds, htable⟩ := h
  obtain ⟨table', hholds', htable'⟩ := h'
  obtain rfl := hunique table table' htable htable'
  rw [hholds.listed (hread table htable), hholds'.listed (hread table htable)]

end HoldsSome

end RecordFile

end Concordance
