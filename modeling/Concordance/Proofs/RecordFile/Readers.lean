import Concordance.Proofs.RecordFile.LineLayout
import Concordance.Proofs.RecordFile.PrefixScan

set_option relaxedAutoImplicit false
set_option autoImplicit false

/-!
# Ways of reading a record file

The same lines are found by their width, by their line feeds, by the beginnings of their keys and by
the marks at their ends. Whatever was done to a record file that started out empty, and whatever it
is open for, all these ways lead to the same records.

## Main definitions

* `Concordance.RecordFile.Reader` — a record file that is open, or was opened again, to be read.
* `Concordance.RecordFile.Legible` — an open file whose lines are those of given records.
* `Concordance.RecordKind.stateOf?` — the typo state that a record carries.
* `Concordance.RecordFile.Step.Stores` — a step with storable records and merges.

## Main results

* `Concordance.RecordKind.decode?_padded` — a padded line is read as the record on it.
* `Concordance.RecordFile.prefixScan_of_run` — the records with a beginning, after any steps.
* `Concordance.RecordFile.scans_of_run` — lines by width, by line feeds and by marks, after any
  steps.
-/

namespace Concordance

open Record

/-! ## Padded lines -/

/-- **Records come back from padded lines.** The line of a storable record starts with the pattern
of its key and has no line feed. Padded to any width with room for it, it is trimmed to the line
itself and read as the very same record: a text is read as a text whatever it looks like, and a
state that is missing stays missing.

**Proof sketch.** A line ends with a brace, so the padding can be told from it, and what is trimmed
away is the padding. The codec returns storable records unchanged. -/
theorem RecordKind.decode?_padded (kind : RecordKind) (record : kind.Carrier)
    (h : kind.Storable record) :
    pattern kind.Carrier (key record) <+: line record ∧ Bytes.lineFeed ∉ line record ∧
      ∀ width, (line record).length < width →
        Bytes.trimEnd (RecordFile.padded width (line record)) = line record ∧
          decode? (RecordFile.padded width (line record)) = some record := by
  refine ⟨Lawful.pattern_isPrefix record, Lawful.lineFeed_not_mem record, fun width hroom => ?_⟩
  rw [RecordFile.padded_eq hroom, decode?_padding record RecordFile.isBlank_padding]
  exact ⟨trimEnd_line_append record RecordFile.isBlank_padding, RecordKind.readsBack h⟩

/-- A document whose texts look like other values, or like what stands around them on a line. -/
def lookalikes : StoredDocument :=
  ⟨"7\",\"x", .ofList [("age", .text "12"), ("alive", .text "true"),
    ("note", .text "first \\\nsecond "), ("tame", .boolean false),
    ("weight", .number ⟨0x3ff8000000000000⟩)]⟩

/-- The document of the example is storable: no field takes the name of its id, and its one number
is read back. -/
lemma storable_lookalikes : lookalikes.Storable := by
  have hweight : (Value.number ⟨0x3ff8000000000000⟩).ReadsBack := by
    unfold Value.ReadsBack
    decide +kernel
  refine ⟨by decide, fun x hx => ?_⟩
  have hvalues : lookalikes.fields.values = [.text "12", .text "true", .text "first \\\nsecond ",
      .boolean false, .number ⟨0x3ff8000000000000⟩] := by decide
  rw [hvalues] at hx
  obtain rfl : x = ⟨0x3ff8000000000000⟩ := by simpa using hx
  exact hweight

/-- The texts come back as texts from a line of 256 bytes. -/
theorem RecordKind.decode?_padded_lookalikes :
    Bytes.lineFeed ∉ line lookalikes ∧
      decode? (RecordFile.padded 256 (line lookalikes)) = some lookalikes ∧
      lookalikes.fields.get? "age" = some (.text "12") ∧
      lookalikes.fields.get? "alive" = some (.text "true") := by
  obtain ⟨-, hfeed, hback⟩ :=
    RecordKind.decode?_padded .document lookalikes storable_lookalikes
  exact ⟨hfeed, (hback 256 (by decide +kernel)).2, by decide, by decide⟩

/-! ## Steps with storable records -/

/-- A way of merging makes storable records of storable ones, whatever their keys are. -/
def Merge.Stores {kind : RecordKind} : Merge kind.Carrier → Prop
  | .replace | .unite => True
  | .custom merge => ∀ incoming existing, kind.Storable incoming → kind.Storable existing →
      kind.Storable (merge incoming existing)

/-- A merge of storable records is storable, if the way of merging keeps that. -/
lemma Merge.Stores.apply {kind : RecordKind} {merge : Merge kind.Carrier} (h : merge.Stores)
    {incoming existing : kind.Carrier} (hincoming : kind.Storable incoming)
    (hexisting : kind.Storable existing) : kind.Storable (merge.apply incoming existing) := by
  cases merge with
  | replace => exact hincoming
  | unite => exact RecordKind.storable_unite hincoming hexisting
  | custom merge => exact h incoming existing hincoming hexisting

namespace RecordFile

/-- The record of a step is storable, and its merge makes storable records of storable ones. -/
def Step.Stores {kind : RecordKind} : Step kind.Carrier → Prop
  | .upsert record merge => kind.Storable record ∧ merge.Stores
  | _ => True

/-- Steps that keep storable records and keys keep what is needed for files to be maps. -/
lemma Step.Stores.keepsIn {kind : RecordKind} {step : Step kind.Carrier} (h : step.Stores)
    {file : RecordFile kind.Carrier} (hkey : step.KeepsKeyIn file) : step.KeepsIn file := by
  cases step with
  | upsert record merge =>
    exact ⟨h.1, fun existing hget hkeys hexisting =>
      ⟨hkey existing hget hkeys, h.2.apply h.1 hexisting⟩⟩
  | openIt => trivial
  | close => trivial
  | delete k => trivial
  | truncate => trivial

variable {R : Type} {file reader : RecordFile R}

/-- A record file as it is read: as it was left open, or opened again for reading or for writing. -/
inductive Reader (file : RecordFile R) : RecordFile R → Prop
  | kept (hopen : file.isOpen = true) : Reader file file
  | reopened (mode : Mode) {reader : RecordFile R} (hrun : openIn mode file = .ok () reader) :
      Reader file reader

variable [Record R] [Lawful R] {name : String} {minWidth : Nat} {table : Table R} {records : List R}

/-- Terms with quotes come in, one of them with text that looks like a state, and one goes out. -/
def quotedSteps : List (Step RecordKind.posting.Carrier) :=
  [.openIt, .upsert (Posting.of "say \"hi\"" (.ofList [⟨"1"⟩, ⟨"2"⟩]) (some 7)) .replace,
    .upsert (Posting.of "say \"s\":7\x7d" (.ofList [⟨"\"s\":7\x7d"⟩]) none) .unite,
    .upsert (Posting.of "say" (.ofList [⟨"3"⟩]) (some 12)) .replace,
    .upsert (Posting.of "soon" (.ofList [⟨"4"⟩]) (some 7)) .replace, .delete (.text "soon"), .close]

/-- The file after these steps, opened for reading. -/
def quotedReader : RecordFile Posting :=
  Operation.after (openIn .read) (run "pets_kind_index.json" 12 none quotedSteps).1

/-- The example's reader can read the file of the quoted steps. -/
lemma reader_quotedReader :
    (run "pets_kind_index.json" 12 none quotedSteps).1.Reader quotedReader := by
  have hgives : Operation.Gives (openIn .read)
      (run "pets_kind_index.json" 12 none quotedSteps).1 () := by decide +kernel
  exact .reopened .read hgives.eq_after

/-- The records of the quoted steps are storable. -/
lemma stores_quotedSteps : ∀ step ∈ quotedSteps, step.Stores := by
  have storable_of_state : ∀ {posting : Posting}, posting.state = some 7 ∨ posting.state = some 12 ∨
      posting.state = none → posting.Storable := by
    intro posting hstate n hn
    rw [hn] at hstate
    simp only [Option.some.injEq, reduceCtorEq, or_false] at hstate
    omega
  intro step hstep
  simp only [quotedSteps, List.mem_cons, List.not_mem_nil, or_false] at hstep
  rcases hstep with rfl | rfl | rfl | rfl | rfl | rfl | rfl
  · trivial
  · exact ⟨storable_of_state (.inl rfl), trivial⟩
  · exact ⟨storable_of_state (.inr (.inr rfl)), trivial⟩
  · exact ⟨storable_of_state (.inr (.inl rfl)), trivial⟩
  · exact ⟨storable_of_state (.inl rfl), trivial⟩
  · trivial
  · trivial

/-- A record file is open, and its lines are those of records, at a width with room for them. -/
structure Legible (file : RecordFile R) (records : List R) : Prop where
  isHandle : ∃ mode, file.handle = some { mode }
  contents : file.contents = some (Table.pile file.width records)
  pos : 0 < file.width
  room : ∀ record ∈ records, (line record).length < file.width

namespace Legible

omit [Lawful R] in
/-- The bytes that a reader finds are those of the records, padded to its width. -/
lemma bytes (h : reader.Legible records) :
    reader.bytes = .ok (Table.pile reader.width records) := by
  obtain ⟨mode, hhandle⟩ := h.isHandle
  simp [RecordFile.bytes, hhandle, behind, h.contents]

omit [Lawful R] in
/-- A reader counts the records. -/
lemma total (h : reader.Legible records) : reader.total = .ok records.length := by
  unfold RecordFile.total
  rw [h.bytes]
  change Except.ok ((Table.pile reader.width records).length / reader.width) = _
  rw [Table.length_pile h.room, Nat.mul_div_cancel _ h.pos]

/-- What is read on a line found by its width is what the record on it is read as.

**Proof sketch.** The line has the width of all lines, so it is cut out of the bytes as it is. What
is read on it does not depend on the blanks behind the record. -/
lemma recordAt (h : reader.Legible records) {i : Nat} (hi : i < records.length) :
    reader.recordAt i = decodeLine (line records[i]) := by
  have hlines : ∀ l ∈ records.map fun record => padded reader.width (line record),
      l.length = reader.width := by
    intro l hl
    obtain ⟨record, hrecord, rfl⟩ := List.mem_map.1 hl
    exact length_padded (h.room record hrecord)
  have hline : reader.lineAt i = .ok (padded reader.width (line records[i])) := by
    unfold RecordFile.lineAt
    rw [h.bytes]
    change readAt (Table.pile reader.width records) (i * reader.width) reader.width = _
    rw [Table.pile, readAt_flatten hlines (by simpa using hi) le_rfl, List.getElem_map,
      List.take_of_length_le (length_padded (h.room _ (List.getElem_mem hi))).le]
  rw [← LaidOut.decodeLine_map_padded h.room hi]
  unfold RecordFile.recordAt decodeLine
  rw [hline]
  simp only [bind, Except.bind]
  cases decode? (R := R) (padded reader.width (line records[i])) <;> rfl

/-- The lines found by their line feeds are those of the records. -/
lemma namedLines (h : reader.Legible records) : reader.namedLines = .ok (records.map line) := by
  unfold RecordFile.namedLines
  rw [h.contents]
  exact congrArg Except.ok (textLines_pile h.room)

/-- A reader lists what the lines of the records decode to. -/
lemma scanAll (h : reader.Legible records) :
    reader.scanAll = (records.map line).mapM decodeLine := by
  unfold RecordFile.scanAll
  rw [h.namedLines]
  rfl

end Legible

/-- A file that is laid out in lines is read line by line.

**Proof sketch.** A file that was kept open has its lines. One that is opened again has the width of
its first line if there are records, and otherwise the smallest width. -/
lemma LaidOut.legible (h : file.LaidOut minWidth records) (hreader : file.Reader reader) :
    reader.Legible records := by
  cases hreader with
  | kept hopen =>
    have hlined := h.lined hopen
    exact ⟨⟨_, hlined.handle⟩, hlined.contents, h.pos, h.room⟩
  | reopened mode hrun =>
    cases hcontents : file.contents with
    | none =>
      obtain rfl := h.contents_eq_nil_iff.1 (by rw [hcontents]; rfl)
      by_cases hready : mode = .readWrite ∧ usableName file.name = true
      · obtain ⟨rfl, hname⟩ := hready
        cases hrun.symm.trans (openIn_of_none hcontents hname)
        exact ⟨⟨_, rfl⟩, rfl, h.minWidth_pos, by simp⟩
      · cases hrun.symm.trans (openIn_error hcontents hready)
    | some bytes =>
      have hpile : bytes = Table.pile file.width records := by
        have := h.pile_eq
        rwa [hcontents, Option.getD_some] at this
      have hfirst := firstWidth_pile file.name h.room
      rw [← hpile] at hfirst
      cases hrun.symm.trans (openIn_of_firstWidth hcontents hfirst mode)
      by_cases hrecords : records = []
      · subst hrecords
        exact ⟨⟨_, rfl⟩, hcontents.trans (congrArg some hpile), h.minWidth_pos, by simp⟩
      · simp only [if_neg hrecords]
        exact ⟨⟨_, rfl⟩, hcontents.trans (congrArg some hpile), h.pos, h.room⟩

/-! ## Records that are read back -/

end RecordFile

/-- The typo state that a record carries; documents carry none. -/
def RecordKind.stateOf? : (kind : RecordKind) → kind.Carrier → Option Nat
  | .document => fun _ => none
  | .posting => fun posting : Posting => posting.state
  | .typoState => fun record : TypoState => some record.state

/-- The mark of a line is the state of the record on it. -/
lemma RecordKind.stateMark?_line {kind : RecordKind} (hkind : kind ≠ .document)
    {record : kind.Carrier} (h : kind.Storable record) :
    RecordFile.stateMark? (line record) = kind.stateOf? record := by
  cases kind with
  | document => exact absurd rfl hkind
  | posting => exact RecordFile.stateMark?_line h
  | typoState => exact RecordFile.stateMark?_typoState h

namespace RecordFile

section Storable

variable {kind : RecordKind} {minWidth : Nat}

/-- A file is laid out in lines of storable records. -/
def LaidOutStorable (minWidth : Nat) (file : RecordFile kind.Carrier) : Prop :=
  ∃ records, file.LaidOut minWidth records ∧ ∀ record ∈ records, kind.Storable record

/-- Steps with storable records leave storable records.

**Proof sketch.** By the kinds of steps. What an upsert lets in is the incoming record, or what it
was merged into with a record that was read from a line, which is the storable one that was written
there. -/
lemma LaidOutStorable.step {file : RecordFile kind.Carrier} (h : LaidOutStorable minWidth file)
    {step : Step kind.Carrier} (hstep : step.Stores) :
    LaidOutStorable minWidth (step.onFile file) := by
  obtain ⟨records, hlaid, hrecords⟩ := h
  cases step with
  | openIt => exact ⟨records, hlaid.after_openIt.1, hrecords⟩
  | close => exact ⟨records, { hlaid with handle_eq := .inl rfl }, hrecords⟩
  | upsert record merge =>
    obtain ⟨hrecord, hmerge⟩ := hstep
    obtain ⟨records', hlaid', -, hmem⟩ := hlaid.after_upsert record merge
    refine ⟨records', hlaid', fun other hother => ?_⟩
    rcases hmem other hother with hold | rfl | ⟨existing, hexisting, found, hfound, rfl⟩
    · exact hrecords other hold
    · exact hrecord
    · -- what the line of a storable record is read as is this record
      have hback : decode? (line existing) = some existing :=
        RecordKind.readsBack (hrecords existing hexisting)
      obtain rfl : existing = found := Option.some.inj (hback.symm.trans hfound)
      exact hmerge.apply hrecord (hrecords existing hexisting)
  | delete k =>
    obtain ⟨records', hlaid', -, hsub⟩ := hlaid.after_delete k
    exact ⟨records', hlaid', fun other hother => hrecords other (hsub hother)⟩
  | truncate => exact ⟨[], hlaid.after_truncate, by simp⟩

/-- **All ways of reading lines agree.** After any steps with storable records, starting with a
missing or an empty file, an open record file of any kind has some number of lines. The records that
are read on them one by one, each at its multiple of the width, are those found by going through
the line feeds, in the same order and no others. The postings or typo states found by the marks at
the ends of the lines are those among them that carry one of the states looked for.

**Proof sketch.** Every step leaves a file of lines of storable records. A record is written without
line feeds and with no blank at its end, so both ways of finding a line come to the record itself,
and the mark of its line is its state. -/
theorem scans_of_run (kind : RecordKind) (name : String) (minWidth : Nat)
    (contents : Option Bytes) (hempty : contents = none ∨ contents = some [])
    (steps : List (Step kind.Carrier)) (hsteps : ∀ step ∈ steps, step.Stores)
    (reader : RecordFile kind.Carrier)
    (hreader : (run name minWidth contents steps).1.Reader reader) :
    ∃ records : List kind.Carrier, reader.total = .ok records.length ∧
      (∀ i (hi : i < records.length), reader.recordAt i = .ok records[i]) ∧
      reader.scanAll = .ok records ∧
      (kind ≠ .document → ∀ states, reader.scanStates states =
        .ok (records.filter fun record => (kind.stateOf? record).any states.contains)) := by
  have hbytes : contents.getD [] = [] := by
    rcases hempty with rfl | rfl <;> rfl
  have hrun : LaidOutStorable (max minWidth leastWidth) (run name minWidth contents steps).1 :=
    run_induction (C := fun _ step => step.Stores)
      (P := fun file _ => LaidOutStorable (max minWidth leastWidth) file)
      (throughout_of_forall fun step hstep _ => hsteps step hstep)
      ⟨[], LaidOut.of_empty (Nat.le_max_right _ _) hbytes (.inl rfl), by simp⟩
      fun step file map hstep h => h.step hstep
  obtain ⟨records, hlaid, hstorable⟩ := hrun
  have hlegible := hlaid.legible hreader
  have hread : ∀ record ∈ records, ReadsBack record := fun record hrecord =>
    RecordKind.readsBack (hstorable record hrecord)
  refine ⟨records, hlegible.total, fun i hi => ?_, ?_, fun hkind states => ?_⟩
  · have hback : decode? (line records[i]) = some records[i] := hread _ (List.getElem_mem hi)
    rw [hlegible.recordAt hi, decodeLine, hback]
  · rw [hlegible.scanAll]
    exact mapM_decodeLine hread
  · exact scanStates_of_namedLines hlegible.namedLines
      (fun record hrecord => RecordKind.stateMark?_line hkind (hstorable record hrecord)) hread
      states

/-- The terms with quotes are read in all ways alike, and only the one that carries the state seven
is found by it. -/
theorem scans_of_run_quotedSteps :
    ∃ records : List Posting, quotedReader.total = .ok records.length ∧
      (∀ i (hi : i < records.length), quotedReader.recordAt i = .ok records[i]) ∧
      quotedReader.scanAll = .ok records ∧
      records.filter (fun posting => posting.state.any [7].contains) =
        [.of "say \"hi\"" (.ofList [⟨"1"⟩, ⟨"2"⟩]) (some 7)] := by
  have hanswer : quotedReader.scanStates [7] = .ok
      [.of "say \"hi\"" (.ofList [⟨"1"⟩, ⟨"2"⟩]) (some 7)] := by decide +kernel
  obtain ⟨records, htotal, hrecords, hscan, hstates⟩ :=
    scans_of_run .posting "pets_kind_index.json" 12 none (.inl rfl) quotedSteps stores_quotedSteps
      quotedReader reader_quotedReader
  have hfound := (hstates nofun [7]).symm.trans hanswer
  exact ⟨records, htotal, hrecords, hscan, Except.ok.inj hfound⟩

end Storable

end RecordFile

end Concordance
