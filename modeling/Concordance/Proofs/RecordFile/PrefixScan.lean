import Concordance.Proofs.RecordFile.Postings

set_option relaxedAutoImplicit false
set_option autoImplicit false

/-!
# Scanning keys with a common beginning

The lines of a sorted file that start with a pattern stand next to each other. A binary search hits
one of them; the scan goes back to the first and from there to the last.

## Main definitions

* `Concordance.RecordFile.Starts` — the key of a record is a text with a given beginning.

## Main results

* `Concordance.RecordFile.Holds.prefixScan_eq` — a scan decodes the lines that start with the
  pattern.
* `Concordance.RecordFile.Holds.prefixScan` — the records of a table that are found by a beginning.
* `Concordance.RecordFile.Lists.prefixScan` — the postings that are found by a beginning.
-/

namespace Concordance.RecordFile

open Record

/-! ## Lines around a pattern -/

/-- Sorted lines divide into those before a pattern, those that start with it, and those behind.

**Proof sketch.** Induction on the lines. Those behind a line are greater, so none of them stands on
an earlier side of the pattern than the line does. -/
lemma exists_sides {α : Type} (f : α → Bytes) (pattern : Bytes) {items : List α}
    (sorted : items.Pairwise fun a b => compare (f a) (f b) = .lt) :
    ∃ pre same post, items = pre ++ same ++ post ∧ (∀ a ∈ pre, side pattern (f a) = .lt) ∧
      (∀ a ∈ same, side pattern (f a) = .eq) ∧ ∀ a ∈ post, side pattern (f a) = .gt := by
  induction items with
  | nil => exact ⟨[], [], [], rfl, by simp, by simp, by simp⟩
  | cons item items ih =>
    obtain ⟨hfirst, hrest⟩ := List.pairwise_cons.1 sorted
    obtain ⟨pre, same, post, rfl, hpre, hsame, hpost⟩ := ih hrest
    -- no line behind this one stands on an earlier side of the pattern
    have hnil : ∀ {part : List α}, (∀ a ∈ part, a ∈ pre ++ same ++ post) →
        (∀ a ∈ part, compare (f item) (f a) ≠ .lt) → part = [] := fun hpart hnot =>
      List.eq_nil_iff_forall_not_mem.2 fun a ha => hnot a ha (hfirst a (hpart a ha))
    cases hside : side pattern (f item) with
    | lt => exact ⟨item :: pre, same, post, rfl, List.forall_mem_cons.2 ⟨hside, hpre⟩, hsame, hpost⟩
    | eq =>
      obtain rfl : pre = [] := hnil (by simp +contextual) fun a ha hlt => by
        rw [side_lt_of_lt hlt (hpre a ha)] at hside
        cases hside
      exact ⟨[], item :: same, post, rfl, by simp, List.forall_mem_cons.2 ⟨hside, hsame⟩, hpost⟩
    | gt =>
      obtain rfl : pre = [] := hnil (by simp +contextual) fun a ha hlt => by
        rw [side_lt_of_lt hlt (hpre a ha)] at hside
        cases hside
      obtain rfl : same = [] := hnil (by simp +contextual) fun a ha hlt => by
        have := side_gt_of_lt hlt hside
        rw [hsame a ha] at this
        cases this
      exact ⟨[], [], item :: post, rfl, by simp, by simp, List.forall_mem_cons.2 ⟨hside, hpost⟩⟩

variable {R : Type} [Record R]

/-- The key of a record is a text with a given beginning. -/
def Starts (start : String) (record : R) : Prop :=
  ∃ s, key record = .text s ∧ start.toList <+: s.toList

variable [Lawful R] {table : Table R} {file : RecordFile R} {name : String} {minWidth : Nat}
  {mode : Mode} {start : String} {pre same post : List R}

/-- The records with a beginning stand next to each other.

**Proof sketch.** The padded lines of the records are sorted, and a record has the beginning iff its
line starts with the pattern of the beginning. -/
lemma exists_starts {width : Nat} (h : table.Fits minWidth width) (start : String) :
    ∃ pre same post, table.records = pre ++ same ++ post ∧ (∀ record ∈ pre, ¬ Starts start record) ∧
      (∀ record ∈ same, Starts start record) ∧ ∀ record ∈ post, ¬ Starts start record := by
  obtain ⟨pre, same, post, hsplit, hpre, hsame, hpost⟩ :=
    exists_sides (fun record : R => padded width (line record)) (prefixPattern R start)
      (List.pairwise_map.1 h.sorted_lines)
  have hstarts : ∀ record ∈ table.records,
      side (prefixPattern R start) (padded width (line record)) = .eq ↔ Starts start record := by
    intro record hrecord
    rw [side_eq_iff, padded_eq (h.room record hrecord)]
    exact prefixPattern_isPrefix_iff _
  refine ⟨pre, same, post, hsplit, fun record hrecord h => ?_, fun record hrecord => ?_,
    fun record hrecord h => ?_⟩
  · have := (hstarts record (by simp [hsplit, hrecord])).2 h
    rw [hpre record hrecord] at this
    cases this
  · exact (hstarts record (by simp [hsplit, hrecord])).1 (hsame record hrecord)
  · have := (hstarts record (by simp [hsplit, hrecord])).2 h
    rw [hpost record hrecord] at this
    cases this

namespace Holds

/-- Whether the line at a place starts with the pattern of a beginning. -/
lemma exists_lineAt (h : file.Holds name minWidth (some mode) table) {record : R}
    {pre post : List R} (split : table.records = pre ++ record :: post) (start : String) :
    ∃ l, file.lineAt pre.length = .ok l ∧
      ((prefixPattern R start).isPrefixOf l = true ↔ Starts start record) := by
  refine ⟨_, h.lineAt split, ?_⟩
  rw [List.isPrefixOf_iff_prefix]
  exact prefixPattern_isPrefix_iff _

/-- From any of the records with a beginning, the scan goes back to the first.

**Proof sketch.** Induction on the place. The line before is that of a record with the beginning as
long as there is one, and then that of another record or none. -/
lemma runStart (h : file.Holds name minWidth (some mode) table)
    (split : table.records = pre ++ same ++ post) (hpre : ∀ record ∈ pre, ¬ Starts start record)
    (hsame : ∀ record ∈ same, Starts start record) {i : Nat} (hi : pre.length ≤ i)
    (hi' : i ≤ pre.length + same.length) :
    file.runStart (prefixPattern R start) i = .ok pre.length := by
  induction i with
  | zero =>
    rw [Nat.le_zero.1 hi]
    rfl
  | succ i ih =>
    have hlt : i < (pre ++ same).length := by
      rw [List.length_append]
      omega
    have hsplit : table.records =
        (pre ++ same).take i ++ (pre ++ same)[i] :: ((pre ++ same).drop (i + 1) ++ post) := by
      rw [← List.cons_append, ← List.drop_eq_getElem_cons hlt, ← List.append_assoc,
        List.take_append_drop, split]
    have hlength : ((pre ++ same).take i).length = i := List.length_take_of_le hlt.le
    obtain ⟨l, hline, hstarts⟩ := h.exists_lineAt hsplit start
    rw [hlength] at hline
    unfold RecordFile.runStart
    rw [hline]
    simp only [bind, Except.bind]
    -- the line before belongs to the run as long as its place is not before the run
    by_cases hle : pre.length ≤ i
    · have hmem : (pre ++ same)[i] ∈ same := by
        rw [List.getElem_append_right hle]
        exact List.getElem_mem _
      rw [if_pos (hstarts.2 (hsame _ hmem))]
      exact ih hle (by omega)
    · have hmem : (pre ++ same)[i] ∈ pre := by
        rw [List.getElem_append_left (by omega)]
        exact List.getElem_mem _
      rw [if_neg fun hprefix => hpre _ hmem (hstarts.1 hprefix)]
      exact congrArg Except.ok (by omega)

/-- From the first of the records with a beginning, the scan goes on to the last, and reads their
lines.

**Proof sketch.** Induction on the records with the beginning. Behind the last one stands the line
of another record, or the file ends. -/
lemma runFrom (h : file.Holds name minWidth (some mode) table)
    (split : table.records = pre ++ same ++ post) (hsame : ∀ record ∈ same, Starts start record)
    (hpost : ∀ record ∈ post, ¬ Starts start record) :
    file.runFrom (prefixPattern R start) pre.length (same.length + post.length) =
      (same.map line).mapM decodeLine := by
  induction same generalizing pre with
  | nil =>
    cases post with
    | nil => rfl
    | cons record post =>
      rw [List.append_nil] at split
      obtain ⟨l, hline, hstarts⟩ := h.exists_lineAt split start
      rw [List.length_nil, Nat.zero_add, List.length_cons, RecordFile.runFrom, hline]
      simp only [bind, Except.bind]
      rw [if_neg fun hprefix => hpost record List.mem_cons_self (hstarts.1 hprefix)]
      rfl
  | cons record same ih =>
    have hsplit : table.records = pre ++ record :: (same ++ post) := by
      rw [split, List.append_assoc, List.cons_append]
    obtain ⟨l, hline, hstarts⟩ := h.exists_lineAt hsplit start
    have hrest := @ih (pre ++ [record]) (by simp [hsplit])
      fun other hother => hsame other (List.mem_cons_of_mem _ hother)
    rw [List.length_append, List.length_singleton] at hrest
    rw [List.length_cons, Nat.add_right_comm, RecordFile.runFrom, hline, List.map_cons,
      List.mapM_cons, ← hrest, ← h.recordAt hsplit]
    simp only [bind, Except.bind]
    rw [if_pos (hstarts.2 (hsame record List.mem_cons_self))]

omit [Lawful R] in
/-- The records with a beginning are those between the others. -/
lemma mem_same_iff {records : List R} (split : records = pre ++ same ++ post)
    (hpre : ∀ record ∈ pre, ¬ Starts start record) (hsame : ∀ record ∈ same, Starts start record)
    (hpost : ∀ record ∈ post, ¬ Starts start record) (record : R) :
    record ∈ same ↔ record ∈ records ∧ Starts start record := by
  rw [split, List.mem_append, List.mem_append]
  constructor
  · exact fun hrecord => ⟨.inl (.inr hrecord), hsame record hrecord⟩
  · rintro ⟨(hrecord | hrecord) | hrecord, hstarts⟩
    · exact absurd hstarts (hpre record hrecord)
    · exact hrecord
    · exact absurd hstarts (hpost record hrecord)

omit [Lawful R] in
/-- Behind the records before a beginning stand those with it and those behind it. -/
lemma size_sub_eq (split : table.records = pre ++ same ++ post) :
    table.size - pre.length = same.length + post.length := by
  rw [Table.size, split]
  simp only [List.length_append]
  omega

omit [Lawful R] in
/-- The place of a record with a beginning is between those of the others.

**Proof sketch.** Before that place and behind it there are only records without the beginning. -/
lemma bounds_of_starts {records : List R} (split : records = pre ++ same ++ post)
    (hpre : ∀ record ∈ pre, ¬ Starts start record) (hpost : ∀ record ∈ post, ¬ Starts start record)
    {i : Nat} (hi : i < records.length) (hstarts : Starts start records[i]) :
    pre.length ≤ i ∧ i ≤ pre.length + same.length := by
  subst split
  constructor
  · by_contra hlt
    have hget : (pre ++ same ++ post)[i] ∈ pre := by
      simp only [List.append_assoc, List.getElem_append_left (not_le.1 hlt)]
      exact List.getElem_mem _
    exact hpre _ hget hstarts
  · by_contra hlt
    rw [← List.length_append] at hlt
    have hget : (pre ++ same ++ post)[i] ∈ post := by
      rw [List.getElem_append_right (not_le.1 hlt).le]
      exact List.getElem_mem _
    exact hpost _ hget hstarts

/-- **Scanning a beginning** reads the lines of the records whose keys have it, in order.

**Proof sketch.** The records with the beginning stand next to each other. If there is one, the
search cannot miss: a miss tells the lines before from those behind the pattern, and leaves none
between. -/
theorem prefixScan_eq (h : file.Holds name minWidth (some mode) table)
    (split : table.records = pre ++ same ++ post) (hpre : ∀ record ∈ pre, ¬ Starts start record)
    (hsame : ∀ record ∈ same, Starts start record)
    (hpost : ∀ record ∈ post, ¬ Starts start record) :
    file.prefixScan start = (same.map line).mapM decodeLine := by
  obtain ⟨answer, hanswer, hfound⟩ := Table.exists_found h.fits (prefixPattern R start)
  have hsearch : file.search (prefixPattern R start) = .ok answer := by
    unfold RecordFile.search
    rw [h.bytes, h.total]
    exact hanswer
  have hline : ∀ record ∈ table.records, Starts start record ↔
      prefixPattern R start <+: padded file.width (line record) := by
    intro record hrecord
    rw [padded_eq (h.fits.room record hrecord)]
    exact (prefixPattern_isPrefix_iff _).symm
  unfold RecordFile.prefixScan
  simp only [hsearch]
  cases hfound with
  | hit i hi starts =>
    have hi : i < table.records.length := by simpa [Table.lines] using hi
    have hstarts : Starts start table.records[i] := by
      refine (hline _ (List.getElem_mem hi)).2 ?_
      simpa [Table.lines] using starts
    obtain ⟨hle, hle'⟩ := bounds_of_starts split hpre hpost hi hstarts
    simp only [bind, Except.bind, h.runStart split hpre hsame hle hle', h.total,
      size_sub_eq split]
    exact h.runFrom split hsame hpost
  | miss i hi before behind =>
    -- every line is on one side of the pattern, so none begins with it
    have hnil : same = [] := by
      refine List.eq_nil_iff_forall_not_mem.2 fun record hrecord => ?_
      obtain ⟨hmem, hstarts⟩ := (mem_same_iff split hpre hsame hpost record).1 hrecord
      have hlines : padded file.width (line record) ∈ table.lines file.width :=
        List.mem_map_of_mem hmem
      exact not_isPrefix_of_sides before behind _ hlines ((hline record hmem).1 hstarts)
    rw [hnil]
    rfl

/-- If all records are read back, scanning a beginning finds the records whose keys have it. -/
theorem prefixScan (h : file.Holds name minWidth (some mode) table)
    (hread : ∀ record ∈ table.records, ReadsBack record) (start : String) :
    ∃ found, file.prefixScan start = .ok found ∧ found.Sublist table.records ∧
      ∀ record, record ∈ found ↔ record ∈ table.records ∧ Starts start record := by
  obtain ⟨pre, same, post, split, hpre, hsame, hpost⟩ := exists_starts h.fits start
  have hmem := mem_same_iff split hpre hsame hpost
  have hsub : same.Sublist table.records := by
    rw [split]
    exact (List.sublist_append_right _ _).trans (List.sublist_append_left _ _)
  refine ⟨same, ?_, hsub, hmem⟩
  rw [h.prefixScan_eq split hpre hsame hpost]
  exact mapM_decodeLine fun record hrecord => hread record ((hmem record).1 hrecord).1

end Holds

/-- The postings that are found by the beginning of their terms.

**Proof sketch.** The records found by a beginning are the postings whose terms have it, and these
are the ones that the lists say. -/
theorem Lists.prefixScan {file : RecordFile Posting} {name : String} {minWidth : Nat} {mode : Mode}
    {state : String → Option Nat} {lists : String → PostingList}
    (h : file.Lists name minWidth (some mode) state lists)
    (hstate : ∀ term n, state term = some n → n < 2 ^ 64) (start : String) :
    ∃ postings, file.prefixScan start = .ok postings ∧ ∀ posting, posting ∈ postings ↔
      (lists posting.key ≠ .empty ∧
        posting = .of posting.key (lists posting.key) (state posting.key)) ∧
          start.toList <+: posting.key.toList := by
  obtain ⟨table, hholds, htable⟩ := h.holds
  obtain ⟨postings, hrun, -, hmem⟩ := hholds.prefixScan
    (fun posting hposting => Posting.readsBack (storable_of_mem htable hstate posting hposting))
    start
  refine ⟨postings, hrun, fun posting => ?_⟩
  have hstarts : Starts start posting ↔ start.toList <+: posting.key.toList := by
    constructor
    · rintro ⟨s, hkey, hstart⟩
      rwa [Key.text.inj hkey]
    · exact fun hstart => ⟨posting.key, rfl, hstart⟩
  rw [hmem, mem_records_iff htable, hstarts]

end Concordance.RecordFile
