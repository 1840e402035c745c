import Concordance.Proofs.RecordFile.Layout

set_option relaxedAutoImplicit false
set_option autoImplicit false

/-!
# Binary search

A pattern divides the lines of a sorted file into those that come before everything that starts
with it, those that start with it, and those that come behind. The search keeps the lines that it
has passed over on the right side of this division, so it ends on a line that starts with the
pattern or at the place between the lines before and the lines behind.

## Main definitions

* `Concordance.RecordFile.side` — where a line stands from everything that starts with a pattern.
* `Concordance.RecordFile.Found` — what a search may answer.
* `Concordance.RecordFile.HoldsSorted` — an open file is made of equally wide lines in order.
* `Concordance.Table.Located` — what the answer means for a table.

## Main results

* `Concordance.RecordFile.searchBetween_found` — a search succeeds with such an answer.
* `Concordance.RecordFile.search_of_holdsSorted` — a search of an ordered file finds a line that
  starts with the pattern, or the place for one.
* `Concordance.Table.exists_located` — a table is searched successfully for every key.
-/

namespace Concordance

namespace RecordFile

/-- Where a line stands from everything that starts with a pattern. -/
def side (pattern line : Bytes) : Ordering := compare (line.take pattern.length) pattern

variable {a b pattern : Bytes} {width : Nat} {ls : List Bytes}

/-- A line is on neither side of a pattern if it begins with it. -/
lemma side_eq_iff : side pattern a = .eq ↔ pattern <+: a := Bytes.compare_take_eq_iff

/-- A line that stands before or behind a pattern compares like that with the pattern itself. -/
lemma compare_of_side_ne (h : side pattern a ≠ .eq) : compare a pattern = side pattern a :=
  Bytes.compare_of_take_ne h

/-- Lines behind a line that stands behind the pattern stand behind it too.

**Proof sketch.** If the line were not behind the pattern, it would begin with it or stand in front
of it. Both would put it in front of the first line. -/
lemma side_gt_of_lt (hab : compare a b = .lt) (ha : side pattern a = .gt) :
    side pattern b = .gt := by
  have hne : side pattern a ≠ .eq := by simp [ha]
  cases hb : side pattern b with
  | gt => rfl
  | eq =>
    obtain ⟨x, rfl⟩ := side_eq_iff.1 hb
    have : compare a (pattern ++ x) = .gt := (Bytes.compare_append_of_take_ne hne x).trans ha
    rw [this] at hab
    cases hab
  | lt =>
    have hpa : compare pattern a = .lt :=
      Std.OrientedCmp.gt_iff_lt.1 ((compare_of_side_ne hne).trans ha)
    have hbp : compare b pattern = .lt := (compare_of_side_ne (by simp [hb])).trans hb
    have hloop : compare a a = .lt := Std.TransCmp.lt_trans hab (Std.TransCmp.lt_trans hbp hpa)
    simp [Std.ReflCmp.compare_self] at hloop

/-- Lines before a line that stands before the pattern stand before it too. -/
lemma side_lt_of_lt (hab : compare a b = .lt) (hb : side pattern b = .lt) :
    side pattern a = .lt := by
  have hne : side pattern b ≠ .eq := by simp [hb]
  cases ha : side pattern a with
  | lt => rfl
  | eq =>
    obtain ⟨x, rfl⟩ := side_eq_iff.1 ha
    have : compare b (pattern ++ x) = .lt := (Bytes.compare_append_of_take_ne hne x).trans hb
    rw [Bytes.compare_swap, this] at hab
    cases hab
  | gt =>
    rw [side_gt_of_lt hab ha] at hb
    cases hb

/-- What a search for a pattern may answer: a line that starts with the pattern, or the place
behind all lines before it and before all lines behind it. -/
inductive Found (pattern : Bytes) (ls : List Bytes) : Bool × Nat → Prop
  | hit (i : Nat) (hi : i < ls.length) (starts : pattern <+: ls[i]) : Found pattern ls (true, i)
  | miss (i : Nat) (hi : i ≤ ls.length) (before : ∀ l ∈ ls.take i, side pattern l = .lt)
      (behind : ∀ l ∈ ls.drop i, side pattern l = .gt) : Found pattern ls (false, i)

/-- The probe of a search is the beginning of a line. -/
lemma readAt_probe (h : ∀ l ∈ ls, l.length = width) {i : Nat} (hi : i < ls.length) :
    readAt ls.flatten (i * width) (min pattern.length width) = .ok (ls[i].take pattern.length) := by
  have hl : ls[i].length = width := h _ (List.getElem_mem hi)
  rw [readAt_flatten h hi (Nat.min_le_right _ _)]
  congr 1
  rcases Nat.le_total pattern.length width with hle | hle
  · rw [Nat.min_eq_left hle]
  · rw [Nat.min_eq_right hle, List.take_of_length_le (by omega), List.take_of_length_le (by omega)]

/-- A search between two lines of a sorted file succeeds, and its answer is right if the lines
outside stand on their sides of the pattern.

**Proof sketch.** Induction on the search. The probe tells the side of the middle line. All lines
before a line that stands before the pattern do so too, and likewise for lines behind, so the
hypothesis about the lines outside is kept. When nothing is left between the two places they are
the place for the pattern. -/
theorem searchBetween_found (h : ∀ l ∈ ls, l.length = width)
    (sorted : ls.Pairwise fun a b => compare a b = .lt) (low high : Nat) (hle : low ≤ high)
    (hhigh : high ≤ ls.length) (before : ∀ l ∈ ls.take low, side pattern l = .lt)
    (behind : ∀ l ∈ ls.drop high, side pattern l = .gt) :
    ∃ answer, searchBetween ls.flatten width pattern low high = .ok answer ∧
      Found pattern ls answer := by
  fun_induction searchBetween ls.flatten width pattern low high with
  | case1 low high hlt middle ih₁ ih₂ =>
    have hmiddle : middle < ls.length := by omega
    have hprobe : readAt ls.flatten (middle * width) (min pattern.length width) =
        .ok (ls[middle].take pattern.length) := readAt_probe h hmiddle
    have hdrop : ls.drop middle = ls[middle] :: ls.drop (middle + 1) :=
      List.drop_eq_getElem_cons hmiddle
    have htail := List.pairwise_cons.1 (hdrop ▸ sorted.drop)
    rw [hprobe]
    simp only [bind, Except.bind]
    cases hside : compare (ls[middle].take pattern.length) pattern with
    | eq => exact ⟨_, rfl, .hit middle hmiddle (Bytes.compare_take_eq_iff.1 hside)⟩
    | lt =>
      refine ih₁ (by omega) hhigh (fun l hl => ?_) behind
      -- the line comes before the middle one or is the middle one
      rw [List.take_succ_eq_append_getElem hmiddle, List.mem_append, List.mem_singleton] at hl
      rcases hl with hl | rfl
      · have hbefore : ∀ l ∈ ls.take middle, compare l ls[middle] = .lt := by
          intro l hl
          have hpair : (ls.take middle ++ ls.drop middle).Pairwise
              fun a b => compare a b = .lt := by rwa [List.take_append_drop]
          exact (List.pairwise_append.1 hpair).2.2 l hl _ (by rw [hdrop]; exact List.mem_cons_self)
        exact side_lt_of_lt (hbefore l hl) hside
      · exact hside
    | gt =>
      refine ih₂ (by omega) (by omega) before fun l hl => ?_
      rw [hdrop] at hl
      rcases List.mem_cons.1 hl with rfl | hl
      · exact hside
      · exact side_gt_of_lt (htail.1 l hl) hside
  | case2 low high hge =>
    obtain rfl : low = high := by omega
    exact ⟨_, rfl, .miss low hhigh before behind⟩

/-! ## Searching a file -/

/-- An open record file consists of lines of its width, in strictly increasing order. -/
structure HoldsSorted {R : Type} (file : RecordFile R) (ls : List Bytes) : Prop where
  bytes : file.bytes = .ok ls.flatten
  pos : 0 < file.width
  length_of_mem : ∀ l ∈ ls, l.length = file.width
  sorted : ls.Pairwise fun a b => compare a b = .lt

/-- A file of sorted lines has as many records as lines. -/
lemma HoldsSorted.total {R : Type} {file : RecordFile R} (h : file.HoldsSorted ls) :
    file.total = .ok ls.length := by
  unfold RecordFile.total
  rw [h.bytes]
  change Except.ok (ls.flatten.length / file.width) = _
  rw [Bytes.length_flatten h.length_of_mem, Nat.mul_div_cancel _ h.pos]

/-- The line at a place of a file of sorted lines is the one of its place. -/
lemma HoldsSorted.lineAt {R : Type} {file : RecordFile R} (h : file.HoldsSorted ls) {i : Nat}
    (hi : i < ls.length) : file.lineAt i = .ok ls[i] := by
  have hlength : ls[i].length = file.width := h.length_of_mem _ (List.getElem_mem hi)
  have hline := readAt_flatten h.length_of_mem hi (Nat.le_refl _)
  rw [List.take_of_length_le hlength.le] at hline
  unfold RecordFile.lineAt
  rw [h.bytes]
  exact hline

/-- A line that starts with the pattern fits between the lines before the pattern and those
behind it.

**Proof sketch.** The lines before the pattern are smaller than whatever starts with it, and those
behind it are greater. -/
lemma pairwise_insert (sorted : ls.Pairwise fun a b => compare a b = .lt) {i : Nat}
    (before : ∀ l ∈ ls.take i, side pattern l = .lt)
    (behind : ∀ l ∈ ls.drop i, side pattern l = .gt) {line : Bytes} (hline : pattern <+: line) :
    (ls.take i ++ line :: ls.drop i).Pairwise fun a b => compare a b = .lt := by
  obtain ⟨rest, rfl⟩ := hline
  have hlt : ∀ l ∈ ls.take i, compare l (pattern ++ rest) = .lt := by
    intro l hl
    have hside := before l hl
    have hne : side pattern l ≠ .eq := by simp [hside]
    exact (Bytes.compare_append_of_take_ne hne rest).trans hside
  have hgt : ∀ l ∈ ls.drop i, compare (pattern ++ rest) l = .lt := by
    intro l hl
    have hside := behind l hl
    have hne : side pattern l ≠ .eq := by simp [hside]
    exact Std.OrientedCmp.gt_iff_lt.1 ((Bytes.compare_append_of_take_ne hne rest).trans hside)
  have hboth : (ls.take i ++ ls.drop i).Pairwise fun a b => compare a b = .lt := by
    rwa [List.take_append_drop]
  obtain ⟨hfirst, hlast, hacross⟩ := List.pairwise_append.1 hboth
  refine List.pairwise_append.2 ⟨hfirst, List.pairwise_cons.2 ⟨hgt, hlast⟩, fun a ha b hb => ?_⟩
  rcases List.mem_cons.1 hb with rfl | hb
  · exact hlt a ha
  · exact hacross a ha b hb

/-- No line starts with the pattern where every line stands on one of its sides. -/
lemma not_isPrefix_of_sides {i : Nat} (before : ∀ l ∈ ls.take i, side pattern l = .lt)
    (behind : ∀ l ∈ ls.drop i, side pattern l = .gt) : ∀ l ∈ ls, ¬ pattern <+: l := by
  intro l hl hstarts
  have hside : side pattern l = .eq := side_eq_iff.2 hstarts
  rw [← List.take_append_drop i ls, List.mem_append] at hl
  rcases hl with hl | hl
  · simp [before l hl] at hside
  · simp [behind l hl] at hside

/-- **A search of an ordered file finds a hit or the place for one.** The search for any pattern,
be it empty, the beginning of a line or longer than a line, comes to an answer. A hit names a line
of the file that starts with the pattern. Otherwise no line does, and the place named divides the
lines below the pattern from those above it, so the file stays sorted when a line that starts with
the pattern is put there. A read that went past the end of the file would fail, so an answer also
means that all reads were inside it.

**Proof sketch.** The search between the first place and the last one ends on a hit or on a place
with every line on its side of the pattern. Being on a side of the pattern means to compare like
that with everything that starts with it, in particular with the pattern and with a line to be put
there. -/
theorem search_of_holdsSorted {R : Type} {file : RecordFile R} (h : file.HoldsSorted ls)
    (pattern : Bytes) :
    ∃ hit i, file.search pattern = .ok (hit, i) ∧ file.total = .ok ls.length ∧
      (hit = true → ∃ hi : i < ls.length, file.lineAt i = .ok ls[i] ∧ pattern <+: ls[i]) ∧
      (hit = false → i ≤ ls.length ∧ (∀ line ∈ ls, ¬ pattern <+: line) ∧
        (∀ line ∈ ls.take i, compare line pattern = .lt) ∧
        (∀ line ∈ ls.drop i, compare line pattern = .gt) ∧
        ∀ line, pattern <+: line →
          (ls.take i ++ line :: ls.drop i).Pairwise fun a b => compare a b = .lt) := by
  have hbefore : ∀ l ∈ ls.take 0, side pattern l = .lt := by simp
  have hbehind : ∀ l ∈ ls.drop ls.length, side pattern l = .gt := by simp
  obtain ⟨answer, hrun, hfound⟩ := searchBetween_found h.length_of_mem h.sorted 0 ls.length
    (Nat.zero_le _) le_rfl hbefore hbehind
  have hsearch : file.search pattern = .ok answer := by
    unfold search
    rw [h.bytes, h.total]
    exact hrun
  cases hfound with
  | hit i hi starts =>
    exact ⟨true, i, hsearch, h.total, fun _ => ⟨hi, h.lineAt hi, starts⟩, nofun⟩
  | miss i hi before behind =>
    have hlt : ∀ line ∈ ls.take i, compare line pattern = .lt := fun line hline =>
      (compare_of_side_ne (by simp [before line hline])).trans (before line hline)
    have hgt : ∀ line ∈ ls.drop i, compare line pattern = .gt := fun line hline =>
      (compare_of_side_ne (by simp [behind line hline])).trans (behind line hline)
    exact ⟨false, i, hsearch, h.total, nofun, fun _ =>
      ⟨hi, not_isPrefix_of_sides before behind, hlt, hgt,
        fun line => pairwise_insert h.sorted before behind⟩⟩

/-- A file of three lines that hold one letter each. -/
def letters : RecordFile Unit where
  name := "letters"
  minWidth := 3
  width := 2
  contents := some [97, 10, 98, 10, 99, 10]
  handle := some { mode := .read }

/-- The search for a pattern that is longer than a line ends on the place behind the line that the
pattern starts with. -/
theorem search_of_holdsSorted_letters : letters.HoldsSorted [[97, 10], [98, 10], [99, 10]] ∧
    letters.search [98, 10, 7] = .ok (false, 2) ∧ ∀ line : Bytes, [98, 10, 7] <+: line →
      [[97, 10], [98, 10], line, [99, 10]].Pairwise fun a b => compare a b = .lt := by
  have h : letters.HoldsSorted [[97, 10], [98, 10], [99, 10]] :=
    { bytes := rfl, pos := by decide, length_of_mem := by decide, sorted := by decide }
  have hanswer : letters.search [98, 10, 7] = .ok (false, 2) := by decide +kernel
  obtain ⟨hit, i, hsearch, -, -, hmiss⟩ := search_of_holdsSorted h [98, 10, 7]
  cases hsearch.symm.trans hanswer
  exact ⟨h, hanswer, (hmiss rfl).2.2.2.2⟩

end RecordFile

/-! ## Searching a table -/

namespace Table

open Record RecordFile

variable {R : Type} [Record R] [Lawful R] {table : Table R} {minWidth width : Nat}

/-- A line stands from the pattern of a key where its code does.

**Proof sketch.** If the record has the key, its line starts with the pattern. Otherwise neither the
code nor the pattern is a beginning of the other, so they differ within both, and what stands behind
them does not count. -/
lemma side_padded {record : R} (hroom : (line record).length < width) {k : Key} :
    side (pattern R k) (padded width (line record)) = compare (code record) (pattern R k) := by
  obtain ⟨x, hx⟩ := Lawful.pattern_isPrefix record
  have hline : padded width (line record) = code record ++ (x ++ padding width (line record)) := by
    rw [padded_eq hroom, ← hx, List.append_assoc]
    rfl
  rw [hline]
  by_cases hkey : key record = k
  · have hcode : code record = pattern R k := by rw [code, hkey]
    have hside : side (pattern R k) (pattern R k ++ (x ++ padding width (line record))) = .eq :=
      side_eq_iff.2 (List.prefix_append _ _)
    rw [hcode, hside, Std.compare_eq_iff_eq.2 rfl]
  · have hrk : ¬ code record <+: pattern R k := fun h => hkey (eq_of_pattern_isPrefix h)
    have hkr : ¬ pattern R k <+: code record := fun h => hkey (eq_of_pattern_isPrefix h).symm
    have hne : side (pattern R k) (code record ++ (x ++ padding width (line record))) ≠ .eq := by
      rw [Ne, side_eq_iff]
      intro h
      rcases List.prefix_or_prefix_of_prefix h (List.prefix_append _ _) with h | h
      · exact hkr h
      · exact hrk h
    rw [← compare_of_side_ne hne]
    exact Bytes.compare_append_left hrk _

/-- What the answer of a search for a key means for a table: the key's record stands at the place,
or the key has none and the place divides the codes before its pattern from those behind. -/
inductive Located (table : Table R) (k : Key) : Bool × Nat → Prop
  | hit (pre : List R) (record : R) (post : List R) (split : table.records = pre ++ record :: post)
      (hkey : key record = k) : Located table k (true, pre.length)
  | miss (pre post : List R) (split : table.records = pre ++ post)
      (before : ∀ record ∈ pre, compare (code record) (pattern R k) = .lt)
      (behind : ∀ record ∈ post, compare (pattern R k) (code record) = .lt) :
      Located table k (false, pre.length)

/-- Where a pattern is found tells where the key is: at the place of its record, or where one would
belong.

**Proof sketch.** Lines stand from the pattern where the codes of their records do. A line with the
pattern is that of a record with the key, and around a place without one the codes are smaller
before it and greater behind it. -/
theorem located_of_found (h : table.Fits minWidth width) {k : Key} {answer : Bool × Nat}
    (hfound : Found (pattern R k) (table.lines width) answer) : table.Located k answer := by
  cases hfound with
  | hit i hi starts =>
    have hi' : i < table.records.length := by simpa [lines] using hi
    have hroom := h.room _ (List.getElem_mem hi')
    have hline : (table.lines width)[i] = padded width (line table.records[i]) := by simp [lines]
    rw [hline, ← side_eq_iff, side_padded hroom, Std.compare_eq_iff_eq] at starts
    have hsplit : table.records =
        table.records.take i ++ table.records[i] :: table.records.drop (i + 1) := by
      rw [← List.drop_eq_getElem_cons hi', List.take_append_drop]
    have hlength : (table.records.take i).length = i := List.length_take_of_le (by omega)
    have := Located.hit _ _ _ hsplit (pattern_injective starts)
    rwa [hlength] at this
  | miss i hi before behind =>
    have hi' : i ≤ table.records.length := by simpa [lines] using hi
    have hlength : (table.records.take i).length = i := List.length_take_of_le hi'
    -- the codes compare with the pattern as the padded lines do
    have hside : ∀ record ∈ table.records,
        side (pattern R k) (padded width (line record)) = compare (code record) (pattern R k) :=
      fun record hrecord => side_padded (h.room record hrecord)
    have hpre : ∀ record ∈ table.records.take i,
        compare (code record) (pattern R k) = .lt := by
      intro record hrecord
      rw [← hside record (List.mem_of_mem_take hrecord)]
      refine before _ ?_
      rw [lines, ← List.map_take]
      exact List.mem_map_of_mem hrecord
    have hpost : ∀ record ∈ table.records.drop i,
        compare (pattern R k) (code record) = .lt := by
      intro record hrecord
      refine Std.OrientedCmp.gt_iff_lt.1 ?_
      rw [← hside record (List.mem_of_mem_drop hrecord)]
      refine behind _ ?_
      rw [lines, ← List.map_drop]
      exact List.mem_map_of_mem hrecord
    have := Located.miss _ _ (List.take_append_drop i table.records).symm hpre hpost
    rwa [hlength] at this

/-- The whole file of a table is searched successfully for any pattern. -/
lemma exists_found (h : table.Fits minWidth width) (pattern : Bytes) :
    ∃ answer, searchBetween (table.bytes width) width pattern 0 table.size = .ok answer ∧
      Found pattern (table.lines width) answer := by
  have hlength : (table.lines width).length = table.size := by simp [lines, size]
  have hbefore : ∀ l ∈ (table.lines width).take 0, side pattern l = .lt := by simp
  have hbehind : ∀ l ∈ (table.lines width).drop table.size, side pattern l = .gt := by
    rw [← hlength, List.drop_length]
    simp
  exact searchBetween_found h.length_of_mem h.sorted_lines 0 table.size (Nat.zero_le _)
    (by rw [hlength]) hbefore hbehind

/-- The whole file of a table is searched successfully for a key. -/
theorem exists_located (h : table.Fits minWidth width) (k : Key) :
    ∃ answer, searchBetween (table.bytes width) width (pattern R k) 0 table.size = .ok answer ∧
      table.Located k answer := by
  obtain ⟨answer, hanswer, hfound⟩ := exists_found h (pattern R k)
  exact ⟨answer, hanswer, located_of_found h hfound⟩

end Table

end Concordance
