import Concordance.Proofs.RecordFile.Failures
import Concordance.Proofs.RecordFile.Lookup
import Mathlib.Data.List.TakeWhile

set_option relaxedAutoImplicit false
set_option autoImplicit false

/-!
# When typo states can be stored

Whatever is in a file that is open for writing, records can be deleted from it and it can be
emptied. To store typo states may fail: a line that starts like the line of a state may not be a
record. If the lines of the file are even and the file has been read as a whole, there is no such
line, and all states can be stored.

## Main definitions

* `Concordance.RecordFile.Writable` — a file is open for writing under its name.
* `Concordance.Bytes.Even` — bytes are lines of one width.
* `Concordance.RecordFile.Admits` — typo states can be stored in a file.

## Main results

* `Concordance.RecordFile.ensures_delete`, `ensures_truncate` — what succeeds whatever is in a file.
* `Concordance.RecordFile.admits_of_even` — a file with even lines that is opened and read admits
  all typo states.
* `Concordance.RecordFile.ensures_upsert` — what is admitted is stored.
-/

namespace Concordance

/-! ## Trimming -/

namespace Bytes

/-- Bytes are lines of one width, each with one line feed at its end. -/
def Even (bytes : Bytes) : Prop :=
  ∃ (width : Nat) (bodies : List Bytes),
    (∀ body ∈ bodies, body.length + 1 = width ∧ lineFeed ∉ body) ∧
      bytes = (bodies.map (· ++ [lineFeed])).flatten

variable {bytes blanks : Bytes}

/-- What is trimmed away are blanks. -/
lemma exists_trimEnd_append (bytes : Bytes) :
    ∃ blanks, (∀ b ∈ blanks, isBlank b = true) ∧ trimEnd bytes ++ blanks = bytes := by
  refine ⟨(bytes.reverse.takeWhile isBlank).reverse, fun b hb => ?_, ?_⟩
  · exact List.mem_takeWhile_imp (List.mem_reverse.1 hb)
  · rw [trimEnd, ← List.reverse_append, List.takeWhile_append_dropWhile, List.reverse_reverse]

/-- Behind the last character that is not blank there is nothing more to cut off. -/
lemma trimEnd_trimEnd (bytes : Bytes) : trimEnd (trimEnd bytes) = trimEnd bytes := by
  obtain ⟨blanks, hblanks, hbytes⟩ := exists_trimEnd_append bytes
  conv_rhs => rw [← hbytes, trimEnd_append_blanks hblanks]

/-- A beginning that ends with no blank does not reach into the blanks at the end.

**Proof sketch.** Either the beginning is one of the text itself, or it goes on into the blanks, and
then its last byte would be one of them. -/
lemma isPrefix_of_isPrefix_append {start : Bytes} (h : ∀ b ∈ blanks, isBlank b = true)
    (hlast : ∀ b ∈ start.getLast?, isBlank b = false) (hstart : start <+: bytes ++ blanks) :
    start <+: bytes := by
  rcases List.prefix_or_prefix_of_prefix hstart (List.prefix_append bytes blanks) with hle | ⟨x, hx⟩
  · exact hle
  · cases hlist : x.getLast? with
    | none =>
      rw [List.getLast?_eq_none_iff.1 hlist, List.append_nil] at hx
      exact hx ▸ List.prefix_rfl
    | some b =>
      -- the last byte would be one of the blanks
      have hb : start.getLast? = some b := by rw [← hx, List.getLast?_append, hlist]; rfl
      have hmem : b ∈ blanks := by
        rw [← hx] at hstart
        exact ((List.prefix_append_right_inj bytes).1 hstart).subset (List.mem_of_getLast? hlist)
      have := hlast b (by rw [hb]; rfl)
      rw [h b hmem] at this
      cases this

end Bytes

namespace RecordFile

open Record Operation

/-! ## Files that are open for writing -/

section Writable

variable {R : Type}

/-- A file is open for writing, and the handle is on what is stored under its name. -/
def Writable (file : RecordFile R) : Prop := file.handle = some { mode := .readWrite }

/-- Neither the bytes nor the width have to do with it. -/
lemma steady_writable : Steady (Writable (R := R)) where
  openFor h := ⟨_, h, rfl⟩
  lasting file handle bytes hhandle _ h := by
    cases hhandle.symm.trans h
    exact h
  resized _ h := h

/-- Records can be deleted, whatever is in the file. -/
theorem ensures_delete [Record R] (k : Key) :
    Ensures (Writable (R := R)) (delete k) fun _ => Writable :=
  steady_writable.ensures_delete k

/-- A file can be emptied, whatever is in it. -/
theorem ensures_truncate : Ensures (Writable (R := R)) truncate fun _ => Writable :=
  steady_writable.ensures_truncate

end Writable

/-! ## Storing typo states -/

/-- Typo states can be stored in a file that is open for writing: its lines are even, and those that
start like the line of such a state are read. -/
def Admits (file : RecordFile TypoState) (states : List Nat) : Prop :=
  0 < file.minWidth ∧ ∃ ls, file.Lined ls ∧ ∀ n ∈ states, ∀ l ∈ ls,
    pattern TypoState (.number n) <+: l → ∃ record : TypoState, decodeLine l = .ok record

variable {file : RecordFile TypoState} {ls : List Bytes} {n : Nat} {states : List Nat}

/-- A file that takes states is open for writing. -/
lemma Admits.writable (h : file.Admits states) : file.Writable := by
  obtain ⟨-, ls, hlined, -⟩ := h
  exact hlined.handle

/-- Lines with the same bytes in front of their blanks are read as the same. -/
lemma decodeLine_congr {R : Type} [Record R] {a b : Bytes}
    (h : Bytes.trimEnd a = Bytes.trimEnd b) : decodeLine (R := R) a = decodeLine b := by
  unfold decodeLine decode?
  rw [h]

/-- The pattern of a state ends with a brace. -/
lemma getLast?_pattern (n : Nat) :
    ∀ b ∈ (pattern TypoState (.number n)).getLast?, Bytes.isBlank b = false := by
  intro b hb
  have hline : pattern TypoState (.number n) = line (⟨n⟩ : TypoState) := (line_typoState ⟨n⟩).symm
  rw [hline, Lawful.getLast?_line, Option.mem_some_iff] at hb
  rw [← hb]
  decide

/-- To make lines wider changes nothing about which of them are read.

**Proof sketch.** A wider line differs from the one before in its blanks at the end only, which
neither the pattern nor what is read depends on. -/
lemma readable_roomy {wide : RecordFile TypoState} {ls' : List Bytes} {needed : Nat}
    (hroomy : Roomy file ls needed wide ls') (hlined : file.Lined ls)
    (h : ∀ l ∈ ls, pattern TypoState (.number n) <+: l →
      ∃ record : TypoState, decodeLine l = .ok record) :
    ∀ l ∈ ls', pattern TypoState (.number n) <+: l →
      ∃ record : TypoState, decodeLine l = .ok record := by
  cases hroomy with
  | same hroom => exact h
  | grown width htight hroom hdvd =>
    intro l hl hstarts
    obtain ⟨old, hold, rfl⟩ := List.mem_map.1 hl
    have hlength := length_trimEnd_le old
    rw [hlined.length_of_mem old hold] at hlength
    have hpadded : padded width (Bytes.trimEnd old) =
        Bytes.trimEnd old ++ padding width (Bytes.trimEnd old) := padded_eq (by omega)
    obtain ⟨blanks, -, hblanks⟩ := Bytes.exists_trimEnd_append old
    rw [hpadded] at hstarts ⊢
    have hstarts' := Bytes.isPrefix_of_isPrefix_append isBlank_padding (getLast?_pattern n) hstarts
    have hread := h old hold (hstarts'.trans ⟨blanks, hblanks⟩)
    rwa [decodeLine_congr (b := old) (by
      rw [Bytes.trimEnd_append_blanks isBlank_padding, Bytes.trimEnd_trimEnd])]

/-- **A state that is admitted is stored**, and the others are still admitted.

**Proof sketch.** The line that is written over, if there is one, is read. The new line starts like
the line of no other state. -/
theorem ensures_upsert (hnot : n ∉ states) :
    Ensures (fun file => Admits file (n :: states)) (upsert ⟨n⟩ .replace)
      fun _ file => Admits file states := by
  rintro file ⟨hmin, ls, hlined, hread⟩
  -- what comes of writing the line somewhere
  have hwritten : ∀ {wide : RecordFile TypoState} {ls' : List Bytes} (i j : Nat),
      Roomy file ls ((line (⟨n⟩ : TypoState)).length + 1) wide ls' →
        Admits (wide.withLines
          (ls'.take i ++ padded wide.width (line (⟨n⟩ : TypoState)) :: ls'.drop j)) states := by
    intro wide ls' i j hroomy
    have hwide := hroomy.lined hlined
    have hminWide : wide.minWidth = file.minWidth := by cases hroomy <;> rfl
    refine ⟨hminWide ▸ hmin, _, hwide.withLines fun l hl => ?_, fun m hm l hl hstarts => ?_⟩
    · rcases List.mem_append.1 hl with hl | hl
      · exact hwide.length_of_mem l (List.mem_of_mem_take hl)
      · rcases List.mem_cons.1 hl with rfl | hl
        · exact length_padded hroomy.le
        · exact hwide.length_of_mem l (List.mem_of_mem_drop hl)
    · have hold := readable_roomy hroomy hlined (hread m (List.mem_cons_of_mem _ hm)) l
      rcases List.mem_append.1 hl with hl | hl
      · exact hold (List.mem_of_mem_take hl) hstarts
      · rcases List.mem_cons.1 hl with rfl | hl
        · rw [padded_eq hroomy.le] at hstarts
          have hstarts' := Bytes.isPrefix_of_isPrefix_append isBlank_padding (getLast?_pattern m)
            hstarts
          rw [line_typoState] at hstarts'
          obtain rfl : m = n := Key.number.inj (eq_of_pattern_isPrefix hstarts')
          exact absurd hm hnot
        · exact hold (List.mem_of_mem_drop hl) hstarts
  obtain ⟨hit, i, hsearch, hi, hstarts⟩ :=
    hlined.search (pattern TypoState (key (⟨n⟩ : TypoState)))
  cases hit with
  | false =>
    obtain ⟨wide, ls', hroomy, hrun⟩ := hlined.upsert_miss .replace hmin hi hsearch
    exact ⟨(), _, hrun, hwritten i i hroomy⟩
  | true =>
    obtain ⟨hi, hprefix⟩ := hstarts rfl
    obtain ⟨existing, hexisting⟩ :=
      hread n List.mem_cons_self ls[i] (List.getElem_mem hi) hprefix
    obtain ⟨wide, ls', hroomy, hrun⟩ :=
      hlined.upsert_hit .replace hmin hi hsearch hexisting
    exact ⟨(), _, hrun, hwritten i (i + 1) hroomy⟩

/-! ## Files with even lines -/

/-- The text lines of even lines are what stands on them, blank ones left out. -/
lemma textLines_even {bodies : List Bytes} (h : ∀ body ∈ bodies, Bytes.lineFeed ∉ body) :
    textLines (bodies.map (· ++ [Bytes.lineFeed])).flatten =
      (bodies.map Bytes.trimEnd).filter (· ≠ []) := by
  induction bodies with
  | nil => rfl
  | cons body bodies ih =>
    have htail := ih fun other hother => h other (List.mem_cons_of_mem _ hother)
    unfold textLines at htail ⊢
    rw [List.map_cons, List.flatten_cons, List.append_assoc, List.singleton_append,
      lines_append_lineFeed (h body List.mem_cons_self), List.map_cons, List.map_cons,
      List.filter_cons, List.filter_cons, htail]

/-- All records of a list that is read as a whole are read. -/
lemma exists_of_mapM_ok {ε α β : Type} {f : α → Except ε β} {items : List α} {found : List β}
    (h : items.mapM f = .ok found) {a : α} (ha : a ∈ items) : ∃ b, f a = .ok b := by
  induction items generalizing found with
  | nil => cases ha
  | cons item items ih =>
    rw [List.mapM_cons] at h
    obtain ⟨first, hfirst, h⟩ := bind_eq_ok_iff.1 h
    obtain ⟨rest, hrest, -⟩ := bind_eq_ok_iff.1 h
    rcases List.mem_cons.1 ha with rfl | ha
    · exact ⟨first, hfirst⟩
    · exact ih hrest ha

/-- A file with even lines has the width of its first line when it is opened, so its lines are those
of the text.

**Proof sketch.** A file without bytes has no lines, and opens at the smallest width. Otherwise the
first line feed stands at the end of the first line, and all lines are as wide as this one. -/
lemma lined_of_openIn {opened : RecordFile TypoState} {width : Nat} {bodies : List Bytes}
    (hmin : 0 < file.minWidth)
    (hbodies : ∀ body ∈ bodies, body.length + 1 = width ∧ Bytes.lineFeed ∉ body)
    (hbytes : file.contents.getD [] = (bodies.map (· ++ [Bytes.lineFeed])).flatten)
    (hopen : openIn .readWrite file = .ok () opened) :
    opened.minWidth = file.minWidth ∧ opened.Lined (bodies.map (· ++ [Bytes.lineFeed])) := by
  cases hcontents : file.contents with
  | none =>
    rw [hcontents] at hbytes
    have hnil : bodies = [] := by
      cases bodies with
      | nil => rfl
      | cons body rest => simp at hbytes
    by_cases hname : usableName file.name = true
    · cases (openIn_of_none hcontents hname).symm.trans hopen
      subst hnil
      exact ⟨rfl, rfl, rfl, hmin, by simp⟩
    · cases (openIn_error hcontents fun hready => hname hready.2).symm.trans hopen
  | some bytes =>
    rw [hcontents, Option.getD_some] at hbytes
    cases bodies with
    | nil =>
      obtain rfl : bytes = [] := hbytes
      cases (openIn_of_firstWidth hcontents rfl .readWrite).symm.trans hopen
      exact ⟨rfl, rfl, hcontents, hmin, by simp⟩
    | cons body rest =>
      -- the first body has no line feed, so the first line feed is the one behind it
      obtain ⟨hwidth, hfeed⟩ := hbodies body List.mem_cons_self
      have hfirst : firstWidth file.name bytes = .ok (some (body.length + 1)) := by
        rw [hbytes, List.map_cons, List.flatten_cons, List.append_assoc, List.singleton_append,
          firstWidth_append hfeed]
      cases (openIn_of_firstWidth hcontents hfirst .readWrite).symm.trans hopen
      refine ⟨rfl, rfl, hbytes ▸ hcontents, Nat.succ_pos _, fun l hl => ?_⟩
      obtain ⟨other, hother, rfl⟩ := List.mem_map.1 hl
      have := (hbodies other hother).1
      simp only [Option.getD_some, List.length_append, List.length_singleton]
      omega

/-- A line that starts like that of a state is not blank. -/
lemma trimEnd_ne_nil_of_pattern {body : Bytes} {n : Nat}
    (hstarts : pattern TypoState (.number n) <+: body) : Bytes.trimEnd body ≠ [] := by
  obtain ⟨blanks, hblanks, hbody⟩ := Bytes.exists_trimEnd_append body
  intro hnil
  rw [← hbody, hnil] at hstarts
  have hempty := Bytes.isPrefix_of_isPrefix_append hblanks (getLast?_pattern n) hstarts
  have hpattern : pattern TypoState (.number n) = line (⟨n⟩ : TypoState) :=
    (line_typoState ⟨n⟩).symm
  rw [List.prefix_nil, hpattern] at hempty
  have hlast := Lawful.getLast?_line (⟨n⟩ : TypoState)
  rw [hempty] at hlast
  cases hlast

/-- **A file with even lines that is opened and read admits all typo states.**

**Proof sketch.** The width is that of the first line, so the lines are those of the text. One that
starts like the line of a state is not blank, so it was read with the others. -/
theorem admits_of_even {opened : RecordFile TypoState} {records : List TypoState}
    (hmin : 0 < file.minWidth) (heven : Bytes.Even (file.contents.getD []))
    (hopen : openIn .readWrite file = .ok () opened) (hscan : opened.scanAll = .ok records)
    (states : List Nat) : opened.Admits states := by
  obtain ⟨width, bodies, hbodies, hbytes⟩ := heven
  obtain ⟨hminOpened, hlined⟩ := lined_of_openIn hmin hbodies hbytes hopen
  refine ⟨hminOpened ▸ hmin, _, hlined, fun n _ l hl hstarts => ?_⟩
  obtain ⟨body, hbody, rfl⟩ := List.mem_map.1 hl
  have hblank : ∀ b ∈ [Bytes.lineFeed], Bytes.isBlank b = true := fun b hb => by
    rw [List.mem_singleton.1 hb]
    rfl
  have hne := trimEnd_ne_nil_of_pattern
    (Bytes.isPrefix_of_isPrefix_append hblank (getLast?_pattern n) hstarts)
  have htrim : Bytes.trimEnd (body ++ [Bytes.lineFeed]) = Bytes.trimEnd body :=
    Bytes.trimEnd_append_blanks hblank
  unfold scanAll namedLines at hscan
  rw [hlined.contents] at hscan
  simp only [textLines_even fun body hbody => (hbodies body hbody).2] at hscan
  have hmem : Bytes.trimEnd body ∈ (bodies.map Bytes.trimEnd).filter (· ≠ []) :=
    List.mem_filter.2 ⟨List.mem_map_of_mem hbody, by simpa using hne⟩
  obtain ⟨record, hrecord⟩ := exists_of_mapM_ok hscan hmem
  exact ⟨record, (decodeLine_congr (by rw [htrim, Bytes.trimEnd_trimEnd])).trans hrecord⟩

end RecordFile

end Concordance
