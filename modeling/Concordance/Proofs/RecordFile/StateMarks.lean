import Concordance.Proofs.Record.Codec
import Concordance.Proofs.RecordFile.Lookup
import Concordance.RecordFile.StateMark

set_option relaxedAutoImplicit false
set_option autoImplicit false

/-!
# Marks of typo states

The mark at the end of a line is the state of the posting or the typo state on it, so that the
records that are found by their marks are those with the states looked for.

## Main results

* `Concordance.RecordFile.stateMark?_line`, `stateMark?_typoState` — the mark of a line is the state
  of its record.
* `Concordance.RecordFile.scanStates_of_namedLines` — the records found by their states.
-/

namespace Concordance

namespace RecordFile

open Record

/-! ## Digits as bytes -/

/-- The decimal digit `d` as a byte. -/
def digitByte (d : Nat) : UInt8 := UInt8.ofNat (48 + d)

/-- The bytes of decimal digits are digits. -/
lemma isDigit_digitByte {d : Nat} (h : d < 10) : isDigit (digitByte d) = true := by
  have key : ∀ d, d < 10 → isDigit (digitByte d) = true := by decide
  exact key d h

/-- The byte of a decimal digit is read as the digit. -/
lemma digitByte_toNat {d : Nat} (h : d < 10) : (digitByte d).toNat - 48 = d := by
  have key : ∀ d, d < 10 → (digitByte d).toNat - 48 = d := by decide
  exact key d h

/-- The character of a decimal digit has its number behind that of zero. -/
lemma toNat_digitChar {d : Nat} (h : d < 10) : (Positional.digitChar d).toNat = 48 + d := by
  have key : ∀ d, d < 10 → (Positional.digitChar d).toNat = 48 + d := by decide
  exact key d h

/-- A decimal numeral is written with one byte for each digit. -/
lemma ofText_decimal (n : Nat) :
    Bytes.ofText (Positional.decimal n) = (Positional.numeral 10 n).map digitByte := by
  have hlt := Positional.lt_of_mem_numeral (by decide : 2 ≤ 10) n
  have hsmall : ∀ c ∈ Positional.decimal n, c.toNat < 128 := by
    intro c hc
    obtain ⟨d, hd, rfl⟩ := List.mem_map.1 hc
    have hdigit := hlt d hd
    rw [toNat_digitChar hdigit]
    omega
  rw [Bytes.ofText_of_lt hsmall, Positional.decimal, List.map_map]
  refine List.map_congr_left fun d hd => ?_
  rw [Function.comp_apply, toNat_digitChar (hlt d hd), digitByte]

/-! ## The mark of a line -/

/-- No blank ends like a brace.

**Proof sketch.** A blank ends with a byte other than a brace, so none is found at the end of the
text. -/
lemma dropBlanks_brace (fuel : Nat) (rest : Bytes) :
    dropBlanks fuel (125 :: rest) = 125 :: rest := by
  have hhead : ∀ ending ∈ blankEndings, ending.head?.any (· ≠ 125) := by decide +kernel
  cases fuel with
  | zero => rfl
  | succ fuel =>
    have hfind : blankEndings.find? (fun ending => ending.isPrefixOf (125 :: rest)) = none := by
      rw [List.find?_eq_none]
      intro ending hending hprefix
      have hany := hhead ending hending
      cases ending with
      | nil => cases hany
      | cons b ending =>
        have hb : b = 125 := by
          have := List.isPrefixOf_iff_prefix.1 hprefix
          exact (List.cons_prefix_cons.1 this).1
        simp [hb] at hany
    rw [dropBlanks, hfind]

/-- The mark of a line is read from behind: the brace, the digits, and what stands before them.

**Proof sketch.** From behind the line there is a brace, digits up to the first byte that is none,
and the rest, which has to begin with the name of the state. -/
lemma stateMark?_of_reverse {line digits start : Bytes}
    (hline : line.reverse = 125 :: (digits ++ start)) (hdigits : ∀ b ∈ digits, isDigit b = true)
    (hstart : start.head?.all fun b => !isDigit b) :
    stateMark? line =
      if digits ≠ [] && markStart.isPrefixOf start &&
          Positional.value 10 (digits.reverse.map fun b => b.toNat - 48) < 2 ^ 64 then
        some (Positional.value 10 (digits.reverse.map fun b => b.toNat - 48))
      else none := by
  have htake : (digits ++ start).takeWhile isDigit = digits := by
    rw [List.takeWhile_append_of_pos hdigits]
    cases start with
    | nil => simp
    | cons b start =>
      have hb : isDigit b = false := by simpa using hstart
      simp [hb]
  have hdrop : (digits ++ start).dropWhile isDigit = start := by
    rw [List.dropWhile_append_of_pos hdigits]
    cases start with
    | nil => simp
    | cons b start =>
      have hb : isDigit b = false := by simpa using hstart
      simp [hb]
  unfold stateMark?
  rw [hline, dropBlanks_brace]
  simp only [htake, hdrop]

/-- The mark of a line that ends with digits behind the name of the state.

**Proof sketch.** From behind, the digits of the number are followed by the end of the name, whose
first byte is no digit. They are read back as the number. -/
lemma stateMark?_of_digits {start : Bytes} {n : Nat} (h : n < 2 ^ 64) :
    stateMark? (start ++ Bytes.ofText ['"', 's', '"', ':'] ++ Bytes.ofText (Positional.decimal n) ++
      [125]) = some n := by
  have hlt : ∀ d ∈ Positional.numeral 10 n, d < 10 :=
    Positional.lt_of_mem_numeral (by decide : 2 ≤ 10) n
  have hdigits : ∀ b ∈ ((Positional.numeral 10 n).map digitByte).reverse, isDigit b = true := by
    intro b hb
    obtain ⟨d, hd, rfl⟩ := List.mem_map.1 (List.mem_reverse.1 hb)
    exact isDigit_digitByte (hlt d hd)
  have hvalues : (((Positional.numeral 10 n).map digitByte).reverse.reverse.map
      fun b => b.toNat - 48) = Positional.numeral 10 n := by
    rw [List.reverse_reverse, List.map_map]
    calc (Positional.numeral 10 n).map ((fun b => b.toNat - 48) ∘ digitByte)
        = (Positional.numeral 10 n).map id :=
          List.map_congr_left fun d hd => digitByte_toNat (hlt d hd)
      _ = Positional.numeral 10 n := List.map_id _
  have hne : ((Positional.numeral 10 n).map digitByte).reverse ≠ [] := by
    simpa using Positional.numeral_ne_nil (by decide : 2 ≤ 10) n
  have hreverse : (start ++ Bytes.ofText ['"', 's', '"', ':'] ++
      Bytes.ofText (Positional.decimal n) ++ [125]).reverse =
      125 :: (((Positional.numeral 10 n).map digitByte).reverse ++
        (markStart ++ start.reverse)) := by
    rw [ofText_decimal, markStart]
    simp
  have hhead : (markStart ++ start.reverse).head?.all fun b => !isDigit b := by
    have : markStart = [58, 34, 115, 34] := by decide
    rw [this]
    rfl
  have hprefix : markStart.isPrefixOf (markStart ++ start.reverse) = true :=
    List.isPrefixOf_iff_prefix.2 (List.prefix_append _ _)
  rw [stateMark?_of_reverse hreverse hdigits hhead, hvalues, Positional.value_numeral (by decide),
    if_pos (by simp only [ne_eq, hne, not_false_eq_true, hprefix, h, decide_true, Bool.and_self])]

/-- A line that ends with a quote and a brace has no mark. -/
lemma stateMark?_of_quote {start : Bytes} : stateMark? (start ++ [34, 125]) = none := by
  have hreverse : (start ++ [34, 125]).reverse = 125 :: ([] ++ 34 :: start.reverse) := by simp
  rw [stateMark?_of_reverse hreverse (by simp) (by rfl)]
  rfl

/-- The mark of a posting's line is its state.

**Proof sketch.** The line ends with the state behind its name, or with the quote of the ids. -/
theorem stateMark?_line {posting : Posting} (h : posting.Storable) :
    stateMark? (line posting) = posting.state := by
  obtain ⟨key, ids, state⟩ := posting
  have hbrace : Bytes.ofText ['\x7d'] = [125] := by decide
  have hquote : Bytes.ofText ['"'] = [34] := by decide
  cases state with
  | none =>
    have hline : ∃ start, line (⟨key, ids, none⟩ : Posting) = start ++ [34, 125] := by
      have hrender : (toJson (⟨key, ids, none⟩ : Posting)).render =
          '\x7b' :: Json.quote ['k'] ++ ':' :: Json.quote key.toList ++ ',' ::
            Json.quote ['i', 'd', 's'] ++ ':' :: '"' :: Json.escaped ids.toList ++
              (['"'] ++ ['\x7d']) := by
        simp [toJson_posting, postingMembers, Json.render, Json.renderMembers, Json.renderMember,
          Json.quote]
      refine ⟨Bytes.ofText ('\x7b' :: Json.quote ['k'] ++ ':' :: Json.quote key.toList ++ ',' ::
            Json.quote ['i', 'd', 's'] ++ ':' :: '"' :: Json.escaped ids.toList), ?_⟩
      rw [line, hrender, Bytes.ofText_append _ (['"'] ++ ['\x7d']), Bytes.ofText_append ['"'],
        hbrace, hquote]
      rfl
    obtain ⟨start, hline⟩ := hline
    rw [hline, stateMark?_of_quote]
  | some n =>
    have hline : ∃ start, line (⟨key, ids, some n⟩ : Posting) = start ++
        Bytes.ofText ['"', 's', '"', ':'] ++ Bytes.ofText (Positional.decimal n) ++ [125] := by
      have hrender : (toJson (⟨key, ids, some n⟩ : Posting)).render =
          ('\x7b' :: Json.quote ['k'] ++ ':' :: Json.quote key.toList ++ ',' ::
            Json.quote ['i', 'd', 's'] ++ ':' :: Json.quote ids.toList ++ [',']) ++
              ['"', 's', '"', ':'] ++ Positional.decimal n ++ ['\x7d'] := by
        have hs : Json.quote ['s'] = ['"', 's', '"'] := by decide
        simp [toJson_posting, postingMembers, Json.render, Json.renderMembers, Json.renderMember,
          Numeral.render_ofNat, hs]
      refine ⟨Bytes.ofText ('\x7b' :: Json.quote ['k'] ++ ':' :: Json.quote key.toList ++ ',' ::
            Json.quote ['i', 'd', 's'] ++ ':' :: Json.quote ids.toList ++ [',']), ?_⟩
      rw [line, hrender, Bytes.ofText_append, Bytes.ofText_append, Bytes.ofText_append, hbrace]
    obtain ⟨start, hline⟩ := hline
    rw [hline, stateMark?_of_digits (h n rfl)]

/-- The mark of a typo state's line is the state. -/
lemma stateMark?_typoState {record : TypoState} (h : record.Storable) :
    stateMark? (line record) = some record.state := by
  have hquote : Json.quote ['s'] = ['"', 's', '"'] := by decide
  have hbrace : Bytes.ofText ['\x7d'] = [125] := by decide
  have hpattern : pattern TypoState (.number record.state) =
      Bytes.ofText ['\x7b'] ++ Bytes.ofText ['"', 's', '"', ':'] ++
        Bytes.ofText (Positional.decimal record.state) ++ [125] := by
    rw [← hbrace, ← Bytes.ofText_append, ← Bytes.ofText_append, ← Bytes.ofText_append, pattern]
    change Bytes.ofText ('\x7b' :: Json.quote ['s'] ++ _) = _
    rw [hquote]
    rfl
  rw [line_typoState, hpattern, stateMark?_of_digits h]

/-! ## Records found by their marks -/

/-- If the marks of the lines are the states of their records, the records found by their states are
those with these states, in order.

**Proof sketch.** Of no states none is looked for. Otherwise the lines are kept by their marks,
which are the states of their records, and those that are kept are read back. -/
lemma scanStates_of_namedLines {R : Type} [Record R] [Lawful R] {file : RecordFile R}
    {records : List R} {stateOf? : R → Option Nat}
    (hlines : file.namedLines = .ok (records.map line))
    (hmark : ∀ record ∈ records, stateMark? (line record) = stateOf? record)
    (hread : ∀ record ∈ records, ReadsBack record) (states : List Nat) :
    file.scanStates states =
      .ok (records.filter fun record => (stateOf? record).any states.contains) := by
  unfold RecordFile.scanStates
  by_cases hempty : states = []
  · subst hempty
    have hnone : records.filter (fun record => (stateOf? record).any ([] : List Nat).contains) =
        [] := by
      refine List.filter_eq_nil_iff.2 fun record _ => ?_
      cases stateOf? record <;> simp
    rw [hnone]
    rfl
  · rw [if_neg hempty, hlines]
    have hmarked : (records.map line).filter
        (fun line => (stateMark? line).any states.contains) =
        (records.filter fun record => (stateOf? record).any states.contains).map line := by
      rw [List.filter_map]
      refine congrArg (List.map line) (List.filter_congr fun record hrecord => ?_)
      simp only [Function.comp_apply, hmark record hrecord]
    have hfound : ∀ record ∈ records.filter fun record => (stateOf? record).any states.contains,
        ReadsBack record := fun record hrecord => hread record (List.mem_of_mem_filter hrecord)
    change ((records.map line).filter
      fun line => (stateMark? line).any states.contains).mapM decodeLine = _
    rw [hmarked, mapM_decodeLine hfound]

/-- The postings found by their states are those with these states, in order. -/
theorem Holds.scanStates {file : RecordFile Posting} {name : String} {minWidth : Nat}
    {opened : Option Mode} {table : Table Posting} (h : file.Holds name minWidth opened table)
    (hsome : file.contents.isSome) (hstorable : ∀ posting ∈ table.records, posting.Storable)
    (states : List Nat) :
    file.scanStates states =
      .ok (table.records.filter fun posting => posting.state.any states.contains) :=
  scanStates_of_namedLines (h.namedLines hsome)
    (fun posting hposting => stateMark?_line (hstorable posting hposting))
    (fun posting hposting => Posting.readsBack (hstorable posting hposting)) states

end RecordFile

end Concordance
