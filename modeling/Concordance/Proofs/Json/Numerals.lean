import Concordance.Json.Number
import Concordance.Json.Printer
import Concordance.Json.Reader
import Concordance.Proofs.Digits
import Mathlib.Algebra.Group.Nat.Defs
import Mathlib.Tactic.Common

set_option relaxedAutoImplicit false
set_option autoImplicit false

/-!
# Reading back numerals

The reader of numerals takes as much as it can, so a numeral is only read as itself if what follows
cannot belong to it. In a stored line it is followed by a comma or a closing brace.

## Main definitions

* `Concordance.Json.Follows` — what may come after a member's value.
* `Concordance.Numeral.IsProper` — a numeral of the JSON grammar.

## Main results

* `Concordance.Numeral.read_append` — what follows a numeral does not change how it is read.
* `Concordance.Numeral.read_render` — proper numerals are read back.
* `Concordance.Positional.eq_of_decimal_isPrefix` — closed numerals form a prefix code.
-/

namespace Concordance

/-- What may come after a member's value: a comma or a closing brace, and anything behind it. -/
def Json.Follows (tail : List Char) : Prop :=
  ∃ c rest, tail = c :: rest ∧ (c = ',' ∨ c = '\x7d')

/-- A comma may come after a member's value, with anything behind it. -/
lemma Json.follows_comma (rest : List Char) : Json.Follows (',' :: rest) :=
  ⟨',', rest, rfl, .inl rfl⟩

/-- So may the closing brace of the object. -/
lemma Json.follows_brace (rest : List Char) : Json.Follows ('\x7d' :: rest) :=
  ⟨'\x7d', rest, rfl, .inr rfl⟩

/-! ## Digits -/

namespace Positional

/-- A decimal digit is read back. -/
lemma digitOf?_digitChar {d : Nat} (h : d < 10) : digitOf? (digitChar d) = some d := by
  revert d
  decide

end Positional

namespace Json

/-- Whatever digits stand before it, the reader of digits stops at a character that is none. -/
lemma readDigits_append (text : List Char) {tail : List Char}
    (h : ∀ c rest, tail = c :: rest → Positional.digitOf? c = none) :
    readDigits (text ++ tail) = ((readDigits text).1, (readDigits text).2 ++ tail) := by
  induction text with
  | nil =>
    cases tail with
    | nil => rfl
    | cons c rest => simp [readDigits, h c rest rfl]
  | cons c text ih =>
    simp only [List.cons_append, readDigits]
    cases Positional.digitOf? c with
    | none => rfl
    | some d => simp [ih]

/-- Decimal digits are read back. -/
lemma readDigits_digitChar {ds : List Nat} (h : ∀ d ∈ ds, d < 10) :
    readDigits (ds.map Positional.digitChar) = (ds, []) := by
  induction ds with
  | nil => rfl
  | cons d ds ih =>
    have hd : Positional.digitOf? (Positional.digitChar d) = some d :=
      Positional.digitOf?_digitChar (h d List.mem_cons_self)
    simp [readDigits, hd, ih fun e he => h e (List.mem_cons_of_mem _ he)]

/-- Neither a comma nor a closing brace is a digit. -/
lemma Follows.digitOf? {tail : List Char} (h : Follows tail) :
    ∀ c rest, tail = c :: rest → Positional.digitOf? c = none := by
  obtain ⟨c, rest, rfl, hc⟩ := h
  intro c' rest' heq
  obtain ⟨rfl, rfl⟩ := List.cons.inj heq
  rcases hc with rfl | rfl <;> decide

end Json

/-! ## Numerals -/

namespace Numeral

open Json

variable {tail : List Char}

/-- A text that does not start with a point has no fraction. -/
lemma readFraction_of_ne {c : Char} (h : c ≠ '.') (text : List Char) :
    readFraction (c :: text) = some ([], c :: text) := by
  unfold readFraction
  split
  · next heq => exact absurd (List.cons.inj heq).1 h
  · rfl

/-- What follows a numeral is left behind its fraction as well. -/
lemma readFraction_append (text : List Char) (h : Follows tail) :
    readFraction (text ++ tail) =
      (readFraction text).map fun (ds, rest) => (ds, rest ++ tail) := by
  have hdigits := fun t => readDigits_append t h.digitOf?
  cases text with
  | nil =>
    obtain ⟨c, rest, rfl, hc⟩ := h
    rcases hc with rfl | rfl <;> rfl
  | cons d text =>
    by_cases hd : d = '.'
    · rw [hd, List.cons_append]
      simp only [readFraction, hdigits]
      rcases readDigits text with ⟨_ | _, _⟩ <;> rfl
    · rw [List.cons_append, readFraction_of_ne hd, readFraction_of_ne hd]
      rfl

/-- The sign of an exponent is read from the exponent alone.

**Proof sketch.** By the first character: a sign is taken off, and otherwise nothing is. -/
lemma readSign_append (text : List Char) (h : Follows tail) :
    readSign (text ++ tail) = ((readSign text).1, (readSign text).2 ++ tail) := by
  obtain ⟨c, rest, rfl, hc⟩ := h
  cases text with
  | nil => rcases hc with rfl | rfl <;> rfl
  | cons d text =>
    unfold readSign
    split
    · next heq =>
      obtain ⟨rfl, rfl⟩ := List.cons.inj heq
      rfl
    · next heq =>
      obtain ⟨rfl, rfl⟩ := List.cons.inj heq
      rfl
    · next hplus hminus =>
      split
      · next heq =>
        obtain ⟨rfl, rfl⟩ := List.cons.inj heq
        exact absurd rfl (hplus _)
      · next heq =>
        obtain ⟨rfl, rfl⟩ := List.cons.inj heq
        exact absurd rfl (hminus _)
      · rfl

/-- What follows a numeral is left behind its exponent as well. -/
lemma readExponent_append (text : List Char) (h : Follows tail) :
    readExponent (text ++ tail) =
      (readExponent text).map fun (exponent, rest) => (exponent, rest ++ tail) := by
  have hdigits := fun t => readDigits_append t h.digitOf?
  have hsign := fun t => readSign_append t h
  cases text with
  | nil =>
    obtain ⟨c, rest, rfl, hc⟩ := h
    rcases hc with rfl | rfl <;> rfl
  | cons d text =>
    simp only [List.cons_append, readExponent]
    split
    · simp only [hsign, hdigits]
      rcases readDigits (readSign text).2 with ⟨_ | _, _⟩ <;> rfl
    · rfl

/-- A numeral behind its sign. -/
def readBody (negative : Bool) (text : List Char) : Option (Numeral × List Char) := do
  let (whole, text) := Json.readDigits text
  if whole = [] ∨ whole.head? = some 0 ∧ whole ≠ [0] then none
  let (fraction, text) ← readFraction text
  let (exponent, text) ← readExponent text
  return ({ negative, whole, fraction, exponent }, text)

/-- A numeral without a sign is its own body. -/
lemma read_eq_of_ne {c : Char} (h : c ≠ '-') (text : List Char) :
    read (c :: text) = readBody false (c :: text) := by
  simp [read, readBody, h]

/-- What follows a numeral does not change how it is read.

**Proof sketch.** The parts of a numeral are read from it alone: digits end at a character that is
none, and neither a comma nor a brace begins a fraction or an exponent. -/
theorem read_append (text : List Char) (h : Follows tail) :
    read (text ++ tail) = (read text).map fun (n, rest) => (n, rest ++ tail) := by
  have hdigits := fun t => readDigits_append t h.digitOf?
  cases text with
  | nil =>
    obtain ⟨c, rest, rfl, hc⟩ := h
    rcases hc with rfl | rfl <;> rfl
  | cons d text =>
    -- the sign is taken off the front; what is left is read the same way in both cases
    have hbody : ∀ (negative : Bool) (body : List Char),
        readBody negative (body ++ tail) =
          (readBody negative body).map fun (n, rest) => (n, rest ++ tail) := by
      intro negative body
      unfold readBody
      rw [hdigits]
      generalize readDigits body = digits
      obtain ⟨whole, rest⟩ := digits
      simp only [readFraction_append rest h]
      split
      · rfl
      · cases readFraction rest with
        | none => rfl
        | some part =>
          obtain ⟨fraction, rest⟩ := part
          simp only [Option.map_some, Option.bind_eq_bind, Option.bind_some,
            readExponent_append rest h]
          cases readExponent rest with
          | none => rfl
          | some part => rfl
    by_cases hd : d = '-'
    · rw [hd]
      exact hbody true text
    · rw [read_eq_of_ne hd, List.cons_append, read_eq_of_ne hd]
      exact hbody false (d :: text)

/-- A decimal digit is no sign. -/
lemma digitChar_ne_minus {d : Nat} (h : d < 10) : Positional.digitChar d ≠ '-' := by
  revert d
  decide

/-- A natural number has neither sign, point nor exponent. -/
lemma render_ofNat (n : Nat) : (ofNat n).render = Positional.decimal n := by
  simp [ofNat, render, Positional.decimal]

/-- The digits of a numeral are decimal ones. It has some before the point, no zero in front of
others there, and some in its exponent if it has one. -/
structure IsProper (n : Numeral) : Prop where
  whole_ne : n.whole ≠ []
  whole_lt : ∀ d ∈ n.whole, d < 10
  canonical : ¬ (n.whole.head? = some 0 ∧ n.whole ≠ [0])
  fraction_lt : ∀ d ∈ n.fraction, d < 10
  exponent : ∀ sign digits, n.exponent = some (sign, digits) → digits ≠ [] ∧ ∀ d ∈ digits, d < 10

/-- The numeral of a natural number is proper: its digits are decimal ones without a zero in front.
-/
lemma isProper_ofNat (n : Nat) : (ofNat n).IsProper where
  whole_ne := Positional.numeral_ne_nil (by decide) n
  whole_lt := Positional.lt_of_mem_numeral (by decide) n
  canonical := Positional.numeral_canonical (by decide) n
  fraction_lt := List.forall_mem_nil _
  exponent := nofun

/-- A digit in front of others is no sign of an exponent. -/
lemma readSign_digitChar {d : Nat} (hd : d < 10) (text : List Char) :
    readSign (Positional.digitChar d :: text) = (.bare, Positional.digitChar d :: text) := by
  have hne : Positional.digitChar d ≠ '+' ∧ Positional.digitChar d ≠ '-' := by
    revert d
    decide
  unfold readSign
  split
  · next heq => exact absurd (List.cons.inj heq).1 hne.1
  · next heq => exact absurd (List.cons.inj heq).1 hne.2
  · rfl

/-- An exponent with some digits is read back, whatever its sign. -/
lemma readExponent_append_digits (sign : ExponentSign) {digits : List Nat} (hne : digits ≠ [])
    (hlt : ∀ d ∈ digits, d < 10) :
    readExponent ('e' :: (match sign with | .bare => [] | .plus => ['+'] | .minus => ['-']) ++
      digits.map Positional.digitChar) = some (some (sign, digits), []) := by
  have hsign : readSign ((match sign with | .bare => [] | .plus => ['+'] | .minus => ['-']) ++
      digits.map Positional.digitChar) = (sign, digits.map Positional.digitChar) := by
    cases sign with
    | bare =>
      cases digits with
      | nil => exact absurd rfl hne
      | cons d ds => exact readSign_digitChar (hlt d List.mem_cons_self) _
    | plus => rfl
    | minus => rfl
  rw [List.cons_append, readExponent, if_pos (.inl rfl), hsign]
  simp only [readDigits_digitChar hlt]

/-- What is behind the digits of a numeral starts with another character, and is read back. -/
lemma exists_exponent {n : Numeral} (h : n.IsProper) : ∃ text,
    n.render = (if n.negative then ['-'] else []) ++ (n.whole.map Positional.digitChar ++
      ((if n.fraction = [] then [] else '.' :: n.fraction.map Positional.digitChar) ++ text)) ∧
    readExponent text = some (n.exponent, []) ∧ (text = [] ∨ ∃ rest, text = 'e' :: rest) := by
  unfold render
  cases hexponent : n.exponent with
  | none => exact ⟨[], by simp, rfl, .inl rfl⟩
  | some part =>
    obtain ⟨sign, digits⟩ := part
    obtain ⟨hne, hlt⟩ := h.exponent sign digits hexponent
    refine ⟨_, ?_, readExponent_append_digits sign hne hlt, .inr ⟨_, rfl⟩⟩
    exact (List.append_assoc _ _ _).trans (List.append_assoc _ _ _)

/-- **Numerals are read back** as they are written, if they are proper.

**Proof sketch.** Each part ends where the next one starts, with a point, the mark of the exponent
or nothing at all: none of these is a digit. -/
theorem read_render {n : Numeral} (h : n.IsProper) : read n.render = some (n, []) := by
  obtain ⟨text, hrender, hexponent, htext⟩ := exists_exponent h
  have hdigits : ∀ {ds : List Nat} (tail : List Char), (∀ d ∈ ds, d < 10) →
      (∀ c rest, tail = c :: rest → Positional.digitOf? c = none) →
        readDigits (ds.map Positional.digitChar ++ tail) = (ds, tail) := by
    intro ds tail hds htail
    rw [readDigits_append _ htail, readDigits_digitChar hds, List.nil_append]
  have hmark : ∀ c rest, text = c :: rest → Positional.digitOf? c = none := by
    rintro c rest rfl
    rcases htext with hnil | ⟨_, heq⟩
    · cases hnil
    · cases heq
      decide
  have hfraction : readFraction ((if n.fraction = [] then []
      else '.' :: n.fraction.map Positional.digitChar) ++ text) = some (n.fraction, text) := by
    cases hds : n.fraction with
    | nil =>
      rcases htext with rfl | ⟨rest, rfl⟩
      · rfl
      · exact readFraction_of_ne (by decide) rest
    | cons d ds =>
      rw [if_neg (List.cons_ne_nil d ds), List.cons_append, readFraction,
        hdigits text (hds ▸ h.fraction_lt) hmark]
  have hbody : readBody n.negative (n.whole.map Positional.digitChar ++
      ((if n.fraction = [] then [] else '.' :: n.fraction.map Positional.digitChar) ++ text)) =
        some (n, []) := by
    have hpoint : ∀ c rest, (if n.fraction = [] then []
        else '.' :: n.fraction.map Positional.digitChar) ++ text = c :: rest →
          Positional.digitOf? c = none := by
      intro c rest heq
      split_ifs at heq
      · exact hmark c rest heq
      · cases heq
        decide
    unfold readBody
    rw [hdigits _ h.whole_lt hpoint]
    simp only [h.whole_ne, false_or, if_neg h.canonical, hfraction, Option.bind_eq_bind,
      Option.bind_some, hexponent]
    rfl
  rw [hrender]
  cases hnegative : n.negative with
  | true =>
    rw [hnegative] at hbody
    exact hbody
  | false =>
    -- the first digit tells that there is no sign
    rw [hnegative] at hbody
    cases hwhole : n.whole with
    | nil => exact absurd hwhole h.whole_ne
    | cons d ds =>
      have hd : d < 10 := h.whole_lt d (by rw [hwhole]; exact List.mem_cons_self)
      rw [hwhole] at hbody
      exact (read_eq_of_ne (digitChar_ne_minus hd) _).trans hbody

/-- Natural numbers below `2 ^ 64` are what their numerals stand for. -/
theorem toNat?_ofNat {n : Nat} (h : n < 2 ^ 64) : (ofNat n).toNat? = some n := by
  have hvalue := Positional.value_numeral (by decide : 2 ≤ 10) n
  simp only [toNat?, ofNat, hvalue, if_pos h]
  rfl

/-- A numeral of a natural number stands for no other one. -/
lemma eq_of_toNat?_ofNat {n m : Nat} (h : (ofNat n).toNat? = some m) : m = n := by
  have hvalue := Positional.value_numeral (by decide : 2 ≤ 10) n
  simp only [toNat?, ofNat, hvalue] at h
  split at h
  · cases h
  · split at h
    · exact (Option.some.inj h).symm
    · cases h

/-! ## What a reader leaves -/

/-- What the reader of digits leaves is an end of the text. -/
lemma readDigits_suffix (text : List Char) : (readDigits text).2 <:+ text := by
  induction text with
  | nil => exact List.suffix_rfl
  | cons c text ih =>
    simp only [readDigits]
    split
    · exact ih.trans (List.suffix_cons c text)
    · exact List.suffix_rfl

/-- What is left behind a fraction is the end of the text. -/
lemma readFraction_suffix {text left : List Char} {ds : List Nat}
    (h : readFraction text = some (ds, left)) : left <:+ text := by
  unfold readFraction at h
  split at h
  · next rest =>
    split at h
    · cases h
    · next digits left' hdigits =>
      cases h
      have := readDigits_suffix rest
      rw [hdigits] at this
      exact this.trans (List.suffix_cons _ _)
  · cases h
    exact List.suffix_rfl

/-- What is left behind the sign of an exponent is the end of the text. -/
lemma readSign_suffix (text : List Char) : (readSign text).2 <:+ text := by
  unfold readSign
  split
  · exact List.suffix_cons _ _
  · exact List.suffix_cons _ _
  · exact List.suffix_rfl

/-- What is left behind an exponent is the end of the text.

**Proof sketch.** An exponent is its mark, a sign and digits, each of which leaves the end of the
text. Without the mark nothing is read. -/
lemma readExponent_suffix {text left : List Char} {exponent : Option (ExponentSign × List Nat)}
    (h : readExponent text = some (exponent, left)) : left <:+ text := by
  cases text with
  | nil => cases h; exact List.suffix_rfl
  | cons c rest =>
    simp only [readExponent] at h
    split at h
    · split at h
      · cases h
      · next digits left' hdigits =>
        cases h
        have := readDigits_suffix (readSign rest).2
        rw [hdigits] at this
        exact (this.trans (readSign_suffix rest)).trans (List.suffix_cons _ _)
    · cases h
      exact List.suffix_rfl

/-- What is left behind the body of a numeral is the end of the text. -/
lemma readBody_suffix {negative : Bool} {text left : List Char} {n : Numeral}
    (h : readBody negative text = some (n, left)) : left <:+ text := by
  have hdigits := readDigits_suffix text
  unfold readBody at h
  generalize readDigits text = digits at h hdigits
  obtain ⟨whole, rest⟩ := digits
  simp only at h hdigits
  split at h
  · cases h
  · simp only [Option.bind_eq_bind, Option.bind_eq_some_iff] at h
    obtain ⟨⟨fraction, afterFraction⟩, hfraction, ⟨exponent, afterExponent⟩, hexponent, h⟩ := h
    cases h
    exact ((readExponent_suffix hexponent).trans (readFraction_suffix hfraction)).trans hdigits

/-- What the reader of numerals leaves is an end of the text. -/
lemma read_suffix {text left : List Char} {n : Numeral} (h : read text = some (n, left)) :
    left <:+ text := by
  cases text with
  | nil => simp [read, readDigits] at h
  | cons c rest =>
    by_cases hc : c = '-'
    · subst hc
      have hbody : readBody true rest = some (n, left) := h
      exact (readBody_suffix hbody).trans (List.suffix_cons _ _)
    · rw [read_eq_of_ne hc] at h
      exact readBody_suffix h

/-- Whatever digits a numeral has, none of them is written as a blank.

**Proof sketch.** The character of a digit has a code from `48` on, or is the null character if the
number is too large. No blank is either. -/
lemma isGap_digitChar (d : Nat) : isGap (Positional.digitChar d) = false := by
  have hcode : (Positional.digitChar d).toNat = 48 + d ∨ (Positional.digitChar d).toNat = 0 := by
    unfold Positional.digitChar Char.ofNat
    by_cases hvalid : (48 + d).isValidChar
    · rw [dif_pos hvalid]
      exact .inl rfl
    · rw [dif_neg hvalid]
      exact .inr rfl
  have hne : ∀ g : Char, 0 < g.toNat → g.toNat < 48 → (Positional.digitChar d == g) = false := by
    intro g hpos hlow
    simp only [beq_eq_false_iff_ne]
    rintro rfl
    omega
  unfold isGap
  simp [hne ' ' (by decide) (by decide), hne '\n' (by decide) (by decide),
    hne '\t' (by decide) (by decide), hne '\r' (by decide) (by decide)]

/-- A numeral is written without blanks.

**Proof sketch.** Each part of a numeral is digits, or a sign, a point or a mark for the exponent.
-/
lemma isGap_of_mem_render {n : Numeral} {c : Char} (h : c ∈ n.render) : isGap c = false := by
  have hdigits : ∀ {ds : List Nat}, c ∈ ds.map Positional.digitChar → isGap c = false := by
    intro ds hc
    obtain ⟨d, -, rfl⟩ := List.mem_map.1 hc
    exact isGap_digitChar d
  unfold render at h
  simp only [List.mem_append] at h
  rcases h with ((h | h) | h) | h
  · split at h
    · rw [List.mem_singleton.1 h]; decide
    · cases h
  · exact hdigits h
  · split at h
    · cases h
    · rcases List.mem_cons.1 h with rfl | h
      · decide
      · exact hdigits h
  · split at h
    · cases h
    · next sign digits _ =>
      rcases List.mem_append.1 h with h | h
      · rcases List.mem_cons.1 h with rfl | h
        · decide
        · cases sign with
          | bare => cases h
          | plus => rw [List.mem_singleton.1 h]; decide
          | minus => rw [List.mem_singleton.1 h]; decide
      · exact hdigits h

end Numeral

/-- Decimal numerals with a closing brace form a prefix code. -/
theorem Positional.eq_of_decimal_isPrefix {m n : Nat}
    (h : decimal m ++ ['\x7d'] <+: decimal n ++ ['\x7d']) : m = n := by
  obtain ⟨rest, h⟩ := h
  have hbrace := fun r => (Json.follows_brace r).digitOf?
  have hread : ∀ (k : Nat) (r : List Char), Json.readDigits (decimal k ++ '\x7d' :: r) =
      (numeral 10 k, '\x7d' :: r) := by
    intro k r
    rw [Json.readDigits_append _ (hbrace r), decimal,
      Json.readDigits_digitChar (lt_of_mem_numeral (by decide) k)]
    rfl
  have hm := hread m rest
  rw [show decimal m ++ '\x7d' :: rest = decimal n ++ ['\x7d'] by simpa using h, hread] at hm
  exact numeral_injective (by decide) (Prod.mk.inj hm).1.symm

end Concordance
