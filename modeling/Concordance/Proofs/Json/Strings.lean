import Concordance.Json.Printer
import Concordance.Json.Reader
import Mathlib.Tactic.Common

set_option relaxedAutoImplicit false
set_option autoImplicit false

/-!
# Reading back string literals

Whatever characters a text has, its string literal is read back as the text, and the reader stops
right behind the closing quote. So no literal is the beginning of another one.

## Main results

* `Concordance.Json.readString_escaped` — a literal is read back, and what follows it is left.
* `Concordance.Json.eq_of_quote_isPrefix` — literals form a prefix code.
* `Concordance.Json.escaped_isPrefix_iff` — when a literal starts like another one.
-/

namespace Concordance.Json

/-! ## Single characters -/

/-- Two hexadecimal digits of a control character are read back. -/
lemma hexUnit?_hexDigit {n : Nat} (h : n < 32) :
    hexUnit? '0' '0' (hexDigit (n / 16)) (hexDigit (n % 16)) = some n := by
  revert n
  decide

/-- Code units in front of what a reader returns. -/
def pushUnit (unit : Nat) (read : Option (List Nat × List Char)) :
    Option (List Nat × List Char) :=
  read.map fun (units, rest) => (unit :: units, rest)

/-- A character with a short escape is read back. -/
lemma readUnits_short {e c : Char} (he : e ≠ 'u') (h : shortEscape? e = some c)
    (rest : List Char) :
    readUnits ('\\' :: e :: rest) = pushUnit c.toNat (readUnits rest) := by
  conv => lhs; rw [readUnits.eq_def]
  simp only [Char.reduceEq, if_false, if_true, if_neg he, h]
  cases readUnits rest <;> rfl

/-- A control character in hexadecimal digits is read back. -/
lemma readUnits_hex {n : Nat} (h : n < 32) (rest : List Char) :
    readUnits ('\\' :: 'u' :: '0' :: '0' :: hexDigit (n / 16) :: hexDigit (n % 16) :: rest) =
      pushUnit n (readUnits rest) := by
  conv => lhs; rw [readUnits.eq_def]
  simp only [Char.reduceEq, if_false, if_true, hexUnit?_hexDigit h]
  cases readUnits rest <;> rfl

/-- A character that stands for itself is read back. -/
lemma readUnits_plain {c : Char} (hquote : c ≠ '"') (hslash : c ≠ '\\') (hlow : ¬ c.toNat < 32)
    (rest : List Char) : readUnits (c :: rest) = pushUnit c.toNat (readUnits rest) := by
  conv => lhs; rw [readUnits.eq_def]
  simp only [if_neg hquote, if_neg hslash, if_neg hlow]
  cases readUnits rest <;> rfl

/-- Whatever form a character takes in a literal, it is read back as itself.

**Proof sketch.** By the cases of the written form: a character with a short form, one below the
blank with a hexadecimal form, or the character itself. -/
lemma readUnits_escape (c : Char) (rest : List Char) :
    readUnits (escape c ++ rest) = pushUnit c.toNat (readUnits rest) := by
  unfold escape
  split
  · next h => subst h; exact readUnits_short (by decide) rfl rest
  split
  · next h => subst h; exact readUnits_short (by decide) rfl rest
  split
  · next h => subst h; exact readUnits_short (by decide) rfl rest
  split
  · next h => subst h; exact readUnits_short (by decide) rfl rest
  split
  · next h => subst h; exact readUnits_short (by decide) rfl rest
  split
  · next h => subst h; exact readUnits_short (by decide) rfl rest
  split
  · next h => subst h; exact readUnits_short (by decide) rfl rest
  split
  · next h => exact readUnits_hex h rest
  · next hquote hslash _ _ _ _ _ hlow => exact readUnits_plain hquote hslash hlow rest

/-! ## Whole literals -/

/-- The characters of a literal are read back as code units. -/
lemma readUnits_escaped (text rest : List Char) :
    readUnits (escaped text ++ '"' :: rest) = some (text.map Char.toNat, rest) := by
  induction text with
  | nil => simp [escaped, readUnits.eq_def]
  | cons c text ih =>
    have hsplit : escaped (c :: text) ++ '"' :: rest =
        escape c ++ (escaped text ++ '"' :: rest) := by
      simp [escaped]
    rw [hsplit, readUnits_escape, ih]
    rfl

/-- A character is no half of a surrogate pair. -/
lemma not_surrogate (c : Char) : ¬ (0xD800 ≤ c.toNat ∧ c.toNat < 0xE000) := by
  have hvalid : c.toNat < 0xD800 ∨ 0xDFFF < c.toNat ∧ c.toNat < 0x110000 := c.valid
  omega

/-- The code units of characters are the characters. -/
lemma textOf?_toNat (text : List Char) : textOf? (text.map Char.toNat) = some text := by
  induction text with
  | nil => rfl
  | cons c text ih =>
    have hc := not_surrogate c
    rw [List.map_cons, textOf?.eq_def]
    simp only
    rw [if_neg (by omega), if_neg (by omega), ih]
    simp [Char.ofNat_toNat]

/-- A literal is read back as its text, and what follows it is left. -/
theorem readString_escaped (text rest : List Char) :
    readString (escaped text ++ '"' :: rest) = some (some text, rest) := by
  simp [readString, readUnits_escaped, textOf?_toNat]

/-- The forms of characters in a literal are a prefix code. -/
lemma eq_of_escape_isPrefix {c d : Char} (h : escape c <+: escape d) : c = d := by
  obtain ⟨rest, h⟩ := h
  have hread := readUnits_escape d ['"']
  rw [← h, List.append_assoc, readUnits_escape] at hread
  have hempty : readUnits ['"'] = some ([], []) := by simp [readUnits.eq_def]
  rw [hempty] at hread
  obtain ⟨⟨units, left⟩, -, heq⟩ := Option.map_eq_some_iff.1 hread
  obtain ⟨hc, -⟩ := Prod.mk.inj heq
  exact Char.toNat_inj.1 (List.cons.inj hc).1

/-- No form of a character in a literal starts with the closing quote. -/
lemma escape_not_isPrefix_quote (c : Char) (rest : List Char) : ¬ escape c ++ rest <+: ['"'] := by
  rintro ⟨left, h⟩
  have hread := readUnits_escape c (rest ++ left)
  rw [← List.append_assoc, h] at hread
  have hempty : readUnits ['"'] = some ([], []) := by simp [readUnits.eq_def]
  rw [hempty] at hread
  obtain ⟨⟨units, left⟩, -, heq⟩ := Option.map_eq_some_iff.1 hread.symm
  cases (Prod.mk.inj heq).1

/-- **Beginnings of literals.** A literal starts like another one that is not closed yet iff its
text starts with the text of the other.

**Proof sketch.** Induction on the two texts. The forms of single characters are a prefix code, so
the first characters agree if the forms do. -/
theorem escaped_isPrefix_iff {s t : List Char} : escaped s <+: escaped t ++ ['"'] ↔ s <+: t := by
  induction s generalizing t with
  | nil => simp [escaped]
  | cons c s ih =>
    have hcons : ∀ c (text : List Char), escaped (c :: text) = escape c ++ escaped text :=
      fun c text => by simp [escaped]
    cases t with
    | nil =>
      rw [hcons]
      exact iff_of_false (escape_not_isPrefix_quote c _) (by simp)
    | cons d t =>
      rw [hcons, hcons, List.append_assoc, List.cons_prefix_cons]
      constructor
      · intro h
        have hc : escape c <+: escape d ++ (escaped t ++ ['"']) := (List.prefix_append _ _).trans h
        obtain rfl : c = d := by
          rcases List.prefix_or_prefix_of_prefix hc (List.prefix_append _ _) with h | h
          · exact eq_of_escape_isPrefix h
          · exact (eq_of_escape_isPrefix h).symm
        exact ⟨rfl, ih.1 ((List.prefix_append_right_inj _).1 h)⟩
      · rintro ⟨rfl, h⟩
        exact (List.prefix_append_right_inj _).2 (ih.2 h)

/-- Literals form a prefix code. -/
theorem eq_of_quote_isPrefix {s t : List Char} (h : quote s <+: quote t) : s = t := by
  obtain ⟨rest, h⟩ := h
  have htail : escaped s ++ '"' :: rest = escaped t ++ ['"'] := by
    simpa [quote] using h
  have hread := readString_escaped s rest
  rw [htail, readString_escaped] at hread
  obtain ⟨hst, -⟩ : s = t ∧ rest = [] := by simpa using hread.symm
  exact hst

end Concordance.Json
