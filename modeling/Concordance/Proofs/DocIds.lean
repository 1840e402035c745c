import Concordance.DocId
import Concordance.Proofs.Digits
import Concordance.Proofs.Encoding
import Mathlib.Data.List.GetD

set_option relaxedAutoImplicit false
set_option autoImplicit false

/-!
# Ids and sequence numbers

An id is read as a number in base 62 if all of its bytes are digits and the number has 64 bits. The
id of a sequence number is read back as the number. Of all ids that are read as one number only that
one has no zero in front that could be left out.

## Main definitions

* `Concordance.DocId.digitsOf` — the values of characters as digits.
* `Concordance.DocId.digitBytes` — the bytes that are digits, in the order of their values.
* `Concordance.DocId.valueOf` — the number that a text stands for in base 62, of any size.

## Main results

* `Concordance.DocId.decodeFrom_eq_some_iff` — when further digits are read, and as what.
* `Concordance.DocId.sequence?_ofSequence` — the number of an id that was handed out.
* `Concordance.DocId.numbers_of_texts` — which texts are read, as which numbers, and which of them
  are written.
-/

namespace Concordance.DocId

-- Powers are those of the core library, as in the definition of ids.
attribute [local instance (high)] instPowNat

variable {chars : List Char} {c : Char} {d n m : Nat} {ds : List Nat}

/-! ## Single digits -/

/-- The digits, the capitals and the small letters, by their codes. -/
lemma alphabet_eq : alphabet =
    (List.range' 48 10 ++ List.range' 65 26 ++ List.range' 97 26).map Char.ofNat :=
  String.toList_ofList

/-- The codes of the alphabet are those of the decimal digits, the capital letters and the small
letters. -/
lemma map_toNat_alphabet :
    alphabet.map Char.toNat = List.range' 48 10 ++ List.range' 65 26 ++ List.range' 97 26 := by
  rw [alphabet_eq]
  rfl

/-- No digit comes twice in the alphabet, since the codes are increasing. -/
lemma nodup_alphabet : alphabet.Nodup := by
  refine List.Nodup.of_map Char.toNat ?_
  simp only [map_toNat_alphabet, List.nodup_append, List.mem_append, List.mem_range'_1]
  refine ⟨⟨List.nodup_range', List.nodup_range', ?_⟩, List.nodup_range', ?_⟩ <;> omega

/-- There are 62 digits. -/
lemma length_alphabet : alphabet.length = 62 := by
  rw [alphabet_eq, List.length_map]
  rfl

/-- Digits of ids are ASCII characters. -/
lemma toNat_lt_of_mem_alphabet (h : c ∈ alphabet) : c.toNat < 128 := by
  have hcode : c.toNat ∈ alphabet.map Char.toNat := List.mem_map_of_mem h
  simp only [map_toNat_alphabet, List.mem_append, List.mem_range'_1] at hcode
  omega

/-- The digit of zero is the character for it. -/
lemma digitChar_zero : digitChar 0 = '0' := by
  rw [digitChar, alphabet_eq]
  rfl

/-- The characters of the alphabet are digits, with their places in it as their values. -/
lemma digitOf?_eq_some_iff : digitOf? c = some d ↔ c ∈ alphabet ∧ alphabet.idxOf c = d := by
  rw [digitOf?, List.findIdx?_eq_some_iff_findIdx_eq, ← List.idxOf_lt_length_iff]
  constructor
  · rintro ⟨hlt, rfl⟩
    exact ⟨hlt, rfl⟩
  · rintro ⟨hlt, rfl⟩
    exact ⟨hlt, rfl⟩

/-- The place of a digit in the alphabet is below 62. -/
lemma idxOf_lt (h : c ∈ alphabet) : alphabet.idxOf c < 62 := by
  rw [← length_alphabet]
  exact List.idxOf_lt_length_iff.2 h

/-- The digit of a number below 62 is the one at its place in the alphabet. -/
lemma digitChar_eq_getElem (h : d < alphabet.length) : digitChar d = alphabet[d] :=
  List.getD_eq_getElem _ _ h

/-- A digit is that of its own place. -/
lemma digitChar_idxOf (h : c ∈ alphabet) : digitChar (alphabet.idxOf c) = c := by
  rw [digitChar_eq_getElem (List.idxOf_lt_length_iff.2 h)]
  exact List.getElem_idxOf _

/-- Numbers below 62 have digits of the alphabet. -/
lemma digitChar_mem (h : d < 62) : digitChar d ∈ alphabet := by
  rw [← length_alphabet] at h
  rw [digitChar_eq_getElem h]
  exact List.getElem_mem h

/-- The place of a digit is the number that it is the digit of. -/
lemma idxOf_digitChar (h : d < 62) : alphabet.idxOf (digitChar d) = d := by
  rw [← length_alphabet] at h
  rw [digitChar_eq_getElem h]
  exact nodup_alphabet.idxOf_getElem d h

/-! ## Several digits -/

/-- The values of characters as digits. -/
def digitsOf (chars : List Char) : List Nat := chars.map (alphabet.idxOf ·)

/-- The digits of a text over the alphabet are below 62. -/
lemma lt_of_mem_digitsOf (h : ∀ c ∈ chars, c ∈ alphabet) : ∀ d ∈ digitsOf chars, d < 62 := by
  intro d hd
  obtain ⟨c, hc, rfl⟩ := List.mem_map.1 hd
  exact idxOf_lt (h c hc)

/-- A text over the alphabet is written with the digits that it is read as. -/
lemma map_digitChar_digitsOf (h : ∀ c ∈ chars, c ∈ alphabet) :
    (digitsOf chars).map digitChar = chars := by
  rw [digitsOf, List.map_map]
  refine (List.map_congr_left fun c hc => ?_).trans (List.map_id chars)
  rw [Function.comp_apply, digitChar_idxOf (h c hc), id_eq]

/-- Texts over the alphabet with the same digits are equal. -/
lemma digitsOf_inj {others : List Char} (h : ∀ c ∈ chars, c ∈ alphabet)
    (hothers : ∀ c ∈ others, c ∈ alphabet) : digitsOf chars = digitsOf others ↔ chars = others := by
  constructor
  · intro heq
    rw [← map_digitChar_digitsOf h, heq, map_digitChar_digitsOf hothers]
  · exact congrArg digitsOf

/-- What is written with digits is read as them. -/
lemma digitsOf_map_digitChar (h : ∀ d ∈ ds, d < 62) : digitsOf (ds.map digitChar) = ds := by
  rw [digitsOf, List.map_map]
  refine (List.map_congr_left fun d hd => ?_).trans (List.map_id ds)
  rw [Function.comp_apply, idxOf_digitChar (h d hd), id_eq]

/-- **Reading digits.** Behind a number of 64 bits, characters are read iff all of them are digits
and the number that they lead to has 64 bits, too.

**Proof sketch.** Induction on the characters. A number that is too large at one of them does not
become smaller by the others. -/
theorem decodeFrom_eq_some_iff (hn : n < 2 ^ 64) : decodeFrom n chars = some m ↔
    (∀ c ∈ chars, c ∈ alphabet) ∧
      (digitsOf chars).foldl (fun n d => n * 62 + d) n = m ∧ m < 2 ^ 64 := by
  induction chars generalizing n with
  | nil =>
    rw [decodeFrom, Option.some_inj]
    constructor
    · rintro rfl
      exact ⟨by simp, rfl, hn⟩
    · exact fun h => h.2.1
  | cons c chars ih =>
    rw [decodeFrom, Option.bind_eq_bind, Option.bind_eq_some_iff, List.forall_mem_cons, digitsOf,
      List.map_cons, List.foldl_cons, ← digitsOf]
    constructor
    · rintro ⟨d, hdigit, hrest⟩
      obtain ⟨hc, rfl⟩ := digitOf?_eq_some_iff.1 hdigit
      split at hrest
      · next hlt =>
        obtain ⟨hall, hvalue⟩ := (ih hlt).1 hrest
        exact ⟨⟨hc, hall⟩, hvalue⟩
      · cases hrest
    · rintro ⟨⟨hc, hall⟩, hvalue, hm⟩
      have hlt : n * 62 + alphabet.idxOf c < 2 ^ 64 := by
        have hle := Positional.le_foldl_digits (by decide : 0 < 62)
          (n * 62 + alphabet.idxOf c) (digitsOf chars)
        omega
      refine ⟨alphabet.idxOf c, digitOf?_eq_some_iff.2 ⟨hc, rfl⟩, ?_⟩
      rw [if_pos hlt]
      exact (ih hlt).2 ⟨hall, hvalue, hm⟩

/-- A text is read iff it is made of digits and its value has 64 bits. -/
lemma decode?_eq_some_iff {text : String} : decode? text = some n ↔
    (∀ c ∈ text.toList, c ∈ alphabet) ∧
      Positional.value 62 (digitsOf text.toList) = n ∧ n < 2 ^ 64 :=
  decodeFrom_eq_some_iff (by decide)

/-! ## Numbers as texts -/

/-- The text of a number is written with its digits to the base 62. -/
lemma toList_encode (n : Nat) : (encode n).toList = (Positional.numeral 62 n).map digitChar :=
  String.toList_ofList

/-- The text of zero is a single digit. -/
lemma encode_zero : encode 0 = "0" := congrArg (fun c => String.ofList [c]) digitChar_zero

/-- The text of a number is read as the digits of the number. -/
lemma digitsOf_encode (n : Nat) : digitsOf (encode n).toList = Positional.numeral 62 n := by
  rw [toList_encode, digitsOf_map_digitChar (Positional.lt_of_mem_numeral (by decide) n)]

/-- The text of a number is over the alphabet. -/
lemma mem_alphabet_of_mem_encode (n : Nat) : ∀ c ∈ (encode n).toList, c ∈ alphabet := by
  intro c hc
  rw [toList_encode] at hc
  obtain ⟨d, hd, rfl⟩ := List.mem_map.1 hc
  exact digitChar_mem (Positional.lt_of_mem_numeral (by decide) n d hd)

/-- A number of 64 bits is read back. -/
theorem decode?_encode (h : n < 2 ^ 64) : decode? (encode n) = some n := by
  refine decode?_eq_some_iff.2 ⟨mem_alphabet_of_mem_encode n, ?_, h⟩
  rw [digitsOf_encode, Positional.value_numeral (by decide)]

/-- The number of an id that was handed out. -/
theorem sequence?_ofSequence (h : n < 2 ^ 64) : (ofSequence n).sequence? = some n :=
  decode?_encode h

/-- Ids of different numbers are different. -/
lemma ofSequence_inj (hm : m < 2 ^ 64) (hn : n < 2 ^ 64) (h : ofSequence m = ofSequence n) :
    m = n := by
  have hsequence := sequence?_ofSequence hm
  rw [h, sequence?_ofSequence hn] at hsequence
  exact (Option.some.inj hsequence).symm

/-- The first digit of a text is zero iff its first character is. -/
lemma head?_digitsOf_eq_zero_iff (h : ∀ c ∈ chars, c ∈ alphabet) :
    (digitsOf chars).head? = some 0 ↔ chars.head? = some '0' := by
  cases chars with
  | nil => simp [digitsOf]
  | cons c chars =>
    have hzero : alphabet.idxOf c = alphabet.idxOf '0' ↔ c = '0' :=
      List.idxOf_inj (h c List.mem_cons_self)
    have hfirst : alphabet.idxOf '0' = 0 := by
      rw [← digitChar_zero, idxOf_digitChar (by decide)]
    simpa [digitsOf, hfirst] using hzero

/-- **Numbers as texts.** A text that is read is the id of its number iff it is the single digit
zero, or has another digit in front. -/
theorem encode_eq_iff {text : String} (h : decode? text = some n) :
    encode n = text ↔ text = "0" ∨ text ≠ "" ∧ text.toList.head? ≠ some '0' := by
  obtain ⟨hall, rfl, -⟩ := decode?_eq_some_iff.1 h
  have hzero : digitsOf text.toList = [0] ↔ text = "0" := by
    have hinj := digitsOf_inj hall (mem_alphabet_of_mem_encode 0)
    rwa [digitsOf_encode, String.toList_inj, encode_zero] at hinj
  have hnil : digitsOf text.toList = [] ↔ text = "" := by
    rw [digitsOf, List.map_eq_nil_iff, String.toList_eq_nil_iff]
  rw [← String.toList_inj, ← digitsOf_inj (mem_alphabet_of_mem_encode _) hall, digitsOf_encode,
    Positional.numeral_value_eq_iff (by decide) (lt_of_mem_digitsOf hall), hzero, ne_eq, hnil,
    ne_eq, head?_digitsOf_eq_zero_iff hall]

/-! ## Bytes -/

/-- The bytes that are digits, in the order of their values. -/
def digitBytes : Bytes := Bytes.ofText alphabet

/-- The number that a text stands for in base 62, byte by byte and of any size. -/
def valueOf (text : String) : Nat :=
  Nat.ofDigits 62 ((Bytes.ofText text.toList).map (digitBytes.idxOf ·)).reverse

/-- The bytes of the digits are the codes of the alphabet. -/
lemma digitBytes_eq : digitBytes = alphabet.map fun c => UInt8.ofNat c.toNat :=
  Bytes.ofText_of_lt fun _ hc => toNat_lt_of_mem_alphabet hc

/-- The bytes of digits are below 128, so that each is a character of its own. -/
lemma lt_of_mem_digitBytes {b : UInt8} (h : b ∈ digitBytes) : b.toNat < 128 := by
  rw [digitBytes_eq] at h
  obtain ⟨c, hc, rfl⟩ := List.mem_map.1 h
  have hlt := toNat_lt_of_mem_alphabet hc
  rwa [Bytes.toNat_ofNat_of_lt hlt]

/-- No byte comes twice among those of the digits. -/
lemma nodup_digitBytes : digitBytes.Nodup := by
  rw [digitBytes_eq]
  refine nodup_alphabet.map_on fun c hc d hd h => ?_
  have hcode := congrArg UInt8.toNat h
  rw [Bytes.toNat_ofNat_of_lt (toNat_lt_of_mem_alphabet hc),
    Bytes.toNat_ofNat_of_lt (toNat_lt_of_mem_alphabet hd)] at hcode
  exact Char.toNat_inj.1 hcode

/-- The bytes of a text are digits iff its characters are. -/
lemma forall_mem_digitBytes_iff :
    (∀ b ∈ Bytes.ofText chars, b ∈ digitBytes) ↔ ∀ c ∈ chars, c ∈ alphabet := by
  constructor
  · intro h c hc
    obtain ⟨b, hb⟩ := List.exists_mem_of_ne_nil _ (@String.utf8EncodeChar_ne_nil c)
    have hdigit : b ∈ digitBytes := h b (List.mem_flatMap.2 ⟨c, hc, hb⟩)
    have hsmall := lt_of_mem_digitBytes hdigit
    obtain ⟨other, hother, hcode⟩ := (Bytes.mem_ofText_iff hsmall).1 hdigit
    have hsame : c = other :=
      Char.toNat_inj.1 ((Bytes.eq_of_mem_utf8EncodeChar hsmall hb).2.trans hcode.symm)
    exact hsame ▸ hother
  · intro h b hb
    obtain ⟨c, hc, hbyte⟩ := List.mem_flatMap.1 hb
    exact List.mem_flatMap.2 ⟨c, h c hc, hbyte⟩

/-- A digit has the same value as a byte and as a character. -/
lemma idxOf_byte (h : c ∈ alphabet) :
    digitBytes.idxOf (UInt8.ofNat c.toNat) = alphabet.idxOf c := by
  have hlt : alphabet.idxOf c < digitBytes.length := by
    rw [digitBytes_eq, List.length_map]
    exact List.idxOf_lt_length_iff.2 h
  have hget : digitBytes[alphabet.idxOf c] = UInt8.ofNat c.toNat := by
    simp only [digitBytes_eq, List.getElem_map, List.getElem_idxOf]
  rw [← hget]
  exact nodup_digitBytes.idxOf_getElem _ hlt

/-- The bytes of a text over the alphabet stand at the places of its characters. -/
lemma map_idxOf_ofText (h : ∀ c ∈ chars, c ∈ alphabet) :
    (Bytes.ofText chars).map (digitBytes.idxOf ·) = digitsOf chars := by
  rw [Bytes.ofText_of_lt fun c hc => toNat_lt_of_mem_alphabet (h c hc), List.map_map, digitsOf]
  refine List.map_congr_left fun c hc => ?_
  rw [Function.comp_apply, idxOf_byte (h c hc)]

/-- The value of a text over the alphabet is that of its digits to the base 62. -/
lemma valueOf_eq {text : String} (h : ∀ c ∈ text.toList, c ∈ alphabet) :
    valueOf text = Positional.value 62 (digitsOf text.toList) := by
  rw [valueOf, map_idxOf_ofText h, Positional.value_eq_ofDigits]

/-- **Ids and sequence numbers.** The id of a number of 64 bits is read back as the number. A text
is read as a number iff all of its bytes are digits, it stands for the number in base 62, and the
number has 64 bits; so a text that stands for a larger one is not read at all. A text that is read
is the id of its number iff it is the single digit zero, or has some digit and no zero in front.

**Proof sketch.** Digits are read one by one, and a number that has become too large stays so. The
id of a number consists of its digits in base 62, the first of which is zero for zero only, and a
sequence of digits that starts with another one is determined by its value. -/
theorem numbers_of_texts :
    (∀ n : UInt64, decode? (encode n.toNat) = some n.toNat) ∧
    (∀ text n, decode? text = some n ↔
      (∀ b ∈ Bytes.ofText text.toList, b ∈ digitBytes) ∧ valueOf text = n ∧ n < 2 ^ 64) ∧
    ∀ text n, decode? text = some n →
      (encode n = text ↔ text = "0" ∨ text ≠ "" ∧ text.toList.head? ≠ some '0') := by
  refine ⟨fun n => decode?_encode n.toNat_lt, fun text n => ?_, fun text n => encode_eq_iff⟩
  rw [decode?_eq_some_iff, forall_mem_digitBytes_iff]
  refine and_congr_right fun hall => ?_
  rw [valueOf_eq hall]

/-- The largest number of 64 bits has an id of eleven digits. With a zero in front it is read as the
same number, and the next id is not read. -/
theorem numbers_of_texts_largest :
    decode? "0LygHa16AHYF" = some (2 ^ 64 - 1) ∧ encode (2 ^ 64 - 1) = "LygHa16AHYF" ∧
      encode (2 ^ 64 - 1) ≠ "0LygHa16AHYF" ∧ valueOf "LygHa16AHYG" = 2 ^ 64 ∧
        decode? "LygHa16AHYG" = none := by
  obtain ⟨-, hread, hwritten⟩ := numbers_of_texts
  obtain ⟨hlargest, hzero, hnext⟩ : decode? "LygHa16AHYF" = some (2 ^ 64 - 1) ∧
      decode? "0LygHa16AHYF" = some (2 ^ 64 - 1) ∧ valueOf "LygHa16AHYG" = 2 ^ 64 := by
    decide +kernel
  refine ⟨hzero, (hwritten _ _ hlargest).2 (by decide),
    fun h => absurd ((hwritten _ _ hzero).1 h) (by decide), hnext, ?_⟩
  refine Option.eq_none_iff_forall_ne_some.2 fun n hn => ?_
  obtain ⟨-, hvalue, hlt⟩ := (hread _ _).1 hn
  rw [← hvalue, hnext] at hlt
  exact Nat.lt_irrefl _ hlt

end Concordance.DocId
