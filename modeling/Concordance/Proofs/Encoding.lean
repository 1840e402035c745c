import Concordance.Bytes
import Mathlib.Tactic.Common

set_option relaxedAutoImplicit false
set_option autoImplicit false

/-!
# Encoded texts

What the bytes of a text tell about the text. The encoding of characters is a prefix code, so that
bytes decide where each character ends, and a byte below 128 in it stands for the character with
this number.

## Main results

* `Concordance.Bytes.toText?_ofText` — the bytes of a text are decoded to the text.
* `Concordance.Bytes.isPrefix_ofText_iff` — the bytes of a text start with those of another iff
  the text starts with the other.
* `Concordance.Bytes.mem_ofText_iff` — small bytes stand for small characters.
-/

namespace Concordance.Bytes

/-- The bytes of a text are those of its characters, one after the other. -/
@[simp] lemma ofText_append (s t : List Char) : ofText (s ++ t) = ofText s ++ ofText t := by
  simp [ofText]

/-- The bytes of a text as an array are the encoding that the core library speaks about. -/
lemma toByteArray_ofText (t : List Char) : (ofText t).toByteArray = t.utf8Encode := rfl

/-- The bytes of a text are decoded to the text. -/
theorem toText?_ofText (t : List Char) : toText? (ofText t) = some t := by
  have harray : (⟨(ofText t).toArray⟩ : ByteArray) = t.utf8Encode := by
    rw [← toByteArray_ofText]
    exact ByteArray.ext (by simp)
  have hvalid : ByteArray.IsValidUTF8 t.utf8Encode := .intro t rfl
  unfold toText? String.fromUTF8?
  rw [harray, dif_pos hvalid]
  have hstring : String.fromUTF8 t.utf8Encode hvalid = String.ofList t :=
    String.toByteArray_inj.1 (by simp [String.fromUTF8])
  simp [hstring]

/-- The encoding of characters is a prefix code: the bytes of a text start with those of another
iff the text starts with the other. -/
theorem isPrefix_ofText_iff {s t : List Char} : ofText s <+: ofText t ↔ s <+: t := by
  constructor
  · rintro ⟨rest, h⟩
    refine List.isPrefix_of_utf8Encode_append_eq_utf8Encode rest.toByteArray ?_
    rw [← toByteArray_ofText, ← toByteArray_ofText, ← List.toByteArray_append, h]
  · rintro ⟨rest, rfl⟩
    exact ⟨ofText rest, (ofText_append s rest).symm⟩

/-- A byte below 128 in the encoding of a character stands for the whole character.

**Proof sketch.** By the length of the encoding: a single byte is the code itself, and all bytes of
longer encodings are at least 128. -/
lemma eq_of_mem_utf8EncodeChar {b : UInt8} {c : Char} (hb : b.toNat < 128)
    (h : b ∈ String.utf8EncodeChar c) : String.utf8EncodeChar c = [b] ∧ c.toNat = b.toNat := by
  unfold String.utf8EncodeChar at h ⊢
  simp only at h ⊢
  split at h
  · next hsmall =>
    obtain rfl := List.mem_singleton.1 h
    rw [if_pos hsmall]
    refine ⟨rfl, ?_⟩
    change c.val.toNat = _
    rw [UInt8.toNat_ofNat']
    omega
  · split at h
    · simp only [List.mem_cons, List.not_mem_nil, or_false] at h
      rcases h with rfl | rfl <;> simp only [UInt8.toNat_ofNat'] at hb <;> omega
    · split at h
      · simp only [List.mem_cons, List.not_mem_nil, or_false] at h
        rcases h with rfl | rfl | rfl <;> simp only [UInt8.toNat_ofNat'] at hb <;> omega
      · simp only [List.mem_cons, List.not_mem_nil, or_false] at h
        rcases h with rfl | rfl | rfl | rfl <;> simp only [UInt8.toNat_ofNat'] at hb <;> omega

/-- A character below 128 is encoded in the byte with its number. -/
lemma utf8EncodeChar_of_lt {c : Char} (h : c.toNat < 128) :
    String.utf8EncodeChar c = [UInt8.ofNat c.toNat] := by
  have hval : c.val.toNat ≤ 0x7f := by
    change c.toNat ≤ 127
    omega
  unfold String.utf8EncodeChar
  simp only
  rw [if_pos hval]
  rfl

/-- A text of characters below 128 has one byte for each of them. -/
lemma ofText_of_lt {t : List Char} (h : ∀ c ∈ t, c.toNat < 128) :
    ofText t = t.map fun c => UInt8.ofNat c.toNat := by
  induction t with
  | nil => rfl
  | cons c t ih =>
    obtain ⟨hc, ht⟩ := List.forall_mem_cons.1 h
    rw [List.map_cons, ← ih ht, ofText, List.flatMap_cons, utf8EncodeChar_of_lt hc]
    rfl

/-- The code of an ASCII character fits into a byte. -/
lemma toNat_ofNat_of_lt {c : Char} (h : c.toNat < 128) :
    (UInt8.ofNat c.toNat).toNat = c.toNat := by
  rw [UInt8.toNat_ofNat', Nat.mod_eq_of_lt (by omega)]

/-- A byte below 128 is in the encoding of a text iff its character is in the text. -/
theorem mem_ofText_iff {b : UInt8} (hb : b.toNat < 128) {t : List Char} :
    b ∈ ofText t ↔ ∃ c ∈ t, c.toNat = b.toNat := by
  simp only [ofText, List.mem_flatMap]
  constructor
  · rintro ⟨c, hc, h⟩
    exact ⟨c, hc, (eq_of_mem_utf8EncodeChar hb h).2⟩
  · rintro ⟨c, hc, h⟩
    refine ⟨c, hc, ?_⟩
    rw [utf8EncodeChar_of_lt (h ▸ hb), h]
    simp

end Concordance.Bytes
