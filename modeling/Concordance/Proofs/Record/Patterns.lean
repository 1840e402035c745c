import Concordance.Proofs.RecordFile.Refinement

set_option relaxedAutoImplicit false
set_option autoImplicit false

/-!
# The patterns of keys

A key is searched for by the bytes that its line starts with. For every kind of record they tell the
key from all others, though a text may hold quotes, backslashes and control characters, and may end
with any of them. So lines can be kept in order by their bytes.

## Main results

* `Concordance.RecordKind.patterns_of_keys` — patterns form a prefix code, for the keys of each kind
  of record.
-/

namespace Concordance

open Record

/-- **Patterns form a prefix code.** Take any kind of record. The pattern of one key starts with
that of another only if the keys are the same, be they texts of any characters or numbers. So
whatever follows two lines, be it nothing or blanks and a line feed, the bytes of the lines compare
like the patterns of their keys, and those behind the patterns count only where the keys are the
same. The pattern of a text starts with that of a beginning iff the text starts with the beginning.

**Proof sketch.** A string literal is read back as its text up to the closing quote, and a numeral
up to the closing brace, so the end of a pattern cannot be passed over. Without the quote what is
left is a text in escaped form, and the forms of single characters are a prefix code. -/
theorem RecordKind.patterns_of_keys (kind : RecordKind) :
    (∀ k₁ k₂ : Key, pattern kind.Carrier k₁ <+: pattern kind.Carrier k₂ ↔ k₁ = k₂) ∧
    (∀ (a b : kind.Carrier) (x y : Bytes), compare (line a ++ x) (line b ++ y) =
      (compare (pattern kind.Carrier (key a)) (pattern kind.Carrier (key b))).then
        (compare (body a ++ x) (body b ++ y))) ∧
    (∀ a b : kind.Carrier, key a ≠ key b → ∀ x y : Bytes, compare (line a ++ x) (line b ++ y) =
      compare (pattern kind.Carrier (key a)) (pattern kind.Carrier (key b))) ∧
    ∀ start s : String, prefixPattern kind.Carrier start <+: pattern kind.Carrier (.text s) ↔
      start.toList <+: s.toList := by
  refine ⟨fun k₁ k₂ => ⟨eq_of_pattern_isPrefix, ?_⟩, compare_line_append,
    fun a b => compare_line_append_of_ne, fun start s => prefixPattern_isPrefix_pattern_iff⟩
  rintro rfl
  exact List.prefix_rfl

/-- A term that ends with a backslash and a longer one with a quote behind it: the lines of their
postings are in the order of the patterns, whose first difference is the closing quote of the one
and the escaped quote of the other. -/
theorem RecordKind.patterns_of_keys_backslash :
    Key.text "say \\" ≠ Key.text "say \\\"" ∧
      compare (RecordFile.padded 36 (line (Posting.of "say \\" (.ofList [⟨"1"⟩]) none)))
        (RecordFile.padded 30 (line (Posting.of "say \\\"" .empty none))) = .lt := by
  obtain ⟨-, -, hlines, -⟩ := RecordKind.patterns_of_keys .posting
  have hkeys : Key.text "say \\" ≠ Key.text "say \\\"" := by decide
  have hcompare : compare (pattern Posting (.text "say \\")) (pattern Posting (.text "say \\\"")) =
      .lt := by decide +kernel
  refine ⟨hkeys, ?_⟩
  rw [RecordFile.padded_eq (by decide +kernel), RecordFile.padded_eq (by decide +kernel)]
  exact (hlines (Posting.of "say \\" (.ofList [⟨"1"⟩]) none) (Posting.of "say \\\"" .empty none)
    hkeys _ _).trans hcompare

end Concordance
