import Concordance.Proofs.Typo.Levenshtein
import Concordance.Typo.EditDistance
import Mathlib.Data.List.Infix

set_option relaxedAutoImplicit false
set_option autoImplicit false

/-!
# Rows of distances

The row of a word holds its Levenshtein distances to all beginnings of the other word. The entry for
one more letter of either word follows from the entries beside it, above it and between them, which
is the recursion by the last letters.

## Main definitions

* `Concordance.EditDistance.distances` — the distances to the beginnings of a word that go on behind
  a given one.

## Main results

* `Concordance.EditDistance.row_eq` — the row of a word.
* `Concordance.EditDistance.within_iff` — two texts are near enough by their Levenshtein distance.
* `Concordance.EditDistance.least_row_le_iff` — some beginning of the other word is near.
-/

namespace Concordance.EditDistance

variable {α : Type} [DecidableEq α]

/-- The distances of a word to `pre`, and to all continuations of it up to `pre ++ rest`. -/
def distances (word pre rest : List α) : List Nat :=
  rest.inits.map fun continuation => levenshtein word (pre ++ continuation)

/-- Without continuations there is one distance. -/
lemma distances_nil (word pre : List α) : distances word pre [] = [levenshtein word pre] := by
  simp [distances]

/-- The distance to the beginning comes before those to its continuations. -/
lemma distances_cons (word pre : List α) (letter : α) (rest : List α) :
    distances word pre (letter :: rest) =
      levenshtein word pre :: distances word (pre ++ [letter]) rest := by
  simp [distances, Function.comp_def]

/-- Distances begin with that to the beginning itself. -/
lemma exists_distances (word pre rest : List α) :
    ∃ tail, distances word pre rest = levenshtein word pre :: tail := by
  cases rest with
  | nil => exact ⟨[], distances_nil word pre⟩
  | cons letter rest => exact ⟨_, distances_cons word pre letter rest⟩

/-- The first row. -/
lemma firstRow_eq (other : List α) : firstRow other = distances [] [] other := by
  have hrange : ∀ (rest pre : List α),
      distances [] pre rest = (List.range (rest.length + 1)).map (pre.length + ·) := by
    intro rest
    induction rest with
    | nil => simp [distances_nil]
    | cons letter rest ih =>
      intro pre
      rw [distances_cons, ih, List.length_cons, List.range_succ_eq_map (n := rest.length + 1)]
      simp [Function.comp_def, Nat.add_assoc, Nat.add_comm 1]
  rw [hrange, firstRow]
  simp

/-- The entries for one more letter.

**Proof sketch.** Induction on what is left of the other word. The new entry is the distance by the
last letters: it follows from the entry above, the one to the left, and the one between them. -/
lemma nextEntries_eq (letter : α) (word pre rest : List α) :
    nextEntries letter (levenshtein (word ++ [letter]) pre) rest (distances word pre rest) =
      (distances (word ++ [letter]) pre rest).tail := by
  induction rest generalizing pre with
  | nil => simp [distances_nil, nextEntries]
  | cons o rest ih =>
    obtain ⟨tail, htail⟩ := exists_distances word (pre ++ [o]) rest
    obtain ⟨tail', htail'⟩ := exists_distances (word ++ [letter]) (pre ++ [o]) rest
    have hentry : min (min (levenshtein word (pre ++ [o]) + 1)
        (levenshtein (word ++ [letter]) pre + 1))
          (levenshtein word pre + if o = letter then 0 else 1) =
        levenshtein (word ++ [letter]) (pre ++ [o]) := by
      rw [levenshtein_concat_concat]
      simp only [eq_comm]
    have hnext := ih (pre ++ [o])
    rw [htail, htail', List.tail_cons] at hnext
    rw [distances_cons, distances_cons, List.tail_cons, htail, htail', nextEntries]
    simp only [hentry, hnext]

/-- The next row of distances is that of the word with one more letter. -/
lemma nextRow_eq (letter : α) (word other : List α) :
    nextRow letter other (distances word [] other) = distances (word ++ [letter]) [] other := by
  obtain ⟨tail, htail⟩ := exists_distances word [] other
  obtain ⟨tail', htail'⟩ := exists_distances (word ++ [letter]) [] other
  have hentries := nextEntries_eq letter word [] other
  have hhead : levenshtein word [] + 1 = levenshtein (word ++ [letter]) [] := by simp
  rw [htail, htail', List.tail_cons] at hentries
  rw [htail, htail', nextRow, hhead, hentries]

/-- The row of a word holds its distances to all beginnings of the other word. -/
theorem row_eq (word other : List α) : row word other = distances word [] other := by
  induction word using List.reverseRecOn with
  | nil => exact firstRow_eq other
  | append_singleton word letter ih =>
    rw [← nextRow_eq, ← ih, row, row, List.foldl_append]
    rfl

/-- One more letter leads to the next row. -/
lemma row_concat (letter : α) (word other : List α) :
    nextRow letter other (row word other) = row (word ++ [letter]) other := by
  rw [row_eq, row_eq, nextRow_eq]

/-- The last entry of a row is the distance to the whole other word. -/
theorem last_row (word other : List α) : last (row word other) = levenshtein word other := by
  have hlast : ∀ (rest pre : List α),
      last (distances word pre rest) = levenshtein word (pre ++ rest) := by
    intro rest
    induction rest with
    | nil => simp [distances_nil, last]
    | cons letter rest ih =>
      intro pre
      obtain ⟨tail, htail⟩ := exists_distances word (pre ++ [letter]) rest
      have hrest := ih (pre ++ [letter])
      rw [distances_cons]
      rw [htail] at hrest ⊢
      simpa [last] using hrest
  rw [row_eq, hlast, List.nil_append]

/-- Two texts are near enough iff their Levenshtein distance is. -/
theorem within_iff {limit : Nat} {text other : String} :
    within limit text other = true ↔ levenshtein text.toList other.toList ≤ limit := by
  simp [within, distance, last_row]

/-- The least entry of a row. -/
lemma least_le_iff {d n : Nat} {row : List Nat} :
    least (d :: row) ≤ n ↔ ∃ entry ∈ d :: row, entry ≤ n := by
  change row.foldl min d ≤ n ↔ _
  induction row generalizing d with
  | nil => simp
  | cons entry row ih =>
    rw [List.foldl_cons, ih]
    simp only [List.mem_cons, exists_eq_or_imp, min_le_iff, or_assoc]

/-- The least entry of a row is small iff some beginning of the other word is near. -/
theorem least_row_le_iff {word other : List α} {n : Nat} :
    least (row word other) ≤ n ↔ ∃ start, start <+: other ∧ levenshtein word start ≤ n := by
  obtain ⟨tail, htail⟩ := exists_distances word [] other
  rw [row_eq, htail, least_le_iff, ← htail]
  simp [distances]

end Concordance.EditDistance
