set_option relaxedAutoImplicit false
set_option autoImplicit false

/-!
# Edit distance

The least number of insertions, deletions and replacements of single letters that turn one word
into another. It is computed row by row: the row of a word holds its distances to all beginnings
of the other word, the shortest first, and one more letter of the word leads to the next row.

## Main definitions

* `Concordance.EditDistance.firstRow`, `nextRow` — the rows.
* `Concordance.EditDistance.distance` — the distance of two words.
* `Concordance.EditDistance.within` — whether two words are near enough.
-/

namespace Concordance.EditDistance

variable {α : Type} [DecidableEq α]

/-- The distances of the empty word to the beginnings of a word. -/
def firstRow (other : List α) : List Nat := List.range (other.length + 1)

/-- The entries of a row behind one with value `left`, for the letters that are left of the other
word and the entries above, of which the first is above `left`. -/
def nextEntries (letter : α) (left : Nat) : List α → List Nat → List Nat
  | o :: other, diagonal :: above :: row =>
    let entry := min (min (above + 1) (left + 1)) (diagonal + if o = letter then 0 else 1)
    entry :: nextEntries letter entry other (above :: row)
  | _, _ => []

/-- The row of a word with one more letter. -/
def nextRow (letter : α) (other : List α) : List Nat → List Nat
  | [] => []
  | d :: row => (d + 1) :: nextEntries letter (d + 1) other (d :: row)

/-- The row of a word. -/
def row (word other : List α) : List Nat :=
  word.foldl (fun row letter => nextRow letter other row) (firstRow other)

/-- The distance to the whole other word. -/
def last (row : List Nat) : Nat := row.getLastD 0

/-- The least distance to any beginning of the other word. -/
def least : List Nat → Nat
  | [] => 0
  | d :: row => row.foldl min d

/-- The distance of two words. -/
def distance (word other : List α) : Nat := last (row word other)

/-- Whether two texts are at most `limit` edits apart. -/
def within (limit : Nat) (text other : String) : Bool :=
  distance text.toList other.toList ≤ limit

end Concordance.EditDistance
