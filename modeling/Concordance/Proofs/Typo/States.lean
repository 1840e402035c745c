import Concordance.Typo.Automaton
import Concordance.Typo.Budget
import Mathlib.Algebra.Group.Nat.Defs
import Mathlib.Tactic.Common

set_option relaxedAutoImplicit false
set_option autoImplicit false

/-!
# States of words

The depth of an automaton is limited so that all states have 64 bits: the words of the greatest
depth, written with the greatest letter only, still do.

## Main results

* `Concordance.Automaton.stateOf_lt` — the states of terms have 64 bits.
-/

namespace Concordance

namespace Alphabet

variable {a : Alphabet}

/-- No character has the letter zero, which no word has. -/
lemma letter_pos (c : Char) : 0 < a.letter c := Nat.succ_pos _

/-- The letter of a character is one of the alphabet. -/
lemma letter_le (c : Char) : a.letter c ≤ a.size := Nat.mod_lt _ a.size_pos

/-- As many letters as there is room for can follow a word whose state is no larger. -/
lemma foldl_lt_of_length_le_room {word : List Nat} (hword : ∀ l ∈ word, l ≤ a.size)
    {state largest : Nat} (hle : state ≤ largest) (hlt : largest < 2 ^ 64)
    (hlength : word.length ≤ a.room largest) :
    word.foldl (fun n d => n * a.base + d) state < 2 ^ 64 := by
  induction word generalizing state largest with
  | nil => exact Nat.lt_of_le_of_lt hle hlt
  | cons l word ih =>
    have hl := hword l List.mem_cons_self
    rw [room, List.length_cons] at hlength
    split at hlength
    · next hroom =>
      have hmul : state * a.base ≤ largest * a.base := Nat.mul_le_mul_right _ hle
      have hstate : state * a.base + l ≤ largest * a.base + a.size := by omega
      exact ih (fun m hm => hword m (List.mem_cons_of_mem _ hm)) hstate hroom (by omega)
    · omega

/-- The states of words that are no longer than the greatest depth have 64 bits. -/
theorem state_lt {word : List Nat} (hword : ∀ l ∈ word, l ≤ a.size)
    (hlength : word.length ≤ a.maxDepth) : a.state word < 2 ^ 64 :=
  foldl_lt_of_length_le_room hword (Nat.le_refl 0) (by decide) hlength

end Alphabet

namespace Automaton

/-- The states of terms have 64 bits. -/
theorem stateOf_lt (alphabetSize indexLength : Nat) (term : String) :
    (new alphabetSize indexLength).stateOf term < 2 ^ 64 := by
  refine Alphabet.state_lt (fun l hl => ?_) ?_
  · obtain ⟨c, -, rfl⟩ := List.mem_map.1 (List.mem_of_mem_take hl)
    exact Alphabet.letter_le c
  · rw [List.length_take]
    exact Nat.le_trans (Nat.min_le_left _ _) (Nat.min_le_right _ _)

end Automaton

end Concordance
