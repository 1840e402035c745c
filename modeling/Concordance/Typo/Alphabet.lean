import Concordance.Positional

set_option relaxedAutoImplicit false
set_option autoImplicit false

/-!
# Alphabets of typo states

For typo-tolerant look-up every character stands for one letter of a small alphabet, and a word
over it for a number, its state: the letters are digits from one upwards in a base one larger than
the alphabet. Since no digit is zero, words of any lengths have different states, and the state of
a word without its last letter is the state divided by the base. The states are thus the nodes of
a tree with the root zero.

## Main definitions

* `Concordance.Alphabet` — an alphabet, by its size.
* `Concordance.Alphabet.letter` — the letter that a character stands for.
* `Concordance.Alphabet.state` — the state of a word.
* `Concordance.Alphabet.chain` — the nodes from a state to the root.
* `Concordance.Alphabet.maxDepth` — the longest words whose states have 64 bits.
-/

namespace Concordance

-- Powers are those of the core library, also where other ones can be found.
attribute [local instance (high)] instPowNat

/-- An alphabet of typo states. -/
structure Alphabet where
  size : Nat
  size_pos : 0 < size
  deriving DecidableEq, Repr

namespace Alphabet

/-- The alphabet of a given size, which is at least one. -/
def ofSize (size : Nat) : Alphabet := ⟨max size 1, by omega⟩

/-- The base in which words are numbers. -/
def base (a : Alphabet) : Nat := a.size + 1

/-- A base has at least two digits. -/
theorem two_le_base (a : Alphabet) : 2 ≤ a.base := Nat.succ_le_succ a.size_pos

/-- The letter that a character stands for, between one and the size of the alphabet. -/
def letter (a : Alphabet) (c : Char) : Nat := c.toNat % a.size + 1

/-- The letters of a text. -/
def letters (a : Alphabet) (text : String) : List Nat := text.toList.map a.letter

/-- The state of a word. -/
def state (a : Alphabet) (word : List Nat) : Nat := Positional.value a.base word

/-- The nodes from a state to the root, both included. -/
def chain (a : Alphabet) (node : Nat) : List Nat :=
  if node = 0 then [0] else node :: a.chain (node / a.base)
  termination_by node
  decreasing_by exact Nat.div_lt_self (by omega) a.two_le_base

/-- How many letters can follow a word with the state `largest`, the largest of its length, so
that all states stay below `2 ^ 64`. -/
def room (a : Alphabet) (largest : Nat) : Nat :=
  if largest * a.base + a.size < 2 ^ (64 : Nat) then a.room (largest * a.base + a.size) + 1 else 0
  termination_by 2 ^ (64 : Nat) - largest
  decreasing_by
    have hbase : largest ≤ largest * a.base :=
      Nat.le_mul_of_pos_right largest (Nat.lt_of_lt_of_le Nat.zero_lt_two a.two_le_base)
    have hsize := a.size_pos
    omega

/-- The length of the longest words whose states are all below `2 ^ 64`. -/
def maxDepth (a : Alphabet) : Nat := a.room 0

end Alphabet

end Concordance
