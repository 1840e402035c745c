import Concordance.Typo.EditDistance
import Concordance.Typo.StateSet

set_option relaxedAutoImplicit false
set_option autoImplicit false

/-!
# Candidates of typo-tolerant look-up

The state of a term is that of its first letters. To find the states of all terms that may be
near to a given one, the tree of states is walked down from the root. The row of distances of the
word at a node tells whether it is near, and a branch is left as soon as no word in it can be near.

## Main definitions

* `Concordance.Automaton` — an alphabet and the number of letters that count.
* `Concordance.Automaton.stateOf` — the state of a term.
* `Concordance.Automaton.candidates` — the members of a set of states that may belong to near terms.
-/

namespace Concordance

/-- An alphabet and the number of letters that count. -/
structure Automaton where
  alphabet : Alphabet
  depth : Nat
  deriving DecidableEq, Repr

namespace Automaton

/-- The automaton of an alphabet and a wanted depth. Words are no longer than states of 64 bits
allow. -/
def new (alphabetSize indexLength : Nat) : Automaton :=
  let alphabet := Alphabet.ofSize alphabetSize
  ⟨alphabet, min indexLength alphabet.maxDepth⟩

/-- The state of a term. -/
def stateOf (automaton : Automaton) (term : String) : Nat :=
  automaton.alphabet.state ((automaton.alphabet.letters term).take automaton.depth)

/-- The children of a node with members of a set at or below them, in order. -/
def children (automaton : Automaton) (states : StateSet) (node : Nat) : List Nat :=
  states.occupied (node * automaton.alphabet.base) automaton.alphabet.size

/-- The near members of a set at or below a node, where `row` is the row of its word and `depth`
the number of letters that may follow. A node that no letter may follow stands for all terms that
start with its word, so it is near if the word is near to any beginning of the query. -/
def walk (automaton : Automaton) (states : StateSet) (query : List Nat) (limit : Nat) :
    (depth : Nat) → (node : Nat) → (row : List Nat) → List Nat
  | 0, node, row =>
    if states.has node && EditDistance.least row ≤ limit then [node] else []
  | depth + 1, node, row =>
    (if states.has node && EditDistance.last row ≤ limit then [node] else []) ++
      (automaton.children states node).flatMap fun child =>
        let letter := child - node * automaton.alphabet.base
        let next := EditDistance.nextRow letter query row
        if EditDistance.least next ≤ limit then walk automaton states query limit depth child next
        else []

/-- The members of a set of states that may belong to terms at most `limit` edits away from a
term, a node before those below it. -/
def candidates (automaton : Automaton) (states : StateSet) (term : String) (limit : Nat) :
    List Nat :=
  let query := automaton.alphabet.letters term
  if 0 < states.reachable 0 then
    automaton.walk states query limit automaton.depth 0 (EditDistance.firstRow query)
  else []

end Automaton

end Concordance
