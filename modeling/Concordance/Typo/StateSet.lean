import Concordance.OrderedMap
import Concordance.Typo.Alphabet

set_option relaxedAutoImplicit false
set_option autoImplicit false

/-!
# Sets of typo states

A set of states remembers how it differs from what is stored, so that only the differences have
to be written. For every node of the tree it counts the members at or below it, so that a walk
can pass over empty branches.

## Main definitions

* `Concordance.StateSet` — a set of states.
* `Concordance.StateSet.load`, `add`, `remove` — changes of the set.
* `Concordance.StateSet.reachable` — how many members are at or below a node.
* `Concordance.StateSet.takeDeltas` — the differences from what is stored.
-/

namespace Concordance

/-- A set of states. -/
structure StateSet where
  alphabet : Alphabet
  members : OrderedSet Nat := ∅
  /-- For every node with members at or below it, how many they are. -/
  counts : OrderedMap Nat Nat := ∅
  /-- The members that are not stored. -/
  added : OrderedSet Nat := ∅
  /-- What is stored and no longer a member. -/
  removed : OrderedSet Nat := ∅

namespace StateSet

/-- The set without members. -/
def new (alphabet : Alphabet) : StateSet := { alphabet }

/-- Whether a state is a member. -/
def has (set : StateSet) (state : Nat) : Bool := set.members.contains state

/-- How many members are at or below a node. -/
def reachable (set : StateSet) (node : Nat) : Nat := (set.counts.get? node).getD 0

/-- The number of members. -/
def size (set : StateSet) : Nat := set.members.size

/-- Whether there are no members. -/
def isEmpty (set : StateSet) : Bool := set.members.isEmpty

/-- Whether the set differs from what is stored. -/
def isDirty (set : StateSet) : Bool := !set.added.isEmpty || !set.removed.isEmpty

/-- One more member at or below a node. -/
def countUp (counts : OrderedMap Nat Nat) (node : Nat) : OrderedMap Nat Nat :=
  counts.insert node ((counts.get? node).getD 0 + 1)

/-- One member less at or below a node. -/
def countDown (counts : OrderedMap Nat Nat) (node : Nat) : OrderedMap Nat Nat :=
  match counts.get? node with
  | none => counts
  | some n => if n ≤ 1 then counts.erase node else counts.insert node (n - 1)

/-- The set with one more member, which is counted but not noted as a difference. -/
def enter (set : StateSet) (state : Nat) : StateSet :=
  { set with
    members := set.members.add state
    counts := (set.alphabet.chain state).foldl countUp set.counts }

/-- The set without a member, which is counted but not noted as a difference. -/
def leave (set : StateSet) (state : Nat) : StateSet :=
  { set with
    members := set.members.erase state
    counts := (set.alphabet.chain state).foldl countDown set.counts }

/-- The set of stored states, without differences. -/
def load (set : StateSet) (states : List Nat) : StateSet :=
  states.foldl (fun set state => if set.has state then set else set.enter state)
    (new set.alphabet)

/-- The set with a state. -/
def add (set : StateSet) (state : Nat) : StateSet :=
  if set.has state then set
  else
    let set := set.enter state
    if set.removed.contains state then { set with removed := set.removed.erase state }
    else { set with added := set.added.add state }

/-- The set without a state. -/
def remove (set : StateSet) (state : Nat) : StateSet :=
  if set.has state then
    let set := set.leave state
    if set.added.contains state then { set with added := set.added.erase state }
    else { set with removed := set.removed.add state }
  else set

/-- What was added and removed since the set was stored, and the set as it is once these
differences are stored. -/
def takeDeltas (set : StateSet) : (List Nat × List Nat) × StateSet :=
  ((set.added.keys, set.removed.keys), { set with added := ∅, removed := ∅ })

/-- The nodes with members at or below them whose numbers follow `first`, at most `count` of the
numbers being looked at. -/
def occupied (set : StateSet) (first count : Nat) : List Nat :=
  set.counts.keys.filter fun node => first < node && node ≤ first + count

end StateSet

end Concordance
