import Concordance.Proofs.Typo.Deltas
import Mathlib.Data.Set.Card

set_option relaxedAutoImplicit false
set_option autoImplicit false

/-!
# How many members are below a node

The count of a node is the number of the members from which the node is on the way to the root.
Counts are unsigned numbers of 32 bits. Here the changes of a set of states are made once more with
every count checked: a count that no longer has 32 bits, and one less where there is nothing left,
put an end to the run. As long as there are fewer than `2 ^ 32` members, none of this happens.

## Main definitions

* `Concordance.StateSet.Checked.apply` — a change of a set of states with its counts checked.

## Main results

* `Concordance.StateSet.below_eq_ncard` — how many members are at or below a node.
* `Concordance.StateSet.Checked.apply_eq` — a change with its counts checked is the change.
* `Concordance.StateSet.reachable_of_changes` — the counts are right after any changes.
-/

namespace Concordance

/-! ## Nodes on the way to the root -/

namespace Alphabet

variable {a : Alphabet} {node state : Nat}

/-- Towards the root one goes on by division. -/
lemma mem_chain_iff : node ∈ a.chain state ↔ ∃ steps, state / a.base ^ steps = node := by
  fun_induction a.chain state with
  | case1 => simp [eq_comm]
  | case2 state hstate ih =>
    rw [List.mem_cons, ih]
    constructor
    · rintro (rfl | ⟨steps, rfl⟩)
      · exact ⟨0, by simp⟩
      · exact ⟨steps + 1, by rw [Nat.pow_succ', Nat.div_div_eq_div_mul]⟩
    · rintro ⟨steps, rfl⟩
      cases steps with
      | zero => exact .inl (by simp)
      | succ steps => exact .inr ⟨steps, by rw [Nat.pow_succ', Nat.div_div_eq_div_mul]⟩

/-- Every way ends at the root. -/
lemma root_mem_chain (a : Alphabet) (state : Nat) : 0 ∈ a.chain state := by
  fun_induction a.chain state with
  | case1 => simp
  | case2 state hstate ih => exact List.mem_cons_of_mem _ ih

end Alphabet

namespace StateSet

variable {set : StateSet} {alphabet : Alphabet} {node state : Nat}

/-- The size of a set is the number of its members. -/
lemma size_eq_length_keys (set : StateSet) : set.size = set.members.keys.length :=
  (List.length_map _).symm

/-- No more members are below a node than there are. -/
lemma below_le_size (set : StateSet) (node : Nat) : set.below node ≤ set.size := by
  rw [size_eq_length_keys]
  exact List.countP_le_length

/-- A new member makes a set larger by one. -/
lemma size_enter (h : set.has state = false) : (set.enter state).size = set.size + 1 := by
  have hperm : (set.enter state).members.keys.Perm (state :: set.members.keys) :=
    OrderedMap.keys_insert_perm () h
  rw [size_eq_length_keys, hperm.length_eq, List.length_cons, size_eq_length_keys]

/-- Adding a state that is not a member makes a set larger by one. -/
lemma size_add (h : set.has state = false) : (set.add state).size = set.size + 1 := by
  rw [← size_enter h, add, if_neg (by simp [h])]
  show (if _ then _ else _ : StateSet).size = _
  split
  · rfl
  · rfl

/-- All members are at or below the root. -/
lemma below_root (set : StateSet) : set.below 0 = set.size := by
  rw [size_eq_length_keys, below, List.countP_eq_length]
  exact fun state _ => by simpa using set.alphabet.root_mem_chain state

/-- A node on the way of a member to the root has a member below it. -/
lemma below_pos_of_mem (hhas : set.has state = true) (hnode : node ∈ set.alphabet.chain state) :
    0 < set.below node := by
  rw [below, List.countP_pos_iff]
  exact ⟨state, (OrderedMap.contains_iff_mem_keys).1 hhas, by simpa using hnode⟩

/-- No member is counted twice. -/
lemma below_eq_ncard (set : StateSet) (node : Nat) :
    set.below node = {state | set.has state = true ∧ node ∈ set.alphabet.chain state}.ncard := by
  have hmembers : {state | set.has state = true ∧ node ∈ set.alphabet.chain state} =
      ((set.members.keys.filter (node ∈ set.alphabet.chain ·)).toFinset : Set Nat) := by
    ext state
    simp [has, OrderedMap.contains_iff_mem_keys]
  rw [hmembers, Set.ncard_coe_finset,
    List.toFinset_card_of_nodup (set.members.nodup_keys.filter _), below,
    List.countP_eq_length_filter]

/-- The reachable members are as many as there are below a node. -/
lemma Counted.reachable_eq (h : set.Counted) (node : Nat) :
    set.reachable node = set.below node := by
  rw [reachable, h node]
  split
  · next hzero => exact hzero.symm
  · rfl

/-! ## Changes with their counts checked -/

namespace Checked

/-- One more member at or below a node, if their number has 32 bits. -/
def countUp (counts : OrderedMap Nat Nat) (node : Nat) : Option (OrderedMap Nat Nat) :=
  if (counts.get? node).getD 0 + 1 < 2 ^ 32 then some (StateSet.countUp counts node) else none

/-- One member less at or below a node, if there is one. -/
def countDown (counts : OrderedMap Nat Nat) (node : Nat) : Option (OrderedMap Nat Nat) :=
  if 0 < (counts.get? node).getD 0 then some (StateSet.countDown counts node) else none

/-- The set with one more member, which is not noted as a difference. -/
def enter (set : StateSet) (state : Nat) : Option StateSet := do
  let counts ← (set.alphabet.chain state).foldlM countUp set.counts
  return { set with members := set.members.add state, counts }

/-- The set without a member, which is not noted as a difference. -/
def leave (set : StateSet) (state : Nat) : Option StateSet := do
  let counts ← (set.alphabet.chain state).foldlM countDown set.counts
  return { set with members := set.members.erase state, counts }

/-- The set of stored states, without differences. -/
def load (set : StateSet) (states : List Nat) : Option StateSet :=
  states.foldlM (fun set state => if set.has state then return set else enter set state)
    (new set.alphabet)

/-- The set with a state. -/
def add (set : StateSet) (state : Nat) : Option StateSet :=
  if set.has state then return set
  else do
    let set ← enter set state
    return if set.removed.contains state then { set with removed := set.removed.erase state }
      else { set with added := set.added.add state }

/-- The set without a state. -/
def remove (set : StateSet) (state : Nat) : Option StateSet :=
  if set.has state then do
    let set ← leave set state
    return if set.added.contains state then { set with added := set.added.erase state }
      else { set with removed := set.removed.add state }
  else return set

/-- A set after a change. -/
def apply (set : StateSet) : Change → Option StateSet
  | .load states => load set states
  | .add state => add set state
  | .remove state => remove set state
  | .takeDeltas => some set.takeDeltas.2

/-- A run with checks gives what the one without them gives if something that holds at its start
lets every step pass and is kept by it. -/
lemma foldlM_eq_some {α β : Type} {checked : β → α → Option β} {step : β → α → β}
    (passes : β → List α → Prop)
    (hstep : ∀ held first rest, passes held (first :: rest) →
      checked held first = some (step held first) ∧ passes (step held first) rest)
    {start : β} {all : List α} (h : passes start all) :
    all.foldlM checked start = some (all.foldl step start) := by
  induction all generalizing start with
  | nil => rfl
  | cons first rest ih =>
    obtain ⟨hfirst, hrest⟩ := hstep start first rest h
    rw [List.foldlM_cons, hfirst, List.foldl_cons]
    exact ih hrest

/-- Counting different nodes passes all checks if the counts do that are there at the start.

**Proof sketch.** What holds throughout is that the nodes still to come are different and that their
counts pass: a step changes the count of its own node only. -/
lemma foldlM_checked {step : OrderedMap Nat Nat → Nat → OrderedMap Nat Nat}
    {recount : Option Nat → Option Nat} (hstep : Recounts step recount) (passes : Nat → Prop)
    [DecidablePred passes] {nodes : List Nat} (hnodes : nodes.Nodup) {counts : OrderedMap Nat Nat}
    (hpass : ∀ node ∈ nodes, passes ((counts.get? node).getD 0)) :
    nodes.foldlM (fun counts node =>
        if passes ((counts.get? node).getD 0) then some (step counts node) else none) counts =
      some (nodes.foldl step counts) := by
  refine foldlM_eq_some (fun counts nodes =>
    nodes.Nodup ∧ ∀ node ∈ nodes, passes ((counts.get? node).getD 0)) ?_ ⟨hnodes, hpass⟩
  intro counts first rest ⟨hnodes, hpass⟩
  obtain ⟨hfirst, hrest⟩ := List.nodup_cons.1 hnodes
  refine ⟨if_pos (hpass first List.mem_cons_self), hrest, fun node hnode => ?_⟩
  have hne : node ≠ first := fun heq => hfirst (heq ▸ hnode)
  rw [hstep, if_neg hne]
  exact hpass node (List.mem_cons_of_mem _ hnode)

/-- A member can be entered while there is room for one more count. -/
lemma enter_eq (hcounted : set.Counted) (hfew : set.size + 1 < 2 ^ 32) :
    enter set state = some (set.enter state) := by
  have hcounts : (set.alphabet.chain state).foldlM countUp set.counts =
      some ((set.alphabet.chain state).foldl StateSet.countUp set.counts) := by
    apply foldlM_checked recounts_countUp (fun n => n + 1 < 2 ^ 32) (Alphabet.nodup_chain state)
    intro node _
    show set.reachable node + 1 < 2 ^ 32
    have hle := set.below_le_size node
    rw [hcounted.reachable_eq]
    omega
  simp only [enter, hcounts]
  rfl

/-- A member that leaves has been counted on its way to the root. -/
lemma leave_eq (hcounted : set.Counted) (hhas : set.has state = true) :
    leave set state = some (set.leave state) := by
  have hcounts : (set.alphabet.chain state).foldlM countDown set.counts =
      some ((set.alphabet.chain state).foldl StateSet.countDown set.counts) := by
    apply foldlM_checked recounts_countDown (fun n => 0 < n) (Alphabet.nodup_chain state)
    intro node hnode
    show 0 < set.reachable node
    rw [hcounted.reachable_eq]
    exact below_pos_of_mem hhas hnode
  simp only [leave, hcounts]
  rfl

/-- The members get more and more while a set is loaded. -/
lemma size_le_load (set : StateSet) (states : List Nat) : set.size ≤
    (states.foldl (fun set state => if set.has state then set else set.enter state) set).size := by
  induction states generalizing set with
  | nil => exact Nat.le_refl _
  | cons state states ih =>
    have hle := ih (if set.has state then set else set.enter state)
    cases hhas : set.has state with
    | true => simpa [hhas] using hle
    | false =>
      rw [hhas] at hle
      rw [List.foldl_cons, hhas]
      have hsize := size_enter hhas
      exact Nat.le_trans (by simp [hsize]) hle

/-- Stored states are loaded without overflow while there is room to count them. -/
lemma load_eq (set : StateSet) {states : List Nat} (hfew : (set.load states).size < 2 ^ 32) :
    load set states = some (set.load states) := by
  refine foldlM_eq_some (fun set states => set.Counted ∧
    (states.foldl (fun set state => if set.has state then set else set.enter state) set).size <
      2 ^ 32) ?_ ⟨(tracks_new set.alphabet).counted, hfew⟩
  intro set state states ⟨hcounted, hfew⟩
  by_cases hhas : set.has state = true
  · simp only [List.foldl_cons, hhas, if_true] at hfew ⊢
    exact ⟨rfl, hcounted, hfew⟩
  · have hnew : set.has state = false := by simpa using hhas
    have hle := size_le_load (set.enter state) states
    simp only [List.foldl_cons, hnew] at hfew ⊢
    rw [size_enter hnew] at hle
    exact ⟨enter_eq hcounted (hle.trans_lt hfew), hcounted.enter hnew, hfew⟩

/-- A state is added without overflow while there is room to count it. -/
lemma add_eq (hcounted : set.Counted) (hfew : (set.add state).size < 2 ^ 32) :
    add set state = some (set.add state) := by
  cases hhas : set.has state with
  | true => simp [add, StateSet.add, hhas]
  | false =>
    rw [size_add hhas] at hfew
    simp only [add, StateSet.add, hhas, enter_eq hcounted hfew]
    rfl

/-- A state is removed without going below zero. -/
lemma remove_eq (hcounted : set.Counted) : remove set state = some (set.remove state) := by
  cases hhas : set.has state with
  | true =>
    simp only [remove, StateSet.remove, hhas, leave_eq hcounted hhas]
    rfl
  | false => simp [remove, StateSet.remove, hhas]

/-- No check of a change fails while there are fewer than `2 ^ 32` members. -/
theorem apply_eq (hcounted : set.Counted) {change : Change}
    (hfew : (change.apply set).size < 2 ^ 32) : apply set change = some (change.apply set) := by
  cases change with
  | load states => exact load_eq set hfew
  | add state => exact add_eq hcounted hfew
  | remove state => exact remove_eq hcounted
  | takeDeltas => rfl

/-- No check of a run fails while there are never `2 ^ 32` members. -/
theorem foldlM_apply (hset : ∃ members stored, set.Tracks alphabet members stored)
    {changes : List Change}
    (hfew : ∀ done, done <+: changes → (done.foldl Change.apply set).size < 2 ^ 32) :
    changes.foldlM apply set = some (changes.foldl Change.apply set) := by
  refine foldlM_eq_some (fun set changes => (∃ members stored, set.Tracks alphabet members stored) ∧
    ∀ done, done <+: changes → (done.foldl Change.apply set).size < 2 ^ 32) ?_ ⟨hset, hfew⟩
  intro set change rest ⟨⟨members, stored, htracks⟩, hfew⟩
  refine ⟨apply_eq htracks.counted (hfew [change] (by simp)), ⟨_, _, htracks.apply change⟩, ?_⟩
  exact fun done hdone => hfew (change :: done) (List.cons_prefix_cons.2 ⟨rfl, hdone⟩)

end Checked

/-- **Counts are exact.** A set starts without members, and is loaded, added to, removed from and
relieved of its differences in any order, with all counts checked. If there are never `2 ^ 32`
members then all of it succeeds. The count of a node is then the number of the members that lead to
it by divisions by the size of the alphabet and one. In particular the count of the root is the
number of all members, and a count is zero exactly at the nodes to which no member leads.

**Proof sketch.** A change that keeps a set within this size passes all checks, as no node has more
members at or below it than there are, and those of a member that leaves have at least this one. The
run with checks is therefore the one without them, in which the notes of a set follow from its
members. -/
theorem reachable_of_changes (alphabetSize : Nat) (changes : List Change)
    (hfew : ∀ done, done <+: changes → (changed (.ofSize alphabetSize) done).size < 2 ^ 32) :
    ∃ set, changes.foldlM Checked.apply (new (.ofSize alphabetSize)) = some set ∧
      set = changed (.ofSize alphabetSize) changes ∧
      (∀ node, set.reachable node = Set.ncard {state | set.has state = true ∧
        ∃ steps, state / (max alphabetSize 1 + 1) ^ steps = node}) ∧
      set.reachable 0 = set.size ∧
      (∀ node, set.reachable node = 0 ↔ ∀ state, set.has state = true →
        ∀ steps, state / (max alphabetSize 1 + 1) ^ steps ≠ node) ∧
      ∀ node count, set.counts.get? node = some count → 0 < count := by
  have htracks := tracks_changed (.ofSize alphabetSize) changes
  have hbelow := htracks.counted.reachable_eq
  -- a member leads to a node iff divisions do
  have hchain : ∀ state node, node ∈ (changed (.ofSize alphabetSize) changes).alphabet.chain state ↔
      ∃ steps, state / (max alphabetSize 1 + 1) ^ steps = node := fun state node => by
    rw [htracks.alphabet_eq]
    exact Alphabet.mem_chain_iff
  refine ⟨_, Checked.foldlM_apply ⟨_, _, tracks_new _⟩ hfew, rfl, ?_, ?_, ?_, ?_⟩
  · intro node
    simp only [← hchain]
    exact (hbelow node).trans (below_eq_ncard _ node)
  · exact (hbelow 0).trans (below_root _)
  · intro node
    rw [changed] at hbelow hchain
    rw [hbelow, below, List.countP_eq_zero]
    simp only [decide_eq_true_eq, hchain, not_exists, has, OrderedMap.contains_iff_mem_keys]
  · intro node count hget
    have hcounted := htracks.counted node
    rw [changed] at hcounted
    rw [hget] at hcounted
    split at hcounted
    · cases hcounted
    · next hne =>
      obtain rfl : count = _ := Option.some.inj hcounted
      exact Nat.pos_of_ne_zero hne

/-- Two states are stored, one of them named twice. Another one below it is added twice, and a
member is removed, as is a state that is none. -/
def sharedChanges : List Change := [.load [3, 4, 3], .add 16, .add 16, .remove 4, .remove 9]

/-- The first state counts itself and the one below it. -/
theorem reachable_of_changes_shared : ∃ set,
    sharedChanges.foldlM Checked.apply (new (.ofSize 4)) = some set ∧
    set.reachable 0 = 2 ∧ set.reachable 3 = 2 ∧ set.reachable 4 = 0 := by
  have hfew : ∀ done ∈ sharedChanges.inits, (changed (.ofSize 4) done).size < 2 ^ 32 := by
    decide +kernel
  obtain ⟨set, hrun, hset, -, -, -, -⟩ := reachable_of_changes 4 sharedChanges fun done hdone =>
    hfew done ((List.mem_inits done _).2 hdone)
  refine ⟨set, hrun, ?_⟩
  rw [hset]
  decide +kernel

end StateSet

end Concordance
