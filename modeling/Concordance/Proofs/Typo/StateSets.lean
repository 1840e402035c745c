import Concordance.Proofs.OrderedMaps
import Concordance.Typo.StateSet
import Mathlib.Data.Set.Insert
import Mathlib.Order.BooleanAlgebra.Set

set_option relaxedAutoImplicit false
set_option autoImplicit false

/-!
# Sets of states and their counts

What a set of states remembers beside its members follows from the members: the nodes with members
at or below them, each with their number, and how the members differ from what is stored.

## Main definitions

* `Concordance.StateSet.below` — how many members are at or below a node.
* `Concordance.StateSet.Tracks` — a set has given members, differs from what is stored as it notes,
  and counts its members.
* `Concordance.StateSet.Differ` — two sets note how one set of states differs from another.
* `Concordance.StateSet.Built` — a set starts without members and is changed in any way.

## Main results

* `Concordance.StateSet.tracks_load` — a set that is loaded has the stored members.
* `Concordance.StateSet.Tracks.add`, `remove` — what a change does to the members.
* `Concordance.StateSet.Built.exists_tracks` — a set that is built tracks its members.
-/

namespace Concordance

/-! ## Chains of nodes -/

namespace Alphabet

variable {a : Alphabet}

/-- The nodes on the way to the root are no larger than the state. -/
lemma mem_chain_le {node state : Nat} (h : node ∈ a.chain state) : node ≤ state := by
  fun_induction a.chain state with
  | case1 => simpa using h
  | case2 state hstate ih =>
    rcases List.mem_cons.1 h with rfl | h
    · exact Nat.le_refl _
    · exact Nat.le_trans (ih h) (Nat.div_le_self _ _)

/-- No node is twice on the way to the root. -/
lemma nodup_chain (state : Nat) : (a.chain state).Nodup := by
  fun_induction a.chain state with
  | case1 => simp
  | case2 state hstate ih =>
    refine List.nodup_cons.2 ⟨fun h => ?_, ih⟩
    have hle := mem_chain_le h
    have hlt : state / a.base < state := Nat.div_lt_self (by omega) a.two_le_base
    omega

end Alphabet

namespace StateSet

/-! ## Counting -/

/-- The number of members at or below a node. -/
def below (set : StateSet) (node : Nat) : Nat :=
  set.members.keys.countP fun state => node ∈ set.alphabet.chain state

/-- The counts of a set are those of its members, and no count is zero. -/
def Counted (set : StateSet) : Prop :=
  ∀ node, set.counts.get? node = if set.below node = 0 then none else some (set.below node)

/-- A way of counting changes the count of one node, by what it was, and no other. -/
def Recounts (step : OrderedMap Nat Nat → Nat → OrderedMap Nat Nat)
    (recount : Option Nat → Option Nat) : Prop :=
  ∀ counts first node, (step counts first).get? node =
    if node = first then recount (counts.get? first) else counts.get? node

/-- Different nodes that are counted one after the other have their counts changed once each.

**Proof sketch.** Induction on the nodes: the first is not among the others, so its count has
changed when the others are counted, and they leave it as it is. -/
lemma Recounts.get?_foldl {step : OrderedMap Nat Nat → Nat → OrderedMap Nat Nat}
    {recount : Option Nat → Option Nat} (hstep : Recounts step recount) {nodes : List Nat}
    (h : nodes.Nodup) (counts : OrderedMap Nat Nat) (node : Nat) :
    (nodes.foldl step counts).get? node =
      if node ∈ nodes then recount (counts.get? node) else counts.get? node := by
  induction nodes generalizing counts with
  | nil => simp
  | cons first nodes ih =>
    obtain ⟨hfirst, hnodes⟩ := List.nodup_cons.1 h
    rw [List.foldl_cons, ih hnodes, hstep]
    by_cases heq : node = first
    · subst heq
      simp [hfirst]
    · simp [heq]

/-- Counting up adds one to the count of a node. -/
lemma recounts_countUp : Recounts countUp fun count => some (count.getD 0 + 1) := by
  intro counts first node
  unfold countUp
  split
  · next h =>
    rw [h]
    exact OrderedMap.get?_insert_self
  · next h => exact OrderedMap.get?_insert_of_ne h

/-- Counting down takes one from the count of a node, and no count of zero is kept.

**Proof sketch.** By the count of the node that is counted down: there is none, it is one and goes,
or it is taken down by one. -/
lemma recounts_countDown :
    Recounts countDown fun count => count.bind fun n => if n ≤ 1 then none else some (n - 1) := by
  intro counts first node
  unfold countDown
  cases hget : counts.get? first with
  | none =>
    by_cases heq : node = first
    · subst heq
      simp [hget]
    · simp [heq]
  | some n =>
    by_cases hn : n ≤ 1
    · by_cases heq : node = first
      · subst heq
        simp [hn, OrderedMap.get?_erase_self]
      · simp [hn, heq, OrderedMap.get?_erase_of_ne]
    · by_cases heq : node = first
      · subst heq
        simp [hn, OrderedMap.get?_insert_self]
      · simp [hn, heq, OrderedMap.get?_insert_of_ne]

/-- A new member is below the nodes on its way to the root. -/
lemma below_enter {set : StateSet} {state : Nat} (h : set.has state = false) (node : Nat) :
    (set.enter state).below node =
      set.below node + if node ∈ set.alphabet.chain state then 1 else 0 := by
  have hperm : (set.enter state).members.keys.Perm (state :: set.members.keys) :=
    OrderedMap.keys_insert_perm () h
  unfold below
  rw [hperm.countP_eq, List.countP_cons]
  simp only [decide_eq_true_eq]
  rfl

/-- A member that leaves was below the nodes on its way to the root. -/
lemma below_leave {set : StateSet} {state : Nat} (h : set.has state = true) (node : Nat) :
    set.below node =
      (set.leave state).below node + if node ∈ set.alphabet.chain state then 1 else 0 := by
  have hperm : set.members.keys.Perm (state :: (set.leave state).members.keys) :=
    OrderedMap.keys_erase_perm h
  unfold below
  rw [hperm.countP_eq, List.countP_cons]
  simp only [decide_eq_true_eq]
  rfl

/-- A new member is counted on its way to the root. -/
lemma Counted.enter {set : StateSet} (hset : set.Counted) {state : Nat}
    (h : set.has state = false) : (set.enter state).Counted := by
  intro node
  rw [below_enter h]
  change ((set.alphabet.chain state).foldl countUp set.counts).get? node = _
  rw [recounts_countUp.get?_foldl (Alphabet.nodup_chain state), hset node]
  by_cases hnode : node ∈ set.alphabet.chain state
  · by_cases hzero : set.below node = 0 <;> simp [hnode, hzero]
  · simp [hnode]

/-- A member that leaves is counted no longer on its way to the root. -/
lemma Counted.leave {set : StateSet} (hset : set.Counted) {state : Nat}
    (h : set.has state = true) : (set.leave state).Counted := by
  intro node
  have hbelow := below_leave h node
  change ((set.alphabet.chain state).foldl countDown set.counts).get? node = _
  rw [recounts_countDown.get?_foldl (Alphabet.nodup_chain state), hset node, hbelow]
  by_cases hnode : node ∈ set.alphabet.chain state
  · by_cases hzero : (set.leave state).below node = 0 <;> simp [hnode, hzero]
  · simp [hnode]

/-! ## Members and differences -/

/-- A set over an alphabet has certain members, while certain states are stored. Its notes say how
these differ, and it counts its members. -/
structure Tracks (set : StateSet) (alphabet : Alphabet) (members stored : Set Nat) : Prop where
  alphabet_eq : set.alphabet = alphabet
  has_iff : ∀ state, set.has state = true ↔ state ∈ members
  added_iff : ∀ state, set.added.contains state = true ↔ state ∈ members ∧ state ∉ stored
  removed_iff : ∀ state, set.removed.contains state = true ↔ state ∈ stored ∧ state ∉ members
  counted : set.Counted

variable {set : StateSet} {alphabet : Alphabet} {members stored : Set Nat}

/-- A new set has no members, and nothing is stored. -/
lemma tracks_new (alphabet : Alphabet) : (new alphabet).Tracks alphabet ∅ ∅ := by
  refine ⟨rfl, fun state => ?_, fun state => ?_, fun state => ?_, fun node => rfl⟩
  · simp [new, has, OrderedMap.contains, Set.mem_empty_iff_false]
  · simp [new, OrderedMap.contains, Set.mem_empty_iff_false]
  · simp [new, OrderedMap.contains, Set.mem_empty_iff_false]

/-- The members after one entered are that one and those before. -/
lemma has_enter (set : StateSet) (state other : Nat) :
    (set.enter state).has other = true ↔ other = state ∨ set.has other = true :=
  OrderedMap.contains_insert

/-- The members after one left are the others. -/
lemma has_leave (set : StateSet) (state other : Nat) :
    (set.leave state).has other = true ↔ other ≠ state ∧ set.has other = true :=
  OrderedMap.contains_erase

/-- A loaded set has a state entered unless it has it already. -/
lemma Tracks.load_one (h : set.Tracks alphabet members members) (state : Nat) :
    (if set.has state then set else set.enter state).Tracks alphabet (insert state members)
      (insert state members) := by
  by_cases hhas : set.has state = true
  · rw [if_pos hhas, Set.insert_eq_of_mem ((h.has_iff state).1 hhas)]
    exact h
  · rw [if_neg hhas]
    refine ⟨h.alphabet_eq, fun other => ?_, fun other => ?_, fun other => ?_,
      h.counted.enter (by simpa using hhas)⟩
    · rw [has_enter, h.has_iff, Set.mem_insert_iff]
    · change set.added.contains other = true ↔ _
      rw [h.added_iff, and_not_self_iff, and_not_self_iff]
    · change set.removed.contains other = true ↔ _
      rw [h.removed_iff, and_not_self_iff, and_not_self_iff]

/-- Loading goes through the states one by one. -/
lemma Tracks.load_all (h : set.Tracks alphabet members members) (states : List Nat) :
    (states.foldl (fun set state => if set.has state then set else set.enter state) set).Tracks
      alphabet (members ∪ {state | state ∈ states}) (members ∪ {state | state ∈ states}) := by
  induction states generalizing set members with
  | nil => simpa using h
  | cons state states ih =>
    have hset : members ∪ {other | other ∈ state :: states} =
        insert state members ∪ {other | other ∈ states} := by
      ext other
      simp only [Set.mem_union, Set.mem_insert_iff, Set.mem_ofPred_eq, List.mem_cons]
      tauto
    rw [hset]
    exact ih (h.load_one state)

/-- A set that is loaded has the stored states as its members. -/
theorem tracks_load (set : StateSet) (states : List Nat) :
    (set.load states).Tracks set.alphabet {s | s ∈ states} {s | s ∈ states} := by
  have hloaded := (tracks_new set.alphabet).load_all states
  rw [Set.empty_union] at hloaded
  exact hloaded

/-! ## Differences -/

/-- One set holds the states that are in a set now and were not before, another those that were and
are not. -/
structure Differ (gained lost : OrderedSet Nat) (now before : Set Nat) : Prop where
  gained_iff : ∀ state, gained.contains state = true ↔ state ∈ now ∧ state ∉ before
  lost_iff : ∀ state, lost.contains state = true ↔ state ∈ before ∧ state ∉ now

namespace Differ

variable {gained lost : OrderedSet Nat} {now before : Set Nat} {state : Nat}

/-- What one set gains its complement loses. -/
lemma compl (h : Differ gained lost now before) : Differ lost gained nowᶜ beforeᶜ := by
  refine ⟨fun state => (h.lost_iff state).trans ?_, fun state => (h.gained_iff state).trans ?_⟩
  · simp only [Set.mem_compl_iff, not_not, and_comm]
  · simp only [Set.mem_compl_iff, not_not, and_comm]

/-- A state that was lost comes back. -/
lemma insert_of_lost (h : Differ gained lost now before) (hlost : lost.contains state = true) :
    Differ gained (lost.erase state) (insert state now) before := by
  have hbefore := ((h.lost_iff state).1 hlost).1
  refine ⟨fun other => ?_, fun other => ?_⟩
  · rw [h.gained_iff, Set.mem_insert_iff]
    constructor
    · exact fun ⟨hnow, hother⟩ => ⟨.inr hnow, hother⟩
    · rintro ⟨rfl | hnow, hother⟩
      · exact absurd hbefore hother
      · exact ⟨hnow, hother⟩
  · rw [OrderedMap.contains_erase, h.lost_iff, Set.mem_insert_iff]
    tauto

/-- A state comes in that was not lost.

**Proof sketch.** A state that was not lost and is not a member was no member before either, so it
is gained. -/
lemma insert_of_not_lost (h : Differ gained lost now before) (hnow : state ∉ now)
    (hlost : ¬ lost.contains state = true) :
    Differ (gained.add state) lost (insert state now) before := by
  have hbefore : state ∉ before := fun hmem => hlost ((h.lost_iff state).2 ⟨hmem, hnow⟩)
  refine ⟨fun other => ?_, fun other => ?_⟩
  · rw [OrderedSet.add, OrderedMap.contains_insert, h.gained_iff, Set.mem_insert_iff]
    constructor
    · rintro (rfl | ⟨hmem, hother⟩)
      · exact ⟨.inl rfl, hbefore⟩
      · exact ⟨.inr hmem, hother⟩
    · rintro ⟨rfl | hmem, hother⟩
      · exact .inl rfl
      · exact .inr ⟨hmem, hother⟩
  · rw [h.lost_iff, Set.mem_insert_iff]
    constructor
    · rintro ⟨hmem, hother⟩
      refine ⟨hmem, ?_⟩
      rintro (rfl | hother')
      · exact hbefore hmem
      · exact hother hother'
    · exact fun ⟨hmem, hother⟩ => ⟨hmem, fun hother' => hother (.inr hother')⟩

/-- Putting a state into the complement of a set is taking it from the set. -/
lemma compl_insert_compl (state : Nat) (now : Set Nat) : (insert state nowᶜ)ᶜ = now \ {state} := by
  ext other
  simp only [Set.mem_compl_iff, Set.mem_insert_iff, Set.mem_sdiff, Set.mem_singleton_iff]
  tauto

/-- A state that was gained goes again. -/
lemma remove_of_gained (h : Differ gained lost now before)
    (hgained : gained.contains state = true) :
    Differ (gained.erase state) lost (now \ {state}) before := by
  have hremoved := (h.compl.insert_of_lost hgained).compl
  rw [compl_insert_compl, compl_compl] at hremoved
  exact hremoved

/-- A state goes that was not gained. -/
lemma remove_of_not_gained (h : Differ gained lost now before) (hnow : state ∈ now)
    (hgained : ¬ gained.contains state = true) :
    Differ gained (lost.add state) (now \ {state}) before := by
  have hremoved := (h.compl.insert_of_not_lost (fun hnot => hnot hnow) hgained).compl
  rw [compl_insert_compl, compl_compl] at hremoved
  exact hremoved

end Differ

namespace Tracks

/-- The notes of a set are what its members and the stored states differ in. -/
lemma differ (h : set.Tracks alphabet members stored) :
    Differ set.added set.removed members stored :=
  ⟨h.added_iff, h.removed_iff⟩

/-- A state that is added becomes a member.

**Proof sketch.** By whether the state is a member already and, if not, whether it was noted as
removed: then this note goes, and otherwise the state is noted as added. -/
theorem add (h : set.Tracks alphabet members stored) (state : Nat) :
    (set.add state).Tracks alphabet (insert state members) stored := by
  unfold StateSet.add
  by_cases hhas : set.has state = true
  · rw [if_pos hhas, Set.insert_eq_of_mem ((h.has_iff state).1 hhas)]
    exact h
  · have hnot : state ∉ members := fun hmem => hhas ((h.has_iff state).2 hmem)
    have hcounted := h.counted.enter (by simpa using hhas : set.has state = false)
    have hhas' : ∀ other, (set.enter state).has other = true ↔ other ∈ insert state members := by
      intro other
      rw [has_enter, h.has_iff, Set.mem_insert_iff]
    rw [if_neg hhas]
    by_cases hremoved : set.removed.contains state = true
    · have hdiffer := h.differ.insert_of_lost hremoved
      simp only [StateSet.enter, hremoved, if_true]
      exact ⟨h.alphabet_eq, hhas', hdiffer.gained_iff, hdiffer.lost_iff, hcounted⟩
    · have hdiffer := h.differ.insert_of_not_lost hnot hremoved
      simp only [StateSet.enter, hremoved]
      exact ⟨h.alphabet_eq, hhas', hdiffer.gained_iff, hdiffer.lost_iff, hcounted⟩

/-- A state that is removed is no longer a member.

**Proof sketch.** By whether the state is a member and, if so, whether it was noted as added: then
the note goes, and otherwise the removal is noted. -/
theorem remove (h : set.Tracks alphabet members stored) (state : Nat) :
    (set.remove state).Tracks alphabet (members \ {state}) stored := by
  unfold StateSet.remove
  by_cases hhas : set.has state = true
  · have hmember := (h.has_iff state).1 hhas
    have hcounted := h.counted.leave hhas
    have hhas' : ∀ other, (set.leave state).has other = true ↔ other ∈ members \ {state} := by
      intro other
      rw [has_leave, h.has_iff, Set.mem_sdiff, Set.mem_singleton_iff, and_comm]
    rw [if_pos hhas]
    by_cases hadded : set.added.contains state = true
    · have hdiffer := h.differ.remove_of_gained hadded
      simp only [StateSet.leave, hadded, if_true]
      exact ⟨h.alphabet_eq, hhas', hdiffer.gained_iff, hdiffer.lost_iff, hcounted⟩
    · have hdiffer := h.differ.remove_of_not_gained hmember hadded
      simp only [StateSet.leave, hadded]
      exact ⟨h.alphabet_eq, hhas', hdiffer.gained_iff, hdiffer.lost_iff, hcounted⟩
  · have hnot : state ∉ members := fun hmem => hhas ((h.has_iff state).2 hmem)
    rw [if_neg hhas, Set.sdiff_singleton_eq_self hnot]
    exact h

/-- A set that is not dirty has the stored states as its members. -/
lemma eq_of_not_isDirty (h : set.Tracks alphabet members stored) (hclean : set.isDirty = false) :
    members = stored := by
  have hboth : set.added.isEmpty = true ∧ set.removed.isEmpty = true := by
    simpa [isDirty] using hclean
  ext state
  have hadded := h.added_iff state
  have hremoved := h.removed_iff state
  rw [OrderedMap.contains_of_isEmpty hboth.1] at hadded
  rw [OrderedMap.contains_of_isEmpty hboth.2] at hremoved
  by_contra hne
  simp only [Bool.false_eq_true, false_iff, not_and, not_not] at hadded hremoved
  exact hne ⟨hadded, hremoved⟩

/-- A set that has the stored states as its members is not dirty. -/
lemma isDirty_eq_false (h : set.Tracks alphabet stored stored) : set.isDirty = false := by
  have hadded : set.added.isEmpty = true := OrderedMap.isEmpty_of_contains fun state => by
    rw [← Bool.not_eq_true, h.added_iff]
    exact and_not_self
  have hremoved : set.removed.isEmpty = true := OrderedMap.isEmpty_of_contains fun state => by
    rw [← Bool.not_eq_true, h.removed_iff]
    exact and_not_self
  simp [isDirty, hadded, hremoved]

/-- A member is added without effect. -/
lemma add_of_mem (h : set.Tracks alphabet members stored) {state : Nat} (hstate : state ∈ members) :
    set.add state = set :=
  if_pos ((h.has_iff state).2 hstate)

/-- Once the differences are stored the set has none. -/
lemma takeDeltas (h : set.Tracks alphabet members stored) :
    set.takeDeltas.2.Tracks alphabet members members := by
  refine ⟨h.alphabet_eq, h.has_iff, fun state => ?_, fun state => ?_, h.counted⟩
  · simp [StateSet.takeDeltas, OrderedMap.contains]
  · simp [StateSet.takeDeltas, OrderedMap.contains]

end Tracks

/-! ## Sets that are built -/

/-- The sets over an alphabet that start without members and are changed in any way. -/
inductive Built (alphabet : Alphabet) : StateSet → Prop
  | new : Built alphabet (new alphabet)
  | load {set : StateSet} (built : Built alphabet set) (states : List Nat) :
    Built alphabet (set.load states)
  | add {set : StateSet} (built : Built alphabet set) (state : Nat) : Built alphabet (set.add state)
  | remove {set : StateSet} (built : Built alphabet set) (state : Nat) :
    Built alphabet (set.remove state)
  | takeDeltas {set : StateSet} (built : Built alphabet set) : Built alphabet set.takeDeltas.2

/-- A set that is built tracks its members, whatever has been done to it.

**Proof sketch.** Induction on how the set was built, by what each change does to what a set tracks.
-/
theorem Built.exists_tracks (h : Built alphabet set) :
    ∃ members stored, set.Tracks alphabet members stored := by
  induction h with
  | new => exact ⟨_, _, tracks_new alphabet⟩
  | @load set _ states ih =>
    obtain ⟨members, stored, htracks⟩ := ih
    exact ⟨_, _, htracks.alphabet_eq ▸ tracks_load set states⟩
  | add _ state ih =>
    obtain ⟨members, stored, htracks⟩ := ih
    exact ⟨_, _, htracks.add state⟩
  | remove _ state ih =>
    obtain ⟨members, stored, htracks⟩ := ih
    exact ⟨_, _, htracks.remove state⟩
  | takeDeltas _ ih =>
    obtain ⟨members, stored, htracks⟩ := ih
    exact ⟨_, _, htracks.takeDeltas⟩

end StateSet

end Concordance
