import Concordance.Proofs.Operations
import Concordance.Proofs.RecordFile.SavedStates
import Concordance.Proofs.Typo.StateSets
import Mathlib.Data.Finset.Basic
import Mathlib.Data.List.DropRight

set_option relaxedAutoImplicit false
set_option autoImplicit false

/-!
# Differences from what is stored

A set of states agrees with what is stored right after it was loaded or its differences were taken.
Whatever is done to it from then on, its notes are the two differences between its members and the
ones it had then, with no state in both of them. So they can be stored in any order, one state after
the other, and then exactly the members are stored.

## Main definitions

* `Concordance.StateSet.Change`, `changed` — what is done to a set of states.
* `Concordance.StateSet.settled` — the changes up to the last time when the set agreed with what is
  stored.
* `Concordance.StateSet.Edit` — a difference of one state, for a set and for a file of states.

## Main results

* `Concordance.StateSet.tracks_changed` — a set tracks its members and those it had when it agreed
  with what is stored.
* `Concordance.StateSet.deltas_of_changes` — the notes of a set are exact, and storing them stores
  its members.
-/

namespace Concordance

/-! ## Ordered sets as finite sets -/

namespace OrderedSet

variable {κ : Type} [Ord κ] [DecidableEq κ]

/-- The members of an ordered set. -/
def toFinset (set : OrderedSet κ) : Finset κ := set.keys.toFinset

variable [Std.LawfulEqOrd κ] {set other : OrderedSet κ} {k : κ}

/-- The members of a set are those that it contains. -/
lemma mem_toFinset : k ∈ set.toFinset ↔ set.contains k = true := by
  rw [toFinset, List.mem_toFinset, OrderedMap.contains_iff_mem_keys]

/-- An ordered set is determined by its members. -/
lemma toFinset_inj [Std.TransOrd κ] : set.toFinset = other.toFinset ↔ set = other := by
  constructor
  · intro h
    apply OrderedMap.ext_get?
    intro k
    have hk : (set.get? k).isSome ↔ (other.get? k).isSome := by
      show set.contains k = true ↔ other.contains k = true
      rw [← mem_toFinset, ← mem_toFinset, h]
    cases hset : set.get? k <;> cases hother : other.get? k
    · rfl
    · simp [hset, hother] at hk
    · simp [hset, hother] at hk
    · rfl
  · rintro rfl
    rfl

end OrderedSet

namespace StateSet

/-! ## Changes -/

/-- What is done to a set of states. -/
inductive Change
  | load (states : List Nat)
  | add (state : Nat)
  | remove (state : Nat)
  | takeDeltas

/-- A set after a change. -/
def Change.apply (set : StateSet) : Change → StateSet
  | load states => set.load states
  | add state => set.add state
  | remove state => set.remove state
  | takeDeltas => set.takeDeltas.2

/-- Whether a set agrees with what is stored after a change. -/
def Change.settles : Change → Bool
  | load _ | takeDeltas => true
  | add _ | remove _ => false

/-- A set that starts without members, after some changes. -/
def changed (alphabet : Alphabet) (changes : List Change) : StateSet :=
  changes.foldl Change.apply (new alphabet)

/-- The changes up to the last time when the set agreed with what is stored. -/
def settled (changes : List Change) : List Change :=
  changes.rdropWhile fun change => !change.settles

variable {set : StateSet} {alphabet : Alphabet} {members stored : Set Nat}

/-- The last of several changes is done to what the others lead to. -/
lemma changed_concat (changes : List Change) (change : Change) :
    changed alphabet (changes ++ [change]) = change.apply (changed alphabet changes) := by
  simp [changed]

/-- The changes up to the last agreement reach to the end if the last change makes the set agree,
and otherwise to where they reached before. -/
lemma settled_concat (changes : List Change) (change : Change) :
    settled (changes ++ [change]) =
      if change.settles then changes ++ [change] else settled changes := by
  rw [settled, List.rdropWhile_concat]
  cases change.settles <;> rfl

/-- The members of a set. -/
def memberSet (set : StateSet) : Set Nat := {state | set.has state = true}

/-- The finite set of the members has just the members. -/
lemma coe_toFinset_members (set : StateSet) : (set.members.toFinset : Set Nat) = set.memberSet := by
  ext state
  exact OrderedSet.mem_toFinset

/-- A set tracks no other members than its own. -/
lemma Tracks.members_eq (h : set.Tracks alphabet members stored) : members = set.memberSet :=
  Set.ext fun state => (h.has_iff state).symm

/-- What a set tracks after a change.

**Proof sketch.** By the kinds of changes, each of which tracks the members it says. -/
lemma Tracks.apply (h : set.Tracks alphabet members stored) (change : Change) :
    (change.apply set).Tracks alphabet (change.apply set).memberSet
      (if change.settles then (change.apply set).memberSet else stored) := by
  cases change with
  | load states =>
    have hload := tracks_load set states
    rw [h.alphabet_eq] at hload
    have heq := hload.members_eq
    rw [heq] at hload
    exact hload
  | add state =>
    have hadd := h.add state
    rwa [hadd.members_eq] at hadd
  | remove state =>
    have hremove := h.remove state
    rwa [hremove.members_eq] at hremove
  | takeDeltas =>
    have htaken := h.takeDeltas
    have heq := htaken.members_eq
    rw [heq] at htaken
    exact htaken

/-- A set tracks its members, and those it had when it last agreed with what is stored.

**Proof sketch.** Induction on the changes from behind. A change that settles makes the members what
is stored, and any other one leaves that as it was. -/
theorem tracks_changed (alphabet : Alphabet) (changes : List Change) :
    (changed alphabet changes).Tracks alphabet (changed alphabet changes).memberSet
      (changed alphabet (settled changes)).memberSet := by
  induction changes using List.reverseRecOn with
  | nil =>
    have hnew := tracks_new alphabet
    have heq := hnew.members_eq
    rw [heq] at hnew
    exact hnew
  | append_singleton changes change ih =>
    have hchange := ih.apply change
    rw [← changed_concat] at hchange
    rw [settled_concat]
    cases hsettles : change.settles with
    | true => simpa [hsettles] using hchange
    | false => simpa [hsettles] using hchange

/-! ## Storing differences -/

/-- A state that is stored or no longer stored. -/
inductive Edit
  | insert (state : Nat)
  | erase (state : Nat)
  deriving DecidableEq

/-- What is stored after a difference is. -/
def Edit.apply (stored : Finset Nat) : Edit → Finset Nat
  | insert state => Insert.insert state stored
  | erase state => stored.erase state

/-- A difference is written into a file of states. -/
def Edit.write : Edit → RecordFile.Op TypoState Unit
  | insert state => RecordFile.upsert ⟨state⟩ .replace
  | erase state => do
    let _ ← RecordFile.delete (.number state)

/-- What is stored after differences of which no two contradict each other.

**Proof sketch.** Induction on the differences. No state is both inserted and erased, so the order
does not matter. -/
lemma mem_foldl_apply {edits : List Edit}
    (hclear : ∀ state, .insert state ∈ edits → .erase state ∉ edits) (stored : Finset Nat)
    (state : Nat) : state ∈ edits.foldl Edit.apply stored ↔
      .insert state ∈ edits ∨ state ∈ stored ∧ .erase state ∉ edits := by
  induction edits generalizing stored with
  | nil => simp
  | cons edit edits ih =>
    have hrest : ∀ other, .insert other ∈ edits → .erase other ∉ edits := fun other hin hout =>
      hclear other (List.mem_cons_of_mem _ hin) (List.mem_cons_of_mem _ hout)
    rw [List.foldl_cons, ih hrest]
    cases edit with
    | insert first =>
      have hfirst := hclear first List.mem_cons_self
      simp only [Edit.apply, Finset.mem_insert, List.mem_cons, Edit.insert.injEq, reduceCtorEq,
        false_or] at hfirst ⊢
      by_cases heq : state = first
      · subst heq
        simp [hfirst]
      · simp [heq]
    | erase first =>
      have hfirst : .insert first ∉ edits := fun hin =>
        hclear first (List.mem_cons_of_mem _ hin) List.mem_cons_self
      simp only [Edit.apply, Finset.mem_erase, List.mem_cons, Edit.erase.injEq, reduceCtorEq,
        false_or]
      by_cases heq : state = first
      · subst heq
        simp [hfirst]
      · simp [heq]

/-- Writing differences into a file does to its states what storing them does to a set.

**Proof sketch.** Induction on the differences: each of them does to the states of the file what
storing it does to the set. -/
lemma exists_forM_write {name : String} {minWidth : Nat} (edits : List Edit)
    (hlt : ∀ state, .insert state ∈ edits → state < 2 ^ 64) {file : RecordFile TypoState}
    {stored : Finset Nat} (h : file.Saves name minWidth (some .readWrite) stored) :
    ∃ file', edits.forM Edit.write file = .ok () file' ∧
      file'.Saves name minWidth (some .readWrite) (edits.foldl Edit.apply stored : Finset Nat) := by
  induction edits generalizing file stored with
  | nil => exact ⟨file, rfl, h⟩
  | cons edit edits ih =>
    have hfirst : ∃ first, edit.write file = .ok () first ∧
        first.Saves name minWidth (some .readWrite) (edit.apply stored) := by
      cases edit with
      | insert state =>
        obtain ⟨first, hrun, hfirst⟩ := h.insert (hlt state List.mem_cons_self)
        refine ⟨first, hrun, ?_⟩
        rwa [Edit.apply, Finset.coe_insert]
      | erase state =>
        obtain ⟨present, first, hrun, hfirst⟩ := h.remove state
        refine ⟨first, Operation.bind_ok hrun _, ?_⟩
        rwa [Edit.apply, Finset.coe_erase]
    obtain ⟨first, hrun, hfirst⟩ := hfirst
    obtain ⟨file', hrest, hfile'⟩ :=
      ih (fun state hstate => hlt state (List.mem_cons_of_mem _ hstate)) hfirst
    exact ⟨file', (Operation.bind_ok hrun _).trans hrest, hfile'⟩

/-- **The differences of a set are exact.** A set starts without members, and is loaded, added to,
removed from and relieved of its differences in any order. At any time, none of the states that it
notes as added was a member when it last agreed with what is stored, all those that it notes as
removed were, and its members are the ones from then without those removed and with those added. It
is dirty iff its members are others. Once the differences that it hands out have been stored, in
whatever order, what was stored has become its members, in a set as in a file of states.

**Proof sketch.** Every change keeps what the set tracks: its members and those from when it agreed
with what is stored, with the notes as the two differences between them. No state is in both, so the
order in which they are stored does not matter. -/
theorem deltas_of_changes (alphabetSize : Nat) (changes : List Change) :
    let set := changed (.ofSize alphabetSize) changes
    let before := changed (.ofSize alphabetSize) (settled changes)
    Disjoint set.added.toFinset before.members.toFinset ∧
    set.removed.toFinset ⊆ before.members.toFinset ∧
    Disjoint set.added.toFinset set.removed.toFinset ∧
    set.members.toFinset =
      before.members.toFinset \ set.removed.toFinset ∪ set.added.toFinset ∧
    (set.isDirty = true ↔ set.members ≠ before.members) ∧
    ∀ edits : List Edit,
      edits.Perm (set.takeDeltas.1.1.map .insert ++ set.takeDeltas.1.2.map .erase) →
        edits.foldl Edit.apply before.members.toFinset = set.members.toFinset ∧
        ((∀ state ∈ set.members.toFinset, state < 2 ^ 64) →
          ∀ (name : String) (minWidth : Nat) (file : RecordFile TypoState),
            file.Saves name minWidth (some .readWrite) before.members.toFinset →
              ∃ file', edits.forM Edit.write file = .ok () file' ∧
                file'.Saves name minWidth (some .readWrite) set.members.toFinset) := by
  intro set before
  have htracks : set.Tracks (.ofSize alphabetSize) set.memberSet before.memberSet :=
    tracks_changed (.ofSize alphabetSize) changes
  have hmember : ∀ state, state ∈ set.members.toFinset ↔ state ∈ set.memberSet := fun state =>
    OrderedSet.mem_toFinset
  have hbefore : ∀ state, state ∈ before.members.toFinset ↔ state ∈ before.memberSet :=
    fun state => OrderedSet.mem_toFinset
  have hadded : ∀ state, state ∈ set.added.toFinset ↔
      state ∈ set.members.toFinset ∧ state ∉ before.members.toFinset := by
    intro state
    rw [OrderedSet.mem_toFinset, htracks.added_iff, hmember, hbefore]
  have hremoved : ∀ state, state ∈ set.removed.toFinset ↔
      state ∈ before.members.toFinset ∧ state ∉ set.members.toFinset := by
    intro state
    rw [OrderedSet.mem_toFinset, htracks.removed_iff, hmember, hbefore]
  refine ⟨?_, ?_, ?_, ?_, ?_, fun edits hedits => ?_⟩
  · exact Finset.disjoint_left.2 fun state hin => ((hadded state).1 hin).2
  · exact fun state hout => ((hremoved state).1 hout).1
  · exact Finset.disjoint_left.2 fun state hin hout =>
      ((hremoved state).1 hout).2 ((hadded state).1 hin).1
  · ext state
    simp only [Finset.mem_union, Finset.mem_sdiff, hadded, hremoved]
    tauto
  · rw [Ne, ← OrderedSet.toFinset_inj, ← Finset.coe_inj, coe_toFinset_members,
      coe_toFinset_members]
    constructor
    · intro hdirty heq
      rw [← heq] at htracks
      rw [htracks.isDirty_eq_false] at hdirty
      cases hdirty
    · intro hne
      by_contra hclean
      exact hne (htracks.eq_of_not_isDirty (by simpa using hclean))
  -- an edit is among the differences iff its state is
  have hinsert : ∀ state, .insert state ∈ edits ↔ state ∈ set.added.toFinset := by
    intro state
    rw [hedits.mem_iff]
    simp [takeDeltas, OrderedSet.toFinset]
  have herase : ∀ state, .erase state ∈ edits ↔ state ∈ set.removed.toFinset := by
    intro state
    rw [hedits.mem_iff]
    simp [takeDeltas, OrderedSet.toFinset]
  have hstored : edits.foldl Edit.apply before.members.toFinset = set.members.toFinset := by
    ext state
    rw [mem_foldl_apply fun other hin hout =>
      ((hremoved other).1 ((herase other).1 hout)).2 ((hadded other).1 ((hinsert other).1 hin)).1]
    rw [hinsert, herase, hadded, hremoved]
    tauto
  refine ⟨hstored, fun hlt name minWidth file hfile => ?_⟩
  have hwritten := exists_forM_write edits (fun state hin =>
    hlt state ((hadded state).1 ((hinsert state).1 hin)).1) hfile
  rwa [hstored] at hwritten

/-- Two states are stored. One of them is removed, and of two others that are added one is removed
again. -/
def cancelledChanges : List Change := [.load [7, 8], .add 3, .add 9, .remove 7, .remove 3]

/-- The set differs by one state on each side. It does not matter which of them is stored first. -/
theorem deltas_of_changes_cancelled :
    (changed (.ofSize 4) cancelledChanges).takeDeltas.1 = ([9], [7]) ∧
    (changed (.ofSize 4) cancelledChanges).isDirty = true ∧
    ∃ file file' : RecordFile TypoState,
      file.Saves "states.json" 12 (some .readWrite) ({7, 8} : Finset Nat) ∧
      [Edit.erase 7, .insert 9].forM Edit.write file = .ok () file' ∧
      file'.Saves "states.json" 12 (some .readWrite) ({8, 9} : Finset Nat) := by
  obtain ⟨-, -, -, -, hdirty, hstore⟩ := deltas_of_changes 4 cancelledChanges
  have hbefore : (changed (.ofSize 4) (settled cancelledChanges)).members.toFinset = {7, 8} := by
    decide +kernel
  have hmembers : (changed (.ofSize 4) cancelledChanges).members.toFinset = {8, 9} := by
    decide +kernel
  have htaken : (changed (.ofSize 4) cancelledChanges).takeDeltas.1 = ([9], [7]) := by
    decide +kernel
  refine ⟨htaken, hdirty.2 fun heq => ?_, ?_⟩
  · rw [← OrderedSet.toFinset_inj, hmembers, hbefore] at heq
    exact absurd heq (by decide)
  -- a file with the two states that are stored
  have hempty : (.new "states.json" 12 (some []) : RecordFile TypoState).Holds "states.json" 12 none
      ∅ := RecordFile.holds_empty "states.json" 12 rfl
  obtain ⟨opened, -, hopened⟩ := hempty.openIn (.inl rfl)
  have hsaves : opened.Saves "states.json" 12 (some .readWrite) ∅ := hopened.saves_empty
  rw [← Finset.coe_empty] at hsaves
  obtain ⟨file, -, hfile⟩ := exists_forM_write [.insert 7, .insert 8] (by simp) hsaves
  have hboth : [Edit.insert 7, .insert 8].foldl Edit.apply ∅ = {7, 8} := by decide
  rw [hboth] at hfile
  obtain ⟨-, hwrite⟩ := hstore [.erase 7, .insert 9] (by rw [htaken]; decide)
  rw [hmembers, hbefore] at hwrite
  obtain ⟨file', hrun, hfile'⟩ := hwrite (by decide) "states.json" 12 file hfile
  exact ⟨file, file', hfile, hrun, hfile'⟩

end StateSet

end Concordance
