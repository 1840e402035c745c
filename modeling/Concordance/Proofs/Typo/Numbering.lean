import Concordance.Proofs.Operations
import Concordance.Proofs.Typo.Candidates
import Mathlib.Data.Nat.Log

set_option relaxedAutoImplicit false
set_option autoImplicit false

/-!
# The numbers of states

States are unsigned numbers of 64 bits. Here they are computed once more with every product and
every sum checked: one that no longer has 64 bits puts an end to the computation. The depth of an
automaton is the greatest at which this never happens, whether the state of a term is computed or
the tree of states is walked. Up to there, states are as good as words.

## Main definitions

* `Concordance.Alphabet.Checked.append` — the state of a word with one more letter, checked.
* `Concordance.Alphabet.Checked.Deepens` — the search for the greatest depth ends with a result.
* `Concordance.Automaton.Checked.stateOf`, `walk`, `candidates` — the state of a term, the walk down
  the tree and the candidates with their arithmetic checked.
* `Concordance.Automaton.Numbered` — states have 64 bits and stand for words.

## Main results

* `Concordance.Alphabet.maxDepth_eq_log` — the greatest depth by powers of the base.
* `Concordance.Alphabet.Checked.deepens_iff` — the search for it ends, and with no other result.
* `Concordance.Automaton.Checked.stateOf_eq`, `candidates_eq` — no check fails.
* `Concordance.Automaton.numbers_of_states` — automata are numbered for alphabets of any size.
-/

namespace Concordance

namespace Alphabet

variable {a : Alphabet} {largest depth result node letter : Nat} {word : List Nat}

/-! ## The greatest depth -/

/-- The largest state of a depth is one less than a power of the base, and so is the next one. -/
lemma largest_succ (a : Alphabet) (depth : Nat) :
    (a.base ^ depth - 1) * a.base + a.size = a.base ^ (depth + 1) - 1 := by
  have hpos : 0 < a.base ^ depth := Nat.pow_pos (by have := a.two_le_base; omega)
  have hle : a.base ≤ a.base ^ depth * a.base := Nat.le_mul_of_pos_left _ hpos
  have hsize : a.base = a.size + 1 := rfl
  rw [Nat.sub_mul, Nat.one_mul, Nat.pow_succ]
  omega

/-- Behind words of some letters there is room for as many more as powers of the base are left up
to `2 ^ 64`. -/
lemma room_largest {rest : Nat} (h : depth + rest = Nat.log a.base (2 ^ 64)) :
    a.room (a.base ^ depth - 1) = rest := by
  induction rest generalizing depth with
  | zero =>
    have hlt := Nat.lt_pow_succ_log_self a.two_le_base (2 ^ 64)
    rw [← h, Nat.add_zero, Nat.succ_eq_add_one] at hlt
    rw [room, largest_succ, if_neg (by omega)]
  | succ rest ih =>
    have hle : a.base ^ (depth + 1) ≤ 2 ^ 64 :=
      (Nat.le_log_iff_pow_le a.two_le_base (by decide)).1 (by omega)
    have hpos : 0 < a.base ^ (depth + 1) := Nat.pow_pos (by have := a.two_le_base; omega)
    rw [room, largest_succ, if_pos (by omega), ih (by omega)]

/-- The greatest depth is that of the last power of the base up to `2 ^ 64`. -/
theorem maxDepth_eq_log (a : Alphabet) : a.maxDepth = Nat.log a.base (2 ^ 64) :=
  room_largest (Nat.zero_add _)

/-- There is room for a letter behind a word that is shorter than the greatest depth. -/
lemma state_concat_lt (hword : a.IsWord word) (hlength : word.length < a.maxDepth)
    (hletter : letter ≤ a.size) : a.state (word ++ [letter]) < 2 ^ 64 := by
  refine state_lt (List.forall_mem_append.2 ⟨fun l hl => (hword l hl).2, ?_⟩) ?_
  · exact List.forall_mem_singleton.2 hletter
  · rw [List.length_append, List.length_singleton]
    exact hlength

/-! ## Arithmetic with checks -/

namespace Checked

/-- A number, if it has 64 bits. -/
def fit (n : Nat) : Option Nat := if n < 2 ^ 64 then some n else none

/-- The state of a word with one more letter, if both the product and the sum have 64 bits. -/
def append (a : Alphabet) (node letter : Nat) : Option Nat := do
  let product ← fit (node * a.base)
  fit (product + letter)

/-- The state of a word. -/
def state (a : Alphabet) (word : List Nat) : Option Nat := word.foldlM (append a) 0

/-- The search for the greatest depth has come to a depth and the largest state there. It goes on
with the next one as long as this has 64 bits, and ends with a result. -/
inductive Deepens (a : Alphabet) : (largest depth result : Nat) → Prop
  | done {largest depth : Nat} (h : append a largest a.size = none) : Deepens a largest depth depth
  | deeper {largest next depth result : Nat} (h : append a largest a.size = some next)
    (hrest : Deepens a next (depth + 1) result) : Deepens a largest depth result

/-- A letter is appended if the state fits into 64 bits. -/
lemma append_of_lt (h : node * a.base + letter < 2 ^ 64) :
    append a node letter = some (node * a.base + letter) := by
  have hproduct : fit (node * a.base) = some (node * a.base) := if_pos (by omega)
  rw [append, hproduct]
  exact if_pos h

/-- A product that is too large leaves a sum that is too large as well. -/
lemma append_of_le (h : 2 ^ 64 ≤ node * a.base + letter) : append a node letter = none := by
  unfold append fit
  split
  · exact if_neg (by omega)
  · rfl

/-- **The search for the greatest depth ends**, with the letters for which there is room.

**Proof sketch.** Forwards by induction on the search, backwards by the recursion of the room that
is left. -/
theorem deepens_iff : Deepens a largest depth result ↔ result = depth + a.room largest := by
  constructor
  · intro h
    induction h with
    | @done largest depth hnone =>
      rw [room, if_neg]
      · rfl
      · intro hlt
        rw [append_of_lt hlt] at hnone
        cases hnone
    | @deeper largest next depth result hsome hrest ih =>
      by_cases hlt : largest * a.base + a.size < 2 ^ 64
      · rw [append_of_lt hlt, Option.some_inj] at hsome
        rw [room, if_pos hlt, ih, hsome]
        omega
      · rw [append_of_le (by omega)] at hsome
        cases hsome
  · rintro rfl
    fun_induction a.room largest generalizing depth with
    | case1 largest hlt ih =>
      refine .deeper (append_of_lt hlt) ?_
      have hrest := @ih (depth + 1)
      rwa [Nat.add_right_comm, Nat.add_assoc] at hrest
    | case2 largest hlt => exact .done (append_of_le (by omega))

/-- A letter is appended to every word that is shorter than the greatest depth, and the state is
that of the longer word. -/
lemma append_state (hword : a.IsWord word) (hlength : word.length < a.maxDepth)
    (hletter : letter ≤ a.size) :
    append a (a.state word) letter = some (a.state (word ++ [letter])) := by
  have hlt := state_concat_lt hword hlength hletter
  rw [state_concat] at hlt ⊢
  exact append_of_lt hlt

/-- No check fails for words up to the greatest depth. -/
lemma state_eq (hword : a.IsWord word) (hlength : word.length ≤ a.maxDepth) :
    state a word = some (a.state word) := by
  induction word using List.reverseRecOn with
  | nil => rfl
  | append_singleton word letter ih =>
    obtain ⟨hword, -, hletter⟩ := isWord_concat.1 hword
    rw [List.length_append, List.length_singleton] at hlength
    rw [state] at ih ⊢
    rw [List.foldlM_append, ih hword (by omega), Option.bind_eq_bind, Option.bind_some,
      List.foldlM_cons, append_state hword hlength hletter]
    rfl

end Checked

/-- A state divided by the base is the state of the word without its last letter. -/
lemma state_div_base (hword : a.IsWord word) : a.state word / a.base = a.state word.dropLast := by
  cases word using List.reverseRecOn with
  | nil => exact Nat.zero_div _
  | append_singleton word letter =>
    rw [List.dropLast_concat, state_concat_div word (isWord_concat.1 hword).2.2]

end Alphabet

/-! ## Nodes with members below -/

/-- The nodes with a count are those with members at or below them. -/
lemma StateSet.Counted.mem_keys_iff {set : StateSet} (h : set.Counted) {node : Nat} :
    node ∈ set.counts.keys ↔ 0 < set.reachable node := by
  rw [← OrderedMap.contains_iff_mem_keys, OrderedMap.contains, reachable, h node]
  split
  · next hzero => simp
  · next hpos => simpa using Nat.pos_of_ne_zero hpos

namespace Automaton

variable {automaton : Automaton} {states : StateSet} {query word : List Nat} {limit depth : Nat}

open EditDistance

/-- The children with members at or below them are found by trying all letters.

**Proof sketch.** Both sides are in increasing order, so it is enough that they have the same
members. A node that is counted lies in the range of the children iff it is one letter further. -/
lemma children_eq (hcounted : states.Counted) (node : Nat) : automaton.children states node =
    ((List.range' 1 automaton.alphabet.size).map (node * automaton.alphabet.base + ·)).filter
      (0 < states.reachable ·) := by
  have hchildren : (automaton.children states node).Pairwise (· < ·) :=
    (List.pairwise_map.2 (states.counts.increasing.imp Nat.compare_eq_lt.1)).filter _
  have hall : (((List.range' 1 automaton.alphabet.size).map
      (node * automaton.alphabet.base + ·)).filter (0 < states.reachable ·)).Pairwise (· < ·) :=
    (List.pairwise_map.2 ((List.pairwise_lt_range' 1).imp fun hlt =>
      Nat.add_lt_add_left hlt _)).filter _
  refine List.Perm.eq_of_pairwise (fun _ _ _ _ hlt hlt' => absurd hlt' hlt.asymm) hchildren hall
    ((List.perm_ext_iff_of_nodup (hchildren.imp Nat.ne_of_lt) (hall.imp Nat.ne_of_lt)).2
      fun child => ?_)
  simp only [children, StateSet.occupied, List.mem_filter, hcounted.mem_keys_iff, List.mem_map,
    List.mem_range'_1, Bool.and_eq_true, decide_eq_true_eq]
  constructor
  · rintro ⟨hpos, hlt, hle⟩
    exact ⟨⟨child - node * automaton.alphabet.base, by omega, by omega⟩, hpos⟩
  · rintro ⟨⟨letter, hletter, rfl⟩, hpos⟩
    exact ⟨hpos, by omega, by omega⟩

/-- What a walk finds when it goes on from a node by a letter. -/
def branch (automaton : Automaton) (states : StateSet) (query : List Nat) (limit depth node : Nat)
    (row : List Nat) (letter : Nat) : List Nat :=
  let child := node * automaton.alphabet.base + letter
  let next := nextRow letter query row
  if 0 < states.reachable child ∧ least next ≤ limit then
    automaton.walk states query limit depth child next
  else []

/-- A walk may try all letters and pass over the children without members below them. -/
lemma walk_succ (hcounted : states.Counted) (node : Nat) (row : List Nat) :
    automaton.walk states query limit (depth + 1) node row =
      (if states.has node && last row ≤ limit then [node] else []) ++
        ((List.range' 1 automaton.alphabet.size).map
          (automaton.branch states query limit depth node row)).flatten := by
  rw [walk, children_eq hcounted]
  congr 1
  induction List.range' 1 automaton.alphabet.size with
  | nil => rfl
  | cons letter letters ih =>
    rw [List.map_cons, List.filter_cons, List.map_cons, List.flatten_cons, ← ih, branch]
    by_cases hpos : 0 < states.reachable (node * automaton.alphabet.base + letter)
    · simp [hpos]
    · simp [hpos]

namespace Checked

open Alphabet.Checked (append)

/-- The state of a term. -/
def stateOf (automaton : Automaton) (term : String) : Option Nat :=
  Alphabet.Checked.state automaton.alphabet
    ((automaton.alphabet.letters term).take automaton.depth)

/-- The near members of a set at or below a node. All letters are tried one after the other, and the
number of each child is computed before it is known whether there are members below. -/
def walk (automaton : Automaton) (states : StateSet) (query : List Nat) (limit : Nat) :
    (depth : Nat) → (node : Nat) → (row : List Nat) → Option (List Nat)
  | 0, node, row => some (if states.has node && least row ≤ limit then [node] else [])
  | depth + 1, node, row => do
    let below ← (List.range' 1 automaton.alphabet.size).mapM fun letter => do
      let child ← append automaton.alphabet node letter
      let next := nextRow letter query row
      if 0 < states.reachable child ∧ least next ≤ limit then
        walk automaton states query limit depth child next
      else return []
    return (if states.has node && last row ≤ limit then [node] else []) ++ below.flatten

/-- The members of a set of states that may belong to near terms. -/
def candidates (automaton : Automaton) (states : StateSet) (term : String) (limit : Nat) :
    Option (List Nat) :=
  let query := automaton.alphabet.letters term
  if 0 < states.reachable 0 then
    walk automaton states query limit automaton.depth 0 (firstRow query)
  else return []

/-- The state of a term is computed without overflow, if its indexed beginning is within the
greatest depth. -/
lemma stateOf_eq (hdepth : automaton.depth ≤ automaton.alphabet.maxDepth) (term : String) :
    stateOf automaton term = some (automaton.stateOf term) := by
  refine Alphabet.Checked.state_eq (fun l hl => ?_) ?_
  · exact Alphabet.isWord_letters term l (List.mem_of_mem_take hl)
  · exact (List.length_take_le _ _).trans hdepth

/-- No check fails on a walk that does not go beyond the greatest depth.

**Proof sketch.** Induction on the letters that may follow. No child of the node of a word is too
large, and where there are no members below, the walk has nothing to find. -/
lemma walk_eq (hcounted : states.Counted) (hword : automaton.alphabet.IsWord word)
    (hlength : word.length + depth ≤ automaton.alphabet.maxDepth) (row : List Nat) :
    walk automaton states query limit depth (automaton.alphabet.state word) row =
      some (automaton.walk states query limit depth (automaton.alphabet.state word) row) := by
  induction depth generalizing word row with
  | zero => rfl
  | succ depth ih =>
    rw [walk, walk_succ hcounted, Operation.mapM_eq_pure
      (g := automaton.branch states query limit depth (automaton.alphabet.state word) row)]
    · rfl
    · intro letter hmem
      have hletter : 0 < letter ∧ letter ≤ automaton.alphabet.size := by
        have := List.mem_range'_1.1 hmem
        omega
      have hchild := ih (Alphabet.isWord_concat.2 ⟨hword, hletter⟩) (by simp; omega)
        (nextRow letter query row)
      rw [Alphabet.Checked.append_state hword (by omega) hletter.2, Option.bind_eq_bind,
        Option.bind_some, branch, ← Alphabet.state_concat]
      simp only [hchild]
      split
      · rfl
      · rfl

/-- Nor does one for the candidates of a term. -/
lemma candidates_eq (hcounted : states.Counted)
    (hdepth : automaton.depth ≤ automaton.alphabet.maxDepth) (term : String) (limit : Nat) :
    candidates automaton states term limit = some (automaton.candidates states term limit) := by
  unfold candidates Automaton.candidates
  split
  · exact @walk_eq automaton states _ [] limit automaton.depth hcounted (List.forall_mem_nil _)
      (by simpa using hdepth) _
  · rfl

end Checked

/-! ## States and words -/

/-- The word of a term: the letters of its first characters. -/
def wordOf (automaton : Automaton) (term : String) : List Nat :=
  (term.toList.take automaton.depth).map automaton.alphabet.letter

/-- The state of a term is that of its indexed beginning, as a word over the alphabet. -/
lemma stateOf_eq (automaton : Automaton) (term : String) :
    automaton.stateOf term = automaton.alphabet.state (automaton.wordOf term) := by
  rw [stateOf, wordOf, Alphabet.letters, List.map_take]

/-- The indexed beginning of a term is a word. -/
lemma isWord_wordOf (automaton : Automaton) (term : String) :
    automaton.alphabet.IsWord (automaton.wordOf term) := by
  intro l hl
  obtain ⟨c, -, rfl⟩ := List.mem_map.1 hl
  exact ⟨Alphabet.letter_pos c, Alphabet.letter_le c⟩

/-- An automaton indexes no more letters than there is room for. -/
lemma depth_new_le (alphabetSize indexLength : Nat) :
    (new alphabetSize indexLength).depth ≤ (Alphabet.ofSize alphabetSize).maxDepth :=
  Nat.min_le_right _ _

/-- The states of an automaton have 64 bits and stand for words. Its depth is the greatest there can
be, or a smaller one that has been asked for. -/
structure Numbered (automaton : Automaton) (asked : Nat) : Prop where
  base_le : automaton.alphabet.base ≤ 2 ^ 32
  /-- The search for the greatest depth ends, and with no other result. -/
  deepens : ∀ result, Alphabet.Checked.Deepens automaton.alphabet 0 0 result ↔
    result = automaton.alphabet.maxDepth
  /-- The greatest depth is the exponent of the last power of the base up to `2 ^ 64`. -/
  pow_maxDepth : automaton.alphabet.base ^ automaton.alphabet.maxDepth ≤ 2 ^ 64 ∧
    2 ^ 64 < automaton.alphabet.base ^ (automaton.alphabet.maxDepth + 1)
  depth : automaton.depth = min asked automaton.alphabet.maxDepth
  /-- No check fails where the state of a term is computed. -/
  stateOf : ∀ term, Checked.stateOf automaton term = some (automaton.stateOf term)
  /-- Nor can one fail at a child of a node above the depth, whichever letter leads to it. -/
  child_lt : ∀ word letter, automaton.alphabet.IsWord word → word.length < automaton.depth →
    letter ≤ automaton.alphabet.size →
      automaton.alphabet.state word * automaton.alphabet.base + letter < 2 ^ 64
  /-- Nor does one fail on the walk through a set of states, however this has been built. -/
  candidates : ∀ alphabet states, StateSet.Built alphabet states → ∀ term limit,
    Checked.candidates automaton states term limit = some (automaton.candidates states term limit)
  letters : ∀ term, ∀ l ∈ automaton.wordOf term, 1 ≤ l ∧ l ≤ automaton.alphabet.size
  stateOf_eq_iff : ∀ term other, automaton.stateOf term = automaton.stateOf other ↔
    automaton.wordOf term = automaton.wordOf other
  stateOf_div : ∀ term, automaton.stateOf term / automaton.alphabet.base =
    automaton.alphabet.state (automaton.wordOf term).dropLast

/-- **States have 64 bits and stand for words.** For an alphabet of any size of 32 bits the search
for the greatest depth ends, with the exponent of the last power of the base that is no larger than
`2 ^ 64`. With this depth, or a smaller one that is asked for, no check fails where the state of a
term is computed. The child of a node above that depth has 64 bits, whichever letter leads to it,
and no check fails where the candidates of a term are looked for in a set of states, whatever its
alphabet is and however it has been built. Two terms have one state exactly if their first
characters stand for one word, which is made of the letters from one on. A state divided by the base
is the state of the word without its last letter.

**Proof sketch.** The largest state of a depth is one less than a power of the base, so no word of
the greatest depth and no shorter one has a larger state than there is room for. Letters are digits
other than zero, so a word can be read back from its state from the end. -/
theorem numbers_of_states (alphabetSize : UInt32) (indexLength : Nat) :
    (new alphabetSize.toNat indexLength).Numbered indexLength where
  base_le := by
    have hlt := alphabetSize.toNat_lt
    change max alphabetSize.toNat 1 + 1 ≤ 2 ^ 32
    omega
  deepens result := by rw [Alphabet.Checked.deepens_iff, Nat.zero_add, Alphabet.maxDepth]
  pow_maxDepth := by
    rw [Alphabet.maxDepth_eq_log]
    exact ⟨Nat.pow_log_le_self _ (by decide),
      Nat.lt_pow_succ_log_self (Alphabet.two_le_base _) (2 ^ 64)⟩
  depth := rfl
  stateOf := Checked.stateOf_eq (depth_new_le alphabetSize.toNat indexLength)
  child_lt word letter hword hlength hletter := by
    rw [← Alphabet.state_concat]
    exact Alphabet.state_concat_lt hword
      (hlength.trans_le (depth_new_le alphabetSize.toNat indexLength)) hletter
  candidates alphabet states built term limit := by
    obtain ⟨members, stored, htracks⟩ := built.exists_tracks
    exact Checked.candidates_eq htracks.counted (depth_new_le alphabetSize.toNat indexLength) term
      limit
  letters := isWord_wordOf _
  stateOf_eq_iff term other := by
    rw [stateOf_eq, stateOf_eq]
    exact ⟨Alphabet.state_injective (isWord_wordOf _ term) (isWord_wordOf _ other), congrArg _⟩
  stateOf_div term := by
    rw [stateOf_eq]
    exact Alphabet.state_div_base (isWord_wordOf _ term)

/-- The word of the greatest depth over three letters that is written with the last letter only has
the largest number of 64 bits as its state. -/
theorem numbers_of_states_three : (new 3 40).depth = 32 ∧
    (Alphabet.ofSize 3).state (List.replicate 31 3) * 4 + 3 = 2 ^ 64 - 1 ∧
    (Alphabet.ofSize 3).state (List.replicate 31 3) * 4 + 3 < 2 ^ 64 ∧
    Checked.candidates (new 3 40) ((StateSet.new (.ofSize 3)).add 7) "ab" 1 = some [7] := by
  have hdepth : (new 3 40).depth = 32 := by decide +kernel
  have hletter : ∀ l ∈ List.replicate 31 3, 0 < l ∧ l ≤ (Alphabet.ofSize 3).size := by decide
  have hlength : (List.replicate 31 3).length < (new 3 40).depth := by
    rw [hdepth]
    decide
  have hnumbered : (new 3 40).Numbered 40 := numbers_of_states 3 40
  exact ⟨hdepth, by decide +kernel, hnumbered.child_lt _ 3 hletter hlength (by decide),
    (hnumbered.candidates _ _ (.add .new 7) "ab" 1).trans (by decide +kernel)⟩

end Automaton

end Concordance
