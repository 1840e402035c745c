import Concordance.Proofs.Typo.Rows
import Concordance.Proofs.Typo.States
import Concordance.Proofs.Typo.StateSets

set_option relaxedAutoImplicit false
set_option autoImplicit false

/-!
# Candidates

The walk down the tree of states goes through the words over the alphabet, each word before those
that it begins and these in the order of their letters. It passes over a branch only if it cannot
hold a candidate: an empty branch has no members, since a state is counted at each node on its way
to the root, and where no beginning of the query is near to a word, none is near to a longer one. So
the candidates are the members of the set that are states of near words, in the order of the words.
As every state is that of one word only, no candidate occurs twice. No near term is missed, since
the letters of near terms are near.

## Main definitions

* `Concordance.Alphabet.IsWord` — words over an alphabet.
* `Concordance.Automaton.Accepts` — a word is near to a query, as far as its letters tell.
* `Concordance.Automaton.continuations` — how the words of the candidates below a node go on.

## Main results

* `Concordance.Alphabet.state_injective` — different words have different states.
* `Concordance.Automaton.walk_eq`, `pairwise_continuations`, `mem_continuations_iff` — what a walk
  finds, and in which order.
* `Concordance.Automaton.mem_candidates` — the states of near terms are candidates.
* `Concordance.Automaton.candidates_of_built` — the candidates are the near members of the set.
-/

namespace Concordance

/-! ## Words and their states -/

namespace Alphabet

variable {a : Alphabet}

/-- A word over an alphabet. -/
def IsWord (a : Alphabet) (word : List Nat) : Prop := ∀ l ∈ word, 0 < l ∧ l ≤ a.size

/-- The letters of a text make a word. -/
lemma isWord_letters (text : String) : a.IsWord (a.letters text) := by
  intro l hl
  obtain ⟨c, -, rfl⟩ := List.mem_map.1 hl
  exact ⟨letter_pos c, letter_le c⟩

/-- Words are words if they are put together of words. -/
lemma isWord_append {word rest : List Nat} :
    a.IsWord (word ++ rest) ↔ a.IsWord word ∧ a.IsWord rest :=
  List.forall_mem_append

/-- A word with one more letter is a word if the letter is one of the alphabet. -/
lemma isWord_concat {word : List Nat} {letter : Nat} :
    a.IsWord (word ++ [letter]) ↔ a.IsWord word ∧ 0 < letter ∧ letter ≤ a.size :=
  isWord_append.trans (and_congr_right' List.forall_mem_singleton)

/-- One more letter moves the state of a word up and is added to it. -/
lemma state_concat (word : List Nat) (letter : Nat) :
    a.state (word ++ [letter]) = a.state word * a.base + letter :=
  Positional.value_append_singleton a.base letter word

/-- The state without its last letter is that of the word without it. -/
lemma state_concat_div (word : List Nat) {letter : Nat} (hle : letter ≤ a.size) :
    a.state (word ++ [letter]) / a.base = a.state word := by
  have hbase : letter < a.base := Nat.lt_succ_of_le hle
  have hpos : 0 < a.base := Nat.lt_of_lt_of_le Nat.zero_lt_two a.two_le_base
  rw [state_concat, Nat.mul_comm, Nat.mul_add_div hpos, Nat.div_eq_of_lt hbase, Nat.add_zero]

/-- Different words have different states, since the letters are digits other than zero.

**Proof sketch.** Induction on the words from their ends. The last letter is the remainder of the
state, and the word before it has the quotient as its state. -/
theorem state_injective {word other : List Nat} (hword : a.IsWord word) (hother : a.IsWord other)
    (h : a.state word = a.state other) : word = other := by
  induction word using List.reverseRecOn generalizing other with
  | nil =>
    cases other using List.reverseRecOn with
    | nil => rfl
    | append_singleton other letter =>
      have hpos := (isWord_concat.1 hother).2.1
      rw [state_concat] at h
      change 0 = _ at h
      omega
  | append_singleton word letter ih =>
    obtain ⟨hword, hpos, hle⟩ := isWord_concat.1 hword
    cases other using List.reverseRecOn with
    | nil =>
      rw [state_concat] at h
      change _ = 0 at h
      omega
    | append_singleton other letter' =>
      obtain ⟨hother, -, hle'⟩ := isWord_concat.1 hother
      have hstate : a.state word = a.state other := by
        rw [← state_concat_div word hle, h, state_concat_div other hle']
      have hletter : letter = letter' := by
        rw [state_concat, state_concat, hstate] at h
        omega
      rw [ih hword hother hstate, hletter]

/-- The beginnings of a word are on the way from its state to the root. -/
lemma state_mem_chain (word : List Nat) {rest : List Nat} (hrest : a.IsWord rest) :
    a.state word ∈ a.chain (a.state (word ++ rest)) := by
  induction rest using List.reverseRecOn with
  | nil =>
    rw [List.append_nil, chain]
    split
    · next hzero => simp [hzero]
    · exact List.mem_cons_self
  | append_singleton rest letter ih =>
    obtain ⟨hrest, hpos, hle⟩ := isWord_concat.1 hrest
    have hne : a.state (word ++ rest ++ [letter]) ≠ 0 := by
      rw [state_concat]
      omega
    rw [← List.append_assoc, chain, if_neg hne, state_concat_div _ hle]
    exact List.mem_cons_of_mem _ (ih hrest)

end Alphabet

namespace StateSet

variable {set : StateSet}

/-- A node on the way from a member to the root is counted. -/
lemma Counted.reachable_pos (h : set.Counted) {node state : Nat} (hstate : set.has state = true)
    (hnode : node ∈ set.alphabet.chain state) : 0 < set.reachable node := by
  have hpos : 0 < set.below node :=
    List.countP_pos_iff.2 ⟨state, OrderedMap.contains_iff_mem_keys.1 hstate, by simpa using hnode⟩
  unfold reachable
  rw [h node, if_neg (by omega), Option.getD_some]
  exact hpos

/-- A node on the way of a member to the root has a count. -/
lemma Counted.mem_keys (h : set.Counted) {node state : Nat} (hstate : set.has state = true)
    (hnode : node ∈ set.alphabet.chain state) : node ∈ set.counts.keys := by
  have hpos := h.reachable_pos hstate hnode
  rw [← OrderedMap.contains_iff_mem_keys, OrderedMap.contains]
  unfold reachable at hpos
  cases hget : set.counts.get? node with
  | none =>
    rw [hget] at hpos
    exact absurd hpos (by simp)
  | some n => rfl

end StateSet

namespace Automaton

open EditDistance

/-! ## Near words -/

/-- A word over the alphabet, no longer than the depth, is near to a query. A word of full depth
stands for all terms that start with it, so some beginning of the query has to be near to it. -/
structure Accepts (automaton : Automaton) (query : List Nat) (limit : Nat) (word : List Nat) :
    Prop where
  isWord : automaton.alphabet.IsWord word
  length_le : word.length ≤ automaton.depth
  near : word.length < automaton.depth → levenshtein word query ≤ limit
  near_start : word.length = automaton.depth → ∃ start, start <+: query ∧
    levenshtein word start ≤ limit

variable {automaton : Automaton} {states : StateSet} {query word rest : List Nat}
  {limit depth : Nat}

/-- A word that is accepted is near to some beginning of the query. -/
lemma Accepts.exists_start (h : automaton.Accepts query limit word) :
    ∃ start, start <+: query ∧ levenshtein word start ≤ limit := by
  rcases h.length_le.lt_or_eq with hlt | heq
  · exact ⟨query, List.prefix_rfl, h.near hlt⟩
  · exact h.near_start heq

/-- A word that is shorter than the depth is near if it is near to the whole query. -/
lemma accepts_iff_near (hword : automaton.alphabet.IsWord word)
    (hlt : word.length < automaton.depth) :
    automaton.Accepts query limit word ↔ levenshtein word query ≤ limit :=
  ⟨fun h => h.near hlt, fun h => ⟨hword, hlt.le, fun _ => h, fun heq => absurd heq hlt.ne⟩⟩

/-- A word of full depth is near if it is near to some beginning of the query. -/
lemma accepts_iff_near_start (hword : automaton.alphabet.IsWord word)
    (heq : word.length = automaton.depth) :
    automaton.Accepts query limit word ↔
      ∃ start, start <+: query ∧ levenshtein word start ≤ limit :=
  ⟨fun h => h.near_start heq, fun h => ⟨hword, heq.le, fun hlt => absurd heq hlt.ne, fun _ => h⟩⟩

/-- If a word is near, some beginning of the query is near to every beginning of the word. -/
lemma Accepts.exists_start_of_append (h : automaton.Accepts query limit (word ++ rest)) :
    ∃ start, start <+: query ∧ levenshtein word start ≤ limit := by
  obtain ⟨start, hstart, hnear⟩ := h.exists_start
  obtain ⟨first, hfirst, hle⟩ := exists_isPrefix_levenshtein_le hnear
  exact ⟨first, hfirst.trans hstart, hle⟩

/-- The first letters of a near word are near. -/
lemma accepts_take (hword : automaton.alphabet.IsWord word)
    (hnear : levenshtein word query ≤ limit) :
    automaton.Accepts query limit (word.take automaton.depth) where
  isWord := fun l hl => hword l (List.mem_of_mem_take hl)
  length_le := List.length_take_le _ _
  near := fun hlt => by
    rw [List.length_take] at hlt
    rwa [List.take_of_length_le (by omega)]
  near_start := fun _ => by
    rw [← List.take_append_drop automaton.depth word] at hnear
    exact exists_isPrefix_levenshtein_le hnear

/-! ## The walk -/

/-- The letters that lead from a word to children with members at or below them, in order. -/
def nextLetters (automaton : Automaton) (states : StateSet) (word : List Nat) : List Nat :=
  (automaton.children states (automaton.alphabet.state word)).map
    (· - automaton.alphabet.state word * automaton.alphabet.base)

/-- How the words go on that a walk finds below a given one, where `depth` letters may follow. -/
def continuations (automaton : Automaton) (states : StateSet) (query : List Nat) (limit : Nat) :
    (depth : Nat) → (word : List Nat) → List (List Nat)
  | 0, word =>
    if states.has (automaton.alphabet.state word) && least (row word query) ≤ limit then [[]]
    else []
  | depth + 1, word =>
    (if states.has (automaton.alphabet.state word) && last (row word query) ≤ limit then [[]]
      else []) ++
      (automaton.nextLetters states word).flatMap fun letter =>
        if least (row (word ++ [letter]) query) ≤ limit then
          (continuations automaton states query limit depth (word ++ [letter])).map (letter :: ·)
        else []

/-- The children of a node have its letters behind those of the node. -/
lemma mem_children {node child : Nat} (h : child ∈ automaton.children states node) :
    node * automaton.alphabet.base < child ∧
      child ≤ node * automaton.alphabet.base + automaton.alphabet.size := by
  simpa using (List.mem_filter.1 h).2

/-- The letters that a walk goes on with are those of the alphabet. -/
lemma letter_of_mem_nextLetters {letter : Nat} (h : letter ∈ automaton.nextLetters states word) :
    0 < letter ∧ letter ≤ automaton.alphabet.size := by
  obtain ⟨child, hchild, rfl⟩ := List.mem_map.1 h
  have hbounds := mem_children hchild
  omega

/-- The next letter of the word of a member is found.

**Proof sketch.** The node of the longer word is on the way from the member to the root, so it is
counted, and it is a child of the node by its number. -/
lemma mem_nextLetters (hcounted : states.Counted) (halphabet : states.alphabet = automaton.alphabet)
    {letter : Nat} (hnext : automaton.alphabet.IsWord (word ++ [letter]))
    (hrest : automaton.alphabet.IsWord rest)
    (hhas : states.has (automaton.alphabet.state (word ++ [letter] ++ rest)) = true) :
    letter ∈ automaton.nextLetters states word := by
  obtain ⟨-, hpos, hle⟩ := Alphabet.isWord_concat.1 hnext
  have hchain : automaton.alphabet.state (word ++ [letter]) ∈
      states.alphabet.chain (automaton.alphabet.state (word ++ [letter] ++ rest)) := by
    rw [halphabet]
    exact Alphabet.state_mem_chain _ hrest
  have hchild := automaton.alphabet.state_concat word letter
  refine List.mem_map.2 ⟨automaton.alphabet.state (word ++ [letter]),
    List.mem_filter.2 ⟨hcounted.mem_keys hhas hchain, ?_⟩, ?_⟩
  · simp only [Bool.and_eq_true, decide_eq_true_eq]
    omega
  · omega

/-- The next letters are found in ascending order. -/
lemma pairwise_nextLetters : (automaton.nextLetters states word).Pairwise (· < ·) := by
  have hkeys : states.counts.keys.Pairwise (· < ·) :=
    List.pairwise_map.2 (states.counts.increasing.imp Nat.compare_eq_lt.1)
  refine List.pairwise_map.2 ((hkeys.filter _).imp_of_mem fun {first other} hfirst hother hlt => ?_)
  have hbounds := mem_children hfirst
  have hbounds' := mem_children hother
  omega

/-- The walk from the node of a word finds the states of the words that go on like that.

**Proof sketch.** Induction on the depth. The node of a child belongs to the word with one more
letter, and the row of that word is the next row. -/
theorem walk_eq : automaton.walk states query limit depth (automaton.alphabet.state word)
      (row word query) =
    (automaton.continuations states query limit depth word).map fun rest =>
      automaton.alphabet.state (word ++ rest) := by
  induction depth generalizing word with
  | zero =>
    rw [walk, continuations]
    split <;> simp
  | succ depth ih =>
    rw [walk, continuations, List.map_append, List.map_flatMap, nextLetters, List.flatMap_map]
    congr 1
    · split <;> simp
    · refine List.flatMap_congr fun child hmem => ?_
      have hbounds := mem_children hmem
      have hchild : automaton.alphabet.state
          (word ++ [child - automaton.alphabet.state word * automaton.alphabet.base]) = child := by
        rw [Alphabet.state_concat]
        omega
      have hbelow := @ih (word ++ [child - automaton.alphabet.state word * automaton.alphabet.base])
      rw [hchild] at hbelow
      simp only [row_concat, hbelow]
      split
      · rw [List.map_map]
        exact List.map_congr_left fun rest _ => by rw [Function.comp_apply, ← List.append_cons]
      · rfl

/-- The words of a branch that is walked start with its letter. -/
lemma mem_branch {walked : Prop} [Decidable walked] {letter : Nat} {rests : List (List Nat)} :
    rest ∈ (if walked then rests.map (letter :: ·) else []) ↔
      walked ∧ ∃ tail ∈ rests, letter :: tail = rest := by
  split <;> simp [*]

/-- A walk goes through the words in lexicographic order: a word comes before those that it begins,
and these come in the order of their next letters.

**Proof sketch.** Induction on the depth. The word itself comes first; words below the same child
are in order by induction, and those below two children by the letters of these. -/
theorem pairwise_continuations :
    (automaton.continuations states query limit depth word).Pairwise (· < ·) := by
  induction depth generalizing word with
  | zero =>
    rw [continuations]
    split <;> simp
  | succ depth ih =>
    rw [continuations, List.pairwise_append, List.pairwise_flatMap]
    refine ⟨by split <;> simp, ⟨fun letter _ => ?_, ?_⟩, fun first hfirst second hsecond => ?_⟩
    · split
      · exact List.pairwise_map.2 (ih.imp fun hlt => List.cons_lt_cons_iff.2 (.inr ⟨rfl, hlt⟩))
      · exact .nil
    · refine pairwise_nextLetters.imp fun {letter letter'} hlt first hfirst second hsecond => ?_
      obtain ⟨-, tail, -, rfl⟩ := mem_branch.1 hfirst
      obtain ⟨-, tail', -, rfl⟩ := mem_branch.1 hsecond
      exact List.cons_lt_cons_iff.2 (.inl hlt)
    · obtain ⟨letter, -, hsecond⟩ := List.mem_flatMap.1 hsecond
      obtain ⟨-, tail, -, rfl⟩ := mem_branch.1 hsecond
      split at hfirst
      · rw [List.mem_singleton.1 hfirst]
        exact List.nil_lt_cons letter tail
      · cases hfirst

/-- A walk finds no continuation twice. -/
lemma nodup_continuations : (automaton.continuations states query limit depth word).Nodup := by
  refine pairwise_continuations.imp fun {first second} hlt heq => ?_
  rw [heq] at hlt
  exact List.lt_irrefl second hlt

/-- **The walk finds the near words of members.**

**Proof sketch.** Induction on the number of letters that may follow. The word itself is found if it
is near, by the least entry of its row at full depth and by the last entry before. A longer word of
a member that is near goes on with a letter that is found, since the member is counted at the node,
and whose branch is not left, since some beginning of the query is near to the word up to there. -/
theorem mem_continuations_iff (hcounted : states.Counted)
    (halphabet : states.alphabet = automaton.alphabet) (hword : automaton.alphabet.IsWord word)
    (hlength : word.length + depth = automaton.depth) :
    rest ∈ automaton.continuations states query limit depth word ↔
      states.has (automaton.alphabet.state (word ++ rest)) = true ∧
        automaton.Accepts query limit (word ++ rest) := by
  induction depth generalizing word rest with
  | zero =>
    rw [continuations]
    cases rest with
    | nil =>
      rw [List.append_nil, accepts_iff_near_start hword hlength, ← least_row_le_iff]
      simp
    | cons letter rest =>
      -- no letter may follow at full depth, and a longer word is not accepted
      refine iff_of_false (by split <;> simp) fun ⟨_, haccepts⟩ => ?_
      have hle := haccepts.length_le
      rw [List.length_append, List.length_cons] at hle
      omega
  | succ depth ih =>
    rw [continuations, List.mem_append, List.mem_flatMap]
    simp only [mem_branch]
    cases rest with
    | nil =>
      rw [List.append_nil, accepts_iff_near hword (by omega), ← last_row]
      simp
    | cons letter rest =>
      -- the word grows by the letter, and with it the node that the walk has come to
      rw [List.append_cons]
      constructor
      · rintro (hself | ⟨_, hletter, -, _, hrest, heq⟩)
        · split at hself <;> simp at hself
        · obtain ⟨rfl, rfl⟩ := List.cons.inj heq
          have hnext := Alphabet.isWord_concat.2 ⟨hword, letter_of_mem_nextLetters hletter⟩
          exact (ih hnext (by simp; omega)).1 hrest
      · rintro ⟨hhas, haccepts⟩
        obtain ⟨hnext, hrest⟩ := Alphabet.isWord_append.1 haccepts.isWord
        exact .inr ⟨letter, mem_nextLetters hcounted halphabet hnext hrest hhas,
          least_row_le_iff.2 haccepts.exists_start_of_append, rest,
          (ih hnext (by simp; omega)).2 ⟨hhas, haccepts⟩, rfl⟩

/-! ## The candidates -/

/-- A walk from the root misses no member, so an empty set needs no walk.

**Proof sketch.** A walk that starts where nothing can be reached finds nothing, and then there is
no continuation either, since each would be reachable from there. -/
lemma candidates_eq (hcounted : states.Counted) (halphabet : states.alphabet = automaton.alphabet)
    (term : String) (limit : Nat) :
    automaton.candidates states term limit =
      (automaton.continuations states (automaton.alphabet.letters term) limit automaton.depth
        []).map automaton.alphabet.state := by
  have hwalk := @walk_eq automaton states (automaton.alphabet.letters term) [] limit automaton.depth
  unfold candidates
  split
  · exact hwalk
  · next hreachable =>
    have hnone : automaton.continuations states (automaton.alphabet.letters term) limit
        automaton.depth [] = [] := by
      refine List.eq_nil_iff_forall_not_mem.2 fun word hword => hreachable ?_
      obtain ⟨hhas, haccepts⟩ := (mem_continuations_iff hcounted halphabet (List.forall_mem_nil _)
        (Nat.zero_add _)).1 hword
      have hroot : 0 ∈ states.alphabet.chain (automaton.alphabet.state ([] ++ word)) := by
        rw [halphabet]
        exact Alphabet.state_mem_chain [] haccepts.isWord
      exact hcounted.reachable_pos hhas hroot
    rw [hnone, List.map_nil]

/-- The candidates are the members of the set that are states of near words. -/
theorem mem_candidates_iff (hcounted : states.Counted)
    (halphabet : states.alphabet = automaton.alphabet) {term : String} {state : Nat} :
    state ∈ automaton.candidates states term limit ↔ states.has state = true ∧
      ∃ word, automaton.Accepts (automaton.alphabet.letters term) limit word ∧
        automaton.alphabet.state word = state := by
  rw [candidates_eq hcounted halphabet, List.mem_map]
  simp only [mem_continuations_iff hcounted halphabet (List.forall_mem_nil _) (Nat.zero_add _),
    List.nil_append]
  constructor
  · rintro ⟨word, ⟨hhas, haccepts⟩, rfl⟩
    exact ⟨hhas, word, haccepts, rfl⟩
  · rintro ⟨hhas, word, haccepts, rfl⟩
    exact ⟨word, ⟨hhas, haccepts⟩, rfl⟩

/-- **No near term is missed.** If the state of a term that is near to the given one is in the set,
it is among the candidates. -/
theorem mem_candidates (hcounted : states.Counted)
    (halphabet : states.alphabet = automaton.alphabet) {term other : String}
    (hnear : levenshtein term.toList other.toList ≤ limit)
    (hhas : states.has (automaton.stateOf other) = true) :
    automaton.stateOf other ∈ automaton.candidates states term limit := by
  have hletters : levenshtein (automaton.alphabet.letters other)
      (automaton.alphabet.letters term) ≤ limit := by
    rw [levenshtein_comm]
    exact Nat.le_trans (levenshtein_map_le _ _ _) hnear
  exact (mem_candidates_iff hcounted halphabet).2
    ⟨hhas, _, accepts_take (Alphabet.isWord_letters other) hletters, rfl⟩

/-- **The candidates are the near members of a set.** However the set has been built, the candidates
for a term are the members that are states of near words, each of them once: a word is near if it is
shorter than the depth and near to the letters of the term, or if it has as many letters as the
depth and is near to a beginning of these. The words come in the order of a walk that goes from each
word to those it begins, by ascending letters, which is the lexicographic order. The state of every
term that is near to the given one by its characters is a candidate if it is in the set.

**Proof sketch.** The walk from the root finds the near words of members in lexicographic order, and
as different words have different states, no state occurs twice. -/
theorem candidates_of_built (alphabetSize indexLength : Nat) {states : StateSet}
    (built : StateSet.Built (.ofSize alphabetSize) states) (term : String) (limit : Nat) :
    let automaton := Automaton.new alphabetSize indexLength
    let near := automaton.Accepts (automaton.alphabet.letters term) limit
    (automaton.candidates states term limit).Nodup ∧
      (∀ state, state ∈ automaton.candidates states term limit ↔
        states.has state = true ∧ ∃ word, near word ∧ automaton.alphabet.state word = state) ∧
      (∃ words : List (List Nat),
        automaton.candidates states term limit = words.map automaton.alphabet.state ∧
        words.Pairwise (· < ·) ∧ ∀ word, word ∈ words ↔
          states.has (automaton.alphabet.state word) = true ∧ near word) ∧
      ∀ other, states.has (automaton.stateOf other) = true →
        levenshtein other.toList term.toList ≤ limit →
          automaton.stateOf other ∈ automaton.candidates states term limit := by
  intro automaton near
  obtain ⟨members, stored, htracks⟩ := built.exists_tracks
  have halphabet : states.alphabet = automaton.alphabet := htracks.alphabet_eq
  have hwords := candidates_eq htracks.counted halphabet term limit
  have hmem := fun word => @mem_continuations_iff automaton states (automaton.alphabet.letters term)
    [] word limit _ htracks.counted halphabet (List.forall_mem_nil _) (Nat.zero_add _)
  refine ⟨?_, fun state => mem_candidates_iff htracks.counted halphabet,
    ⟨_, hwords, pairwise_continuations, hmem⟩, fun other hhas hnear => ?_⟩
  · rw [hwords]
    refine nodup_continuations.map_on fun word hword other hother heq => ?_
    have hnear := ((hmem word).1 hword).2
    exact Alphabet.state_injective hnear.isWord ((hmem other).1 hother).2.isWord heq
  · rw [levenshtein_comm] at hnear
    exact mem_candidates htracks.counted halphabet hnear hhas

/-- The states of three names, of which one is the beginning of another, and one state of no
word. -/
def nameStates : StateSet := ((((StateSet.new (.ofSize 4)).add 47).add 37).add 5).add 9

/-- The candidates for a name come in the order of their words. -/
theorem candidates_of_built_names : StateSet.Built (.ofSize 4) nameStates ∧
    (new 4 14).candidates nameStates "tom" 1 = [37, 9, 47] ∧
    ∃ words : List (List Nat), [37, 9, 47] = words.map (Alphabet.ofSize 4).state ∧
      words.Pairwise (· < ·) := by
  have built : StateSet.Built (.ofSize 4) nameStates := .add (.add (.add (.add .new _) _) _) _
  have hanswer : (new 4 14).candidates nameStates "tom" 1 = [37, 9, 47] := by decide +kernel
  obtain ⟨-, -, ⟨words, hwords, hsorted, -⟩, -⟩ := candidates_of_built 4 14 built "tom" 1
  exact ⟨built, hanswer, words, hanswer.symm.trans hwords, hsorted⟩

end Automaton

end Concordance
