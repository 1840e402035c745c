import Concordance.Proofs.Search.Disjunctions
import Concordance.Proofs.Search.Ranking

set_option relaxedAutoImplicit false
set_option autoImplicit false

/-!
# Exclusions

An exclusion among the parts of a group takes out what it finds alone, wherever it stands. The parts
are evaluated one after the other in the order of their priorities: first those that do not exclude,
as they stand, and then the exclusions. So no part can bring back a document that has been taken
out.

## Main definitions

* `Concordance.Search.evaluateAll` — queries one after the other.

## Main results

* `Concordance.Query.inOrder_eq` — in order of priority the exclusions come behind the other parts.
* `Concordance.Search.evaluate_group_eq` — a group evaluates its parts in that order.
* `Concordance.Search.not_mem_ids_of_excluded` — a group has no hit of what an exclusion finds.
-/

namespace Concordance

namespace Query

variable {parts : List Query}

/-- Parts of which none stands behind one of higher priority: the exclusions are the last.

**Proof sketch.** Induction on the parts. If the first one excludes, so do all behind it. -/
lemma eq_filter_append (h : parts.Pairwise fun part other => part.priority ≤ other.priority) :
    parts = parts.filter (!·.excludes) ++ parts.filter (·.excludes) := by
  induction parts with
  | nil => rfl
  | cons part parts ih =>
    obtain ⟨hpart, hparts⟩ := List.pairwise_cons.1 h
    cases hexcludes : part.excludes with
    | false =>
      rw [List.filter_cons_of_pos (by simp [hexcludes]),
        List.filter_cons_of_neg (by simp [hexcludes]), List.cons_append, ← ih hparts]
    | true =>
      have hall : ∀ other ∈ part :: parts, other.excludes = true := by
        refine List.forall_mem_cons.2 ⟨hexcludes, fun other hother => ?_⟩
        have hle := hpart other hother
        rw [priority, priority, hexcludes] at hle
        cases hother : other.excludes with
        | true => rfl
        | false => simp [hother] at hle
      rw [List.filter_eq_nil_iff.2 fun other hother => by simp [hall other hother],
        List.filter_eq_self.2 hall, List.nil_append]

/-- **Exclusions come last.** In the order of their priorities, the parts of a group that do not
exclude come first, and both kinds keep their order. -/
theorem inOrder_eq (parts : List Query) :
    inOrder parts = parts.filter (!·.excludes) ++ parts.filter (·.excludes) := by
  have hsorted : (inOrder parts).Pairwise fun part other => part.priority ≤ other.priority := by
    refine (List.pairwise_mergeSort (fun a b c hab hbc => ?_) (fun a b => ?_) parts).imp
      of_decide_eq_true
    · exact decide_eq_true ((of_decide_eq_true hab).trans (of_decide_eq_true hbc))
    · simpa using Nat.le_total a.priority b.priority
  have hkinds := eq_filter_append hsorted
  rwa [filter_inOrder, filter_inOrder_of fun part => id] at hkinds

/-- The order of the parts does not matter to what the leaves among them ask for.

**Proof sketch.** An exclusion has no clause, so only the order of the other parts matters, and
these keep it. -/
lemma filterMap_clause_inOrder (parts : List Query) :
    (inOrder parts).filterMap clause? = parts.filterMap clause? := by
  have hnone : ∀ part : Query, part.excludes = true → part.clause? = none := by
    intro part hpart
    cases part with
    | not part boost => rfl
    | leaf kind field value boost => cases hpart
    | group joint parts boost => cases hpart
    | nothing reason => cases hpart
  have hothers : ∀ parts : List Query,
      (parts.filter (!·.excludes)).filterMap clause? = parts.filterMap clause? := by
    intro parts
    rw [List.filterMap_filter]
    refine List.filterMap_congr fun part _ => ?_
    cases hexcludes : part.excludes with
    | false => rfl
    | true => exact (hnone part hexcludes).symm
  rw [← hothers, filter_inOrder, hothers]

end Query

namespace Search

open Query Operation

variable {search : Search} {hits hits' : ResultSet} {parts : List Query} {joint : Joint}
  {boost : Option Single}

/-- Queries one after the other, each on the hits that the one before has left. -/
def evaluateAll (search : Search) (queries : List Query) (hits : ResultSet) :
    Except Error ResultSet :=
  queries.foldlM (fun hits query => search.evaluate query hits) hits

/-- Queries are evaluated one after the other. -/
lemma evaluateAll_cons (search : Search) (query : Query) (queries : List Query)
    (hits : ResultSet) : search.evaluateAll (query :: queries) hits =
      search.evaluate query hits >>= search.evaluateAll queries := rfl

/-- Queries can be evaluated in two batches. -/
lemma evaluateAll_append (search : Search) (queries queries' : List Query) (hits : ResultSet) :
    search.evaluateAll (queries ++ queries') hits =
      search.evaluateAll queries hits >>= search.evaluateAll queries' :=
  List.foldlM_append

/-- The parts of one kind are evaluated one after the other.

**Proof sketch.** Induction on the parts: a part of the kind is evaluated, and any other one is
passed over. -/
lemma evaluateParts_eq (search : Search) (excluding : Bool) (parts : List Query)
    (hits : ResultSet) : search.evaluateParts excluding parts hits =
      search.evaluateAll (parts.filter (·.excludes = excluding)) hits := by
  induction parts generalizing hits with
  | nil => rfl
  | cons part parts ih =>
    rw [evaluateParts]
    by_cases hexcludes : part.excludes = excluding
    · have hfilter : (part :: parts).filter (·.excludes = excluding) =
          part :: parts.filter (·.excludes = excluding) :=
        List.filter_cons_of_pos (decide_eq_true hexcludes)
      rw [if_pos hexcludes, hfilter, evaluateAll_cons]
      exact congrArg _ (funext ih)
    · have hfilter : (part :: parts).filter (·.excludes = excluding) =
          parts.filter (·.excludes = excluding) :=
        List.filter_cons_of_neg (by simpa using hexcludes)
      rw [if_neg hexcludes, hfilter]
      exact ih hits

/-- The parts of a group are evaluated one after the other in the order of their priorities. -/
theorem evaluate_group_eq (search : Search) (joint : Joint) (parts : List Query)
    (boost : Option Single) (hits : ResultSet) :
    search.evaluate (.group joint parts boost) hits =
      search.evaluateAll (inOrder parts) hits >>= search.close joint parts := by
  have hothers : (fun part : Query => decide (part.excludes = false)) = (!·.excludes) := by
    funext part
    simp
  have hexclusions : (fun part : Query => decide (part.excludes = true)) = (·.excludes) := by
    funext part
    simp
  rw [evaluate, evaluateParts_eq, hothers, inOrder_eq, evaluateAll_append, bind_assoc]
  refine congrArg _ (funext fun next => ?_)
  rw [evaluateParts_eq, hexclusions]

/-- The end of a group does not depend on where its exclusions stand. -/
lemma close_inOrder (search : Search) (joint : Joint) (parts : List Query) :
    search.close joint (inOrder parts) = search.close joint parts := by
  funext hits
  unfold close
  rw [filterMap_clause_inOrder]

/-- Parts in the order of their priorities stay in it. -/
lemma inOrder_inOrder (parts : List Query) : inOrder (inOrder parts) = inOrder parts := by
  rw [inOrder_eq (inOrder parts), filter_inOrder, filter_inOrder_of fun part => id, ← inOrder_eq]

/-- **Exclusion always wins.** What an exclusion among the parts of a group that succeeds takes out
would succeed alone, and the group has no hit of a document that it then finds. The exclusions come
behind the other parts, which keep their order: the group makes of any hits what it makes of them
with its parts put in that order, and this is to evaluate them one after the other and then to end.

**Proof sketch.** Once the exclusions have been evaluated, what a document has matched is nothing if
one of them finds it, and the end of a group adds no hits. -/
theorem not_mem_ids_of_excluded (search : Search) {joint : Joint} {parts : List Query}
    {boost : Option Single} {part : Query} {weight : Option Single}
    (hpart : .not part weight ∈ parts) {hits : ResultSet}
    (hrun : search.run (.group joint parts boost) = .ok hits) :
    (∃ excluded, search.run part = .ok excluded ∧ ∀ id ∈ excluded.ids, id ∉ hits.ids) ∧
    inOrder parts = parts.filter (!·.excludes) ++ parts.filter (·.excludes) ∧
    ∀ before,
      search.evaluate (.group joint parts boost) before =
        search.evaluate (.group joint (inOrder parts) boost) before ∧
      search.evaluate (.group joint parts boost) before =
        search.evaluateAll (inOrder parts) before >>= search.close joint parts := by
  refine ⟨?_, inOrder_eq parts,
    fun before => ⟨?_, evaluate_group_eq search joint parts boost before⟩⟩
  · obtain ⟨excluded, hexcluded⟩ := exists_run_not hrun hpart
    refine ⟨excluded, hexcluded, fun id hid hmem => ?_⟩
    -- had the document a hit, the exclusion would not have found it
    have hsome := (mem_ids_run hrun id).1 hmem
    rw [note] at hsome
    obtain ⟨matched, hmatched⟩ := Option.isSome_iff_exists.1 (isSome_of_kept hsome)
    have hnone := (noteParts_excluding _ matched).1 hmatched |>.2 _ hpart part weight rfl
    have hfound := (mem_ids_run hexcluded id).1 hid
    rw [hnone] at hfound
    cases hfound
  · rw [evaluate_group_eq, evaluate_group_eq, inOrder_inOrder, close_inOrder]

/-- Memos about words like the start of cat, but not about ones like the start of bird. -/
def unlikeBird : List Query :=
  [.not (.group .any [likeBird, .nothing ""] none) none, .leaf .start "title" "ca" none]

/-- A memo about a cat and a bird is not found, although the exclusion stands first. -/
theorem not_mem_ids_of_excluded_memos : ∃ hits excluded,
    (memoSearch ["cat", "cat bird"]).run (.group .all unlikeBird none) = .ok hits ∧
    (memoSearch ["cat", "cat bird"]).run (.group .any [likeBird, .nothing ""] none) =
      .ok excluded ∧
    hits.ids = [⟨"1"⟩] ∧ excluded.ids = [⟨"2"⟩] ∧ ∀ id ∈ excluded.ids, id ∉ hits.ids := by
  obtain ⟨hits, hrun, hids⟩ := @exists_run_of_ids (memoSearch ["cat", "cat bird"])
    (.group .all unlikeBird none) [⟨"1"⟩] (by decide +kernel)
  obtain ⟨found, hfound, hfoundIds⟩ := @exists_run_of_ids (memoSearch ["cat", "cat bird"])
    (.group .any [likeBird, .nothing ""] none) [⟨"2"⟩] (by decide +kernel)
  obtain ⟨⟨excluded, hexcluded, hspared⟩, -⟩ :=
    not_mem_ids_of_excluded (memoSearch ["cat", "cat bird"]) (List.mem_cons_self) hrun
  obtain rfl := Except.ok.inj (hfound.symm.trans hexcluded)
  exact ⟨hits, found, hrun, hfound, hids, hfoundIds, hspared⟩

end Search

end Concordance
