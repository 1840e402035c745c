import Concordance.Proofs.Query.Shapes
import Mathlib.Data.List.DropRight

set_option relaxedAutoImplicit false
set_option autoImplicit false

/-!
# Normal forms

Normal form works from the inside to the outside. When it comes to a group, the parts are in normal
form already, so a group of two parts or more stays, and what takes the place of a smaller one needs
no more work: it is the only part, or nothing. Queries in normal form can thus be told from their
nodes alone, and they are the ones that do not change. The leaves that can match anything stay in
their order, with their boosts.

## Main definitions

* `Concordance.Query.nodes` — a query and all queries inside it.
* `Concordance.Query.IsNormal` — no node is a group of less than two parts or a phrase of blanks.
* `Concordance.Query.visibleLeaves` — the leaves from left to right without phrases of blanks.

## Main results

* `Concordance.Query.isNormal_normalize` — normal form is reached at once.
* `Concordance.Query.normalize_of_isNormal` — a query in normal form does not change.
* `Concordance.Query.visibleLeaves_normalize` — no leaf is lost but phrases of blanks.
* `Concordance.Query.isNormal_and_visibleLeaves_normalize` — all of this for any query.
-/

namespace Concordance

/-! ## Blanks at the ends of texts -/

namespace Text

/-- A text without the blanks at its ends. -/
def trim (text : String) : String :=
  String.ofList ((text.toList.dropWhile isBlank).rdropWhile isBlank)

/-- Nothing is left of a text exactly if it is blanks alone. -/
lemma trim_eq_empty_iff {text : String} : trim text = "" ↔ allBlank text = true := by
  rw [trim, allBlank, ← String.toList_inj, String.toList_ofList, List.all_eq_true]
  constructor
  · intro htrim c hc
    have hdrop := List.rdropWhile_eq_nil_iff.1 htrim
    rw [← List.takeWhile_append_dropWhile (p := isBlank) (l := text.toList)] at hc
    rcases List.mem_append.1 hc with hc | hc
    · exact List.mem_takeWhile_imp hc
    · exact hdrop c hc
  · intro hall
    rw [List.dropWhile_eq_nil_iff.2 hall]
    rfl

end Text

namespace Query

/-! ## The nodes of a query -/

/-- Induction on a query and the parts of its groups. -/
@[elab_as_elim]
theorem induction {motive : Query → Prop}
    (leaf : ∀ kind field value boost, motive (.leaf kind field value boost))
    (group : ∀ joint parts boost, (∀ part ∈ parts, motive part) → motive (.group joint parts boost))
    (not : ∀ part boost, motive part → motive (.not part boost))
    (nothing : ∀ reason, motive (.nothing reason)) : ∀ query, motive query
  | .leaf kind field value boost => leaf kind field value boost
  | .group joint parts boost =>
    group joint parts boost fun part _ => induction leaf group not nothing part
  | .not part boost => not part boost (induction leaf group not nothing part)
  | .nothing reason => nothing reason

mutual

/-- A query and all queries inside it, each before its parts. -/
def nodes : Query → List Query
  | .leaf kind field value boost => [.leaf kind field value boost]
  | .group joint parts boost => .group joint parts boost :: nodesAll parts
  | .not part boost => .not part boost :: part.nodes
  | .nothing reason => [.nothing reason]

/-- Several queries and all queries inside them. -/
def nodesAll : List Query → List Query
  | [] => []
  | part :: parts => part.nodes ++ nodesAll parts

end

/-- A group that needs none, or a phrase of which nothing is left without the blanks at its ends. -/
def IsRedundant : Query → Prop
  | .group _ parts _ => parts.length < 2
  | .leaf .phrase _ value _ => Text.trim value = ""
  | _ => False

/-- A query is in normal form if no node is redundant. -/
def IsNormal (query : Query) : Prop := ∀ node ∈ query.nodes, ¬ node.IsRedundant

/-- A leaf that can match something. -/
def isVisibleLeaf (query : Query) : Bool := query.clause?.isSome && !query.isBlankPhrase

/-- The leaves from left to right without phrases of blanks. -/
def visibleLeaves (query : Query) : List Query := query.nodes.filter isVisibleLeaf

variable {query part : Query} {parts : List Query} {joint : Joint} {boost : Option Single}

/-- The nodes of several queries are those of each, one after the other. -/
lemma nodesAll_eq_flatMap (parts : List Query) : nodesAll parts = parts.flatMap nodes := by
  induction parts with
  | nil => rfl
  | cons part parts ih => rw [nodesAll, ih, List.flatMap_cons]

/-- A group is in normal form if it has two parts at least, each of them in normal form. -/
lemma isNormal_group_iff : (group joint parts boost).IsNormal ↔
    2 ≤ parts.length ∧ ∀ part ∈ parts, part.IsNormal := by
  rw [IsNormal, nodes, nodesAll_eq_flatMap, List.forall_mem_cons, IsRedundant, not_lt]
  refine and_congr_right' ⟨fun h part hpart node hnode => ?_, fun h node hnode => ?_⟩
  · exact h node (List.mem_flatMap_of_mem hpart hnode)
  · obtain ⟨part, hpart, hnode⟩ := List.mem_flatMap.1 hnode
    exact h part hpart node hnode

/-- An exclusion is in normal form if its part is. -/
lemma isNormal_not_iff : (not part boost).IsNormal ↔ part.IsNormal := by
  rw [IsNormal, nodes, List.forall_mem_cons]
  exact and_iff_right not_false

/-- A query that matches nothing is in normal form. -/
lemma isNormal_nothing (reason : String) : (nothing reason).IsNormal :=
  List.forall_mem_singleton.2 not_false

/-- A phrase is in normal form unless it is blank. -/
lemma isNormal_phrase_iff {field value : String} :
    (leaf .phrase field value boost).IsNormal ↔ Text.allBlank value = false := by
  rw [IsNormal, nodes, List.forall_mem_singleton, IsRedundant, Text.trim_eq_empty_iff,
    Bool.not_eq_true]

/-- The visible leaves of a group are those of its parts. -/
lemma visibleLeaves_group : (group joint parts boost).visibleLeaves =
    parts.flatMap visibleLeaves := by
  rw [visibleLeaves, nodes, nodesAll_eq_flatMap,
    List.filter_cons_of_neg (by simp [isVisibleLeaf, clause?]), List.filter_flatMap]
  rfl

/-- The visible leaves of an exclusion are those of its part. -/
lemma visibleLeaves_not : (not part boost).visibleLeaves = part.visibleLeaves := by
  rw [visibleLeaves, nodes, List.filter_cons_of_neg (by simp [isVisibleLeaf, clause?])]
  rfl

/-! ## Normal form of a group -/

/-- Parts in normal form make up a query in normal form, whether they need a group or not. -/
lemma isNormal_regroup (joint : Joint) (boost : Option Single)
    (h : ∀ part ∈ parts, part.IsNormal) : (regroup joint boost parts).IsNormal := by
  match parts, h with
  | [], _ => exact isNormal_nothing _
  | [part], h => exact h part (List.mem_singleton_self part)
  | first :: second :: parts, h => exact isNormal_group_iff.2 ⟨by simp, h⟩

/-- The leaves of parts do not depend on whether they need a group. -/
lemma visibleLeaves_regroup (joint : Joint) (boost : Option Single) (parts : List Query) :
    (regroup joint boost parts).visibleLeaves = parts.flatMap visibleLeaves := by
  match parts with
  | [] => rfl
  | [part] => rw [regroup, List.flatMap_singleton]
  | first :: second :: parts => exact visibleLeaves_group

/-! ## Normal form of a query -/

/-- **Normal form is reached at once.**

**Proof sketch.** Induction on the query. A phrase of blanks becomes nothing, and the parts of a
group are in normal form before they are regrouped. -/
theorem isNormal_normalize (query : Query) : query.normalize.IsNormal := by
  induction query using induction with
  | leaf kind field value boost =>
    cases kind with
    | phrase =>
      rw [normalize]
      split
      · exact isNormal_nothing _
      · next hvisible => exact isNormal_phrase_iff.2 (by simpa using hvisible)
    | term => exact List.forall_mem_singleton.2 not_false
    | start => exact List.forall_mem_singleton.2 not_false
  | group joint parts boost ih =>
    rw [normalize, normalizeAll_eq_map]
    exact isNormal_regroup joint boost (List.forall_mem_map.2 ih)
  | not part boost ih => exact isNormal_not_iff.2 ih
  | nothing reason => exact isNormal_nothing reason

/-- A query in normal form does not change. -/
theorem normalize_of_isNormal (h : query.IsNormal) : query.normalize = query := by
  induction query using induction with
  | leaf kind field value boost =>
    cases kind with
    | phrase => rw [normalize, isNormal_phrase_iff.1 h, if_neg Bool.false_ne_true]
    | term => rfl
    | start => rfl
  | group joint parts boost ih =>
    obtain ⟨hlength, hparts⟩ := isNormal_group_iff.1 h
    have hsame : parts.map normalize = parts := by
      rw [List.map_congr_left fun part hpart => ih part hpart (hparts part hpart), List.map_id']
    rw [normalize, normalizeAll_eq_map, hsame, regroup_of_length joint boost hlength]
  | not part boost ih => rw [normalize, ih (isNormal_not_iff.1 h)]
  | nothing reason => rfl

/-- No leaf is lost but phrases of blanks.

**Proof sketch.** Induction on the query. A phrase of blanks is no visible leaf, and regrouping
keeps the visible leaves of the parts. -/
theorem visibleLeaves_normalize (query : Query) :
    query.normalize.visibleLeaves = query.visibleLeaves := by
  induction query using induction with
  | leaf kind field value boost =>
    cases kind with
    | phrase =>
      rw [normalize]
      split
      · next hblank => simp [visibleLeaves, nodes, isVisibleLeaf, isBlankPhrase, clause?, hblank]
      · rfl
    | term => rfl
    | start => rfl
  | group joint parts boost ih =>
    rw [normalize, normalizeAll_eq_map, visibleLeaves_regroup, visibleLeaves_group,
      List.flatMap_map]
    exact List.flatMap_congr ih
  | not part boost ih => rw [normalize, visibleLeaves_not, visibleLeaves_not, ih]
  | nothing reason => rfl

/-- **Normal form is canonical.** Whatever a query is made of, and whatever boosts it carries, no
node of its normal form is a group of less than two parts or a phrase of which nothing is left
without the blanks at its ends. The queries without such nodes are exactly those that normal form
does not change, so it changes nothing when it is taken once more. The terms, starts of terms and
visible phrases of a query stay in their order from left to right, each with its boost.

**Proof sketch.** Induction on the query. The parts of a group are in normal form before the group
is looked at. If they need no group, then what takes its place is one of them or nothing. -/
theorem isNormal_and_visibleLeaves_normalize (query : Query) :
    query.normalize.IsNormal ∧ (query.normalize = query ↔ query.IsNormal) ∧
      query.normalize.normalize = query.normalize ∧
      query.normalize.visibleLeaves = query.visibleLeaves := by
  have hnormal := isNormal_normalize query
  refine ⟨hnormal, ⟨fun hsame => ?_, normalize_of_isNormal⟩, normalize_of_isNormal hnormal,
    visibleLeaves_normalize query⟩
  rwa [hsame] at hnormal

end Query

end Concordance
