import Concordance.Engine.Flush
import Concordance.Proofs.Operations
import Concordance.Proofs.Search.Evaluation
import Mathlib.Data.List.Pairwise

set_option relaxedAutoImplicit false
set_option autoImplicit false

/-!
# Conjunctions

A group in which all parts have to match never intersects what its parts find. It gathers the hits
of all of them and keeps those that have matched as many values as the group has leaves. If no part
is a group and the values are different, these are the documents that every leaf finds, without
those that an exclusion finds.

## Main definitions

* `Concordance.Query.IsFlat` — a query that is no group.

## Main results

* `Concordance.Search.mem_noteParts_iff` — the values that a document has matched in the leaves.
* `Concordance.Search.exists_card_iff` — it has matched as many values as there are leaves iff
  every leaf finds it.
* `Concordance.Search.mem_ids_allOf` — the documents of a conjunction.
-/

namespace Concordance

namespace Query

/-- The query is no group. -/
def IsFlat (query : Query) : Prop := ∀ joint parts boost, query ≠ .group joint parts boost

/-- The values of the leaves among the parts of a group. -/
def values (parts : List Query) : List String := (parts.filterMap clause?).map Clause.value

/-- A value is among those of the clauses if one of them has it. -/
lemma mem_values {parts : List Query} {value : String} : value ∈ values parts ↔
    ∃ part ∈ parts, part.clause?.map Clause.value = some value := by
  simp only [values, List.mem_map, List.mem_filterMap, Option.map_eq_some_iff]
  constructor
  · rintro ⟨clause, ⟨part, hpart, hclause⟩, hvalue⟩
    exact ⟨part, hpart, clause, hclause, hvalue⟩
  · rintro ⟨part, hpart, clause, hclause, hvalue⟩
    exact ⟨clause, ⟨part, hpart, hclause⟩, hvalue⟩

/-- Leaves with one value are one leaf, if no value stands twice. -/
lemma eq_of_value_eq {parts : List Query} (hdistinct : (values parts).Nodup) {part part' : Query}
    (hpart : part ∈ parts) (hpart' : part' ∈ parts) {value : String}
    (hvalue : part.clause?.map Clause.value = some value)
    (hvalue' : part'.clause?.map Clause.value = some value) : part = part' := by
  by_contra hne
  have hpairwise := List.pairwise_filterMap.1 (List.pairwise_map.1 hdistinct)
  have hsymm : Std.Symm fun a a' : Query => ∀ clause, a.clause? = some clause →
      ∀ clause', a'.clause? = some clause' → clause.value ≠ clause'.value :=
    ⟨fun a a' h clause hclause clause' hclause' heq => h clause' hclause' clause hclause heq.symm⟩
  obtain ⟨clause, hclause, heq⟩ := Option.map_eq_some_iff.1 hvalue
  obtain ⟨clause', hclause', heq'⟩ := Option.map_eq_some_iff.1 hvalue'
  exact hpairwise.forall hpart hpart' hne clause hclause clause' hclause' (heq.trans heq'.symm)

end Query

namespace Search

open Operation Query

variable {search : Search} {hits hits' : ResultSet} {parts : List Query} {id : DocId}

/-! ## Parts that succeed -/

/-- The parts of a group that succeeds have all been evaluated.

**Proof sketch.** Induction on the parts: the hits before each of them can be read, so the part is
evaluated over readable hits or comes later. -/
lemma exists_evaluate (h : Readable search.store hits) {excluding : Bool}
    (hrun : search.evaluateParts excluding parts hits = .ok hits') {part : Query}
    (hpart : part ∈ parts) (hexcludes : part.excludes = excluding) :
    ∃ before after, Readable search.store before ∧ search.evaluate part before = .ok after := by
  induction parts generalizing hits with
  | nil => cases hpart
  | cons first parts ih =>
    rw [evaluateParts] at hrun
    split at hrun
    · obtain ⟨next, hfirst, hrun⟩ := bind_eq_ok_iff.1 hrun
      rcases List.mem_cons.1 hpart with rfl | hpart
      · exact ⟨hits, next, h, hfirst⟩
      · exact ih (matched_evaluate search h first hfirst).1 hrun hpart
    · next hother =>
      rcases List.mem_cons.1 hpart with rfl | hpart
      · exact absurd hexcludes hother
      · exact ih h hrun hpart

/-- A group that succeeds has evaluated all its parts. -/
lemma exists_evaluate_of_group {joint : Joint} {boost : Option Single}
    (hrun : search.run (.group joint parts boost) = .ok hits) {part : Query}
    (hpart : part ∈ parts) :
    ∃ before after, Readable search.store before ∧ search.evaluate part before = .ok after := by
  unfold run at hrun
  rw [evaluate] at hrun
  obtain ⟨first, hfirst, hrun⟩ := bind_eq_ok_iff.1 hrun
  obtain ⟨second, hsecond, -⟩ := bind_eq_ok_iff.1 hrun
  have hreadable := readable_empty search.store
  cases hexcludes : part.excludes with
  | false => exact exists_evaluate hreadable hfirst hpart hexcludes
  | true =>
    exact exists_evaluate (matched_evaluateParts search false hreadable parts hfirst).1 hsecond
      hpart hexcludes

/-- A leaf in a group that succeeds would succeed alone. -/
lemma exists_run_leaf {joint : Joint} {boost : Option Single}
    (hrun : search.run (.group joint parts boost) = .ok hits) {part : Query} (hpart : part ∈ parts)
    (hclause : part.clause?.isSome) : ∃ found, search.run part = .ok found := by
  obtain ⟨before, after, hreadable, hevaluate⟩ := exists_evaluate_of_group hrun hpart
  cases part with
  | leaf kind field value weight =>
    obtain ⟨-, alone, halone, -⟩ := leaf_alone hreadable hevaluate
    exact ⟨alone, halone⟩
  | group joint parts weight => cases hclause
  | not part weight => cases hclause
  | nothing reason => cases hclause

/-- What an exclusion in a group that succeeds takes out would succeed alone. -/
lemma exists_run_not {joint : Joint} {boost : Option Single}
    (hrun : search.run (.group joint parts boost) = .ok hits) {part : Query}
    {weight : Option Single} (hpart : .not part weight ∈ parts) :
    ∃ found, search.run part = .ok found := by
  obtain ⟨before, after, -, hevaluate⟩ := exists_evaluate_of_group hrun hpart
  rw [evaluate] at hevaluate
  obtain ⟨excluded, hexcluded, -⟩ := bind_eq_ok_iff.1 hevaluate
  exact ⟨excluded, hexcluded⟩

/-- A query without an error misses a document iff it notes nothing for it. -/
lemma misses_iff {query : Query} {found : ResultSet} (hrun : search.run query = .ok found) :
    search.Misses query id ↔ search.note id query none = none := by
  rw [← Option.not_isSome_iff_eq_none, ← mem_ids_run hrun]
  constructor
  · rintro ⟨found', hrun', hid⟩
    rw [hrun] at hrun'
    cases hrun'
    exact hid
  · exact fun hid => ⟨found, hrun, hid⟩

/-! ## The matches of one document -/

/-- A leaf finds a document for its value. -/
def FindsFor (search : Search) (part : Query) (id : DocId) (value : String) : Prop :=
  part.clause?.map Clause.value = some value ∧ search.Returns part id

/-- A part that is no group and does not exclude adds the value for which it finds a document to
those that the document has matched.

**Proof sketch.** By the kinds of parts. A leaf that returns the document notes its one value, and
otherwise nothing; nothing has no clause and notes nothing. -/
lemma mem_note_iff {part : Query} (hflat : part.IsFlat) (hexcludes : part.excludes = false)
    (terms : Option (Finset String)) :
    ((search.note id part terms).isSome ↔
      terms.isSome ∨ ∃ value, search.FindsFor part id value) ∧
    ∀ value, value ∈ (search.note id part terms).getD ∅ ↔
      value ∈ terms.getD ∅ ∨ search.FindsFor part id value := by
  cases part with
  | group joint parts boost => exact absurd rfl (hflat joint parts boost)
  | not part boost => cases hexcludes
  | nothing reason => simp [note, FindsFor, clause?]
  | leaf kind field value boost =>
    by_cases hreturns : search.Returns (.leaf kind field value boost) id
    · have hfinds : ∀ other, search.FindsFor (.leaf kind field value boost) id other ↔
          other = value := by
        intro other
        simp [FindsFor, clause?, hreturns, eq_comm]
      obtain ⟨found, hrun, hid⟩ := hreturns
      have hleaf : leaf search.store kind field value .empty = .ok found := hrun
      have hnote : search.note id (.leaf kind field value boost) terms =
          some (insert value (terms.getD ∅)) := by
        rw [note]
        simp only [hleaf, if_pos hid]
      simp [hnote, hfinds, or_comm]
    · have hfinds : ∀ other, ¬ search.FindsFor (.leaf kind field value boost) id other :=
        fun other h => hreturns h.2
      have hnote : search.note id (.leaf kind field value boost) terms = terms := by
        rw [note]
        split
        · next found hrun => exact if_neg fun hid => hreturns ⟨found, hrun, hid⟩
        · rfl
      simp [hnote, hfinds]

/-- The values that a document has matched once the leaves of a group are evaluated: those from
before, and those for which a leaf finds it. It has a hit iff it had one, or some leaf finds it.

**Proof sketch.** Induction on the parts. Parts that exclude are left out, and they have no values.
-/
theorem mem_noteParts_iff (hflat : ∀ part ∈ parts, part.IsFlat)
    (terms : Option (Finset String)) :
    ((search.noteParts id false parts terms).isSome ↔
      terms.isSome ∨ ∃ value, ∃ part ∈ parts, search.FindsFor part id value) ∧
    ∀ value, value ∈ (search.noteParts id false parts terms).getD ∅ ↔
      value ∈ terms.getD ∅ ∨ ∃ part ∈ parts, search.FindsFor part id value := by
  induction parts generalizing terms with
  | nil => simp [noteParts]
  | cons part parts ih =>
    have hrest := ih fun other hother => hflat other (List.mem_cons_of_mem _ hother)
    simp only [List.exists_mem_cons_iff, noteParts]
    split
    · next hexcludes =>
      obtain ⟨hsome, hmem⟩ := mem_note_iff (hflat part List.mem_cons_self) hexcludes terms
      obtain ⟨hsome', hmem'⟩ := hrest (search.note id part terms)
      refine ⟨?_, fun value => ?_⟩
      · rw [hsome', hsome, exists_or, or_assoc]
      · rw [hmem', hmem, or_assoc]
    · next hexcludes =>
      have hnot : ∀ value, ¬ search.FindsFor part id value := by
        rintro value ⟨hvalue, -⟩
        cases part <;> simp_all [excludes, clause?]
      simp only [hnot, false_or]
      exact hrest terms

/-- After the exclusions of a group a document has matched what it had before, unless one of them
takes it out.

**Proof sketch.** Induction on the parts. Those that do not exclude are left out, and an exclusion
takes the document out iff its part notes something for it. -/
lemma noteParts_excluding (terms : Option (Finset String)) (matched : Finset String) :
    search.noteParts id true parts terms = some matched ↔ terms = some matched ∧
      ∀ part ∈ parts, ∀ other boost, part = .not other boost →
        search.note id other none = none := by
  induction parts generalizing terms with
  | nil => simp [noteParts]
  | cons part parts ih =>
    rw [noteParts, ih, List.forall_mem_cons]
    cases part with
    | leaf kind field value boost => simp [excludes]
    | group joint parts boost => simp [excludes]
    | nothing reason => simp [excludes]
    | not part boost =>
      simp only [excludes, if_true, note, Query.not.injEq]
      cases hpart : search.note id part none with
      | none => simp [hpart]
      | some terms' =>
        refine iff_of_false (by simp) ?_
        rintro ⟨-, hall, -⟩
        have := hall part boost ⟨rfl, rfl⟩
        simp [hpart] at this

/-- A document that has matched some of the values of leaves, all of them different, has matched as
many as there are leaves iff it has matched all of them. -/
theorem card_matched_iff {matched : Finset String} (hdistinct : (values parts).Nodup)
    (hsub : ∀ value ∈ matched, value ∈ values parts) :
    matched.card = (parts.filterMap clause?).length ↔ ∀ value ∈ values parts, value ∈ matched := by
  have hlength : (parts.filterMap clause?).length = (values parts).toFinset.card := by
    rw [List.toFinset_card_of_nodup hdistinct, values, List.length_map]
  have hsubset : matched ⊆ (values parts).toFinset := fun value hvalue =>
    List.mem_toFinset.2 (hsub value hvalue)
  rw [hlength]
  constructor
  · intro hcard value hvalue
    rw [Finset.eq_of_subset_of_card_le hsubset hcard.ge]
    exact List.mem_toFinset.2 hvalue
  · intro hall
    exact congrArg Finset.card (hsubset.antisymm fun value hvalue =>
      hall value (List.mem_toFinset.1 hvalue))

/-! ## The documents of a conjunction -/

/-- Once the leaves of a group are evaluated, a document has matched as many values as there are
leaves iff every leaf returns it.

**Proof sketch.** The values matched are among those of the leaves, which are different, so there
are as many of them as leaves iff all are matched. A value is matched iff the one leaf that has it
returns the document. -/
lemma exists_card_iff (hflat : ∀ part ∈ parts, part.IsFlat)
    (hleaf : parts.filterMap clause? ≠ []) (hdistinct : (values parts).Nodup) :
    (∃ matched, search.noteParts id false parts none = some matched ∧
        matched.card = (parts.filterMap clause?).length) ↔
      ∀ part ∈ parts, part.clause?.isSome → search.Returns part id := by
  obtain ⟨hsome, hmem⟩ := @mem_noteParts_iff search parts id hflat none
  simp only [Option.isSome_none, Option.getD_none, Finset.notMem_empty, Bool.false_eq_true,
    false_or] at hsome hmem
  -- values are different, so counting the matched ones tells whether all are matched
  have hcard : ∀ matched, search.noteParts id false parts none = some matched →
      (matched.card = (parts.filterMap clause?).length ↔
        ∀ value ∈ values parts, value ∈ matched) := by
    intro matched hmatched
    refine card_matched_iff hdistinct fun value hvalue => ?_
    rw [hmatched, Option.getD_some] at hmem
    obtain ⟨part, hpart, hclause, -⟩ := (hmem value).1 hvalue
    exact mem_values.2 ⟨part, hpart, hclause⟩
  constructor
  · rintro ⟨matched, hmatched, hall⟩ part hpart hclause
    obtain ⟨clause, hclause⟩ := Option.isSome_iff_exists.1 hclause
    have hvalue : part.clause?.map Clause.value = some clause.value := by simp [hclause]
    have hin := (hcard matched hmatched).1 hall _ (mem_values.2 ⟨part, hpart, hvalue⟩)
    rw [hmatched, Option.getD_some] at hmem
    obtain ⟨part', hpart', hvalue', hreturns⟩ := (hmem _).1 hin
    rwa [eq_of_value_eq hdistinct hpart hpart' hvalue hvalue']
  · intro hall
    have hfinds : ∀ part ∈ parts, ∀ value, part.clause?.map Clause.value = some value →
        search.FindsFor part id value := fun part hpart value hvalue =>
      ⟨hvalue, hall part hpart (by rw [← Option.isSome_map, hvalue]; rfl)⟩
    -- there is a leaf, and it returns the document, so something is matched at all
    obtain ⟨value, hvalue⟩ :=
      List.exists_mem_of_ne_nil (values parts) (by simpa [values] using hleaf)
    obtain ⟨part, hpart, hclause⟩ := mem_values.1 hvalue
    obtain ⟨matched, hmatched⟩ := Option.isSome_iff_exists.1
      (hsome.2 ⟨value, part, hpart, hfinds part hpart value hclause⟩)
    refine ⟨matched, hmatched, (hcard matched hmatched).2 fun value hvalue => ?_⟩
    obtain ⟨part, hpart, hclause⟩ := mem_values.1 hvalue
    rw [hmatched, Option.getD_some] at hmem
    exact (hmem value).2 ⟨part, hpart, hfinds part hpart value hclause⟩

/-- A document has a hit of a conjunction without groups iff every leaf returns it and no exclusion
takes it out. -/
lemma isSome_note_all_iff {boost : Option Single} (hflat : ∀ part ∈ parts, part.IsFlat)
    (hleaf : parts.filterMap clause? ≠ []) (hdistinct : (values parts).Nodup) :
    (search.note id (.group .all parts boost) none).isSome ↔
      (∀ part ∈ parts, part.clause?.isSome → search.Returns part id) ∧
      ∀ part ∈ parts, ∀ other boost, part = .not other boost →
        search.note id other none = none := by
  rw [← exists_card_iff hflat hleaf hdistinct, note, Option.isSome_iff_exists]
  simp only [kept, Option.filter_eq_some_iff, noteParts_excluding, decide_eq_true_eq]
  constructor
  · rintro ⟨matched, ⟨hmatched, hexcluded⟩, hcard⟩
    exact ⟨⟨matched, hmatched, hcard⟩, hexcluded⟩
  · rintro ⟨⟨matched, hmatched, hcard⟩, hexcluded⟩
    exact ⟨matched, ⟨hmatched, hexcluded⟩, hcard⟩

/-- **A conjunction is an intersection.** If no part of a conjunction is a group, some part is a
leaf, and the values of the leaves are different, then the leaves and what the exclusions take out
succeed alone if the conjunction does. Its hits are those documents that every leaf returns alone
and nothing that is excluded returns alone.

**Proof sketch.** A document is followed on its own. Once the leaves are evaluated it has matched
the values of those leaves that return it, and exclusions only take hits out. The values are
different, so it has matched as many as there are leaves iff every leaf returns it. -/
theorem mem_ids_allOf (search : Search) {parts : List Query} {boost : Option Single}
    (hflat : ∀ part ∈ parts, part.IsFlat) (hleaf : parts.filterMap clause? ≠ [])
    (hdistinct : ((parts.filterMap clause?).map Clause.value).Nodup) {hits : ResultSet}
    (hrun : search.run (.group .all parts boost) = .ok hits) :
    (∀ part ∈ parts, part.clause?.isSome → ∃ found, search.run part = .ok found) ∧
    (∀ part weight, .not part weight ∈ parts → ∃ found, search.run part = .ok found) ∧
    ∀ id, id ∈ hits.ids ↔ (∀ part ∈ parts, part.clause?.isSome → search.Returns part id) ∧
      ∀ part weight, .not part weight ∈ parts → search.Misses part id := by
  have hexcluded : ∀ part weight, .not part weight ∈ parts →
      ∃ found, search.run part = .ok found := fun part weight => exists_run_not hrun
  refine ⟨fun part hpart hclause => exists_run_leaf hrun hpart hclause, hexcluded, fun id => ?_⟩
  rw [mem_ids_run hrun, isSome_note_all_iff hflat hleaf hdistinct]
  refine and_congr_right fun _ => ⟨?_, ?_⟩
  · intro h part weight hpart
    obtain ⟨found, hfound⟩ := hexcluded part weight hpart
    exact (misses_iff hfound).2 (h _ hpart part weight rfl)
  · rintro h _ hpart other weight rfl
    obtain ⟨found, hfound⟩ := hexcluded other weight hpart
    exact (misses_iff hfound).1 (h other weight hpart)

/-- Hits that are computed. -/
lemma exists_run_of_ids {query : Query} {ids : List DocId}
    (h : (search.run query).toOption.map ResultSet.ids = some ids) :
    ∃ found, search.run query = .ok found ∧ found.ids = ids := by
  cases hrun : search.run query with
  | error e => simp [hrun, Except.toOption] at h
  | ok found => exact ⟨found, rfl, by simpa [hrun, Except.toOption] using h⟩

/-- A search in a store with memos, which have nothing but a title. They are numbered from 1 on. -/
def memoSearch (titles : List String) : Search where
  store := Operation.after (Store.openIn .read) (Operation.after
    (do
      Engine.onStore Store.createFiles
      titles.forM fun title => do
        let _ ← Engine.add (.ofList [("title", .text title)])
      Engine.flush)
    { store := .withAnalyzer
        { name := "memos", fields := [⟨"title", { stored := true, indexed := true }⟩] }
        { docsWidth := 3, indexWidth := 3, stateWidth := 3 } .simple ∅ }).store
  scoring := {}
  flagged := ""

/-- Memos about a cat with a word like the start of dog, but with none like the start of bird. -/
def catQuery : List Query :=
  [.leaf .term "title" "cat" none, .leaf .start "title" "do" none, .nothing "",
    .not (.leaf .start "title" "bi" none) none]

/-- One of two memos is found. -/
theorem mem_ids_allOf_memos : ∃ hits,
    (memoSearch ["cat dog", "cat"]).run (.group .all catQuery none) = .ok hits ∧
      hits.ids = [⟨"1"⟩] ∧ ∀ id, id ∈ hits.ids ↔
        (∀ part ∈ catQuery, part.clause?.isSome →
          (memoSearch ["cat dog", "cat"]).Returns part id) ∧
        ∀ part weight, .not part weight ∈ catQuery →
          (memoSearch ["cat dog", "cat"]).Misses part id := by
  obtain ⟨hits, hrun, hids⟩ := @exists_run_of_ids (memoSearch ["cat dog", "cat"])
    (.group .all catQuery none) [⟨"1"⟩] (by decide +kernel)
  have hflat : ∀ part ∈ catQuery, part.IsFlat := by
    simp [catQuery, IsFlat]
  exact ⟨hits, hrun, hids, (mem_ids_allOf (memoSearch ["cat dog", "cat"]) hflat (by decide)
    (by decide) hrun).2.2⟩

end Search

end Concordance
