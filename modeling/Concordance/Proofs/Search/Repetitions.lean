import Concordance.Proofs.Search.Conjunctions

set_option relaxedAutoImplicit false
set_option autoImplicit false

/-!
# Repeated conditions

The values that a hit has matched are a set, but the leaves that they are counted against are a
list. So a conjunction whose leaves share a value has more leaves than a hit can match values, and
finds nothing: neither with a leaf that stands twice, nor with a term and the beginning of one, nor
with one term in two fields.

## Main results

* `Concordance.Search.nodup_values_of_mem` — a conjunction with hits has different values.
* `Concordance.Search.mem_ids_of_leaves` — what a conjunction of leaves finds.
* `Concordance.Search.ids_allOf_repeated` — a leaf that is repeated takes all hits away.
-/

namespace Concordance

namespace Search

open Query

variable {search : Search} {hits hits' : ResultSet} {parts : List Query} {part : Query}
  {boost : Option Single} {id : DocId}

/-- The values of leaves are different if as many of them have been matched as there are leaves. -/
lemma nodup_of_card_eq {matched : Finset String} (hsub : ∀ value ∈ matched, value ∈ values parts)
    (hcard : matched.card = (parts.filterMap clause?).length) : (values parts).Nodup := by
  have hsubset : matched ⊆ (values parts).toFinset := fun value hvalue =>
    List.mem_toFinset.2 (hsub value hvalue)
  have hlength : (values parts).length = (parts.filterMap clause?).length := List.length_map _
  have hle : (values parts).length ≤ (values parts).toFinset.card := by
    rw [hlength, ← hcard]
    exact Finset.card_le_card hsubset
  have heq : (values parts).toFinset.card = (values parts).length :=
    (List.toFinset_card_le _).antisymm hle
  exact Multiset.coe_nodup.1 (Multiset.toFinset_card_eq_card_iff_nodup.1 heq)

/-- A conjunction without groups that has a hit has leaves with different values. -/
theorem nodup_values_of_mem (hflat : ∀ part ∈ parts, part.IsFlat)
    (hrun : search.run (.group .all parts boost) = .ok hits) (hid : id ∈ hits.ids) :
    (values parts).Nodup := by
  have hsome := (mem_ids_run hrun id).1 hid
  rw [note, Option.isSome_iff_exists] at hsome
  obtain ⟨matched, hmatched⟩ := hsome
  simp only [kept, Option.filter_eq_some_iff, noteParts_excluding, decide_eq_true_eq] at hmatched
  obtain ⟨⟨hmatched, -⟩, hcard⟩ := hmatched
  refine nodup_of_card_eq (fun value hvalue => ?_) hcard
  obtain ⟨-, hmem⟩ := @mem_noteParts_iff search parts id hflat none
  rw [hmatched, Option.getD_some] at hmem
  obtain hnone | ⟨part, hpart, hfinds⟩ := (hmem value).1 hvalue
  · cases hnone
  · exact mem_values.2 ⟨part, hpart, hfinds.1⟩

/-- A leaf is a flat query. -/
lemma isFlat_of_leaf (h : part.clause?.isSome) : part.IsFlat := by
  rintro joint parts boost rfl
  cases h

/-- A conjunction of leaves finds the documents that all of them return, if their values are
different, and nothing otherwise.

**Proof sketch.** If some document is found there are as many values as leaves, so the values are
different. If they are different, a document is found iff it is returned by every leaf, and there
are no exclusions. -/
theorem mem_ids_of_leaves (hleaf : ∀ part ∈ parts, part.clause?.isSome) (hsome : parts ≠ [])
    (hrun : search.run (.group .all parts boost) = .ok hits) (id : DocId) :
    id ∈ hits.ids ↔ (values parts).Nodup ∧ ∀ part ∈ parts, search.Returns part id := by
  have hflat : ∀ part ∈ parts, part.IsFlat := fun part hpart => isFlat_of_leaf (hleaf part hpart)
  have hclauses : parts.filterMap clause? ≠ [] := by
    obtain ⟨part, hpart⟩ := List.exists_mem_of_ne_nil parts hsome
    obtain ⟨clause, hclause⟩ := Option.isSome_iff_exists.1 (hleaf part hpart)
    exact List.ne_nil_of_mem (List.mem_filterMap.2 ⟨part, hpart, hclause⟩)
  have hiff : (values parts).Nodup →
      (id ∈ hits.ids ↔ ∀ part ∈ parts, search.Returns part id) := by
    intro hdistinct
    rw [mem_ids_run hrun, isSome_note_all_iff hflat hclauses hdistinct]
    constructor
    · exact fun h part hpart => h.1 part hpart (hleaf part hpart)
    · refine fun h => ⟨fun part hpart _ => h part hpart, ?_⟩
      rintro _ hpart other boost rfl
      cases hleaf _ hpart
  constructor
  · intro hid
    have hdistinct := nodup_values_of_mem hflat hrun hid
    exact ⟨hdistinct, (hiff hdistinct).1 hid⟩
  · exact fun ⟨hdistinct, hall⟩ => (hiff hdistinct).2 hall

/-- The value of a leaf that is repeated stands twice. -/
lemma not_nodup_values_concat (hpart : part ∈ parts) (hclause : part.clause?.isSome) :
    ¬ (values (parts ++ [part])).Nodup := by
  obtain ⟨clause, hclause⟩ := Option.isSome_iff_exists.1 hclause
  have hvalue : clause.value ∈ values parts := mem_values.2 ⟨part, hpart, by rw [hclause]; rfl⟩
  have hvalues : values (parts ++ [part]) = values parts ++ [clause.value] := by
    simp [values, hclause]
  rw [hvalues, List.nodup_append]
  exact fun h => h.2.2 _ hvalue _ (List.mem_singleton_self _) rfl

/-- **A repeated condition takes all hits away.** Let the parts of a conjunction be leaves, and let
it succeed both as it stands and with one of its parts once more at the end. With the repetition it
has no hits. Without it, it has hits of the documents that all parts return alone, if their values
are different, and none otherwise. So the repetition changes nothing exactly if two parts share a
value or there is no document that all of them return.

**Proof sketch.** A document has matched no more than the different values of the leaves, and is
kept if it has matched as many as there are leaves. With a repetition there are more leaves than
different values. -/
theorem ids_allOf_repeated (search : Search) {parts : List Query} {boost : Option Single}
    (hleaf : ∀ part ∈ parts, part.clause?.isSome) {part : Query} (hpart : part ∈ parts)
    {hits hits' : ResultSet} (hrun : search.run (.group .all parts boost) = .ok hits)
    (hrun' : search.run (.group .all (parts ++ [part]) boost) = .ok hits') :
    hits'.ids = [] ∧
    (∀ id, id ∈ hits.ids ↔ (values parts).Nodup ∧ ∀ other ∈ parts, search.Returns other id) ∧
    ((∀ id, id ∈ hits'.ids ↔ id ∈ hits.ids) ↔
      ¬ ((values parts).Nodup ∧ ∃ id, ∀ other ∈ parts, search.Returns other id)) := by
  have hmem := mem_ids_of_leaves hleaf (List.ne_nil_of_mem hpart) hrun
  have hnone : hits'.ids = [] := by
    have hleaf' : ∀ other ∈ parts ++ [part], other.clause?.isSome := by
      intro other hother
      rcases List.mem_append.1 hother with hother | hother
      · exact hleaf other hother
      · rw [List.mem_singleton.1 hother]
        exact hleaf part hpart
    refine List.eq_nil_iff_forall_not_mem.2 fun id hid => ?_
    exact not_nodup_values_concat hpart (hleaf part hpart)
      ((mem_ids_of_leaves hleaf' (by simp) hrun' id).1 hid).1
  refine ⟨hnone, hmem, ?_⟩
  simp only [hnone, List.not_mem_nil, false_iff, hmem, not_and, not_exists]
  exact forall_comm

/-- Memos with the word cat in the title. -/
def catTitle : Query := .leaf .term "title" "cat" none

/-- A repeated condition takes the only memo away. -/
theorem ids_allOf_repeated_memos : ∃ hits',
    (memoSearch ["cat"]).run (.group .all ([catTitle] ++ [catTitle]) none) = .ok hits' ∧
      hits'.ids = [] := by
  obtain ⟨hits, hrun, -⟩ := @exists_run_of_ids (memoSearch ["cat"]) (.group .all [catTitle] none)
    [⟨"1"⟩] (by decide +kernel)
  obtain ⟨hits', hrun', -⟩ := @exists_run_of_ids (memoSearch ["cat"])
    (.group .all ([catTitle] ++ [catTitle]) none) [] (by decide +kernel)
  have hleaf : ∀ part ∈ [catTitle], part.clause?.isSome := List.forall_mem_singleton.2 rfl
  exact ⟨hits', hrun', (ids_allOf_repeated (memoSearch ["cat"]) hleaf
    (List.mem_singleton_self catTitle) hrun hrun').1⟩

/-- **Conjunctions are not idempotent.** The only memo is found by a condition, and no longer if the
condition is repeated. -/
theorem mem_ids_not_mem_ids_repeated : ∃ hits hits',
    (memoSearch ["cat"]).run (.group .all [catTitle] none) = .ok hits ∧
    (memoSearch ["cat"]).run (.group .all ([catTitle] ++ [catTitle]) none) = .ok hits' ∧
      ⟨"1"⟩ ∈ hits.ids ∧ ⟨"1"⟩ ∉ hits'.ids := by
  obtain ⟨hits, hrun, hids⟩ := @exists_run_of_ids (memoSearch ["cat"])
    (.group .all [catTitle] none) [⟨"1"⟩] (by decide +kernel)
  obtain ⟨hits', hrun', hids'⟩ := @exists_run_of_ids (memoSearch ["cat"])
    (.group .all ([catTitle] ++ [catTitle]) none) [] (by decide +kernel)
  refine ⟨hits, hits', hrun, hrun', ?_, ?_⟩
  · rw [hids]
    exact List.mem_singleton_self _
  · rw [hids']
    exact List.not_mem_nil

end Search

end Concordance
