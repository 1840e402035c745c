import Concordance.Proofs.Search.Conjunctions
import Mathlib.Data.Set.Card

set_option relaxedAutoImplicit false
set_option autoImplicit false

/-!
# Queries that fail

If every leaf succeeds, only the end of a group can fail: when hits are left there, all fulltext
fields have to be stored. So a query without groups succeeds, and if all fulltext fields are stored
every query does. If some fulltext field is not stored, a group fails iff a document is left at its
end, which can be told from what its parts return alone.

## Main definitions

* `Concordance.Query.IsGroupless` — no group at any depth of a query.
* `Concordance.Query.Survives` — a document is left at the end of a group.
* `Concordance.Search.Serves`, `Succeeds` — all leaves succeed, or a query does, with any hits.

## Main results

* `Concordance.Search.succeeds_of_isGroupless` — queries without groups succeed.
* `Concordance.Search.succeeds` — if all fulltext fields are stored, all queries do.
* `Concordance.Search.run_group_cases` — if not, a group fails iff a document is left at its end.
-/

namespace Concordance

namespace Query

/-- There is no group in a query, at whatever depth. -/
inductive IsGroupless : Query → Prop
  | leaf (kind : Leaf) (field value : String) (boost : Option Single) :
    IsGroupless (.leaf kind field value boost)
  | not {part : Query} (boost : Option Single) (h : IsGroupless part) :
    IsGroupless (.not part boost)
  | nothing (reason : String) : IsGroupless (.nothing reason)

/-- A query without groups is none. -/
lemma IsGroupless.isFlat {query : Query} (h : query.IsGroupless) : query.IsFlat := by
  rintro joint parts boost rfl
  cases h

/-- An exclusion without groups inside excludes something without groups inside. -/
lemma IsGroupless.of_not {part : Query} {boost : Option Single}
    (h : (Query.not part boost).IsGroupless) : part.IsGroupless := by
  cases h
  assumption

/-- The values of the leaves among the parts of a group that return a document alone. -/
def valuesFor (returns : Query → DocId → Prop) (parts : List Query) (id : DocId) : Set String :=
  {value | ∃ part ∈ parts, part.clause?.map Clause.value = some value ∧ returns part id}

/-- A document is left at the end of a group whose parts are no groups, if the parts return certain
documents alone: some leaf returns it, nothing that is excluded does, and where all parts have to
match, the leaves that return it have as many values as the group has leaves. -/
structure Survives (returns : Query → DocId → Prop) (joint : Joint) (parts : List Query)
    (id : DocId) : Prop where
  found : (valuesFor returns parts id).Nonempty
  spared : ∀ part boost, .not part boost ∈ parts → ¬ returns part id
  counted : joint = .all →
    (valuesFor returns parts id).ncard = (parts.filterMap clause?).length

end Query

namespace Search

open Operation Query ResultSet

variable {search : Search} {hits hits' : ResultSet} {query : Query} {parts : List Query}
  {joint : Joint} {id : DocId}

/-- Every leaf succeeds, whatever hits there are. -/
def Serves (search : Search) : Prop :=
  ∀ kind field value hits, ∃ hits', leaf search.store kind field value hits = .ok hits'

/-- A query succeeds, whatever hits there are. -/
def Succeeds (search : Search) (query : Query) : Prop :=
  ∀ hits, ∃ hits', search.evaluate query hits = .ok hits'

/-! ## The parts of a group -/

/-- The parts of a group succeed one after the other. -/
lemma evaluateParts_ok (h : ∀ part ∈ parts, search.Succeeds part) (excluding : Bool)
    (hits : ResultSet) : ∃ hits', search.evaluateParts excluding parts hits = .ok hits' := by
  induction parts generalizing hits with
  | nil => exact ⟨hits, rfl⟩
  | cons part parts ih =>
    obtain ⟨hpart, hparts⟩ := List.forall_mem_cons.1 h
    rw [evaluateParts]
    split
    · obtain ⟨next, hnext⟩ := hpart hits
      rw [hnext]
      exact ih hparts next
    · exact ih hparts hits

/-- An exclusion succeeds if what it takes out does. -/
lemma Succeeds.not (h : search.Succeeds query) (boost : Option Single) :
    search.Succeeds (.not query boost) := by
  intro hits
  obtain ⟨excluded, hexcluded⟩ := h .empty
  rw [evaluate, hexcluded]
  exact ⟨_, rfl⟩

/-- **Queries without groups succeed** if all leaves do. -/
theorem succeeds_of_isGroupless (h : search.Serves) (hquery : query.IsGroupless) :
    search.Succeeds query := by
  induction hquery with
  | leaf kind field value boost => exact h kind field value
  | not boost _ ih => exact ih.not boost
  | nothing reason => exact fun hits => ⟨hits, rfl⟩

/-! ## The end of a group -/

/-- The hits that are left at the end of a group. -/
def remaining (joint : Joint) (parts : List Query) (hits : ResultSet) : ResultSet :=
  match joint with
  | .all => hits.retain fun hit => hit.terms.size = (parts.filterMap clause?).length
  | .any => hits

/-- At the end of a group every document keeps its matches or loses all of them, as the end of the
group says of it. -/
lemma remaining_ok (h : hits.Sound) (joint : Joint) (parts : List Query) :
    (remaining joint parts hits).Sound ∧
      ∀ id, (remaining joint parts hits).matched id = kept joint parts (hits.matched id) := by
  cases joint with
  | any => exact ⟨h, fun _ => rfl⟩
  | all => exact ⟨h.retain _, h.matched_retain _⟩

/-- All fulltext fields are stored iff none is found that is not. -/
lemma unstored?_eq_none_iff {schema : Schema} : unstored? schema = none ↔
    ∀ field ∈ schema.fields, field.flags.fulltext = true → field.flags.stored = true := by
  simp [unstored?, Schema.fulltextFields]

/-- If all fulltext fields are stored, hits are flagged. If not, it depends on whether there are
any.

**Proof sketch.** Without hits nothing is flagged and nothing fails. With hits the first field that
is not stored is an error. -/
lemma flag_cases (search : Search) (hits : ResultSet) :
    (∃ hits', search.flag hits = .ok hits') ∧
        (unstored? search.store.schema = none ∨ hits.isEmpty = true) ∨
      ∃ field, unstored? search.store.schema = some field ∧ hits.isEmpty = false ∧
        search.flag hits = .error (.unstoredFulltext field.name) := by
  unfold flag
  split
  · next hempty => exact .inl ⟨⟨_, rfl⟩, .inr hempty⟩
  · next hempty =>
    cases hunstored : unstored? search.store.schema with
    | none =>
      refine .inl ⟨?_, .inl rfl⟩
      simp only
      split
      · exact ⟨_, rfl⟩
      · exact ⟨_, rfl⟩
    | some field => exact .inr ⟨field, rfl, by simpa using hempty, rfl⟩

/-- A group ends as the flagging of the hits that are left does.

**Proof sketch.** Either kind of group is flagged after the same part of its hits is left, and
nothing else can fail at its end. -/
lemma close_cases (search : Search) (joint : Joint) (parts : List Query) (hits : ResultSet) :
    (∃ hits', search.close joint parts hits = .ok hits') ∧
        (unstored? search.store.schema = none ∨ (remaining joint parts hits).isEmpty = true) ∨
      ∃ field, unstored? search.store.schema = some field ∧
        (remaining joint parts hits).isEmpty = false ∧
        search.close joint parts hits = .error (.unstoredFulltext field.name) := by
  have hclose : search.close joint parts hits =
      search.finish (parts.filterMap clause?) (remaining joint parts hits) := by
    cases joint <;> rfl
  rw [hclose]
  unfold finish
  rcases search.flag_cases (remaining joint parts hits) with
    ⟨⟨flagged, hflag⟩, hcase⟩ | ⟨field, hunstored, hempty, hflag⟩
  · rw [hflag]
    exact .inl ⟨⟨_, rfl⟩, hcase⟩
  · rw [hflag]
    exact .inr ⟨field, hunstored, hempty, rfl⟩

mutual

/-- **All queries succeed** if all leaves do and all fulltext fields are stored. -/
theorem succeeds (h : search.Serves) (hstored : unstored? search.store.schema = none) :
    ∀ query, search.Succeeds query
  | .leaf kind field value _ => h kind field value
  | .group joint parts _ => fun hits => by
    have hparts := succeeds_parts h hstored parts
    obtain ⟨first, hfirst⟩ := evaluateParts_ok hparts false hits
    obtain ⟨second, hsecond⟩ := evaluateParts_ok hparts true first
    rw [evaluate, hfirst]
    simp only [bind, Except.bind, hsecond]
    rcases search.close_cases joint parts second with ⟨hclose, -⟩ | ⟨field, hunstored, -, -⟩
    · exact hclose
    · rw [hstored] at hunstored
      cases hunstored
  | .not part boost => (succeeds h hstored part).not boost
  | .nothing _ => fun hits => ⟨hits, rfl⟩

/-- The parts of a group succeed if each query does. -/
lemma succeeds_parts (h : search.Serves) (hstored : unstored? search.store.schema = none) :
    ∀ parts : List Query, ∀ part ∈ parts, search.Succeeds part
  | [] => List.forall_mem_nil _
  | part :: parts =>
    List.forall_mem_cons.2 ⟨succeeds h hstored part, succeeds_parts h hstored parts⟩

end

/-! ## The documents at the end of a group -/

/-- A query that succeeds misses a document iff it notes nothing for it. -/
lemma not_returns_iff (h : search.Succeeds query) :
    ¬ search.Returns query id ↔ search.note id query none = none := by
  obtain ⟨found, hrun⟩ := h .empty
  rw [returns_iff hrun, mem_ids_run hrun, Option.not_isSome_iff_eq_none]

/-- The end of a group leaves matches as they are or takes all of them: it asks a group of which all
parts must match for as many values as there are clauses. -/
lemma kept_eq_some_iff {terms : Option (Finset String)} {matched : Finset String} :
    kept joint parts terms = some matched ↔
      terms = some matched ∧ (joint = .all → matched.card = (parts.filterMap clause?).length) := by
  cases joint with
  | any => simp [kept]
  | all => simp [kept, Option.filter_eq_some_iff]

/-- What the parts of a group leave of the matches of a document is left at its end iff the document
survives.

**Proof sketch.** The values matched are those for which some leaf returns the document, and a
document has matches iff some leaf returns it. No exclusion takes it out iff none of them returns
it. At the end all matches are kept unless all parts must match and there are fewer values than
clauses. -/
lemma isSome_kept_iff (h : search.Serves) (hparts : ∀ part ∈ parts, part.IsGroupless) :
    (kept joint parts (search.noteParts id true parts
      (search.noteParts id false parts none))).isSome ↔
        Survives search.Returns joint parts id := by
  obtain ⟨hsome, hmem⟩ := @mem_noteParts_iff search parts id (fun part hpart =>
    (hparts part hpart).isFlat) none
  simp only [Option.isSome_none, Option.getD_none, Finset.notMem_empty, Bool.false_eq_true,
    false_or] at hsome hmem
  have hvalues : ∀ matched, search.noteParts id false parts none = some matched →
      valuesFor search.Returns parts id = matched := by
    intro matched hmatched
    rw [hmatched, Option.getD_some] at hmem
    exact Set.ext fun value => (hmem value).symm
  -- an exclusion that notes nothing is one whose part does not return the document
  have hspared : (∀ part ∈ parts, ∀ other boost, part = .not other boost →
      search.note id other none = none) ↔
        ∀ part boost, .not part boost ∈ parts → ¬ search.Returns part id := by
    have hreturns : ∀ other boost, .not other boost ∈ parts →
        (¬ search.Returns other id ↔ search.note id other none = none) := fun other boost hpart =>
      not_returns_iff (succeeds_of_isGroupless h (hparts _ hpart).of_not)
    constructor
    · exact fun hnote other boost hpart =>
        (hreturns other boost hpart).2 (hnote _ hpart other boost rfl)
    · rintro hreturned _ hpart other boost rfl
      exact (hreturns other boost hpart).1 (hreturned other boost hpart)
  rw [Option.isSome_iff_exists]
  simp only [kept_eq_some_iff, noteParts_excluding]
  rw [hspared]
  constructor
  · rintro ⟨matched, ⟨hmatched, hexcluded⟩, hcard⟩
    refine ⟨hsome.1 (by rw [hmatched]; rfl), hexcluded, fun hall => ?_⟩
    rw [hvalues matched hmatched, Set.ncard_coe_finset, hcard hall]
  · rintro ⟨hfound, hexcluded, hcard⟩
    obtain ⟨matched, hmatched⟩ := Option.isSome_iff_exists.1 (hsome.2 hfound)
    refine ⟨matched, ⟨hmatched, hexcluded⟩, fun hall => ?_⟩
    rw [← hcard hall, hvalues matched hmatched, Set.ncard_coe_finset]

/-- **A group fails iff a document is left at its end**, if all leaves succeed, no part contains a
group, and some fulltext field is not stored.

**Proof sketch.** The parts succeed, since their leaves do. What is left of the hits at the end are
the documents that survive. If there are any, flagging them fails for the field that is not stored;
otherwise the group succeeds without hits. -/
theorem run_group_cases (h : search.Serves) (hparts : ∀ part ∈ parts, part.IsGroupless)
    {field : Field} (hunstored : unstored? search.store.schema = some field)
    (boost : Option Single) :
    (∃ id, Survives search.Returns joint parts id) ∧
        search.run (.group joint parts boost) = .error (.unstoredFulltext field.name) ∨
      (¬ ∃ id, Survives search.Returns joint parts id) ∧
        ∃ hits, search.run (.group joint parts boost) = .ok hits := by
  have hsucceeds := fun part hpart => succeeds_of_isGroupless h (hparts part hpart)
  obtain ⟨first, hfirst⟩ := evaluateParts_ok hsucceeds false .empty
  obtain ⟨second, hsecond⟩ := evaluateParts_ok hsucceeds true first
  obtain ⟨hreadable₁, hmatched₁⟩ :=
    matched_evaluateParts search false (readable_empty search.store) parts hfirst
  obtain ⟨hreadable₂, hmatched₂⟩ := matched_evaluateParts search true hreadable₁ parts hsecond
  obtain ⟨hsound, hmatched⟩ := remaining_ok hreadable₂.sound joint parts
  have hids : ∀ id, id ∈ (remaining joint parts second).ids ↔
      Survives search.Returns joint parts id := by
    intro id
    rw [← hsound.isSome_matched_iff, hmatched, hmatched₂, hmatched₁, matched_empty]
    exact isSome_kept_iff h hparts
  have hrun : search.run (.group joint parts boost) = search.close joint parts second := by
    rw [run, evaluate, hfirst]
    simp only [bind, Except.bind, hsecond]
  -- flagging looks only at whether any hits are left
  have hempty : (remaining joint parts second).isEmpty = true ↔
      ¬ ∃ id, Survives search.Returns joint parts id := by
    simp only [← hids, not_exists, ← List.eq_nil_iff_forall_not_mem]
    rw [isEmpty, List.isEmpty_iff, ids, List.map_eq_nil_iff]
  rw [hrun]
  rcases search.close_cases joint parts second with
    ⟨hclose, hstored | hnone⟩ | ⟨other, hother, hsome, hclose⟩
  · rw [hunstored] at hstored
    cases hstored
  · exact .inr ⟨hempty.1 hnone, hclose⟩
  · obtain rfl := Option.some.inj (hunstored.symm.trans hother)
    refine .inl ⟨?_, hclose⟩
    by_contra hno
    rw [hempty.2 hno] at hsome
    cases hsome

end Search

end Concordance
