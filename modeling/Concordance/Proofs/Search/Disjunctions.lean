import Concordance.Proofs.Search.Conjunctions

set_option relaxedAutoImplicit false
set_option autoImplicit false

/-!
# Disjunctions

A group in which any part may match keeps the hits of all its parts. But its parts work on the same
hits, and a conjunction among them, at whatever depth, filters all that is there, also what the
parts before it have found. So a document that a part returns is sure to have a hit only if no
conjunction is evaluated after it has got one.

## Main definitions

* `Concordance.Query.IsDisjunctive` — no exclusion and no conjunction at any depth.

## Main results

* `Concordance.Search.isSome_note_iff` — a disjunctive query drops no hit, and adds those that it
  has alone.
* `Concordance.Search.mem_ids_anyOf` — when a disjunction keeps what a part returns.
* `Concordance.Search.exists_returns_not_mem_ids` — a conjunction drops what another part returns.
-/

namespace Concordance

/-- There is no exclusion and no conjunction in a query. -/
inductive Query.IsDisjunctive : Query → Prop
  | leaf (kind : Leaf) (field value : String) (boost : Option Single) :
    IsDisjunctive (.leaf kind field value boost)
  | group {parts : List Query} (boost : Option Single) (h : ∀ part ∈ parts, IsDisjunctive part) :
    IsDisjunctive (.group .any parts boost)
  | nothing (reason : String) : IsDisjunctive (.nothing reason)

namespace Search

open Query

variable {search : Search} {hits : ResultSet} {parts : List Query} {id : DocId}

/-- A query of terms and groups of them excludes nothing. -/
lemma excludes_eq_false {part : Query} (h : part.IsDisjunctive) : part.excludes = false := by
  cases h <;> rfl

/-! ## The parts of a group -/

/-- Parts of the other kind are left out. -/
lemma noteParts_eq_self {excluding : Bool} (h : ∀ part ∈ parts, part.excludes = !excluding)
    (terms : Option (Finset String)) : search.noteParts id excluding parts terms = terms := by
  induction parts with
  | nil => rfl
  | cons part parts ih =>
    have hpart : part.excludes ≠ excluding := by
      rw [h part List.mem_cons_self]
      exact Bool.not_ne_self excluding
    rw [noteParts, if_neg hpart]
    exact ih fun other hother => h other (List.mem_cons_of_mem _ hother)

/-- The parts of a group note for a document one after the other. -/
lemma noteParts_append (before after : List Query) (excluding : Bool)
    (terms : Option (Finset String)) :
    search.noteParts id excluding (before ++ after) terms =
      search.noteParts id excluding after (search.noteParts id excluding before terms) := by
  induction before generalizing terms with
  | nil => rfl
  | cons part before ih => rw [List.cons_append, noteParts, ih, noteParts]

/-- Parts that drop no hit and add those that they have alone do so one after the other. -/
lemma isSome_noteParts_iff
    (h : ∀ part ∈ parts, part.excludes = false ∧ ∀ terms,
      (search.note id part terms).isSome ↔ terms.isSome ∨ (search.note id part none).isSome)
    (terms : Option (Finset String)) :
    (search.noteParts id false parts terms).isSome ↔
      terms.isSome ∨ ∃ part ∈ parts, (search.note id part none).isSome := by
  induction parts generalizing terms with
  | nil => simp [noteParts]
  | cons part parts ih =>
    obtain ⟨hexcludes, hpart⟩ := h part List.mem_cons_self
    rw [noteParts, if_pos hexcludes, ih fun other hother => h other (List.mem_cons_of_mem _ hother),
      hpart, List.exists_mem_cons_iff, or_assoc]

/-- A group without exclusions is evaluated in one pass. -/
lemma note_any {boost : Option Single} (h : ∀ part ∈ parts, part.excludes = false)
    (terms : Option (Finset String)) :
    search.note id (.group .any parts boost) terms = search.noteParts id false parts terms := by
  rw [note, kept]
  exact noteParts_eq_self h _

/-! ## What a disjunction keeps -/

/-- A disjunctive query drops no hit, and adds those that it has alone.

**Proof sketch.** Induction on the query. A leaf or nothing says so at once, and a group of such
parts adds what any of them adds. -/
theorem isSome_note_iff {query : Query} (h : query.IsDisjunctive)
    (terms : Option (Finset String)) :
    (search.note id query terms).isSome ↔
      terms.isSome ∨ (search.note id query none).isSome := by
  induction h generalizing terms with
  | leaf kind field value boost =>
    simp only [note]
    cases Search.leaf search.store kind field value .empty with
    | error e => simp
    | ok alone => by_cases hid : id ∈ alone.ids <;> simp [hid]
  | nothing reason => simp [note]
  | group boost h ih =>
    have hparts := fun part hpart => excludes_eq_false (h part hpart)
    have hkeep := fun part hpart => And.intro (hparts part hpart) (ih part hpart)
    rw [note_any hparts, note_any hparts, isSome_noteParts_iff hkeep, isSome_noteParts_iff hkeep]
    simp

/-- **When a disjunction loses nothing.** A disjunction that succeeds has a hit of a document that
one of its parts returns alone, if none of its parts is an exclusion, there is no conjunction in the
parts after that one, and none in that part itself unless it is the first.

**Proof sketch.** The document has a hit once the part is evaluated: a part that comes first starts
without hits, as it does alone, and a disjunctive one adds what it has alone to any hits. The parts
after it drop no hit. -/
theorem mem_ids_anyOf (search : Search) {before after : List Query} {part : Query}
    {boost : Option Single} (hbefore : ∀ other ∈ before, other.excludes = false)
    (hpart : part.excludes = false) (hfirst : before = [] ∨ part.IsDisjunctive)
    (hafter : ∀ other ∈ after, other.IsDisjunctive) {id : DocId}
    (hreturns : search.Returns part id) {hits : ResultSet}
    (hrun : search.run (.group .any (before ++ part :: after) boost) = .ok hits) :
    id ∈ hits.ids := by
  have hexcludes : ∀ other ∈ before ++ part :: after, other.excludes = false := by
    intro other hother
    rcases List.mem_append.1 hother with hother | hother
    · exact hbefore other hother
    · rcases List.mem_cons.1 hother with rfl | hother
      · exact hpart
      · exact excludes_eq_false (hafter other hother)
  have hfound : (search.note id part (search.noteParts id false before none)).isSome := by
    rcases hfirst with rfl | hdisjunctive
    · exact hreturns.isSome_note
    · exact (isSome_note_iff hdisjunctive _).2 (.inr hreturns.isSome_note)
  rw [mem_ids_run hrun, note_any hexcludes, noteParts_append, noteParts, if_pos hpart]
  exact (isSome_noteParts_iff (fun other hother =>
    ⟨excludes_eq_false (hafter other hother), isSome_note_iff (hafter other hother)⟩) _).2
      (.inl hfound)

/-- Memos about words like the starts of cat and of dog. -/
def catAndDog : Query :=
  .group .all [.leaf .start "title" "ca" none, .leaf .start "title" "do" none] none

/-- Memos about a word like the start of bird. -/
def likeBird : Query := .leaf .start "title" "bi" none

/-- A conjunction that comes first loses nothing. -/
theorem mem_ids_anyOf_memos : ∃ hits,
    (memoSearch ["cat dog"]).run (.group .any [catAndDog, likeBird] none) = .ok hits ∧
      ⟨"1"⟩ ∈ hits.ids := by
  obtain ⟨found, halone, hfound⟩ := @exists_run_of_ids (memoSearch ["cat dog"])
    catAndDog [⟨"1"⟩] (by decide +kernel)
  obtain ⟨hits, hrun, -⟩ := @exists_run_of_ids (memoSearch ["cat dog"])
    (.group .any [catAndDog, likeBird] none) [⟨"1"⟩] (by decide +kernel)
  have hafter : ∀ other ∈ [likeBird], other.IsDisjunctive :=
    List.forall_mem_singleton.2 (.leaf .start "title" "bi" none)
  refine ⟨hits, hrun, @mem_ids_anyOf (memoSearch ["cat dog"]) [] [likeBird] catAndDog none
    (by simp) rfl (.inl rfl) hafter ⟨"1"⟩ ⟨found, halone, ?_⟩ hits hrun⟩
  rw [hfound]
  exact List.mem_singleton_self _

/-- **A disjunction can lose a match.** A memo about a bird is returned by the part that asks for
one. A conjunction after that part finds nothing, but drops the memo, which has not matched its
values. -/
theorem exists_returns_not_mem_ids :
    (memoSearch ["bird"]).Returns likeBird ⟨"1"⟩ ∧ ∃ hits,
      (memoSearch ["bird"]).run (.group .any [likeBird, catAndDog] none) = .ok hits ∧
        ⟨"1"⟩ ∉ hits.ids := by
  obtain ⟨found, halone, hfound⟩ := @exists_run_of_ids (memoSearch ["bird"]) likeBird [⟨"1"⟩]
    (by decide +kernel)
  obtain ⟨hits, hrun, hhits⟩ := @exists_run_of_ids (memoSearch ["bird"])
    (.group .any [likeBird, catAndDog] none) [] (by decide +kernel)
  refine ⟨⟨found, halone, ?_⟩, hits, hrun, ?_⟩
  · rw [hfound]
    exact List.mem_singleton_self _
  · rw [hhits]
    exact List.not_mem_nil

end Search

end Concordance
