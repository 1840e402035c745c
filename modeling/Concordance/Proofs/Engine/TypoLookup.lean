import Concordance.Proofs.Engine.TypoStates
import Concordance.Proofs.Typo.Candidates

set_option relaxedAutoImplicit false
set_option autoImplicit false

/-!
# Typo-tolerant look-up is exact

A term is looked up with its typos in two steps: the states of near terms are found in the set of
states, and the postings with these states are filtered by their distance. The set has the states of
all postings and no near state is missed, so the ids that are found are those under the near terms.

## Main definitions

* `Concordance.FindsExactly` — what is found are the ids under near terms.
* `Concordance.Engine.rounds` — an engine that is taken up again several times.

## Main results

* `Concordance.Store.Runs.byTypo` — look-up in a session.
* `Concordance.Store.Stands.byTypo` — look-up in a store, in a session of its own if need be.
* `Concordance.Engine.findsExactly_of_run` — look-up after any steps.
-/

namespace Concordance

open Operation

/-- A look-up with a filter runs against a field: there is no filter, or it is the field's name. -/
def LooksUp (filter : Option String) (name : String) : Prop :=
  filter = none ∨ filter = some "*" ∨ filter = some name

/-- What is found for a term among the ids that are listed under the terms of fields: for each field
whose terms have typo states, the ids under those terms whose distance is in the budget of the
normalized term. Nothing is found for other fields, for terms that are dropped, and for terms
without a budget. -/
structure FindsExactly (schema : Schema) (analyzer : Analyzer) (budget : Budget)
    (listed : String → String → DocId → Prop) (term : String) (filter : Option String)
    (found : Matches) : Prop where
  exact : ∀ normalized, analyzer.normalize term = some normalized →
    0 < budget.maxDistance normalized → ∀ field ∈ schema.indexedFields,
      field.flags.unique = false → LooksUp filter field.name →
        ∃ list, found.get? field.name = some list ∧ ∀ id, id ∈ list.ids ↔
          ∃ key, levenshtein normalized.toList key.toList ≤ budget.maxDistance normalized ∧
            listed field.name key id
  others : ∀ name list, found.get? name = some list → list ≠ .empty →
    ∃ field ∈ schema.indexedFields, field.flags.unique = false ∧ field.name = name ∧
      LooksUp filter name
  dropped : analyzer.normalize term = none → found = ∅
  exhausted : ∀ normalized, analyzer.normalize term = some normalized →
    budget.maxDistance normalized = 0 → found = ∅

/-- What is found exactly among some ids is found exactly among the same ids told by other words. -/
lemma FindsExactly.congr {listed listed' : String → String → DocId → Prop} {term : String}
    {filter : Option String} {found : Matches} {budget : Budget} {schema : Schema}
    {analyzer : Analyzer} (h : FindsExactly schema analyzer budget listed term filter found)
    (hlisted : ∀ field ∈ schema.indexedFields, ∀ term id,
      listed field.name term id ↔ listed' field.name term id) :
    FindsExactly schema analyzer budget listed' term filter found := by
  refine { h with exact := fun normalized hnormal hpos field hfield hunique hlook => ?_ }
  obtain ⟨list, hget, hmem⟩ := h.exact normalized hnormal hpos field hfield hunique hlook
  refine ⟨list, hget, fun id => (hmem id).trans ?_⟩
  simp only [hlisted field hfield]

namespace Store

variable {setup : Setup} {store : Store} {view : View} {mode : Mode}

/-! ## Fields -/

/-- The fields whose terms have typo states.

**Proof sketch.** A field of the name is looked up in the schema, and names of fields are different.
-/
lemma Runs.isTolerant_iff (h : store.Runs setup mode view) (name : String) :
    store.isTolerant name = true ↔
      ∃ field ∈ setup.schema.indexedFields, field.flags.unique = false ∧ field.name = name := by
  obtain ⟨saved, hfiles, -, -⟩ := h.files
  unfold isTolerant
  rw [hfiles.schema_eq]
  constructor
  · intro htolerant
    cases hget : setup.schema.field? name with
    | none =>
      rw [hget] at htolerant
      cases htolerant
    | some field =>
      rw [hget] at htolerant
      have hflags : field.flags.indexed = true ∧ field.flags.unique = false := by
        simpa using htolerant
      have hname : field.name = name := by simpa using List.find?_some hget
      exact ⟨field, Schema.mem_indexedFields.2 ⟨List.mem_of_find?_eq_some hget, hflags.1⟩,
        hflags.2, hname⟩
  · rintro ⟨field, hfield, hunique, rfl⟩
    obtain ⟨hmem, hindexed⟩ := Schema.mem_indexedFields.1 hfield
    rw [setup.built.field?_name hmem]
    simp [hunique, hindexed]

/-- The ids that are found in the file of a field whose terms have typo states, given that the
states of near terms are looked for.

**Proof sketch.** The state of a posting under a near term is in the memory of the session, so it is
a candidate and the posting is found. Postings under other terms are filtered out. -/
lemma Runs.near_tolerant (h : store.Runs setup mode view) {field : Field}
    (hfield : field ∈ setup.schema.indexedFields) (hunique : field.flags.unique = false)
    (term : String) (limit : Nat) :
    ∃ list, store.near term limit (store.automaton.candidates store.states term limit) field.name =
        .ok list ∧
      ∀ id, id ∈ list.ids ↔ ∃ key, levenshtein term.toList key.toList ≤ limit ∧
        id ∈ (view.lists field.name key).ids := by
  obtain ⟨saved, hfiles, htracks, -⟩ := h.files
  obtain ⟨file, hget, hlists⟩ := hfiles.exists_file hfield
  have htolerant : store.isTolerant field.name = true :=
    (h.isTolerant_iff _).2 ⟨field, hfield, hunique, rfl⟩
  have halphabet : store.states.alphabet = store.automaton.alphabet := by
    rw [htracks.alphabet_eq, hfiles.automaton_eq]
    rfl
  have hstate : ∀ key, setup.stateFor field key = some (store.automaton.stateOf key) := by
    intro key
    rw [hfiles.automaton_eq]
    simp [Setup.stateFor, hunique]
  obtain ⟨postings, hscan, hmem⟩ := hlists.1.scanStates (setup.stateFor_lt field)
    (hlists.2.isSome (by simp) (by simp)) (store.automaton.candidates store.states term limit)
  refine ⟨united (postings.filter fun posting => EditDistance.within limit term posting.key),
    ?_, fun id => ?_⟩
  · unfold Store.near
    simp only [hget, htolerant, if_true, hscan]
    rfl
  rw [mem_united]
  constructor
  · rintro ⟨posting, hposting, hid⟩
    obtain ⟨hfound, hnear⟩ := List.mem_filter.1 hposting
    obtain ⟨⟨-, heq⟩, -⟩ := (hmem posting).1 hfound
    rw [heq, Posting.list_of (hlists.1.plain _)] at hid
    exact ⟨posting.key, EditDistance.within_iff.1 hnear, hid⟩
  · rintro ⟨key, hnear, hid⟩
    have hne : view.lists field.name key ≠ .empty := fun hempty =>
      PostingList.eq_empty_iff.1 hempty id hid
    -- its list is not empty, so the term is carried and its state is tracked
    have hhas : store.states.has (store.automaton.stateOf key) = true :=
      (htracks.has_iff _).2 ⟨field, hfield, key, hne, hstate key⟩
    have hcandidate := Automaton.mem_candidates htracks.counted halphabet hnear hhas
    refine ⟨.of key (view.lists field.name key) (setup.stateFor field key),
      List.mem_filter.2 ⟨(hmem _).2 ⟨⟨hne, rfl⟩, _, hcandidate, hstate key⟩,
        EditDistance.within_iff.2 hnear⟩, ?_⟩
    rw [Posting.list_of (hlists.1.plain _)]
    exact hid

/-- A look-up in the file of a field succeeds, and finds something only in a field whose terms have
typo states.

**Proof sketch.** A field is tolerant iff it is one whose terms have typo states; in such a field
near terms are found exactly, and in any other nothing is looked for. -/
lemma Runs.near (h : store.Runs setup mode view) (term : String) (limit : Nat) (name : String) :
    ∃ list, store.near term limit (store.automaton.candidates store.states term limit) name =
        .ok list ∧
      (∀ field ∈ setup.schema.indexedFields, field.flags.unique = false → field.name = name →
        ∀ id, id ∈ list.ids ↔ ∃ key, levenshtein term.toList key.toList ≤ limit ∧
          id ∈ (view.lists name key).ids) ∧
      (list ≠ .empty → ∃ field ∈ setup.schema.indexedFields, field.flags.unique = false ∧
        field.name = name) := by
  by_cases htolerant : store.isTolerant name = true
  · obtain ⟨field, hfield, hunique, rfl⟩ := (h.isTolerant_iff name).1 htolerant
    obtain ⟨list, hrun, hmem⟩ := h.near_tolerant hfield hunique term limit
    exact ⟨list, hrun, fun _ _ _ _ => hmem, fun _ => ⟨field, hfield, hunique, rfl⟩⟩
  · refine ⟨.empty, ?_, fun field hfield hunique hname => ?_, fun hne => absurd rfl hne⟩
    · unfold Store.near
      cases store.indexes.get? name with
      | none => rfl
      | some file =>
        simp only [htolerant]
        rfl
    · exact absurd ((h.isTolerant_iff name).2 ⟨field, hfield, hunique, hname⟩) htolerant

/-! ## Look-up -/

/-- The targets of a look-up: a field asked for by name, or all fields whose terms have typo
states.

**Proof sketch.** A field that is asked for by name is the only target. Otherwise the targets are
all indexed fields that are not unique, which are those with typo states. -/
lemma Runs.mem_targets (h : store.Runs setup mode view) (term : String) (filter : Option String) :
    ((store.targets term filter).map Prod.fst).Nodup ∧
    (∀ name ∈ (store.targets term filter).map Prod.fst, LooksUp filter name) ∧
    ∀ field ∈ setup.schema.indexedFields, field.flags.unique = false → LooksUp filter field.name →
      field.name ∈ (store.targets term filter).map Prod.fst := by
  obtain ⟨hnodup, hlooks, -⟩ := h.targets term filter
  refine ⟨hnodup, fun name hname => ?_, fun field hfield hunique hlook => (hlooks _).2 ?_⟩
  · rcases (hlooks name).1 hname with ⟨-, hfilter⟩ | ⟨hall, -⟩
    · exact .inr (.inr hfilter)
    · exact hall.imp_right .inl
  · by_cases hstar : filter = some "*"
    · exact .inr ⟨.inr hstar, field, hfield, hunique, rfl⟩
    · rcases hlook with hnone | hall | hname
      · exact .inr ⟨.inl hnone, field, hfield, hunique, rfl⟩
      · exact absurd hall hstar
      · exact .inl ⟨hstar, hname⟩

/-- Nothing has to be found for a term that is dropped, or has no budget. -/
lemma findsExactly_empty {schema : Schema} {analyzer : Analyzer} {budget : Budget}
    {listed : String → String → DocId → Prop} {term : String} (filter : Option String)
    (h : ∀ normalized, analyzer.normalize term = some normalized →
      budget.maxDistance normalized = 0) :
    FindsExactly schema analyzer budget listed term filter ∅ where
  exact normalized hnormal hpos := by
    have := h normalized hnormal
    omega
  others name list hget := by cases hget
  dropped _ := rfl
  exhausted _ _ _ := rfl

/-- In a session the ids under near terms are found exactly.

**Proof sketch.** A term that normalizes to nothing, and one whose budget is zero, finds nothing.
Otherwise each of the fields that are targets finds exactly the ids under near terms, and what is
found is put together field by field. -/
theorem Runs.byTypo (h : store.Runs setup mode view) (term : String) (filter : Option String) :
    ∃ found, store.byTypo term filter = .ok found ∧
      FindsExactly setup.schema setup.analyzer (.new setup.config.typo)
        (fun name key id => id ∈ (view.lists name key).ids) term filter found := by
  have hsetup : store.analyzer = setup.analyzer ∧ store.budget = .new setup.config.typo := by
    obtain ⟨saved, hfiles, -, -⟩ := h.files
    exact ⟨hfiles.analyzer_eq, hfiles.budget_eq⟩
  unfold Store.byTypo
  rw [hsetup.1, hsetup.2]
  cases hnormal : setup.analyzer.normalize term with
  | none =>
    refine ⟨∅, rfl, findsExactly_empty filter fun normalized hsome => ?_⟩
    rw [hnormal] at hsome
    cases hsome
  | some normalized =>
    have hsame : ∀ other, setup.analyzer.normalize term = some other → other = normalized :=
      fun other hsome => Option.some.inj (hsome.symm.trans hnormal)
    simp only
    generalize hlimit : (Budget.new setup.config.typo).maxDistance normalized = limit
    by_cases hzero : limit = 0
    · rw [if_pos hzero]
      refine ⟨∅, rfl, findsExactly_empty filter fun other hsome => ?_⟩
      rw [hsame other hsome, hlimit, hzero]
    · rw [if_neg hzero]
      -- one list for each name, whether or not it is among the targets
      choose list hnear hexact hothers using h.near normalized limit
      obtain ⟨hnodup, hlooks, htargets⟩ := h.mem_targets term filter
      obtain ⟨found, hrun, hfound⟩ := @collect_ok (store.targets term filter)
        (fun name _ => store.near normalized limit
          (store.automaton.candidates store.states normalized limit) name) list
        (fun target _ => hnear target.1) hnodup
      refine ⟨found, hrun, fun other hsome _ field hfield hunique hlook => ?_,
        fun name ids hget hne => ?_, fun hnone => ?_, fun other hsome hexhausted => ?_⟩
      · rw [hsame other hsome, hlimit]
        exact ⟨list field.name, (hfound _ _).2 ⟨htargets field hfield hunique hlook, rfl⟩,
          hexact field.name field hfield hunique rfl⟩
      · obtain ⟨hname, rfl⟩ := (hfound name ids).1 hget
        obtain ⟨field, hfield, hunique, rfl⟩ := hothers name hne
        exact ⟨field, hfield, hunique, rfl, hlooks field.name hname⟩
      · rw [hnormal] at hnone
        cases hnone
      · rw [hsame other hsome, hlimit] at hexhausted
        exact absurd hexhausted hzero

/-- **Look-up in a store.** In a session or, if all files are there, without one, a look-up succeeds
and finds the ids under near terms exactly.

**Proof sketch.** The store stands for a view, and its files list the ids of the view. In every
session a look-up finds them exactly. -/
theorem Stands.byTypo {session : Option Mode} {P : View → Prop}
    (h : store.Stands setup .made session P) (term : String) (filter : Option String) :
    ∃ found store', Store.within .read (Op.look fun store => store.byTypo term filter) store =
        .ok found store' ∧
      FindsExactly setup.schema setup.analyzer (.new setup.config.typo) store.Listed term filter
        found := by
  obtain ⟨found, store', view, hrun, -, hlisted, hfound⟩ := @gives_look _ _ _ _ _ _
    (fun found view => FindsExactly setup.schema setup.analyzer (.new setup.config.typo)
      (fun name key id => id ∈ (view.lists name key).ids) term filter found)
    h.lists (by simp) (fun store => store.byTypo term filter)
    fun hopened _ => hopened.byTypo term filter
  exact ⟨found, store', hrun, hfound.congr fun field hfield term id =>
    (hlisted field hfield term id).symm⟩

end Store

/-! ## Look-up by an engine -/

namespace Engine

open Store (anyView)

/-- An engine that is worked with, committed, and taken up again, several times over. -/
def rounds (setup : Store.Setup) (engine : Engine) (all : List (List Step)) : Engine :=
  all.foldl (fun engine steps => after (reopen fun directory => .ok (setup.store directory))
    (after (onStore Store.commit) (run engine steps))) engine

variable {setup : Store.Setup} {engine : Engine}

/-- After that no session is open and all files are there. -/
lemma Stands.rounds (h : engine.Stands setup .made none anyView) (all : List (List Step)) :
    (rounds setup engine all).Stands setup .made none anyView := by
  induction all generalizing engine with
  | nil => exact h
  | cons steps all ih =>
    obtain ⟨session, hrun⟩ := h.run steps
    obtain ⟨reopened, hreopen, hstands, -⟩ := (hrun.onStore hrun.store.commit).reopen
    refine ih ?_
    simp only
    rw [after_ok hreopen]
    exact hstands

/-- **Typo-tolerant look-up is exact.** An engine starts with an empty directory, is taken up again
any number of times, and is then worked with in any steps. A look-up succeeds, and for each field it
finds the ids in the postings of the terms near the one that is looked up, and no others. -/
theorem findsExactly_of_run (setup : Store.Setup) (scoring : Scoring)
    (hstart : (start (setup.store ∅) scoring).1 = .ok engine) (all : List (List Step))
    (steps : List Step) (term : String) (filter : Option String) :
    ∃ found store', Store.within .read (Store.Op.look fun store => store.byTypo term filter)
        (run (rounds setup engine all) steps).store = .ok found store' ∧
      FindsExactly setup.schema setup.analyzer (.new setup.config.typo)
        (run (rounds setup engine all) steps).store.Listed term filter found := by
  obtain ⟨hstands, -⟩ := stands_start hstart (P := anyView) trivial
  obtain ⟨session, hrun⟩ := (hstands.rounds all).run steps
  exact hrun.store.byTypo term filter

/-- Notes have a title and a number of their own. -/
def noteSetup : Store.Setup where
  schema := { name := "notes", fields := [⟨"title", { stored := true, indexed := true }⟩,
    ⟨"number", { stored := true, indexed := true, unique := true }⟩] }
  config := {}
  analyzer := .standard
  built := @Schema.Built.addField _ _ "number" { stored := true, indexed := true, unique := true }
    (@Schema.Built.addField _ _ "title" { stored := true, indexed := true }
      (.start "notes" "standard") rfl) rfl

/-- A title with a typo is looked up after one note was written before the engine was taken up again
and another one after that. -/
theorem findsExactly_of_run_notes :
    ∃ engine, (start (noteSetup.store ∅) {}).1 = .ok engine ∧
      ∃ found store', Store.within .read (Store.Op.look fun store => store.byTypo "Hazelnat" none)
          (run (rounds noteSetup engine [[.add (.ofList [("title", .text "hazelnut")]), .flush]])
            [.addWithId "a" (.ofList [("title", .text "hazel")]), .flush]).store =
              .ok found store' ∧
        FindsExactly noteSetup.schema noteSetup.analyzer (.new noteSetup.config.typo)
          (run (rounds noteSetup engine [[.add (.ofList [("title", .text "hazelnut")]), .flush]])
            [.addWithId "a" (.ofList [("title", .text "hazel")]), .flush]).store.Listed
          "Hazelnat" none found :=
  ⟨_, rfl, findsExactly_of_run noteSetup {} rfl _ _ "Hazelnat" none⟩

end Engine

end Concordance
