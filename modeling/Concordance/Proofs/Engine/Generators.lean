import Concordance.Proofs.Engine.TypoLookup
import Concordance.Proofs.Store.Pairs

set_option relaxedAutoImplicit false
set_option autoImplicit false

/-!
# Candidate generators do not change what is found

The candidate generator of a store may be replaced by one that looks at more or fewer letters. Typo
states are then other ones, but the same ids are found, since the generator only saves work. This
takes for granted that the letters are those of the settings: the counts of the set of states go by
the alphabet of the settings, and with another one near terms are missed.

## Main definitions

* `Concordance.Matches.SameIds` — in each field the same ids are found.
* `Concordance.Engine.Twins` — two engines at the same point of a run.

## Main results

* `Concordance.Store.withAutomaton_store` — a store with another generator is that of other
  settings.
* `Concordance.Store.Runs.byTypo_sameIds` — look-up in sessions that stand for one view.
* `Concordance.Engine.Twins.step` — every step keeps two engines at the same point.
* `Concordance.Engine.sameIds_of_run` — two runs with different generators.
-/

namespace Concordance

open Operation

/-- In each field the same ids are found, and there is something to be found in the same fields. -/
def Matches.SameIds (found found' : Matches) : Prop :=
  ∀ name, Option.Rel (fun list list' : PostingList => ∀ id, id ∈ list.ids ↔ id ∈ list'.ids)
    (found.get? name) (found'.get? name)

/-- Everything found is found with the same ids as itself. -/
lemma Matches.SameIds.refl (found : Matches) : found.SameIds found := by
  intro name
  cases found.get? name with
  | none => exact .none
  | some list => exact .some fun _ => Iff.rfl

namespace Store

variable {setup : Setup} {typo typo' : TypoConfig} {first second : Store} {mode mode' : Mode}
  {view : View}

/-! ## Look-up in two sessions -/

/-- Look-ups run against the same fields. -/
lemma Alike.targets_eq (h : Alike first second) (term : String) (filter : Option String) :
    first.targets term filter = second.targets term filter := by
  have hkey : ∀ name, first.keyFor term name = second.keyFor term name := by
    intro name
    unfold keyFor
    rw [h.schema_eq, h.analyzer_eq]
  unfold targets
  rw [h.schema_eq, h.analyzer_eq]
  simp only [hkey]

/-- In the file of a field the same ids are found.

**Proof sketch.** If the field is one whose terms have typo states, each list has exactly the ids
under near terms, whatever generates the states. Otherwise both are empty. -/
lemma Runs.near_sameIds (h : first.Runs (setup.withTypo typo) mode view)
    (h' : second.Runs (setup.withTypo typo') mode' view) (term : String) (limit : Nat)
    (name : String) : ∃ list list',
      first.near term limit (first.automaton.candidates first.states term limit) name = .ok list ∧
      second.near term limit (second.automaton.candidates second.states term limit) name =
        .ok list' ∧
      ∀ id, id ∈ list.ids ↔ id ∈ list'.ids := by
  obtain ⟨list, hrun, hexact, hempty⟩ := h.near term limit name
  obtain ⟨list', hrun', hexact', hempty'⟩ := h'.near term limit name
  refine ⟨list, list', hrun, hrun', fun id => ?_⟩
  by_cases htolerant : ∃ field ∈ setup.schema.indexedFields, field.flags.unique = false ∧
      field.name = name
  · obtain ⟨field, hfield, hunique, hname⟩ := htolerant
    rw [hexact field hfield hunique hname, hexact' field hfield hunique hname]
  · have hnone : list = .empty := by
      by_contra hne
      exact htolerant (hempty hne)
    have hnone' : list' = .empty := by
      by_contra hne
      exact htolerant (hempty' hne)
    rw [hnone, hnone']

/-- Two searches of the same targets find the same ids if they do so field by field.

**Proof sketch.** Both searches find a list for each target and none for other fields, so they can
be compared field by field. -/
lemma collect_sameIds {targets : List (String × Option String)}
    {find find' : String → Option String → Except Error PostingList}
    {list list' : String → PostingList}
    (hfind : ∀ target ∈ targets, find target.1 target.2 = .ok (list target.1))
    (hfind' : ∀ target ∈ targets, find' target.1 target.2 = .ok (list' target.1))
    (hids : ∀ name id, id ∈ (list name).ids ↔ id ∈ (list' name).ids)
    (hnodup : (targets.map Prod.fst).Nodup) :
    ∃ found found', collect targets find = .ok found ∧ collect targets find' = .ok found' ∧
      found.SameIds found' := by
  obtain ⟨found, hrun, hfound⟩ := collect_ok hfind hnodup
  obtain ⟨found', hrun', hfound'⟩ := collect_ok hfind' hnodup
  refine ⟨found, found', hrun, hrun', fun name => ?_⟩
  by_cases htarget : name ∈ targets.map Prod.fst
  · rw [(hfound name _).2 ⟨htarget, rfl⟩, (hfound' name _).2 ⟨htarget, rfl⟩]
    exact .some (hids name)
  · have hnone : found.get? name = none := by
      by_contra hsome
      obtain ⟨other, hother⟩ := Option.ne_none_iff_exists'.1 hsome
      exact htarget ((hfound name other).1 hother).1
    have hnone' : found'.get? name = none := by
      by_contra hsome
      obtain ⟨other, hother⟩ := Option.ne_none_iff_exists'.1 hsome
      exact htarget ((hfound' name other).1 hother).1
    rw [hnone, hnone']
    exact .none

/-- **In sessions that stand for one view the same ids are found**, if the terms have the same
budgets.

**Proof sketch.** Both stores normalize the term in the same way and have the same budget for it. If
that is not zero, they search the same targets, and find the same ids in each. -/
theorem Runs.byTypo_sameIds (h : first.Runs (setup.withTypo typo) mode view)
    (h' : second.Runs (setup.withTypo typo') mode' view) (hbudget : Budget.new typo = .new typo')
    (term : String) (filter : Option String) :
    ∃ found found', first.byTypo term filter = .ok found ∧ second.byTypo term filter = .ok found' ∧
      found.SameIds found' := by
  have halike := h.alike h'
  have hsame : second.budget = first.budget := by
    obtain ⟨saved, hfiles, -, -⟩ := h.files
    obtain ⟨saved', hfiles', -, -⟩ := h'.files
    exact hfiles'.budget_eq.trans (hbudget.symm.trans hfiles.budget_eq.symm)
  unfold Store.byTypo
  rw [← halike.analyzer_eq, hsame]
  cases first.analyzer.normalize term with
  | none => exact ⟨∅, ∅, rfl, rfl, .refl ∅⟩
  | some normalized =>
    simp only
    generalize first.budget.maxDistance normalized = limit
    by_cases hzero : limit = 0
    · rw [if_pos hzero, if_pos hzero]
      exact ⟨∅, ∅, rfl, rfl, .refl ∅⟩
    · rw [if_neg hzero, if_neg hzero]
      choose list list' hnear hnear' hids using h.near_sameIds h' normalized limit
      obtain ⟨hnodup, -⟩ := h.mem_targets term filter
      rw [← halike.targets_eq]
      exact collect_sameIds (fun target _ => hnear target.1) (fun target _ => hnear' target.1) hids
        hnodup

/-! ## Other generators -/

/-- A store with another generator over the alphabet of the settings is the store of settings with
the depth of the generator. -/
lemma withAutomaton_store {size : Nat} (h : Alphabet.ofSize size = setup.alphabet) (depth : Nat)
    (directory : Directory) : (setup.store directory).withAutomaton (.new size depth) =
      (setup.withTypo { setup.config.typo with indexLength := depth }).store directory := by
  unfold Automaton.new
  rw [h]
  rfl

end Store

namespace Engine

/-! ## Two runs side by side -/

/-- Two engines at the same point of a run: their stores stand for one view, and the same documents
wait. -/
structure Twins (setup : Store.Setup) (typo typo' : TypoConfig) (session : Option Mode)
    (first second : Engine) : Prop where
  stores : Store.Twins setup typo typo' session first.store second.store
  pending_eq : second.pending = first.pending
  plain : ∀ waiting ∈ first.pending, waiting.id.IsPlain

namespace Twins

variable {setup : Store.Setup} {typo typo' : TypoConfig} {session : Option Mode}
  {first second : Engine}

/-- An operation on the stores. -/
lemma onStore {α : Type} {session' : Option Mode} {op : Store.Op α}
    (h : Twins setup typo typo' session first second)
    (hop : Store.Twins setup typo typo' session' (after op first.store) (after op second.store)) :
    Twins setup typo typo' session' (after (Engine.onStore op) first)
      (after (Engine.onStore op) second) := by
  rw [after_onStore, after_onStore]
  exact ⟨hop, h.pending_eq, h.plain⟩

/-- A document is added to both under the same number.

**Proof sketch.** Both engines count the documents of one view, so the next one gets the same number
in both. -/
lemma add (h : Twins setup typo typo' session first second) (fields : Fields) :
    Twins setup typo typo' session (after (Engine.add fields) first)
      (after (Engine.add fields) second) := by
  obtain ⟨asked, asked', mode, mode', view, store, store', hasked, hasked', hrun, hrun', hstores⟩ :=
    h.stores.look fun store => store.docs.total
  have htotal : ∀ {asked : Store} {typo : TypoConfig} {mode : Mode},
      asked.Runs (setup.withTypo typo) mode view → asked.docs.total = .ok view.docs.size := by
    intro asked typo mode hruns
    obtain ⟨saved, hfiles, -, -⟩ := hruns.files
    exact hfiles.docs.1.total
  have hadd : ∀ {engine : Engine} {store : Store},
      Store.Op.attempt (Store.within .read (Store.Op.look fun store => store.docs.total))
        engine.store = .ok (.ok view.docs.size) store →
      after (Engine.add fields) engine = { engine with
        store
        pending := engine.pending ++
          [⟨.ofSequence (view.docs.size + engine.pending.length + 1), fields, true⟩] } := by
    intro engine store hrun
    have hcount : count engine = .ok view.docs.size { engine with store } := by
      unfold count ask Engine.onStore
      rw [Store.ok_of_attempt hrun]
    exact after_ok (bind_ok hcount _)
  rw [htotal hasked] at hrun
  rw [htotal hasked'] at hrun'
  rw [hadd hrun, hadd hrun']
  refine ⟨hstores, by simp only [h.pending_eq], fun waiting hwaiting => ?_⟩
  rcases List.mem_append.1 hwaiting with hwaiting | hwaiting
  · exact h.plain waiting hwaiting
  · rw [List.mem_singleton.1 hwaiting]
    exact DocId.isPlain_ofSequence _

/-- A document is added to both under a chosen id, if it can be chosen.

**Proof sketch.** Whether a text can be an id has nothing to do with the engine. -/
lemma addWithId (h : Twins setup typo typo' session first second) (text : String)
    (fields : Fields) : Twins setup typo typo' session (after (Engine.addWithId text fields) first)
      (after (Engine.addWithId text fields) second) := by
  cases hid : DocId.ofText text with
  | error e =>
    have hsame : ∀ engine, after (Engine.addWithId text fields) engine = engine := by
      intro engine
      unfold Engine.addWithId
      rw [hid]
      rfl
    rwa [hsame, hsame]
  | ok id =>
    have hadd : ∀ engine : Engine, after (Engine.addWithId text fields) engine =
        { engine with pending := engine.pending ++ [⟨id, fields, false⟩] } := by
      intro engine
      unfold Engine.addWithId
      rw [hid]
      rfl
    rw [hadd, hadd]
    refine ⟨h.stores, by simp only [h.pending_eq], fun waiting hwaiting => ?_⟩
    rcases List.mem_append.1 hwaiting with hwaiting | hwaiting
    · exact h.plain waiting hwaiting
    · rw [List.mem_singleton.1 hwaiting]
      exact DocId.isPlain_of_ofText hid

/-- No documents wait any more. -/
lemma of_stores {session' : Option Mode} {store store' : Store}
    (h : Store.Twins setup typo typo' session' store store') :
    Twins setup typo typo' session' { first with store, pending := [] }
      { second with store := store', pending := [] } :=
  ⟨h, rfl, fun waiting hwaiting => by cases hwaiting⟩

/-- The same documents are written to both. -/
lemma flush (h : Twins setup typo typo' session first second) :
    Twins setup typo typo' session (after Engine.flush first) (after Engine.flush second) := by
  by_cases hempty : first.pending = []
  · have hsame : ∀ engine : Engine, engine.pending = [] → after Engine.flush engine = engine := by
      intro engine hnil
      unfold Engine.flush after
      rw [get_bind, hnil]
      rfl
    rwa [hsame first hempty, hsame second (h.pending_eq.trans hempty)]
  · have hwrite : ∀ engine : Engine, engine.pending ≠ [] → after Engine.flush engine =
        { engine with store := after (writeAll engine.pending) engine.store, pending := [] } :=
      fun engine hne => (after_flush engine).resolve_left fun hsame => hne hsame.2
    rw [hwrite first hempty, hwrite second (h.pending_eq ▸ hempty), h.pending_eq]
    exact of_stores (h.stores.writeAll h.plain)

/-- **Every step keeps two engines at the same point.**

**Proof sketch.** By the kinds of steps: each is done to the stores, or to the documents that wait,
and keeps both alike. -/
theorem step (h : Twins setup typo typo' session first second) (step : Step) :
    ∃ session', Twins setup typo typo' session' (step.apply first) (step.apply second) := by
  cases step with
  | createFiles => exact ⟨session, h.onStore h.stores.createFiles⟩
  | openSession =>
    obtain ⟨session', hstores⟩ := h.stores.openIn
    exact ⟨session', h.onStore hstores⟩
  | commit => exact ⟨none, h.onStore h.stores.commit⟩
  | saveIndexes id plain fields =>
    exact ⟨session, h.onStore
      (h.stores.within (Store.parallel_of_within (Store.parallel_saveIndexes plain fields)))⟩
  | removeFromIndexes document =>
    exact ⟨session, h.onStore
      (h.stores.within (Store.parallel_of_within (Store.parallel_removeFromIndexes document)))⟩
  | add fields => exact ⟨session, h.add fields⟩
  | addWithId text fields => exact ⟨session, h.addWithId text fields⟩
  | flush => exact ⟨session, h.flush⟩
  | truncate =>
    refine ⟨session, ?_⟩
    change Twins setup typo typo' session (after Engine.truncate first)
      (after Engine.truncate second)
    rw [after_truncate, after_truncate]
    exact of_stores h.stores.truncate

/-- All steps do. -/
theorem run (h : Twins setup typo typo' session first second) (steps : List Step) :
    ∃ session', Twins setup typo typo' session' (first.run steps) (second.run steps) := by
  induction steps generalizing first second session with
  | nil => exact ⟨session, h⟩
  | cons step steps ih =>
    obtain ⟨session', hstep⟩ := h.step step
    exact ih hstep

/-- **The same ids are found in both**, if the terms have the same budgets.

**Proof sketch.** A look at the stores is one at two sessions that stand for one view, and what it
finds there is the answer of the engine. -/
theorem byTypo (h : Twins setup typo typo' session first second)
    (hbudget : Budget.new typo = .new typo') (term : String) (filter : Option String) :
    ∃ found found',
      Gives (ask fun store => store.byTypo term filter) first found ∧
      Gives (ask fun store => store.byTypo term filter) second found' ∧ found.SameIds found' := by
  obtain ⟨asked, asked', mode, mode', view, store, store', hasked, hasked', hrun, hrun', -⟩ :=
    h.stores.look fun store => store.byTypo term filter
  obtain ⟨found, found', hfound, hfound', hsame⟩ :=
    hasked.byTypo_sameIds hasked' hbudget term filter
  have hgives : ∀ {engine : Engine} {store : Store} {found : Matches},
      Store.Op.attempt (Store.within .read (Store.Op.look fun store => store.byTypo term filter))
        engine.store = .ok (.ok found) store →
      Gives (ask fun store => store.byTypo term filter) engine found := by
    intro engine store found hrun
    refine ⟨{ engine with store }, ?_⟩
    unfold ask Engine.onStore
    rw [Store.ok_of_attempt hrun]
  rw [hfound] at hrun
  rw [hfound'] at hrun'
  exact ⟨found, found', hgives hrun, hgives hrun', hsame⟩

end Twins

/-- Two engines that start with empty directories. -/
lemma twins_of_start {setup : Store.Setup} {typo typo' : TypoConfig} {first second : Engine}
    {scoring scoring' : Scoring}
    (hfirst : (start ((setup.withTypo typo).store ∅) scoring).1 = .ok first)
    (hsecond : (start ((setup.withTypo typo').store ∅) scoring').1 = .ok second) :
    Twins setup typo typo' none first second := by
  obtain ⟨hstands, hpending⟩ :=
    @stands_start _ (· = Store.View.empty) _ _ hfirst rfl
  obtain ⟨hstands', hpending'⟩ :=
    @stands_start _ (· = Store.View.empty) _ _ hsecond rfl
  exact ⟨⟨_, hstands.store, hstands'.store⟩, hpending'.trans hpending.symm, hstands.plain⟩

/-- **The candidate generator does not change what is found.** Two engines start with empty
directories and generators over the alphabet of the settings, which may look at different numbers of
letters. After the same steps a look-up of any term succeeds in both, and finds the same ids in each
field.

**Proof sketch.** A store with another generator is that of other settings, so the two engines stand
for one view after every step. In sessions that stand for one view a look-up finds the ids under the
near terms, whatever the states of the terms are. -/
theorem sameIds_of_run (setup : Store.Setup) {size size' : Nat} (depth depth' : Nat)
    (hsize : Alphabet.ofSize size = setup.alphabet)
    (hsize' : Alphabet.ofSize size' = setup.alphabet) (scoring : Scoring) {first second : Engine}
    (hfirst : (start ((setup.store ∅).withAutomaton (.new size depth)) scoring).1 = .ok first)
    (hsecond : (start ((setup.store ∅).withAutomaton (.new size' depth')) scoring).1 = .ok second)
    (steps : List Step) (term : String) (filter : Option String) :
    ∃ found found',
      Gives (ask fun store => store.byTypo term filter) (run first steps) found ∧
      Gives (ask fun store => store.byTypo term filter) (run second steps) found' ∧
      found.SameIds found' := by
  rw [Store.withAutomaton_store hsize] at hfirst
  rw [Store.withAutomaton_store hsize'] at hsecond
  obtain ⟨session, htwins⟩ := (twins_of_start hfirst hsecond).run steps
  exact htwins.byTypo rfl term filter

/-- Two notes with similar titles, the second one under a chosen id. -/
def similarNotes : List Step :=
  [.add (.ofList [("title", .text "hazelnut")]), .flush,
    .addWithId "a" (.ofList [("title", .text "hazelnuts")]), .flush]

/-- A generator that looks at all letters and one that looks at two find the same notes. -/
theorem sameIds_of_run_similarNotes : ∃ first second,
    (start ((noteSetup.store ∅).withAutomaton (.new 4 14)) {}).1 = .ok first ∧
    (start ((noteSetup.store ∅).withAutomaton (.new 4 2)) {}).1 = .ok second ∧
    ∃ found found',
      Gives (ask fun store => store.byTypo "Hazelnat" none) (run first similarNotes) found ∧
      Gives (ask fun store => store.byTypo "Hazelnat" none) (run second similarNotes) found' ∧
      found.SameIds found' :=
  ⟨_, _, rfl, rfl, sameIds_of_run noteSetup 14 2 rfl rfl {} rfl rfl similarNotes "Hazelnat" none⟩

/-- The ids that a look-up finds in the titles. -/
def titlesOf (engine : Engine) (term : String) : Option (List DocId) :=
  (answer? (ask fun store => store.byTypo term none) engine).bind fun found =>
    (found.get? "title").map PostingList.ids

/-- Look-ups that find a title in one engine and none in the other.

**Proof sketch.** Both look-ups find a list for the title, one with the id and one without ids. -/
lemma not_sameIds_of_titlesOf {first second : Engine} {term : String} {id : DocId}
    (h : titlesOf first term = some [id]) (h' : titlesOf second term = some []) :
    ∃ found found',
      Gives (ask fun store => store.byTypo term none) first found ∧
      Gives (ask fun store => store.byTypo term none) second found' ∧ ¬ found.SameIds found' := by
  have hgives : ∀ {engine : Engine} {ids : List DocId}, titlesOf engine term = some ids →
      ∃ found list, Gives (ask fun store => store.byTypo term none) engine found ∧
        found.get? "title" = some list ∧ list.ids = ids := by
    intro engine ids h
    obtain ⟨found, hanswer, htitle⟩ := Option.bind_eq_some_iff.1 h
    obtain ⟨list, hlist, hids⟩ := Option.map_eq_some_iff.1 htitle
    exact ⟨found, list, gives_of_answer? hanswer, hlist, hids⟩
  obtain ⟨found, list, hfound, hlist, hids⟩ := hgives h
  obtain ⟨found', list', hfound', hlist', hids'⟩ := hgives h'
  refine ⟨found, found', hfound, hfound', fun hsame => ?_⟩
  have htitle := hsame "title"
  rw [hlist, hlist'] at htitle
  cases htitle with
  | some hmem =>
    have hid := (hmem id).1 (by simp [hids])
    simp [hids'] at hid

/-- An engine that starts with an empty directory and a generator over letters of its own, once one
note is written. -/
def appleNote (size : Nat) : Engine :=
  run { store := (noteSetup.store ∅).withAutomaton (.new size 14) }
    [.createFiles, .add (.ofList [("title", .text "apple")]), .flush]

/-- The thresholds of the settings are in order already. -/
lemma withAutomaton_noteSetup (automaton : Automaton) :
    (noteSetup.store ∅).withAutomaton automaton =
      { (noteSetup.store ∅).withAutomaton automaton with
        budget := ⟨true, [(9, 2), (5, 1)]⟩ } := by
  have hbudget : Budget.new {} = ⟨true, [(9, 2), (5, 1)]⟩ := by
    unfold Budget.new
    rw [List.mergeSort_of_pairwise (by decide)]
  rw [← hbudget]
  rfl

/-- With letters of another alphabet than that of the settings a note is missed. -/
theorem not_sameIds_of_otherAlphabet : ∃ found found',
    Gives (ask fun store => store.byTypo "appla" none) (appleNote 4) found ∧
    Gives (ask fun store => store.byTypo "appla" none) (appleNote 5) found' ∧
      ¬ found.SameIds found' := by
  have hfound : titlesOf (appleNote 4) "appla" = some [⟨"1"⟩] := by
    unfold appleNote
    rw [withAutomaton_noteSetup]
    decide +kernel
  have hmissed : titlesOf (appleNote 5) "appla" = some [] := by
    unfold appleNote
    rw [withAutomaton_noteSetup]
    decide +kernel
  exact not_sameIds_of_titlesOf hfound hmissed

end Engine

end Concordance
