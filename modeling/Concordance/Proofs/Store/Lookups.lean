import Concordance.Proofs.RecordFile.PrefixScan
import Concordance.Proofs.Store.Sessions

set_option relaxedAutoImplicit false
set_option autoImplicit false

/-!
# Look-ups in a session

A look-up of a term, or of the beginning of one, runs against the field that it names, or against
all fields whose values are not unique. In a session it finds for each of these fields the ids that
the view lists there.

## Main definitions

* `Concordance.Schema.LooksIn` — a look-up runs against a field.
* `Concordance.Store.Setup.IsKey` — the key under which a term is looked up in a field.
* `Concordance.Store.Finds` — what is found are given ids, for each field that is looked up.

## Main results

* `Concordance.Store.Runs.postings`, `mem_postings` — the list of a term.
* `Concordance.Store.Runs.byTerm`, `byStart` — the ids under a term, and under its continuations.
-/

namespace Concordance

open Operation

/-- A look-up runs against a field: the filter names the field, or there is none and the field is
indexed and its values are not unique. -/
def Schema.LooksIn (schema : Schema) (filter : Option String) (name : String) : Prop :=
  (filter ≠ some "*" ∧ filter = some name) ∨ ((filter = none ∨ filter = some "*") ∧
    ∃ field ∈ schema.indexedFields, field.flags.unique = false ∧ field.name = name)

namespace Store

/-- The key under which a term is looked up in a field: the term as it is in a unique field, and the
normalized one in any other indexed field. -/
def Setup.IsKey (setup : Setup) (term name key : String) : Prop :=
  ∃ field ∈ setup.schema.indexedFields, field.name = name ∧
    if field.flags.unique then key = term else setup.analyzer.normalize term = some key

/-- What is found: an entry for each field that is looked up, with the ids that are to be found
there, none of them twice. -/
structure Finds (schema : Schema) (filter : Option String) (listed : String → DocId → Prop)
    (found : Matches) : Prop where
  fields : ∀ name, (found.get? name).isSome ↔ schema.LooksIn filter name
  nodup : ∀ name list, found.get? name = some list → list.ids.Nodup
  exact : ∀ name list, found.get? name = some list → ∀ id, id ∈ list.ids ↔ listed name id

variable {setup : Setup} {store : Store} {view : View} {mode : Mode}

/-! ## Lists -/

/-- In a session the list of a term is looked up. A field without an index has no ids.

**Proof sketch.** Without a file the field is not indexed and there are no ids. Otherwise the file
looks up the term, where an empty list has no record. -/
lemma Runs.postings (h : store.Runs setup mode view) (name term : String) :
    ∃ list, store.postings name term = .ok list ∧ list.IsPlain ∧
      ∀ field ∈ setup.schema.indexedFields, field.name = name → list = view.lists name term := by
  obtain ⟨saved, hfiles, -, -⟩ := h.files
  unfold Store.postings
  cases hget : store.indexes.get? name with
  | none =>
    refine ⟨.empty, rfl, PostingList.isPlain_empty, fun field hfield hname => ?_⟩
    obtain ⟨file, hfile, -⟩ := hfiles.exists_file hfield
    rw [hname, hget] at hfile
    cases hfile
  | some file =>
    obtain ⟨field, hfield, rfl⟩ := hfiles.exists_field hget
    have hlists := (hfiles.lists field hfield file hget).1
    refine ⟨view.lists field.name term, ?_, hlists.plain term, fun _ _ _ => rfl⟩
    change Store.postingsIn file term = _
    unfold Store.postingsIn
    rw [hlists.get? (setup.stateFor_lt field)]
    by_cases hempty : view.lists field.name term = .empty
    · rw [hempty, Posting.of?_empty]
      rfl
    · rw [Posting.of?_of_ne hempty]
      exact congrArg Except.ok (Posting.list_of (hlists.plain term))

/-- The ids in the list of a term are those that the view lists in an indexed field.

**Proof sketch.** If the field is indexed, the list that is found is that of the view. Otherwise it
has no file, and no id is found. -/
lemma Runs.mem_postings (h : store.Runs setup mode view) (name term : String) :
    ∃ list, store.postings name term = .ok list ∧ list.ids.Nodup ∧ ∀ id, id ∈ list.ids ↔
      ∃ field ∈ setup.schema.indexedFields, field.name = name ∧
        id ∈ (view.lists name term).ids := by
  obtain ⟨list, hrun, hplain, hlist⟩ := h.postings name term
  refine ⟨list, hrun, hplain.nodup, fun id => ?_⟩
  by_cases hindexed : ∃ field ∈ setup.schema.indexedFields, field.name = name
  · obtain ⟨field, hfield, hname⟩ := hindexed
    rw [hlist field hfield hname]
    exact ⟨fun hid => ⟨field, hfield, hname, hid⟩, fun ⟨_, _, _, hid⟩ => hid⟩
  · have hno : ¬ ∃ field ∈ setup.schema.indexedFields, field.name = name ∧
        id ∈ (view.lists name term).ids :=
      fun ⟨field, hfield, hname, _⟩ => hindexed ⟨field, hfield, hname⟩
    obtain ⟨saved, hfiles, -, -⟩ := h.files
    have hget : store.indexes.get? name = none := by
      rw [← Option.not_isSome_iff_eq_none, hfiles.isSome_iff]
      exact hindexed
    unfold Store.postings at hrun
    rw [hget] at hrun
    cases hrun
    exact iff_of_false List.not_mem_nil hno

/-- The ids of several postings are those of any of them. -/
lemma mem_united {postings : List Posting} {id : DocId} :
    id ∈ (united postings).ids ↔ ∃ posting ∈ postings, id ∈ posting.list.ids := by
  have hlists : united postings = (postings.map Posting.list).foldl PostingList.union .empty :=
    List.foldl_map.symm
  rw [hlists, PostingList.mem_foldl_union]
  simp [PostingList.empty]

/-- The ids of postings with plain lists come together in a plain list. -/
lemma isPlain_united {postings : List Posting} (h : ∀ posting ∈ postings, posting.list.IsPlain) :
    (united postings).IsPlain := by
  suffices hfold : ∀ list : PostingList, list.IsPlain →
      (postings.foldl (fun list posting => list.union posting.list) list).IsPlain from
    hfold .empty PostingList.isPlain_empty
  induction postings with
  | nil => exact fun _ hlist => hlist
  | cons posting postings ih =>
    intro list hlist
    exact ih (fun other hother => h other (List.mem_cons_of_mem _ hother)) _
      (hlist.foldl_add (h posting List.mem_cons_self).ids)

/-! ## Fields and keys -/

/-- What the targets of a look-up contribute, if none of them fails.

**Proof sketch.** Each field is asked in turn and each answers. The fields have different names, so
the answer under a name is that of its field. -/
lemma collect_ok {targets : List (String × Option String)}
    {find : String → Option String → Except Error PostingList} {list : String → PostingList}
    (hfind : ∀ target ∈ targets, find target.1 target.2 = .ok (list target.1))
    (hnodup : (targets.map Prod.fst).Nodup) :
    ∃ found, collect targets find = .ok found ∧ ∀ name ids, found.get? name = some ids ↔
      name ∈ targets.map Prod.fst ∧ ids = list name := by
  have hkeys : ((targets.map fun target => (target.1, list target.1)).map Prod.fst).Nodup := by
    rw [List.map_map]
    exact hnodup
  refine ⟨OrderedMap.ofList (targets.map fun target => (target.1, list target.1)), ?_,
    fun name ids => ?_⟩
  · unfold collect
    rw [@mapM_ok _ _ _ _ fun target => (target.1, list target.1)]
    · rfl
    · intro target htarget
      simp only [hfind target htarget]
      rfl
  · rw [OrderedMap.get?_ofList hkeys]
    simp only [List.mem_map, Prod.mk.injEq]
    constructor
    · rintro ⟨target, htarget, rfl, rfl⟩
      exact ⟨⟨target, htarget, rfl⟩, rfl⟩
    · rintro ⟨⟨target, htarget, rfl⟩, rfl⟩
      exact ⟨target, htarget, rfl, rfl⟩

/-- A filter names one field, or it does not matter. -/
lemma filter_cases (filter : Option String) :
    (∃ name, filter = some name ∧ name ≠ "*" ∧ filter.filter (· ≠ "*") = some name) ∨
      (filter = none ∨ filter = some "*") ∧ filter.filter (· ≠ "*") = none := by
  cases filter with
  | none => exact .inr ⟨.inl rfl, rfl⟩
  | some name =>
    by_cases hall : name = "*"
    · exact .inr ⟨.inr (congrArg some hall), by simp [hall]⟩
    · exact .inl ⟨name, rfl, hall, by simp [hall]⟩

/-- The key of a field that is asked for by name.

**Proof sketch.** The field is found by its name. A unique field has the term as it is for its key,
another one the term in normal form, if there is one. -/
lemma Runs.keyFor_eq_some_iff (h : store.Runs setup mode view) {term name key : String} :
    store.keyFor term name = some key ↔ setup.IsKey term name key := by
  obtain ⟨saved, hfiles, -, -⟩ := h.files
  unfold keyFor Setup.IsKey
  rw [hfiles.schema_eq, hfiles.analyzer_eq]
  constructor
  · intro hkey
    cases hget : setup.schema.field? name with
    | none =>
      rw [hget] at hkey
      cases hkey
    | some field =>
      have hname : field.name = name := by simpa using List.find?_some hget
      simp only [hget] at hkey
      by_cases hindexed : field.flags.indexed = true
      · refine ⟨field, Schema.mem_indexedFields.2 ⟨List.mem_of_find?_eq_some hget, hindexed⟩, hname,
          ?_⟩
        by_cases hunique : field.flags.unique = true
        · simpa [hindexed, hunique, eq_comm] using hkey
        · simpa [hindexed, hunique] using hkey
      · simp [hindexed] at hkey
  · rintro ⟨field, hfield, rfl, hkey⟩
    obtain ⟨hmem, hindexed⟩ := Schema.mem_indexedFields.1 hfield
    rw [setup.built.field?_name hmem]
    by_cases hunique : field.flags.unique = true
    · simpa [hindexed, hunique, eq_comm] using hkey
    · simpa [hindexed, hunique] using hkey

/-- The targets of a look-up are the fields that it runs against, each once and with its key.

**Proof sketch.** A field that is named is asked alone. Otherwise all indexed fields are asked that
are not unique. -/
lemma Runs.targets (h : store.Runs setup mode view) (term : String) (filter : Option String) :
    ((store.targets term filter).map Prod.fst).Nodup ∧
    (∀ name, name ∈ (store.targets term filter).map Prod.fst ↔ setup.schema.LooksIn filter name) ∧
    ∀ target ∈ store.targets term filter, target.2 = store.keyFor term target.1 := by
  obtain ⟨saved, hfiles, -, -⟩ := h.files
  unfold Store.targets Schema.LooksIn
  rcases filter_cases filter with ⟨name, rfl, hname, hfilter⟩ | ⟨hall, hfilter⟩
  · rw [hfilter]
    refine ⟨List.nodup_singleton name, fun other => ?_, fun target htarget => ?_⟩
    · constructor
      · intro hother
        obtain rfl : other = name := List.mem_singleton.1 hother
        exact .inl ⟨fun hstar => hname (Option.some.inj hstar), rfl⟩
      · rintro (⟨-, hother⟩ | ⟨hnone | hstar, -⟩)
        · exact List.mem_singleton.2 (Option.some.inj hother).symm
        · cases hnone
        · exact absurd (Option.some.inj hstar) hname
    · rw [List.mem_singleton.1 htarget]
  · rw [hfilter, hfiles.schema_eq]
    simp only [List.map_map, Function.comp_def]
    refine ⟨?_, fun name => ?_, fun target htarget => ?_⟩
    · exact List.pairwise_map.2 (setup.built.pairwise.sublist
        (List.filter_sublist.trans List.filter_sublist))
    · have hno : ¬ (filter ≠ some "*" ∧ filter = some name) := by
        rintro ⟨hne, rfl⟩
        rcases hall with hnone | hstar
        · cases hnone
        · exact hne hstar
      rw [or_iff_right hno, and_iff_right hall, List.mem_map]
      simp only [List.mem_filter, Bool.not_eq_true', and_assoc]
    · obtain ⟨field, hfield, rfl⟩ := List.mem_map.1 htarget
      obtain ⟨hfield, hunique⟩ := List.mem_filter.1 hfield
      obtain ⟨hmem, hindexed⟩ := Schema.mem_indexedFields.1 hfield
      have hunique : field.flags.unique = false := by simpa using hunique
      -- the key is taken from the field in one place and by its name in the other
      unfold keyFor
      rw [hfiles.schema_eq, setup.built.field?_name hmem]
      simp [hindexed, hunique]

/-! ## Look-ups -/

/-- A look-up that finds given ids in each field under the key of the field.

**Proof sketch.** Each field that is looked up is a target once. What is found there is asked for
with the key of the field, so it is determined by the field. -/
lemma Runs.finds (h : store.Runs setup mode view) (term : String) (filter : Option String)
    {find : String → Option String → Except Error PostingList} {listed : String → DocId → Prop}
    (hfind : ∀ name, ∃ list, find name (store.keyFor term name) = .ok list ∧ list.ids.Nodup ∧
      ∀ id, id ∈ list.ids ↔ listed name id) :
    ∃ found, collect (store.targets term filter) find = .ok found ∧
      Finds setup.schema filter listed found := by
  choose list hrun hnodup hexact using hfind
  obtain ⟨hnames, hlooks, hkeys⟩ := h.targets term filter
  have hall : ∀ target ∈ store.targets term filter,
      find target.1 target.2 = .ok (list target.1) := by
    intro target htarget
    rw [hkeys target htarget]
    exact hrun target.1
  obtain ⟨found, hcollect, hget⟩ := collect_ok hall hnames
  refine ⟨found, hcollect, fun name => ?_, fun name ids hfound => ?_, fun name ids hfound => ?_⟩
  · rw [Option.isSome_iff_exists, ← hlooks]
    constructor
    · rintro ⟨ids, hfound⟩
      exact ((hget name ids).1 hfound).1
    · exact fun hname => ⟨list name, (hget name _).2 ⟨hname, rfl⟩⟩
  · rw [((hget name ids).1 hfound).2]
    exact hnodup name
  · rw [((hget name ids).1 hfound).2]
    exact hexact name

/-- What is found in all fields together. -/
lemma Finds.exists_mem_values_iff {schema : Schema} {filter : Option String}
    {listed : String → DocId → Prop} {found : Matches} (h : Finds schema filter listed found)
    (id : DocId) : (∃ list ∈ found.values, id ∈ list.ids) ↔
      ∃ name, schema.LooksIn filter name ∧ listed name id := by
  constructor
  · rintro ⟨list, hlist, hid⟩
    obtain ⟨⟨name, list⟩, hentry, rfl⟩ := List.mem_map.1 hlist
    have hget : found.get? name = some list := OrderedMap.get?_eq_some_iff.2 hentry
    refine ⟨name, (h.fields name).1 ?_, (h.exact name list hget id).1 hid⟩
    rw [hget]
    rfl
  · rintro ⟨name, hlooks, hlisted⟩
    obtain ⟨list, hget⟩ := Option.isSome_iff_exists.1 ((h.fields name).2 hlooks)
    exact ⟨list, List.mem_map.2 ⟨_, OrderedMap.get?_eq_some_iff.1 hget, rfl⟩,
      (h.exact name list hget id).2 hlisted⟩

/-- In a session the ids under a term are found.

**Proof sketch.** By whether the term has a key for the field: without one nothing is found, and
with one the postings of the key are. -/
theorem Runs.byTerm (h : store.Runs setup mode view) (term : String) (filter : Option String) :
    ∃ found, store.byTerm term filter = .ok found ∧
      Finds setup.schema filter (fun name id => ∃ key, setup.IsKey term name key ∧
        id ∈ (view.lists name key).ids) found := by
  refine h.finds term filter fun name => ?_
  cases hkey : store.keyFor term name with
  | none =>
    refine ⟨.empty, rfl, PostingList.isPlain_empty.nodup, fun id =>
      iff_of_false List.not_mem_nil ?_⟩
    rintro ⟨key, hiskey, -⟩
    rw [h.keyFor_eq_some_iff.2 hiskey] at hkey
    cases hkey
  | some key =>
    have hiskey := h.keyFor_eq_some_iff.1 hkey
    obtain ⟨field, hfield, hname, -⟩ := hiskey
    obtain ⟨list, hrun, hplain, hlist⟩ := h.postings name key
    refine ⟨list, hrun, hplain.nodup, fun id => ?_⟩
    rw [hlist field hfield hname]
    constructor
    · exact fun hid => ⟨key, h.keyFor_eq_some_iff.1 hkey, hid⟩
    · rintro ⟨other, hother, hid⟩
      rw [h.keyFor_eq_some_iff.2 hother] at hkey
      cases hkey
      exact hid

/-- In a session the ids under the terms with a beginning are found.

**Proof sketch.** The scan of a file finds the postings of these terms, and the ids of several
postings are put together. -/
theorem Runs.byStart (h : store.Runs setup mode view) (start : String) (filter : Option String) :
    ∃ found, store.byStart start filter = .ok found ∧
      Finds setup.schema filter (fun name id => ∃ key, setup.IsKey start name key ∧
        ∃ term, key.toList <+: term.toList ∧ id ∈ (view.lists name term).ids) found := by
  refine h.finds start filter fun name => ?_
  cases hkey : store.keyFor start name with
  | none =>
    refine ⟨.empty, rfl, PostingList.isPlain_empty.nodup, fun id =>
      iff_of_false List.not_mem_nil ?_⟩
    rintro ⟨key, hiskey, -⟩
    rw [h.keyFor_eq_some_iff.2 hiskey] at hkey
    cases hkey
  | some key =>
    obtain ⟨field, hfield, rfl, -⟩ := h.keyFor_eq_some_iff.1 hkey
    obtain ⟨saved, hfiles, -, -⟩ := h.files
    obtain ⟨file, hget, hlists, -⟩ := hfiles.exists_file hfield
    obtain ⟨postings, hscan, hmem⟩ := hlists.prefixScan (setup.stateFor_lt field) key
    -- what a posting lists is the list of its term
    have hlist : ∀ posting ∈ postings, posting.list = view.lists field.name posting.key := by
      intro posting hposting
      obtain ⟨⟨-, heq⟩, -⟩ := (hmem posting).1 hposting
      rw [heq]
      exact Posting.list_of (hlists.plain _)
    refine ⟨united postings, ?_, (isPlain_united fun posting hposting => ?_).nodup, fun id => ?_⟩
    · simp only [hget, hscan]
      rfl
    · rw [hlist posting hposting]
      exact hlists.plain _
    rw [mem_united]
    constructor
    · rintro ⟨posting, hposting, hid⟩
      rw [hlist posting hposting] at hid
      exact ⟨key, h.keyFor_eq_some_iff.1 hkey, posting.key, ((hmem posting).1 hposting).2, hid⟩
    · rintro ⟨other, hother, term, hstart, hid⟩
      rw [h.keyFor_eq_some_iff.2 hother] at hkey
      cases hkey
      have hne : view.lists field.name term ≠ .empty := fun hempty =>
        PostingList.eq_empty_iff.1 hempty id hid
      refine ⟨.of term (view.lists field.name term) (setup.stateFor field term),
        (hmem _).2 ⟨⟨hne, rfl⟩, hstart⟩, ?_⟩
      rw [Posting.list_of (hlists.plain _)]
      exact hid

end Store

end Concordance
