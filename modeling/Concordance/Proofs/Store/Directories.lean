import Concordance.Proofs.Store.Sessions

set_option relaxedAutoImplicit false
set_option autoImplicit false

/-!
# Stores over directories

A store over an empty directory stands for nothing. A store that is made over the directory of
another one, with which it shares schema and settings, stands for what the other one stands for: no
two record files of a store have one name.

## Main definitions

* `Concordance.Store.Setup.Nameable` — the files of a store can have their names.

## Main results

* `Concordance.Store.Setup.rests_empty` — a store over an empty directory.
* `Concordance.Store.Rests.renew` — a store over the directory of another one.
-/

namespace Concordance

namespace Store

variable {setup : Setup} {status : Status} {view : View} {store : Store}

/-! ## Stores that are made -/

/-- A store over a directory stands for what the files of the directory stand for.

**Proof sketch.** The files of the fields are entered under the names of the fields. These differ,
so the file found under a name is that of the field so called. -/
lemma Setup.rests_store (hclosed : status.mode = none) (directory : Directory)
    (hdocs : setup.Docs status view.docs (.new (docsName setup.schema.name)
      setup.config.docsWidth (directory.get? (docsName setup.schema.name))))
    (hstates : setup.Saves status (setup.carried view.lists) (.new (statesName setup.schema.name)
      setup.config.stateWidth (directory.get? (statesName setup.schema.name))))
    (hlists : ∀ field ∈ setup.schema.indexedFields, setup.Lists field status
      (view.lists field.name) (.new (indexName setup.schema.name field.name)
        setup.config.indexWidth (directory.get? (indexName setup.schema.name field.name)))) :
    (setup.store directory).Rests setup status view := by
  have hnodup : ((setup.schema.indexedFields.map fun field =>
      (field.name, (RecordFile.new (indexName setup.schema.name field.name)
        setup.config.indexWidth (directory.get? (indexName setup.schema.name field.name)) :
          RecordFile Posting))).map Prod.fst).Nodup := by
    rw [List.map_map]
    exact List.pairwise_map.2 (setup.built.pairwise.sublist List.filter_sublist)
  have hget : ∀ {name : String} {file : RecordFile Posting},
      (setup.store directory).indexes.get? name = some file ↔
        ∃ field ∈ setup.schema.indexedFields, field.name = name ∧
          .new (indexName setup.schema.name field.name) setup.config.indexWidth
            (directory.get? (indexName setup.schema.name field.name)) = file := by
    intro name file
    refine (OrderedMap.get?_ofList hnodup).trans ?_
    simp only [List.mem_map, Prod.mk.injEq]
  refine ⟨hclosed, rfl, rfl, rfl, rfl, rfl, rfl, hdocs, hstates, fun name => ?_,
    fun field hfield file hfile => ?_⟩
  · rw [Option.isSome_iff_exists]
    constructor
    · rintro ⟨file, hfile⟩
      obtain ⟨field, hfield, hname, -⟩ := hget.1 hfile
      exact ⟨field, hfield, hname⟩
    · rintro ⟨field, hfield, hname⟩
      exact ⟨_, hget.2 ⟨field, hfield, hname, rfl⟩⟩
  · obtain ⟨other, hother, hname, rfl⟩ := hget.1 hfile
    obtain rfl := setup.eq_of_name_eq hother hfield hname
    exact hlists other hother

/-- The files of a store can have their names: the names are not too long and lead to no other
directory. -/
structure Setup.Nameable (setup : Setup) : Prop where
  docs : RecordFile.usableName (docsName setup.schema.name) = true
  states : RecordFile.usableName (statesName setup.schema.name) = true
  indexes : ∀ field ∈ setup.schema.indexedFields,
    RecordFile.usableName (indexName setup.schema.name field.name) = true

/-- A store over an empty directory stands for nothing, whatever is known of files that are not
there.

**Proof sketch.** Each of the files over an empty directory holds nothing, which is what the empty
view has. -/
lemma Setup.rests_of_missing (setup : Setup) (hclosed : status.mode = none)
    (hdocs : status.Of (.new (docsName setup.schema.name) setup.config.docsWidth none :
      RecordFile StoredDocument))
    (hstates : status.Of (.new (statesName setup.schema.name) setup.config.stateWidth none :
      RecordFile TypoState))
    (hindexes : ∀ field ∈ setup.schema.indexedFields, status.Of
      (.new (indexName setup.schema.name field.name) setup.config.indexWidth none :
        RecordFile Posting)) :
    (setup.store ∅).Rests setup status View.empty := by
  refine setup.rests_store hclosed ∅ ⟨?_, hdocs⟩ ⟨?_, hstates⟩
    fun field hfield => ⟨?_, hindexes field hfield⟩
  · rw [hclosed]
    exact RecordFile.holds_empty _ _ rfl
  · rw [hclosed, setup.carried_empty]
    exact (RecordFile.holds_empty _ _ rfl).saves_empty
  · rw [hclosed]
    exact (RecordFile.holds_empty _ _ rfl).lists_empty _

/-- A store over an empty directory stands for nothing. -/
theorem Setup.rests_empty (setup : Setup) :
    (setup.store ∅).Rests setup .unknown View.empty :=
  setup.rests_of_missing rfl trivial trivial fun _ _ => trivial

/-- The files of a store over an empty directory can be made if they can have their names. -/
theorem Setup.Nameable.rests_empty (h : setup.Nameable) :
    (setup.store ∅).Rests setup .ready View.empty :=
  setup.rests_of_missing rfl (.inr h.docs) (.inr h.states) fun field hfield =>
    .inr (h.indexes field hfield)

/-- Books have a title and a code of their own. -/
def bookSetup : Setup where
  schema := { name := "books", fields := [⟨"title", { indexed := true }⟩,
    ⟨"code", { indexed := true, unique := true }⟩] }
  config := {}
  analyzer := .standard
  built := @Schema.Built.addField _ _ "code" { indexed := true, unique := true }
    (@Schema.Built.addField _ _ "title" { indexed := true } (.start "books" "standard") rfl) rfl

/-- The files of books can have their names. -/
lemma nameable_bookSetup : bookSetup.Nameable := ⟨by decide, by decide, by decide⟩

/-! ## Directories -/

section Directory

variable {R : Type}

/-- What is stored under a name once a record file is put into a directory. -/
lemma get?_put (file : RecordFile R) (directory : Directory) (name : String) :
    (put file directory).get? name =
      if name = file.name then file.contents else directory.get? name := by
  unfold put
  by_cases hname : name = file.name
  · subst hname
    cases hcontents : file.contents with
    | some bytes => simp [OrderedMap.get?_insert_self]
    | none => simp [OrderedMap.get?_erase_self]
  · cases file.contents with
    | some bytes => simp [hname, OrderedMap.get?_insert_of_ne]
    | none => simp [hname, OrderedMap.get?_erase_of_ne]

/-- What is stored under a name once record files with other names are put into a directory. -/
lemma get?_foldl_put_of_ne {files : List (RecordFile R)} {name : String}
    (h : ∀ file ∈ files, file.name ≠ name) (directory : Directory) :
    (files.foldl (fun directory file => put file directory) directory).get? name =
      directory.get? name := by
  induction files generalizing directory with
  | nil => rfl
  | cons file files ih =>
    have hfile := h file List.mem_cons_self
    rw [List.foldl_cons, ih fun other hother => h other (List.mem_cons_of_mem _ hother), get?_put,
      if_neg (Ne.symm hfile)]

/-- What is stored under the name of one of several record files that are put into a directory. -/
lemma get?_foldl_put {files : List (RecordFile R)}
    (h : files.Pairwise fun a b => a.name ≠ b.name) {file : RecordFile R} (hfile : file ∈ files)
    (directory : Directory) :
    (files.foldl (fun directory file => put file directory) directory).get? file.name =
      file.contents := by
  induction files generalizing directory with
  | nil => cases hfile
  | cons first files ih =>
    obtain ⟨hfirst, hrest⟩ := List.pairwise_cons.1 h
    rw [List.foldl_cons]
    rcases List.mem_cons.1 hfile with rfl | hfile
    · rw [get?_foldl_put_of_ne fun other hother => Ne.symm (hfirst other hother), get?_put,
        if_pos rfl]
    · exact ih hrest hfile _

end Directory

/-! ## The names of record files -/

/-- The sixth character from the end of a name, which tells the kinds of file apart. -/
def kindMark (name : String) : Option Char := name.toList.reverse[5]?

/-- The name of the file of documents has an `s` as its sixth character from the end. -/
lemma kindMark_docsName (schema : String) : kindMark (docsName schema) = some 's' := by
  simp [kindMark, docsName]

/-- So does the name of the file of typo states. -/
lemma kindMark_statesName (schema : String) : kindMark (statesName schema) = some 's' := by
  simp [kindMark, statesName]

/-- The name of a file of postings has an `x` there instead. -/
lemma kindMark_indexName (schema field : String) :
    kindMark (indexName schema field) = some 'x' := by
  simp [kindMark, indexName]

/-- No file of postings is named as that of the documents is. -/
lemma indexName_ne_docsName (schema field : String) :
    indexName schema field ≠ docsName schema := by
  intro h
  have hmark := congrArg kindMark h
  rw [kindMark_indexName, kindMark_docsName] at hmark
  exact absurd hmark (by decide)

/-- No file of postings is named as that of the typo states is. -/
lemma indexName_ne_statesName (schema field : String) :
    indexName schema field ≠ statesName schema := by
  intro h
  have hmark := congrArg kindMark h
  rw [kindMark_indexName, kindMark_statesName] at hmark
  exact absurd hmark (by decide)

/-- The files of typo states and of documents have different names. -/
lemma statesName_ne_docsName (schema : String) : statesName schema ≠ docsName schema := by
  intro h
  have hlists := congrArg String.toList h
  rw [statesName, docsName, String.toList_append, String.toList_append] at hlists
  exact absurd (List.append_cancel_left hlists) (by decide)

/-- The files of postings of different fields have different names. -/
lemma indexName_injective {schema a b : String} (h : indexName schema a = indexName schema b) :
    a = b := by
  have hlists := congrArg String.toList h
  simp only [indexName, String.toList_append, List.append_assoc] at hlists
  have hrest := List.append_cancel_left (List.append_cancel_left hlists)
  exact String.toList_inj.1 (List.append_cancel_right hrest)

/-! ## The directory of a store -/

/-- A store that is made over the directory of another one stands for what that one stands for.

**Proof sketch.** The names of the files differ, so the directory has the contents of each file
under its name. The renewed store is made of them, and each file stands for what it stood for. -/
theorem Rests.renew (h : store.Rests setup status view) :
    (setup.store store.directory).Rests setup status view := by
  have hdocsName : store.docs.name = docsName setup.schema.name := h.files.docs.1.name_eq
  have hstatesName : store.stateFile.name = statesName setup.schema.name :=
    h.files.states.1.holds.name_eq
  have hindexName : ∀ {name : String} {file : RecordFile Posting},
      (name, file) ∈ store.indexes.entries → file.name = indexName setup.schema.name name := by
    intro name file hentry
    have hget := OrderedMap.get?_eq_some_iff.2 hentry
    obtain ⟨field, hfield, rfl⟩ := h.files.exists_field hget
    exact (h.files.lists field hfield file hget).1.holds.name_eq
  have hvalues : ∀ file ∈ store.indexes.values, ∃ name,
      file.name = indexName setup.schema.name name := by
    intro file hfile
    obtain ⟨⟨name, file⟩, hentry, rfl⟩ := List.mem_map.1 hfile
    exact ⟨name, hindexName hentry⟩
  -- a file name determines its field, so no file is put in place of another one
  have hpairwise : store.indexes.values.Pairwise fun a b => a.name ≠ b.name := by
    refine List.pairwise_map.2 ?_
    have hkeys := List.pairwise_map.1 (OrderedMap.nodup_keys store.indexes)
    refine hkeys.imp_of_mem fun {a b} ha hb hne hname => hne ?_
    rw [hindexName ha, hindexName hb] at hname
    exact indexName_injective hname
  have hdocs : store.directory.get? (docsName setup.schema.name) = store.docs.contents := by
    rw [directory, get?_put, if_pos hdocsName.symm]
  have hstates : store.directory.get? (statesName setup.schema.name) =
      store.stateFile.contents := by
    rw [directory, get?_put, hdocsName, if_neg (statesName_ne_docsName _), get?_put,
      if_pos hstatesName.symm]
  have hindex : ∀ {field : Field} {file : RecordFile Posting},
      store.indexes.get? field.name = some file →
        store.directory.get? (indexName setup.schema.name field.name) = file.contents := by
    intro field file hget
    have hentry := OrderedMap.get?_eq_some_iff.1 hget
    have hmem : file ∈ store.indexes.values := List.mem_map.2 ⟨_, hentry, rfl⟩
    rw [directory, get?_put, hdocsName, if_neg (indexName_ne_docsName _ _), get?_put,
      hstatesName, if_neg (indexName_ne_statesName _ _), ← hindexName hentry,
      get?_foldl_put hpairwise hmem]
  -- the store is closed, so what is on disk is all that its files have
  have hmode := h.closed
  refine setup.rests_store hmode _ ?_ ?_ fun field hfield => ?_
  · rw [hdocs]
    obtain ⟨hholds, hstatus⟩ := h.files.docs
    rw [hmode] at hholds
    exact ⟨by rw [hmode]; exact hholds.renew, hstatus.congr hdocsName.symm rfl⟩
  · rw [hstates]
    obtain ⟨hsaves, hstatus⟩ := h.files.states
    rw [hmode] at hsaves
    exact ⟨by rw [hmode]; exact { hsaves with holds := hsaves.holds.renew },
      hstatus.congr hstatesName.symm rfl⟩
  · obtain ⟨file, hget, hlists, hstatus⟩ := h.files.exists_file hfield
    rw [hindex hget]
    rw [hmode] at hlists
    exact ⟨by rw [hmode]; exact { hlists with holds := hlists.holds.renew },
      hstatus.congr (hindexName (OrderedMap.get?_eq_some_iff.1 hget)).symm rfl⟩

end Store

end Concordance
