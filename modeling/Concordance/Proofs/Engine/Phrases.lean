import Concordance.Proofs.Analysis.Terms
import Concordance.Proofs.Engine.Batches
import Concordance.Proofs.Engine.Searching
import Concordance.Proofs.Search.Ranking

set_option relaxedAutoImplicit false
set_option autoImplicit false

/-!
# Phrases

A phrase is looked for in two steps: its words are looked up in the index, and the documents under
all of them are read and searched for the phrase letter by letter. The index tells the documents by
their terms, so a phrase finds those that hold it and have the terms of its words.

## Main definitions

* `Concordance.Hit.IsOf` — a hit of a phrase in a field, and of nothing else.
* `Concordance.Analyzer.HasPhrase` — a text holds a phrase and has the terms of its words.

## Main results

* `Concordance.Search.isOf_foldl_notePhrase` — what the hits of a phrase tell.
* `Concordance.Store.Runs.mem_phrase` — the documents that a phrase finds in a session.
* `Concordance.Engine.phrase_of_tasks` — the documents that a search for a phrase has hits of.
-/

namespace Concordance

open Operation

/-! ## The hits of a phrase -/

/-- All that a hit has matched is a phrase in a field, and it is flagged. -/
structure Hit.IsOf (hit : Hit) (field phrase : String) : Prop where
  fields_eq : hit.fields = (∅ : OrderedSet String).add field
  terms_eq : hit.terms = (∅ : OrderedSet String).add phrase
  fulltext : hit.fulltext = true

namespace Search

open ResultSet

variable {field value : String} {hits : ResultSet}

/-- A field holds a phrase if the text of what is stored there has it as a piece. -/
lemma filter_fieldHolds_ne_nil_iff {fields : Fields} :
    [field].filter (fieldHolds fields value) ≠ [] ↔
      ∃ stored, fields.get? field = some stored ∧ value.toList <:+: stored.asText.toList := by
  rw [← fieldHolds_iff]
  cases hholds : fieldHolds fields value field with
  | true => simp [hholds]
  | false => simp [hholds]

/-- To add a value twice to an empty set is to add it once. -/
lemma add_add_empty (k : String) :
    ((∅ : OrderedSet String).add k).add k = (∅ : OrderedSet String).add k :=
  OrderedMap.insert_of_get?_eq_some OrderedMap.get?_insert_self

/-- It does not matter how often a phrase is noted. -/
lemma isOf_withPhrase (document : Document) {hit : Hit}
    (h : hit = Hit.new document.id ∨ hit.IsOf field value) :
    (withPhrase [field] value document hit).IsOf field value := by
  have hfields : (withPhrase [field] value document hit).fields = hit.fields.add field := rfl
  have hterms : (withPhrase [field] value document hit).terms = hit.terms.add value := rfl
  rcases h with rfl | h
  · exact ⟨rfl, rfl, rfl⟩
  · refine ⟨?_, ?_, rfl⟩
    · rw [hfields, h.fields_eq, add_add_empty]
    · rw [hterms, h.terms_eq, add_add_empty]

/-- A phrase that is noted for documents in one field leaves hits of it alone.

**Proof sketch.** Induction on the documents. A document that holds the phrase gets a hit of it
alone, whether it had one before or not, and the hits of the others stay. -/
lemma isOf_foldl_notePhrase (field value : String) (h : hits.Sound)
    (hall : ∀ id ∈ hits.ids, (hits.hitOf id).IsOf field value) (documents : List Document) :
    let hits' := documents.foldl (notePhrase [field] value) hits
    hits'.Sound ∧ ∀ id ∈ hits'.ids, (hits'.hitOf id).IsOf field value := by
  induction documents generalizing hits with
  | nil => exact ⟨h, hall⟩
  | cons document documents ih =>
    rw [List.foldl_cons, notePhrase_eq]
    cases hholds : fieldHolds document.fields value field with
    | false => simpa [hholds] using ih h hall
    | true =>
      have hfilter : [field].filter (fieldHolds document.fields value) = [field] := by simp [hholds]
      rw [hfilter, if_neg (List.cons_ne_nil field [])]
      have hid := id_withPhrase [field] value document
      refine ih (h.update document.id hid) fun id hmem => ?_
      rw [h.hitOf_update document.id hid]
      split
      · apply isOf_withPhrase
        by_cases hold : document.id ∈ hits.ids
        · exact .inr (hall _ hold)
        · exact .inl (h.hitOf_of_not_mem hold)
      · next hne =>
        have hmem : id ∈ (hits.update document.id (withPhrase [field] value document)).list.ids :=
          hmem
        rw [h.list_update document.id hid, PostingList.mem_add] at hmem
        exact hall id (hmem.resolve_left hne)

end Search

/-! ## Words in a session -/

namespace Store

variable {setup : Setup} {store : Store} {view : View} {mode : Mode} {field : Field}

/-- The key of a field whose values are not unique is the normalized term. -/
lemma Setup.isKey_iff (hfield : field ∈ setup.schema.indexedFields)
    (hunique : field.flags.unique = false) {word key : String} :
    setup.IsKey word field.name key ↔ setup.analyzer.normalize word = some key := by
  constructor
  · rintro ⟨other, hother, heq, hkey⟩
    obtain rfl := setup.eq_of_name_eq hother hfield heq
    simpa [hunique] using hkey
  · exact fun hkey => ⟨field, hfield, rfl, by simpa [hunique] using hkey⟩

/-- The documents under all words of a phrase in an indexed field.

**Proof sketch.** A look-up of a word finds the ids under its term in the field, and what is common
to all look-ups is in each of them. -/
lemma Runs.mem_common (h : store.Runs setup mode view)
    (hfield : field ∈ setup.schema.indexedFields) (hname : field.name ≠ anyField)
    (hunique : field.flags.unique = false) (words : List String) :
    ∃ lists, words.mapM (Search.byWord store (some field.name)) = .ok lists ∧
      ∀ id, id ∈ (Search.common lists).ids ↔ words ≠ [] ∧ ∀ word ∈ words,
        ∃ key, setup.analyzer.normalize word = some key ∧
          id ∈ (view.lists field.name key).ids := by
  choose list hlist hmem using h.byWord (some field.name)
  have hlooks : ∀ name, setup.schema.LooksIn (some field.name) name ↔ name = field.name := by
    intro name
    have hstar : field.name ≠ "*" := hname
    unfold Schema.LooksIn
    simp [hstar, eq_comm (a := name)]
  refine ⟨words.map list, mapM_ok fun word _ => hlist word, fun id => ?_⟩
  rw [Search.mem_common_iff, List.forall_mem_map]
  simp only [hmem, hlooks, exists_eq_left, Setup.isKey_iff hfield hunique, ne_eq,
    List.map_eq_nil_iff]

end Store

/-! ## Phrases in a session -/

/-- A text holds a phrase letter by letter. Some word of the phrase can be looked up, and the text
has the terms of all words that can. -/
structure Analyzer.HasPhrase (analyzer : Analyzer) (phrase text : String) : Prop where
  holds : phrase.toList <:+: text.toList
  exists_word : ∃ word ∈ analyzer.rawTerms phrase, (analyzer.normalize word).isSome
  terms : ∀ word ∈ analyzer.rawTerms phrase, ∀ term, analyzer.normalize word = some term →
    term ∈ analyzer.terms text

namespace Store

variable {setup : Setup} {store : Store} {view : View} {mode : Mode} {field : Field}

/-- The terms of a stored document in a field without unique values.

**Proof sketch.** The document is the one that is stored under the id, and the value is its own, so
the terms are those of this value. -/
lemma hasTerm_iff_of_not_unique {docs : Table StoredDocument} {id : DocId} {stored : StoredDocument}
    {value : Value} (hget : docs.get? (.text id.text) = some stored)
    (hvalue : stored.fields.get? field.name = some value) (hunique : field.flags.unique = false)
    (term : String) :
    HasTerm setup docs field term id ↔ term ∈ setup.analyzer.terms value.asText := by
  have hterms : (setup.store ∅).fieldTerms field value = setup.analyzer.terms value.asText :=
    if_neg (by simp [hunique])
  rw [← hterms]
  constructor
  · rintro ⟨document, other, hdocument, hother, hterm⟩
    rw [hget] at hdocument
    obtain rfl := Option.some.inj hdocument
    rw [hvalue] at hother
    obtain rfl := Option.some.inj hother
    exact hterm
  · exact fun hterm => ⟨stored, value, hget, hvalue, hterm⟩

/-- The stored documents under all words of a phrase have the terms of these words.

**Proof sketch.** A document is under all words iff every word has a term under which it is listed,
and the index inverts what is stored. Words without a term are left out of the look-up. -/
lemma Runs.mem_common_words (h : store.Runs setup mode view) (hinv : view.Inverted setup)
    (hfield : field ∈ setup.schema.indexedFields) (hname : field.name ≠ anyField)
    (hstored : field.flags.stored = true) (hunique : field.flags.unique = false)
    (phrase : String) :
    ∃ lists, (Search.words store phrase).mapM (Search.byWord store (some field.name)) = .ok lists ∧
      ∀ id, id ∈ (Search.common lists).ids ↔
        (∃ word ∈ setup.analyzer.rawTerms phrase, (setup.analyzer.normalize word).isSome) ∧
        ∀ word ∈ setup.analyzer.rawTerms phrase, ∀ term, setup.analyzer.normalize word = some term →
          HasTerm setup view.docs field term id := by
  obtain ⟨saved, hfiles, -, -⟩ := h.files
  obtain ⟨lists, hlists, hmem⟩ := h.mem_common hfield hname hunique (Search.words store phrase)
  have hwords : ∀ word, word ∈ Search.words store phrase ↔
      word ∈ setup.analyzer.rawTerms phrase ∧ (setup.analyzer.normalize word).isSome := by
    intro word
    rw [Search.words, hfiles.analyzer_eq, List.mem_filter]
  have hsome : Search.words store phrase ≠ [] ↔
      ∃ word ∈ setup.analyzer.rawTerms phrase, (setup.analyzer.normalize word).isSome := by
    simp only [← hwords]
    exact ⟨List.exists_mem_of_ne_nil _, fun ⟨word, hword⟩ => List.ne_nil_of_mem hword⟩
  refine ⟨lists, hlists, fun id => ?_⟩
  rw [hmem, hsome]
  simp only [hwords, hinv.mem_iff field hfield hstored]
  refine and_congr_right fun _ => ⟨fun hall word hword term hterm => ?_, fun hall word hword => ?_⟩
  · obtain ⟨other, hother, hid⟩ := hall word ⟨hword, by rw [hterm]; rfl⟩
    rw [hterm] at hother
    obtain rfl := Option.some.inj hother
    exact hid
  · obtain ⟨term, hterm⟩ := Option.isSome_iff_exists.1 hword.2
    exact ⟨term, hterm, hall word hword.1 term hterm⟩

/-- **A phrase in a session.** A phrase that is looked for in a field that is indexed and stored,
without unique values, finds the stored documents whose value has it.

**Proof sketch.** The words narrow the documents down to those that have all terms, and these are
read. What is stored in them decides which ones get a hit, and it has the terms of all words if it
is stored at all. -/
theorem Runs.mem_phrase (h : store.Runs setup mode view) (hinv : view.Inverted setup)
    (hfield : field ∈ setup.schema.indexedFields) (hname : field.name ≠ anyField)
    (hstored : field.flags.stored = true) (hunique : field.flags.unique = false)
    (phrase : String) :
    ∃ hits, Search.phrase store field.name phrase .empty = .ok hits ∧ hits.Sound ∧
      (∀ hit ∈ hits.hits, hit.IsOf field.name phrase) ∧
      ∀ id, id ∈ hits.ids ↔ ∃ document, view.docs.get? (.text id.text) = some document ∧
        ∃ value, document.fields.get? field.name = some value ∧
          setup.analyzer.HasPhrase phrase value.asText := by
  obtain ⟨lists, hlists, hcommon⟩ :=
    h.mem_common_words hinv hfield hname hstored hunique phrase
  obtain ⟨documents, hdocuments⟩ :=
    h.exists_documents hinv.readable (Search.common lists).ids
  have hfieldOf : Search.fieldOf field.name = some field.name := if_neg hname
  have hsound := Search.isOf_foldl_notePhrase field.name phrase ResultSet.sound_empty
    (fun id hid => absurd hid List.not_mem_nil) documents
  have hnotes := Search.notes_phrase ResultSet.sound_empty [field.name] phrase documents
  refine ⟨documents.foldl (Search.notePhrase [field.name] phrase) .empty, ?_, hsound.1,
    fun hit hhit => ?_, fun id => ?_⟩
  · unfold Search.phrase
    rw [hfieldOf, hlists]
    simp only [bind, Except.bind, hdocuments]
    rfl
  · rw [← hsound.1.hitOf_of_mem hhit]
    exact hsound.2 hit.id (List.mem_map_of_mem hhit)
  -- what is read under an id are the fields that are stored there
  have hdocument : ∀ document : Document, document ∈ documents ↔
      document.id ∈ (Search.common lists).ids ∧ (view.docs.get? (.text document.id.text)).map
        StoredDocument.fields = some document.fields := by
    intro document
    rw [Store.mem_documents hdocuments, h.fetch hinv.readable,
      View.fetched_of_storable hinv.storable]
    simp only [Except.ok.injEq]
  rw [hnotes.mem_ids_iff ResultSet.sound_empty]
  constructor
  · rintro (⟨document, hmem, hsome, rfl⟩ | hnone)
    · obtain ⟨hid, hfetch⟩ := (hdocument document).1 hmem
      obtain ⟨value, hvalue, hphrase⟩ := Search.filter_fieldHolds_ne_nil_iff.1 hsome
      obtain ⟨stored, hget, hfields⟩ := Option.map_eq_some_iff.1 hfetch
      obtain ⟨hexists, hall⟩ := (hcommon document.id).1 hid
      rw [← hfields] at hvalue
      refine ⟨stored, hget, value, hvalue, hphrase, hexists, fun word hword term hterm => ?_⟩
      exact (hasTerm_iff_of_not_unique hget hvalue hunique term).1 (hall word hword term hterm)
    · cases hnone
  · rintro ⟨stored, hget, value, hvalue, hphrase, hexists, hall⟩
    refine .inl ⟨⟨id, stored.fields⟩, (hdocument _).2 ⟨(hcommon id).2 ⟨hexists, ?_⟩, ?_⟩,
      Search.filter_fieldHolds_ne_nil_iff.2 ⟨value, hvalue, hphrase⟩, rfl⟩
    · exact fun word hword term hterm =>
        (hasTerm_iff_of_not_unique hget hvalue hunique term).2 (hall word hword term hterm)
    · rw [hget]
      rfl

end Store

/-! ## Phrases of an engine -/

namespace Engine

variable {engine : Engine}

/-- **A phrase finds the documents that hold it and have the terms of its words.** An engine starts
with an empty directory and performs some tasks. A search for a phrase alone, in a field that is
indexed and stored and has no unique values, succeeds. It has a hit of each stored document whose
value holds the phrase letter by letter and has the terms of all words of the phrase that can be
looked up, if there are such words, and no other hits. Each of them has matched the phrase in the
field and nothing else, and is flagged. In particular a document whose value holds a phrase and has
all its words is found iff some word of the phrase can be looked up.

**Proof sketch.** A search is a session over files that invert the stored documents. The index has
the ids under the terms of the words, and the documents that are stored under them are searched for
the phrase. A word that a text has in common with a phrase becomes the same term in both of them, as
filters look at words one by one. -/
theorem phrase_of_tasks (setup : Store.Setup) (scoring : Scoring)
    (hstart : (start (setup.store ∅) scoring).1 = .ok engine) {tasks : List Task}
    (hnumbers : ∀ task ∈ tasks, task.NumbersReadBack) {field : Field}
    (hfield : field ∈ setup.schema.fields) (hname : field.name ≠ anyField)
    (hindexed : field.flags.indexed = true) (hstored : field.flags.stored = true)
    (hunique : field.flags.unique = false) (phrase : String) (boost : Option Single)
    (flagged : String) :
    let engine₀ := perform setup engine tasks
    let analyzer := setup.analyzer
    ∃ hits, Gives (searchQuery (.leaf .phrase field.name phrase boost) flagged) engine₀ hits ∧
      (hits.map Hit.id).Nodup ∧
      (∀ hit ∈ hits, hit.fulltext = true ∧ hit.terms.keys = [phrase] ∧
        hit.fields.keys = [field.name]) ∧
      (∀ id, id ∈ hits.map Hit.id ↔ ∃ fields value, Gives (load id) engine₀ (some fields) ∧
        fields.get? field.name = some value ∧ analyzer.HasPhrase phrase value.asText) ∧
      ∀ id fields value, Gives (load id) engine₀ (some fields) →
        fields.get? field.name = some value → phrase.toList <:+: value.asText.toList →
        (∀ word ∈ analyzer.rawTerms phrase, word ∈ analyzer.rawTerms value.asText) →
        (id ∈ hits.map Hit.id ↔
          ∃ word ∈ analyzer.rawTerms phrase, (analyzer.normalize word).isSome) := by
  intro engine₀ analyzer
  have hinverts : engine₀.Inverts setup := inverts_perform hstart hnumbers
  obtain ⟨view, hview, hinv⟩ := hinverts.stands.store.stands
  have hstands : engine₀.Stands setup .made none (· = view) :=
    ⟨⟨hinverts.stands.store.closed, view, hview, rfl⟩, hinverts.stands.plain⟩
  obtain ⟨view, opened, ended, rfl, hsearches⟩ := hstands.exists_searches
  obtain ⟨set, hphrase, hsound, hisOf, hmem⟩ := hsearches.runs.mem_phrase hinv
    (Schema.mem_indexedFields.2 ⟨hfield, hindexed⟩) hname hstored hunique phrase
  have hload := fun id => Store.View.fetched_of_storable hinv.storable id ▸
    hstands.gives_load hinv.readable id
  have hids : ∀ id, id ∈ set.hits.map Hit.id ↔ ∃ fields value,
      Gives (load id) engine₀ (some fields) ∧ fields.get? field.name = some value ∧
        analyzer.HasPhrase phrase value.asText := by
    intro id
    refine (hmem id).trans ?_
    constructor
    · rintro ⟨document, hget, value, hvalue, hhas⟩
      refine ⟨document.fields, value, ?_, hvalue, hhas⟩
      have hgives := hload id
      rwa [hget] at hgives
    · rintro ⟨fields, value, hgives, hvalue, hhas⟩
      obtain ⟨document, hget, rfl⟩ := Option.map_eq_some_iff.1 (hgives.eq (hload id)).symm
      exact ⟨document, hget, value, hvalue, hhas⟩
  refine ⟨set.hits, hsearches.gives hphrase, hsound.nodup, fun hit hhit => ?_, hids, ?_⟩
  · have hof := hisOf hit hhit
    rw [hof.fields_eq, hof.terms_eq]
    exact ⟨hof.fulltext, rfl, rfl⟩
  · intro id fields value hgives hvalue hholds hwords
    rw [hids]
    constructor
    · rintro ⟨_, _, _, _, hhas⟩
      exact hhas.exists_word
    · intro hexists
      exact ⟨fields, value, hgives, hvalue, hholds, hexists, fun word hword term hterm =>
        Analyzer.mem_terms_of_normalize (hwords word hword) hterm⟩

/-- Songs have a title. -/
def songSetup : Store.Setup where
  schema := { name := "songs", fields := [⟨"title", { stored := true, indexed := true }⟩] }
  config := {}
  analyzer := .standard
  built := @Schema.Built.addField _ _ "title" { stored := true, indexed := true }
    (.start "songs" "standard") rfl

/-- Two songs with the same words are stored. -/
def songTasks : List Task :=
  [.use (.add (.ofList [("title", .text "Over the running river")])),
    .use (.add (.ofList [("title", .text "The river is running over")])), .use .flush]

/-- The documents of hits that are computed. -/
lemma ids_of_answer? {query : Query} {flagged : String} {hits : List Hit} {ids : List DocId}
    (hgives : Gives (searchQuery query flagged) engine hits)
    (h : (answer? (searchQuery query flagged) engine).map (List.map Hit.id) = some ids) :
    hits.map Hit.id = ids := by
  obtain ⟨found, hfound, hids⟩ := Option.map_eq_some_iff.1 h
  rw [hgives.eq (gives_of_answer? hfound)]
  exact hids

/-- The first one holds the phrase. -/
theorem phrase_of_tasks_songs : ∃ engine, (start (songSetup.store ∅) {}).1 = .ok engine ∧
    ∃ hits, Gives (searchQuery (.leaf .phrase "title" "the running" none) "")
        (perform songSetup engine songTasks) hits ∧
      hits.map Hit.id = [⟨"1"⟩] ∧ ∀ hit ∈ hits, hit.fulltext = true ∧
        hit.terms.keys = ["the running"] ∧ hit.fields.keys = ["title"] := by
  refine ⟨_, rfl, ?_⟩
  obtain ⟨hits, hgives, -, hall, -, -⟩ := @phrase_of_tasks _ songSetup {} rfl songTasks
    (by decide +kernel) ⟨"title", { stored := true, indexed := true }⟩ (by decide) (by decide) rfl
    rfl rfl "the running" none ""
  exact ⟨hits, hgives, ids_of_answer? hgives (by decide +kernel), hall⟩

end Engine

end Concordance
