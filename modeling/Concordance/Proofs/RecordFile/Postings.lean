import Concordance.Proofs.PostingLists
import Concordance.Proofs.RecordFile.Change
import Concordance.Proofs.RecordFile.StateMarks

set_option relaxedAutoImplicit false
set_option autoImplicit false

/-!
# Files of postings

The file of a field's postings stands for a function from terms to lists of ids. A term without ids
has no posting, and the state of a posting follows from its term.

## Main definitions

* `Concordance.RecordFile.Lists` — a file of postings stands for lists of ids.
* `Concordance.Posting.Proper` — a posting lists some ids, and none of them twice.

## Main results

* `Concordance.RecordFile.Lists.addId` — storing an id under a term adds it to the term's list.
* `Concordance.RecordFile.Lists.store`, `forget` — a list is replaced, or emptied.
* `Concordance.RecordFile.Lists.scanStates` — the postings found by their states.
-/

namespace Concordance

open Record

/-- The posting of a term with a list of ids and a state, unless there are no ids. -/
def Posting.of? (term : String) (list : PostingList) (state : Option Nat) : Option Posting :=
  if list = .empty then none else some (.of term list state)

/-- A list with ids makes a posting. -/
lemma Posting.of?_of_ne {term : String} {list : PostingList} {state : Option Nat}
    (h : list ≠ .empty) : Posting.of? term list state = some (.of term list state) := if_neg h

/-- An empty list makes no posting. -/
lemma Posting.of?_empty {term : String} {state : Option Nat} :
    Posting.of? term .empty state = none := if_pos rfl

/-- The list of a posting is the one it was made of. -/
lemma Posting.list_of {term : String} {list : PostingList} {state : Option Nat}
    (h : list.IsPlain) : (Posting.of term list state).list = list :=
  PostingList.decode_encode h

/-- Uniting a single id with a posting adds it to the list. -/
lemma Posting.unite_of {term : String} {list : PostingList} {state : Option Nat} {id : DocId}
    (hlist : list.IsPlain) (hid : id.IsPlain) :
    Record.unite (Posting.of term (.ofList [id]) state) (Posting.of term list state) =
      Posting.of term (list.add id) state := by
  have hsingle : (PostingList.ofList [id]).IsPlain := PostingList.isPlain_empty.add hid
  have hids : (PostingList.ofList [id]).ids = [id] := rfl
  change Posting.mk term ((Posting.of term list state).list.union
    (Posting.of term (.ofList [id]) state).list).encode (state <|> state) = _
  rw [Posting.list_of hlist, Posting.list_of hsingle, PostingList.union, hids]
  cases state <;> rfl

/-- A posting lists some ids, and none of them twice. -/
def Posting.Proper (posting : Posting) : Prop :=
  posting.list ≠ .empty ∧ (PostingList.split posting.ids.toList).Nodup

/-- A posting made of a list with ids lists these, none of them twice. -/
lemma Posting.proper_of {term : String} {list : PostingList} {state : Option Nat}
    (hplain : list.IsPlain) (hne : list ≠ .empty) : (Posting.of term list state).Proper := by
  refine ⟨by rwa [Posting.list_of hplain], ?_⟩
  change (PostingList.split list.encode.toList).Nodup
  rw [PostingList.split_encode hplain hne]
  refine List.pairwise_map.2 (hplain.nodup.imp fun {a b} hne heq => hne ?_)
  obtain ⟨text⟩ := a
  obtain ⟨text'⟩ := b
  exact congrArg DocId.mk (String.toList_inj.1 heq)

namespace RecordFile

open Operation

/-- A file of postings stands for a list of ids under each term, where the states of the terms are
given. -/
structure Lists (file : RecordFile Posting) (name : String) (minWidth : Nat) (opened : Option Mode)
    (state : String → Option Nat) (lists : String → PostingList) : Prop where
  plain : ∀ term, (lists term).IsPlain
  holds : file.HoldsSome name minWidth opened fun table =>
    ∀ term, table.get? (.text term) = Posting.of? term (lists term) (state term)

variable {file : RecordFile Posting} {name : String} {minWidth : Nat} {opened : Option Mode}
  {mode : Mode} {state : String → Option Nat} {lists : String → PostingList}

/-- A file without records stands for no ids. -/
lemma Holds.lists_empty (h : file.Holds name minWidth opened ∅) (state : String → Option Nat) :
    file.Lists name minWidth opened state fun _ => .empty :=
  ⟨fun _ => PostingList.isPlain_empty, ∅, h, fun _ => rfl⟩

/-- The postings of a table are those of its terms. -/
lemma mem_records_iff {table : Table Posting}
    (htable : ∀ term, table.get? (.text term) = Posting.of? term (lists term) (state term))
    {posting : Posting} : posting ∈ table.records ↔
      lists posting.key ≠ .empty ∧
        posting = .of posting.key (lists posting.key) (state posting.key) := by
  have hget : posting ∈ table.records ↔ table.get? (.text posting.key) = some posting := by
    rw [Table.get?_eq_some_iff]
    exact ⟨fun h => ⟨h, rfl⟩, fun h => h.1⟩
  rw [hget, htable]
  by_cases hempty : lists posting.key = .empty
  · simp [hempty, Posting.of?_empty]
  · rw [Posting.of?_of_ne hempty, Option.some.injEq, eq_comm]
    exact ⟨fun h => ⟨hempty, h⟩, fun h => h.2⟩

/-- The states of the postings of a table are small enough to be read back. -/
lemma storable_of_mem {table : Table Posting}
    (htable : ∀ term, table.get? (.text term) = Posting.of? term (lists term) (state term))
    (hstate : ∀ term n, state term = some n → n < 2 ^ 64) :
    ∀ posting ∈ table.records, posting.Storable := by
  intro posting hposting n hn
  obtain ⟨-, heq⟩ := (mem_records_iff htable).1 hposting
  rw [heq] at hn
  exact hstate posting.key n hn

namespace Lists

/-- The posting of a term is looked up. -/
theorem get? (h : file.Lists name minWidth (some mode) state lists)
    (hstate : ∀ term n, state term = some n → n < 2 ^ 64) (term : String) :
    file.get? (.text term) = .ok (Posting.of? term (lists term) (state term)) := by
  obtain ⟨table, hholds, htable⟩ := h.holds
  rw [hholds.get?, htable]
  by_cases hempty : lists term = .empty
  · rw [hempty, Posting.of?_empty]
    rfl
  · have hread : ReadsBack (Posting.of term (lists term) (state term)) :=
      Posting.readsBack (hstate term)
    rw [Posting.of?_of_ne hempty, Option.mapM_some, decodeLine_line hread]
    rfl

/-- An upsert of a term's posting changes the list of the term.

**Proof sketch.** The table gets the posting of the changed list under the key of the term, and
keeps those of the other terms. -/
lemma upsert (h : file.Lists name minWidth (some .readWrite) state lists) {term : String}
    {list : PostingList} {record : Posting} {merge : Merge Posting} (hlist : list.IsPlain)
    (hne : list ≠ .empty) (hkey : record.key = term)
    (hmerged : ∀ table : Table Posting,
      table.get? (.text term) = Posting.of? term (lists term) (state term) →
        table.merged record merge = .ok (Posting.of term list (state term))) :
    ∃ file', RecordFile.upsert record merge file = .ok () file' ∧
      file'.Lists name minWidth (some .readWrite) state (Function.update lists term list) := by
  obtain ⟨table, hholds, htable⟩ := h.holds
  obtain ⟨file', hrun, hholds'⟩ := hholds.upsert (hmerged table (htable term))
    (show Key.text term = Key.text record.key by rw [hkey])
  refine ⟨file', hrun, fun other => ?_, _, hholds', fun other => ?_⟩
  · by_cases heq : other = term
    · rw [heq, Function.update_self]
      exact hlist
    · rw [Function.update_of_ne heq]
      exact h.plain other
  · rw [Table.get?_put]
    by_cases heq : other = term
    · subst heq
      have hkey' : Key.text other = key (Posting.of other list (state other)) := rfl
      rw [if_pos hkey', Function.update_self, Posting.of?_of_ne hne]
    · have hne' : Key.text other ≠ key (Posting.of term list (state term)) :=
        fun hkey' => heq (Key.text.inj hkey')
      rw [if_neg hne', Function.update_of_ne heq, htable]

/-- Uniting a single id with the posting of a term adds it to the term's list. -/
lemma merged_unite (h : file.Lists name minWidth opened state lists)
    (hstate : ∀ term n, state term = some n → n < 2 ^ 64) {term : String} {id : DocId}
    (hid : id.IsPlain) {table : Table Posting}
    (hget : table.get? (.text term) = Posting.of? term (lists term) (state term)) :
    table.merged (Posting.of term (.ofList [id]) (state term)) .unite =
      .ok (Posting.of term ((lists term).add id) (state term)) := by
  by_cases hempty : lists term = .empty
  · rw [hempty, Posting.of?_empty] at hget
    rw [Table.merged_of_none hget, hempty]
    rfl
  · rw [Posting.of?_of_ne hempty] at hget
    have hread : ReadsBack (Posting.of term (lists term) (state term)) :=
      Posting.readsBack (hstate term)
    refine Eq.trans (Table.merged_of_readsBack hget hread) ?_
    exact congrArg Except.ok (Posting.unite_of (h.plain term) hid)

/-- Storing an id under a term adds it to the term's list. -/
theorem addId (h : file.Lists name minWidth (some .readWrite) state lists)
    (hstate : ∀ term n, state term = some n → n < 2 ^ 64) (term : String) {id : DocId}
    (hid : id.IsPlain) :
    ∃ file', RecordFile.upsert (Posting.of term (.ofList [id]) (state term)) .unite file =
        .ok () file' ∧
      file'.Lists name minWidth (some .readWrite) state
        (Function.update lists term ((lists term).add id)) :=
  h.upsert ((h.plain term).add hid) (PostingList.add_ne_empty _ _) rfl fun _ hget =>
    h.merged_unite hstate hid hget

/-- Storing an id under a term whose list has it changes nothing. -/
theorem addId_same (h : file.Lists name minWidth (some .readWrite) state lists)
    (hstate : ∀ term n, state term = some n → n < 2 ^ 64) {term : String} {id : DocId}
    (hmem : id ∈ (lists term).ids) :
    RecordFile.upsert (Posting.of term (.ofList [id]) (state term)) .unite file = .ok () file := by
  obtain ⟨table, hholds, htable⟩ := h.holds
  have hmerged := h.merged_unite hstate ((h.plain term).ids id hmem) (htable term)
  rw [PostingList.add_of_mem hmem] at hmerged
  refine hholds.upsert_same ?_ hmerged
  have hne : lists term ≠ .empty := fun hempty => PostingList.eq_empty_iff.1 hempty id hmem
  exact (htable term).trans (Posting.of?_of_ne hne)

/-- A list that is not empty takes the place of the one before. -/
theorem store (h : file.Lists name minWidth (some .readWrite) state lists)
    (hstate : ∀ term n, state term = some n → n < 2 ^ 64) (term : String) {list : PostingList}
    (hlist : list.IsPlain) (hne : list ≠ .empty) :
    ∃ file', RecordFile.upsert (Posting.of term list (state term)) .replace file = .ok () file' ∧
      file'.Lists name minWidth (some .readWrite) state (Function.update lists term list) := by
  refine h.upsert hlist hne rfl fun table hget => Table.merged_replace fun existing hexisting => ?_
  have hsame := hget.symm.trans hexisting
  by_cases hempty : lists term = .empty
  · rw [hempty, Posting.of?_empty] at hsame
    cases hsame
  · rw [Posting.of?_of_ne hempty] at hsame
    obtain rfl := Option.some.inj hsame
    exact ⟨_, decodeLine_line (Posting.readsBack (hstate term))⟩

/-- Deleting the posting of a term empties its list.

**Proof sketch.** Erasing the key of a term takes away its posting, and no other term has this key.
-/
theorem forget (h : file.Lists name minWidth (some .readWrite) state lists) (term : String) :
    ∃ present file', RecordFile.delete (.text term) file = .ok present file' ∧
      file'.Lists name minWidth (some .readWrite) state (Function.update lists term .empty) := by
  obtain ⟨table, hholds, htable⟩ := h.holds
  obtain ⟨file', hrun, hholds'⟩ := hholds.delete (.text term)
  refine ⟨_, file', hrun, fun other => ?_, _, hholds', fun other => ?_⟩
  · by_cases heq : other = term
    · rw [heq, Function.update_self]
      exact PostingList.isPlain_empty
    · rw [Function.update_of_ne heq]
      exact h.plain other
  · rw [Table.get?_erase]
    by_cases heq : other = term
    · subst heq
      rw [if_pos rfl, Function.update_self, Posting.of?_empty]
    · rw [if_neg fun hkey => heq (Key.text.inj hkey), Function.update_of_ne heq, htable]

/-- All postings of the file are listed, each under a term of its own. -/
theorem listed (h : file.Lists name minWidth opened state lists)
    (hstate : ∀ term n, state term = some n → n < 2 ^ 64) :
    ∃ postings, file.listed = .ok postings ∧ postings.Pairwise (fun a b => a.key ≠ b.key) ∧
      ∀ posting, posting ∈ postings ↔ lists posting.key ≠ .empty ∧
        posting = .of posting.key (lists posting.key) (state posting.key) := by
  obtain ⟨table, hholds, htable⟩ := h.holds
  refine ⟨table.records, hholds.listed fun posting hposting => ?_, ?_,
    fun posting => mem_records_iff htable⟩
  · exact Posting.readsBack (storable_of_mem htable hstate posting hposting)
  · exact table.pairwise_key_ne.imp fun hne hkey => hne (congrArg Key.text hkey)

/-- What a file lists is determined by the lists that it stands for. -/
theorem listed_eq {file' : RecordFile Posting} {opened' : Option Mode}
    (h : file.Lists name minWidth opened state lists)
    (h' : file'.Lists name minWidth opened' state lists)
    (hstate : ∀ term n, state term = some n → n < 2 ^ 64) : file'.listed = file.listed := by
  refine h.holds.listed_eq h'.holds (fun table table' htable htable' => ?_)
    fun table htable posting hposting =>
      Posting.readsBack (storable_of_mem htable hstate posting hposting)
  exact Table.ext_mem fun posting => (mem_records_iff htable).trans (mem_records_iff htable').symm

/-- The postings found by their states, by their terms.

**Proof sketch.** The records that are found by their marks are the postings that carry one of the
states, and what a posting carries is the state of its term. -/
theorem scanStates (h : file.Lists name minWidth opened state lists)
    (hstate : ∀ term n, state term = some n → n < 2 ^ 64) (hsome : file.contents.isSome)
    (states : List Nat) :
    ∃ found, file.scanStates states = .ok found ∧ ∀ posting, posting ∈ found ↔
      (lists posting.key ≠ .empty ∧
        posting = .of posting.key (lists posting.key) (state posting.key)) ∧
          ∃ n ∈ states, state posting.key = some n := by
  obtain ⟨table, hholds, htable⟩ := h.holds
  refine ⟨_, hholds.scanStates hsome (storable_of_mem htable hstate) states, fun posting => ?_⟩
  rw [List.mem_filter, mem_records_iff htable]
  refine and_congr_right fun hposting => ?_
  have hposting : posting.state = state posting.key := by rw [hposting.2]; rfl
  rw [hposting]
  cases hst : state posting.key with
  | none => simp
  | some n => simp

end Lists

end RecordFile

end Concordance
