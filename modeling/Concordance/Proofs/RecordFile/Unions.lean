import Concordance.Proofs.RecordFile.Postings
import Concordance.Proofs.RecordFile.Refinement

set_option relaxedAutoImplicit false
set_option autoImplicit false

/-!
# Posting lists are ordered sets

However a list of ids has been built, no id is in it twice, and it is written as a text that is read
as the same list. So uniting the ids of two postings gives those of the existing one and behind them
the new ones of the incoming one, and doing it again changes nothing, neither the posting nor the
file that it stands in.

## Main definitions

* `Concordance.Posting.Unites` — what uniting two postings comes to.
* `Concordance.RecordFile.Unites` — what storing a posting by uniting it comes to.

## Main results

* `Concordance.RecordFile.Holds.upsert_twice` — when a second upsert changes nothing.
* `Concordance.PostingList.orderedSets_of_built` — lists, their written form, and postings.
-/

namespace Concordance

open Record

/-! ## Uniting postings -/

namespace Posting

/-- A posting has the key of an incoming one, the ids of an existing one and behind them the new
ones of the incoming one, and the state of the incoming one, if it has a state, or else that of the
existing one. Uniting the incoming one with it leaves it as it is. -/
structure Unites (incoming existing stored : Posting) : Prop where
  key : stored.key = incoming.key
  ids : stored.list.ids = existing.list.ids ++ incoming.list.ids.filter (· ∉ existing.list.ids)
  /-- The ids are written one by one. -/
  encoded : stored.ids = stored.list.encode
  state : stored.state = (incoming.state <|> existing.state)
  again : Merge.unite.apply incoming stored = stored

/-- The list of a posting can be written, since what separates ids is in none of them. -/
lemma isPlain_list (posting : Posting) : posting.list.IsPlain := PostingList.isPlain_decode _

/-- The union of two postings has the key of the incoming one. -/
lemma key_unite (incoming existing : Posting) : (unite incoming existing).key = incoming.key := by
  rw [unite]

/-- The list of a union of postings is the union of their lists, with the existing one first. -/
lemma list_unite (incoming existing : Posting) :
    (unite incoming existing).list = existing.list.union incoming.list :=
  PostingList.decode_encode (existing.isPlain_list.union incoming.isPlain_list)

/-- Uniting once more adds no ids and no state. -/
lemma unite_unite (incoming existing : Posting) :
    unite incoming (unite incoming existing) = unite incoming existing := by
  have hids : (existing.list.union incoming.list).union incoming.list =
      existing.list.union incoming.list :=
    PostingList.foldl_add_of_subset fun id hid => PostingList.mem_union.2 (.inr hid)
  have hstate : (incoming.state <|> (incoming.state <|> existing.state)) =
      (incoming.state <|> existing.state) := by
    cases incoming.state <;> rfl
  rw [unite, list_unite, hids]
  exact congrArg (Posting.mk _ _) hstate

/-- A united posting has no state that neither of the two has. -/
lemma storable_unite {incoming existing : Posting} (hincoming : incoming.Storable)
    (hexisting : existing.Storable) : (unite incoming existing).Storable :=
  @RecordKind.storable_unite .posting incoming existing hincoming hexisting

/-- The union of two postings has the key of the incoming one, the ids of both in their order, and
the state of either, and uniting once more changes nothing. -/
theorem unites_unite (incoming existing : Posting) :
    incoming.Unites existing (Merge.unite.apply incoming existing) where
  key := key_unite incoming existing
  ids := by
    change (unite incoming existing).list.ids = _
    rw [list_unite]
    exact PostingList.ids_foldl_add incoming.isPlain_list.nodup _
  encoded := by
    change (existing.list.union incoming.list).encode = (unite incoming existing).list.encode
    rw [list_unite]
  state := rfl
  again := unite_unite incoming existing

end Posting

/-! ## Uniting in a file -/

namespace RecordFile

open Operation

/-- Storing a posting over an existing one by uniting them: the look-up of its term gives what
uniting comes to, and storing the posting once more leaves the file as it is. -/
def Unites (file : RecordFile Posting) (incoming existing : Posting) : Prop :=
  ∃ stored file', incoming.Unites existing stored ∧
    RecordFile.upsert incoming .unite file = .ok () file' ∧
      file'.get? (.text incoming.key) = .ok (some stored) ∧
        RecordFile.upsert incoming .unite file' = .ok () file'

/-- A second upsert changes nothing if merging with the record that was stored gives this record. -/
theorem Holds.upsert_twice {R : Type} [Record R] [Lawful R] {file : RecordFile R} {name : String}
    {minWidth : Nat} {table : Table R} {record stored : R} {merge : Merge R}
    (h : file.Holds name minWidth (some .readWrite) table)
    (hmerged : table.merged record merge = .ok stored) (hkey : key stored = key record)
    (hread : ReadsBack stored) (hagain : merge.apply record stored = stored) :
    ∃ file', RecordFile.upsert record merge file = .ok () file' ∧
      file'.Holds name minWidth (some .readWrite) (table.put stored) ∧
        RecordFile.upsert record merge file' = .ok () file' := by
  obtain ⟨file', hrun, hholds⟩ := h.upsert hmerged hkey
  have hget : (table.put stored).get? (key record) = some stored := by
    rw [Table.get?_put, if_pos hkey.symm]
  refine ⟨file', hrun, hholds, hholds.upsert_same hget ?_⟩
  rw [Table.merged_of_readsBack hget hread, hagain]

/-- An open file unites postings with those that it holds.

**Proof sketch.** The union has the key of what comes in and is read back, so storing it puts it in
place of what was there; storing it once more finds it united already. -/
lemma Holds.unites {file : RecordFile Posting} {name : String} {minWidth : Nat}
    {table : Table Posting} (h : file.Holds name minWidth (some .readWrite) table)
    {incoming existing : Posting} (hincoming : incoming.Storable) (hexisting : existing.Storable)
    (hget : table.get? (.text incoming.key) = some existing) : Unites file incoming existing := by
  have hunites := Posting.unites_unite incoming existing
  have hkey : key (Merge.unite.apply incoming existing) = key incoming :=
    Lawful.key_unite incoming existing
  have hread : ReadsBack (Merge.unite.apply incoming existing) :=
    Posting.readsBack (Posting.storable_unite hincoming hexisting)
  obtain ⟨file', hrun, hholds, hagain⟩ := h.upsert_twice
    (Table.merged_of_readsBack hget (Posting.readsBack hexisting)) hkey hread hunites.again
  have hstored : (table.put (Merge.unite.apply incoming existing)).get? (.text incoming.key) =
      some (Merge.unite.apply incoming existing) := by
    rw [Table.get?_put]
    exact if_pos hkey.symm
  refine ⟨_, file', hunites, hrun, ?_, hagain⟩
  rw [hholds.get?, hstored, Option.mapM_some, decodeLine_line hread]
  rfl

/-- Whatever was done to a file of postings before, it unites postings when it is open.

**Proof sketch.** The file holds a table with the records that the steps have stored, and an open
file unites postings with those that it holds. -/
theorem unites_of_run {name : String} {minWidth : Nat} {contents : Option Bytes}
    (hempty : contents.getD [] = []) {steps : List (Step RecordKind.posting.Carrier)}
    (hsteps : ∀ step ∈ steps, step.Keeps)
    (hopen : (run name minWidth contents steps).1.isOpen = true) {incoming existing : Posting}
    (hincoming : incoming.Storable)
    (hget : (run name minWidth contents steps).1.get? (.text incoming.key) =
      .ok (some existing)) :
    Unites (run name minWidth contents steps).1 incoming existing := by
  have hkeeps : Throughout name minWidth contents steps Step.KeepsIn :=
    throughout_of_forall fun step hstep => (hsteps step hstep).keepsIn
  have hrun := @represents_run .posting name minWidth contents hempty steps hkeeps
  obtain ⟨table, hholds, htable, hstorable⟩ := hrun.exists_table hopen
  have hmap := (hrun.answers hopen).get? (.text incoming.key)
  rw [hget, Except.ok.injEq, ← htable] at hmap
  exact Holds.unites hholds hincoming
    (hstorable existing (Table.get?_eq_some_iff.1 hmap.symm).1) hmap.symm

end RecordFile

/-! ## Ordered sets -/

namespace PostingList

open RecordFile

/-- What is written of a list that was read is read and written the same. -/
lemma encode_decode_encode (text : String) :
    (decode (decode text).encode).encode = (decode text).encode := by
  rw [decode_encode (isPlain_decode text)]

/-- **Posting lists are ordered sets.** In lists that come from texts, from any ids, and from
changes of such lists, no id stands twice. The union of two of them is the first one followed by the
new ids of the second one, their intersection what is left of the first one, both in order. Ids of
which none is empty, holds the separator or stands twice are written as a text that is read as the
same list. Whatever text a list is read from, what is written of it does not change when it is read
and written again. So uniting postings puts the new ids of the incoming one behind those of the
existing one, and doing so once more changes nothing. This is also what happens in a file of
postings, whatever was done to it before.

**Proof sketch.** An id is added only if it is new. Ids that are read are neither empty nor do they
hold the separator, so both lists of a union are read back, and in a union all ids of the incoming
list are known. An upsert that comes to the record that is there leaves the file as it is. -/
theorem orderedSets_of_built :
    (∀ list, Built list → list.ids.Nodup) ∧
    (∀ list other, Built list → Built other →
      (list.union other).ids = list.ids ++ other.ids.filter (· ∉ list.ids) ∧
      (list.intersect other).ids = list.ids.filter (· ∈ other.ids)) ∧
    (∀ ids : List DocId, ids.Nodup → (∀ id ∈ ids, id.IsPlain) →
      decode (encode ⟨ids⟩) = ⟨ids⟩) ∧
    (∀ text, (decode (decode text).encode).encode = (decode text).encode) ∧
    (∀ incoming existing : Posting,
      incoming.Unites existing (Merge.unite.apply incoming existing)) ∧
    ∀ name minWidth contents, contents = none ∨ contents = some [] →
      ∀ steps : List (Step RecordKind.posting.Carrier), (∀ step ∈ steps, step.Keeps) →
        (run name minWidth contents steps).1.isOpen = true →
          ∀ incoming existing : Posting, incoming.Storable →
            (run name minWidth contents steps).1.get? (.text incoming.key) =
              .ok (some existing) →
            Unites (run name minWidth contents steps).1 incoming existing := by
  refine ⟨fun list => Built.nodup, fun list other _ hother => ⟨?_, ?_⟩,
    fun ids hnodup hplain => decode_encode ⟨hplain, hnodup⟩, encode_decode_encode,
    Posting.unites_unite, fun name minWidth contents hempty steps hsteps hopen incoming existing
      hincoming hget => ?_⟩
  · exact ids_foldl_add hother.nodup list
  · exact ids_intersect list other
  · have hbytes : contents.getD [] = [] := by
      rcases hempty with rfl | rfl <;> rfl
    exact unites_of_run hbytes hsteps hopen hincoming hget

/-- A posting with two ids is stored. -/
def catSteps : List (Step RecordKind.posting.Carrier) :=
  [.openIt, .upsert (Posting.of "cat" (.ofList [⟨"3"⟩, ⟨"1"⟩]) (some 7)) .replace]

/-- The file after this. -/
def catFile : RecordFile Posting := (run "pets_kind_index.json" 12 none catSteps).1

/-- A posting comes in with an id that is there and one that is new, and a list is changed in other
ways. -/
theorem orderedSets_of_built_cat :
    ((decode "5,1,,5").union ((decode "1,7").add ⟨"5"⟩)).ids = [⟨"5"⟩, ⟨"1"⟩, ⟨"7"⟩] ∧
    (((decode "5,1").add ⟨"a,b"⟩).remove ⟨"5"⟩).ids.Nodup ∧
    decode (encode ⟨[⟨"5"⟩, ⟨"1"⟩, ⟨"7"⟩]⟩) = ⟨[⟨"5"⟩, ⟨"1"⟩, ⟨"7"⟩]⟩ ∧
    Unites catFile (Posting.of "cat" (.ofList [⟨"1"⟩, ⟨"9"⟩]) none) ⟨"cat", "3,1", some 7⟩ := by
  obtain ⟨hnodup, hunion, hcodec, -, -, hstored⟩ := orderedSets_of_built
  have hnew : ((decode "5,1,,5").union ((decode "1,7").add ⟨"5"⟩)).ids =
      [⟨"5"⟩, ⟨"1"⟩, ⟨"7"⟩] := by
    rw [(hunion _ _ (.decode _) ((Built.decode _).add _)).1]
    decide +kernel
  have hplain : ∀ id ∈ [(⟨"5"⟩ : DocId), ⟨"1"⟩, ⟨"7"⟩], id.IsPlain := by
    unfold DocId.IsPlain
    decide +kernel
  have hexisting : catFile.get? (.text "cat") = .ok (some ⟨"cat", "3,1", some 7⟩) := by
    decide +kernel
  refine ⟨hnew, hnodup _ (((Built.decode _).add _).remove _), hcodec _ (by decide) hplain,
    hstored _ _ _ (.inl rfl) catSteps ?_ (by decide +kernel) _ _ ?_ hexisting⟩
  · intro step hstep
    simp only [catSteps, List.mem_cons, List.not_mem_nil, or_false] at hstep
    rcases hstep with rfl | rfl
    · trivial
    · refine ⟨fun n hn => ?_, trivial⟩
      obtain rfl : 7 = n := Option.some.inj hn
      decide
  · exact fun n hn => by cases hn

end PostingList

end Concordance
