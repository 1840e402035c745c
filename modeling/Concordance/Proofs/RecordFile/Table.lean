import Concordance.Proofs.ByteOrder
import Concordance.Proofs.Record.Lines
import Mathlib.Data.Set.Card

set_option relaxedAutoImplicit false
set_option autoImplicit false

/-!
# Tables of records

What a record file means: finitely many records, at most one for each key, in the order of the
patterns of their keys. Patterns being a prefix code, this is the order of the lines as well.

## Main definitions

* `Concordance.Record.code`, `body` — the pattern of a record's key, and what stands behind it.
* `Concordance.Table` — records in the order of their codes.
* `Concordance.Table.get?`, `put`, `erase` — look-up and change of one key.

## Main results

* `Concordance.Record.compare_line_append` — lines are ordered by the patterns of their keys.
* `Concordance.Table.records_put`, `records_erase` — what a change does to the records.
* `Concordance.Table.get?_put`, `get?_erase` — what a change does to a look-up.
* `Concordance.Table.ext_get?` — a table is determined by its look-ups.
* `Concordance.Table.size_eq_ncard` — a table has as many records as keys.
-/

namespace Concordance

namespace Record

variable {R : Type} [Record R]

/-- The pattern of a record's key. -/
def code (record : R) : Bytes := pattern R (key record)

/-- What stands behind the pattern of a record's key on its line. -/
def body (record : R) : Bytes := (line record).drop (code record).length

/-- A line is its code and the rest of the record. -/
lemma code_append_body [Lawful R] (record : R) : code record ++ body record = line record :=
  List.prefix_iff_eq_append.1 (Lawful.pattern_isPrefix record)

/-- Records with different keys have codes neither of which is a beginning of the other. -/
lemma code_not_isPrefix {a b : R} (h : key a ≠ key b) : ¬ code a <+: code b :=
  fun hprefix => h (eq_of_pattern_isPrefix hprefix)

/-- Lines with different keys are ordered like the patterns of the keys. -/
lemma compare_line_append_of_ne [Lawful R] {a b : R} (h : key a ≠ key b) (x y : Bytes) :
    compare (line a ++ x) (line b ++ y) = compare (code a) (code b) := by
  rw [← code_append_body a, ← code_append_body b, List.append_assoc, List.append_assoc]
  exact Bytes.compare_append_append (code_not_isPrefix h) (code_not_isPrefix h.symm) _ _

/-- **The order of lines.** Whatever follows two lines, they are ordered by the patterns of their
keys, and by what stands behind these only if both have the same key. -/
theorem compare_line_append [Lawful R] (a b : R) (x y : Bytes) :
    compare (line a ++ x) (line b ++ y) =
      (compare (code a) (code b)).then (compare (body a ++ x) (body b ++ y)) := by
  by_cases hkey : key a = key b
  · have hcode : code a = code b := by rw [code, hkey, code]
    have hsame : compare (code b) (code b) = .eq := Std.ReflCmp.compare_self
    rw [← code_append_body a, ← code_append_body b, List.append_assoc, List.append_assoc, hcode,
      Bytes.compare_append_same, hsame]
    rfl
  · rw [compare_line_append_of_ne hkey]
    cases hcompare : compare (code a) (code b) with
    | lt => rfl
    | gt => rfl
    | eq => exact absurd (pattern_injective (Std.compare_eq_iff_eq.1 hcompare)) hkey

end Record

/-- Records in the strict order of their codes. -/
structure Table (R : Type) [Record R] where
  records : List R
  sorted : records.Pairwise fun a b => compare (Record.code a) (Record.code b) = .lt

namespace Table

open Record

variable {R : Type} [Record R]

/-! ## Codes and keys -/

/-- Records have the same code if they have the same key. -/
lemma code_eq_iff {a b : R} : code a = code b ↔ key a = key b :=
  ⟨fun h => pattern_injective h, fun h => by rw [code, h, code]⟩

/-- Records in order have different keys. -/
lemma key_ne_of_lt {a b : R} (h : compare (code a) (code b) = .lt) : key a ≠ key b := by
  intro hkey
  rw [code_eq_iff.2 hkey] at h
  simp [Std.ReflCmp.compare_self] at h

/-- Of two records with different keys, one comes behind the other if it does not come before it. -/
lemma gt_of_not_lt {a b : R} (h : compare (code a) (code b) ≠ .lt) (hne : key a ≠ key b) :
    compare (code b) (code a) = .lt := by
  cases hcompare : compare (code a) (code b) with
  | lt => exact absurd hcompare h
  | eq => exact absurd (code_eq_iff.1 (Std.compare_eq_iff_eq.1 hcompare)) hne
  | gt => exact Std.OrientedCmp.gt_iff_lt.1 hcompare

/-- The keys of a table are pairwise different. -/
lemma pairwise_key_ne (table : Table R) : table.records.Pairwise fun a b => key a ≠ key b :=
  table.sorted.imp key_ne_of_lt

/-- Records of a table with one key are one record. -/
lemma eq_of_key_eq (table : Table R) {a b : R} (ha : a ∈ table.records) (hb : b ∈ table.records)
    (h : key a = key b) : a = b := by
  have hnodup : (table.records.map key).Nodup := List.pairwise_map.2 table.pairwise_key_ne
  exact List.inj_on_of_nodup_map hnodup ha hb h

/-! ## Operations -/

/-- The record of a key. -/
def get? (table : Table R) (k : Key) : Option R := table.records.find? fun record => key record = k

/-- The table without records. -/
def empty : Table R := ⟨[], List.Pairwise.nil⟩

instance : EmptyCollection (Table R) := ⟨empty⟩

/-- The number of records. -/
def size (table : Table R) : Nat := table.records.length

/-- The records before a record. -/
def before (table : Table R) (record : R) : List R :=
  table.records.filter fun other => compare (code other) (code record) = .lt

/-- The records behind a record. -/
def behind (table : Table R) (record : R) : List R :=
  table.records.filter fun other => compare (code record) (code other) = .lt

/-- The table with a record, in the place of the one with its key. -/
def put (table : Table R) (record : R) : Table R where
  records := table.before record ++ record :: table.behind record
  sorted := by
    refine List.pairwise_append.2 ⟨table.sorted.filter _, List.pairwise_cons.2 ⟨?_,
      table.sorted.filter _⟩, ?_⟩
    · intro b hb
      simpa using List.of_mem_filter hb
    · intro a ha b hb
      have hlt : compare (code a) (code record) = .lt := by simpa using List.of_mem_filter ha
      rcases List.mem_cons.1 hb with rfl | hb
      · exact hlt
      · exact Std.TransCmp.lt_trans hlt (by simpa using List.of_mem_filter hb)

/-- The table without a key. -/
def erase (table : Table R) (k : Key) : Table R :=
  ⟨table.records.filter fun record => key record ≠ k, table.sorted.filter _⟩

/-! ## Look-up -/

/-- Look-up finds exactly the records of the table. -/
theorem get?_eq_some_iff {table : Table R} {k : Key} {record : R} :
    table.get? k = some record ↔ record ∈ table.records ∧ key record = k := by
  constructor
  · intro h
    exact ⟨List.mem_of_find?_eq_some h, by simpa using List.find?_some h⟩
  · rintro ⟨hmem, hkey⟩
    have hsome : (table.get? k).isSome := List.find?_isSome.2 ⟨record, hmem, by simpa using hkey⟩
    obtain ⟨other, hother⟩ := Option.isSome_iff_exists.1 hsome
    have hmem' := List.mem_of_find?_eq_some hother
    have hkey' : key other = k := by simpa using List.find?_some hother
    rw [hother, table.eq_of_key_eq hmem' hmem (hkey'.trans hkey.symm)]

/-- A key has no record if no record has that key. -/
lemma get?_eq_none_iff {table : Table R} {k : Key} :
    table.get? k = none ↔ ∀ record ∈ table.records, key record ≠ k := by
  simp [get?]

/-- A key whose pattern stands between the codes of a table has no record. -/
lemma get?_of_split {table : Table R} {k : Key} {pre post : List R}
    (split : table.records = pre ++ post)
    (before : ∀ record ∈ pre, compare (code record) (pattern R k) = .lt)
    (behind : ∀ record ∈ post, compare (pattern R k) (code record) = .lt) :
    table.get? k = none := by
  refine get?_eq_none_iff.2 fun record hrecord hkey => ?_
  have hcode : code record = pattern R k := by rw [code, hkey]
  rw [split, List.mem_append] at hrecord
  rcases hrecord with hrecord | hrecord
  · have hlt := before record hrecord
    rw [hcode] at hlt
    simp [Std.ReflCmp.compare_self] at hlt
  · have hlt := behind record hrecord
    rw [hcode] at hlt
    simp [Std.ReflCmp.compare_self] at hlt

/-- Erasing a key without a record changes nothing. -/
lemma erase_of_get?_eq_none {table : Table R} {k : Key} (h : table.get? k = none) :
    table.erase k = table := by
  obtain ⟨records, sorted⟩ := table
  have hall : records.filter (fun record => key record ≠ k) = records :=
    List.filter_eq_self.2 fun record hrecord => by
      simpa using get?_eq_none_iff.1 h record hrecord
  simp only [erase, hall]

/-- What is in a table after a record was put. -/
lemma mem_put {table : Table R} {record other : R} :
    other ∈ (table.put record).records ↔
      other = record ∨ other ∈ table.records ∧ key other ≠ key record := by
  simp only [put, before, behind, List.mem_append, List.mem_cons, List.mem_filter,
    decide_eq_true_eq]
  constructor
  · rintro (⟨hmem, hlt⟩ | rfl | ⟨hmem, hlt⟩)
    · exact .inr ⟨hmem, key_ne_of_lt hlt⟩
    · exact .inl rfl
    · exact .inr ⟨hmem, (key_ne_of_lt hlt).symm⟩
  · rintro (rfl | ⟨hmem, hne⟩)
    · exact .inr (.inl rfl)
    · by_cases hlt : compare (code other) (code record) = .lt
      · exact .inl ⟨hmem, hlt⟩
      · exact .inr (.inr ⟨hmem, gt_of_not_lt hlt hne⟩)

/-- The records after a key is erased are those with other keys. -/
lemma mem_erase {table : Table R} {k : Key} {record : R} :
    record ∈ (table.erase k).records ↔ record ∈ table.records ∧ key record ≠ k := by
  simp [erase]

/-- A record is put between the records before it and those behind it; what stands between them
has its key and goes.

**Proof sketch.** The records before the new one are those in front, and the records behind it are
those at the end, since in between codes equal that of the new one. -/
lemma records_put {table : Table R} {record : R} {pre same post : List R}
    (split : table.records = pre ++ same ++ post)
    (hbefore : ∀ other ∈ pre, compare (code other) (code record) = .lt)
    (hsame : ∀ other ∈ same, key other = key record)
    (hbehind : ∀ other ∈ post, compare (code record) (code other) = .lt) :
    (table.put record).records = pre ++ record :: post := by
  have hnot : ∀ other ∈ same, compare (code other) (code record) ≠ .lt ∧
      compare (code record) (code other) ≠ .lt := by
    intro other hother
    have hcode := code_eq_iff.2 (hsame other hother)
    rw [hcode]
    simp [Std.ReflCmp.compare_self]
  have hpre : ∀ other ∈ pre, compare (code record) (code other) ≠ .lt := by
    intro other hother hlt
    exact key_ne_of_lt (Std.TransCmp.lt_trans (hbefore other hother) hlt) rfl
  have hpost : ∀ other ∈ post, compare (code other) (code record) ≠ .lt := by
    intro other hother hlt
    exact key_ne_of_lt (Std.TransCmp.lt_trans hlt (hbehind other hother)) rfl
  have hbeforeRecords : table.before record = pre := by
    rw [before, split, List.filter_append, List.filter_append,
      List.filter_eq_self.2 fun other hother => by simpa using hbefore other hother,
      List.filter_eq_nil_iff.2 fun other hother => by simpa using (hnot other hother).1,
      List.filter_eq_nil_iff.2 fun other hother => by simpa using hpost other hother]
    simp
  have hbehindRecords : table.behind record = post := by
    rw [behind, split, List.filter_append, List.filter_append,
      List.filter_eq_nil_iff.2 fun other hother => by simpa using hpre other hother,
      List.filter_eq_nil_iff.2 fun other hother => by simpa using (hnot other hother).2,
      List.filter_eq_self.2 fun other hother => by simpa using hbehind other hother]
    simp
  change table.before record ++ record :: table.behind record = _
  rw [hbeforeRecords, hbehindRecords]

/-- The records around one of a table stand before and behind it. -/
lemma around {table : Table R} {record : R} {pre post : List R}
    (split : table.records = pre ++ record :: post) :
    (∀ other ∈ pre, compare (code other) (code record) = .lt) ∧
      ∀ other ∈ post, compare (code record) (code other) = .lt := by
  have hsorted := split ▸ table.sorted
  obtain ⟨-, hpost, hpre⟩ := List.pairwise_append.1 hsorted
  exact ⟨fun other hother => hpre other hother record List.mem_cons_self,
    (List.pairwise_cons.1 hpost).1⟩

/-- The records after a key is erased are those before and behind its record. -/
lemma records_erase {table : Table R} {record : R} {pre post : List R}
    (split : table.records = pre ++ record :: post) :
    (table.erase (key record)).records = pre ++ post := by
  obtain ⟨hpre, hpost⟩ := around split
  change table.records.filter (fun other => key other ≠ key record) = _
  rw [split, List.filter_append, List.filter_cons_of_neg (by simp),
    List.filter_eq_self.2 fun other hother => by simpa using key_ne_of_lt (hpre other hother),
    List.filter_eq_self.2 fun other hother => by
      simpa using (key_ne_of_lt (hpost other hother)).symm]

/-- What putting a record does to a look-up.

**Proof sketch.** A record is found if it is in the table and has the key. The new record is found
under its own key, where all others are gone; under other keys it is never found. -/
theorem get?_put (table : Table R) (record : R) (k : Key) :
    (table.put record).get? k = if k = key record then some record else table.get? k := by
  ext other
  rw [get?_eq_some_iff, mem_put]
  split
  · next h =>
    subst h
    rw [Option.some.injEq, eq_comm]
    constructor
    · rintro ⟨rfl | ⟨-, hne⟩, hkey⟩
      · rfl
      · exact absurd hkey hne
    · rintro rfl
      exact ⟨.inl rfl, rfl⟩
  · next h =>
    rw [get?_eq_some_iff]
    constructor
    · rintro ⟨rfl | ⟨hmem, -⟩, hkey⟩
      · exact absurd hkey.symm h
      · exact ⟨hmem, hkey⟩
    · rintro ⟨hmem, hkey⟩
      exact ⟨.inr ⟨hmem, fun heq => h (hkey.symm.trans heq)⟩, hkey⟩

/-- What erasing a key does to a look-up.

**Proof sketch.** By whether the key is the one that is erased: its record is gone, and records with
other keys are still there. -/
theorem get?_erase (table : Table R) (k k' : Key) :
    (table.erase k).get? k' = if k' = k then none else table.get? k' := by
  ext other
  rw [get?_eq_some_iff, mem_erase]
  split
  · next h =>
    subst h
    simp only [reduceCtorEq, iff_false, not_and]
    exact fun ⟨_, hne⟩ hkey => hne hkey
  · next h =>
    rw [get?_eq_some_iff]
    constructor
    · rintro ⟨⟨hmem, -⟩, hkey⟩
      exact ⟨hmem, hkey⟩
    · rintro ⟨hmem, hkey⟩
      exact ⟨⟨hmem, fun heq => h (hkey.symm.trans heq)⟩, hkey⟩

/-- A table is determined by its records. -/
theorem ext_mem {s t : Table R} (h : ∀ record, record ∈ s.records ↔ record ∈ t.records) :
    s = t := by
  have hrecords : s.records = t.records :=
    have : Std.Irrefl fun a b : R => compare (code a) (code b) = .lt :=
      ⟨fun a h => key_ne_of_lt h rfl⟩
    have : Std.Antisymm fun a b : R => compare (code a) (code b) = .lt :=
      ⟨fun a b hab hba => absurd (Std.TransCmp.lt_trans hab hba) fun h => key_ne_of_lt h rfl⟩
    s.sorted.eq_of_mem_iff t.sorted fun {record} => h record
  cases s
  cases t
  cases hrecords
  rfl

/-- A table is determined by its look-ups. -/
theorem ext_get? {s t : Table R} (h : ∀ k, s.get? k = t.get? k) : s = t := by
  refine ext_mem fun record => ?_
  have hs := @get?_eq_some_iff _ _ s (key record) record
  have ht := @get?_eq_some_iff _ _ t (key record) record
  rw [h] at hs
  simpa using hs.symm.trans ht

/-- Putting a record that is there already changes nothing. -/
lemma put_of_mem {table : Table R} {record : R} (h : record ∈ table.records) :
    table.put record = table := by
  refine ext_get? fun k => ?_
  rw [get?_put]
  split
  · next hkey => exact (get?_eq_some_iff.2 ⟨h, hkey.symm⟩).symm
  · rfl

/-- The keys of a table are those of its records. -/
lemma setOf_isSome_get? (table : Table R) :
    {k | (table.get? k).isSome} = ((table.records.map key).toFinset : Set Key) := by
  ext k
  simp [Option.isSome_iff_exists, get?_eq_some_iff]

/-- A table has finitely many keys. -/
lemma finite_keys (table : Table R) : {k | (table.get? k).isSome}.Finite := by
  rw [setOf_isSome_get?]
  exact Finset.finite_toSet _

/-- A table has as many records as keys. -/
theorem size_eq_ncard (table : Table R) :
    table.size = {k | (table.get? k).isSome}.ncard := by
  have hnodup : (table.records.map key).Nodup := List.pairwise_map.2 table.pairwise_key_ne
  rw [setOf_isSome_get?, Set.ncard_coe_finset, List.toFinset_card_of_nodup hnodup,
    List.length_map, size]

/-- The keys after a record is put are its key and those before. -/
lemma setOf_isSome_get?_put (table : Table R) (record : R) :
    {k | ((table.put record).get? k).isSome} =
      insert (key record) {k | (table.get? k).isSome} := by
  ext k
  rw [Set.mem_ofPred_eq, Set.mem_insert_iff, Set.mem_ofPred_eq, get?_put]
  by_cases hk : k = key record
  · simp [hk]
  · simp [hk]

/-- Putting a record adds no more than one. -/
lemma size_put_le (table : Table R) (record : R) : (table.put record).size ≤ table.size + 1 := by
  rw [size_eq_ncard, size_eq_ncard, setOf_isSome_get?_put]
  exact Set.ncard_insert_le _ _

/-- Putting a record under a new key adds one. -/
lemma size_put_of_new {table : Table R} {record : R} (h : table.get? (key record) = none) :
    (table.put record).size = table.size + 1 := by
  rw [size_eq_ncard, size_eq_ncard, setOf_isSome_get?_put]
  exact Set.ncard_insert_of_notMem (by simp [h]) table.finite_keys

end Table

end Concordance
