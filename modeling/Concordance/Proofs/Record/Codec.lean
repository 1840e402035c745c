import Concordance.Proofs.Json.Doubles
import Concordance.Proofs.OrderedMaps
import Concordance.Proofs.Record.Lines

set_option relaxedAutoImplicit false
set_option autoImplicit false

/-!
# Records are read back

The codec returns every posting and every typo state unchanged as long as states have 64 bits. It
returns a document unchanged if no field takes the name of the id and the numbers of the document
come back unchanged. If they are only finite they may come back as other ones, but the document
comes back.

## Main definitions

* `Concordance.StoredDocument.Storable`, `Posting.Storable`, `TypoState.Storable` — the records of
  each kind that are returned unchanged.
* `Concordance.StoredDocument.Readable` — the documents that are returned, unchanged or not.

## Main results

* `Concordance.StoredDocument.readsBack`, `Posting.readsBack`, `TypoState.readsBack` — records that
  are returned unchanged.
* `Concordance.StoredDocument.Readable.exists_decode?_line` — documents that are returned.
-/

namespace Concordance

namespace Json

/-- A text that is read in front of other members is read on its own. -/
lemma read_of_readsAs {value result : Json} (h : ReadsAs value result) (name : List Char) :
    MemberReadsAs (some name, value) (some name, result) :=
  ⟨⟨name, rfl, rfl⟩, h⟩

/-- Natural numbers are read back among members. -/
lemma readsAs_ofNat (n : Nat) : ReadsAs (.number (Numeral.ofNat n)) (.number (Numeral.ofNat n)) :=
  readsAs_number (Numeral.read_render (Numeral.isProper_ofNat n))

/-- Natural numbers below `2 ^ 64` are read as such. -/
lemma nat?_ofNat {n : Nat} (h : n < 2 ^ 64) : (Json.number (Numeral.ofNat n)).nat? = some n :=
  Numeral.toNat?_ofNat h

/-- The value of a name that stands in front of all members is among its values. -/
lemma exists_valuesOf {name : List Char} {value : Json} {more : List (Option (List Char) × Json)}
    {members : List (List Char × Json)}
    (h : (Json.object ((some name, value) :: more)).members? = some members) :
    ∃ values, valuesOf name members = value :: values := by
  simp only [members?, List.mapM_cons, Option.map_some, Option.bind_eq_bind, Option.bind_some,
    Option.bind_eq_some_iff, Option.pure_def, Option.some.injEq] at h
  obtain ⟨rest, -, rfl⟩ := h
  exact ⟨_, by simp [valuesOf]; rfl⟩

end Json

namespace Record

variable {R : Type} [Record R] [Lawful R]

/-- A line is read as what its text is read as. -/
lemma decode?_line_eq (record : R) :
    decode? (line record) = (Json.read (toJson record).render).bind (ofJson? (R := R)) := by
  unfold decode?
  rw [trimEnd_line, line, Bytes.toText?_ofText]
  rfl

/-- A line is decoded by reading the written form of its record. -/
lemma decode?_line {record : R} {json : Json}
    (h : Json.read (toJson record).render = some json) :
    decode? (line record) = ofJson? (R := R) json := by
  rw [decode?_line_eq, h]
  rfl

/-- If a line is read at all, the first member of its object is read as it would be on its own. -/
lemma exists_of_decode? {record found : R} {name : List Char} {value result : Json}
    {rest : List (Option (List Char) × Json)}
    (htoJson : toJson record = .object ((some name, value) :: rest))
    (hvalue : Json.ReadsAs value result) (h : decode? (line record) = some found) :
    ∃ more, ofJson? (.object ((some name, result) :: more)) = some found := by
  rw [decode?_line_eq, htoJson] at h
  obtain ⟨json, hread, hfound⟩ := Option.bind_eq_some_iff.1 h
  obtain ⟨more, rfl⟩ := Json.exists_of_read_object (Json.read_of_readsAs hvalue name) hread
  exact ⟨more, hfound⟩

end Record

/-! ## Typo states -/

/-- A typo state has 64 bits. -/
def TypoState.Storable (record : TypoState) : Prop := record.state < 2 ^ 64

/-- A typo state of 64 bits is read back from its line. -/
theorem TypoState.readsBack {record : TypoState} (h : record.Storable) :
    Record.ReadsBack record := by
  have hread : Json.read (Record.toJson record).render =
      some (.object [(some ['s'], .number (Numeral.ofNat record.state))]) :=
    Json.read_object (.cons (Json.read_of_readsAs (Json.readsAs_ofNat _) _) .nil) (by simp)
  unfold Record.ReadsBack
  rw [Record.decode?_line hread]
  change TypoState.ofJson? _ = _
  simp [TypoState.ofJson?, Json.members?, Json.valuesOf, Json.nat?_ofNat h]

/-- A typo state that is read is the one that was written.

**Proof sketch.** The line is read as an object with the written state first, and the state that is
read is the one found there. -/
lemma TypoState.state_of_decode? {record found : TypoState}
    (h : Record.decode? (Record.line record) = some found) : found.state = record.state := by
  obtain ⟨more, hfound⟩ := Record.exists_of_decode? (Record.toJson_state record)
    (Json.readsAs_ofNat record.state) h
  change TypoState.ofJson? _ = _ at hfound
  unfold TypoState.ofJson? at hfound
  simp only [Option.bind_eq_bind, Option.bind_eq_some_iff] at hfound
  obtain ⟨members, hmembers, hfound⟩ := hfound
  obtain ⟨values, hvalues⟩ := Json.exists_valuesOf hmembers
  rw [hvalues] at hfound
  split at hfound
  · next state hstate =>
    obtain ⟨rfl, -⟩ := List.cons.inj hstate
    obtain ⟨n, hn, rfl⟩ := Option.map_eq_some_iff.1 hfound
    exact Numeral.eq_of_toNat?_ofNat hn
  · cases hfound

/-! ## Postings -/

/-- The state of a posting, if it has one, has 64 bits. -/
def Posting.Storable (posting : Posting) : Prop := ∀ n, posting.state = some n → n < 2 ^ 64

/-- A posting is read back from its line, if its state has 64 bits or it has none.

**Proof sketch.** The posting is written as an object of two members, or three, which are read back
one by one, and from these the posting is made again. -/
theorem Posting.readsBack {posting : Posting} (h : posting.Storable) :
    Record.ReadsBack posting := by
  have hread : Json.read (Record.toJson posting).render = some (Record.toJson posting) := by
    obtain ⟨key, ids, state⟩ := posting
    have hkey := Json.read_of_readsAs (Json.readsAs_string key.toList) ['k']
    have hids := Json.read_of_readsAs (Json.readsAs_string ids.toList) ['i', 'd', 's']
    cases state with
    | none => exact Json.read_object (.cons hkey (.cons hids .nil)) (by simp)
    | some n =>
      have hstate := Json.read_of_readsAs (Json.readsAs_ofNat n) ['s']
      exact Json.read_object (.cons hkey (.cons hids (.cons hstate .nil))) (by simp)
  unfold Record.ReadsBack
  rw [Record.decode?_line hread]
  change Posting.ofJson? (Posting.toJson posting) = _
  obtain ⟨key, ids, state⟩ := posting
  cases state with
  | none => simp [Posting.ofJson?, Posting.toJson, Json.members?, Json.valuesOf, Json.text?]
  | some n =>
    have hstate : Posting.stateOf? (.number (Numeral.ofNat n)) = some (some n) := by
      simp [Posting.stateOf?, Json.nat?_ofNat (h n rfl)]
    simp [Posting.ofJson?, Posting.toJson, Json.members?, Json.valuesOf, Json.text?, hstate]

/-- A posting that is read has the key that was written.

**Proof sketch.** The first member that is written is the key, so it is the first that is read, and
what is made of two members or three takes its key from there. -/
lemma Posting.key_of_decode? {posting found : Posting}
    (h : Record.decode? (Record.line posting) = some found) : found.key = posting.key := by
  obtain ⟨more, hfound⟩ := Record.exists_of_decode? (Record.toJson_posting posting)
    (Json.readsAs_string posting.key.toList) h
  change Posting.ofJson? _ = _ at hfound
  unfold Posting.ofJson? at hfound
  simp only [Option.bind_eq_bind, Option.bind_eq_some_iff] at hfound
  obtain ⟨members, hmembers, hfound⟩ := hfound
  obtain ⟨values, hvalues⟩ := Json.exists_valuesOf hmembers
  rw [hvalues] at hfound
  split at hfound
  · next key ids hkey _ _ =>
    obtain ⟨rfl, -⟩ := List.cons.inj hkey
    simp only [Json.text?, Option.map_some, String.ofList_toList, Option.bind_some,
      Option.bind_eq_some_iff, Option.pure_def, Option.some.injEq] at hfound
    obtain ⟨list, -, rfl⟩ := hfound
    rfl
  · next key ids state hkey _ _ =>
    obtain ⟨rfl, -⟩ := List.cons.inj hkey
    simp only [Json.text?, Option.map_some, String.ofList_toList, Option.bind_some,
      Option.bind_eq_some_iff, Option.pure_def, Option.some.injEq] at hfound
    obtain ⟨list, -, carried, -, rfl⟩ := hfound
    rfl
  · cases hfound

/-! ## Documents -/

/-- Texts are read back, whatever their characters are. -/
lemma Value.readsBack_text (s : String) : (Value.text s).ReadsBack := by
  have hread : Json.read (Json.string (some s.toList)).render =
      some (.string (some s.toList)) := by
    rw [Json.render, Option.getD_some, Json.quote]
    unfold Json.read
    rw [List.cons_append, Json.readValue, Json.skipGap_cons (by decide)]
    simp only [Json.readString_escaped s.toList []]
    rfl
  unfold ReadsBack
  rw [toJson, hread]
  simp [ofJson?]

/-- Truth values are read back. -/
lemma Value.readsBack_boolean (b : Bool) : (Value.boolean b).ReadsBack := by
  cases b <;> rfl

/-- A value is read as some value, which may be another one. -/
def Value.ReadAs (value found : Value) : Prop :=
  ∃ json, Json.ReadsAs value.toJson json ∧ ofJson? json = some found

/-- All values are read as some value if they are finite numbers or no numbers at all.

**Proof sketch.** By the kind of value. A finite number is written as a proper numeral, which is
read as some double. -/
lemma Value.exists_readAs {value : Value} (h : ∀ x, value = .number x → x.isFinite = true) :
    ∃ found, value.ReadAs found := by
  cases value with
  | text s => exact ⟨_, (Value.readsBack_text s).readsAs⟩
  | boolean b => exact ⟨_, (Value.readsBack_boolean b).readsAs⟩
  | number x =>
    obtain ⟨n, hwritten, hproper, hread⟩ := Numeral.exists_ofDouble? (h x rfl)
    obtain ⟨y, hy⟩ := Option.isSome_iff_exists.1 hread
    have hjson : (Value.number x).toJson = .number n := by
      change Json.ofDouble x = _
      rw [Json.ofDouble, hwritten]
    refine ⟨.number y, .number n, ?_, ?_⟩
    · rw [hjson]
      exact Json.readsAs_number (Numeral.read_render hproper)
    · rw [ofJson?, hy]
      rfl

/-- A number that is read back is finite: any other one is written as no number. -/
lemma Value.isFinite_of_readsBack {x : Double} (h : (Value.number x).ReadsBack) :
    x.isFinite = true := by
  cases hquantity : x.quantity with
  | finite negative m e => rw [Double.isFinite, hquantity]
  | infinite _ | nan =>
    have hnull : (Value.number x).toJson = .null := by
      change Json.ofDouble x = _
      rw [Json.ofDouble, Numeral.ofDouble?, hquantity]
    unfold ReadsBack at h
    rw [hnull] at h
    cases h

/-- No field of a document takes the name of its id, and its numbers are read back. -/
structure StoredDocument.Storable (document : StoredDocument) : Prop where
  noId : document.fields.get? "id" = none
  numbers : ∀ x, Value.number x ∈ document.fields.values → (Value.number x).ReadsBack

/-- No field of a document takes the name of its id, and its numbers are finite. -/
structure StoredDocument.Readable (document : StoredDocument) : Prop where
  noId : document.fields.get? "id" = none
  numbers : ∀ x, Value.number x ∈ document.fields.values → x.isFinite = true

namespace StoredDocument

/-- A storable document can be read, since numbers that are read back are finite. -/
lemma Storable.readable {document : StoredDocument} (h : document.Storable) : document.Readable :=
  ⟨h.noId, fun x hx => Value.isFinite_of_readsBack (h.numbers x hx)⟩

/-- All values of a storable document are read back. -/
lemma Storable.readsBack_value {document : StoredDocument} (h : document.Storable)
    {entry : String × Value} (hentry : entry ∈ document.fields.entries) :
    entry.2.ReadsBack := by
  obtain ⟨name, value⟩ := entry
  cases value with
  | text s => exact Value.readsBack_text s
  | boolean b => exact Value.readsBack_boolean b
  | number x => exact h.numbers x (List.mem_map_of_mem hentry)

/-- A field is read under its name. -/
def EntryReadAs (entry found : String × Value) : Prop := found.1 = entry.1 ∧ entry.2.ReadAs found.2

/-- Fields are read one by one.

**Proof sketch.** Induction on the entries: each is written as a member that is read under its own
name, and its value is found in what is read. -/
lemma exists_members_readAs {entries found : List (String × Value)}
    (h : List.Forall₂ EntryReadAs entries found) :
    ∃ values : List (List Char × Json),
      List.Forall₂ Json.MemberReadsAs (entries.map fun (name, value) =>
          (some name.toList, value.toJson)) (values.map fun (name, value) => (some name, value)) ∧
      values.mapM (fun member => (Value.ofJson? member.2).map (String.ofList member.1, ·)) =
        some found ∧
      values.map Prod.fst = entries.map fun entry => entry.1.toList := by
  induction h with
  | nil => exact ⟨[], .nil, rfl, rfl⟩
  | @cons entry other entries found hfirst _ ih =>
    obtain ⟨name, value⟩ := entry
    obtain ⟨name', value'⟩ := other
    obtain ⟨rfl, json, hjson, hvalue⟩ := hfirst
    obtain ⟨values, hread, hvalues, hnames⟩ := ih
    refine ⟨(name'.toList, json) :: values, .cons (Json.read_of_readsAs hjson _) hread, ?_, ?_⟩
    · rw [List.mapM_cons, hvalues]
      simp [hvalue]
    · simp [hnames]

/-- **A document is read** field by field, if none of them takes the name of its id.

**Proof sketch.** The line is an object with the id as its first member. The id is the only member
with its name, and the other ones are the fields. -/
theorem decode?_line_of_readAs {document : StoredDocument}
    (hnoId : document.fields.get? "id" = none)
    {found : List (String × Value)}
    (h : List.Forall₂ EntryReadAs document.fields.entries found) :
    Record.decode? (Record.line document) =
      some (⟨document.id, .ofList found⟩ : StoredDocument) := by
  obtain ⟨values, hread, hvalues, hnames⟩ := exists_members_readAs h
  have hid := Json.read_of_readsAs (Json.readsAs_string document.id.toList) ['i', 'd']
  have hjson : Json.read (Record.toJson document).render = some (.object
      ((some ['i', 'd'], .string (some document.id.toList)) ::
        values.map fun (name, value) => (some name, value))) :=
    Json.read_object (.cons hid hread) (by simp)
  -- no member behind the first one is called like the id
  have hother : ∀ member ∈ values, member.1 ≠ ['i', 'd'] := by
    intro member hmember hname
    have hfst : member.1 ∈ values.map Prod.fst := List.mem_map_of_mem hmember
    rw [hnames, hname] at hfst
    obtain ⟨⟨name, value⟩, hentry, hlist⟩ := List.mem_map.1 hfst
    have hname : name = "id" := String.toList_inj.1 hlist
    have hget := OrderedMap.get?_eq_some_iff.2 hentry
    rw [hname, hnoId] at hget
    cases hget
  have hmembers : Json.members? (.object
      ((some ['i', 'd'], .string (some document.id.toList)) ::
        values.map fun (name, value) => (some name, value))) =
      some ((['i', 'd'], .string (some document.id.toList)) :: values) := by
    have hpure : values.mapM (fun member => some (member.1, member.2)) = some values := by
      simpa using List.mapM_pure (m := Option) (l := values) (f := fun member => member)
    simp [Json.members?, List.mapM_map, Function.comp_def, hpure]
  have hids : Json.valuesOf ['i', 'd']
      ((['i', 'd'], .string (some document.id.toList)) :: values) =
      [.string (some document.id.toList)] := by
    have : values.filter (fun member => member.1 = ['i', 'd']) = [] :=
      List.filter_eq_nil_iff.2 fun member hmember => by simpa using hother member hmember
    simp [Json.valuesOf, this]
  have hrest : ((['i', 'd'], Json.string (some document.id.toList)) :: values).filter
      (fun member => member.1 ≠ ['i', 'd']) = values := by
    rw [List.filter_cons_of_neg (by simp)]
    exact List.filter_eq_self.2 fun member hmember => by simpa using hother member hmember
  rw [Record.decode?_line hjson]
  change StoredDocument.ofJson? _ = _
  unfold StoredDocument.ofJson?
  rw [hmembers]
  simp only [Option.bind_eq_bind, Option.bind_some, hids, hrest, hvalues, Json.text?,
    Option.map_some, String.ofList_toList]
  rfl

/-- A storable document is read back unchanged. -/
theorem readsBack {document : StoredDocument} (h : document.Storable) :
    Record.ReadsBack document := by
  have hread : List.Forall₂ EntryReadAs document.fields.entries document.fields.entries :=
    List.forall₂_same.2 fun entry hentry => ⟨rfl, (h.readsBack_value hentry).readsAs⟩
  unfold Record.ReadsBack
  rw [decode?_line_of_readAs h.noId hread, OrderedMap.ofList_entries]

/-- A readable document is read as some document. -/
theorem Readable.exists_decode?_line {document : StoredDocument} (h : document.Readable) :
    ∃ found : StoredDocument, Record.decode? (Record.line document) = some found := by
  have hentries : ∀ entry ∈ document.fields.entries, ∃ found, EntryReadAs entry found := by
    rintro ⟨name, value⟩ hentry
    obtain ⟨found, hfound⟩ := Value.exists_readAs fun x (hx : value = .number x) =>
      h.numbers x (hx ▸ List.mem_map_of_mem hentry)
    exact ⟨(name, found), rfl, hfound⟩
  choose! found hfound using hentries
  exact ⟨_, decode?_line_of_readAs h.noId
    (List.forall₂_map_right_iff.2 (List.forall₂_same.2 hfound))⟩

/-- A document that is read has the id that was written.

**Proof sketch.** The line is read as an object with the written id first, and the id that is read
is the one found there. -/
lemma id_of_decode? {document found : StoredDocument}
    (h : Record.decode? (Record.line document) = some found) : found.id = document.id := by
  obtain ⟨more, hfound⟩ := Record.exists_of_decode? (Record.toJson_document document)
    (Json.readsAs_string document.id.toList) h
  change StoredDocument.ofJson? _ = _ at hfound
  unfold StoredDocument.ofJson? at hfound
  simp only [Option.bind_eq_bind, Option.bind_eq_some_iff] at hfound
  obtain ⟨members, hmembers, hfound⟩ := hfound
  obtain ⟨values, hvalues⟩ := Json.exists_valuesOf hmembers
  rw [hvalues] at hfound
  split at hfound
  · next id hid =>
    obtain ⟨rfl, -⟩ := List.cons.inj hid
    simp only [Json.text?, Option.map_some, String.ofList_toList, Option.bind_some,
      Option.bind_eq_some_iff, Option.pure_def, Option.some.injEq] at hfound
    obtain ⟨fields, -, rfl⟩ := hfound
    rfl
  · cases hfound

end StoredDocument

end Concordance
