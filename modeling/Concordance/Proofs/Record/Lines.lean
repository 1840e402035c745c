import Concordance.Proofs.Encoding
import Concordance.Proofs.Json.Objects
import Concordance.Record.Kinds

set_option relaxedAutoImplicit false
set_option autoImplicit false

/-!
# Lines of records

What every line has in common, whatever record it holds: it starts with the pattern of the record's
key, it has no line feed, and it ends with a brace, so that padding can be told from the record.
The patterns of different keys are never beginnings of each other.

## Main definitions

* `Concordance.Record.Lawful` — the kinds of record whose lines are of this form.

## Main results

* `Concordance.Record.eq_of_pattern_isPrefix` — patterns form a prefix code.
* `Concordance.Record.prefixPattern_isPrefix_iff` — the lines of keys with a common beginning.
* `Concordance.Record.decode?_padding` — padding does not change what a line is read as.
-/

namespace Concordance

/-! ## Trimming -/

namespace Bytes

/-- Blanks at the end do not count. -/
lemma trimEnd_append_blanks {bytes blanks : Bytes} (h : ∀ b ∈ blanks, isBlank b = true) :
    trimEnd (bytes ++ blanks) = trimEnd bytes := by
  unfold trimEnd
  rw [List.reverse_append, List.dropWhile_append_of_pos fun b hb => h b (by simpa using hb)]

/-- Blanks behind bytes that end with none are trimmed away. -/
lemma trimEnd_append {bytes blanks : Bytes} (hblanks : ∀ b ∈ blanks, isBlank b = true)
    (hlast : ∀ b ∈ bytes.getLast?, isBlank b = false) : trimEnd (bytes ++ blanks) = bytes := by
  rw [trimEnd_append_blanks hblanks, trimEnd]
  have hhead : bytes.reverse.dropWhile isBlank = bytes.reverse := by
    rw [← List.head?_reverse] at hlast
    cases h : bytes.reverse with
    | nil => rfl
    | cons b rest =>
      have hb : isBlank b = false := hlast b (by rw [h]; rfl)
      simp [hb]
  rw [hhead, List.reverse_reverse]

/-- A line feed is among the bytes of a text only if it is among its characters. -/
lemma lineFeed_not_mem_ofText {t : List Char} (h : '\n' ∉ t) : lineFeed ∉ ofText t := by
  rw [mem_ofText_iff (by decide)]
  rintro ⟨c, hc, hcode⟩
  have : c = '\n' := by
    rw [← Char.ofNat_toNat c, hcode]
    rfl
  exact h (this ▸ hc)

end Bytes

/-! ## Characters of written values -/

namespace Json

/-- No character is written with a line feed, which is escaped. -/
lemma lineFeed_not_mem_escape (c : Char) : '\n' ∉ escape c := by
  have hdigit : ∀ d, d < 16 → '\n' ≠ hexDigit d := by decide
  unfold escape
  iterate 7
    split
    · decide
  split
  · next h =>
    have hhigh := hdigit (c.toNat / 16) (by omega)
    have hlow := hdigit (c.toNat % 16) (by omega)
    simp [hhigh, hlow]
  · next h =>
    intro hmem
    rw [← List.mem_singleton.1 hmem] at h
    exact h (by decide)

/-- No text is written with a line feed. -/
lemma lineFeed_not_mem_quote (text : List Char) : '\n' ∉ quote text := by
  intro h
  simp only [quote, List.cons_append, List.mem_cons, List.mem_append, List.not_mem_nil,
    or_false] at h
  rcases h with h | h | h
  · exact absurd h (by decide)
  · obtain ⟨c, -, hc⟩ := List.mem_flatMap.1 h
    exact lineFeed_not_mem_escape c hc
  · exact absurd h (by decide)

/-- A value that is neither an array nor an object. -/
def IsScalar : Json → Prop
  | .array _ | .object _ => False
  | _ => True

/-- No text, number or truth value is written with a line feed. -/
lemma lineFeed_not_mem_scalar {value : Json} (h : IsScalar value) : '\n' ∉ value.render := by
  cases value with
  | null => decide
  | bool b => cases b <;> decide
  | number n => exact fun hmem => absurd (Numeral.isGap_of_mem_render hmem) (by decide)
  | string text => exact lineFeed_not_mem_quote _
  | array items => exact h.elim
  | object members => exact h.elim

/-- An object of scalars is written without line feeds.

**Proof sketch.** Neither the members nor what stands between them have line feeds. -/
lemma lineFeed_not_mem_object {members : List (Option (List Char) × Json)}
    (h : ∀ member ∈ members, IsScalar member.2) : '\n' ∉ (Json.object members).render := by
  have hmember : ∀ member ∈ members, '\n' ∉ renderMember member := by
    rintro ⟨name, value⟩ hmem hin
    simp only [renderMember, List.mem_append, List.mem_cons] at hin
    rcases hin with hin | hin | hin
    · exact lineFeed_not_mem_quote _ hin
    · exact absurd hin (by decide)
    · exact lineFeed_not_mem_scalar (h _ hmem) hin
  have hmembers : '\n' ∉ renderMembers members := by
    clear h
    induction members with
    | nil => simp [renderMembers]
    | cons member members ih =>
      have hhead := hmember member List.mem_cons_self
      have htail := ih fun m hm => hmember m (List.mem_cons_of_mem _ hm)
      cases members with
      | nil => simpa [renderMembers] using hhead
      | cons next rest =>
        simp only [renderMembers, List.mem_append, List.mem_cons] at htail ⊢
        rintro (hin | hin | hin)
        · exact hhead hin
        · exact absurd hin (by decide)
        · exact htail hin
  simp only [Json.render, List.cons_append, List.mem_cons, List.mem_append, List.not_mem_nil,
    or_false]
  rintro (hin | hin | hin)
  · exact absurd hin (by decide)
  · exact hmembers hin
  · exact absurd hin (by decide)

/-- An object is written with its first member in front. -/
lemma render_object_cons (name : List Char) (value : Json)
    (rest : List (Option (List Char) × Json)) :
    ∃ tail, (Json.object ((some name, value) :: rest)).render =
      '\x7b' :: quote name ++ ':' :: value.render ++ tail := by
  cases rest with
  | nil => exact ⟨['\x7d'], by simp [Json.render, renderMembers, renderMember]⟩
  | cons next rest =>
    exact ⟨',' :: renderMembers (next :: rest) ++ ['\x7d'],
      by simp [Json.render, renderMembers, renderMember]⟩

end Json

/-! ## Patterns -/

namespace Record

section Pattern

variable {R : Type} [Record R]

/-- A quoted text and a closed numeral start differently. -/
lemma head_quote_ne_decimal (s rest : List Char) (n : Nat) :
    (Json.quote s ++ rest).head? ≠ (Positional.decimal n ++ ['\x7d']).head? := by
  have hquote : (Json.quote s ++ rest).head? = some '"' := by simp [Json.quote]
  rw [hquote]
  cases hnum : Positional.numeral 10 n with
  | nil => exact absurd hnum (Positional.numeral_ne_nil (by decide) n)
  | cons d ds =>
    have hd : d < 10 :=
      Positional.lt_of_mem_numeral (by decide : 2 ≤ 10) n d (by rw [hnum]; simp)
    have hdigit : ∀ d, d < 10 → '"' ≠ Positional.digitChar d := by decide
    simpa [Positional.decimal, hnum] using hdigit d hd

/-- Patterns form a prefix code: lines that start with the pattern of one key start with that of
no other.

**Proof sketch.** A text key is written between quotes, which tell where it ends. The digits of a
number end at the brace. A number does not begin with a quote. -/
theorem eq_of_pattern_isPrefix {k₁ k₂ : Key} (h : pattern R k₁ <+: pattern R k₂) : k₁ = k₂ := by
  simp only [pattern, Bytes.isPrefix_ofText_iff, List.cons_prefix_cons, true_and,
    List.prefix_append_right_inj] at h
  cases k₁ with
  | text s =>
    cases k₂ with
    | text t => exact congrArg Key.text (String.toList_inj.1 (Json.eq_of_quote_isPrefix h))
    | number n =>
      obtain ⟨rest, h⟩ := h
      exact absurd (congrArg List.head? h) (head_quote_ne_decimal _ _ n)
  | number m =>
    cases k₂ with
    | text t =>
      obtain ⟨rest, h⟩ := h
      have hhead : (Positional.decimal m ++ ['\x7d'] ++ rest).head? =
          (Positional.decimal m ++ ['\x7d']).head? := by simp
      rw [h] at hhead
      have := head_quote_ne_decimal t.toList [] m
      simp only [List.append_nil] at this
      exact absurd hhead this
    | number n => exact congrArg Key.number (Positional.eq_of_decimal_isPrefix h)

/-- Different keys have different patterns. -/
lemma pattern_injective : Function.Injective (pattern R) := fun _ _ h =>
  eq_of_pattern_isPrefix (R := R) (h ▸ List.prefix_rfl)

end Pattern

/-- The kinds of record whose lines start with their key, have no line feed and end with a
brace. -/
class Lawful (R : Type) [Record R] : Prop where
  pattern_isPrefix : ∀ record : R, pattern R (key record) <+: line record
  lineFeed_not_mem : ∀ record : R, Bytes.lineFeed ∉ line record
  getLast?_line : ∀ record : R, (line record).getLast? = some 125
  key_unite : ∀ incoming existing : R, key (unite incoming existing) = key incoming

/-- A record that is written as an object of scalars has a line without line feeds and with a
brace at its end. -/
lemma line_of_object {R : Type} [Record R] {record : R}
    {members : List (Option (List Char) × Json)} (htoJson : toJson record = .object members)
    (h : ∀ member ∈ members, Json.IsScalar member.2) :
    Bytes.lineFeed ∉ line record ∧ (line record).getLast? = some 125 := by
  unfold line
  rw [htoJson]
  refine ⟨Bytes.lineFeed_not_mem_ofText (Json.lineFeed_not_mem_object h), ?_⟩
  have hbrace : Bytes.ofText ['\x7d'] = [125] := by decide
  rw [Json.render, Bytes.ofText_append, hbrace, List.getLast?_append]
  rfl

/-- A record whose first member is its text key has a line that starts with the key's pattern. -/
lemma pattern_isPrefix_of_object {R : Type} [Record R] {record : R} {s : String}
    {rest : List (Option (List Char) × Json)}
    (htoJson : toJson record = .object ((some (keyName R), .string (some s.toList)) :: rest)) :
    pattern R (.text s) <+: line record := by
  obtain ⟨tail, htail⟩ := Json.render_object_cons (keyName R) (.string (some s.toList)) rest
  unfold pattern line
  rw [Bytes.isPrefix_ofText_iff, htoJson, htail]
  refine ⟨tail, ?_⟩
  simp [Json.render]

/-- Values are written as texts, numbers or truth values. -/
lemma isScalar_toJson (value : Value) : Json.IsScalar value.toJson := by
  cases value with
  | text s => trivial
  | boolean b => trivial
  | number x =>
    change Json.IsScalar (Json.ofDouble x)
    unfold Json.ofDouble
    split <;> trivial

/-- The members of a stored document. -/
def documentMembers (document : StoredDocument) : List (Option (List Char) × Json) :=
  (some ['i', 'd'], .string (some document.id.toList)) :: document.fields.toMembers

/-- A document is written as an object, with its id as the first member. -/
lemma toJson_document (document : StoredDocument) :
    toJson document = .object (documentMembers document) := rfl

/-- The members of a written document are texts, numbers and truth values. -/
lemma isScalar_of_mem_document (document : StoredDocument) :
    ∀ member ∈ documentMembers document, Json.IsScalar member.2 := by
  intro member hmember
  rcases List.mem_cons.1 hmember with rfl | hmember
  · trivial
  · obtain ⟨⟨name, value⟩, -, rfl⟩ := List.mem_map.1 hmember
    exact isScalar_toJson value

instance : Lawful StoredDocument where
  pattern_isPrefix document := pattern_isPrefix_of_object (toJson_document document)
  lineFeed_not_mem document :=
    (line_of_object (toJson_document document) (isScalar_of_mem_document document)).1
  getLast?_line document :=
    (line_of_object (toJson_document document) (isScalar_of_mem_document document)).2
  key_unite _ _ := rfl

/-- The members of a posting. -/
def postingMembers (posting : Posting) : List (Option (List Char) × Json) :=
  (some ['k'], .string (some posting.key.toList)) ::
    (some ['i', 'd', 's'], .string (some posting.ids.toList)) ::
    match posting.state with
    | some n => [(some ['s'], .number (Numeral.ofNat n))]
    | none => []

/-- A posting is written as an object, with its key as the first member. -/
lemma toJson_posting (posting : Posting) :
    toJson posting = .object (postingMembers posting) := rfl

/-- The members of a written posting are texts and numbers. -/
lemma isScalar_of_mem_posting (posting : Posting) :
    ∀ member ∈ postingMembers posting, Json.IsScalar member.2 := by
  unfold postingMembers
  cases posting.state <;> simp [Json.IsScalar]

instance : Lawful Posting where
  pattern_isPrefix posting := pattern_isPrefix_of_object (toJson_posting posting)
  lineFeed_not_mem posting :=
    (line_of_object (toJson_posting posting) (isScalar_of_mem_posting posting)).1
  getLast?_line posting :=
    (line_of_object (toJson_posting posting) (isScalar_of_mem_posting posting)).2
  key_unite incoming existing := by
    change Key.text (Posting.unite incoming existing).key = Key.text incoming.key
    rw [Posting.unite]

/-- The only member of a typo state. -/
def stateMembers (record : TypoState) : List (Option (List Char) × Json) :=
  [(some ['s'], .number (Numeral.ofNat record.state))]

/-- A typo state is written as an object with the state as its only member. -/
lemma toJson_state (record : TypoState) : toJson record = .object (stateMembers record) := rfl

/-- The member of a written typo state is a number. -/
lemma isScalar_of_mem_state (record : TypoState) :
    ∀ member ∈ stateMembers record, Json.IsScalar member.2 := by
  simp [stateMembers, Json.IsScalar]

/-- A typo state is written as its pattern. -/
lemma line_typoState (record : TypoState) :
    line record = pattern TypoState (.number record.state) := by
  have hrender : (toJson record).render =
      '\x7b' :: Json.quote ['s'] ++ ':' :: (Positional.decimal record.state ++ ['\x7d']) := by
    rw [toJson_state, Json.render, stateMembers, Json.renderMembers, Json.renderMember, Json.render,
      Numeral.render_ofNat]
    simp
  rw [line, hrender]
  rfl

instance : Lawful TypoState where
  pattern_isPrefix record := by
    rw [line_typoState]
    exact List.prefix_rfl
  lineFeed_not_mem record :=
    (line_of_object (toJson_state record) (isScalar_of_mem_state record)).1
  getLast?_line record :=
    (line_of_object (toJson_state record) (isScalar_of_mem_state record)).2
  key_unite _ _ := rfl

/-! ## Beginnings of keys -/

section Start

variable {R : Type} [Record R]

/-- The pattern of a beginning lacks the closing quote. -/
lemma prefixPattern_eq (start : String) : prefixPattern R start =
    Bytes.ofText ('\x7b' :: Json.quote (keyName R) ++ ':' :: '"' :: Json.escaped start.toList) := by
  have hpattern : pattern R (.text start) = Bytes.ofText ('\x7b' :: Json.quote (keyName R) ++ ':' ::
      '"' :: Json.escaped start.toList) ++ Bytes.ofText ['"'] := by
    rw [← Bytes.ofText_append, pattern]
    simp [Json.quote]
  have hquote : Bytes.ofText ['"'] = [34] := by decide
  rw [prefixPattern, hpattern, hquote, List.dropLast_concat]

/-- The pattern of a text key starts with that of a beginning iff the text starts with it. -/
theorem prefixPattern_isPrefix_pattern_iff {start s : String} :
    prefixPattern R start <+: pattern R (.text s) ↔ start.toList <+: s.toList := by
  rw [prefixPattern_eq, pattern, Bytes.isPrefix_ofText_iff]
  simp only [Json.quote, List.cons_append, List.cons_prefix_cons, true_and,
    List.prefix_append_right_inj]
  exact Json.escaped_isPrefix_iff

/-- The pattern of a beginning and that of a key do not rule each other out iff the key is a text
with this beginning.

**Proof sketch.** The pattern of a text with the beginning goes on from that of the beginning. If it
ends before it, the text is the beginning itself, since patterns form a prefix code. The pattern of
a number goes on with a digit where that of a beginning has a quote. -/
lemma prefixPattern_or_iff {start : String} {k : Key} :
    (prefixPattern R start <+: pattern R k ∨ pattern R k <+: prefixPattern R start) ↔
      ∃ s, k = .text s ∧ start.toList <+: s.toList := by
  cases k with
  | text s =>
    constructor
    · rintro (h | h)
      · exact ⟨s, rfl, prefixPattern_isPrefix_pattern_iff.1 h⟩
      · have hstart : prefixPattern R start <+: pattern R (.text start) :=
          prefixPattern_isPrefix_pattern_iff.2 List.prefix_rfl
        obtain rfl : s = start := Key.text.inj (eq_of_pattern_isPrefix (h.trans hstart))
        exact ⟨s, rfl, List.prefix_rfl⟩
    · rintro ⟨other, heq, h⟩
      obtain rfl : s = other := Key.text.inj heq
      exact .inl (prefixPattern_isPrefix_pattern_iff.2 h)
  | number n =>
    refine iff_of_false ?_ (by simp)
    have hhead := head_quote_ne_decimal start.toList [] n
    have hne : Positional.decimal n ++ ['\x7d'] ≠ [] := by simp
    obtain ⟨d, ds, hdigits⟩ := List.exists_cons_of_ne_nil hne
    have hd : d ≠ '"' := fun heq => by
      rw [hdigits, heq] at hhead
      exact hhead (by simp [Json.quote])
    simp only [prefixPattern_eq, pattern, Bytes.isPrefix_ofText_iff, List.cons_append,
      List.cons_prefix_cons, true_and, List.prefix_append_right_inj, hdigits]
    rintro (h | h)
    · exact hd h.1.symm
    · exact hd h.1

/-- **Beginnings of keys.** A line starts with the pattern of a beginning iff the key of its record
is a text with this beginning. -/
theorem prefixPattern_isPrefix_iff [Lawful R] {record : R} {start : String} (rest : Bytes) :
    prefixPattern R start <+: line record ++ rest ↔
      ∃ s, key record = .text s ∧ start.toList <+: s.toList := by
  have hline : pattern R (key record) <+: line record ++ rest :=
    (Lawful.pattern_isPrefix record).trans (List.prefix_append _ _)
  rw [← prefixPattern_or_iff (R := R)]
  refine ⟨fun h => List.prefix_or_prefix_of_prefix h hline, fun h => ?_⟩
  rcases h with h | h
  · exact h.trans hline
  · obtain ⟨s, hkey, hstart⟩ := prefixPattern_or_iff.1 (Or.inr h)
    refine List.IsPrefix.trans ?_ hline
    rw [hkey]
    exact prefixPattern_isPrefix_pattern_iff.2 hstart

end Start

/-! ## Padding -/

section Padding

variable {R : Type} [Record R]

/-- The codec returns a record unchanged. -/
def ReadsBack (record : R) : Prop := decode? (line record) = some record

variable [Lawful R]

/-- The blanks behind a record are trimmed away. -/
lemma trimEnd_line_append (record : R) {blanks : Bytes}
    (h : ∀ b ∈ blanks, Bytes.isBlank b = true) :
    Bytes.trimEnd (line record ++ blanks) = line record := by
  refine Bytes.trimEnd_append h fun b hb => ?_
  rw [Lawful.getLast?_line, Option.mem_some_iff] at hb
  rw [← hb]
  decide

/-- A line ends with the brace of its object, so there are no blanks to be cut off. -/
lemma trimEnd_line (record : R) : Bytes.trimEnd (line record) = line record := by
  have h : ∀ b ∈ ([] : Bytes), Bytes.isBlank b = true := by simp
  simpa using trimEnd_line_append record h

/-- Padding does not change what a line is read as. -/
theorem decode?_padding (record : R) {blanks : Bytes}
    (h : ∀ b ∈ blanks, Bytes.isBlank b = true) :
    decode? (line record ++ blanks) = decode? (R := R) (line record) := by
  unfold decode?
  rw [trimEnd_line_append record h, trimEnd_line]

end Padding

end Record

end Concordance
