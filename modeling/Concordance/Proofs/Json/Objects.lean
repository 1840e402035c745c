import Concordance.Proofs.Json.Numerals
import Concordance.Proofs.Json.Strings
import Concordance.Value
import Mathlib.Data.List.Forall2

set_option relaxedAutoImplicit false
set_option autoImplicit false

/-!
# Reading back objects

Records are written as objects without nesting, so it is enough to know how the reader takes a
single value off the front of a text in which other members follow.

## Main definitions

* `Concordance.Json.ReadsAs` — what a written value is read as in front of other members.
* `Concordance.Value.ReadsBack` — the values that the codec of single values returns unchanged.

## Main results

* `Concordance.Json.read_object` — an object is read member by member.
* `Concordance.Json.exists_of_read_object` — the first member of an object that is read.
* `Concordance.Value.ReadsBack.readsAs` — a value that is read back on its own is read back among
  members.
-/

namespace Concordance

namespace Json

/-- What the written form of `value` is read as in front of other members, whatever they are. -/
def ReadsAs (value result : Json) : Prop :=
  ∀ fuel tail, Follows tail → readValue (fuel + 1) (value.render ++ tail) = some (result, tail)

/-- A text that starts with no blank has no gap. -/
lemma skipGap_cons {c : Char} (h : isGap c = false) (rest : List Char) :
    skipGap (c :: rest) = c :: rest := by
  simp [skipGap, h]

/-- Nothing is left of a gap in front of what follows a member. -/
lemma skipGap_follows {tail : List Char} (h : Follows tail) : skipGap tail = tail := by
  obtain ⟨c, rest, rfl, hc⟩ := h
  rcases hc with rfl | rfl <;> exact skipGap_cons (by decide) rest

/-- A text is read back in front of other members, since everything in it that could end it is
escaped. -/
lemma readsAs_string (text : List Char) : ReadsAs (.string (some text)) (.string (some text)) := by
  intro fuel tail _
  have hrender : (Json.string (some text)).render ++ tail =
      '"' :: (escaped text ++ '"' :: tail) := by
    simp [Json.render, quote]
  rw [hrender, readValue, skipGap_cons (by decide)]
  simp [readString_escaped]

/-- So is a truth value. -/
lemma readsAs_bool (b : Bool) : ReadsAs (.bool b) (.bool b) := by
  intro fuel tail _
  cases b <;> rfl

/-- The characters that values other than numbers start with. -/
def Opens (c : Char) : Prop := c = 'n' ∨ c = 't' ∨ c = 'f' ∨ c = '"' ∨ c = '[' ∨ c = '\x7b'

/-- A text that starts like no other value is read as a number. -/
lemma readValue_of_not_opens {c : Char} (hgap : isGap c = false) (h : ¬ Opens c) (fuel : Nat)
    (rest : List Char) :
    readValue (fuel + 1) (c :: rest) =
      (Numeral.read (c :: rest)).map fun (n, rest) => (.number n, rest) := by
  unfold Opens at h
  push Not at h
  rw [readValue, skipGap_cons hgap]
  split <;> simp_all

/-- A numeral starts with no character that another value starts with.

**Proof sketch.** A numeral starts with a minus sign or a digit. The characters that other values
start with come before the digits or behind them. -/
lemma not_opens_of_read {c : Char} {rest : List Char} {n : Numeral} {left : List Char}
    (h : Numeral.read (c :: rest) = some (n, left)) : isGap c = false ∧ ¬ Opens c := by
  by_cases hsign : c = '-'
  · subst hsign
    exact ⟨by decide, by unfold Opens; decide⟩
  · rw [Numeral.read_eq_of_ne hsign] at h
    cases hdigit : Positional.digitOf? c with
    | none => simp [Numeral.readBody, readDigits, hdigit] at h
    | some d =>
      unfold Positional.digitOf? at hdigit
      split at hdigit
      · next hrange =>
        refine ⟨?_, ?_⟩
        · unfold isGap
          have : ∀ g : Char, g < '0' → (c == g) = false := by
            intro g hg
            simp only [beq_eq_false_iff_ne]
            rintro rfl
            exact absurd hrange.1 (Char.not_le.2 hg)
          simp [this ' ' (by decide), this '\n' (by decide), this '\t' (by decide),
            this '\r' (by decide)]
        · have : ∀ g : Char, '9' < g → c ≠ g := by
            rintro g hg rfl
            exact absurd hrange.2 (Char.not_le.2 hg)
          have hquote : c ≠ '"' := by
            rintro rfl
            exact absurd hrange.1 (by decide)
          unfold Opens
          simp [this 'n' (by decide), this 't' (by decide), this 'f' (by decide), hquote,
            this '[' (by decide), this '\x7b' (by decide)]
      · cases hdigit

/-- A numeral that is read to its end is read in front of other members. -/
lemma readsAs_number {n m : Numeral} (h : Numeral.read n.render = some (m, [])) :
    ReadsAs (.number n) (.number m) := by
  intro fuel tail htail
  rw [Json.render]
  cases hrender : n.render with
  | nil => rw [hrender] at h; simp [Numeral.read, readDigits] at h
  | cons c rest =>
    rw [hrender] at h
    obtain ⟨hgap, hopens⟩ := not_opens_of_read h
    rw [List.cons_append, readValue_of_not_opens hgap hopens, ← List.cons_append,
      Numeral.read_append _ htail, h]
    rfl

/-! ## Members -/

/-- A member is read as another if the names are texts and equal and the value is read as the
value. -/
def MemberReadsAs (member result : Option (List Char) × Json) : Prop :=
  (∃ name, member.1 = some name ∧ result.1 = some name) ∧ ReadsAs member.2 result.2

/-- A member begins with a quote, and it is read up to what follows its value. -/
lemma renderMember_append {member result : Option (List Char) × Json}
    (h : MemberReadsAs member result) (tail : List Char) :
    ∃ name, result.1 = some name ∧ renderMember member ++ tail =
      '"' :: (escaped name ++ '"' :: ':' :: (member.2.render ++ tail)) := by
  obtain ⟨⟨name, hname, hname'⟩, -⟩ := h
  refine ⟨name, hname', ?_⟩
  obtain ⟨_, value⟩ := member
  simp only at hname
  simp [hname, renderMember, quote]

/-- A member is read up to what follows its value: the closing brace if it is the last one, or the
comma in front of others. -/
lemma readMembers_renderMember {member result : Option (List Char) × Json}
    (h : MemberReadsAs member result) (fuel : Nat) {c : Char} (hc : c = ',' ∨ c = '\x7d')
    (rest : List Char) : readMembers (fuel + 2) (renderMember member ++ c :: rest) =
      if c = ',' then (readMembers (fuel + 1) rest).map fun (ms, left) => (result :: ms, left)
      else some ([result], rest) := by
  have htail : Follows (c :: rest) := ⟨c, rest, rfl, hc⟩
  obtain ⟨name, hname, hrender⟩ := renderMember_append h (c :: rest)
  rw [hrender, readMembers, skipGap_cons (by decide)]
  simp only [readString_escaped, Option.bind_eq_bind, Option.bind_some,
    skipGap_cons (show isGap ':' = false by decide), h.2 fuel _ htail, skipGap_follows htail,
    ← hname]
  rcases hc with rfl | rfl
  · rw [if_pos rfl]
    exact Option.map_eq_bind.symm
  · rfl

/-- Members are read one after the other, up to the closing brace.

**Proof sketch.** Induction on the members: each is read up to the comma in front of the next one,
the last one up to the brace. Each takes one from the fuel. -/
lemma readMembers_renderMembers {members results : List (Option (List Char) × Json)}
    (h : List.Forall₂ MemberReadsAs members results) (hne : members ≠ []) (fuel : Nat)
    (rest : List Char) :
    readMembers (fuel + members.length + 1) (renderMembers members ++ '\x7d' :: rest) =
      some (results, rest) := by
  induction h with
  | nil => exact absurd rfl hne
  | @cons member result members results hmember hmembers ih =>
    cases hmembers with
    | nil =>
      rw [renderMembers]
      exact readMembers_renderMember hmember fuel (.inr rfl) rest
    | @cons next nextResult more moreResults hnext hrest =>
      have hsplit : renderMembers (member :: next :: more) ++ '\x7d' :: rest =
          renderMember member ++ ',' :: (renderMembers (next :: more) ++ '\x7d' :: rest) := by
        simp [renderMembers]
      have hfuel : fuel + (member :: next :: more).length + 1 = fuel + more.length + 1 + 2 := by
        simp only [List.length_cons]
        omega
      have hrest := ih (by simp)
      rw [hsplit, hfuel, readMembers_renderMember hmember _ (.inl rfl), if_pos rfl]
      rw [show fuel + more.length + 1 + 1 = fuel + (next :: more).length + 1 by
        simp only [List.length_cons]; omega, hrest]
      rfl

/-- The written form of members has at least as many characters as there are members. -/
lemma length_le_renderMembers (members : List (Option (List Char) × Json)) :
    members.length ≤ (renderMembers members).length := by
  induction members with
  | nil => simp
  | cons member members ih =>
    cases members with
    | nil =>
      obtain ⟨name, value⟩ := member
      simp [renderMembers, renderMember, quote]
    | cons next rest =>
      simp only [renderMembers, List.length_append, List.length_cons] at ih ⊢
      omega

/-- The written form of members begins with the quote of the first name. -/
lemma renderMembers_eq_cons {members : List (Option (List Char) × Json)} (hne : members ≠ []) :
    ∃ rest, renderMembers members = '"' :: rest := by
  match members with
  | [(name, value)] =>
    simp only [renderMembers, renderMember, quote, List.cons_append]
    exact ⟨_, rfl⟩
  | (name, value) :: next :: more =>
    simp only [renderMembers, renderMember, quote, List.cons_append]
    exact ⟨_, rfl⟩

/-- An object is read member by member.

**Proof sketch.** The text is longer than it has members, so there is fuel for all of them. They are
read one after the other up to the closing brace, and nothing is left behind it. -/
theorem read_object {members results : List (Option (List Char) × Json)}
    (h : List.Forall₂ MemberReadsAs members results) (hne : members ≠ []) :
    read (Json.object members).render = some (.object results) := by
  have hlength := length_le_renderMembers members
  obtain ⟨inner, hinner⟩ := renderMembers_eq_cons hne
  have hrender : (Json.object members).render = '\x7b' :: (renderMembers members ++ ['\x7d']) := by
    simp [Json.render]
  -- the fuel is the length of the text, which leaves enough for the members
  obtain ⟨fuel, hfuel⟩ : ∃ fuel, (renderMembers members ++ ['\x7d']).length + 1 =
      fuel + members.length + 1 := by
    refine ⟨(renderMembers members).length + 1 - members.length, ?_⟩
    simp only [List.length_append, List.length_cons, List.length_nil]
    omega
  have hmembers := readMembers_renderMembers h hne fuel []
  have hvalue : readValue ((renderMembers members ++ ['\x7d']).length + 1 + 1)
      ('\x7b' :: (renderMembers members ++ ['\x7d'])) = some (.object results, []) := by
    rw [hfuel, readValue, skipGap_cons (by decide)]
    simp only
    have hgap : skipGap (renderMembers members ++ ['\x7d']) = '"' :: (inner ++ ['\x7d']) := by
      rw [hinner, List.cons_append, skipGap_cons (by decide)]
    rw [hgap]
    change (readMembers _ ('"' :: (inner ++ ['\x7d']))).map _ = _
    rw [← List.cons_append, ← hinner, hmembers]
    rfl
  unfold read
  rw [hrender, List.length_cons, hvalue]
  rfl

/-- Whatever the members behind the first one are, if an object is read at all, its first member is
read as it would be on its own.

**Proof sketch.** There is fuel for the first member, which is read up to what follows it. If the
others are read as well, it comes in front of them. -/
theorem exists_of_read_object {member result : Option (List Char) × Json}
    (h : MemberReadsAs member result) {rest : List (Option (List Char) × Json)} {json : Json}
    (hread : read (Json.object (member :: rest)).render = some json) :
    ∃ more, json = .object (result :: more) := by
  obtain ⟨tail, hfollows, hrender⟩ : ∃ tail, Follows tail ∧
      (Json.object (member :: rest)).render = '\x7b' :: (renderMember member ++ tail) := by
    cases rest with
    | nil => exact ⟨_, follows_brace [], by simp [Json.render, renderMembers]⟩
    | cons next rest =>
      exact ⟨_, follows_comma (renderMembers (next :: rest) ++ ['\x7d']),
        by simp [Json.render, renderMembers]⟩
  obtain ⟨name, -, hmember⟩ := renderMember_append h tail
  -- the fuel is the length of the text, which is enough to read one member
  obtain ⟨fuel, hfuel⟩ : ∃ fuel, (renderMember member ++ tail).length + 1 = fuel + 2 :=
    ⟨(renderMember member ++ tail).length - 1, by
      rw [hmember]
      simp only [List.length_cons]
      omega⟩
  have hgap : skipGap (renderMember member ++ tail) = renderMember member ++ tail := by
    rw [hmember, skipGap_cons (by decide)]
  have hvalue : readValue ((renderMember member ++ tail).length + 1 + 1)
      ('\x7b' :: (renderMember member ++ tail)) =
        (readMembers (fuel + 2) (renderMember member ++ tail)).map
          fun (members, rest) => (.object members, rest) := by
    rw [hfuel, readValue, skipGap_cons (by decide)]
    simp only [hgap]
    rw [hmember]
    rfl
  unfold read at hread
  rw [hrender, List.length_cons, hvalue] at hread
  obtain ⟨c, left, rfl, hc⟩ := hfollows
  rw [readMembers_renderMember h _ hc] at hread
  by_cases hcomma : c = ','
  · rw [if_pos hcomma] at hread
    cases hmore : readMembers (fuel + 1) left with
    | none => simp [hmore] at hread
    | some found =>
      simp only [hmore, Option.map_some, Option.bind_eq_bind, Option.bind_some] at hread
      split at hread
      · exact ⟨found.1, (Option.some.inj hread).symm⟩
      · cases hread
  · simp only [if_neg hcomma, Option.map_some, Option.bind_eq_bind, Option.bind_some] at hread
    split at hread
    · exact ⟨[], (Option.some.inj hread).symm⟩
    · cases hread

end Json

/-! ## Values that are read back on their own -/

namespace Json

/-- What is read as a number is a numeral.

**Proof sketch.** By the first character: all other kinds of values begin with characters of their
own and give values of their own kinds. -/
lemma read_of_readValue_number {fuel : Nat} {c : Char} {rest left : List Char} {n : Numeral}
    (hgap : isGap c = false) (h : readValue (fuel + 1) (c :: rest) = some (.number n, left)) :
    Numeral.read (c :: rest) = some (n, left) := by
  rw [readValue, skipGap_cons hgap] at h
  split at h
  · cases h
  · cases h
  · cases h
  · simp at h
  · split at h
    · cases h
    · simp at h
  · split at h
    · cases h
    · simp at h
  · simpa using h

/-- A numeral that is read as a number is read to its end.

**Proof sketch.** What is left behind the numeral is blank, and as part of the written form it has
no blanks, so nothing is left. -/
lemma numeral_read_of_read {n m : Numeral} (h : read n.render = some (.number m)) :
    Numeral.read n.render = some (m, []) := by
  unfold read at h
  simp only [Option.bind_eq_bind, Option.bind_eq_some_iff] at h
  obtain ⟨⟨value, left⟩, hvalue, h⟩ := h
  simp only [Option.ite_none_right_eq_some, Option.some.injEq] at h
  obtain ⟨hleft, rfl⟩ := h
  cases hrender : n.render with
  | nil => rw [hrender] at hvalue; simp [readValue, skipGap, Numeral.read, readDigits] at hvalue
  | cons c rest =>
    have hgap : isGap c = false := Numeral.isGap_of_mem_render (n := n) (by rw [hrender]; simp)
    rw [hrender] at hvalue
    have hread := read_of_readValue_number hgap hvalue
    rw [hread]
    -- what is left is blank, but a numeral has no blanks
    cases left with
    | nil => rfl
    | cons d more =>
      have hmem : d ∈ n.render := hrender ▸ (Numeral.read_suffix hread).subset List.mem_cons_self
      rw [skipGap_cons (Numeral.isGap_of_mem_render hmem)] at hleft
      cases hleft

end Json

namespace Value

/-- The codec of single values returns a value unchanged. -/
def ReadsBack (value : Value) : Prop :=
  (Json.read value.toJson.render).bind ofJson? = some value

instance (value : Value) : Decidable value.ReadsBack :=
  inferInstanceAs (Decidable ((Json.read value.toJson.render).bind ofJson? = some value))

/-- A value that is read back on its own is read back among members.

**Proof sketch.** By the kind of value. Texts and truth values are always read back, and a number is
read by the reader of numerals wherever it stands. -/
theorem ReadsBack.readsAs {value : Value} (h : value.ReadsBack) :
    ∃ json, Json.ReadsAs value.toJson json ∧ ofJson? json = some value := by
  cases value with
  | text s => exact ⟨_, Json.readsAs_string s.toList, by simp [ofJson?]⟩
  | boolean b => exact ⟨_, Json.readsAs_bool b, rfl⟩
  | number x =>
    obtain ⟨json, hread, hvalue⟩ := Option.bind_eq_some_iff.1 h
    obtain ⟨m, rfl⟩ : ∃ m, json = .number m := by
      cases json <;> simp [ofJson?] at hvalue
      exact ⟨_, rfl⟩
    refine ⟨_, ?_, hvalue⟩
    change Json.read (Json.ofDouble x).render = _ at hread
    change Json.ReadsAs (Json.ofDouble x) _
    unfold Json.ofDouble at hread ⊢
    cases hnumeral : Numeral.ofDouble? x with
    | none => rw [hnumeral] at hread; cases hread
    | some n =>
      rw [hnumeral] at hread
      exact Json.readsAs_number (Json.numeral_read_of_read hread)

end Value

end Concordance
