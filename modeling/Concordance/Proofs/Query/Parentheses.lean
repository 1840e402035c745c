import Concordance.Query.Parser
import Mathlib.Data.List.Basic

set_option relaxedAutoImplicit false
set_option autoImplicit false

/-!
# Parentheses that need not be paired

Lexemes are read with the groups under way kept in a list. Reading each group by a call of its own,
which stops in front of the parenthesis that closes it, comes to the same. Either way a parenthesis
that closes nothing says nothing, and groups still open at the end of the text end there: lexemes
spell what they spell with their parentheses repaired. Nor do parentheses around all of it say
anything.

## Main definitions

* `Concordance.Query.descend` — lexemes read by recursive descent.
* `Concordance.Query.Balanced` — every parenthesis is paired.
* `Concordance.Query.repair` — lexemes with stray parentheses dropped and missing ones appended.

## Main results

* `Concordance.Query.descend_eq_ofLexemes` — recursive descent reads the same query.
* `Concordance.Query.balanced_repair`, `repair_eq_self_iff` — what repair comes to.
* `Concordance.Query.ofLexemes_repair` — repair keeps the query.
* `Concordance.Query.ofLexemes_wrapped` — so do parentheses around all of it.
-/

namespace Concordance

/-- The number of groups that are open after a lexeme, if `start` are before it. -/
def Lexeme.openAfter (start : Nat) : Lexeme → Nat
  | .opening _ => start + 1
  | .closing => start - 1
  | _ => start

namespace Query

variable {defaultField : String} {lexemes : List Lexeme}

/-! ## Recursive descent -/

/-- The query of a group under way that goes on with some lexemes, and what is left of them from the
parenthesis on that closes the group. At depth `0` there is no group to close.

A group in parentheses is read one level deeper, and then the parenthesis that closes it is left
out, if there is one. -/
def descend (defaultField : String) (depth : Nat) (draft : Draft) (lexemes : List Lexeme) :
    Query × {rest : List Lexeme // rest <:+ lexemes} :=
  match lexemes with
  | [] => (draft.query (if depth = 0 then "Empty Query" else "Empty Group"), ⟨[], List.suffix_rfl⟩)
  | .opening negated :: lexemes =>
    let group := descend defaultField (depth + 1) {} lexemes
    let part := if negated then without group.1 else group.1
    have hdrop : group.2.1.drop 1 <:+ lexemes := (List.drop_suffix 1 _).trans group.2.2
    let whole := descend defaultField depth (draft.add part) (group.2.1.drop 1)
    (whole.1, ⟨whole.2.1, (whole.2.2.trans hdrop).trans (List.suffix_cons _ _)⟩)
  | .closing :: lexemes =>
    if depth = 0 then
      let whole := descend defaultField depth draft lexemes
      (whole.1, ⟨whole.2.1, whole.2.2.trans (List.suffix_cons _ _)⟩)
    else (draft.query "Empty Group", ⟨.closing :: lexemes, List.suffix_rfl⟩)
  | .or :: lexemes =>
    let whole := descend defaultField depth { draft with any := true } lexemes
    (whole.1, ⟨whole.2.1, whole.2.2.trans (List.suffix_cons _ _)⟩)
  | .word text :: lexemes =>
    let whole := descend defaultField depth (draft.add (ofWord defaultField text)) lexemes
    (whole.1, ⟨whole.2.1, whole.2.2.trans (List.suffix_cons _ _)⟩)
  | .phrase field text :: lexemes =>
    let whole := descend defaultField depth
      (draft.add (phrase (field.getD defaultField) text)) lexemes
    (whole.1, ⟨whole.2.1, whole.2.2.trans (List.suffix_cons _ _)⟩)
termination_by lexemes.length
decreasing_by
  all_goals simp only [List.length_cons]
  any_goals exact Nat.lt_succ_self _
  exact Nat.lt_succ_of_le hdrop.length_le

/-- The query of the outermost of some groups under way that go on with lexemes. -/
def Nesting.finish (defaultField : String) (nesting : Nesting) (lexemes : List Lexeme) : Query :=
  let last := lexemes.foldl (Nesting.step defaultField) nesting
  (outermost last.inner last.outer).query "Empty Query"

/-- A group in parentheses is a part of the group around it, which goes on behind the parenthesis
that closes the inner one.

**Proof sketch.** Induction on the recursion of the descent. A parenthesis that opens a group inside
is finished by the induction for the inner group, and what follows it by the one for the rest. -/
lemma finish_cons {depth : Nat} (hdepth : depth ≠ 0) (draft : Draft) (lexemes : List Lexeme)
    (around : Draft) (negated : Bool) (outer : List (Draft × Bool)) :
    let group := descend defaultField depth draft lexemes
    Nesting.finish defaultField ⟨draft, (around, negated) :: outer⟩ lexemes =
      Nesting.finish defaultField
        ⟨around.add (if negated then without group.1 else group.1), outer⟩ (group.2.1.drop 1) := by
  -- The groups around are those of the calls that wait for this one.
  induction depth, draft, lexemes using descend.induct defaultField
    generalizing around negated outer with
  | case1 depth draft =>
    rw [descend, if_neg hdepth]
    rfl
  | case2 depth draft inner lexemes group part hdrop ihgroup ihrest =>
    rw [descend]
    exact (ihgroup (Nat.succ_ne_zero depth) draft inner ((around, negated) :: outer)).trans
      (ihrest hdepth around negated outer)
  | case3 => exact absurd rfl hdepth
  | case4 depth draft lexemes =>
    rw [descend, if_neg hdepth]
    rfl
  | case5 depth draft lexemes ih =>
    rw [descend]
    exact ih hdepth around negated outer
  | case6 depth draft text lexemes ih =>
    rw [descend]
    exact ih hdepth around negated outer
  | case7 depth draft field text lexemes ih =>
    rw [descend]
    exact ih hdepth around negated outer

/-- At the top, recursive descent reads all lexemes.

**Proof sketch.** Induction on the recursion of the descent, at the top. An opening parenthesis is
read as a group around which there is only the top. -/
lemma finish_nil (draft : Draft) (lexemes : List Lexeme) :
    Nesting.finish defaultField ⟨draft, []⟩ lexemes = (descend defaultField 0 draft lexemes).1 := by
  generalize hdepth : 0 = depth
  induction depth, draft, lexemes using descend.induct defaultField with
  | case1 depth draft =>
    rw [descend, if_pos hdepth.symm]
    rfl
  | case2 depth draft inner lexemes group part hdrop ihgroup ihrest =>
    rw [descend]
    exact (finish_cons (Nat.succ_ne_zero depth) {} lexemes draft inner []).trans (ihrest hdepth)
  | case3 draft lexemes ih =>
    rw [descend, if_pos rfl]
    exact ih rfl
  | case4 depth draft lexemes hne => exact absurd hdepth.symm hne
  | case5 depth draft lexemes ih =>
    rw [descend]
    exact ih hdepth
  | case6 depth draft text lexemes ih =>
    rw [descend]
    exact ih hdepth
  | case7 depth draft field text lexemes ih =>
    rw [descend]
    exact ih hdepth

/-- **Recursive descent** reads the query that lexemes spell. -/
theorem descend_eq_ofLexemes (defaultField : String) (lexemes : List Lexeme) :
    (descend defaultField 0 {} lexemes).1 = ofLexemes defaultField lexemes :=
  (finish_nil {} lexemes).symm

/-! ## Paired parentheses -/

/-- The number of groups that are open after some lexemes, if `start` are before them. -/
def openAfter (start : Nat) (lexemes : List Lexeme) : Nat := lexemes.foldl Lexeme.openAfter start

/-- Every closing parenthesis closes a group that is open before it, if `start` are open before all
of the lexemes. -/
def Opened (start : Nat) (lexemes : List Lexeme) : Prop :=
  ∀ before, before ++ [.closing] <+: lexemes → 0 < openAfter start before

/-- Every closing parenthesis closes a group, and no group is left open. -/
structure Balanced (lexemes : List Lexeme) : Prop where
  opened : Opened 0 lexemes
  settled : openAfter 0 lexemes = 0

/-- Lexemes without the closing parentheses that close no group, if `start` are open before all of
the lexemes. -/
def withoutStrays (start : Nat) : List Lexeme → List Lexeme
  | [] => []
  | lexeme :: lexemes =>
    if lexeme = .closing ∧ start = 0 then withoutStrays 0 lexemes
    else lexeme :: withoutStrays (lexeme.openAfter start) lexemes

/-- Lexemes with their parentheses paired: those that close no group are dropped, and for every
group left open one is appended. -/
def repair (lexemes : List Lexeme) : List Lexeme :=
  withoutStrays 0 lexemes ++ List.replicate (openAfter 0 lexemes) .closing

/-- Groups that are open after some lexemes are open before the next. -/
lemma openAfter_append (start : Nat) (before after : List Lexeme) :
    openAfter start (before ++ after) = openAfter (openAfter start before) after :=
  List.foldl_append

/-- As many closing parentheses as there are open groups close all of them. -/
lemma openAfter_replicate_closing (start : Nat) :
    openAfter start (List.replicate start .closing) = 0 := by
  induction start with
  | zero => rfl
  | succ start ih => exact ih

/-- Closing parentheses that close no group do not change how many groups are open. -/
lemma openAfter_withoutStrays (start : Nat) (lexemes : List Lexeme) :
    openAfter start (withoutStrays start lexemes) = openAfter start lexemes := by
  induction lexemes generalizing start with
  | nil => rfl
  | cons lexeme lexemes ih =>
    rw [withoutStrays]
    split
    · next hstray =>
      obtain ⟨rfl, rfl⟩ := hstray
      exact ih 0
    · exact ih _

/-- In no lexemes at all there is nothing to be closed. -/
lemma opened_nil (start : Nat) : Opened start [] := fun before h => by
  cases before <;> simp at h

/-- Lexemes close only open groups if the first one does and the others do after it.

**Proof sketch.** A beginning of the lexemes is empty, or it is the first lexeme with a beginning of
the rest behind it. -/
lemma opened_cons {start : Nat} {lexeme : Lexeme} :
    Opened start (lexeme :: lexemes) ↔
      ¬ (lexeme = .closing ∧ start = 0) ∧ Opened (lexeme.openAfter start) lexemes := by
  constructor
  · intro h
    refine ⟨?_, fun before hbefore => h (lexeme :: before) ?_⟩
    · rintro ⟨rfl, rfl⟩
      exact absurd (h [] (by simp)) (Nat.lt_irrefl 0)
    · exact List.cons_prefix_cons.2 ⟨rfl, hbefore⟩
  · rintro ⟨hstray, hrest⟩ before hbefore
    cases before with
    | nil =>
      obtain ⟨rfl, -⟩ := List.cons_prefix_cons.1 hbefore
      exact Nat.pos_of_ne_zero fun hzero => hstray ⟨rfl, hzero⟩
    | cons first before =>
      obtain ⟨rfl, hrestBefore⟩ := List.cons_prefix_cons.1 hbefore
      exact hrest before hrestBefore

/-- Lexemes that close only open groups can be put one after the other. -/
lemma Opened.append {start : Nat} {before after : List Lexeme} (hbefore : Opened start before)
    (hafter : Opened (openAfter start before) after) : Opened start (before ++ after) := by
  induction before generalizing start with
  | nil => exact hafter
  | cons lexeme before ih =>
    obtain ⟨hstray, hrest⟩ := opened_cons.1 hbefore
    exact opened_cons.2 ⟨hstray, ih hrest hafter⟩

/-- As many closing parentheses as there are open groups close only open groups. -/
lemma opened_replicate_closing (start : Nat) : Opened start (List.replicate start .closing) := by
  induction start with
  | zero => exact opened_nil 0
  | succ start ih => exact opened_cons.2 ⟨fun h => Nat.succ_ne_zero start h.2, ih⟩

/-- Without the closing parentheses that close no group, every one closes an open group. -/
lemma opened_withoutStrays (start : Nat) (lexemes : List Lexeme) :
    Opened start (withoutStrays start lexemes) := by
  induction lexemes generalizing start with
  | nil => exact opened_nil start
  | cons lexeme lexemes ih =>
    rw [withoutStrays]
    split
    · next hstray =>
      rw [hstray.2]
      exact ih 0
    · next hstray => exact opened_cons.2 ⟨hstray, ih _⟩

/-- Where every parenthesis closes a group, none is dropped. -/
lemma Opened.withoutStrays_eq {start : Nat} (h : Opened start lexemes) :
    withoutStrays start lexemes = lexemes := by
  induction lexemes generalizing start with
  | nil => rfl
  | cons lexeme lexemes ih =>
    obtain ⟨hstray, hrest⟩ := opened_cons.1 h
    rw [withoutStrays, if_neg hstray, ih hrest]

/-- **Repair pairs all parentheses.** -/
theorem balanced_repair (lexemes : List Lexeme) : Balanced (repair lexemes) where
  opened := (opened_withoutStrays 0 lexemes).append <| by
    rw [openAfter_withoutStrays]
    exact opened_replicate_closing _
  settled := by rw [repair, openAfter_append, openAfter_withoutStrays, openAfter_replicate_closing]

/-- There is something to repair unless all parentheses are paired. -/
theorem repair_eq_self_iff (lexemes : List Lexeme) :
    repair lexemes = lexemes ↔ Balanced lexemes := by
  constructor
  · intro h
    exact h ▸ balanced_repair lexemes
  · intro h
    rw [repair, h.opened.withoutStrays_eq, h.settled, List.replicate_zero, List.append_nil]

/-- A group that is closed before it is opened is left open. -/
example : repair [.closing, .word "cat", .opening true, .or] =
    [.word "cat", .opening true, .or, .closing] := by decide

/-! ## Repaired parentheses -/

/-- A lexeme opens or closes as many groups as it says. -/
lemma length_outer_step (nesting : Nesting) (lexeme : Lexeme) :
    (nesting.step defaultField lexeme).outer.length =
      lexeme.openAfter nesting.outer.length := by
  obtain ⟨inner, outer⟩ := nesting
  cases lexeme with
  | closing => cases outer <;> rfl
  | _ => rfl

/-- Reading lexemes leaves as many groups under way around the innermost one as are open after them.
-/
lemma length_outer_foldl (nesting : Nesting) (lexemes : List Lexeme) :
    (lexemes.foldl (Nesting.step defaultField) nesting).outer.length =
      openAfter nesting.outer.length lexemes := by
  induction lexemes generalizing nesting with
  | nil => rfl
  | cons lexeme lexemes ih =>
    rw [List.foldl_cons, ih, length_outer_step]
    rfl

/-- A parenthesis that closes no group says nothing. -/
lemma foldl_withoutStrays (nesting : Nesting) (lexemes : List Lexeme) :
    (withoutStrays nesting.outer.length lexemes).foldl (Nesting.step defaultField) nesting =
      lexemes.foldl (Nesting.step defaultField) nesting := by
  induction lexemes generalizing nesting with
  | nil => rfl
  | cons lexeme lexemes ih =>
    rw [withoutStrays]
    split
    · next hstray =>
      obtain ⟨rfl, hlength⟩ := hstray
      have hclose : nesting.step defaultField .closing = nesting := by
        rw [Nesting.step, Nesting.close, List.eq_nil_of_length_eq_zero hlength]
      rw [List.foldl_cons, hclose, ← ih, hlength]
    · rw [List.foldl_cons, ← length_outer_step, ih, List.foldl_cons]

/-- Parentheses that close all groups under way end them. -/
lemma foldl_replicate_closing (inner : Draft) (outer : List (Draft × Bool)) :
    (List.replicate outer.length .closing).foldl (Nesting.step defaultField) ⟨inner, outer⟩ =
      ⟨outermost inner outer, []⟩ := by
  induction outer generalizing inner with
  | nil => rfl
  | cons entry outer ih => exact ih _

/-- **Repaired parentheses** spell the same query. -/
theorem ofLexemes_repair (defaultField : String) (lexemes : List Lexeme) :
    ofLexemes defaultField (repair lexemes) = ofLexemes defaultField lexemes := by
  set last := lexemes.foldl (Nesting.step defaultField) {} with hlast
  have hstrays : (withoutStrays 0 lexemes).foldl (Nesting.step defaultField) {} = last :=
    foldl_withoutStrays {} lexemes
  have hdepth : openAfter 0 lexemes = last.outer.length := (length_outer_foldl {} lexemes).symm
  have hrepair : (repair lexemes).foldl (Nesting.step defaultField) {} =
      ⟨outermost last.inner last.outer, []⟩ := by
    rw [repair, List.foldl_append, hstrays, hdepth]
    exact foldl_replicate_closing last.inner last.outer
  rw [ofLexemes, hrepair, ofLexemes, ← hlast]
  rfl

/-! ## Parentheses around all of it -/

/-- Groups under way inside further ones. -/
def Nesting.within (nesting : Nesting) (outer : List (Draft × Bool)) : Nesting :=
  { nesting with outer := nesting.outer ++ outer }

/-- A lexeme that closes no further group leaves all of them as they are. -/
lemma step_within {nesting : Nesting} {lexeme : Lexeme}
    (h : ¬ (lexeme = .closing ∧ nesting.outer.length = 0)) (outer : List (Draft × Bool)) :
    (nesting.within outer).step defaultField lexeme =
      (nesting.step defaultField lexeme).within outer := by
  obtain ⟨inner, inside⟩ := nesting
  cases lexeme with
  | closing =>
    cases inside with
    | nil => exact absurd ⟨rfl, rfl⟩ h
    | cons entry inside => rfl
  | _ => rfl

/-- Lexemes that close only groups they find are read in the same way inside further groups, which
stay as they are. -/
lemma foldl_within {nesting : Nesting} (h : Opened nesting.outer.length lexemes)
    (outer : List (Draft × Bool)) :
    lexemes.foldl (Nesting.step defaultField) (nesting.within outer) =
      (lexemes.foldl (Nesting.step defaultField) nesting).within outer := by
  induction lexemes generalizing nesting with
  | nil => rfl
  | cons lexeme lexemes ih =>
    obtain ⟨hstray, hrest⟩ := opened_cons.1 h
    rw [← @length_outer_step defaultField] at hrest
    rw [List.foldl_cons, step_within hstray, ih hrest, List.foldl_cons]

/-- Something has been said: there is a part in the group under way, or a group around it. -/
def Nesting.Says (nesting : Nesting) : Prop := nesting.inner.parts ≠ [] ∨ nesting.outer ≠ []

/-- A group has parts after one was added. -/
lemma Draft.add_parts_ne_nil (draft : Draft) (part : Query) : (draft.add part).parts ≠ [] :=
  List.append_ne_nil_of_right_ne_nil _ (List.cons_ne_nil part [])

/-- All lexemes but the word `OR` and closing parentheses say something, and none takes back what
has been said. -/
lemma says_step {nesting : Nesting} {lexeme : Lexeme}
    (h : nesting.Says ∨ (lexeme ≠ .or ∧ lexeme ≠ .closing)) :
    (nesting.step defaultField lexeme).Says := by
  obtain ⟨inner, outer⟩ := nesting
  cases lexeme with
  | opening negated => exact .inr (List.cons_ne_nil _ _)
  | closing =>
    cases outer with
    | nil => exact h.resolve_right fun hne => hne.2 rfl
    | cons entry outer => exact .inl (entry.1.add_parts_ne_nil _)
  | or => exact h.resolve_right fun hne => hne.1 rfl
  | word text => exact .inl (inner.add_parts_ne_nil _)
  | phrase field text => exact .inl (inner.add_parts_ne_nil _)

/-- Something has been said after some lexemes if it had been before them, or if one of them says
something. -/
lemma says_foldl {nesting : Nesting}
    (h : nesting.Says ∨ ∃ lexeme ∈ lexemes, lexeme ≠ .or ∧ lexeme ≠ .closing) :
    (lexemes.foldl (Nesting.step defaultField) nesting).Says := by
  induction lexemes generalizing nesting with
  | nil => exact h.resolve_right fun ⟨_, hmem, _⟩ => List.not_mem_nil hmem
  | cons lexeme lexemes ih =>
    refine ih ?_
    rcases h with hsaid | ⟨found, hmem, hfound⟩
    · exact .inl (says_step (.inl hsaid))
    · rcases List.mem_cons.1 hmem with rfl | hmem
      · exact .inl (says_step (.inr hfound))
      · exact .inr ⟨found, hmem, hfound⟩

/-- Lexemes with paired parentheses, if they say something, are parts of one group, the same
whatever groups are around it.

**Proof sketch.** After paired parentheses no group is left open, so what is under way is one draft.
It has a part since something was said, and the groups around it are never reached. -/
lemma Balanced.exists_draft (defaultField : String) (h : Balanced lexemes)
    (hsaid : ∃ lexeme ∈ lexemes, lexeme ≠ .or ∧ lexeme ≠ .closing) :
    ∃ draft : Draft, draft.parts ≠ [] ∧
      ∀ outer, lexemes.foldl (Nesting.step defaultField) ⟨{}, outer⟩ = ⟨draft, outer⟩ := by
  obtain ⟨draft, inside, hlast⟩ : ∃ draft inside,
      lexemes.foldl (Nesting.step defaultField) {} = ⟨draft, inside⟩ := ⟨_, _, rfl⟩
  have hinside : inside = [] := by
    have hlength := @length_outer_foldl defaultField {} lexemes
    rw [hlast] at hlength
    exact List.eq_nil_of_length_eq_zero (hlength.trans h.settled)
  subst hinside
  refine ⟨draft, ?_, fun outer => ?_⟩
  · have hlastSaid := @says_foldl defaultField lexemes {} (.inr hsaid)
    rw [hlast] at hlastSaid
    exact hlastSaid.resolve_right fun hne => hne rfl
  · have hwithin := @foldl_within defaultField lexemes {} h.opened outer
    rwa [hlast] at hwithin

/-- A group that has parts says the same in any number of parentheses. -/
lemma query_outermost_replicate {draft : Draft} (h : draft.parts ≠ []) (count : Nat) :
    (outermost draft (List.replicate count ({}, false))).query "Empty Query" =
      draft.query "Empty Query" := by
  induction count generalizing draft with
  | zero => rfl
  | succ count ih =>
    -- The two reasons differ, but only a group without parts has need of one.
    have hreason : draft.query "Empty Group" = draft.query "Empty Query" := by
      unfold Draft.query
      split
      · next hnil => exact absurd hnil h
      · rfl
      · rfl
    rw [List.replicate_succ, outermost, ih (Draft.add_parts_ne_nil _ _), ← hreason]
    rfl

/-- Opening parentheses each begin a group inside the one before. -/
lemma foldl_replicate_opening (count : Nat) :
    (List.replicate count (.opening false)).foldl (Nesting.step defaultField) {} =
      ⟨{}, List.replicate count ({}, false)⟩ := by
  induction count with
  | zero => rfl
  | succ count ih =>
    rw [List.replicate_succ', List.foldl_append, ih]
    rfl

/-- **Parentheses around all of it** say nothing, if what they are around is paired and says
something. -/
theorem ofLexemes_wrapped (defaultField : String) (h : Balanced lexemes)
    (hsaid : ∃ lexeme ∈ lexemes, lexeme ≠ .or ∧ lexeme ≠ .closing) (count : Nat) :
    ofLexemes defaultField
        (List.replicate count (.opening false) ++ lexemes ++ List.replicate count .closing) =
      ofLexemes defaultField lexemes := by
  obtain ⟨draft, hparts, hfold⟩ := h.exists_draft defaultField hsaid
  have hclosing := @foldl_replicate_closing defaultField draft (List.replicate count ({}, false))
  rw [List.length_replicate] at hclosing
  rw [ofLexemes, List.foldl_append, List.foldl_append, foldl_replicate_opening, hfold, hclosing,
    ofLexemes, hfold []]
  exact query_outermost_replicate hparts count

/-- **Parentheses are repaired.** Recursive descent reads the query that lexemes spell, and the same
one with their parentheses paired: those that close no group are dropped, and for every group left
open one is appended. There is nothing to repair if and only if every parenthesis is paired. Any
number of parentheses around such lexemes leaves the query as it is, if one of the lexemes is
neither the word `OR` nor a closing parenthesis.

**Proof sketch.** The calls of the descent that wait for an inner one are the groups under way. A
parenthesis that closes none of them leaves them as they are, and the ones that repair appends end
them, as the end of the text does. Paired lexemes leave all groups around them as they are, and a
group with a single part is that part. -/
theorem descend_repair_and_wrapped (defaultField : String) :
    (∀ lexemes, (descend defaultField 0 {} lexemes).1 = ofLexemes defaultField lexemes ∧
      Balanced (repair lexemes) ∧ (repair lexemes = lexemes ↔ Balanced lexemes) ∧
      (descend defaultField 0 {} (repair lexemes)).1 = (descend defaultField 0 {} lexemes).1) ∧
    ∀ lexemes, Balanced lexemes → (∃ lexeme ∈ lexemes, lexeme ≠ .or ∧ lexeme ≠ .closing) →
      ∀ count, (descend defaultField 0 {}
          (List.replicate count (.opening false) ++ lexemes ++ List.replicate count .closing)).1 =
        (descend defaultField 0 {} lexemes).1 := by
  refine ⟨fun lexemes => ⟨descend_eq_ofLexemes defaultField lexemes, balanced_repair lexemes,
    repair_eq_self_iff lexemes, ?_⟩, fun lexemes h hsaid count => ?_⟩
  · rw [descend_eq_ofLexemes, descend_eq_ofLexemes, ofLexemes_repair]
  · rw [descend_eq_ofLexemes, descend_eq_ofLexemes, ofLexemes_wrapped defaultField h hsaid]

/-- A word and a negated group. -/
def petLexemes : List Lexeme :=
  [.word "cat", .opening true, .word "dog*", .or, .phrase (some "title") "a bird", .closing]

/-- Two pairs of parentheses around them say nothing. -/
theorem descend_repair_and_wrapped_pets :
    Balanced petLexemes ∧
      (descend anyField 0 {} (List.replicate 2 (.opening false) ++ petLexemes ++
        List.replicate 2 .closing)).1 =
        allOf [term anyField "cat",
          without (anyOf [startingWith anyField "dog", phrase "title" "a bird"])] := by
  have hpaired : Balanced petLexemes := (repair_eq_self_iff petLexemes).1 (by decide)
  have hsaid : ∃ lexeme ∈ petLexemes, lexeme ≠ .or ∧ lexeme ≠ .closing :=
    ⟨.word "cat", List.mem_cons_self, by decide⟩
  have hread := (descend_repair_and_wrapped anyField).2 petLexemes hpaired hsaid 2
  refine ⟨hpaired, hread.trans ?_⟩
  rw [descend_eq_ofLexemes]
  rfl

end Query

end Concordance
