import Concordance.Query.Basic
import Concordance.Query.Lexeme

set_option relaxedAutoImplicit false
set_option autoImplicit false

/-!
# Reading queries

Parts side by side form a group in which all have to match, or any if the word `OR` stands between
two of them. Parentheses need not be paired: one that closes no group says nothing, and groups
still open at the end of the text end there.

## Main definitions

* `Concordance.Query.Draft` — a group under way.
* `Concordance.Query.Nesting` — the groups under way, one inside the other.
* `Concordance.Query.ofLexemes` — the query that lexemes spell.
* `Concordance.Query.parse` — the query that a text spells.
-/

namespace Concordance.Query

/-- A group under way: its parts so far, and whether any of them may match. -/
structure Draft where
  parts : List Query := []
  any : Bool := false

/-- A group under way with one more part. -/
def Draft.add (draft : Draft) (part : Query) : Draft :=
  { draft with parts := draft.parts ++ [part] }

/-- The query of a group that has ended. A single part needs no group. -/
def Draft.query (emptyReason : String) (draft : Draft) : Query :=
  match draft.parts with
  | [] => .nothing emptyReason
  | [part] => part
  | parts => if draft.any then anyOf parts else allOf parts

/-- The groups under way: the innermost one, and from inside to outside the groups around it, each
with whether the group inside is negated. -/
structure Nesting where
  inner : Draft := {}
  outer : List (Draft × Bool) := []

/-- A group as a part of the group around it. -/
def enclosed (negated : Bool) (draft : Draft) : Query :=
  let query := draft.query "Empty Group"
  if negated then without query else query

/-- The groups under way after the innermost one has ended. At the top there is none to end. -/
def Nesting.close (nesting : Nesting) : Nesting :=
  match nesting.outer with
  | [] => nesting
  | (draft, negated) :: outer => ⟨draft.add (enclosed negated nesting.inner), outer⟩

/-- The field and value of a word: what stands before and behind its first colon, if both are
something, and else the default field and the whole word. -/
def fieldAndValue (defaultField : String) (word : List Char) : String × String :=
  match word.takeWhile (· ≠ ':'), word.dropWhile (· ≠ ':') with
  | c :: field, _ :: d :: value => (String.ofList (c :: field), String.ofList (d :: value))
  | _, _ => (defaultField, String.ofList word)

/-- The leaf that a word spells. A star at its end asks for the terms that start with it; a star
alone is a term. -/
def ofWord (defaultField : String) (word : String) : Query :=
  match word.toList.reverse with
  | '*' :: c :: body =>
    let (field, value) := fieldAndValue defaultField (c :: body).reverse
    startingWith field value
  | _ =>
    let (field, value) := fieldAndValue defaultField word.toList
    term field value

/-- The groups under way after one more lexeme. -/
def Nesting.step (defaultField : String) (nesting : Nesting) : Lexeme → Nesting
  | .opening negated => ⟨{}, (nesting.inner, negated) :: nesting.outer⟩
  | .closing => nesting.close
  | .or => { nesting with inner := { nesting.inner with any := true } }
  | .word text => { nesting with inner := nesting.inner.add (ofWord defaultField text) }
  | .phrase field text =>
    { nesting with inner := nesting.inner.add (phrase (field.getD defaultField) text) }

/-- The outermost group after all groups in it have ended. -/
def outermost (inner : Draft) : List (Draft × Bool) → Draft
  | [] => inner
  | (draft, negated) :: outer => outermost (draft.add (enclosed negated inner)) outer

/-- The query that lexemes spell. -/
def ofLexemes (defaultField : String) (lexemes : List Lexeme) : Query :=
  let nesting := lexemes.foldl (Nesting.step defaultField) {}
  (outermost nesting.inner nesting.outer).query "Empty Query"

/-- The query that a text spells. -/
def parse (defaultField : String) (text : String) : Except Error Query :=
  (Lexeme.lex text).map (ofLexemes defaultField)

end Concordance.Query
