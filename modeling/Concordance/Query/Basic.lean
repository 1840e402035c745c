import Concordance.Binary.Single
import Concordance.Text.Letters

set_option relaxedAutoImplicit false
set_option autoImplicit false

/-!
# Queries

A query is a tree. Its leaves ask for a text in a field; groups and exclusions combine what their
parts find. Any part can carry a boost, which weighs its hits.

## Main definitions

* `Concordance.Query` — the trees.
* `Concordance.Query.term`, `startingWith`, `phrase`, `allOf`, `anyOf`, `without` — queries without
  a boost.
* `Concordance.Query.withBoost` — a query with a boost.
* `Concordance.Query.clause?` — what a leaf asks for.
* `Concordance.Query.isBlankPhrase` — whether a query is a phrase without a visible character.
-/

namespace Concordance

/-- How a leaf matches. -/
inductive Leaf
  /-- A document holds the value as a term. -/
  | term
  /-- A document holds a term that starts with the value. -/
  | start
  /-- A document holds the words of the value side by side. -/
  | phrase
  deriving DecidableEq, Repr

/-- How the parts of a group combine. -/
inductive Joint
  /-- Every part has to match. -/
  | all
  /-- Any part may match. -/
  | any
  deriving DecidableEq, Repr

/-- A query. -/
inductive Query
  | leaf (kind : Leaf) (field value : String) (boost : Option Single)
  | group (joint : Joint) (parts : List Query) (boost : Option Single)
  | not (part : Query) (boost : Option Single)
  /-- Matches nothing, for a reason. -/
  | nothing (reason : String)

/-- The name that stands for any field. -/
def anyField : String := "*"

/-- What a leaf asks for. -/
structure Clause where
  field : String
  value : String
  boost : Single
  deriving DecidableEq, Repr

namespace Query

/-- A single term. -/
def term (field value : String) : Query := .leaf .term field value none

/-- The terms that start with a text. -/
def startingWith (field value : String) : Query := .leaf .start field value none

/-- A literal phrase. Double quotes in it are left out. -/
def phrase (field value : String) : Query :=
  .leaf .phrase field (String.ofList (value.toList.filter (· ≠ '"'))) none

/-- All parts have to match. -/
def allOf (parts : List Query) : Query := .group .all parts none

/-- Any part may match. -/
def anyOf (parts : List Query) : Query := .group .any parts none

/-- The part must not match. -/
def without (part : Query) : Query := .not part none

/-- A query with a boost, which replaces one that it has. What matches nothing carries none. -/
def withBoost (boost : Single) : Query → Query
  | .leaf kind field value _ => .leaf kind field value (some boost)
  | .group joint parts _ => .group joint parts (some boost)
  | .not part _ => .not part (some boost)
  | .nothing reason => .nothing reason

/-- The boost that a query carries. -/
def boost? : Query → Option Single
  | .leaf _ _ _ boost | .group _ _ boost | .not _ boost => boost
  | .nothing _ => none

/-- The boost of a query, one unless it carries another. -/
def boost (query : Query) : Single := query.boost?.getD (Single.ofNat 1)

/-- Whether a query excludes. Exclusions are evaluated after the other parts of their group. -/
def excludes : Query → Bool
  | .not .. => true
  | _ => false

/-- A query's place in the order in which the parts of a group are evaluated. -/
def priority (query : Query) : Nat := query.excludes.toNat

/-- What a leaf asks for. -/
def clause? (query : Query) : Option Clause :=
  match query with
  | .leaf _ field value _ => some ⟨field, value, query.boost⟩
  | _ => none

/-- Whether a query is a phrase without a visible character. -/
def isBlankPhrase : Query → Bool
  | .leaf .phrase _ value _ => Text.allBlank value
  | _ => false

end Query

end Concordance
