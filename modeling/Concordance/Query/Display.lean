import Concordance.Query.Basic

set_option relaxedAutoImplicit false
set_option autoImplicit false

/-!
# Queries in writing

The written form of a query in the query language: fields before colons, a star behind what
terms start with, quotes around phrases, parentheses around groups. Boosts are not written.

## Main definitions

* `Concordance.Query.render` — a query in writing.
* `Concordance.Query.toText` — the same as a text.
-/

namespace Concordance.Query

/-- The word between the parts of a group. -/
def jointWord : Joint → List Char
  | .all => "AND".toList
  | .any => "OR".toList

/-- A leaf in writing. -/
def renderLeaf (field value : List Char) : Leaf → List Char
  | .term => field ++ ':' :: value
  | .start => field ++ ':' :: value ++ ['*']
  | .phrase => field ++ ':' :: '"' :: value ++ ['"']

mutual

/-- A query in writing. -/
def render : Query → List Char
  | .leaf kind field value _ => renderLeaf field.toList value.toList kind
  | .group joint parts _ => '(' :: renderParts joint parts ++ [')']
  | .not part _ => "NOT(".toList ++ part.render ++ [')']
  | .nothing reason => "<null> ".toList ++ reason.toList

/-- The parts of a group in writing. -/
def renderParts (joint : Joint) : List Query → List Char
  | [] => []
  | part :: parts => part.render ++ renderRest joint parts

/-- Further parts of a group in writing, each with the word of the group before it. -/
def renderRest (joint : Joint) : List Query → List Char
  | [] => []
  | part :: parts => ' ' :: jointWord joint ++ ' ' :: part.render ++ renderRest joint parts

end

/-- A query as a text. -/
def toText (query : Query) : String := String.ofList query.render

end Concordance.Query
