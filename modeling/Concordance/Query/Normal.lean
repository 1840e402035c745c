import Concordance.Query.Basic

set_option relaxedAutoImplicit false
set_option autoImplicit false

/-!
# Normal form of queries

A query is in normal form if its groups have at least two parts and its phrases hold a visible
character.

## Main definitions

* `Concordance.Query.normalize` — the normal form of a query.
-/

namespace Concordance.Query

/-- A group of given parts; fewer than two parts need none. The boost of a group that is not
needed is lost. -/
def regroup (joint : Joint) (boost : Option Single) : List Query → Query
  | [] => .nothing "Empty Group"
  | [part] => part
  | parts => .group joint parts boost

mutual

/-- The normal form of a query. -/
def normalize : Query → Query
  | .leaf .phrase field value boost =>
    if Text.allBlank value then .nothing "Empty Phrase" else .leaf .phrase field value boost
  | .leaf kind field value boost => .leaf kind field value boost
  | .group joint parts boost => regroup joint boost (normalizeAll parts)
  | .not part boost => .not part.normalize boost
  | .nothing reason => .nothing reason

/-- The normal forms of several queries. -/
def normalizeAll : List Query → List Query
  | [] => []
  | part :: parts => part.normalize :: normalizeAll parts

end

end Concordance.Query
