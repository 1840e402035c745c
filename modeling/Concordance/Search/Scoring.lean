import Concordance.Query.Basic
import Concordance.Search.Hit

set_option relaxedAutoImplicit false
set_option autoImplicit false

/-!
# Scoring

The weight of a hit in a group is a sum: for each field in which it matched, the boosts of the
group's leaves for that field; a bonus if it holds the whole phrase; and a weight for each leaf
value that it matched.

## Main definitions

* `Concordance.Scoring` — the bonus and the weight of a value.
* `Concordance.Scoring.score` — the weight of a hit.
-/

namespace Concordance

/-- How hits are weighed. -/
structure Scoring where
  /-- What a hit that holds the whole phrase gets. -/
  fulltextBonus : Single := Single.ofNat 10
  /-- What each value that a hit matched counts. -/
  termWeight : Single := Single.ofNat 2
  deriving DecidableEq, Repr

namespace Scoring

/-- The name of this way of scoring. -/
def name : String := "additive"

/-- The leaves that weigh a match in a field: those that ask for the field, or those for any
field if there are none. -/
def relevant (clauses : List Clause) (field : String) : List Clause :=
  if clauses.any (·.field = field) then clauses.filter (·.field = field)
  else clauses.filter (·.field = anyField)

/-- What a match in a field counts: the boosts of the relevant leaves that the hit matched. -/
def fieldBoost (hit : Hit) (clauses : List Clause) (field : String) : Single :=
  Single.sum (((relevant clauses field).filter fun clause =>
    hit.terms.contains clause.value).map Clause.boost)

/-- The weight of a hit in a group with given leaves. -/
def score (scoring : Scoring) (hit : Hit) (clauses : List Clause) : Single :=
  let fields := Single.sum (hit.fields.keys.map (fieldBoost hit clauses))
  let boosted := if hit.fulltext then fields.add scoring.fulltextBonus else fields
  boosted.add (scoring.termWeight.mul (Single.ofNat hit.terms.size))

end Scoring

end Concordance
