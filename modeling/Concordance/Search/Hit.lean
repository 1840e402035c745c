import Concordance.Binary.Single
import Concordance.DocId
import Concordance.Value

set_option relaxedAutoImplicit false
set_option autoImplicit false

/-!
# Hits

## Main definitions

* `Concordance.Hit` — a document that a query found, and why.
* `Concordance.Hit.recordMatch` — one more reason.
-/

namespace Concordance

/-- A document that a query found. -/
structure Hit where
  id : DocId
  /-- The fields in which something matched. -/
  fields : OrderedSet String := ∅
  /-- The values of the leaves that matched. -/
  terms : OrderedSet String := ∅
  /-- Whether the document holds the whole phrase. -/
  fulltext : Bool := false
  weight : Single := Single.ofNat 0
  /-- The stored fields of the document. -/
  document : Fields := ∅

/-- A hit without any match. -/
def Hit.new (id : DocId) : Hit := { id }

/-- The hit with one more match. -/
def Hit.recordMatch (field term : String) (hit : Hit) : Hit :=
  { hit with fields := hit.fields.add field, terms := hit.terms.add term }

end Concordance
