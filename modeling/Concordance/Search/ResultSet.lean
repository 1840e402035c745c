import Concordance.Search.Hit

set_option relaxedAutoImplicit false
set_option autoImplicit false

/-!
# Result sets

The hits that a query has gathered so far, each document once, in the order in which they were
found. A map leads from the id of a document to the place of its hit.

## Main definitions

* `Concordance.ResultSet` — hits and their places.
* `Concordance.ResultSet.entry`, `update` — the hit of a document.
* `Concordance.ResultSet.retain`, `removeAll` — fewer hits.
* `Concordance.ResultSet.sortByWeight` — the hits by weight.
-/

namespace Concordance

/-- Hits and their places. -/
structure ResultSet where
  hits : List Hit := []
  /-- The place of the hit of each document, by the text of its id. -/
  places : OrderedMap String Nat := ∅

namespace ResultSet

/-- No hits. -/
def empty : ResultSet := {}

/-- The places of hits. -/
def placesOf (hits : List Hit) : OrderedMap String Nat :=
  OrderedMap.ofList (hits.zipIdx.map fun (hit, i) => (hit.id.text, i))

/-- The result set of hits of different documents. -/
def ofHits (hits : List Hit) : ResultSet := ⟨hits, placesOf hits⟩

/-- The number of hits. -/
def size (set : ResultSet) : Nat := set.hits.length

/-- Whether there are no hits. -/
def isEmpty (set : ResultSet) : Bool := set.hits.isEmpty

/-- The ids of the hits, in order. -/
def ids (set : ResultSet) : List DocId := set.hits.map Hit.id

/-- Whether there is a hit of a document. -/
def contains (set : ResultSet) (id : DocId) : Bool := set.places.contains id.text

/-- The hit of a document. -/
def get? (set : ResultSet) (id : DocId) : Option Hit :=
  (set.places.get? id.text).bind fun i => set.hits[i]?

/-- The result set with a hit of a document, which stands at the end if it is new, and the place
of the hit. -/
def entry (set : ResultSet) (id : DocId) : ResultSet × Nat :=
  match set.places.get? id.text with
  | some i => (set, i)
  | none =>
    (⟨set.hits ++ [Hit.new id], set.places.insert id.text set.hits.length⟩, set.hits.length)

/-- The result set with the hit of a document changed. A document that has none gets one. -/
def update (set : ResultSet) (id : DocId) (change : Hit → Hit) : ResultSet :=
  let (set, i) := set.entry id
  { set with hits := set.hits.modify i change }

/-- The result set with every hit changed; a change keeps the id. -/
def map (set : ResultSet) (change : Hit → Hit) : ResultSet :=
  { set with hits := set.hits.map change }

/-- The hits that are kept, with their places found anew. -/
def retain (set : ResultSet) (keep : Hit → Bool) : ResultSet := ofHits (set.hits.filter keep)

/-- The result set without the hits of some documents. The places tell which hits are left; if
none has gone, nothing changes. -/
def removeAll (set : ResultSet) (ids : List DocId) : ResultSet :=
  if ids.any set.contains then
    let places := ids.foldl (fun places id => places.erase id.text) set.places
    ofHits (set.hits.filter fun hit => places.contains hit.id.text)
  else set

/-- The hits with the heaviest first. Hits of one weight keep their order. -/
def sortByWeight (set : ResultSet) : ResultSet :=
  ofHits (set.hits.mergeSort fun a b => b.weight.orderKey ≤ a.weight.orderKey)

end ResultSet

end Concordance
