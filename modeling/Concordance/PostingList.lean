import Concordance.DocId

set_option relaxedAutoImplicit false
set_option autoImplicit false

/-!
# Posting lists

The ids of the documents that hold a term, each once, in the order in which they came. A list is
stored as its ids with commas between them.

## Main definitions

* `Concordance.PostingList` — a list of ids.
* `Concordance.PostingList.decode`, `encode` — the stored form.
* `Concordance.PostingList.add`, `remove`, `union`, `intersect` — changes of a list.
-/

namespace Concordance

/-- The ids of the documents that hold a term. -/
structure PostingList where
  ids : List DocId
  deriving DecidableEq, Repr, Inhabited

namespace PostingList

/-- The list without ids. -/
def empty : PostingList := ⟨[]⟩

/-- Whether an id is in the list. -/
def contains (list : PostingList) (id : DocId) : Bool := list.ids.contains id

/-- The list with an id at its end, unless it is there already. -/
def add (list : PostingList) (id : DocId) : PostingList :=
  if list.contains id then list else ⟨list.ids ++ [id]⟩

/-- The list without an id. -/
def remove (list : PostingList) (id : DocId) : PostingList := ⟨list.ids.filter (· ≠ id)⟩

/-- The list with the ids of another at its end, as far as they are new. -/
def union (list other : PostingList) : PostingList := other.ids.foldl add list

/-- The ids of a list that another holds too. -/
def intersect (list other : PostingList) : PostingList := ⟨list.ids.filter other.contains⟩

/-- The list of given ids, each once. -/
def ofList (ids : List DocId) : PostingList := ids.foldl add empty

/-- Whether there are no ids. -/
def isEmpty (list : PostingList) : Bool := list.ids.isEmpty

/-- The number of ids. -/
def size (list : PostingList) : Nat := list.ids.length

/-- The pieces of a text between separators. -/
def split : List Char → List (List Char)
  | [] => [[]]
  | c :: rest =>
    if c = DocId.separator then [] :: split rest
    else match split rest with
      | [] => [[c]]
      | piece :: pieces => (c :: piece) :: pieces

/-- The list that a text stands for. Empty pieces and repeated ids are passed over. -/
def decode (text : String) : PostingList :=
  ofList (((split text.toList).filter (· ≠ [])).map fun piece => ⟨String.ofList piece⟩)

/-- Texts with separators between them. -/
def join : List (List Char) → List Char
  | [] => []
  | [piece] => piece
  | piece :: next :: rest => piece ++ DocId.separator :: join (next :: rest)

/-- The ids with separators between them. -/
def encode (list : PostingList) : String :=
  String.ofList (join (list.ids.map fun id => id.text.toList))

end PostingList

end Concordance
