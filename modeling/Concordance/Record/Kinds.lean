import Concordance.PostingList
import Concordance.Record.Basic
import Concordance.Value

set_option relaxedAutoImplicit false
set_option autoImplicit false

/-!
# The kinds of record

## Main definitions

* `Concordance.StoredDocument` — what is kept of a document.
* `Concordance.Posting` — the documents that hold a term, and the typo state of the term.
* `Concordance.TypoState` — a typo state that some term has.
-/

namespace Concordance

/-- What is kept of a document. -/
structure StoredDocument where
  id : String
  fields : Fields

/-- The documents that hold a term, as a written posting list, and the typo state of the term
unless it takes no part in typo-tolerant search. -/
structure Posting where
  key : String
  ids : String
  state : Option Nat
  deriving DecidableEq, Repr

/-- A typo state that some term has. -/
structure TypoState where
  state : Nat
  deriving DecidableEq, Repr

/-- The posting of a term. -/
def Posting.of (key : String) (list : PostingList) (state : Option Nat) : Posting :=
  ⟨key, list.encode, state⟩

/-- The ids of a posting. -/
def Posting.list (posting : Posting) : PostingList := PostingList.decode posting.ids

namespace StoredDocument

/-- The object of a document: its id, then its fields in order. -/
def toJson (document : StoredDocument) : Json :=
  .object ((some ['i', 'd'], .string (some document.id.toList)) :: document.fields.toMembers)

/-- The document that an object stands for: exactly one member is its id, and all others are
fields, of which a later one takes the place of an earlier one with the same name. -/
def ofJson? (json : Json) : Option StoredDocument := do
  let members ← json.members?
  match Json.valuesOf ['i', 'd'] members with
  | [id] =>
    let fields ← (members.filter fun member => member.1 ≠ ['i', 'd']).mapM fun member =>
      (Value.ofJson? member.2).map (String.ofList member.1, ·)
    return ⟨← id.text?, OrderedMap.ofList fields⟩
  | _ => none

instance : Record StoredDocument where
  keyName := ['i', 'd']
  key document := .text document.id
  toJson := toJson
  ofJson? := ofJson?

end StoredDocument

namespace Posting

/-- The object of a posting; a missing state is left out. -/
def toJson (posting : Posting) : Json :=
  .object ((some ['k'], .string (some posting.key.toList)) ::
    (some ['i', 'd', 's'], .string (some posting.ids.toList)) ::
    match posting.state with
    | some n => [(some ['s'], .number (Numeral.ofNat n))]
    | none => [])

/-- The state that a value stands for; null is no state. -/
def stateOf? : Json → Option (Option Nat)
  | .null => some none
  | value => value.nat?.map some

/-- The posting that a value stands for. In an object each member may stand once, a missing state
is none, and unknown members are passed over. An array lists the members in order. -/
def ofJson? (json : Json) : Option Posting :=
  match json with
  | .array [key, ids] => return ⟨← key.text?, ← ids.text?, none⟩
  | .array [key, ids, state] => return ⟨← key.text?, ← ids.text?, ← stateOf? state⟩
  | _ => do
    let members ← json.members?
    match Json.valuesOf ['k'] members, Json.valuesOf ['i', 'd', 's'] members,
        Json.valuesOf ['s'] members with
    | [key], [ids], [] => return ⟨← key.text?, ← ids.text?, none⟩
    | [key], [ids], [state] => return ⟨← key.text?, ← ids.text?, ← stateOf? state⟩
    | _, _, _ => none

/-- An incoming posting with the ids of an existing one in front of its own, and with its state
unless it brings one. -/
def unite (incoming existing : Posting) : Posting :=
  ⟨incoming.key, (existing.list.union incoming.list).encode, incoming.state <|> existing.state⟩

instance : Record Posting where
  keyName := ['k']
  key posting := .text posting.key
  toJson := toJson
  ofJson? := ofJson?
  unite := unite

end Posting

namespace TypoState

/-- The object of a typo state. -/
def toJson (record : TypoState) : Json :=
  .object [(some ['s'], .number (Numeral.ofNat record.state))]

/-- The typo state that a value stands for: an object with one such member among unknown ones, or
an array of one number. -/
def ofJson? (json : Json) : Option TypoState :=
  match json with
  | .array [state] => state.nat?.map TypoState.mk
  | _ => do
    let members ← json.members?
    match Json.valuesOf ['s'] members with
    | [state] => state.nat?.map TypoState.mk
    | _ => none

instance : Record TypoState where
  keyName := ['s']
  key record := .number record.state
  toJson := toJson
  ofJson? := ofJson?

end TypoState

end Concordance
