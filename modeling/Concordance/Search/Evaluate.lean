import Concordance.Query.Basic
import Concordance.Search.ResultSet
import Concordance.Search.Scoring
import Concordance.Store.Lookup

set_option relaxedAutoImplicit false
set_option autoImplicit false

/-!
# Evaluating queries

A query is evaluated against a store with open files. All parts of a group work on one result set:
leaves add hits to it, exclusions take hits out of it, and at its end a group filters, flags,
weighs and sorts what is there.

## Main definitions

* `Concordance.Search` — what a query is evaluated against.
* `Concordance.Search.leaf` — what a leaf adds to the hits.
* `Concordance.Search.evaluate` — what a query makes of the hits.
* `Concordance.Search.run` — the hits of a query.
-/

namespace Concordance

/-- What a query is evaluated against: a store with open files, a way of scoring, and a text that
hits may hold. -/
structure Search where
  store : Store
  scoring : Scoring
  /-- The text whose presence in a document is flagged. -/
  flagged : String

namespace Search

/-- Whether a text holds another. -/
def holds (part : List Char) : List Char → Bool
  | [] => part.isPrefixOf []
  | c :: text => part.isPrefixOf (c :: text) || holds part text

/-- Whether the value of a field holds a text. -/
def fieldHolds (fields : Fields) (part field : String) : Bool :=
  (fields.get? field).any fun value => holds part.toList value.asText.toList

/-- The field that a leaf asks for, unless it asks for any. -/
def fieldOf (field : String) : Option String := if field = anyField then none else some field

/-- The ids of matches that have no hit yet, each once. -/
def fresh (hits : ResultSet) (found : Matches) : List DocId :=
  (PostingList.ofList ((found.values.flatMap PostingList.ids).filter fun id =>
    !hits.contains id)).ids

/-- Notes that a value matched in a field of some documents. -/
def noteMatches (term : String) (hits : ResultSet) (field : String) (list : PostingList) :
    ResultSet :=
  list.ids.foldl (fun hits id => hits.update id (Hit.recordMatch field term)) hits

/-- Adds matches of a value to the hits. Documents are read only for new hits. -/
def attach (store : Store) (found : Matches) (term : String) (hits : ResultSet) :
    Except Error ResultSet := do
  let documents ← store.documents (fresh hits found)
  let hits := found.entries.foldl (fun hits (field, list) => noteMatches term hits field list) hits
  return documents.foldl (fun hits document =>
    hits.update document.id fun hit => { hit with document := document.fields }) hits

/-- Adds the documents with a term, or with similar terms if there are none. -/
def term (store : Store) (field value : String) (hits : ResultSet) : Except Error ResultSet := do
  let found ← store.byTerm value (fieldOf field)
  if found.total = 0 then attach store (← store.byTypo value (fieldOf field)) value hits
  else attach store found value hits

/-- Adds the documents with a term that starts like a text. -/
def start (store : Store) (field value : String) (hits : ResultSet) : Except Error ResultSet := do
  attach store (← store.byStart value (fieldOf field)) value hits

/-- The words of a phrase that can be looked up. -/
def words (store : Store) (phrase : String) : List String :=
  (store.analyzer.rawTerms phrase).filter fun word => (store.analyzer.normalize word).isSome

/-- The ids of the documents with a term in any of the fields that a look-up runs against. -/
def byWord (store : Store) (field : Option String) (word : String) : Except Error PostingList := do
  return (← store.byTerm word field).values.foldl PostingList.union .empty

/-- The ids in all of several lists, in the order of the first. -/
def common : List PostingList → PostingList
  | [] => .empty
  | list :: lists => lists.foldl PostingList.intersect list

/-- The fields in which a phrase is looked for: the one asked for, or all fulltext fields. -/
def phraseFields (store : Store) (field : Option String) : List String :=
  match field with
  | some name => [name]
  | none => store.schema.fulltextFields.map Field.name

/-- Adds a document whose fields hold a phrase. -/
def notePhrase (fields : List String) (phrase : String) (hits : ResultSet)
    (document : Document) : ResultSet :=
  match fields.filter (fieldHolds document.fields phrase) with
  | [] => hits
  | matched =>
    hits.update document.id fun hit =>
      let hit := matched.foldl (fun hit field => hit.recordMatch field phrase) hit
      { hit with
        fulltext := true
        document := if hit.document.isEmpty then document.fields else hit.document }

/-- Adds the documents that have every word of a phrase and hold it literally. -/
def phrase (store : Store) (field value : String) (hits : ResultSet) :
    Except Error ResultSet := do
  let lists ← (words store value).mapM (byWord store (fieldOf field))
  let documents ← store.documents (common lists).ids
  return documents.foldl (notePhrase (phraseFields store (fieldOf field)) value) hits

/-- Adds what a leaf finds. -/
def leaf (store : Store) (kind : Leaf) (field value : String) (hits : ResultSet) :
    Except Error ResultSet :=
  match kind with
  | .term => term store field value hits
  | .start => start store field value hits
  | .phrase => phrase store field value hits

/-- The first fulltext field whose values are not kept. -/
def unstored? (schema : Schema) : Option Field :=
  schema.fulltextFields.find? fun field => !field.flags.stored

/-- Flags the hits that hold the phrase of the search in a fulltext field. With hits to flag, all
fulltext fields have to be kept. -/
def flag (search : Search) (hits : ResultSet) : Except Error ResultSet :=
  if hits.isEmpty then .ok hits
  else match unstored? search.store.schema with
    | some field => .error (.unstoredFulltext field.name)
    | none =>
      if Text.allBlank search.flagged then .ok hits
      else .ok <| hits.map fun hit =>
        let found := search.store.schema.fulltextFields.any fun field =>
          fieldHolds hit.document search.flagged field.name
        { hit with fulltext := hit.fulltext || found }

/-- Ends a group: flags its hits, weighs them by its leaves, and sorts them. -/
def finish (search : Search) (clauses : List Clause) (hits : ResultSet) :
    Except Error ResultSet := do
  let hits ← search.flag hits
  return (hits.map fun hit => { hit with weight := search.scoring.score hit clauses }).sortByWeight

/-- What a group makes of the hits that its parts have left. Where all parts have to match, a hit
stays if it matched as many values as the group has leaves. -/
def close (search : Search) (joint : Joint) (parts : List Query) (hits : ResultSet) :
    Except Error ResultSet :=
  let clauses := parts.filterMap Query.clause?
  match joint with
  | .all => search.finish clauses (hits.retain fun hit => hit.terms.size = clauses.length)
  | .any => search.finish clauses hits

mutual

/-- What a query makes of the hits. -/
def evaluate (search : Search) : Query → ResultSet → Except Error ResultSet
  | .leaf kind field value _, hits => leaf search.store kind field value hits
  | .group joint parts _, hits => do
    let hits ← evaluateParts search false parts hits
    let hits ← evaluateParts search true parts hits
    search.close joint parts hits
  | .not part _, hits => do
    let excluded ← evaluate search part .empty
    return hits.removeAll excluded.ids
  | .nothing _, hits => .ok hits

/-- What the parts of a group make of the hits, either those that exclude or those that do not. -/
def evaluateParts (search : Search) (excluding : Bool) :
    List Query → ResultSet → Except Error ResultSet
  | [], hits => .ok hits
  | part :: parts, hits => do
    let hits ← if part.excludes = excluding then evaluate search part hits else .ok hits
    evaluateParts search excluding parts hits

end

/-- The hits of a query. -/
def run (search : Search) (query : Query) : Except Error ResultSet :=
  search.evaluate query .empty

end Search

end Concordance
