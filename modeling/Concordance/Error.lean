set_option relaxedAutoImplicit false
set_option autoImplicit false

/-!
# Errors

What can go wrong, as causes. The wording of each is in one place, `Error.message`, and so is the
sort of failure it counts as, `Error.kind`.

## Main definitions

* `Concordance.Error` — the causes.
* `Concordance.Error.kind` — the sort of failure.
* `Concordance.Error.message` — the wording.
-/

namespace Concordance

/-- The sorts of failure. -/
inductive ErrorKind
  /-- The caller's data does not fit the schema. -/
  | validation
  /-- A stored file is damaged. -/
  | storage
  /-- The schema asks for something that cannot be done. -/
  | logic
  /-- A file cannot be read or written. -/
  | io
  /-- A query cannot be read. -/
  | parse
  /-- Something asked for by name does not exist. -/
  | notFound
  /-- The call does not fit the state of the session. -/
  | invalidState
  deriving DecidableEq, Repr

/-- What went wrong. -/
inductive Error
  | emptyId
  | separatorInId (id : String)
  | reservedFieldName
  | badFieldName (name : String)
  | nonFiniteNumber (field number : String)
  | missingField (field document : String)
  | unterminatedLine (file : String)
  | undecodableRecord
  | unstoredFulltext (field : String)
  | inaccessibleFile
  | untokenizableQuery (query : String)
  | unknownAnalyzer (name : String)
  | noIndex (field : String)
  | notOpen (file : String)
  | alreadyOpen
  | readOnlySession
  deriving DecidableEq, Repr

namespace Error

/-- The sort of failure that an error counts as. -/
def kind : Error → ErrorKind
  | emptyId | separatorInId _ | reservedFieldName | badFieldName _ | nonFiniteNumber ..
  | missingField .. => .validation
  | unterminatedLine _ | undecodableRecord => .storage
  | unstoredFulltext _ => .logic
  | inaccessibleFile => .io
  | untokenizableQuery _ => .parse
  | unknownAnalyzer _ | noIndex _ => .notFound
  | notOpen _ | alreadyOpen | readOnlySession => .invalidState

/-- The wording of an error about files in the directory `dir`. -/
def message (dir : String) : Error → String
  | emptyId => "Document id must not be empty"
  | separatorInId id => "Document id `" ++ id ++ "` must not contain `,`"
  | reservedFieldName => "The schema provided contains a field with the reserved name `id`"
  | badFieldName name => "Invalid or duplicate field name `" ++ name ++ "`"
  | nonFiniteNumber field number =>
    "Field `" ++ field ++ "` holds the non-finite number " ++ number
  | missingField field document => "No `" ++ field ++ "` key provided for doc " ++ document
  | unterminatedLine file => "Unterminated record line in " ++ dir ++ "/" ++ file
  | undecodableRecord => "Record codec error"
  | unstoredFulltext field => "Field `" ++ field ++ "` is declared as fulltext but not stored."
  | inaccessibleFile => "The file cannot be read or written"
  | untokenizableQuery query => "Cannot tokenize query `" ++ query ++ "`"
  | unknownAnalyzer name => "Analyzer '" ++ name ++ "' not found"
  | noIndex field => "No index for field `" ++ field ++ "`"
  | notOpen file => "Record file " ++ dir ++ "/" ++ file ++ " is not open"
  | alreadyOpen => "Storage session already open"
  | readOnlySession => "Storage is open read-only"

end Error

end Concordance
