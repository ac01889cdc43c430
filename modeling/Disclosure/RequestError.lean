import Disclosure.Place
import Disclosure.Value.Text

/-!
# Disclosure.RequestError — what can be wrong with a request

Each constructor is one cause; `RequestError.message` is its wording.
-/

namespace Disclosure

/-- Where an option names an id: the set, the option in the set, and the id. -/
structure Reference where
  set : Nat
  option : Nat
  id : String
deriving Repr, DecidableEq

/-- The place of the option that holds the reference. -/
def Reference.place (r : Reference) : Place :=
  ((((Place.top "credential_sets").item r.set).field "options").item r.option)

/-- Why a request is refused. -/
inductive RequestError where
  /-- The request itself is not an object. -/
  | requestNotAnObject
  /-- An object is needed here. -/
  | notAnObject (place : Place)
  /-- An id is missing, empty or not a text. -/
  | notAnId (place : Place)
  /-- An id holds a character that ids do not have. -/
  | outsideAlphabet (place : Place) (id : Text)
  /-- A text that is not empty is needed here. -/
  | noText (place : Place)
  /-- A list is needed here. -/
  | notAList (place : Place)
  /-- A list with at least one item is needed here. -/
  | noItems (place : Place)
  /-- A list with at least one id is needed here. -/
  | noIds (place : Place)
  /-- A claim is not an object. -/
  | claimNotAnObject (place : Place)
  /-- A boolean is needed here. -/
  | notABoolean (place : Place)
  /-- Two credential queries share an id. -/
  | repeatedId (id : String)
  /-- An option without ids. -/
  | emptyOption
  /-- A credential set without options. -/
  | noOptions
  /-- The required flag of a credential set is neither a boolean nor null. -/
  | flagNotABoolean (flag : Value)
  /-- An option names an id that the catalogue does not have. -/
  | unknownReference (reference : Reference)
  /-- A query for a mobile document names no document type. -/
  | doctypeMissing (id : String)
  /-- A query for an SD-JWT credential lists no credential type. -/
  | vctValuesMissing (id : String)
  /-- The type of a document and one that the query lists stand inside themselves and agree as far as one looks. -/
  | endlessComparison (id : String)
  /-- The type of a document that answers the query is a number with too many digits. -/
  | typeNotShowable (id : String)
  /-- The purpose of a credential set is a number with too many digits. -/
  | purposeNotShowable (set : Nat)

/-- Whether the cause is reported to the user. -/
def RequestError.isReported : RequestError → Bool
  | .endlessComparison _ | .typeNotShowable _ | .purposeNotShowable _ => false
  | _ => true

/-- The wording of each cause. -/
def RequestError.message : RequestError → Text
  | .requestNotAnObject => "DCQL query must be an object"
  | .notAnObject place => place.text ++ ": expected an object"
  | .notAnId place => place.text ++ ": query id must be a non-empty string"
  | .outsideAlphabet place id =>
    Text.ofString (place.text ++ ": invalid query id '") ++ id ++ Text.ofString "' (use letters, digits, '_' or '-')"
  | .noText place => place.text ++ ": expected a non-empty string"
  | .notAList place => place.text ++ ": expected a list"
  | .noItems place => place.text ++ ": expected a non-empty list"
  | .noIds place => place.text ++ ": expected a non-empty list of query ids"
  | .claimNotAnObject place => place.text ++ ": every claim must be an object"
  | .notABoolean place => place.text ++ ": expected a boolean"
  | .repeatedId id => "Duplicate credential query id: '" ++ id ++ "'"
  | .emptyOption => "Credential set option must list at least one query id"
  | .noOptions => "Credential set must have at least one option"
  | .flagNotABoolean flag => "Credential set required flag must be a boolean, got " ++ flag.quoted
  | .unknownReference r =>
    r.place.text ++ " references unknown credential query id '" ++ r.id ++ "'"
  | .doctypeMissing id => "DocType is missing for query with id " ++ id
  | .vctValuesMissing id => "VctValues are missing or empty for query with id " ++ id
  | .endlessComparison id => "no end to a comparison for query with id " ++ id
  | .typeNotShowable id => "too many digits in the type of a document for query with id " ++ id
  | .purposeNotShowable set => "too many digits in the purpose of credential set " ++ Nat.repr set

end Disclosure
