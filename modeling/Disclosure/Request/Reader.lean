import Disclosure.QueryId
import Disclosure.Request

/-!
# Disclosure.Request.Reader — requests from decoded data

`Request.ofValue` accepts a bare request, or an object that carries one under `dcql_query`.  The credentials are
read first, then the credential sets, then the references are checked; the first fault is reported with its place.
Fields that are not named here are left alone.
-/

namespace Disclosure

/-- A query id at a place. -/
def QueryId.ofValue (v : Value) (place : Place) : Except RequestError String :=
  match v.nonemptyText? with
  | none => .error (.notAnId place)
  | some t =>
    match QueryId.ofText? t with
    | some id => .ok id
    | none => .error (.outsideAlphabet place t)

namespace CredentialQuery

/-- The format of a query: a text that is not empty. -/
def readFormat (fields : Fields) (place : Place) : Except RequestError Text :=
  match (fields.get "format").nonemptyText? with
  | none => .error (.noText (place.field "format"))
  | some format => .ok format

/-- The metadata of a query: an object; absent or null metadata are empty. -/
def readMetadata (fields : Fields) (place : Place) : Except RequestError Fields :=
  match (fields.get "meta").untie with
  | .null => .ok []
  | .object metadata => .ok metadata
  | _ => .error (.notAnObject (place.field "meta"))

/-- The claims of a query: a list of objects with at least one item, unless they are absent or null. -/
def readClaims (fields : Fields) (place : Place) : Except RequestError (Option (List Fields)) :=
  match (fields.get "claims").untie with
  | .null => .ok none
  | .list (c :: rest) =>
    match (c :: rest).mapM Value.fields? with
    | some claims => .ok (some claims)
    | none => .error (.claimNotAnObject (place.field "claims"))
  | _ => .error (.noItems (place.field "claims"))

/-- Whether several credentials may answer: a boolean, and not when the field is absent.  Null is refused. -/
def readMultiple (fields : Fields) (place : Place) : Except RequestError Bool :=
  match fields.field? "multiple" with
  | none => .ok false
  | some (.bool b) => .ok b
  | some _ => .error (.notABoolean (place.field "multiple"))

/-- A query from the fields of an object. -/
def ofFields (fields : Fields) (place : Place) : Except RequestError CredentialQuery := do
  let id ← QueryId.ofValue (fields.get "id") (place.field "id")
  let format ← readFormat fields place
  let metadata ← readMetadata fields place
  let claims ← readClaims fields place
  let multiple ← readMultiple fields place
  return ⟨id, format, metadata, claims, .bool multiple⟩

/-- A query from decoded data. -/
def ofValue (v : Value) (place : Place) : Except RequestError CredentialQuery :=
  match v.untie with
  | .object fields => ofFields fields place
  | _ => .error (.notAnObject place)

end CredentialQuery

/-- A catalogue from decoded data: a list of queries, at least one, with distinct ids. -/
def Catalogue.ofValue (v : Value) : Except RequestError Catalogue :=
  match v.untie with
  | .list (item :: rest) => do
    let queries ← readEach (fun i v => CredentialQuery.ofValue v ((Place.top "credentials").item i)) 0 (item :: rest)
    Catalogue.ofList queries
  | _ => .error (.noItems (.top "credentials"))

/-- A combination from decoded data: a list of ids, at least one. -/
def Combination.ofValue (v : Value) (place : Place) : Except RequestError Combination :=
  match v.untie with
  | .list (item :: rest) => do
    let ids ← readEach (fun _ v => QueryId.ofValue v place) 0 (item :: rest)
    Combination.ofIds ids
  | _ => .error (.noIds place)

namespace CredentialSet

/-- The options of a set: a list of combinations, at least one. -/
def readOptions (fields : Fields) (place : Place) : Except RequestError (List Combination) :=
  match (fields.get "options").untie with
  | .list (item :: rest) =>
    readEach (fun i v => Combination.ofValue v ((place.field "options").item i)) 0 (item :: rest)
  | _ => .error (.noItems (place.field "options"))

/-- The required flag of a set: a boolean; an absent flag and null mean required. -/
def readRequired (fields : Fields) (place : Place) : Except RequestError Bool :=
  match fields.get "required" with
  | .null => .ok true
  | .bool b => .ok b
  | _ => .error (.notABoolean (place.field "required"))

/-- A set from the fields of an object. -/
def ofFields (fields : Fields) (place : Place) : Except RequestError CredentialSet := do
  let options ← readOptions fields place
  let required ← readRequired fields place
  ofOptions options (.bool required) (fields.get "purpose")

/-- A set from decoded data. -/
def ofValue (v : Value) (place : Place) : Except RequestError CredentialSet :=
  match v.untie with
  | .object fields => ofFields fields place
  | _ => .error (.notAnObject place)

end CredentialSet

/-- A grouping from decoded data: null, or a list of sets. -/
def Grouping.ofValue (v : Value) : Except RequestError Grouping :=
  match v.untie with
  | .null => .ok none
  | .list items => do
    let sets ← readEach (fun i v => CredentialSet.ofValue v ((Place.top "credential_sets").item i)) 0 items
    return some sets
  | _ => .error (.notAList (.top "credential_sets"))

namespace Request

/-- The object that holds the request: the value itself, or what it carries under `dcql_query`. -/
def body (v : Value) : Except RequestError Fields :=
  match v.untie with
  | .object fields =>
    match Fields.field? fields "dcql_query" with
    | none => .ok fields
    | some carried =>
      match carried.fields? with
      | some inner => .ok inner
      | none => .error (.notAnObject (.top "dcql_query"))
  | _ => .error .requestNotAnObject

/-- A request from the fields of its body. -/
def ofFields (fields : Fields) : Except RequestError Request := do
  let catalogue ← Catalogue.ofValue (fields.get "credentials")
  let grouping ← Grouping.ofValue (fields.get "credential_sets")
  ofParts catalogue grouping

/-- A request from decoded data. -/
def ofValue (v : Value) : Except RequestError Request := do
  let fields ← body v
  ofFields fields

end Request

end Disclosure
