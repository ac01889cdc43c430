import Disclosure.Request

/-!
# Disclosure.Request.Writer — requests as data

`Request.toValue` writes a request as the object that a request file holds.  A request without grouping has no
`credential_sets` field; the sets of a grouping are written with all three fields.
-/

namespace Disclosure

/-- The ids as a list of texts. -/
def Combination.toValue (o : Combination) : Value := .list (o.ids.map (fun (id : String) => .text id))

/-- Options, required flag and purpose. -/
def CredentialSet.toValue (s : CredentialSet) : Value :=
  .object
    [(.text "options", .list (s.options.map Combination.toValue)), (.text "required", .bool s.required),
     (.text "purpose", s.purpose)]

/-- The list of sets, or null. -/
def Grouping.toValue : Grouping → Value
  | none => .null
  | some sets => .list (sets.map CredentialSet.toValue)

/-- The list of queries. -/
def Catalogue.toValue (c : Catalogue) : Value := .list (c.entries.map CredentialQuery.toValue)

/-- The fields of a request: the catalogue, and the sets if there is a grouping. -/
def Request.toFields (r : Request) : Fields :=
  (.text "credentials", r.catalogue.toValue) ::
    (match r.grouping with
      | none => []
      | some sets => [(.text "credential_sets", Grouping.toValue (some sets))])

/-- The request as an object. -/
def Request.toValue (r : Request) : Value := .object r.toFields

end Disclosure
