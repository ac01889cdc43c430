import Disclosure.Value.Equality

/-!
# Disclosure.CredentialQuery — one credential that a verifier asks for

A credential query names a credential format and may narrow it by metadata and claims.  `toValue` writes it the way
a request holds it: metadata only when there are some, claims only when they are given, and the flag for several
credentials only when it is set.
-/

namespace Disclosure

/-- One credential that a verifier asks for. -/
structure CredentialQuery where
  id : String
  format : Text
  metadata : Fields := []
  claims : Option (List Fields) := none
  multiple : Value := .bool false
deriving Inhabited

namespace CredentialQuery

/-- The fields of the query in a request. -/
def toFields (q : CredentialQuery) : Fields :=
  [(.text "id", .text q.id), (.text "format", .text q.format)]
    ++ (if q.metadata.isEmpty then [] else [(.text "meta", .object q.metadata)])
    ++ (match q.claims with
        | none => []
        | some claims => [(.text "claims", .list (claims.map .object))])
    ++ (if q.multiple.isBlank then [] else [(.text "multiple", .bool true)])

/-- The query as an object of a request. -/
def toValue (q : CredentialQuery) : Value := .object q.toFields

/-- Claims say the same when both are absent or both are present and equal one by one. -/
def equivClaims : Option (List Fields) → Option (List Fields) → Bool
  | none, none => true
  | some a, some b => Value.equivItems (a.map .object) (b.map .object)
  | _, _ => false

/-- Two queries say the same when all five parts do. -/
def equiv (a b : CredentialQuery) : Bool :=
  a.id == b.id && a.format == b.format && (Value.object a.metadata).equiv (.object b.metadata)
    && equivClaims a.claims b.claims && a.multiple.equiv b.multiple

/-- Whether two queries agree in the parts that decide in which bucket of a hash table a query falls. -/
def sharesBucket (a b : CredentialQuery) : Bool :=
  a.id == b.id && a.format == b.format && a.multiple.equiv b.multiple

end CredentialQuery

end Disclosure
