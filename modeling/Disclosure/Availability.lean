import Disclosure.Catalogue
import Disclosure.Wallet

/-!
# Disclosure.Availability — which queries the documents of a wallet answer

A document answers a query of its own format.  A query for a mobile document also names the document type, and a
query for an SD-JWT credential lists the credential types that it accepts; without them the query is refused as soon
as a document of its format is looked at.
-/

namespace Disclosure

/-- The format of mobile documents. -/
def mobileDocumentFormat : Text := "mso_mdoc"

/-- The format of SD-JWT credentials. -/
def sdJwtFormat : Text := "dc+sd-jwt"

/-- The document type that a query for a mobile document names. -/
def CredentialQuery.doctype? (q : CredentialQuery) : Option Text :=
  (q.metadata.get "doctype_value").nonemptyText?

/-- The credential types that a query for an SD-JWT credential accepts; at least one. -/
def CredentialQuery.vctValues? (q : CredentialQuery) : Option (List Value) :=
  match (q.metadata.get "vct_values").untie with
  | .list (v :: rest) => some (v :: rest)
  | _ => none

/-- Whether a document answers a query. -/
def Document.answers (d : Document) (q : CredentialQuery) : Except RequestError Bool :=
  if d.format ≠ q.format then .ok false
  else if q.format = mobileDocumentFormat then
    match q.doctype? with
    | none => .error (.doctypeMissing q.id)
    | some doctype => .ok (d.doctype.equiv (.text doctype))
  else if q.format = sdJwtFormat then
    match q.vctValues? with
    | none => .error (.vctValuesMissing q.id)
    | some accepted =>
      match d.vct.among? accepted with
      | some b => .ok b
      | none => .error (.endlessComparison q.id)
  else .ok true

/-- The documents that answer a query, in the order of the wallet. -/
def CredentialQuery.answers (q : CredentialQuery) : Wallet → Except RequestError (List Document)
  | [] => .ok []
  | d :: rest => do
    let hit ← d.answers q
    let later ← answers q rest
    return if hit then d :: later else later

/-- The ids of the queries that some document answers, in order. -/
def answeredIds (wallet : Wallet) : List CredentialQuery → Except RequestError (List String)
  | [] => .ok []
  | q :: rest => do
    let found ← q.answers wallet
    let later ← answeredIds wallet rest
    return if found.isEmpty then later else q.id :: later

/-- The ids of the catalogue that the wallet has a document for. -/
def Catalogue.available (c : Catalogue) (wallet : Wallet) : Except RequestError (List String) :=
  answeredIds wallet c.entries

end Disclosure
