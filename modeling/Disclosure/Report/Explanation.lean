import Disclosure.Availability
import Disclosure.Report.IdList
import Disclosure.Request.Summary
import Disclosure.Terminal

/-!
# Disclosure.Report.Explanation — a request put into words

The credentials of the catalogue, with the documents that answer them if a wallet is known; the credential sets; and
the credentials that no set names.
-/

namespace Disclosure

/-- The documents that answer a query, after its line. -/
def answersShown : List Document → List Span
  | [] => [.plain "  ", .yellow "(no matching document)"]
  | d :: rest => [.plain "  <- ", .green ((Text.ofString ", ").intercalate ((d :: rest).map Document.text))]

/-- The line of a query: id, format, and the documents that answer it if a wallet is known. -/
def CredentialQuery.line (q : CredentialQuery) (wallet : Option Wallet) : Except RequestError Line := do
  let head : Line := [.plain ("  " ++ q.id ++ "  " : String), .dim q.format]
  match wallet with
  | none => return head
  | some documents =>
    let found ← q.answers documents
    if found.all Document.isShowable then return head ++ answersShown found else throw (.typeNotShowable q.id)

/-- The lines of the queries up to the first that cannot be used, and the reason for that one. -/
def queryLines (wallet : Option Wallet) : List CredentialQuery → List Line × Option RequestError
  | [] => ([], none)
  | q :: rest =>
    match q.line wallet with
    | .error e => ([], some e)
    | .ok line =>
      let (lines, stopped) := queryLines wallet rest
      (line :: lines, stopped)

/-- The credentials under their heading. -/
def Request.credentialLines (r : Request) (wallet : Option Wallet) : List Line × Option RequestError :=
  let (lines, stopped) := queryLines wallet r.catalogue.entries
  ([.bold "Credentials:"] :: lines, stopped)

/-- The first set whose purpose cannot be shown. -/
def Request.hiddenPurpose? (r : Request) : Option Nat :=
  (r.grouping.getD []).findIdx? (fun s => !s.purpose.isShowable)

/-- The heading of the credential sets. -/
def setHeading : List Line := [[], [.bold "Credential sets:"]]

/-- The credential sets under their heading, and the ids that none of them names. -/
def Request.setLines (r : Request) : List Line :=
  let ignored := r.unreferencedIds
  setHeading ++ r.summary.map (fun t => Line.ofText (Text.ofString "  " ++ t))
    ++ (if ignored.isEmpty then []
        else [[], [.yellow ("Not referenced by any credential set (ignored): " ++ idList "none" ignored : String)]])

end Disclosure
