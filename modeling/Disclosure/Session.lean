import Disclosure.Decision
import Disclosure.Loading
import Disclosure.Request.Summary

/-!
# Disclosure.Session — a wallet at work

A session holds the request under consideration, the documents of the wallet, and the ids that are marked as
available.  `Session.step` takes one step: it gives an answer and the next session, and a step that fails leaves the
session as it was.
-/

namespace Disclosure

/-- The request, the documents, and the marked ids. -/
structure Session where
  request : Request := .empty
  documents : Wallet := []
  marked : List String := []

namespace Session

/-- What can be done in a session. -/
inductive Step where
  /-- Take another request. -/
  | consider (data : Value)
  /-- Take another wallet. -/
  | load (data : Value)
  /-- Add a document. -/
  | hold (document : Document)
  /-- Remove the documents with this id. -/
  | drop (id : String)
  /-- Mark an id as available. -/
  | mark (id : String)
  /-- Remove every mark of an id. -/
  | unmark (id : String)
  /-- Ask which documents answer each query. -/
  | matching
  /-- Decide the request. -/
  | resolve

/-- What a step answers. -/
inductive Answer where
  | summary (lines : List Text)
  | held (ids : List Text)
  | marked (ids : List String)
  | matching (byQuery : List (String × List Text))
  | decided (decision : Decision)

/-- The ids of the documents. -/
def heldIds (s : Session) : List Text := s.documents.map Document.id

/-- The documents that answer each query, by their ids. -/
def matchingIds (s : Session) : Except RequestError (List (String × List Text)) :=
  readEach (fun _ q => (CredentialQuery.answers q s.documents).map (fun found => (q.id, found.map Document.id))) 0
    s.request.catalogue.entries

/-- The answer to a step, with the session after it, or why the step fails. -/
def attempt (s : Session) : Step → Except Failure (Answer × Session)
  | .consider data => do
    let request ← (Request.ofValue data).mapError Failure.request
    return (.summary request.summary, { s with request })
  | .load data => do
    let documents ← (Wallet.ofValue data).mapError Failure.wallet
    let next : Session := { s with documents }
    return (.held next.heldIds, next)
  | .hold document =>
    let next : Session := { s with documents := s.documents ++ [document] }
    .ok (.held next.heldIds, next)
  | .drop id =>
    let next : Session := { s with documents := s.documents.filter (fun d => !(d.id == Text.ofString id)) }
    .ok (.held next.heldIds, next)
  | .mark id =>
    let next : Session := { s with marked := s.marked ++ [id] }
    .ok (.marked next.marked, next)
  | .unmark id =>
    let next : Session := { s with marked := s.marked.filter (fun m => !(m == id)) }
    .ok (.marked next.marked, next)
  | .matching => do
    let found ← s.matchingIds.mapError Failure.request
    return (.matching found, s)
  | .resolve => do
    let decision ← (s.request.decide s.documents s.marked).mapError Failure.request
    return (.decided decision, s)

/-- One step: a step that fails leaves the session as it was. -/
def step (s : Session) (x : Step) : Except Failure Answer × Session :=
  match s.attempt x with
  | .error f => (.error f, s)
  | .ok (answer, next) => (.ok answer, next)

/-- The answers to several steps, one after another. -/
def run : Session → List Step → List (Except Failure Answer)
  | _, [] => []
  | s, x :: rest => (s.step x).1 :: run (s.step x).2 rest

end Session

end Disclosure
