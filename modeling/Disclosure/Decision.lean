import Disclosure.Availability
import Disclosure.Resolution

/-!
# Disclosure.Decision — a request against a wallet

`Request.decide` finds out which queries the wallet answers, adds the ids that count as available anyway, and
resolves the request.
-/

namespace Disclosure

/-- The available ids, each once, and the resolution for them. -/
structure Decision where
  available : List String
  resolution : Resolution

/-- The ids that the wallet answers and the ids that count as available anyway, each once. -/
def Request.availableIds (r : Request) (wallet : Wallet) (marked : List String) :
    Except RequestError (List String) := do
  let answered ← r.catalogue.available wallet
  return firstSeen (answered ++ marked)

/-- The decision on a request for the documents of a wallet. -/
def Request.decide (r : Request) (wallet : Wallet) (marked : List String) : Except RequestError Decision := do
  let available ← r.availableIds wallet marked
  return ⟨available, r.resolve (fun id => available.contains id)⟩

end Disclosure
