import Disclosure.Resolution
import Disclosure.Value.Json

/-!
# Disclosure.Report.Disclosed — a resolution as data
-/

namespace Disclosure

/-- Whether the request is satisfied, and the selected queries by id. -/
def Resolution.toValue (r : Resolution) : Value :=
  .object
    [(.text "satisfied", .bool r.isSatisfied),
     (.text "credentials", .object (r.selection.entries.map (fun (id, q) => (.text id, q.toValue))))]

/-- The resolution as JSON, if it can be written. -/
def Resolution.json (r : Resolution) : Except Unwritable String := r.toValue.json

end Disclosure
