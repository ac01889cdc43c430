/-!
# Disclosure.Report.IdList — ids in a row
-/

namespace Disclosure

/-- The ids sorted by their characters, with commas between them; the text `empty` when there is none. -/
def idList (empty : String) (ids : List String) : String :=
  if ids.isEmpty then empty else ", ".intercalate (ids.mergeSort (fun a b => a ≤ b))

end Disclosure
