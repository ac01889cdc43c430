import Disclosure.Request

/-!
# Disclosure.Request.Summary — a request in a line for each credential set

Ids that go together stand between plus signs, alternatives between bars, and the purpose of a set after `#`.
-/

namespace Disclosure

/-- One set: its number, whether it is required, its options, and its purpose if there is one. -/
def CredentialSet.summary (s : CredentialSet) (index : Nat) : Text :=
  Text.ofString
      ("set " ++ Nat.repr index ++ (if s.required then " (required): " else " (optional): ")
        ++ " | ".intercalate (s.options.map Combination.text))
    ++ (match s.purpose with
        | .null => []
        | purpose => Text.ofString "  # " ++ purpose.plain)

/-- A line for each set; a single line when there is no set or no grouping. -/
def Request.summary (r : Request) : List Text :=
  match r.grouping with
  | none => ["all required: " ++ " + ".intercalate r.catalogue.ids]
  | some [] => ["empty: nothing is requested"]
  | some (s :: rest) => (s :: rest).zipIdx.map (fun (s, i) => s.summary i)

end Disclosure
