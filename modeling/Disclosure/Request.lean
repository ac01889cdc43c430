import Disclosure.Catalogue
import Disclosure.CredentialSet

/-!
# Disclosure.Request — what a verifier asks for

A request is a catalogue with an optional grouping whose options name only ids of the catalogue.

* `firstUnknown?` is the first reference, by set, option and position, to an id that the catalogue does not have.
* `Request.unreferencedIds` are the ids that no set of the grouping names: they have no part in a decision.
-/

namespace Disclosure

/-- The first reference to an id outside the catalogue. -/
def firstUnknown? (catalogue : Catalogue) : Grouping → Option Reference
  | none => none
  | some sets => (references sets).find? (fun r => !catalogue.ids.contains r.id)

/-- A catalogue and its grouping; the options name only ids of the catalogue. -/
structure Request where
  catalogue : Catalogue
  grouping : Grouping
  references_known : firstUnknown? catalogue grouping = none

namespace Request

/-- A request of the given parts, unless an option names an unknown id. -/
def ofParts (catalogue : Catalogue) (grouping : Grouping) : Except RequestError Request :=
  match h : firstUnknown? catalogue grouping with
  | some r => .error (.unknownReference r)
  | none => .ok ⟨catalogue, grouping, h⟩

/-- A request for nothing: an empty catalogue without grouping. -/
def empty : Request := ⟨.empty, none, rfl⟩

instance : Inhabited Request := ⟨empty⟩

/-- The ids of the catalogue that no set of the grouping names; none when there is no grouping. -/
def unreferencedIds (r : Request) : List String :=
  match r.grouping with
  | none => []
  | some sets => r.catalogue.ids.filter (fun id => !(sets.flatMap CredentialSet.referencedIds).contains id)

@[ext]
theorem ext {a b : Request} (hc : a.catalogue = b.catalogue) (hg : a.grouping = b.grouping) : a = b := by
  cases a; cases b; cases hc; cases hg; rfl

end Request

end Disclosure
