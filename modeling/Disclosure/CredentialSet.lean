import Disclosure.FirstSeen
import Disclosure.Reading
import Disclosure.RequestError

/-!
# Disclosure.CredentialSet — alternatives that a verifier offers

A `Combination` is one option of a credential set: ids that are disclosed together.  A `CredentialSet` offers one or
more combinations in order of preference and says whether one of them is required.  A `Grouping` is the list of the
sets of a request; a request without grouping wants its whole catalogue.

* `Combination.inquire` asks for one id after another and stops at the first that is not available.
* `CredentialSet.choice?` is the first combination whose ids are all available.
* `referencedIds`: the ids that a set names, first occurrences only.
-/

namespace Disclosure

/-- Ids of credentials that are disclosed together; at least one. -/
structure Combination where
  ids : List String
  ids_ne : ids ≠ []
deriving DecidableEq

/-- Which ids were asked for, in order, and whether all of them are available. -/
structure Inquiry where
  asked : List String
  satisfied : Bool
deriving Repr, DecidableEq

namespace Combination

/-- A combination of the given ids, unless there is none. -/
def ofIds (ids : List String) : Except RequestError Combination :=
  if h : ids = [] then .error .emptyOption else .ok ⟨ids, h⟩

/-- Asks for one id after another and stops at the first that is not available. -/
def inquire (available : String → Bool) : List String → Inquiry
  | [] => ⟨[], true⟩
  | id :: rest =>
    if available id then
      let later := inquire available rest
      ⟨id :: later.asked, later.satisfied⟩
    else ⟨[id], false⟩

/-- The inquiry for all ids of the combination. -/
def inquiry (o : Combination) (available : String → Bool) : Inquiry := inquire available o.ids

/-- Whether every id of the combination is available. -/
def isSatisfied (o : Combination) (available : String → Bool) : Bool := (o.inquiry available).satisfied

/-- The ids with a plus sign between them. -/
def text (o : Combination) : String := " + ".intercalate o.ids

@[ext]
theorem ext {a b : Combination} (h : a.ids = b.ids) : a = b := by
  cases a; cases b; cases h; rfl

theorem inquire_satisfied (available : String → Bool) (ids : List String) :
    (inquire available ids).satisfied = ids.all available := by
  induction ids with
  | nil => rfl
  | cons id rest ih =>
    unfold inquire
    by_cases h : available id <;> simp [h, ih]

theorem isSatisfied_iff {o : Combination} {available : String → Bool} :
    o.isSatisfied available = true ↔ ∀ id ∈ o.ids, available id = true := by
  simp [isSatisfied, inquiry, inquire_satisfied]

end Combination

/-- Combinations in order of preference, whether one of them is required, and what for. -/
structure CredentialSet where
  options : List Combination
  options_ne : options ≠ []
  required : Bool
  purpose : Value

namespace CredentialSet

/-- The required flag of a set: null stands for an absent flag, and such a set is required. -/
def readFlag : Value → Except RequestError Bool
  | .null => .ok true
  | .bool b => .ok b
  | flag => .error (.flagNotABoolean flag)

/-- A set with the given options and flag, unless there is no option or the flag is none. -/
def ofOptions (options : List Combination) (flag purpose : Value) : Except RequestError CredentialSet :=
  if h : options = [] then .error .noOptions
  else do
    let required ← readFlag flag
    return ⟨options, h, required, purpose⟩

/-- A set whose options are given as lists of ids. -/
def ofIds (options : List (List String)) (flag purpose : Value) : Except RequestError CredentialSet := do
  let options ← readEach (fun _ ids => Combination.ofIds ids) 0 options
  ofOptions options flag purpose

/-- The first combination whose ids are all available. -/
def choice? (s : CredentialSet) (available : String → Bool) : Option Combination :=
  s.options.find? (fun o => o.isSatisfied available)

/-- The ids that the options name, in the order of their first occurrence. -/
def referencedIds (s : CredentialSet) : List String :=
  s.options.foldl (fun seen o => noteAll seen o.ids) []

@[ext]
theorem ext {a b : CredentialSet} (ho : a.options = b.options) (hr : a.required = b.required)
    (hp : a.purpose = b.purpose) : a = b := by
  cases a; cases b; cases ho; cases hr; cases hp; rfl

end CredentialSet

/-- The credential sets of a request; `none` when the request does not group its catalogue. -/
abbrev Grouping := Option (List CredentialSet)

/-- Every id that an option names, with its set and option: by set, then option, then position. -/
def references (sets : List CredentialSet) : List Reference :=
  sets.zipIdx.flatMap fun (s, i) => s.options.zipIdx.flatMap fun (o, j) => o.ids.map (fun id => ⟨i, j, id⟩)

end Disclosure
