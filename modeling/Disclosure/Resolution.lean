import Disclosure.LogRecord
import Disclosure.Request

/-!
# Disclosure.Resolution — which queries are disclosed

`resolve` decides a request for a wallet that can answer the queries whose ids are `available`.

* Without grouping every query of the catalogue is needed: all of them are selected, or none.
* With a grouping each set contributes its first combination whose ids are all available.  A required set without
  one ends the resolution with nothing selected; an optional one is skipped.

A `Resolution` holds what is selected and the events of the decision, in order.  An empty selection means that the
request cannot be satisfied.
-/

namespace Disclosure

/-- The selected queries by id, in the order of their first selection. -/
abbrev Selection := OrderedMap CredentialQuery

/-- What happens while a request is resolved. -/
inductive Event where
  /-- The set contributes this option. -/
  | chosen (set : Nat) (option : Combination)
  /-- The set is optional and contributes nothing. -/
  | skipped (set : Nat)
  /-- The set is required and has no satisfied option. -/
  | refused (set : Nat)
  /-- These ids of a catalogue without grouping are not available. -/
  | missing (ids : List String)
deriving DecidableEq

namespace Event

/-- The channel of resolution records. -/
def channel : String := "dcqlmatch.core.matching"

/-- Failures are of interest, the rest is detail. -/
def level : Event → Level
  | .chosen .. | .skipped _ => .debug
  | .refused _ | .missing _ => .info

/-- The wording of each event. -/
def message : Event → String
  | .chosen set option =>
    "credential set " ++ Nat.repr set ++ " satisfied by option [" ++ ", ".intercalate option.ids ++ "]"
  | .skipped set => "skipping optional credential set " ++ Nat.repr set ++ ": no satisfied option"
  | .refused set =>
    "request cannot be satisfied: required credential set " ++ Nat.repr set ++ " has no satisfied option"
  | .missing ids => "request cannot be satisfied: missing credentials " ++ ", ".intercalate ids

/-- The event as a log record. -/
def record (e : Event) : LogRecord := ⟨e.level, channel, e.message⟩

end Event

/-- What is selected, and how it came about. -/
structure Resolution where
  selection : Selection
  events : List Event

namespace Resolution

/-- Whether the request is satisfied: something is selected. -/
def isSatisfied (r : Resolution) : Bool := !r.selection.isEmpty

/-- The records of the events. -/
def log (r : Resolution) : List LogRecord := r.events.map Event.record

/-- Nothing selected, because of one event. -/
def refusal (e : Event) : Resolution := ⟨∅, [e]⟩

/-- The same decision after an event. -/
def after (e : Event) (r : Resolution) : Resolution := ⟨r.selection, e :: r.events⟩

end Resolution

/-- Selects the queries with the given ids, one after another. -/
def Selection.addAll (catalogue : Catalogue) (selected : Selection) (ids : List String) : Selection :=
  ids.foldl (fun m id => match catalogue.get? id with
    | some q => m.put id q
    | none => m) selected

/-- Without grouping: the whole catalogue when every id is available, else nothing. -/
def resolveAll (catalogue : Catalogue) (available : String → Bool) : Resolution :=
  match catalogue.ids.filter (fun id => !available id) with
  | [] => ⟨catalogue.toMap, []⟩
  | missing => .refusal (.missing missing)

/-- With a grouping: the sets from number `index` on, with `selected` chosen by the sets before them. -/
def resolveSets (catalogue : Catalogue) (available : String → Bool) :
    Nat → Selection → List CredentialSet → Resolution
  | _, selected, [] => ⟨selected, []⟩
  | index, selected, s :: rest =>
    match s.choice? available with
    | some option =>
      (resolveSets catalogue available (index + 1) (Selection.addAll catalogue selected option.ids) rest).after
        (.chosen index option)
    | none =>
      if s.required then .refusal (.refused index)
      else (resolveSets catalogue available (index + 1) selected rest).after (.skipped index)

/-- The decision for a catalogue and a grouping that names only ids of the catalogue. -/
def resolveKnown (catalogue : Catalogue) (grouping : Grouping) (available : String → Bool) : Resolution :=
  match grouping with
  | none => resolveAll catalogue available
  | some sets => resolveSets catalogue available 0 ∅ sets

/-- The decision for any catalogue and grouping; an option that names an unknown id is refused first. -/
def resolve (catalogue : Catalogue) (grouping : Grouping) (available : String → Bool) :
    Except RequestError Resolution :=
  match firstUnknown? catalogue grouping with
  | some r => .error (.unknownReference r)
  | none => .ok (resolveKnown catalogue grouping available)

/-- The decision for a request. -/
def Request.resolve (r : Request) (available : String → Bool) : Resolution :=
  resolveKnown r.catalogue r.grouping available

/-- A request never names unknown ids, so its resolution is never refused. -/
theorem resolve_eq_ok (r : Request) (available : String → Bool) :
    Disclosure.resolve r.catalogue r.grouping available = .ok (r.resolve available) := by
  simp [Disclosure.resolve, r.references_known, Request.resolve]

end Disclosure
