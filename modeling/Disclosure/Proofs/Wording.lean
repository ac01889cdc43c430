import Disclosure.Proofs.Faults

/-!
# Disclosure.Proofs.Wording — what is said about a fault

A fault of an entry, an option or a set is reported with its path, a colon, and what is needed there.  A path is written
from the top: the name of a field after a point, the number of an item between brackets.  Two faults are reported without
a path in front: a repeated id, and a reference to an id that no entry carries, whose option is named by the numbers of
its set and its own.

* `Grammar.Path`: a place and its path.
* `Grammar.Worded`: a fault and the text that reports it.
* `Grammar.QueryFault.worded`, `Grammar.SetFault.worded`: what is wrong with an entry or a set is reported so.
-/

namespace Disclosure

namespace Grammar

/-- A place and its path. -/
inductive Path : Place → String → Prop
  | top (name : String) : Path (.top name) name
  | item {place : Place} {path : String} (of : Path place path) (i : Nat) :
    Path (place.item i) (path ++ "[" ++ Nat.repr i ++ "]")
  | field {place : Place} {path : String} (of : Path place path) (name : String) :
    Path (place.field name) (path ++ "." ++ name)

/-- A fault of a request with a catalogue, and the text that reports it. -/
inductive Worded : RequestError → Text → Prop
  | notAnObject {place : Place} {path : String} (stands : Path place path) :
    Worded (.notAnObject place) (path ++ ": expected an object")
  | notAnId {place : Place} {path : String} (stands : Path place path) :
    Worded (.notAnId place) (path ++ ": query id must be a non-empty string")
  | outsideAlphabet {place : Place} {path : String} (stands : Path place path) (t : Text) :
    Worded (.outsideAlphabet place t)
      (Text.ofString (path ++ ": invalid query id '") ++ t ++ Text.ofString "' (use letters, digits, '_' or '-')")
  | noText {place : Place} {path : String} (stands : Path place path) :
    Worded (.noText place) (path ++ ": expected a non-empty string")
  | notAList {place : Place} {path : String} (stands : Path place path) :
    Worded (.notAList place) (path ++ ": expected a list")
  | noItems {place : Place} {path : String} (stands : Path place path) :
    Worded (.noItems place) (path ++ ": expected a non-empty list")
  | noIds {place : Place} {path : String} (stands : Path place path) :
    Worded (.noIds place) (path ++ ": expected a non-empty list of query ids")
  | claimNotAnObject {place : Place} {path : String} (stands : Path place path) :
    Worded (.claimNotAnObject place) (path ++ ": every claim must be an object")
  | notABoolean {place : Place} {path : String} (stands : Path place path) :
    Worded (.notABoolean place) (path ++ ": expected a boolean")
  | repeatedId (id : String) :
    Worded (.repeatedId id) ("Duplicate credential query id: '" ++ id ++ "'")
  | unknownReference (set option : Nat) (id : String) :
    Worded (.unknownReference ⟨set, option, id⟩)
      (Text.ofString ("credential_sets[" ++ Nat.repr set ++ "].options[" ++ Nat.repr option ++
        "] references unknown credential query id '" ++ id ++ "'"))

end Grammar

/-- The wording names set, option and id. -/
theorem message_unknownReference (i j : Nat) (id : String) :
    (RequestError.unknownReference ⟨i, j, id⟩).message =
      Text.ofString ("credential_sets[" ++ Nat.repr i ++ "].options[" ++ Nat.repr j ++
        "] references unknown credential query id '" ++ id ++ "'") := by
  have htop : "credential_sets[" = "credential_sets" ++ "[" := rfl
  have hfield : "].options[" = "]" ++ ("." ++ ("options" ++ "[")) := rfl
  have hlast : "] references unknown credential query id '" = "]" ++ " references unknown credential query id '" := rfl
  rw [htop, hfield, hlast]
  simp only [RequestError.message, Reference.place, Place.text, Text.ofString_append, List.append_assoc]

namespace Grammar

/-! ### What is reported -/

theorem path_text (place : Place) : Path place place.text := by
  induction place with
  | top name => exact .top name
  | item place i ih => exact ih.item i
  | field place name ih => exact ih.field name

variable {place : Place} {v : Value} {e : RequestError}

theorem QueryFault.worded (h : QueryFault place v e) : Worded e e.message := by
  cases h with
  | notAnObject other => exact .notAnObject (path_text _)
  | field object fault =>
    cases fault with
    | notAnId empty => exact .notAnId (path_text _)
    | outsideAlphabet text nonempty other => exact .outsideAlphabet (path_text _) _
    | noFormat id empty => exact .noText (path_text _)
    | metadata id format given other => exact .notAnObject (path_text _)
    | noClaims id format metadata given empty => exact .noItems (path_text _)
    | claim id format metadata list bad => exact .claimNotAnObject (path_text _)
    | flag id format metadata claims given other => exact .notABoolean (path_text _)

theorem OptionFault.worded (h : OptionFault place v e) : Worded e e.message := by
  cases h with
  | noIds empty => exact .noIds (path_text _)
  | notAnId list first empty => exact .notAnId (path_text _)
  | outsideAlphabet list first nonempty => exact .outsideAlphabet (path_text _) _

theorem SetFault.worded (h : SetFault place v e) : Worded e e.message := by
  cases h with
  | notAnObject other => exact .notAnObject (path_text _)
  | noOptions object empty => exact .noItems (path_text _)
  | option object list first fault => exact fault.worded
  | flag object list nonempty good given other => exact .notABoolean (path_text _)

end Grammar

end Disclosure
