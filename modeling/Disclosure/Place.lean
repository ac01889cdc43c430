/-!
# Disclosure.Place — positions inside a request

A place is a named top, an item of a list at a place, or a field of an object at a place.  It is written
`credentials[2].id`.
-/

namespace Disclosure

/-- A position inside a request. -/
inductive Place where
  | top (name : String)
  | item (place : Place) (index : Nat)
  | field (place : Place) (name : String)
deriving Repr, DecidableEq, Inhabited

/-- Items in brackets, fields after a point. -/
def Place.text : Place → String
  | .top name => name
  | .item place index => place.text ++ "[" ++ Nat.repr index ++ "]"
  | .field place name => place.text ++ "." ++ name

end Disclosure
