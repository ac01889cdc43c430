import Disclosure.Text

/-!
# Disclosure.QueryId — the alphabet of query ids

A query id consists of ASCII letters, ASCII digits, `_` and `-`, at least one of them; one line end is allowed after
them.
-/

namespace Disclosure.QueryId

/-- An ASCII letter, an ASCII digit, `_` or `-`. -/
def isIdChar (c : Char) : Bool := c.isAlphanum || c == '_' || c == '-'

/-- Some id characters, perhaps followed by one line end. -/
def isWritten (chars : List Char) : Bool :=
  let body := if chars.getLast? = some '\n' then chars.dropLast else chars
  !body.isEmpty && body.all isIdChar

/-- Whether a string is a query id. -/
def isValid (s : String) : Bool := isWritten s.toList

/-- The query id that a text spells. -/
def ofText? (t : Text) : Option String := t.toString?.filter isValid

example : isWritten ['a', '-', '_', '9'] = true ∧ isWritten ['a', '\n'] = true := by decide
example : isWritten [] = false ∧ isWritten ['\n'] = false ∧ isWritten ['a', '\n', '\n'] = false := by decide
example : isWritten ['a', ' ', 'b'] = false ∧ isWritten ['é'] = false := by decide

end Disclosure.QueryId
