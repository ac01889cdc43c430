import Disclosure.Text.Hex
import Disclosure.Text.Invisible

/-!
# Disclosure.Text.Quoted — texts between quotes

A text is quoted with `'`, unless it holds a `'` and no `"`.  A backslash and the quote in use are escaped, and
invisible characters and surrogates are shown by name or by their code.
-/

namespace Disclosure.Text

/-- The quote that a text is put between. -/
def quoteMark (t : Text) : Char := if t.contains (.char '\'') && !t.contains (.char '"') then '"' else '\''

/-- A character inside quotes. -/
def escapeChar (mark c : Char) : List Char :=
  if c = mark || c = '\\' then ['\\', c]
  else if c = '\n' then ['\\', 'n']
  else if c = '\r' then ['\\', 'r']
  else if c = '\t' then ['\\', 't']
  else if !isInvisible c then [c]
  else if c.toNat < 0x100 then ['\\', 'x'] ++ hex 2 c.toNat
  else if c.toNat < 0x10000 then escaped c.toNat
  else ['\\', 'U'] ++ hex 8 c.toNat

/-- A code point inside quotes. -/
def escapePoint (mark : Char) : CodePoint → List Char
  | .char c => escapeChar mark c
  | .surrogate offset => escaped (0xd800 + offset.val)

/-- A text between quotes. -/
def quoted (t : Text) : String :=
  let mark := quoteMark t
  String.ofList (mark :: t.flatMap (escapePoint mark) ++ [mark])

end Disclosure.Text
