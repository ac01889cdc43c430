import Disclosure.Text.Base64
import Disclosure.Yaml.Tag

/-!
# Disclosure.Yaml.Meaning — what texts stand for

Under the tag of a scalar a text stands for a datum, or for none: a text that is tagged as a number need not be a
numeral.

* `isSome_datum?_iff`: exactly the tags of scalars give a text a meaning.
-/

namespace Disclosure.Yaml

/-- The characters of a text, with a character that is part of no numeral and no word for each surrogate. -/
def characters (t : Text) : List Char := t.map (fun p => p.char?.getD '\ufffd')

/-- The bytes that a text of ASCII characters stands for. -/
def bytesOf (t : Text) : Except Cause (List UInt8) :=
  let cs := characters t
  if cs.all (fun c => c.toNat < 0x80) then
    match Base64.decode? cs with
    | some b => .ok b
    | none => .error .badBytes
  else .error .badBytes

/-- A datum, or the cause that is the flaw. -/
def checked {α : Type} (f : α → Scalar) : Except Flaw α → Except Cause Scalar
  | .ok a => .ok (f a)
  | .error flaw => .error (.flaw flaw)

/-- The boolean that a word in any case stands for. -/
def boolean (cs : List Char) : Except Flaw Bool :=
  match booleanWords.lookup (String.ofList (cs.map Char.toLower)) with
  | some b => .ok b
  | none => .error .noBoolean

/-- The datum that a text stands for under a tag, if it is the tag of a scalar; `origin` is the place of the text. -/
def datum? (tag : Tag) (origin : Nat) (t : Text) : Option (Except Cause Scalar) :=
  let cs := characters t
  match tag with
  | .null => some (.ok .null)
  | .bool => some (checked .bool (boolean cs))
  | .int => some (checked .int (integer cs))
  | .float => some (checked id (float origin cs))
  | .timestamp => some (checked id (timestamp cs))
  | .text => some (.ok (.text t))
  | .bytes => some ((bytesOf t).map .bytes)
  | _ => none

/-- The tags of scalars. -/
def Tag.isScalar (tag : Tag) : Bool :=
  [Tag.null, .bool, .int, .float, .timestamp, .text, .bytes].contains tag

theorem isSome_datum?_iff {tag : Tag} {origin : Nat} {t : Text} :
    (datum? tag origin t).isSome = true ↔ tag.isScalar = true := by
  cases tag <;> simp [datum?, Tag.isScalar]

end Disclosure.Yaml
