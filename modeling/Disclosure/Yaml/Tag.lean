import Disclosure.Yaml.Numeral
import Disclosure.Yaml.Timestamp

/-!
# Disclosure.Yaml.Tag — what kind of data a node stands for

A tag says what a node is.  A plain text without a tag has the tag that its form shows: null, a boolean, a number, a
date or a time, or the text itself.  Two plain texts are marks: `<<` names the objects that are merged into an object,
and `=` names the text that an object can give instead of itself.

* `Tag.ofForm` is the tag that a plain text shows, `Tag.ofName` the one that is written.
-/

namespace Disclosure.Yaml

/-- Kinds of nodes. -/
inductive Tag where
  | null
  | bool
  | int
  | float
  | timestamp
  | text
  | bytes
  | list
  | object
  | set
  /-- A list of pairs, each written as an object with one field. -/
  | pairs
  /-- The mark of the objects that are merged into an object. -/
  | merge
  /-- The mark of the text that an object can give instead of itself. -/
  | self
  | other (name : String)
deriving Repr, DecidableEq

/-- The words for null. -/
def nullWords : List String := ["", "~", "null", "Null", "NULL"]

/-- The words for the booleans. -/
def booleanWords : List (String × Bool) :=
  [("yes", true), ("Yes", true), ("YES", true), ("no", false), ("No", false), ("NO", false),
   ("true", true), ("True", true), ("TRUE", true), ("false", false), ("False", false), ("FALSE", false),
   ("on", true), ("On", true), ("ON", true), ("off", false), ("Off", false), ("OFF", false)]

namespace Tag

/-- The names of the common tags after their prefix. -/
def commonNames : List (String × Tag) :=
  [("null", .null), ("bool", .bool), ("int", .int), ("float", .float), ("timestamp", .timestamp), ("str", .text),
   ("binary", .bytes), ("seq", .list), ("map", .object), ("set", .set), ("omap", .pairs), ("pairs", .pairs),
   ("merge", .merge), ("value", .self)]

/-- The prefix of the common tags. -/
def commonPrefix : String := "tag:yaml.org,2002:"

/-- The tag with the given name. -/
def ofName (name : String) : Tag :=
  match commonNames.find? (fun e => commonPrefix ++ e.1 = name) with
  | some (_, tag) => tag
  | none => .other name

/-- The tag that the form of a text shows.  A line end at the end of a longer text does not change its form. -/
def ofForm (cs : List Char) : Tag :=
  let form := if cs = ['\n'] then cs else Text.withoutLineEnd cs
  let word := String.ofList form
  if nullWords.contains word then .null
  else if (booleanWords.lookup word).isSome then .bool
  else if isFloat form then .float
  else if isInteger form then .int
  else if word = "<<" then .merge
  else if isTimestamp form then .timestamp
  else if word = "=" then .self
  else if ["!", "&", "*"].contains word then .other (commonPrefix ++ "yaml")
  else .text

/-- The tag that the form of a text shows; a text with a surrogate shows none. -/
def ofText (t : Text) : Tag :=
  match t.mapM CodePoint.char? with
  | some cs => ofForm cs
  | none => .text

end Tag

end Disclosure.Yaml
