import Disclosure.Text

/-!
# Disclosure.Yaml.Lexeme — the marks and texts of a file

A file is read as a list of lexemes.  Besides what is written, the list says where collections that are shown by
indentation start and end, and which texts are field names.
-/

namespace Disclosure.Yaml

/-- A mark, a text, or a border that indentation shows. -/
inductive Token where
  | version (major : Nat)
  | tagPrefix (handle : String) (meaning : String)
  | otherDirective
  | documentStart
  | documentEnd
  | blockListStart
  | blockObjectStart
  | blockEnd
  | openList
  | closeList
  | openObject
  | closeObject
  | comma
  | dash
  | key
  | colon
  | alias (name : String)
  | anchor (name : String)
  | tag (handle : Option String) (suffix : String)
  | text (t : Text) (plain : Bool)
  | fileEnd
deriving Repr, DecidableEq

/-- A token and its line. -/
structure Lexeme where
  token : Token
  line : Nat
deriving Repr

/-- What is called out of place in a fault. -/
def Token.describe : Token → String
  | .version _ | .tagPrefix .. | .otherDirective => "a directive"
  | .documentStart => "a document start"
  | .documentEnd => "a document end"
  | .blockListStart => "a list"
  | .blockObjectStart => "an object"
  | .blockEnd => "the end of a block"
  | .openList => "an opening bracket"
  | .closeList => "a closing bracket"
  | .openObject => "an opening brace"
  | .closeObject => "a closing brace"
  | .comma => "a comma"
  | .dash => "a list mark"
  | .key => "a field name"
  | .colon => "a colon"
  | .alias name => "the alias '" ++ name ++ "'"
  | .anchor name => "the anchor '" ++ name ++ "'"
  | .tag .. => "a tag"
  | .text .. => "a text"
  | .fileEnd => "the end of the file"

end Disclosure.Yaml
