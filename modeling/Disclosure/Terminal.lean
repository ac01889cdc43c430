import Disclosure.Text.Control

/-!
# Disclosure.Terminal — lines with coloured parts

A line is a list of spans, each with a style.  Styles become escape codes only when colours are on; without colours a
line is the text of its spans.
-/

namespace Disclosure

/-- How a part of a line is shown. -/
inductive Style where
  | plain
  | bold
  | dim
  | green
  | yellow
  | cyan
deriving Repr, DecidableEq

/-- The code that switches a style on; plain text has none. -/
def Style.code? : Style → Option String
  | .plain => none
  | .bold => some "\x1b[1m"
  | .dim => some "\x1b[2m"
  | .green => some "\x1b[92m"
  | .yellow => some "\x1b[93m"
  | .cyan => some "\x1b[96m"

/-- The code that switches all styles off. -/
def resetCode : String := "\x1b[0m"

/-- A text in one style. -/
structure Span where
  style : Style
  text : Text
deriving DecidableEq

/-- A line of output without its line end. -/
abbrev Line := List Span

namespace Span

/-- Text without style. -/
def plain (t : Text) : Span := ⟨.plain, t⟩

/-- Bold text. -/
def bold (t : Text) : Span := ⟨.bold, t⟩

/-- Dim text. -/
def dim (t : Text) : Span := ⟨.dim, t⟩

/-- Green text. -/
def green (t : Text) : Span := ⟨.green, t⟩

/-- Yellow text. -/
def yellow (t : Text) : Span := ⟨.yellow, t⟩

/-- Cyan text. -/
def cyan (t : Text) : Span := ⟨.cyan, t⟩

/-- The span with its codes around it when colours are on. -/
def render (colour : Bool) (s : Span) : Text :=
  match colour, s.style.code? with
  | true, some code => Text.ofString code ++ s.text ++ Text.ofString resetCode
  | _, _ => s.text

end Span

namespace Line

/-- A line of plain text. -/
def ofText (t : Text) : Line := [.plain t]

/-- The spans one after another. -/
def render (colour : Bool) (line : Line) : Text := List.flatMap (Span.render colour) line

/-- Whether a line can be printed. -/
def isPrintable (line : Line) : Bool := List.all line (fun s => s.text.isPrintable)

/-- Several lines, each with its line end. -/
def renderAll (colour : Bool) (lines : List Line) : Text :=
  lines.flatMap (fun line => Line.render colour line ++ Text.ofString "\n")

end Line

end Disclosure
