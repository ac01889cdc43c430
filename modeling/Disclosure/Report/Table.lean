import Disclosure.Decision
import Disclosure.Report.IdList
import Disclosure.Terminal

/-!
# Disclosure.Report.Table — a decision as a table

One row for each query of the catalogue: id, format, whether it is available, whether it is selected.  The first
three columns have a fixed width, wide enough for the heading and for every row.
-/

namespace Disclosure

/-- A text with blanks after it, so that it is at least `width` code points long. -/
def padded (width : Nat) (t : Text) : Text := t ++ List.replicate (width - t.length) (.char ' ')

/-- The length of the longest text, and at least `least`. -/
def columnWidth (least : Nat) (texts : List Text) : Nat := (texts.map List.length).foldl max least

/-- Yes or no. -/
def yesNo (b : Bool) : Text := if b then "yes" else "no"

/-- Two blanks between columns. -/
def columnGap : Text := "  "

/-- The widths of the padded columns. -/
structure Columns where
  id : Nat
  format : Nat
  available : Nat
deriving Repr, DecidableEq

namespace Columns

/-- The columns for a catalogue. -/
def ofCatalogue (c : Catalogue) : Columns :=
  { id := columnWidth 8 (c.ids.map Text.ofString)
    format := columnWidth 6 (c.entries.map CredentialQuery.format)
    available := 9 }

/-- The heading. -/
def header (l : Columns) : Text :=
  padded l.id "Query ID" ++ columnGap ++ padded l.format "Format" ++ columnGap ++ padded l.available "Available"
    ++ columnGap ++ Text.ofString "Selected"

/-- The row of a query. -/
def row (l : Columns) (d : Decision) (q : CredentialQuery) : Line :=
  let id := padded l.id q.id
  let format := padded l.format q.format
  let available := padded l.available (yesNo (d.available.contains q.id))
  if (d.resolution.selection.get? q.id).isSome then
    [.green id, .plain (columnGap ++ format ++ columnGap ++ available ++ columnGap), .cyan "yes"]
  else
    [.dim id, .plain columnGap, .dim format, .plain columnGap, .dim available, .plain (columnGap ++ Text.ofString "no")]

end Columns

/-- The table: heading, rule, rows, and a total after an empty line. -/
def Decision.table (d : Decision) (c : Catalogue) : List Line :=
  let columns := Columns.ofCatalogue c
  [[.bold columns.header], [.dim (List.replicate columns.header.length (.char '-'))]]
    ++ c.entries.map (columns.row d)
    ++ [[], [.dim ("Total: " ++ Nat.repr c.size ++ " requested (" ++ Nat.repr d.resolution.selection.size
          ++ " selected for disclosure)" : String)]]

end Disclosure
