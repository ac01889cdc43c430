import Disclosure.Proofs.Supported
import Disclosure.Report.Table

/-!
# Disclosure.Proofs.Table — what the table of a decision says

Without colours every line of the table is a text.  Between the heading and the total there is one `Row` for each query
of the catalogue, in order; `Shows` says what the rows have to do with the decision.

* `Decision.render_table`: the table is a heading, the rows and the total.
* `Decision.shows_rows`: the rows show the decision.
* `Decision.isPrintable_table_iff`: the formats decide whether the table can be printed.
-/

namespace Disclosure

/-! ### Texts without colours -/

namespace Text

theorem isPrintable_append {s t : Text} : (s ++ t).isPrintable = (s.isPrintable && t.isPrintable) := by
  simp [isPrintable]

@[simp]
theorem isPrintable_ofString (s : String) : (ofString s).isPrintable = true := isPrintable_iff.2 ⟨s, rfl⟩

theorem isPrintable_replicate (n : Nat) (c : Char) : isPrintable (List.replicate n (.char c)) = true := by
  simp [isPrintable, CodePoint.char?]

end Text

theorem isPrintable_padded (width : Nat) (t : Text) : (padded width t).isPrintable = t.isPrintable := by
  rw [padded, Text.isPrintable_append, Text.isPrintable_replicate, Bool.and_true]

theorem isPrintable_yesNo (b : Bool) : (yesNo b).isPrintable = true := by cases b <;> rfl

theorem Line.render_false (line : Line) : line.render false = line.flatMap Span.text := rfl

/-! ### Rows -/

/-- One row of the table: a query, whether it is available, whether it is selected. -/
structure Row where
  id : String
  format : Text
  available : Bool
  selected : Bool

/-- What stands in the four columns of a line. -/
structure Cells where
  id : Text
  format : Text
  available : Text
  selected : Text

/-- The heading of each column. -/
def Cells.headings : Cells := ⟨"Query ID", "Format", "Available", "Selected"⟩

/-- The cells of a row. -/
def Row.cells (row : Row) : Cells :=
  ⟨row.id, row.format, if row.available then "yes" else "no", if row.selected then "yes" else "no"⟩

/-- A cell with blanks behind it: as many as the column is wider, and two between the columns. -/
def cellText (width : Nat) (t : Text) : Text := t ++ List.replicate (width - t.length + 2) (.char ' ')

/-- The cells in columns of the given widths; nothing follows the last one. -/
def Columns.text (l : Columns) (cells : Cells) : Text :=
  cellText l.id cells.id ++ cellText l.format cells.format ++ cellText l.available cells.available ++ cells.selected

/-- The row of a query. -/
def Decision.row (d : Decision) (q : CredentialQuery) : Row :=
  ⟨q.id, q.format, d.available.contains q.id, d.resolution.selection.keys.contains q.id⟩

theorem cellText_eq_padded (width : Nat) (t : Text) : cellText width t = padded width t ++ columnGap := by
  have hgap : columnGap = List.replicate 2 (.char ' ') := rfl
  rw [cellText, padded, hgap, List.append_assoc, List.replicate_append_replicate]

namespace Columns

theorem text_eq_padded (l : Columns) (cells : Cells) : l.text cells =
    padded l.id cells.id ++ columnGap ++ padded l.format cells.format ++ columnGap
      ++ padded l.available cells.available ++ columnGap ++ cells.selected := by
  simp [text, cellText_eq_padded]

theorem header_eq (l : Columns) : l.header = l.text Cells.headings := (l.text_eq_padded Cells.headings).symm

theorem render_row (l : Columns) (d : Decision) (q : CredentialQuery) :
    (l.row d q).render false = l.text (d.row q).cells := by
  have hiff : (d.resolution.selection.get? q.id).isSome = d.resolution.selection.keys.contains q.id := by
    rw [Bool.eq_iff_iff, OrderedMap.isSome_get?_iff, List.contains_iff_mem]
  rw [Columns.row, hiff, Line.render_false, text_eq_padded, Row.cells, Decision.row]
  cases d.resolution.selection.keys.contains q.id <;>
    simp [Span.plain, Span.dim, Span.green, Span.cyan, yesNo]

theorem isPrintable_row (l : Columns) (d : Decision) (q : CredentialQuery) :
    (l.row d q).isPrintable = q.format.isPrintable := by
  unfold Columns.row
  dsimp only
  split <;>
    simp [Line.isPrintable, Span.plain, Span.dim, Span.green, Span.cyan, columnGap, Text.isPrintable_append,
      isPrintable_padded, isPrintable_yesNo]

theorem isPrintable_header (l : Columns) : l.header.isPrintable = true := by
  simp [Columns.header, columnGap, Text.isPrintable_append, isPrintable_padded]

end Columns

/-- The total below the rows. -/
def totalText (requested selected : Nat) : Text :=
  Text.ofString ("Total: " ++ Nat.repr requested ++ " requested (" ++ Nat.repr selected ++ " selected for disclosure)")

/-- The lines of a table with these rows. -/
def tableText (l : Columns) (rows : List Row) : List Text :=
  [l.text Cells.headings, List.replicate (l.text Cells.headings).length (.char '-')]
    ++ rows.map (fun row => l.text row.cells)
    ++ [[], totalText rows.length (rows.filter Row.selected).length]

/-- The rows show the decision: one row for each query of the catalogue, in order; the selected rows are the selected
queries, and all of them are available. -/
structure Shows (rows : List Row) (d : Decision) (c : Catalogue) : Prop where
  ids : rows.map Row.id = c.ids
  formats : rows.map Row.format = c.entries.map CredentialQuery.format
  available : ∀ row ∈ rows, row.available = true ↔ row.id ∈ d.available
  selected : ∀ id, (∃ row ∈ rows, row.id = id ∧ row.selected = true) ↔ id ∈ d.resolution.selection.keys
  available_of_selected : ∀ row ∈ rows, row.selected = true → row.available = true

namespace Decision

variable {d : Decision} {c : Catalogue}

/-- The rows of the decision. -/
def rows (d : Decision) (c : Catalogue) : List Row := c.entries.map d.row

theorem shows_rows (h : ∀ id ∈ d.resolution.selection.keys, id ∈ d.available ∧ id ∈ c.ids) :
    Shows (d.rows c) d c where
  ids := by simp [rows, row, Catalogue.ids]
  formats := by simp [rows, row]
  available := by simp [rows, row]
  selected id := by
    constructor
    · rintro ⟨row, hrow, rfl, hselected⟩
      obtain ⟨q, -, rfl⟩ := List.mem_map.1 hrow
      exact List.contains_iff_mem.1 hselected
    · intro hid
      obtain ⟨q, hq, rfl⟩ := List.mem_map.1 (h id hid).2
      exact ⟨d.row q, List.mem_map_of_mem hq, rfl, List.contains_iff_mem.2 hid⟩
  available_of_selected := by
    simp only [rows, row, List.forall_mem_map, List.contains_iff_mem]
    exact fun q _ hid => (h q.id hid).1

/-- As many rows are selected as queries are. -/
theorem length_filter_rows (h : ∀ id ∈ d.resolution.selection.keys, id ∈ c.ids) :
    ((d.rows c).filter Row.selected).length = d.resolution.selection.size := by
  have hperm : (c.ids.filter d.resolution.selection.keys.contains).Perm d.resolution.selection.keys := by
    have hids : c.ids.Nodup := c.nodup_ids
    rw [List.perm_ext_iff_of_nodup (hids.filter _) d.resolution.selection.keys_nodup]
    intro id
    simp only [List.mem_filter, List.contains_iff_mem, and_iff_right_iff_imp]
    exact h id
  rw [OrderedMap.size_eq_length_keys, ← hperm.length_eq, rows, Catalogue.ids, List.filter_map, List.filter_map,
    List.length_map, List.length_map]
  rfl

theorem render_table (h : ∀ id ∈ d.resolution.selection.keys, id ∈ c.ids) :
    (d.table c).map (Line.render false) = tableText (Columns.ofCatalogue c) (d.rows c) := by
  have hrows : (c.entries.map ((Columns.ofCatalogue c).row d)).map (Line.render false)
      = (d.rows c).map (fun row => (Columns.ofCatalogue c).text row.cells) := by
    simp only [rows, List.map_map]
    exact List.map_congr_left (fun q _ => Columns.render_row _ d q)
  have hlength : (d.rows c).length = c.size := by simp [rows, Catalogue.size]
  rw [tableText, length_filter_rows h, hlength, ← hrows, Decision.table, ← Columns.header_eq]
  simp [Line.render_false, Span.bold, Span.dim, totalText]

theorem isPrintable_table_iff :
    (d.table c).all Line.isPrintable = true ↔ ∀ q ∈ c.entries, q.format.isPrintable = true := by
  have hheader := Columns.isPrintable_header (Columns.ofCatalogue c)
  have hrule := Text.isPrintable_replicate (Columns.ofCatalogue c).header.length '-'
  have hrows : (c.entries.map ((Columns.ofCatalogue c).row d)).all Line.isPrintable = true ↔
      ∀ q ∈ c.entries, q.format.isPrintable = true := by
    simp [Columns.isPrintable_row]
  rw [← hrows, table]
  simp only [List.all_append, Bool.and_eq_true]
  simp [Line.isPrintable, Span.bold, Span.dim, hheader, hrule]

end Decision

end Disclosure
