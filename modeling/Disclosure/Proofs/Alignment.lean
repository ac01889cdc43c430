import Disclosure.Proofs.Colours

/-!
# Disclosure.Proofs.Alignment — the columns of the table line up

A line of the table has four cells.  The first three are padded to the widths of their columns, which are wide enough for
every cell, so each column starts at the same place in all lines, and no cell is cut short.  Colours do not move anything:
their codes are put around cells that are padded already.

* `columnWidth_le_iff`: a column is as wide as its widest text needs, and no wider.
* `Columns.holds_of_fits`: cells that fit start where their columns start.
* `table_aligned`: heading, rule and rows.
-/

namespace Disclosure

/-! ### Widths -/

theorem columnWidth_le_iff {least n : Nat} {texts : List Text} :
    columnWidth least texts ≤ n ↔ least ≤ n ∧ ∀ t ∈ texts, t.length ≤ n := by
  induction texts generalizing least with
  | nil => simp [columnWidth]
  | cons t rest ih =>
    have hstep : columnWidth least (t :: rest) = columnWidth (max least t.length) rest := rfl
    rw [hstep, ih, Nat.max_le, List.forall_mem_cons, and_assoc]

theorem le_columnWidth (least : Nat) (texts : List Text) : least ≤ columnWidth least texts :=
  (columnWidth_le_iff.1 (Nat.le_refl _)).1

theorem length_le_columnWidth {least : Nat} {texts : List Text} {t : Text} (h : t ∈ texts) :
    t.length ≤ columnWidth least texts :=
  (columnWidth_le_iff.1 (Nat.le_refl _)).2 t h

theorem length_padded {width : Nat} {t : Text} (h : t.length ≤ width) : (padded width t).length = width := by
  rw [padded, List.length_append, List.length_replicate]
  omega

theorem prefix_padded (width : Nat) (t : Text) : t <+: padded width t := List.prefix_append _ _

/-! ### Cells -/

namespace Columns

/-- The places where the columns after the first one start. -/
def formatStart (l : Columns) : Nat := l.id + 2

def availableStart (l : Columns) : Nat := l.formatStart + (l.format + 2)

def selectedStart (l : Columns) : Nat := l.availableStart + (l.available + 2)

/-- The line consists of these cells; each of them is whole and starts where its column starts. -/
structure Holds (l : Columns) (cells : Cells) (line : Text) : Prop where
  line_eq : line = l.text cells
  id_width : (padded l.id cells.id).length = l.id
  format_width : (padded l.format cells.format).length = l.format
  available_width : (padded l.available cells.available).length = l.available
  id_starts : cells.id <+: line
  format_starts : cells.format <+: line.drop l.formatStart
  available_starts : cells.available <+: line.drop l.availableStart
  selected_starts : line.drop l.selectedStart = cells.selected

/-- The cells that are padded are no longer than their columns are wide. -/
structure Fits (l : Columns) (cells : Cells) : Prop where
  id : cells.id.length ≤ l.id
  format : cells.format.length ≤ l.format
  available : cells.available.length ≤ l.available

variable {l : Columns} {cells : Cells}

theorem drop_padded {width : Nat} {t : Text} (h : t.length ≤ width) (rest : Text) :
    (padded width t ++ columnGap ++ rest).drop (width + 2) = rest := by
  have hlength : (padded width t ++ columnGap).length = width + 2 := by
    rw [List.length_append, length_padded h]
    rfl
  exact List.drop_left' hlength

theorem drop_text_format (h : l.Fits cells) : (l.text cells).drop l.formatStart =
    padded l.format cells.format ++ columnGap ++ (padded l.available cells.available ++ columnGap ++ cells.selected) := by
  have hdrop := drop_padded h.id
    (padded l.format cells.format ++ columnGap ++ (padded l.available cells.available ++ columnGap ++ cells.selected))
  simpa [text_eq_padded, formatStart] using hdrop

theorem drop_text_available (h : l.Fits cells) : (l.text cells).drop l.availableStart =
    padded l.available cells.available ++ columnGap ++ cells.selected := by
  rw [availableStart, ← List.drop_drop, drop_text_format h, drop_padded h.format]

theorem drop_text_selected (h : l.Fits cells) : (l.text cells).drop l.selectedStart = cells.selected := by
  rw [selectedStart, ← List.drop_drop, drop_text_available h, drop_padded h.available]

theorem holds_of_fits (h : l.Fits cells) : l.Holds cells (l.text cells) where
  line_eq := rfl
  id_width := length_padded h.id
  format_width := length_padded h.format
  available_width := length_padded h.available
  id_starts := by
    simp only [text_eq_padded, List.append_assoc]
    exact (prefix_padded l.id cells.id).trans (List.prefix_append _ _)
  format_starts := by
    rw [drop_text_format h, List.append_assoc]
    exact (prefix_padded l.format cells.format).trans (List.prefix_append _ _)
  available_starts := by
    rw [drop_text_available h, List.append_assoc]
    exact (prefix_padded l.available cells.available).trans (List.prefix_append _ _)
  selected_starts := drop_text_selected h

/-! ### The columns of a catalogue -/

theorem fits_headings (c : Catalogue) : (ofCatalogue c).Fits Cells.headings where
  id := le_columnWidth 8 _
  format := le_columnWidth 6 _
  available := Nat.le_refl 9

theorem fits_row {c : Catalogue} (d : Decision) {q : CredentialQuery} (hq : q ∈ c.entries) :
    (ofCatalogue c).Fits (d.row q).cells where
  id := length_le_columnWidth (List.mem_map_of_mem (List.mem_map_of_mem hq))
  format := length_le_columnWidth (List.mem_map_of_mem hq)
  available := by
    have hwords : ∀ b : Bool, (if b then ("yes" : Text) else "no").length ≤ 9 := by decide
    exact hwords _

end Columns

/-! ### The table -/

/-- **The columns of the table line up.**  Without colours the heading and the rows, one for each query in order, hold their
cells: the first three padded to widths that all lines share, with two blanks between the cells, so that each column starts
at one place, and every cell is whole.  The rule is as long as the heading.  With colours the lines are the same but for the
codes put into them, and these come off with the control sequences, unless the data hold the escape character. -/
theorem table_aligned (d : Decision) (c : Catalogue) :
    ∃ header rule rows below, d.table c = header :: rule :: rows ++ below ∧
      (Columns.ofCatalogue c).Holds Cells.headings (header.render false) ∧
      rule.render false = List.replicate (header.render false).length (.char '-') ∧
      List.Forall₂ (fun q line => (Columns.ofCatalogue c).Holds (d.row q).cells (line.render false)) c.entries rows ∧
      ∀ line ∈ d.table c, Coloured (line.render false) (line.render true) ∧
        ((line.render false).NoEscape → (line.render true).withoutControls = line.render false) := by
  refine ⟨_, _, c.entries.map ((Columns.ofCatalogue c).row d), _, rfl, ?_, ?_, ?_, ?_⟩
  · have hheader : Line.render false [.bold (Columns.ofCatalogue c).header]
        = (Columns.ofCatalogue c).text Cells.headings := by
      rw [Line.render_false, ← Columns.header_eq]
      simp [Span.bold]
    rw [hheader]
    exact Columns.holds_of_fits (Columns.fits_headings c)
  · simp [Line.render_false, Span.bold, Span.dim]
  · rw [List.forall₂_map_right_iff, List.forall₂_same]
    intro q hq
    rw [Columns.render_row]
    exact Columns.holds_of_fits (Columns.fits_row d hq)
  · intro line _
    have hcoloured := line.coloured_render true
    exact ⟨hcoloured, hcoloured.withoutControls⟩

/-- A catalogue with a long id and a long format. -/
def wideCatalogue : Catalogue :=
  ⟨[{ id := "a", format := "dc+sd-jwt" }, { id := "identity-card", format := "f" }], by decide⟩

/-- The first query is selected. -/
def wideDecision : Decision := ⟨["a"], ⟨OrderedMap.ofList [("a", { id := "a", format := "dc+sd-jwt" })], []⟩⟩

/-- Its row is padded and coloured. -/
theorem table_aligned_wide :
    ∃ line ∈ wideDecision.table wideCatalogue,
      line.render false = Text.ofString "a              dc+sd-jwt  yes        yes" ∧
      (line.render false).NoEscape ∧ ¬ (line.render true).NoEscape ∧
      (line.render true).withoutControls = line.render false := by
  obtain ⟨-, -, -, -, -, -, -, -, hcolours⟩ := table_aligned wideDecision wideCatalogue
  let line := (Columns.ofCatalogue wideCatalogue).row wideDecision { id := "a", format := "dc+sd-jwt" }
  have hline : line ∈ wideDecision.table wideCatalogue := by
    simp [Decision.table, line, wideCatalogue]
  have hplain : (line.render false).NoEscape := by
    unfold Text.NoEscape
    decide
  refine ⟨line, hline, by decide, hplain, ?_, (hcolours line hline).2 hplain⟩
  unfold Text.NoEscape
  decide

end Disclosure
