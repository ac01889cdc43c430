/-!
# Disclosure.Text.Pieces — characters cut at a mark

* `intercalate_pieces`: the pieces with the mark between them are the characters again.
-/

namespace Disclosure.Text

/-- The pieces between the marks; there is always one more than there are marks. -/
def pieces (mark : Char) : List Char → List (List Char)
  | [] => [[]]
  | c :: rest =>
    if c = mark then [] :: pieces mark rest
    else
      match pieces mark rest with
      | [] => [[c]]
      | piece :: more => (c :: piece) :: more

theorem pieces_ne_nil (mark : Char) (cs : List Char) : pieces mark cs ≠ [] := by
  cases cs with
  | nil => simp [pieces]
  | cons c rest =>
    rw [pieces]
    split
    · simp
    · split <;> simp

theorem intercalate_pieces (mark : Char) (cs : List Char) : [mark].intercalate (pieces mark cs) = cs := by
  induction cs with
  | nil => rfl
  | cons c rest ih =>
    rw [pieces]
    cases h : pieces mark rest with
    | nil => exact absurd h (pieces_ne_nil mark rest)
    | cons piece more =>
      rw [h] at ih
      split
      · rename_i hc
        rw [hc, ← ih]
        cases more <;> simp [List.intercalate]
      · rw [← ih]
        cases more <;> simp [List.intercalate]

/-- The characters without the line end that ends them. -/
def withoutLineEnd (cs : List Char) : List Char := if cs.getLast? = some '\n' then cs.dropLast else cs

end Disclosure.Text
