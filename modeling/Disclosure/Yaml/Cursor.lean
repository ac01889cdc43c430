import Disclosure.Yaml.Fault

/-!
# Disclosure.Yaml.Cursor — a place in a text

A cursor holds what is left of a text and knows how many characters, lines, and columns of its line lie before it.  It
also knows how much of the text has been looked at: what is found there would be found in any text that starts so.

* `rest_skip`: skipping `n` characters drops them from what is left.
* `seen_le_skip`: what has been looked at stays so.
-/

namespace Disclosure.Yaml

/-- Characters that end a line. -/
def isBreak (c : Char) : Bool := c == '\n' || c == '\u0085' || c == '\u2028' || c == '\u2029'

/-- Blanks and tabs. -/
def isGap (c : Char) : Bool := c == ' ' || c == '\t'

/-- Whether a blank, a line end or the end of the text comes next. -/
def blankNext : List Char → Bool
  | [] => true
  | c :: _ => c == ' ' || isBreak c

/-- Whether a blank, a tab, a line end or the end of the text comes next. -/
def gapNext : List Char → Bool
  | [] => true
  | c :: _ => isGap c || isBreak c

/-- Whether three given marks and a gap come next. -/
def marksNext (mark : Char) : List Char → Bool
  | a :: b :: c :: rest => a == mark && b == mark && c == mark && gapNext rest
  | _ => false

/-- A place in a text of `size` characters.  The first `seen` of them have been looked at; a number that is greater than
`size` means that the end of the text has been noticed. -/
structure Cursor where
  size : Nat
  rest : List Char
  index : Nat := 0
  line : Nat := 0
  column : Nat := 0
  seen : Nat := 1
deriving Repr

namespace Cursor

/-- The start of a text. -/
def start (chars : List Char) : Cursor := { size := chars.length, rest := chars }

/-- The number of characters that are left. -/
def left (c : Cursor) : Nat := c.size - c.index

/-- A fault that shows here. -/
def fault {α : Type} (c : Cursor) (cause : Cause) : Except Fault α := .error ⟨some (c.line + 1), cause, c.seen⟩

/-- The same place after a look at the next `n` characters. -/
def look (c : Cursor) (n : Nat) : Cursor := { c with seen := max c.seen (c.index + n) }

/-- The place after the next character.  No character is passed without a look at the one after it.  A byte order mark
takes no column. -/
def next (c : Cursor) : Cursor :=
  match c.rest with
  | [] => c
  | ch :: rest =>
    let c := c.look 2
    if isBreak ch then { c with rest, index := c.index + 1, line := c.line + 1, column := 0 }
    else { c with rest, index := c.index + 1, column := if ch = '\ufeff' then c.column else c.column + 1 }

/-- The place after the next `n` characters. -/
def skip : Nat → Cursor → Cursor
  | 0, c => c
  | n + 1, c => skip n c.next

/-- The place after the next characters with a property. -/
def skipWhile (p : Char → Bool) (c : Cursor) : Cursor := c.skip (c.rest.takeWhile p).length

/-- A line end and the place after it; the first two kinds count as the same. -/
def takeBreak (c : Cursor) : Option (Char × Cursor) :=
  match c.rest with
  | [] => none
  | ch :: _ => if isBreak ch then some (if ch = '\u0085' then '\n' else ch, c.next) else none

/-- Looks for a document mark: at three characters, and at the next one if they are a mark. -/
def lookForMark (c : Cursor) : Cursor :=
  let three := c.rest.take 3
  c.look (if three = ['-', '-', '-'] || three = ['.', '.', '.'] then 4 else 3)

/-- Whether a document mark comes next. -/
def atDocumentMark (c : Cursor) : Bool := marksNext '-' c.rest || marksNext '.' c.rest

/-- The place at the end of a comment, or the same place. -/
def skipComment (c : Cursor) : Cursor :=
  if c.rest.head? = some '#' then c.skipWhile (fun ch => !isBreak ch) else c

theorem rest_next (c : Cursor) : c.next.rest = c.rest.drop 1 := by
  unfold next
  split
  · rename_i h
    rw [h]
    rfl
  · rename_i h
    rw [h]
    dsimp only
    split <;> rfl

theorem rest_skip (n : Nat) (c : Cursor) : (c.skip n).rest = c.rest.drop n := by
  induction n generalizing c with
  | zero => rfl
  | succ n ih =>
    rw [skip, ih, rest_next, List.drop_drop, Nat.add_comm]

theorem seen_le_next (c : Cursor) : c.seen ≤ c.next.seen := by
  unfold next
  split
  · exact Nat.le_refl _
  · dsimp only
    split <;> exact Nat.le_max_left _ _

theorem seen_le_skip (n : Nat) (c : Cursor) : c.seen ≤ (c.skip n).seen := by
  induction n generalizing c with
  | zero => exact Nat.le_refl _
  | succ n ih => exact Nat.le_trans (seen_le_next c) (ih c.next)

end Cursor

end Disclosure.Yaml
