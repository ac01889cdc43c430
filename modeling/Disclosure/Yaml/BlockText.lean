import Disclosure.Yaml.Cursor

/-!
# Disclosure.Yaml.BlockText — texts that take whole lines

After `|` the indented lines that follow are a text as they stand; after `>` lines are joined by blanks.  The head says
what becomes of the line ends at the end of the text, and how far it is indented if its first line does not show it.
-/

namespace Disclosure.Yaml

/-- What becomes of the line ends at the end of a text: one is left, none, or all. -/
inductive Ending where
  | clip
  | strip
  | keep
deriving Repr, DecidableEq

/-- The head of a block text: its ending and the indentation that it asks for. -/
structure BlockHead where
  ending : Ending := .clip
  indentation : Option Nat := none
deriving Repr, DecidableEq

/-- The ending that a mark asks for. -/
def endingOf? : Char → Option Ending
  | '+' => some .keep
  | '-' => some .strip
  | _ => none

/-- The indentation that a digit asks for. -/
def indentationOf? (c : Char) : Option Nat := if c.isDigit then some (c.toNat - '0'.toNat) else none

/-- The ending that is asked for here, if one is. -/
def takeEnding (c : Cursor) : Option Ending × Cursor :=
  match c.rest.head?.bind endingOf? with
  | some ending => (some ending, c.next)
  | none => (none, c)

/-- The indentation that is asked for here, if one is; it must not be 0. -/
def takeIndentation (c : Cursor) : Except Fault (Option Nat × Cursor) :=
  match c.rest.head?.bind indentationOf? with
  | some 0 => c.fault (.badForm "the head of a block text")
  | some n => .ok (some n, c.next)
  | none => .ok (none, c)

/-- The marks of a head, in either order, and the place after them. -/
def headMarks (c : Cursor) : Except Fault (BlockHead × Cursor) := do
  match takeEnding c with
  | (some ending, c) =>
    let (indentation, c) ← takeIndentation c
    return (⟨ending, indentation⟩, c)
  | (none, c) =>
    match ← takeIndentation c with
    | (none, c) => return ({}, c)
    | (some n, c) =>
      let (ending, c) := takeEnding c
      return (⟨ending.getD .clip, some n⟩, c)

/-- The rest of a line that may hold nothing but a comment, and the place at the start of the next line. -/
def restOfLine (what : String) (c : Cursor) : Except Fault Cursor :=
  let c := (c.skipWhile (· == ' ')).skipComment
  match c.takeBreak with
  | some (_, c) => .ok c
  | none => if c.rest.isEmpty then .ok c else c.fault (.badForm what)

/-- The head of a block text, and the place at the start of its first line. -/
def blockHead (c : Cursor) : Except Fault (BlockHead × Cursor) := do
  let (head, c) ← headMarks c
  if blankNext c.rest then return (head, ← restOfLine "the head of a block text" c)
  else c.fault (.badForm "the head of a block text")

/-- The line ends of empty lines, the greatest column that is reached before a line end or the text, and the place after
them. -/
def leadingLines : Nat → Nat → Cursor → List Char × Nat × Cursor
  | 0, most, c => ([], most, c)
  | steps + 1, most, c =>
    if c.rest.head? = some ' ' then leadingLines steps (max most c.next.column) c.next
    else
      match c.takeBreak with
      | none => ([], most, c)
      | some (ch, c) =>
        let (others, most, c) := leadingLines steps most c
        (ch :: others, most, c)

/-- The place after at most so many blanks that `indent` columns lie before it. -/
def indented (indent : Nat) (c : Cursor) : Cursor :=
  c.skip ((c.rest.take (indent - c.column)).takeWhile (· == ' ')).length

/-- The line ends of the lines that are not longer than the indentation, and the place in the line after them. -/
def shortLines (indent : Nat) : Nat → Cursor → List Char × Cursor
  | 0, c => ([], c)
  | steps + 1, c =>
    let c := indented indent c
    match c.takeBreak with
    | none => ([], c)
    | some (ch, c) =>
      let (others, c) := shortLines indent steps c
      (ch :: others, c)

/-- Whether a line of the text starts here. -/
def startsLine (indent : Nat) (c : Cursor) : Bool := c.column == indent && !c.rest.isEmpty

/-- The lines of a block text from the cursor on.  `found` is what has been read, last character first, and `breaks` are
the line ends of the empty lines before the next line. -/
def blockLines (folded : Bool) (head : BlockHead) (indent : Nat) :
    Nat → Cursor → List Char → List Char → Option Char → List Char × Cursor
  | steps, c, breaks, found, last =>
    let finish := (
      found.reverse
        ++ (if head.ending = .strip then [] else last.toList)
        ++ (if head.ending = .keep then breaks else []), c)
    match steps with
    | 0 => finish
    | steps + 1 =>
      if !startsLine indent c then finish
      else
        let line := c.rest.takeWhile (fun ch => !isBreak ch)
        let textLine := !line.head?.any isGap
        let found := line.reverse ++ breaks.reverse ++ found
        let c := c.skip line.length
        let (last, c) := match c.takeBreak with
          | some (ch, c) => (some ch, c)
          | none => (none, c)
        let (breaks, c) := shortLines indent (c.left + 1) c
        if startsLine indent c then
          let joined := folded && last == some '\n' && textLine && !c.rest.head?.any isGap
          let between := if joined then (if breaks.isEmpty then [' '] else []) else last.toList
          blockLines folded head indent steps c breaks (between.reverse ++ found) last
        else blockLines folded head indent steps c breaks found last

/-- A block text and the place after it; the cursor is behind its mark, inside a block of the given indentation. -/
def blockText (folded : Bool) (least : Nat) (c : Cursor) : Except Fault (List Char × Cursor) := do
  let (head, c) ← blockHead c
  let (breaks, indent, c) := match head.indentation with
    | some n =>
      let indent := least + n - 1
      let (breaks, c) := shortLines indent (c.left + 1) c
      (breaks, indent, c)
    | none =>
      let (breaks, most, c) := leadingLines (c.left + 1) 0 c
      (breaks, max least most, c)
  return blockLines folded head indent (c.left + 1) c breaks [] none

end Disclosure.Yaml
