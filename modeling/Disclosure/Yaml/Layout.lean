import Disclosure.Yaml.PlainText
import Disclosure.Yaml.Property

/-!
# Disclosure.Yaml.Layout — a text as a list of lexemes

Outside brackets indentation shows where collections start and end.  A text turns out to be a field name when a colon
follows it; until then it is a candidate.  A candidate must be followed by its colon on the same line, within 1024
characters.  When the colon comes, a key mark is put in front of the candidate, and the start of an object in front of
the key mark if the candidate stands further right than the block around it.

* `Layout.step` takes the next lexeme.
* `Lexemes.ofText`: all lexemes of a text, up to the first fault.
* `Lexemes.ofStart`: those that the start of a text shows, whatever comes after it.
-/

namespace Disclosure.Yaml

/-- The number of characters that a field name may have, up to its colon. -/
def longestName : Nat := 1024

/-- A text that may turn out to be a field name: where it stands among the lexemes and in the text, and whether
nothing else than a field name can stand there. -/
structure Candidate where
  position : Nat
  index : Nat
  line : Nat
  column : Nat
  required : Bool
deriving Repr

/-- What is known between two lexemes. -/
structure Layout where
  cursor : Cursor
  /-- The number of open brackets. -/
  depth : Nat := 0
  /-- The indentation of the innermost block; -1 outside all blocks. -/
  indent : Int := -1
  /-- The indentations of the blocks around it, innermost first. -/
  outer : List Int := []
  /-- Whether a field name can stand here. -/
  nameAllowed : Bool := true
  /-- The candidate at each depth, innermost first. -/
  candidates : List (Option Candidate) := [none]
  /-- The lexemes so far, last one first, and their number. -/
  found : List Lexeme := []
  size : Nat := 0

namespace Layout

/-- A lexeme of the given token at the cursor. -/
def lexeme (s : Layout) (token : Token) : Lexeme := ⟨token, s.cursor.line + 1⟩

/-- One more lexeme. -/
def emit (s : Layout) (token : Token) : Layout :=
  { s with found := s.lexeme token :: s.found, size := s.size + 1 }

/-- A lexeme in front of the one at a position. -/
def insertAt (s : Layout) (position : Nat) (token : Token) : Layout :=
  let later := s.size - position
  { s with found := s.found.take later ++ s.lexeme token :: s.found.drop later, size := s.size + 1 }

/-- Whether a candidate can no longer be a field name. -/
def isStale (c : Cursor) (x : Candidate) : Bool := x.line != c.line || longestName < c.index - x.index

/-- The candidates that can still be field names; a required one must not be lost. -/
def keepFresh (c : Cursor) : List (Option Candidate) → Except Fault (List (Option Candidate))
  | [] => .ok []
  | none :: rest => (keepFresh c rest).map (none :: ·)
  | some x :: rest =>
    if isStale c x then
      if x.required then c.fault .missingColon else (keepFresh c rest).map (none :: ·)
    else (keepFresh c rest).map (some x :: ·)

/-- The number of lexemes before the first open candidate. -/
def known (s : Layout) : Nat :=
  s.candidates.foldl
    (fun n candidate => match candidate with
      | some x => if isStale s.cursor x then n else min n x.position
      | none => n)
    s.size

/-- Gives up the candidate of this depth. -/
def drop (s : Layout) : Except Fault Layout :=
  match s.candidates with
  | some x :: rest => if x.required then s.cursor.fault .missingColon else .ok { s with candidates := none :: rest }
  | _ => .ok s

/-- Takes what comes next for a candidate, where a field name can stand. -/
def propose (s : Layout) : Except Fault Layout :=
  if s.nameAllowed then do
    let s ← s.drop
    let required := s.depth == 0 && s.indent == (s.cursor.column : Int)
    let x : Candidate := ⟨s.size, s.cursor.index, s.cursor.line, s.cursor.column, required⟩
    return { s with candidates := some x :: s.candidates.drop 1 }
  else return s

/-- Ends the blocks that are indented more than `column`. -/
def unwindFrom (column : Int) : List Int → Layout → Layout
  | [], s => s
  | around :: rest, s =>
    if column < s.indent then unwindFrom column rest { s.emit .blockEnd with indent := around, outer := rest } else s

/-- Ends the blocks that are indented more than `column`; inside brackets there are no blocks. -/
def unwind (s : Layout) (column : Int) : Layout := if s.depth = 0 then unwindFrom column s.outer s else s

/-- Starts a block at `column` if it is indented more than the block around it. -/
def indentTo (s : Layout) (column : Nat) : Option Layout :=
  if s.indent < (column : Int) then some { s with indent := column, outer := s.indent :: s.outer } else none

/-- Goes to the next lexeme over blanks, comments and line ends.  Outside brackets a field name can stand on a new
line. -/
def toLexeme : Nat → Layout → Layout
  | 0, s => s
  | steps + 1, s =>
    let c := (s.cursor.skipWhile (· == ' ')).skipComment
    match c.takeBreak with
    | none => { s with cursor := c }
    | some (_, c) => toLexeme steps { s with cursor := c, nameAllowed := s.nameAllowed || s.depth == 0 }

/-- A token of so many characters that is no datum. -/
def mark (s : Layout) (token : Token) (width : Nat) (nameAllowed : Bool) : Except Fault Layout := do
  let s ← s.drop
  return { s with cursor := s.cursor.skip width, nameAllowed }.emit token

/-- The start or the end of a document, or a directive: all blocks end before it. -/
def border (s : Layout) (token : Token) (after : Cursor) : Except Fault Layout := do
  let s ← (s.unwind (-1)).drop
  return { s with cursor := after, nameAllowed := false }.emit token

/-- An opening bracket. -/
def opening (s : Layout) (token : Token) : Except Fault Layout := do
  let s ← s.propose
  return { s with
    cursor := s.cursor.next
    depth := s.depth + 1
    nameAllowed := true
    candidates := none :: s.candidates }.emit token

/-- A closing bracket. -/
def closing (s : Layout) (token : Token) : Except Fault Layout := do
  let s ← s.drop
  if s.depth = 0 then s.cursor.next.fault (.misplaced token.describe)
  else
    return { s with
      cursor := s.cursor.next
      depth := s.depth - 1
      nameAllowed := false
      candidates := s.candidates.drop 1 }.emit token

/-- A list mark, or the mark of a field name that is not found by its colon. -/
def blockMark (s : Layout) (token start : Token) (nameAllowed : Bool) : Except Fault Layout :=
  if s.depth = 0 then
    if !s.nameAllowed then s.cursor.fault (.misplaced token.describe)
    else
      match s.indentTo s.cursor.column with
      | some t => (t.emit start).mark token 1 nameAllowed
      | none => s.mark token 1 nameAllowed
  else s.mark token 1 nameAllowed

/-- A colon: it makes the candidate of this depth a field name. -/
def takeColon (s : Layout) : Except Fault Layout :=
  match s.candidates with
  | some x :: rest =>
    let s := { s with candidates := none :: rest, nameAllowed := false }.insertAt x.position .key
    let s :=
      if s.depth = 0 then
        match s.indentTo x.column with
        | some t => t.insertAt x.position .blockObjectStart
        | none => s
      else s
    .ok ({ s with cursor := s.cursor.next }.emit .colon)
  | _ => s.blockMark .colon .blockObjectStart (s.depth == 0)

/-- A datum, or something that stands before one. -/
def datum (s : Layout) (read : Cursor → Except Fault (Token × Cursor)) : Except Fault Layout := do
  let s ← s.propose
  let (token, c) ← read s.cursor
  return { s with cursor := c, nameAllowed := false }.emit token

/-- A plain text. -/
def plain (s : Layout) : Except Fault Layout := do
  let s ← s.propose
  let t := plainText (s.depth != 0) (s.indent + 1).toNat s.cursor
  return { s with cursor := t.after, nameAllowed := t.broken }.emit (.text (t.text.map .char) true)

/-- A text that takes whole lines. -/
def block (s : Layout) (folded : Bool) : Except Fault Layout := do
  let s ← s.drop
  let (t, c) ← blockText folded (max 1 (s.indent + 1).toNat) s.cursor.next
  return { s with cursor := c, nameAllowed := true }.emit (.text (t.map .char) false)

/-- The marks that mean something only before a gap. -/
def gapMarks (flow : Bool) : List Char := if flow then ['-'] else ['-', '?', ':']

/-- Looks as far as it takes to see what starts with the character `ch`. -/
def lookAhead (s : Layout) (ch : Char) : Layout :=
  let c := if s.cursor.column = 0 && (ch = '-' || ch = '.') then s.cursor.lookForMark else s.cursor
  { s with cursor := if (gapMarks (s.depth != 0)).contains ch then c.look 2 else c }

/-- The lexeme that starts with the character `ch` before `rest`. -/
def take (s : Layout) (ch : Char) (rest : List Char) : Except Fault Layout :=
  let flow := s.depth != 0
  let s := s.lookAhead ch
  let c := s.cursor
  if ch = '%' && c.column = 0 then do
    let (token, after) ← directiveToken c
    s.border token after
  else if c.column = 0 && marksNext '-' c.rest then s.border .documentStart (c.skip 3)
  else if c.column = 0 && marksNext '.' c.rest then s.border .documentEnd (c.skip 3)
  else if ch = '[' then s.opening .openList
  else if ch = '\x7b' then s.opening .openObject
  else if ch = ']' then s.closing .closeList
  else if ch = '\x7d' then s.closing .closeObject
  else if ch = ',' then s.mark .comma 1 true
  else if ch = '-' && gapNext rest then s.blockMark .dash .blockListStart true
  else if ch = '?' && (flow || gapNext rest) then s.blockMark .key .blockObjectStart (!flow)
  else if ch = ':' && (flow || gapNext rest) then s.takeColon
  else if ch = '*' then s.datum (fun c => (nameAfterMark c).map (fun (name, c) => (.alias name, c)))
  else if ch = '&' then s.datum (fun c => (nameAfterMark c).map (fun (name, c) => (.anchor name, c)))
  else if ch = '!' then s.datum tagToken
  else if ch = '|' && !flow then s.block false
  else if ch = '>' && !flow then s.block true
  else if ch = '\'' then s.datum (fun c => (quotedText false c).map (fun (t, c) => (.text t false, c)))
  else if ch = '"' then s.datum (fun c => (quotedText true c).map (fun (t, c) => (.text t false, c)))
  else if startsPlain flow c.rest then s.plain
  else (c.look 2).fault (.strayChar ch)

/-- Goes to the next lexeme; blocks end before it that are indented more than it. -/
def approach (s : Layout) : Except Fault Layout := do
  let s := s.toLexeme (s.cursor.left + 1)
  let candidates ← keepFresh s.cursor s.candidates
  return { s with candidates }.unwind s.cursor.column

/-- The next lexeme; nothing at the end of the text. -/
def step (s : Layout) : Except Fault (Option Layout) := do
  let s ← s.approach
  match s.cursor.rest with
  | [] => return none
  | ch :: rest => (s.take ch rest).map some

/-- The end of the text. -/
def finish (s : Layout) : Except Fault Layout := do
  let s ← s.approach
  let s ← (s.unwind (-1)).drop
  return s.emit .fileEnd

end Layout

/-- The lexemes of a text up to the first fault, and that fault. -/
structure Lexemes where
  items : List Lexeme
  fault : Option Fault := none

namespace Lexemes

/-- The lexemes before a fault, or before a place where the text is not known.  Those from the first open candidate on
are not known before it is decided what the candidate is. -/
def stopped (s : Layout) (f : Option Fault) : Lexemes := ⟨s.found.reverse.take s.known, f⟩

/-- The lexemes from the cursor on, as far as the text is known: a text of which only so many characters are known, or
all.  Every step takes at least one character, so the number of characters bounds the number of steps. -/
def collect (known : Option Nat) : Nat → Layout → Lexemes
  | 0, s => ⟨s.found.reverse, none⟩
  | steps + 1, s =>
    let shows := fun seen => known.all (seen ≤ ·)
    match s.step with
    | .error f => stopped s (if shows f.seen then some f else none)
    | .ok (some next) => if shows next.cursor.seen then collect known steps next else stopped s none
    | .ok none =>
      match known, s.finish with
      | some _, _ => stopped s none
      | none, .error f => stopped s (some f)
      | none, .ok last => ⟨last.found.reverse, none⟩

/-- The lexemes of a text that starts with `chars`; a byte order mark may come first. -/
def ofChars (known : Option Nat) (chars : List Char) : Lexemes :=
  let start := Cursor.start chars
  let cursor := if chars.head? = some '\ufeff' then start.next else start
  collect known (chars.length + 1) { cursor }

/-- The lexemes that can be told from the start of a text. -/
def ofStart (chars : List Char) : Lexemes := ofChars (some chars.length) chars

/-- All lexemes of a text. -/
def ofText (chars : List Char) : Lexemes := ofChars none chars

end Lexemes

end Disclosure.Yaml
