import Disclosure.Yaml.QuotedText

/-!
# Disclosure.Yaml.PlainText — texts without quotes

A plain text consists of words.  A word ends at a gap, at a colon that a gap follows, and inside brackets at a comma,
a question mark or a bracket; a text ends where `#` would start the next word.  A plain text goes on over a line end as
long as the next line is indented more than the block around it; line ends inside it are folded as in a quoted text.
-/

namespace Disclosure.Yaml

/-- Marks that end a plain text inside brackets. -/
def flowMarks : List Char := [',', '?', '[', ']', '\x7b', '\x7d']

/-- Marks that end a plain text inside brackets when they follow a colon. -/
def colonMarks : List Char := [',', '[', ']', '\x7b', '\x7d']

/-- Whether a word of a plain text ends here. -/
def endsWord (inFlow : Bool) : List Char → Bool
  | [] => true
  | c :: rest =>
    isGap c || isBreak c || (inFlow && flowMarks.contains c)
      || (c == ':' && (gapNext rest || (inFlow && rest.head?.any colonMarks.contains)))

/-- The word that comes next. -/
def word (inFlow : Bool) : List Char → List Char
  | [] => []
  | c :: rest => if endsWord inFlow (c :: rest) then [] else c :: word inFlow rest

/-- The line ends of the lines that hold nothing but blanks, and the place of the first character after them; nothing
when a document mark starts a line. -/
def blankLines : Nat → Cursor → Option (List Char) × Cursor
  | 0, c => (some [], c)
  | steps + 1, c =>
    if c.rest.head? = some ' ' then blankLines steps c.next
    else
      match c.takeBreak with
      | none => (some [], c)
      | some (ch, c) =>
        let c := c.lookForMark
        if c.atDocumentMark then (none, c)
        else
          match blankLines steps c with
          | (some others, c) => (some (ch :: others), c)
          | (none, c) => (none, c)

/-- A plain text, the place after it, and whether that place is behind a line end. -/
structure PlainText where
  text : List Char
  after : Cursor
  broken : Bool

/-- Reads words until the text ends.  `found` is what has been read, last character first, and `gap` what stands before
the next word.  Outside brackets the text ends at a column below `indent`. -/
def plainFrom (inFlow : Bool) (indent : Nat) : Nat → Cursor → List Char → List Char → Bool → PlainText
  | 0, c, found, _, broken => ⟨found.reverse, c, broken⟩
  | steps + 1, c, found, gap, broken =>
    let next := if c.rest.head? = some '#' then [] else word inFlow c.rest
    let c := if (c.rest.drop next.length).head? = some ':' then c.look (next.length + 2) else c
    if next.isEmpty then ⟨found.reverse, c, broken⟩
    else
      let found := next.reverse ++ gap.reverse ++ found
      let c := c.skip next.length
      let blanks := c.rest.takeWhile (· == ' ')
      let c := c.skip blanks.length
      match c.takeBreak with
      | none =>
        if blanks.isEmpty || (!inFlow && c.column < indent) then ⟨found.reverse, c, false⟩
        else plainFrom inFlow indent steps c found blanks false
      | some (first, c) =>
        let c := c.lookForMark
        if c.atDocumentMark then ⟨found.reverse, c, true⟩
        else
          match blankLines (c.left + 1) c with
          | (none, c) => ⟨found.reverse, c, true⟩
          | (some others, c) =>
            if !inFlow && c.column < indent then ⟨found.reverse, c, true⟩
            else plainFrom inFlow indent steps c found (foldBreaks first others) true

/-- The plain text at the cursor. -/
def plainText (inFlow : Bool) (indent : Nat) (c : Cursor) : PlainText :=
  plainFrom inFlow indent c.left c [] [] false

/-- Characters that have a meaning of their own at the start of a datum. -/
def indicators : List Char :=
  ['-', '?', ':', ',', '[', ']', '\x7b', '\x7d', '#', '&', '*', '!', '|', '>', '\'', '"', '%', '@', '\x60']

/-- Whether a plain text can start here. -/
def startsPlain (inFlow : Bool) : List Char → Bool
  | [] => false
  | c :: rest =>
    (!gapNext [c] && !indicators.contains c)
      || (!gapNext rest && (c == '-' || (!inFlow && (c == '?' || c == ':'))))

end Disclosure.Yaml
