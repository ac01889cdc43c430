import Disclosure.Text.Hex
import Disclosure.Yaml.Cursor

/-!
# Disclosure.Yaml.QuotedText — texts between quotes

Between single quotes two quotes stand for one.  Between double quotes a backslash starts an escape; an escape can name
any code point, a surrogate included.  A quoted text may go on over several lines: a single line end becomes a blank,
and of several the first is left out.  Blanks around a line end count for nothing.
-/

namespace Disclosure.Yaml

/-- What a line end inside a text becomes, by the line ends of the empty lines after it. -/
def foldBreaks (first : Char) (others : List Char) : List Char :=
  if first ≠ '\n' then first :: others
  else if others.isEmpty then [' ']
  else others

/-- The line ends of the empty lines that come next, and the place of the first character after them that is no gap. -/
def emptyLines : Nat → Cursor → Except Fault (List Char × Cursor)
  | 0, c => .ok ([], c)
  | steps + 1, c =>
    let c := c.lookForMark
    if c.atDocumentMark then c.fault .markInText
    else
      let c := c.skipWhile isGap
      match c.takeBreak with
      | none => .ok ([], c)
      | some (ch, c) => do
        let (others, c) ← emptyLines steps c
        return (ch :: others, c)

/-- The character that a backslash and a letter stand for. -/
def escapedChar? (c : Char) : Option Char :=
  [('0', '\x00'), ('a', '\x07'), ('b', '\x08'), ('t', '\t'), ('\t', '\t'), ('n', '\n'), ('v', '\x0b'), ('f', '\x0c'),
   ('r', '\r'), ('e', '\x1b'), (' ', ' '), ('"', '"'), ('/', '/'), ('\\', '\\'), ('N', '\u0085'), ('_', '\u00a0'),
   ('L', '\u2028'), ('P', '\u2029')].lookup c

/-- The number of hexadecimal digits after a backslash and a letter. -/
def escapeDigits? (c : Char) : Option Nat := [('x', 2), ('u', 4), ('U', 8)].lookup c

/-- What an escape stands for, and the place after it; the backslash has been taken. -/
def escape (steps : Nat) (c : Cursor) : Except Fault (Text × Cursor) :=
  match c.rest with
  | [] => c.fault .badEscape
  | ch :: later =>
    match escapedChar? ch, escapeDigits? ch with
    | some named, _ => .ok ([.char named], c.next)
    | none, some width =>
      let digits := (later.take width).takeWhile (fun d => (Text.hexValue? d).isSome)
      let c := c.next
      if digits.length < width then (c.look (digits.length + 1)).fault .badEscape
      else
        let code := (Text.natural? 16 digits).getD 0
        match CodePoint.ofNat? code with
        | some p => .ok ([p], c.skip width)
        | none => (c.look width).fault (.flaw (if code < Nat.pow 2 31 then .noCharacter else .hugeCharacter))
    | none, none =>
      match c.takeBreak with
      | some (_, c) => do
        let (others, c) ← emptyLines steps c
        return (others.map .char, c)
      | none => c.fault .badEscape

/-- The rest of a text between quotes, and the place after the closing quote.  `found` is what has been read, last code
point first. -/
def quotedFrom (double : Bool) : Nat → Cursor → Text → Except Fault (Text × Cursor)
  | 0, c, _ => c.fault .openQuote
  | steps + 1, c, found =>
    match c.rest with
    | [] => c.fault .openQuote
    | ch :: later =>
      if ch = '"' && double then .ok (found.reverse, c.next)
      else if ch = '\'' && !double then
        if later.head? = some '\'' then quotedFrom double steps (c.skip 2) (.char '\'' :: found)
        else .ok (found.reverse, c.next)
      else if ch = '\\' && double then
        match escape steps c.next with
        | .error f => .error f
        | .ok (points, c) => quotedFrom double steps c (points.reverse ++ found)
      else if isGap ch || isBreak ch then
        let gap := c.rest.takeWhile isGap
        let c := c.skip gap.length
        match c.takeBreak with
        | none => quotedFrom double steps c ((gap.map CodePoint.char).reverse ++ found)
        | some (first, c) =>
          match emptyLines steps c with
          | .error f => .error f
          | .ok (others, c) =>
            quotedFrom double steps c (((foldBreaks first others).map CodePoint.char).reverse ++ found)
      else quotedFrom double steps c.next (.char ch :: found)

/-- A text between quotes, and the place after it; the cursor is at the opening quote. -/
def quotedText (double : Bool) (c : Cursor) : Except Fault (Text × Cursor) :=
  quotedFrom double c.left c.next []

end Disclosure.Yaml
