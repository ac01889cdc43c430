import Disclosure.Text.Hex
import Disclosure.Yaml.BlockText
import Disclosure.Yaml.Lexeme
import Disclosure.Yaml.Numeral

/-!
# Disclosure.Yaml.Property — names, tags and directives

What can stand before a datum: an anchor that names it, an alias for a named one, a tag that says what it is; and the
directives before a document.
-/

namespace Disclosure.Yaml

/-- Characters of names. -/
def isNameChar (c : Char) : Bool := c.isAlphanum || c == '-' || c == '_'

/-- Characters of tags. -/
def isTagChar (c : Char) : Bool := c.isAlphanum || "-;/?:@&=+$,_.!~*'()[]%".toList.contains c

/-- Characters that may follow a name at once. -/
def nameEnds : List Char → Bool
  | [] => true
  | c :: rest => gapNext (c :: rest) || ['?', ':', ',', ']', '\x7d', '%', '@', '\x60'].contains c

/-- The name behind a mark, and the place after it; the cursor is at the mark. -/
def nameAfterMark (c : Cursor) : Except Fault (String × Cursor) :=
  let c := c.next
  let name := c.rest.takeWhile isNameChar
  let c := c.skip name.length
  if name.isEmpty || !nameEnds c.rest then c.fault (.badForm "a name") else .ok (String.ofList name, c)

/-! ### Tags -/

/-- The bytes that percent signs with two hexadecimal digits each stand for, as far as they go on, and the place after
them. -/
def percentBytes : Nat → Cursor → Except Fault (List UInt8 × Cursor)
  | 0, c => .ok ([], c)
  | steps + 1, c =>
    if c.rest.head? = some '%' then
      let c := c.next
      match (c.rest.take 2).map Text.hexValue? with
      | [some x, some y] => do
        let (bytes, c) ← percentBytes steps (c.skip 2)
        return (UInt8.ofNat (x * 16 + y) :: bytes, c)
      | some _ :: _ => (c.look 2).fault (.badForm "a tag")
      | _ => c.fault (.badForm "a tag")
    else .ok ([], c)

/-- The characters of a tag, and the place after them; bytes after percent signs are read as UTF-8. -/
def tagCharsFrom : Nat → Cursor → Except Fault (List Char × Cursor)
  | 0, c => .ok ([], c)
  | steps + 1, c =>
    match c.rest with
    | [] => .ok ([], c)
    | ch :: _ =>
      if ch = '%' then do
        let (bytes, c) ← percentBytes steps c
        match String.fromUTF8? ⟨bytes.toArray⟩ with
        | none => c.fault (.badForm "a tag")
        | some s =>
          let (chars, c) ← tagCharsFrom steps c
          return (s.toList ++ chars, c)
      else if isTagChar ch then do
        let (chars, c) ← tagCharsFrom steps c.next
        return (ch :: chars, c)
      else .ok ([], c)

/-- The characters of a tag, of which there is at least one, and the place after them. -/
def tagChars (c : Cursor) : Except Fault (String × Cursor) := do
  let (chars, after) ← tagCharsFrom (c.left + 1) c
  if after.index = c.index then c.fault (.badForm "a tag") else return (String.ofList chars, after)

/-- A handle: an exclamation mark, or a name between two. -/
def tagHandle (c : Cursor) : Except Fault (String × Cursor) :=
  match c.rest with
  | '!' :: rest =>
    if rest.head? = some ' ' then .ok ("!", c.next)
    else
      let name := rest.takeWhile isNameChar
      if (rest.drop name.length).head? = some '!' then
        .ok (String.ofList ('!' :: name ++ ['!']), c.skip (name.length + 2))
      else (c.look (name.length + 2)).fault (.badForm "a tag")
  | _ => c.fault (.badForm "a tag")

/-- A tag with its handle, and the place after it; the cursor is at the exclamation mark. -/
def tagToken (c : Cursor) : Except Fault (Token × Cursor) := do
  let rest := c.rest.drop 1
  let c := c.look 2
  let (token, c) ←
    if rest.head? = some '<' then do
      let (suffix, c) ← tagChars (c.skip 2)
      if c.rest.head? = some '>' then pure (Token.tag none suffix, c.next) else c.fault (.badForm "a tag")
    else if gapNext rest then pure (Token.tag none "!", c.next)
    else do
      let start := rest.takeWhile (fun ch => ch != '!' && !blankNext [ch])
      let c := c.look (start.length + 2)
      let (handle, c) ← if (rest.drop start.length).head? = some '!' then tagHandle c else pure ("!", c.next)
      let (suffix, c) ← tagChars c
      pure (Token.tag (some handle) suffix, c)
  if blankNext c.rest then return (token, c) else c.fault (.badForm "a tag")

/-! ### Directives -/

/-- Digits, and the place after them. -/
def directiveNumber (c : Cursor) : Except Fault (Nat × Cursor) :=
  let digits := c.rest.takeWhile Char.isDigit
  if digits.isEmpty then c.fault (.badForm "a directive")
  else if mostDigits < digits.length then (c.look (digits.length + 1)).fault (.flaw .noValue)
  else .ok (digits.foldl (fun n d => n * 10 + (d.toNat - '0'.toNat)) 0, c.skip digits.length)

/-- The version that a directive asks for. -/
def versionToken (c : Cursor) : Except Fault (Token × Cursor) := do
  let (major, c) ← directiveNumber (c.skipWhile (· == ' '))
  if c.rest.head? = some '.' then
    let (_, c) ← directiveNumber c.next
    if blankNext c.rest then return (.version major, c) else c.fault (.badForm "a directive")
  else c.fault (.badForm "a directive")

/-- The handle that a directive gives a meaning to. -/
def prefixToken (c : Cursor) : Except Fault (Token × Cursor) := do
  let (handle, c) ← tagHandle (c.skipWhile (· == ' '))
  if c.rest.head? = some ' ' then
    let (meaning, c) ← tagChars (c.skipWhile (· == ' '))
    if blankNext c.rest then return (.tagPrefix handle meaning, c) else c.fault (.badForm "a directive")
  else c.fault (.badForm "a directive")

/-- A directive, and the place after its line; the cursor is at the percent sign. -/
def directiveToken (c : Cursor) : Except Fault (Token × Cursor) := do
  let c := c.next
  let name := c.rest.takeWhile isNameChar
  let c := c.skip name.length
  if name.isEmpty || !blankNext c.rest then c.fault (.badForm "a directive")
  else
    let (token, c) ←
      if name = ['Y', 'A', 'M', 'L'] then versionToken c
      else if name = ['T', 'A', 'G'] then prefixToken c
      else pure (.otherDirective, c.skipWhile (fun ch => !isBreak ch))
    let c ← restOfLine "a directive" c
    return (token, c)

end Disclosure.Yaml
