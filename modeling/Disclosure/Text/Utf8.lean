/-!
# Disclosure.Text.Utf8 — bytes up to the first bad one

`decodeStart` decodes bytes as UTF-8 and stops at the first byte that cannot stand where it stands.  A file is decoded
in blocks of 8192 bytes and its characters are handed on in blocks of 4096, the first two together; so a bad byte is
not noticed before its block is needed.  `handedOn` are the characters that have been handed on when that happens.

* `length_handedOn_le`: only characters that can be decoded are handed on.
-/

namespace Disclosure.Text

/-- A character of several bytes that has begun: its number so far, how many bytes are missing, and the bounds of the
next one. -/
structure Begun where
  number : Nat
  missing : Nat
  low : Nat := 0x80
  high : Nat := 0xbf
deriving Repr, DecidableEq

/-- What a byte begins.  The bounds of the second byte exclude surrogates, numbers that are too large, and numbers that
have a shorter form. -/
def begin? (b : Nat) : Option Begun :=
  if b < 0xc2 then none
  else if b < 0xe0 then some { number := b - 0xc0, missing := 1 }
  else if b = 0xe0 then some { number := 0, missing := 2, low := 0xa0 }
  else if b = 0xed then some { number := 0xd, missing := 2, high := 0x9f }
  else if b < 0xf0 then some { number := b - 0xe0, missing := 2 }
  else if b = 0xf0 then some { number := 0, missing := 3, low := 0x90 }
  else if b < 0xf4 then some { number := b - 0xf0, missing := 3 }
  else if b = 0xf4 then some { number := 4, missing := 3, high := 0x8f }
  else none

/-- The characters before the first bad byte, and the number of bytes before it. -/
def decodeStart : Option Begun → List UInt8 → List Char × Nat
  | _, [] => ([], 0)
  | none, byte :: rest =>
    let b := byte.toNat
    if b < 0x80 then
      let (chars, good) := decodeStart none rest
      (Char.ofNat b :: chars, good + 1)
    else
      match begin? b with
      | none => ([], 0)
      | some begun =>
        let (chars, good) := decodeStart (some begun) rest
        (chars, good + 1)
  | some begun, byte :: rest =>
    let b := byte.toNat
    let number := begun.number * 64 + b % 64
    if b < begun.low || begun.high < b then ([], 0)
    else if begun.missing = 1 then
      let (chars, good) := decodeStart none rest
      (Char.ofNat number :: chars, good + 1)
    else
      let (chars, good) := decodeStart (some { number, missing := begun.missing - 1 }) rest
      (chars, good + 1)

/-- Lines end with a line feed, a carriage return, or both; here a line feed stands for each. -/
def unifyLineEnds : List Char → List Char
  | '\r' :: '\n' :: rest => '\n' :: unifyLineEnds rest
  | '\r' :: rest => '\n' :: unifyLineEnds rest
  | c :: rest => c :: unifyLineEnds rest
  | [] => []

/-- The characters that are decoded before a bad byte is noticed: those of the blocks before its block.  At the end of
the file the last character can be incomplete; then all others are decoded.  A carriage return waits for the character
after it. -/
def decodedBefore (bytes : List UInt8) : List Char :=
  let good := (decodeStart none bytes).2
  let known := (decodeStart none (if good = bytes.length then bytes else bytes.take (8192 * (good / 8192)))).1
  unifyLineEnds (if known.getLast? = some '\r' then known.dropLast else known)

/-- The characters that are handed on before a bad byte is noticed. -/
def handedOn (bytes : List UInt8) : List Char :=
  let chars := decodedBefore bytes
  if chars.length < 8192 then [] else chars.take (4096 * (chars.length / 4096))

theorem length_handedOn_le (bytes : List UInt8) : (handedOn bytes).length ≤ (decodedBefore bytes).length := by
  unfold handedOn
  dsimp only
  split
  · simp
  · exact List.length_take_le' _ _

end Disclosure.Text
