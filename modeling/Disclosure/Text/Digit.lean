/-!
# Disclosure.Text.Digit — digits and blanks of all scripts

A numeral may be written in the decimal digits of any script and stand between blanks of any script.
`westernized` puts the digits 0 to 9 and plain blanks for them, and a question mark, which is part of no numeral, for
every other character outside ASCII.

* `westernized_eq_self`: a text of ASCII characters stays as it is.
-/

namespace Disclosure.Text

/-- The digits zero of the scripts that have decimal digits; the other nine follow each of them. -/
def scriptZeros : List Nat :=
  [0x660, 0x6f0, 0x7c0, 0x966, 0x9e6, 0xa66, 0xae6, 0xb66, 0xbe6, 0xc66, 0xce6, 0xd66, 0xde6, 0xe50, 0xed0, 0xf20,
   0x1040, 0x1090, 0x17e0, 0x1810, 0x1946, 0x19d0, 0x1a80, 0x1a90, 0x1b50, 0x1bb0, 0x1c40, 0x1c50, 0xa620, 0xa8d0,
   0xa900, 0xa9d0, 0xa9f0, 0xaa50, 0xabf0, 0xff10, 0x104a0, 0x10d30, 0x11066, 0x110f0, 0x11136, 0x111d0, 0x112f0,
   0x11450, 0x114d0, 0x11650, 0x116c0, 0x11730, 0x118e0, 0x11950, 0x11c50, 0x11d50, 0x11da0, 0x16a60, 0x16ac0, 0x16b50,
   0x1d7ce, 0x1d7d8, 0x1d7e2, 0x1d7ec, 0x1d7f6, 0x1e140, 0x1e2f0, 0x1e950, 0x1fbf0]

/-- Blanks outside ASCII. -/
def isWideBlank (c : Char) : Bool :=
  let n := c.toNat
  (0x2000 ≤ n && n ≤ 0x200a)
    || [0x85, 0xa0, 0x1680, 0x2028, 0x2029, 0x202f, 0x205f, 0x3000].contains n

/-- The ASCII character to read for a character of a numeral. -/
def western (c : Char) : Char :=
  let n := c.toNat
  if n < 0x7f then c
  else if isWideBlank c then ' '
  else
    match scriptZeros.find? (fun first => first ≤ n && n < first + 10) with
    | some first => Nat.digitChar (n - first)
    | none => '?'

/-- A numeral in ASCII characters. -/
def westernized (cs : List Char) : List Char := cs.map western

/-- Blanks and controls that may stand around a numeral. -/
def isAroundNumeral (c : Char) : Bool := c == ' ' || (0x09 ≤ c.toNat && c.toNat ≤ 0x0d)

/-- The characters between the blanks around them. -/
def trimmed (cs : List Char) : List Char :=
  ((cs.dropWhile isAroundNumeral).reverse.dropWhile isAroundNumeral).reverse

theorem westernized_eq_self {cs : List Char} (h : ∀ c ∈ cs, c.toNat < 0x7f) : westernized cs = cs := by
  unfold westernized
  conv => rhs; rw [← List.map_id cs]
  exact List.map_congr_left (fun c hc => by simp [western, h c hc])

end Disclosure.Text
