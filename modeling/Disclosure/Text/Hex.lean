import Disclosure.Text

/-!
# Disclosure.Text.Hex — hexadecimal digits and the numbers that digits spell
-/

namespace Disclosure.Text

/-- The last `width` hexadecimal digits of `n`, in lower case. -/
def hex : Nat → Nat → List Char
  | 0, _ => []
  | width + 1, n => hex width (n / 16) ++ [Nat.digitChar (n % 16)]

@[simp]
theorem length_hex (width n : Nat) : (hex width n).length = width := by
  induction width generalizing n with
  | zero => rfl
  | succ width ih => simp [hex, ih]

/-- The value of a hexadecimal digit, in either case. -/
def hexValue? (c : Char) : Option Nat :=
  if '0' ≤ c ∧ c ≤ '9' then some (c.toNat - '0'.toNat)
  else if 'a' ≤ c ∧ c ≤ 'f' then some (c.toNat - 'a'.toNat + 10)
  else if 'A' ≤ c ∧ c ≤ 'F' then some (c.toNat - 'A'.toNat + 10)
  else none

/-- The number that digits of a base up to 16 spell; nothing if there is no digit, or something else. -/
def natural? (base : Nat) (digits : List Char) : Option Nat :=
  if digits.isEmpty then none
  else
    digits.foldlM
      (fun n c => (hexValue? c).bind (fun d => if d < base then some (n * base + d) else none)) 0

/-- A code point by its number, after `\u`. -/
def escaped (n : Nat) : List Char := ['\\', 'u'] ++ hex 4 n

/-- A text in which every surrogate is shown by its number. -/
def shown (t : Text) : String :=
  String.ofList (t.flatMap (fun p => match p with
    | .char c => [c]
    | .surrogate offset => escaped (0xd800 + offset.val)))

@[simp]
theorem shown_ofString (s : String) : shown (ofString s) = s := by
  simp [shown, ofString, List.flatMap_map]

end Disclosure.Text
