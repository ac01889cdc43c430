/-!
# Disclosure.Text.Base64 — bytes as letters

Four letters of an alphabet of 64 stand for three bytes; at the end two or three letters stand for one or two bytes, and
`=` fills up the group.  Characters outside the alphabet count for nothing, and what follows a full group with `=` is
not read.

* `length_ofGroup`: a group of `n` letters stands for `n * 6 / 8` bytes.
-/

namespace Disclosure.Base64

/-- The value of a letter. -/
def value? (c : Char) : Option Nat :=
  if 'A' ≤ c ∧ c ≤ 'Z' then some (c.toNat - 'A'.toNat)
  else if 'a' ≤ c ∧ c ≤ 'z' then some (c.toNat - 'a'.toNat + 26)
  else if '0' ≤ c ∧ c ≤ '9' then some (c.toNat - '0'.toNat + 52)
  else if c = '+' then some 62
  else if c = '/' then some 63
  else none

/-- The bytes of a group of at most four values: every full eight bits. -/
def ofGroup : List Nat → List UInt8
  | [a, b] => [UInt8.ofNat (a * 4 + b / 16)]
  | [a, b, c] => [UInt8.ofNat (a * 4 + b / 16), UInt8.ofNat (b * 16 + c / 4)]
  | [a, b, c, d] => [UInt8.ofNat (a * 4 + b / 16), UInt8.ofNat (b * 16 + c / 4), UInt8.ofNat (c * 64 + d)]
  | _ => []

/-- The bytes that letters stand for.  `group` holds the values of the group that has begun, in order, and `fill` is the
number of fill marks after them.  A group may not stay open. -/
def decodeFrom (group : List Nat) (fill : Nat) : List Char → Option (List UInt8)
  | [] => if group.isEmpty then some [] else none
  | c :: rest =>
    if c = '=' then
      if 2 ≤ group.length && 4 ≤ group.length + fill + 1 then some (ofGroup group)
      else decodeFrom group (fill + 1) rest
    else
      match value? c with
      | none => decodeFrom group fill rest
      | some v =>
        if group.length = 3 then (decodeFrom [] 0 rest).map (ofGroup (group ++ [v]) ++ ·)
        else decodeFrom (group ++ [v]) 0 rest

/-- The bytes that a text stands for. -/
def decode? (cs : List Char) : Option (List UInt8) := decodeFrom [] 0 cs

theorem length_ofGroup {group : List Nat} (h : group.length ≤ 4) : (ofGroup group).length = group.length * 6 / 8 := by
  match group with
  | [] | [_] | [_, _] | [_, _, _] | [_, _, _, _] => simp [ofGroup]
  | _ :: _ :: _ :: _ :: _ :: _ =>
    simp only [List.length_cons] at h
    omega

end Disclosure.Base64
