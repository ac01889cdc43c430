/-!
# Disclosure.Binary64 — numbers with a point

A numeral with a point stands for the nearest binary floating-point number of 64 bits, the even one of two that are
equally near.  Finite numbers are kept as the dyadic numbers that they are; zero can have a minus sign.

* `ofRatio` rounds a quotient, `ofDecimal` a decimal numeral, and `add` the sum of two numbers.
-/

namespace Disclosure

/-- A binary floating-point number of 64 bits. -/
inductive Binary64 where
  | finite (value : Dyadic)
  | negativeZero
  | infinite (negative : Bool)
  | nan
deriving DecidableEq

namespace Binary64

/-- A quotient `num * 2 ^ shift / den` to the nearest natural number, to the even one of two. -/
def roundQuotient (num den : Nat) (shift : Int) : Nat :=
  let n := num <<< shift.toNat
  let d := den <<< (-shift).toNat
  let low := n / d
  let twice := 2 * (n % d)
  if d < twice || (twice == d && low % 2 == 1) then low + 1 else low

/-- The exponent of the last bit of a number of 53 bits that is nearest to `num / den`. -/
def lastBit (num den : Nat) : Int :=
  let e : Int := (num.log2 : Int) - den.log2 - 53
  let wide := decide ((den <<< (53 + e).toNat) ≤ num <<< (-(53 + e)).toNat)
  max (if wide then e + 1 else e) (-1074)

/-- Zero with a sign. -/
def zero (negative : Bool) : Binary64 := if negative then .negativeZero else .finite 0

/-- The number nearest to `num / den`, with a sign. -/
def ofRatio (negative : Bool) (num den : Nat) : Binary64 :=
  if num = 0 then zero negative
  else
    let e := lastBit num den
    let m := roundQuotient num den (-e)
    if m = 0 then zero negative
    else if 1024 ≤ e + (m.log2 : Int) then .infinite negative
    else .finite (Dyadic.ofIntWithPrec (if negative then -(m : Int) else m) (-e))

/-- The number nearest to `digits * 10 ^ exponent`, with a sign.  Exponents that are far out of range are not
computed. -/
def ofDecimal (negative : Bool) (digits : Nat) (exponent : Int) : Binary64 :=
  let places : Int := (Nat.toDigits 10 digits).length
  if digits = 0 || exponent + places < -400 then zero negative
  else if 400 < exponent + places then .infinite negative
  else ofRatio negative (digits * Nat.pow 10 exponent.toNat) (Nat.pow 10 (-exponent).toNat)

/-- The size of a dyadic number as a quotient of natural numbers. -/
def ratio : Dyadic → Nat × Nat
  | .zero => (0, 1)
  | .ofOdd n k _ => (n.natAbs <<< (-k).toNat, 1 <<< k.toNat)

/-- Whether a dyadic number is below zero. -/
def isNegative : Dyadic → Bool
  | .zero => false
  | .ofOdd n _ _ => decide (n < 0)

/-- The number nearest to a dyadic number. -/
def round (d : Dyadic) : Binary64 := ofRatio (isNegative d) (ratio d).1 (ratio d).2

/-- The number nearest to the sum of two numbers. -/
def add : Binary64 → Binary64 → Binary64
  | .nan, _ | _, .nan => .nan
  | .finite a, .finite b => round (a + b)
  | .negativeZero, b => b
  | a, .negativeZero => a
  | .infinite s, .infinite t => if s = t then .infinite s else .nan
  | .infinite s, .finite _ => .infinite s
  | .finite _, .infinite t => .infinite t

/-- The number with the other sign. -/
def neg : Binary64 → Binary64
  | .finite value => if value == 0 then .negativeZero else .finite (-value)
  | .negativeZero => .finite 0
  | .infinite negative => .infinite (!negative)
  | .nan => .nan

/-- The number nearest to `n` times a number; `n` is rounded first. -/
def times (n : Nat) (x : Binary64) : Binary64 :=
  match ofRatio false n 1, x with
  | .finite a, .finite b => round (a * b)
  | .finite a, .negativeZero => if isNegative a then .finite 0 else .negativeZero
  | .infinite _, .infinite t => .infinite t
  | .finite a, .infinite t => if a == 0 then .nan else .infinite t
  | .infinite _, .finite b => if b == 0 then .nan else .infinite (isNegative b)
  | _, _ => .nan

/-- Zero, of either sign. -/
def isZero : Binary64 → Bool
  | .finite value => value == 0
  | .negativeZero => true
  | _ => false

end Binary64

end Disclosure
