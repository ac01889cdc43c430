import Disclosure.Binary64

/-!
# Disclosure.Binary64.Shortest — the text of a number

A number is written with the fewest digits that read back to it, and of these with the nearest.  Numbers from 0.0001
up to below 10 ^ 16 are written with a point, which always has a digit after it; all others with an exponent of at
least two digits.
-/

namespace Disclosure.Binary64

/-- The numbers that read back as `m * 2 ^ e`: in quarters of the last bit they reach from `low` to `high`, the ends
included when `m` is even. -/
structure Interval where
  m : Nat
  e : Int
  low : Nat
  high : Nat

/-- The numbers that read back as `size`.  Below a power of two the next number is half as far away as above it. -/
def Interval.ofRatio (size : Nat × Nat) : Interval :=
  let e := lastBit size.1 size.2
  let m := roundQuotient size.1 size.2 (-e)
  let narrow := m == 1 <<< 52 && -1074 < e
  ⟨m, e, if narrow then 4 * m - 1 else 4 * m - 2, 4 * m + 2⟩

/-- Compares `a * 10 ^ i` with `n * 2 ^ j`. -/
def compareScaled (a : Nat) (i : Int) (n : Nat) (j : Int) : Ordering :=
  compare ((a * Nat.pow 10 i.toNat) <<< (-j).toNat) ((n * Nat.pow 10 (-i).toNat) <<< j.toNat)

/-- Whether `digits * 10 ^ exponent` reads back as the number. -/
def Interval.readsBack (x : Interval) (digits : Nat) (exponent : Int) : Bool :=
  let ends := x.m % 2 == 0
  let below := compareScaled digits exponent x.low (x.e - 2)
  let above := compareScaled digits exponent x.high (x.e - 2)
  (below == .gt || (ends && below == .eq)) && (above == .lt || (ends && above == .eq))

/-- The greatest `digits` with `digits * 10 ^ exponent` not above the number. -/
def Interval.gridBelow (x : Interval) (exponent : Int) : Nat :=
  ((x.m * Nat.pow 10 (-exponent).toNat) <<< x.e.toNat) / ((Nat.pow 10 exponent.toNat) <<< (-x.e).toNat)

/-- The nearer of `digits` and the next number on the grid of `10 ^ exponent` that reads back; of two that are
equally near the even one. -/
def Interval.onGrid (x : Interval) (exponent : Int) : Option Nat :=
  let digits := x.gridBelow exponent
  let below := digits != 0 && x.readsBack digits exponent
  let above := x.readsBack (digits + 1) exponent
  match below, above with
  | false, false => none
  | true, false => some digits
  | false, true => some (digits + 1)
  | true, true =>
    match compareScaled (2 * digits + 1) exponent (2 * x.m) x.e with
    | .gt => some digits
    | .lt => some (digits + 1)
    | .eq => some (if digits % 2 = 0 then digits else digits + 1)

/-- The first grid from `10 ^ exponent` on, each ten times finer than the one before, that has a number which reads
back: its digits and its exponent. -/
def Interval.search (x : Interval) (exponent : Int) : Nat → Nat × Int
  | 0 => (x.gridBelow exponent, exponent)
  | more + 1 =>
    match x.onGrid exponent with
    | some digits => (digits, exponent)
    | none => x.search (exponent - 1) more

/-- The greatest power of ten not above `m * 2 ^ e`, found from a power of ten above it by going down. -/
def leadingExponent (m : Nat) (e : Int) : Nat → Int → Int
  | 0, k => k
  | more + 1, k => if compareScaled 1 k m e == .gt then leadingExponent m e more (k - 1) else k

/-- The fewest digits that read back, without zeros at their end, and their exponent. -/
def shortest (size : Nat × Nat) : Nat × Int :=
  let x := Interval.ofRatio size
  let bits : Int := (x.m.log2 : Int) + x.e
  let guess : Int := bits * 3 / 10 + (if bits < 0 then 2 else 20)
  let exponent := leadingExponent x.m x.e 60 guess
  x.search (exponent + 1) 20

/-- Digits with the zeros at their end taken off, and how many were taken off. -/
def dropZeros : Nat → Nat → Nat × Nat
  | 0, n => (n, 0)
  | steps + 1, n =>
    if n % 10 = 0 && n != 0 then
      let (rest, count) := dropZeros steps (n / 10)
      (rest, count + 1)
    else (n, 0)

def zeros (n : Nat) : List Char := List.replicate n '0'

/-- Digits and exponent as a numeral: with a point from 0.0001 up to below 10 ^ 16, else with an exponent. -/
def layout (digits : List Char) (exponent : Int) : List Char :=
  let point : Int := exponent + digits.length
  if -4 < point && point ≤ 16 then
    if point ≤ 0 then '0' :: '.' :: zeros (-point).toNat ++ digits
    else if 0 ≤ exponent then digits ++ zeros exponent.toNat ++ ['.', '0']
    else digits.take point.toNat ++ '.' :: digits.drop point.toNat
  else
    let power := point - 1
    let written := Nat.toDigits 10 power.natAbs
    let fraction := digits.drop 1
    digits.take 1 ++ (if fraction.isEmpty then [] else '.' :: fraction)
      ++ ['e', if power < 0 then '-' else '+'] ++ (if written.length < 2 then '0' :: written else written)

/-- A number as a numeral; the names of the numbers that are not finite are given. -/
def textWith (infinity nan : String) : Binary64 → String
  | .nan => nan
  | .infinite negative => (if negative then "-" else "") ++ infinity
  | .negativeZero => "-0.0"
  | .finite value =>
    if value == 0 then "0.0"
    else
      let (digits, exponent) := shortest (ratio value)
      let (digits, dropped) := dropZeros 20 digits
      (if isNegative value then "-" else "") ++ String.ofList (layout (Nat.toDigits 10 digits) (exponent + dropped))

end Disclosure.Binary64
