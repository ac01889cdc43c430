import Disclosure.Scalar
import Disclosure.Text.Digit
import Disclosure.Text.Hex
import Disclosure.Text.Pieces
import Disclosure.Yaml.Fault

/-!
# Disclosure.Yaml.Numeral — how numbers are written

An integer is written in base 10, in base 2 after `0b`, 8 after `0` and 16 after `0x`, or in base 60 with colons
between its places.  A number with a point has an exponent perhaps, which needs a sign; or it is written in base 60; or
it is `.inf` or `.nan`.  Underlines count for nothing.

A plain text is taken for a number only if it has the form of one (`isInteger`, `isFloat`).  A number is then read from
it, or from any text that is tagged as a number, by a rule that is more lenient in some respects (`integer`, `float`):
blanks may stand around the digits and a second sign before them, and digits of all scripts count.  A text that has the
form may still spell no number: `0x_` has no digit.
-/

namespace Disclosure.Yaml

/-- Whether a minus sign comes first, and what follows the sign. -/
def unsigned : List Char → Bool × List Char
  | '-' :: rest => (true, rest)
  | '+' :: rest => (false, rest)
  | cs => (false, cs)

/-- Characters of a number in base 10. -/
def isPlace (c : Char) : Bool := c.isDigit || c == '_'

/-- A number below 60, with one or two digits. -/
def isSixtieth : List Char → Bool
  | [a] => a.isDigit
  | [a, b] => '0' ≤ a && a ≤ '5' && b.isDigit
  | _ => false

/-- The words for the number above all others. -/
def infinityWords : List String := [".inf", ".Inf", ".INF"]

/-- The words for the number that is none. -/
def nanWords : List String := [".nan", ".NaN", ".NAN"]

/-! ### Integers -/

/-- Whether a text has the form of an integer. -/
def isInteger (cs : List Char) : Bool :=
  match (unsigned cs).2 with
  | [] => false
  | '0' :: 'b' :: digits => !digits.isEmpty && digits.all (fun c => c == '0' || c == '1' || c == '_')
  | '0' :: 'x' :: digits => !digits.isEmpty && digits.all (fun c => (Text.hexValue? c).isSome || c == '_')
  | '0' :: digits => digits.all (fun c => ('0' ≤ c && c ≤ '7') || c == '_')
  | digits =>
    match Text.pieces ':' digits with
    | whole :: others => digits.head?.any Char.isDigit && whole.all isPlace && others.all isSixtieth
    | [] => false

/-! ### Numbers with a point -/

/-- Whether an exponent, if there is one, has a sign and digits. -/
def isExponent : List Char → Bool
  | [] => true
  | e :: sign :: digits =>
    (e == 'e' || e == 'E') && (sign == '-' || sign == '+') && !digits.isEmpty && digits.all Char.isDigit
  | _ => false

/-- Whether a text has the form of a number with a point. -/
def isFloat (cs : List Char) : Bool :=
  let (_, body) := unsigned cs
  let whole := body.takeWhile (· ≠ '.')
  let fraction := (body.drop whole.length).drop 1
  infinityWords.contains (String.ofList body) || nanWords.contains (String.ofList cs)
    || (body.contains '.'
      && match Text.pieces ':' whole with
        | [[]] => cs.length = body.length && fraction.head?.any Char.isDigit && isExponent (fraction.dropWhile isPlace)
        | [digits] => whole.head?.any Char.isDigit && digits.all isPlace && isExponent (fraction.dropWhile isPlace)
        | digits :: others =>
          whole.head?.any Char.isDigit && digits.all isPlace && others.all isSixtieth && fraction.all isPlace
        | [] => false)

/-! ### Integers in full -/

/-- The number of digits that a numeral in base 10 may have. -/
def mostDigits : Nat := 4300

/-- The mark that may stand before the digits of a base. -/
def baseMark? : Nat → Option Char
  | 2 => some 'b'
  | 8 => some 'o'
  | 16 => some 'x'
  | _ => none

/-- Digits without the mark of their base. -/
def dropBaseMark (base : Nat) : List Char → List Char
  | '0' :: c :: rest => if baseMark? base = some c.toLower then rest else '0' :: c :: rest
  | cs => cs

/-- The integer that digits of a base spell, with a sign perhaps and blanks around it. -/
def wholeNumber (base : Nat) (cs : List Char) : Except Flaw Int :=
  let (negative, body) := unsigned (Text.trimmed (Text.westernized cs))
  let digits := dropBaseMark base body
  if base = 10 && mostDigits < digits.length then .error .noValue
  else
    match Text.natural? base digits with
    | none => .error .noValue
    | some n => .ok (if negative then -(n : Int) else n)

/-- A number in base 60, the highest place first. -/
def sexagesimal (places : List (List Char)) : Except Flaw Int :=
  places.foldlM (fun n digits => (wholeNumber 10 digits).map (fun d => n * 60 + d)) 0

/-- The size of the integer that a text without its first sign spells. -/
def integerSize : List Char → Except Flaw Int
  | [] => .error .emptyNumeral
  | '0' :: 'b' :: digits => wholeNumber 2 digits
  | '0' :: 'x' :: digits => wholeNumber 16 digits
  | '0' :: digits => wholeNumber 8 ('0' :: digits)
  | digits => if digits.contains ':' then sexagesimal (Text.pieces ':' digits) else wholeNumber 10 digits

/-- The integer that a text spells. -/
def integer (cs : List Char) : Except Flaw Int :=
  match unsigned (cs.filter (· ≠ '_')) with
  | (negative, body) => (integerSize body).map (fun n => if negative then -n else n)

/-! ### Numbers with a point in full -/

/-- An exponent, if one is written. -/
def exponent? : List Char → Option Int
  | [] => some 0
  | e :: rest =>
    if e = 'e' || e = 'E' then
      let (negative, digits) := unsigned rest
      (Text.natural? 10 digits).map (fun n => if negative then -(n : Int) else n)
    else none

/-- The number without a sign in base 10, with a point and an exponent perhaps. -/
def decimal? (cs : List Char) : Option Binary64 :=
  let whole := cs.takeWhile Char.isDigit
  let rest := cs.drop whole.length
  let fraction := if rest.head? = some '.' then (rest.drop 1).takeWhile Char.isDigit else []
  let rest := if rest.head? = some '.' then (rest.drop 1).drop fraction.length else rest
  match Text.natural? 10 (whole ++ fraction), exponent? rest with
  | some digits, some exponent => some (Binary64.ofDecimal false digits (exponent - fraction.length))
  | _, _ => none

/-- The number that a numeral in base 10 or a name spells, with a sign perhaps and blanks around it. -/
def realNumber (cs : List Char) : Except Flaw Binary64 :=
  let (negative, body) := unsigned (Text.trimmed (Text.westernized cs))
  let name := String.ofList (body.map Char.toLower)
  let size : Option Binary64 :=
    if name = "inf" || name = "infinity" then some (.infinite false)
    else if name = "nan" then some .nan
    else decimal? body
  match size with
  | none => .error .noValue
  | some x => .ok (if negative then x.neg else x)

/-- The greatest number of places in base 60 whose units are numbers with a point. -/
def mostPlaces : Nat := 174

/-- The sum of the places in base 60, the lowest one first; `unit` is the size of a unit of the first one. -/
def sumPlaces (unit : Nat) : List Binary64 → Binary64 → Binary64
  | [], sum => sum
  | x :: rest, sum => sumPlaces (unit * 60) rest (sum.add (x.times unit))

/-- The size of the number that a text without its first sign spells. -/
def floatSize (body : List Char) : Except Flaw Binary64 :=
  if body.contains ':' then do
    let places ← (Text.pieces ':' body).mapM realNumber
    if mostPlaces < places.length then throw .tooManyPlaces
    else return sumPlaces 1 places.reverse (.finite 0)
  else realNumber body

/-- The number with a point that a text spells; `origin` is the place of the text.  Only a number that is none and
written by its name is the same everywhere. -/
def float (origin : Nat) (cs : List Char) : Except Flaw Scalar :=
  let cs := (cs.filter (· ≠ '_')).map Char.toLower
  let (negative, body) := unsigned cs
  if cs.isEmpty then .error .emptyNumeral
  else if body = ['.', 'i', 'n', 'f'] then .ok (.float (.infinite negative))
  else if body = ['.', 'n', 'a', 'n'] then .ok (.float .nan)
  else
    match floatSize body with
    | .error f => .error f
    | .ok .nan => .ok (.undefined origin)
    | .ok x => .ok (.float (if negative then x.neg else x))

end Disclosure.Yaml
