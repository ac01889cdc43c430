import Disclosure.Moment
import Disclosure.Scalar
import Disclosure.Text.Hex
import Disclosure.Text.Pieces
import Disclosure.Yaml.Cursor

/-!
# Disclosure.Yaml.Timestamp — how dates and times are written

A date has a year of four digits, and a month and a day of two.  A time comes after a `T` or after gaps: hour, minute
and second, a fraction of a second perhaps, and perhaps the distance from universal time; before a time the month and
the day can have one digit.  Of a fraction six digits count.

A plain text of this form (`isTimestamp`) is taken for a date or a time.  A text that is tagged as one (`timestamp`) may
also be a date alone with one digit for the month or the day.  A text of either form may name a day that is in no
calendar: see `Date.isValid` and `Moment.isValid`.
-/

namespace Disclosure.Yaml

/-- A number of at least `least` and at most `most` digits, and what follows its digits. -/
def digitsNext (least most : Nat) (cs : List Char) : Option (Nat × List Char) :=
  let digits := cs.takeWhile Char.isDigit
  if digits.length < least || most < digits.length then none
  else (Text.natural? 10 digits).map (·, cs.drop digits.length)

/-- What follows a mark. -/
def after (mark : Char) : List Char → Option (List Char)
  | c :: rest => if c = mark then some rest else none
  | [] => none

/-- A date, and what follows it. -/
def dateNext (least : Nat) (cs : List Char) : Option (Date × List Char) := do
  let (year, cs) ← digitsNext 4 4 cs
  let (month, cs) ← digitsNext least 2 (← after '-' cs)
  let (day, cs) ← digitsNext least 2 (← after '-' cs)
  return (⟨year, month, day⟩, cs)

/-- The fraction of a second in microseconds, and what follows it. -/
def fractionNext : List Char → Nat × List Char
  | '.' :: cs =>
    let digits := cs.takeWhile Char.isDigit
    ((Text.natural? 10 ((digits ++ List.replicate 6 '0').take 6)).getD 0, cs.drop digits.length)
  | cs => (0, cs)

/-- The distance from universal time that ends a moment, if one is written. -/
def offsetAtEnd (cs : List Char) : Option (Option Int) :=
  match cs, cs.dropWhile isGap with
  | [], _ => some none
  | _, ['Z'] => some (some 0)
  | _, sign :: digits => do
    let (hours, rest) ← digitsNext 1 2 digits
    let minutes ←
      if rest.isEmpty then pure 0
      else do
        let (minutes, rest) ← digitsNext 2 2 (← after ':' rest)
        if rest.isEmpty then pure minutes else none
    let distance : Int := (hours * 60 + minutes : Nat)
    if sign = '-' then return some (-distance)
    else if sign = '+' then return some distance
    else none
  | _, [] => none

/-- A date alone; month and day have at least so many digits. -/
def dateAlone? (least : Nat) (cs : List Char) : Option Date :=
  match dateNext least cs with
  | some (date, []) => some date
  | _ => none

/-- A date with a time. -/
def moment? (cs : List Char) : Option Moment := do
  let (date, cs) ← dateNext 1 cs
  let cs ← match cs with
    | 'T' :: rest | 't' :: rest => some rest
    | _ => if cs.head?.any isGap then some (cs.dropWhile isGap) else none
  let (hour, cs) ← digitsNext 1 2 cs
  let (minute, cs) ← digitsNext 2 2 (← after ':' cs)
  let (second, cs) ← digitsNext 2 2 (← after ':' cs)
  let (microsecond, cs) := fractionNext cs
  let offset ← offsetAtEnd cs
  return { date, hour, minute, second, microsecond, offset }

/-- Whether a text has the form of a date or a time. -/
def isTimestamp (cs : List Char) : Bool := (dateAlone? 2 cs).isSome || (moment? cs).isSome

/-- The date or the time that a text names; it may end in a line end. -/
def timestamp (cs : List Char) : Except Flaw Scalar :=
  let cs := Text.withoutLineEnd cs
  match dateAlone? 1 cs, moment? cs with
  | some d, _ => if d.isValid then .ok (.date d) else .error .noValue
  | none, some m => if m.isValid then .ok (.moment m) else .error .noValue
  | none, none => .error .noTimestamp

end Disclosure.Yaml
