/-!
# Disclosure.Moment — dates and times

A plain text such as `2024-05-01` in a YAML file is a date, and `2024-05-01 12:30:00 +02:00` a moment.  Moments with a
distance from universal time are equal when they are the same instant; a moment without one equals only a moment
without one.
-/

namespace Disclosure

/-- A day of the calendar. -/
structure Date where
  year : Nat
  month : Nat
  day : Nat
deriving Repr, DecidableEq

/-- A time of a day; `offset` is the distance from universal time in minutes. -/
structure Moment where
  date : Date
  hour : Nat
  minute : Nat
  second : Nat
  microsecond : Nat
  offset : Option Int
deriving Repr, DecidableEq

namespace Date

/-- Every fourth year, without the full centuries that are no multiples of 400. -/
def isLeapYear (year : Nat) : Bool := year % 4 == 0 && (year % 100 != 0 || year % 400 == 0)

/-- The days of a month. -/
def daysOf (year month : Nat) : Nat :=
  if month = 2 then (if isLeapYear year then 29 else 28)
  else if [4, 6, 9, 11].contains month then 30
  else 31

/-- Years have one to four digits, and no month has more days than the calendar gives it. -/
def isValid (d : Date) : Bool :=
  1 ≤ d.year && d.year ≤ 9999 && 1 ≤ d.month && d.month ≤ 12 && 1 ≤ d.day && d.day ≤ daysOf d.year d.month

/-- The number of days before a date. -/
def ordinal (d : Date) : Nat :=
  let years := d.year - 1
  years * 365 + years / 4 - years / 100 + years / 400
    + (List.range (d.month - 1)).foldl (fun days m => days + daysOf d.year (m + 1)) 0 + (d.day - 1)

/-- A number with zeros in front. -/
def padded (width n : Nat) : String :=
  let digits := Nat.repr n
  String.ofList (List.replicate (width - digits.length) '0') ++ digits

/-- Year, month and day. -/
def text (d : Date) : String := padded 4 d.year ++ "-" ++ padded 2 d.month ++ "-" ++ padded 2 d.day

end Date

namespace Moment

/-- The day has 24 hours, and universal time is less than a day away. -/
def isValid (m : Moment) : Bool :=
  m.date.isValid && m.hour < 24 && m.minute < 60 && m.second < 60 && (m.offset.all (fun o => o.natAbs < 24 * 60))

/-- Microseconds since the first day: in universal time when the distance from it is known. -/
def instant (m : Moment) : Int :=
  let minutes : Int := ((m.date.ordinal * 24 + m.hour) * 60 + m.minute : Nat) - m.offset.getD 0
  (minutes * 60 + m.second) * 1000000 + m.microsecond

/-- A distance from universal time. -/
def offsetText (offset : Int) : String :=
  (if offset < 0 then "-" else "+") ++ Date.padded 2 (offset.natAbs / 60) ++ ":" ++ Date.padded 2 (offset.natAbs % 60)

/-- Date and time with a blank between them. -/
def text (m : Moment) : String :=
  m.date.text ++ " " ++ Date.padded 2 m.hour ++ ":" ++ Date.padded 2 m.minute ++ ":" ++ Date.padded 2 m.second
    ++ (if m.microsecond = 0 then "" else "." ++ Date.padded 6 m.microsecond)
    ++ (match m.offset with
        | none => ""
        | some offset => offsetText offset)

end Moment

end Disclosure
