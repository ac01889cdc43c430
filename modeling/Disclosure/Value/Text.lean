import Disclosure.Binary64.Shortest
import Disclosure.Text.Quoted
import Disclosure.Value
import Disclosure.Value.MemberOrder

/-!
# Disclosure.Value.Text — values as they are shown to people

`Value.plain` shows a text as it is, a date or a time as it is written, and everything else as `Value.quoted` does.
Inside lists and objects texts stand between quotes.  A list or an object that stands inside itself is shown there as
three points between its brackets.

Integers are shown in base 10 as long as they have at most `longestNumeral` digits: see `Value.isShowable`.  How deep a
value is nested does not count here, although a run has room for so many levels only: see `Disclosure.Value`.
-/

namespace Disclosure

/-- A distance from universal time, in days and seconds. -/
def offsetQuoted (offset : Int) : String :=
  let days := offset.fdiv (24 * 60)
  let seconds := offset.fmod (24 * 60) * 60
  if offset = 0 then "datetime.timezone.utc"
  else
    "datetime.timezone(datetime.timedelta("
      ++ ", ".intercalate
          ((if days = 0 then [] else ["days=" ++ Int.repr days])
            ++ (if seconds = 0 then [] else ["seconds=" ++ Int.repr seconds]))
      ++ "))"

/-- The numbers of a date. -/
def Date.numbers (d : Date) : List Nat := [d.year, d.month, d.day]

/-- The numbers of a moment; seconds and microseconds only as far as they are needed. -/
def Moment.numbers (m : Moment) : List Nat :=
  m.date.numbers ++ [m.hour, m.minute]
    ++ (if m.microsecond ≠ 0 then [m.second, m.microsecond] else if m.second ≠ 0 then [m.second] else [])

/-- A byte between the given quotes. -/
def byteQuoted (mark : Char) (b : UInt8) : List Char :=
  if b < 0x80 then
    let c := Char.ofNat b.toNat
    if c = mark || c = '\\' then ['\\', c]
    else if c = '\n' then ['\\', 'n']
    else if c = '\r' then ['\\', 'r']
    else if c = '\t' then ['\\', 't']
    else if c.toNat < 0x20 || c.toNat = 0x7f then ['\\', 'x'] ++ Text.hex 2 c.toNat
    else [c]
  else ['\\', 'x'] ++ Text.hex 2 b.toNat

/-- Bytes between quotes after a `b`; the quotes are those of a text. -/
def bytesQuoted (bytes : List UInt8) : String :=
  let mark := Text.quoteMark (bytes.map (fun b => .char (Char.ofNat b.toNat)))
  String.ofList (['b', mark] ++ bytes.flatMap (byteQuoted mark) ++ [mark])

/-- The number of digits that an integer may have, written in base 10. -/
def longestNumeral : Nat := 4300

/-- The integers from here on have too many digits. -/
def numeralBound : Nat := Nat.pow 10 longestNumeral

namespace Scalar

/-- Every integer can be shown but those with too many digits. -/
def isShowable : Scalar → Bool
  | .int n => n.natAbs < numeralBound
  | _ => true

/-- A scalar with a text between quotes. -/
def quoted : Scalar → String
  | .null => "None"
  | .bool true => "True"
  | .bool false => "False"
  | .int n => Int.repr n
  | .float x => x.textWith "inf" "nan"
  | .undefined _ => "nan"
  | .text t => Text.quoted t
  | .bytes b => bytesQuoted b
  | .date d => "datetime.date(" ++ ", ".intercalate (d.numbers.map Nat.repr) ++ ")"
  | .moment m =>
    "datetime.datetime("
      ++ ", ".intercalate
          (m.numbers.map Nat.repr ++ (m.offset.map (fun offset => "tzinfo=" ++ offsetQuoted offset)).toList)
      ++ ")"

/-- A text as it is, a date or a time as it is written; any other scalar as `quoted` shows it. -/
def plain : Scalar → Text
  | .text t => t
  | .date d => d.text
  | .moment m => m.text
  | s => s.quoted

end Scalar

/-- What is shown for a list or an object inside itself. -/
def Value.againShown : Value → String
  | .object _ => "\x7b...\x7d"
  | _ => "[...]"

/-- A set between braces; the empty set by its name. -/
def setQuoted (members : List Scalar) : String :=
  if members.isEmpty then "set()"
  else "\x7b" ++ ", ".intercalate ((Scalar.inOrder members).map Scalar.quoted) ++ "\x7d"

namespace Value

mutual

/-- A value with every text between quotes.  `around` are the labels of the knots around it, each with what is shown
for it here. -/
def quotedWithin (around : List (Nat × String)) : Value → String
  | .scalar s => s.quoted
  | .list items => "[" ++ ", ".intercalate (quotedItems around items) ++ "]"
  | .object fields => "\x7b" ++ ", ".intercalate (quotedFields around fields) ++ "\x7d"
  | .pair v w => "(" ++ quotedWithin around v ++ ", " ++ quotedWithin around w ++ ")"
  | .set members => setQuoted members
  | .knot label v =>
    match around.lookup label with
    | some shown => shown
    | none => quotedWithin ((label, v.againShown) :: around) v
  | .again label => (around.lookup label).getD "[...]"

/-- The items of a list. -/
def quotedItems (around : List (Nat × String)) : List Value → List String
  | [] => []
  | v :: rest => quotedWithin around v :: quotedItems around rest

/-- The fields of an object: name, colon, value. -/
def quotedFields (around : List (Nat × String)) : List (Scalar × Value) → List String
  | [] => []
  | (name, v) :: rest => (name.quoted ++ ": " ++ quotedWithin around v) :: quotedFields around rest

end

/-- A value with every text between quotes. -/
def quoted (v : Value) : String := quotedWithin [] v

/-- A scalar as `Scalar.plain` shows it; any other value as `quoted` does. -/
def plain : Value → Text
  | .scalar s => s.plain
  | v => v.quoted

mutual

/-- Whether every integer in a value can be shown. -/
def isShowable : Value → Bool
  | .scalar s => s.isShowable
  | .list items => areShowable items
  | .object fields => fieldsShowable fields
  | .pair v w => isShowable v && isShowable w
  | .set members => members.all Scalar.isShowable
  | .knot _ v => isShowable v
  | .again _ => true

/-- Whether every item can be shown. -/
def areShowable : List Value → Bool
  | [] => true
  | v :: rest => isShowable v && areShowable rest

/-- Whether every field can be shown. -/
def fieldsShowable : List (Scalar × Value) → Bool
  | [] => true
  | (name, v) :: rest => name.isShowable && isShowable v && fieldsShowable rest

end

end Value

end Disclosure
