import Disclosure.Ascending
import Disclosure.Value.Text

/-!
# Disclosure.Value.Json — values as indented JSON

Two blanks of indentation a level, one item or field a line, the fields of every object sorted by name, and
everything outside the printable ASCII characters escaped.  Characters beyond the basic plane are escaped as two
UTF-16 units.

Not every value can be written: JSON has no dates, bytes or sets, and no list or object that stands inside itself.
Names are sorted only when all of them are texts or all of them are numbers.  A single name needs no order.  A pair is
written as a list.

That a run has room for so many levels only is left out: see `Disclosure.Value`.

* `Value.json`: the JSON of a value, or the first reason against it, in the order in which it is written.
-/

namespace Disclosure

/-- A code point inside a JSON string. -/
def CodePoint.json : CodePoint → List Char
  | .surrogate offset => Text.escaped (0xd800 + offset.val)
  | .char c =>
    if c = '"' || c = '\\' then ['\\', c]
    else if c = '\n' then ['\\', 'n']
    else if c = '\r' then ['\\', 'r']
    else if c = '\t' then ['\\', 't']
    else if c.toNat = 0x08 then ['\\', 'b']
    else if c.toNat = 0x0c then ['\\', 'f']
    else if 0x20 ≤ c.toNat && c.toNat < 0x7f then [c]
    else if c.toNat < 0x10000 then Text.escaped c.toNat
    else
      let rest := c.toNat - 0x10000
      Text.escaped (0xd800 + rest / 0x400) ++ Text.escaped (0xdc00 + rest % 0x400)

/-- A JSON string. -/
def Text.json (t : Text) : String := String.ofList ('"' :: t.flatMap CodePoint.json ++ ['"'])

/-- Why a value has no JSON. -/
inductive Unwritable where
  /-- A datum of a kind that JSON does not have, or names that cannot be sorted. -/
  | noForm
  /-- A list or an object that stands inside itself. -/
  | endless
  /-- An integer with too many digits. -/
  | tooLong
deriving Repr, DecidableEq

namespace Scalar

/-- A scalar as JSON. -/
def json : Scalar → Except Unwritable String
  | .null => .ok "null"
  | .bool b => .ok (if b then "true" else "false")
  | .int n => if (Scalar.int n).isShowable then .ok (Int.repr n) else .error .tooLong
  | .float x => .ok (x.textWith "Infinity" "NaN")
  | .undefined _ => .ok "NaN"
  | .text t => .ok (Text.json t)
  | .bytes _ | .date _ | .moment _ => .error .noForm

/-- The name of a field in JSON: always a string. -/
def jsonName : Scalar → Except Unwritable String
  | .text t => .ok (Text.json t)
  | s => s.json.map (fun written => Text.json (Text.ofString written))

/-- Booleans count as numbers. -/
def isNumber : Scalar → Bool
  | .bool _ | .int _ | .float _ | .undefined _ => true
  | _ => false

/-- The place of a number among the numbers: below all, by its size, or above all.  A number that is none has no
place. -/
def rank? : Scalar → Option (Int × Dyadic)
  | .float (.infinite negative) => some (if negative then -1 else 1, 0)
  | s =>
    match s.sense? with
    | some (.number value) => some (0, value)
    | _ => none

/-- Whether a name comes before another one.  A name without a place comes before none and after none. -/
def before (a b : Scalar) : Bool :=
  match a, b with
  | .text s, .text t => !Text.le t s
  | a, b =>
    match a.rank?, b.rank? with
    | some (i, x), some (j, y) => i < j || (i == j && x.blt y)
    | _, _ => false

end Scalar

/-- Things by name in the order of the names, if the names have one.  When every name has its place, each thing stands
behind those that come before it; else the places are found in `ascending`. -/
def sortByName? {α : Type} (entries : List (Scalar × α)) : Option (List (Scalar × α)) :=
  if entries.all (fun e => e.1.text?.isSome) then some (entries.mergeSort (fun a b => !b.1.before a.1))
  else if entries.all (fun e => e.1.isNumber) then some (ascending entries (fun a b => a.1.before b.1))
  else if entries.length < 2 then some entries
  else none

namespace Value

/-- Lines between brackets, indented for `depth`; nothing between them when there is no line. -/
def jsonBlock (depth : Nat) (left right : String) (lines : List String) : String :=
  let margin (n : Nat) := "\n" ++ String.ofList (List.replicate (2 * n) ' ')
  match lines with
  | [] => left ++ right
  | _ => left ++ margin (depth + 1) ++ ("," ++ margin (depth + 1)).intercalate lines ++ margin depth ++ right

/-- The lines of fields in the order of their names. -/
def jsonLines (fields : List (Scalar × Except Unwritable String)) : Except Unwritable (List String) :=
  match sortByName? fields with
  | none => .error .noForm
  | some sorted => sorted.mapM (fun (name, line) => do return (← name.jsonName) ++ ": " ++ (← line))

mutual

/-- A value as JSON whose first line starts at `depth`; `around` are the labels of the knots around it. -/
def jsonAt (depth : Nat) (around : List Nat) : Value → Except Unwritable String
  | .scalar s => s.json
  | .list items => do return jsonBlock depth "[" "]" (← jsonItems (depth + 1) around items)
  | .object fields => do return jsonBlock depth "\x7b" "\x7d" (← jsonLines (jsonFields (depth + 1) around fields))
  | .pair v w => do
    let first ← jsonAt (depth + 1) around v
    let second ← jsonAt (depth + 1) around w
    return jsonBlock depth "[" "]" [first, second]
  | .set _ => .error .noForm
  | .knot label v => if around.contains label then .error .endless else jsonAt depth (label :: around) v
  | .again _ => .error .endless

/-- The items of a list, up to the first that cannot be written. -/
def jsonItems (depth : Nat) (around : List Nat) : List Value → Except Unwritable (List String)
  | [] => .ok []
  | v :: rest => do
    let line ← jsonAt depth around v
    let lines ← jsonItems depth around rest
    return line :: lines

/-- The fields of an object, each with its name. -/
def jsonFields (depth : Nat) (around : List Nat) :
    List (Scalar × Value) → List (Scalar × Except Unwritable String)
  | [] => []
  | (name, v) :: rest => (name, jsonAt depth around v) :: jsonFields depth around rest

end

/-- A value as indented JSON, if it can be written. -/
def json (v : Value) : Except Unwritable String := jsonAt 0 [] v

end Value

end Disclosure
