import Disclosure.Value

/-!
# Disclosure.Value.Equality — when two values say the same

Scalars say the same when they have the same sense.  Lists are compared item by item, objects field by field without
regard to the order of the fields, sets member by member without regard to their order.

Values that stand inside themselves are compared by going round the knots, which comes to no end if they agree
everywhere.  Other values are compared to the bottom however deep they are, for which a run has not always room: see
`Disclosure.Value`.

* `Value.equiv` compares values as they are written down.
* `Value.same?` goes round the knots; it gives no answer when there is none.  `same?_eq_some` says that it agrees with
  `equiv` where there is no knot.
-/

namespace Disclosure

/-- Sets of the same size, with every member of the first among those of the second. -/
def Scalar.equivSets (a b : List Scalar) : Bool :=
  a.length == b.length && a.all (fun s => b.any (fun t => s.equiv t))

namespace Value

mutual

/-- Equality up to the spelling of numbers, the order of fields and the order of members. -/
def equiv : Value → Value → Bool
  | .scalar a, .scalar b => a.equiv b
  | .list a, .list b => equivItems a b
  | .object a, .object b => a.length == b.length && equivFields a b
  | .pair v w, .pair x y => equiv v x && equiv w y
  | .set a, .set b => Scalar.equivSets a b
  | .knot l v, .knot m w => l == m && equiv v w
  | .again l, .again m => l == m
  | _, _ => false

/-- Lists of the same length, equal item by item. -/
def equivItems : List Value → List Value → Bool
  | [], [] => true
  | v :: vs, w :: ws => equiv v w && equivItems vs ws
  | _, _ => false

/-- Every field of the first object is a field of the second, with an equal value. -/
def equivFields : List (Scalar × Value) → List (Scalar × Value) → Bool
  | [], _ => true
  | (name, v) :: rest, other =>
    (match other.find? (fun field => name.equiv field.1) with
      | some field => equiv v field.2
      | none => false) && equivFields rest other

end

/-! ### Round the knots -/

/-- Whether two lists agree item by item; the first difference is the answer. -/
def agree (compare : Value → Value → Option Bool) : List Value → List Value → Option Bool
  | [], [] => some true
  | v :: vs, w :: ws => do
    if ← compare v w then agree compare vs ws else some false
  | _, _ => some false

/-- Whether every field of the first object is a field of the second that agrees; the first difference is the
answer. -/
def agreeFields (compare : Value → Value → Option Bool) (other : Fields) : Fields → Option Bool
  | [] => some true
  | (name, v) :: rest =>
    match other.find? (fun field => name.equiv field.1) with
    | none => some false
    | some field => do
      if ← compare v field.2 then agreeFields compare other rest else some false

/-- Equality of values at most `depth` levels deep; no answer if that does not suffice. -/
def sameWithin : Nat → Value → Value → Option Bool
  | 0, _, _ => none
  | depth + 1, v, w =>
    match v.untie, w.untie with
    | .scalar a, .scalar b => some (a.equiv b)
    | .list a, .list b => if a.length = b.length then agree (sameWithin depth) a b else some false
    | .object a, .object b => if a.length = b.length then agreeFields (sameWithin depth) b a else some false
    | .pair v w, .pair x y => agree (sameWithin depth) [v, w] [x, y]
    | .set a, .set b => some (Scalar.equivSets a b)
    | _, _ => some false

/-- The number of levels after which a comparison is given up. -/
def deepestComparison : Nat := 950

/-- Whether two values say the same.  Only round a knot a comparison is given up. -/
def same? (v w : Value) : Option Bool :=
  if v.isTied || w.isTied then sameWithin deepestComparison v w else some (v.equiv w)

/-- Whether the value says the same as an item of the list; the items are compared in order, up to the first one that
does. -/
def among? (v : Value) : List Value → Option Bool
  | [] => some false
  | w :: rest => do
    if ← w.same? v then some true else among? v rest

theorem same?_eq_some {v w : Value} (hv : v.isTied = false) (hw : w.isTied = false) :
    v.same? w = some (v.equiv w) := by
  simp [same?, hv, hw]

theorem among?_eq_some {v : Value} {items : List Value} (hv : v.isTied = false)
    (hi : ∀ w ∈ items, w.isTied = false) : v.among? items = some (items.any (fun w => w.equiv v)) := by
  induction items with
  | nil => rfl
  | cons w rest ih =>
    rw [among?, same?_eq_some (hi w (by simp)) hv, ih (fun x hx => hi x (by simp [hx])), List.any_cons]
    cases w.equiv v <;> rfl

end Value

end Disclosure
