import Disclosure.Scalar

/-!
# Disclosure.Value — decoded data of a request or a wallet

A `Value` is what a request file or a wallet file holds once its text has been read: a scalar, a list, or an object
with its fields in order.  An integer and a number with a point are different values (`1` and `1.0`), although they
may be equal as numbers.  Fields are named by texts; in a YAML file also by other scalars.

A YAML file can hold three more kinds of data.  A pair has two parts, a set has members without order, and a list or an
object can stand inside itself.  Then it is tied: `knot label v` is the list or object `v`, in which `again label`
stands for the whole.  Labels are what tells apart the knots of one file.

Values are nested to any depth here.  That is an idealisation: what goes through a value (showing it, comparing it,
writing it as JSON) needs room for every level, and a run has room for somewhat less than a thousand of them.
Collections that stand inside each other in one text are bounded (`Yaml.Document.deepest`), and so is a comparison that goes
round a knot (`Value.deepestComparison`).  Values that are deeper come from a file only by a chain of anchors, each
naming the one before it inside a few collections more.

* `Fields.get` reads a field that is named by a text, and takes an absent one for null.
* `Value.untie` shows what stands at the top of a value: `untie_knot` puts the whole for every mark that stands for it,
  and `untie_eq_self` says that nothing else changes.
* Values can be told apart: `DecidableEq Value`, by `Value.isCopy_iff`.
* `Value.isBlank` holds of null, false, zero and whatever is empty.
* `Value.WellFormed`: no object, at any depth, names a field twice.
-/

namespace Disclosure

/-- Decoded data. -/
inductive Value where
  | scalar (s : Scalar)
  | list (items : List Value)
  | object (fields : List (Scalar × Value))
  | pair (first second : Value)
  | set (members : List Scalar)
  | knot (label : Nat) (v : Value)
  | again (label : Nat)

/-- The fields of an object, in order. -/
abbrev Fields := List (Scalar × Value)

namespace Value

/-- The value null. -/
@[match_pattern]
abbrev null : Value := .scalar .null

/-- A boolean. -/
@[match_pattern]
abbrev bool (b : Bool) : Value := .scalar (.bool b)

/-- An integer. -/
@[match_pattern]
abbrev int (n : Int) : Value := .scalar (.int n)

/-- A text. -/
@[match_pattern]
abbrev text (t : Text) : Value := .scalar (.text t)

instance : Inhabited Value := ⟨null⟩

end Value

namespace Fields

/-- The field with the given name. -/
def field? (fields : Fields) (name : String) : Option Value := fields.lookup (.text name)

/-- The value of a field; an absent field is null. -/
def get (fields : Fields) (name : String) : Value := (fields.field? name).getD .null

end Fields

namespace Value

/-! ### Telling values apart -/

mutual

/-- Whether two values are built in the same way from the same scalars. -/
def isCopy : Value → Value → Bool
  | .scalar s, .scalar t => s == t
  | .list items, .list items' => isCopyItems items items'
  | .object fields, .object fields' => isCopyFields fields fields'
  | .pair v w, .pair v' w' => isCopy v v' && isCopy w w'
  | .set members, .set members' => members == members'
  | .knot label v, .knot label' v' => label == label' && isCopy v v'
  | .again label, .again label' => label == label'
  | _, _ => false

/-- Whether two lists of values are built in the same way. -/
def isCopyItems : List Value → List Value → Bool
  | [], [] => true
  | v :: rest, v' :: rest' => isCopy v v' && isCopyItems rest rest'
  | _, _ => false

/-- Whether two lists of fields are built in the same way. -/
def isCopyFields : List (Scalar × Value) → List (Scalar × Value) → Bool
  | [], [] => true
  | (name, v) :: rest, (name', v') :: rest' => name == name' && isCopy v v' && isCopyFields rest rest'
  | _, _ => false

end

mutual

/-- Only a value itself is built in the same way. -/
theorem isCopy_iff : ∀ v w : Value, isCopy v w = true ↔ v = w
  | .scalar _, w => by cases w <;> simp [isCopy]
  | .list items, w => by cases w <;> simp [isCopy, isCopyItems_iff items]
  | .object fields, w => by cases w <;> simp [isCopy, isCopyFields_iff fields]
  | .pair v v', w => by cases w <;> simp [isCopy, isCopy_iff v, isCopy_iff v']
  | .set _, w => by cases w <;> simp [isCopy]
  | .knot _ v, w => by cases w <;> simp [isCopy, isCopy_iff v]
  | .again _, w => by cases w <;> simp [isCopy]

theorem isCopyItems_iff : ∀ items items' : List Value, isCopyItems items items' = true ↔ items = items'
  | [], items' => by cases items' <;> simp [isCopyItems]
  | v :: rest, items' => by cases items' <;> simp [isCopyItems, isCopy_iff v, isCopyItems_iff rest]

theorem isCopyFields_iff : ∀ fields fields' : List (Scalar × Value), isCopyFields fields fields' = true ↔ fields = fields'
  | [], fields' => by cases fields' <;> simp [isCopyFields]
  | (name, v) :: rest, fields' => by
    cases fields' <;> simp [isCopyFields, isCopy_iff v, isCopyFields_iff rest, Prod.ext_iff, and_assoc]

end

instance : DecidableEq Value := fun v w => decidable_of_iff _ (isCopy_iff v w)

/-! ### Values inside themselves -/

mutual

/-- The value with `whole` for every mark of the given label. -/
def replace (label : Nat) (whole : Value) : Value → Value
  | .scalar s => .scalar s
  | .list items => .list (replaceItems label whole items)
  | .object fields => .object (replaceFields label whole fields)
  | .pair v w => .pair (replace label whole v) (replace label whole w)
  | .set members => .set members
  | .knot inner v => if inner = label then .knot inner v else .knot inner (replace label whole v)
  | .again mark => if mark = label then whole else .again mark

/-- The items with `whole` for every mark. -/
def replaceItems (label : Nat) (whole : Value) : List Value → List Value
  | [] => []
  | v :: rest => replace label whole v :: replaceItems label whole rest

/-- The fields with `whole` for every mark. -/
def replaceFields (label : Nat) (whole : Value) : List (Scalar × Value) → List (Scalar × Value)
  | [] => []
  | (name, v) :: rest => (name, replace label whole v) :: replaceFields label whole rest

end

/-- The value with what stands at its top in sight: a knot is opened by one turn. -/
def untie : Value → Value
  | .knot label v => replace label (.knot label v) v
  | v => v

mutual

/-- Whether some list or object inside the value stands inside itself. -/
def isTied : Value → Bool
  | .scalar _ | .set _ => false
  | .list items => anyTied items
  | .object fields => anyFieldTied fields
  | .pair v w => isTied v || isTied w
  | .knot .. | .again _ => true

/-- Whether some item is tied. -/
def anyTied : List Value → Bool
  | [] => false
  | v :: rest => isTied v || anyTied rest

/-- Whether some field holds a tied value. -/
def anyFieldTied : List (Scalar × Value) → Bool
  | [] => false
  | (_, v) :: rest => isTied v || anyFieldTied rest

end

theorem untie_knot (label : Nat) (v : Value) : (knot label v).untie = replace label (.knot label v) v := rfl

theorem untie_eq_self {v : Value} (h : v.isTied = false) : v.untie = v := by
  cases v <;> first | rfl | simp [isTied] at h

/-! ### Parts -/

/-- Null, false, zero, and whatever is empty say nothing. -/
def isBlank : Value → Bool
  | .scalar s => s.isBlank
  | .list items => items.isEmpty
  | .object fields => fields.isEmpty
  | .set members => members.isEmpty
  | .knot _ v => isBlank v
  | .pair .. | .again _ => false

/-- The fields of an object. -/
def fields? (v : Value) : Option Fields :=
  match v.untie with
  | .object fields => some fields
  | _ => none

/-- A value other than the empty text, if it is a text. -/
def nonemptyText? : Value → Option Text
  | .text t => if t.isEmpty then none else some t
  | _ => none

mutual

/-- No object, at any depth, names a field twice. -/
def WellFormed : Value → Prop
  | .scalar _ | .set _ | .again _ => True
  | .list items => ItemsWellFormed items
  | .object fields => fields.Pairwise (fun a b => a.1.equiv b.1 = false) ∧ FieldsWellFormed fields
  | .pair v w => v.WellFormed ∧ w.WellFormed
  | .knot _ v => v.WellFormed

/-- Every item is well formed. -/
def ItemsWellFormed : List Value → Prop
  | [] => True
  | v :: rest => v.WellFormed ∧ ItemsWellFormed rest

/-- Every field holds a well-formed value. -/
def FieldsWellFormed : List (Scalar × Value) → Prop
  | [] => True
  | (_, v) :: rest => v.WellFormed ∧ FieldsWellFormed rest

end

end Value

end Disclosure
