import Disclosure.Binary64
import Disclosure.Moment
import Disclosure.Text

/-!
# Disclosure.Scalar — single data

A `Scalar` is a datum without parts: what stands at the leaves of a request or a wallet, and what names the fields of
an object.  Two scalars are equal when they have the same sense: a boolean counts as the number one or zero, and
numbers are compared by size whatever their spelling, so `true`, `1` and `1.0` are equal.

A number that is none can be written by its name; it equals itself.  It can also be the result of a computation; such a
one has an origin, and it equals nothing.

* `equiv_symm`, `equiv_trans`: equality is symmetric and transitive; `equiv_self_iff`: only a computation without result
  differs from itself.
* `put`: sets an entry of a list of things by name.
-/

namespace Disclosure

/-- A datum without parts. -/
inductive Scalar where
  | null
  | bool (b : Bool)
  | int (n : Int)
  | float (x : Binary64)
  /-- The result of a computation that gives no number, and where it was done. -/
  | undefined (origin : Nat)
  | text (t : Text)
  | bytes (b : List UInt8)
  | date (d : Date)
  | moment (m : Moment)
deriving DecidableEq

namespace Scalar

instance : Inhabited Scalar := ⟨null⟩

/-- What equal scalars have in common. -/
inductive Sense where
  | null
  | number (value : Dyadic)
  | infinity (negative : Bool)
  | notANumber
  | text (t : Text)
  | bytes (b : List UInt8)
  | date (d : Date)
  | moment (universal : Bool) (instant : Int)
deriving DecidableEq

/-- The sense of a scalar; a computation without result has none. -/
def sense? : Scalar → Option Sense
  | .null => some .null
  | .bool b => some (.number (if b then 1 else 0))
  | .int n => some (.number (.ofInt n))
  | .float (.finite value) => some (.number value)
  | .float .negativeZero => some (.number 0)
  | .float (.infinite negative) => some (.infinity negative)
  | .float .nan => some .notANumber
  | .undefined _ => none
  | .text t => some (.text t)
  | .bytes b => some (.bytes b)
  | .date d => some (.date d)
  | .moment m => some (.moment m.offset.isSome m.instant)

/-- Equality: having the same sense. -/
def equiv (a b : Scalar) : Bool := a.sense?.isSome && a.sense? == b.sense?

/-- Null, false, zero and whatever is empty say nothing. -/
def isBlank : Scalar → Bool
  | .null => true
  | .bool b => !b
  | .int n => n == 0
  | .float x => x.isZero
  | .text t => t.isEmpty
  | .bytes b => b.isEmpty
  | .undefined _ | .date _ | .moment _ => false

/-- The text, if the scalar is one. -/
def text? : Scalar → Option Text
  | .text t => some t
  | _ => none

/-- Sets an entry by name: in its place if there is one with an equal name or the same, else at the end. -/
def put {α : Type} (entries : List (Scalar × α)) (name : Scalar) (a : α) : List (Scalar × α) :=
  match entries with
  | [] => [(name, a)]
  | (n, b) :: rest => if n.equiv name || n = name then (n, a) :: rest else (n, b) :: put rest name a

/-! ### Equality of senses -/

theorem equiv_iff {a b : Scalar} : a.equiv b = true ↔ ∃ s, a.sense? = some s ∧ b.sense? = some s := by
  unfold equiv
  constructor
  · intro h
    rw [Bool.and_eq_true, beq_iff_eq] at h
    obtain ⟨s, hs⟩ := Option.isSome_iff_exists.1 h.1
    exact ⟨s, hs, h.2 ▸ hs⟩
  · rintro ⟨s, ha, hb⟩
    simp [ha, hb]

theorem equiv_symm {a b : Scalar} (h : a.equiv b = true) : b.equiv a = true := by
  obtain ⟨s, ha, hb⟩ := equiv_iff.1 h
  exact equiv_iff.2 ⟨s, hb, ha⟩

theorem equiv_trans {a b c : Scalar} (hab : a.equiv b = true) (hbc : b.equiv c = true) : a.equiv c = true := by
  obtain ⟨s, ha, hb⟩ := equiv_iff.1 hab
  obtain ⟨t, hb', hc⟩ := equiv_iff.1 hbc
  have hst : s = t := Option.some.inj (hb.symm.trans hb')
  exact equiv_iff.2 ⟨s, ha, hst ▸ hc⟩

theorem equiv_self_iff {a : Scalar} : a.equiv a = true ↔ ∀ origin, a ≠ .undefined origin := by
  cases a with
  | float x => cases x <;> simp [equiv, sense?]
  | _ => simp [equiv, sense?]

@[simp]
theorem equiv_text {s t : Text} : (Scalar.text s).equiv (.text t) = true ↔ s = t := by
  simp [equiv, sense?]

end Scalar

end Disclosure
