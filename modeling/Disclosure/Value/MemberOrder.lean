import Disclosure.Scalar

/-!
# Disclosure.Value.MemberOrder — the order in which a set is shown

The members of a set are kept in the slots of a table, and are shown in the order of their slots.  The number of a
member says where the search for its slot begins: equal numbers have equal numbers here whatever their spelling.  Only
numbers, empty texts and empty bytes have one.  The numbers of other members are drawn anew for every run, so that a set
that holds one is shown in an order that varies from run to run.  To show it in the order in which it was written is an
idealisation.

* `length_inOrder`: no member is lost, none is added.
-/

namespace Disclosure

namespace MemberOrder

/-- The prime number by which the size of a number is divided. -/
def modulus : Nat := Nat.pow 2 61 - 1

/-- The remainder of the size of a dyadic number.  The remainders of the powers of two repeat after 61 of them. -/
def remainder : Dyadic → Nat
  | .zero => 0
  | .ofOdd n k _ => n.natAbs % modulus * Nat.pow 2 ((-k) % 61).toNat % modulus

/-- A remainder with a sign as a word of 64 bits; minus one is taken by minus two. -/
def signed (negative : Bool) (r : Nat) : Nat :=
  if negative && r != 0 then Nat.pow 2 64 - (if r = 1 then 2 else r) else r

/-- The number of a member, if it has one. -/
def number? (s : Scalar) : Option Nat :=
  match s.sense? with
  | some (.number value) => some (signed (Binary64.isNegative value) (remainder value))
  | some (.infinity negative) => some (signed negative 314159)
  | some (.text []) | some (.bytes []) => some 0
  | _ => none

/-- The number of slots for so many members: a power of two, eight at least. -/
def slotsFor (members : Nat) : Nat := if members < 5 then 8 else Nat.pow 2 ((2 * members).log2 + 1)

/-- The first free slot among ten slots in a row; near the end of the table only one slot is looked at. -/
def freeNear (table : List (Option Scalar)) (slot : Nat) : Option Nat :=
  let probes := if slot + 9 < table.length then 10 else 1
  (((table.drop slot).take probes).findIdx? Option.isNone).map (slot + ·)

/-- The slot for a member: the search goes on elsewhere until a free slot is found.  `number` is what is left of the
number of the member. -/
def freeSlot (table : List (Option Scalar)) : Nat → Nat → Nat → Nat
  | 0, slot, _ => slot
  | steps + 1, slot, number =>
    match freeNear table slot with
    | some free => free
    | none => freeSlot table steps ((slot * 5 + 1 + number / 32) % table.length) (number / 32)

/-- Puts a member into the table. -/
def insert (table : List (Option Scalar)) (member : Scalar) (number : Nat) : List (Option Scalar) :=
  table.set (freeSlot table (table.length + 16) (number % table.length) number) (some member)

end MemberOrder

open MemberOrder in
/-- The members of a set in the order in which they are shown: by their slots if all of them have numbers; else, as an
idealisation, as they were written. -/
def Scalar.inOrder (members : List Scalar) : List Scalar :=
  match members.mapM number? with
  | none => members
  | some numbers =>
    let table := (members.zip numbers).foldl (fun table e => MemberOrder.insert table e.1 e.2)
      (List.replicate (slotsFor members.length) none)
    let shown := table.filterMap id
    if shown.length = members.length then shown else members

theorem Scalar.length_inOrder (members : List Scalar) : (Scalar.inOrder members).length = members.length := by
  unfold Scalar.inOrder
  split
  · rfl
  · dsimp only
    split
    · assumption
    · rfl

end Disclosure
