/-!
# Disclosure.Reading — lists read item by item

`readEach` reads the items of a list in order, each with its index, and stops at the first one that is refused.
-/

namespace Disclosure

/-- Reads the items in order, the first of them as item number `i`; the first refusal is the result. -/
def readEach {ε α β : Type} (read : Nat → α → Except ε β) : Nat → List α → Except ε (List β)
  | _, [] => .ok []
  | i, a :: rest =>
    match read i a with
    | .error e => .error e
    | .ok b =>
      match readEach read (i + 1) rest with
      | .error e => .error e
      | .ok bs => .ok (b :: bs)

@[simp]
theorem readEach_nil {ε α β : Type} (read : Nat → α → Except ε β) (i : Nat) :
    readEach read i [] = .ok [] := rfl

theorem readEach_cons_eq_ok_iff {ε α β : Type} {read : Nat → α → Except ε β} {i : Nat} {a : α}
    {rest : List α} {cs : List β} :
    readEach read i (a :: rest) = .ok cs ↔
      ∃ b bs, read i a = .ok b ∧ readEach read (i + 1) rest = .ok bs ∧ cs = b :: bs := by
  simp only [readEach]
  cases read i a with
  | error e => simp
  | ok b =>
    cases readEach read (i + 1) rest with
    | error e => simp
    | ok bs => simp [eq_comm]

theorem length_of_readEach {ε α β : Type} {read : Nat → α → Except ε β} {i : Nat} {as : List α}
    {bs : List β} (h : readEach read i as = .ok bs) : bs.length = as.length := by
  induction as generalizing i bs with
  | nil => cases h; rfl
  | cons a rest ih =>
    obtain ⟨b, cs, -, hcs, rfl⟩ := readEach_cons_eq_ok_iff.1 h
    simp [ih hcs]

end Disclosure
