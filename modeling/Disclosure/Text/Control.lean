import Disclosure.Text

/-!
# Disclosure.Text.Control — control sequences of terminals

A control sequence is an escape character and an opening bracket, then parameters, then further marks, and a letter or
mark that ends it.  Where no terminal reads a text, control sequences are taken out of it.

* `withoutControls_of_noEscape`: a text without escape characters stays as it is.
-/

namespace Disclosure.Text

/-- Whether a code point is one of a range. -/
def isWithin (low high : Nat) (p : CodePoint) : Bool := low ≤ p.toNat && p.toNat ≤ high

/-- The length of the control sequence that a text starts with; zero if it starts with none. -/
def controlLength : Text → Nat
  | .char '\x1b' :: .char '[' :: rest =>
    let parameters := (rest.takeWhile (isWithin 0x30 0x3f)).length
    let marks := ((rest.drop parameters).takeWhile (isWithin 0x20 0x2f)).length
    if (rest.drop (parameters + marks)).head?.any (isWithin 0x40 0x7e) then parameters + marks + 3 else 0
  | _ => 0

/-- A text without its next `skipped` code points and without its control sequences. -/
def dropControls : Nat → Text → Text
  | _, [] => []
  | skipped + 1, _ :: rest => dropControls skipped rest
  | 0, p :: rest =>
    match controlLength (p :: rest) with
    | 0 => p :: dropControls 0 rest
    | more + 1 => dropControls more rest

/-- A text without its control sequences. -/
def withoutControls (t : Text) : Text := dropControls 0 t

theorem controlLength_of_ne {p : CodePoint} (h : p ≠ .char '\x1b') (rest : Text) :
    controlLength (p :: rest) = 0 := by
  unfold controlLength
  split
  · rename_i e
    exact absurd (List.cons.inj e).1 h
  · rfl

theorem withoutControls_of_noEscape {t : Text} (h : CodePoint.char '\x1b' ∉ t) : withoutControls t = t := by
  unfold withoutControls
  induction t with
  | nil => rfl
  | cons p rest ih =>
    rw [List.mem_cons, not_or] at h
    rw [dropControls, controlLength_of_ne (Ne.symm h.1)]
    simp [ih h.2]

end Disclosure.Text
