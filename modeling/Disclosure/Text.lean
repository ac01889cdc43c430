/-!
# Disclosure.Text — texts as JSON and YAML files hold them

An escape such as `\ud83d` can put one half of a surrogate pair into a text, where it stands for no character.  A
`Text` is a list of code points: characters, and surrogates that stand alone.  A text that holds a surrogate equals
no text of characters, and it cannot be printed.

* `toString?_ofString`: a text of characters is the string it was made from.
* `isPrintable_iff`: a text can be printed exactly when it is a text of characters.
-/

namespace Disclosure

/-- A character, or a surrogate that stands alone: the one that comes `offset` after U+D800. -/
inductive CodePoint where
  | char (c : Char)
  | surrogate (offset : Fin 0x800)
deriving Repr, DecidableEq

namespace CodePoint

/-- The number of a code point. -/
def toNat : CodePoint → Nat
  | .char c => c.toNat
  | .surrogate offset => 0xd800 + offset.val

/-- The code point with the given number, if there is one. -/
def ofNat? (n : Nat) : Option CodePoint :=
  if n.isValidChar then some (.char (Char.ofNat n))
  else if h : n - 0xd800 < 0x800 then some (.surrogate ⟨n - 0xd800, h⟩)
  else none

/-- The character, if it is one. -/
def char? : CodePoint → Option Char
  | .char c => some c
  | .surrogate _ => none

end CodePoint

/-- A list of code points. -/
abbrev Text := List CodePoint

namespace Text

/-- The text with the characters of a string. -/
def ofString (s : String) : Text := s.toList.map .char

instance : Coe String Text := ⟨ofString⟩

/-- The string with the characters of a text that holds no surrogate. -/
def toString? (t : Text) : Option String := (t.mapM CodePoint.char?).map String.ofList

/-- Whether a text can be printed: it holds characters only. -/
def isPrintable (t : Text) : Bool := t.all (fun p => p.char?.isSome)

/-- The order of texts by the numbers of their code points. -/
def le : Text → Text → Bool
  | [], _ => true
  | _ :: _, [] => false
  | p :: s, q :: t => p.toNat < q.toNat || (p.toNat == q.toNat && le s t)

/-! ### Texts of characters -/

theorem mapM_char? (cs : List Char) : (cs.map CodePoint.char).mapM CodePoint.char? = some cs := by
  induction cs with
  | nil => rfl
  | cons c rest ih =>
    rw [List.map_cons, List.mapM_cons, ih]
    rfl

@[simp]
theorem toString?_ofString (s : String) : (ofString s).toString? = some s := by
  rw [toString?, ofString, mapM_char?]
  simp

theorem ofString_injective {a b : String} (h : ofString a = ofString b) : a = b := by
  have hs : (ofString a).toString? = (ofString b).toString? := congrArg toString? h
  rw [toString?_ofString, toString?_ofString] at hs
  exact Option.some.inj hs

@[simp]
theorem length_ofString (s : String) : (ofString s).length = s.length := by
  rw [ofString, List.length_map, String.length_toList]

theorem ofString_append (a b : String) : ofString (a ++ b) = ofString a ++ ofString b := by
  simp [ofString]

theorem isPrintable_iff {t : Text} : t.isPrintable = true ↔ ∃ s, t = ofString s := by
  constructor
  · intro h
    have hc : ∃ cs : List Char, t = cs.map CodePoint.char := by
      induction t with
      | nil => exact ⟨[], rfl⟩
      | cons p rest ih =>
        rw [isPrintable, List.all_cons, Bool.and_eq_true] at h
        obtain ⟨cs, hcs⟩ := ih h.2
        cases p with
        | char c => exact ⟨c :: cs, by rw [hcs]; rfl⟩
        | surrogate offset => simp [CodePoint.char?] at h
    obtain ⟨cs, rfl⟩ := hc
    exact ⟨String.ofList cs, by simp [ofString]⟩
  · rintro ⟨s, rfl⟩
    simp [isPrintable, ofString, CodePoint.char?]

end Text

end Disclosure
