import Disclosure.Proofs.JsonText
import Disclosure.Proofs.ReadBack

/-!
# Disclosure.Proofs.JsonNumbers — numbers with a point in JSON

A number with a point is laid out in one of four ways: with zeros behind the point and before the digits, with zeros
between the digits and the point, with the point between the digits, or with an exponent.  Each of them is a numeral of
JSON for the same value, and so it is read as the number again.

* `Json.isNumeral_layout`: digits that are laid out are a numeral for their value.
* `Json.atom_finite`, `Json.atom_negativeZero`: a number is written as a numeral that is read as it.
-/

namespace Disclosure.Json

open Binary64

/-! ### Digits -/

theorem AreDigits.append {cs ds : List Char} (hc : AreDigits cs) (hd : AreDigits ds) : AreDigits (cs ++ ds) :=
  fun c h => (List.mem_append.1 h).elim (hc c) (hd c)

theorem areDigits_zeros (n : ℕ) : AreDigits (zeros n) := by
  intro c hc
  rw [List.eq_of_mem_replicate hc]
  decide

theorem AreDigits.take {cs : List Char} (h : AreDigits cs) (n : ℕ) : AreDigits (cs.take n) :=
  fun c hc => h c (List.mem_of_mem_take hc)

theorem AreDigits.drop {cs : List Char} (h : AreDigits cs) (n : ℕ) : AreDigits (cs.drop n) :=
  fun c hc => h c (List.mem_of_mem_drop hc)

theorem whole_zero : Whole ['0'] := ⟨areDigits_zeros 1, List.cons_ne_nil _ _, fun _ => rfl⟩

/-- Digits of which the first is not a zero. -/
structure Leading (ds : List Char) : Prop where
  digits : AreDigits ds
  nonempty : ds ≠ []
  head : ds.head? ≠ some '0'

theorem leading_toDigits {n : ℕ} (hn : 0 < n) : Leading (Nat.toDigits 10 n) := by
  refine ⟨areDigits_toDigits n, Nat.toDigits_ne_nil, ?_⟩
  induction n using Nat.strongRecOn with
  | ind n ih =>
    rcases lt_or_ge n 10 with hlt | hge
    · have hdigit : ∀ k < 10, 0 < k → ¬ Nat.digitChar k = '0' := by decide
      rw [Nat.toDigits_of_lt_base hlt, List.head?_cons]
      exact fun h => hdigit n hlt hn (Option.some.inj h)
    · rw [Nat.toDigits_of_base_le (by norm_num) hge, List.head?_append_of_ne_nil _ Nat.toDigits_ne_nil]
      exact ih (n / 10) (by omega) (by omega)

/-- Digits with the first digits of others in front are a whole part. -/
theorem Leading.whole {ds : List Char} (h : Leading ds) {k : ℕ} (hk : 0 < k) {cs : List Char} (hcs : AreDigits cs) :
    Whole (ds.take k ++ cs) := by
  obtain ⟨hdigits, hne, hhead⟩ := h
  cases ds with
  | nil => exact absurd rfl hne
  | cons d rest =>
    obtain ⟨k, rfl⟩ := Nat.exists_eq_succ_of_ne_zero hk.ne'
    exact ⟨(hdigits.take _).append hcs, List.cons_ne_nil _ _, fun h => absurd h hhead⟩

/-! ### The four layouts -/

variable {ds : List Char} (negative : Bool)

/-- A text is a numeral for a value, with a sign before it. -/
def IsNumeral (negative : Bool) (cs : List Char) (value : ℚ) : Prop :=
  ∃ digits k, Numeral negative digits k ((if negative then ['-'] else []) ++ cs) ∧ (digits : ℚ) * 10 ^ k = value

/-- A numeral from its parts. -/
theorem isNumeral_of_parts {whole fraction point mark : List Char} {power : ℤ} {value : ℚ} (hwhole : Whole whole)
    (hfraction : Fraction fraction point) (hpower : Exponent power mark) (hne : point ++ mark ≠ [])
    (hvalue : (Nat.ofDigitChars 10 (whole ++ fraction) 0 : ℚ) * 10 ^ (power - fraction.length) = value) :
    IsNumeral negative (whole ++ (point ++ mark)) value :=
  ⟨_, _, ⟨whole, fraction, point, power, mark, hwhole, hfraction, hpower, hne, rfl, rfl,
    by simp only [List.append_assoc]⟩, hvalue⟩

/-- Zeros behind the point. -/
theorem isNumeral_zeros_append (h : Leading ds) (k : ℕ) :
    IsNumeral negative ('0' :: '.' :: zeros k ++ ds) (Nat.ofDigitChars 10 ds 0 * 10 ^ (-((k + ds.length : ℕ) : ℤ))) := by
  have hfraction : Fraction (zeros k ++ ds) ('.' :: (zeros k ++ ds)) :=
    .digits ((areDigits_zeros _).append h.digits) (List.append_ne_nil_of_right_ne_nil _ h.nonempty)
  have hvalue : Nat.ofDigitChars 10 (['0'] ++ (zeros k ++ ds)) 0 = Nat.ofDigitChars 10 ds 0 := by
    have hzeros : Nat.ofDigitChars 10 (zeros (1 + k)) 0 = 0 := by rw [zeros, Nat.ofDigitChars_replicate_zero, Nat.mul_zero]
    rw [← List.append_assoc, Nat.ofDigitChars_append]
    rw [zeros, List.replicate_add] at hzeros
    exact congrArg (Nat.ofDigitChars 10 ds) hzeros
  have hparts := isNumeral_of_parts negative whole_zero hfraction .none (List.cons_ne_nil _ _) rfl
  rw [hvalue, List.length_append, zeros, List.length_replicate, zero_sub] at hparts
  simpa [zeros] using hparts

/-- Zeros before the point. -/
theorem isNumeral_append_zeros (h : Leading ds) (k : ℕ) :
    IsNumeral negative (ds ++ zeros k ++ ['.', '0']) (Nat.ofDigitChars 10 ds 0 * 10 ^ (k : ℤ)) := by
  have hwhole : Whole (ds ++ zeros k) := by
    have hpart := h.whole (List.length_pos_iff.2 h.nonempty) (areDigits_zeros k)
    rwa [List.take_length] at hpart
  refine isNumeral_of_parts negative hwhole (.digits (areDigits_zeros 1) (List.cons_ne_nil _ _)) .none
    (List.cons_ne_nil _ _) ?_
  have hzeros : zeros k ++ zeros 1 = List.replicate (k + 1) '0' := by rw [zeros, zeros, List.replicate_add]
  rw [List.append_assoc, hzeros, Nat.ofDigitChars_append, Nat.ofDigitChars_replicate_zero, zero_sub, zeros,
    List.length_replicate, zpow_natCast]
  push_cast
  rw [pow_succ, zpow_neg_one]
  ring

/-- The point between the digits, or behind the first with a power of ten. -/
theorem isNumeral_take_drop (h : Leading ds) {k : ℕ} (hk : 0 < k) {power : ℤ} {point mark : List Char}
    (hfraction : Fraction (ds.drop k) point) (hpower : Exponent power mark) (hne : point ++ mark ≠ []) :
    IsNumeral negative (ds.take k ++ (point ++ mark))
      (Nat.ofDigitChars 10 ds 0 * 10 ^ (power - ((ds.length - k : ℕ) : ℤ))) := by
  have hwhole : Whole (ds.take k) := by
    have hpart := h.whole hk (areDigits_zeros 0)
    rwa [zeros, List.replicate_zero, List.append_nil] at hpart
  refine isNumeral_of_parts negative hwhole hfraction hpower hne ?_
  rw [List.take_append_drop, List.length_drop]

/-- A power of ten with a sign and at least two digits. -/
theorem exponent_layout (power : ℤ) :
    Exponent power ('e' :: (if power < 0 then '-' else '+') ::
      (if (Nat.toDigits 10 power.natAbs).length < 2 then '0' :: Nat.toDigits 10 power.natAbs
        else Nat.toDigits 10 power.natAbs)) := by
  generalize hwritten : (if (Nat.toDigits 10 power.natAbs).length < 2 then '0' :: Nat.toDigits 10 power.natAbs
    else Nat.toDigits 10 power.natAbs) = written
  have hdigits : AreDigits written := by
    have hzero : AreDigits ['0'] := areDigits_zeros 1
    rw [← hwritten]
    split
    · exact hzero.append (areDigits_toDigits _)
    · exact areDigits_toDigits _
  have hne : written ≠ [] := by
    rw [← hwritten]
    split
    · exact List.cons_ne_nil _ _
    · exact Nat.toDigits_ne_nil
  have hvalue : Nat.ofDigitChars 10 written 0 = power.natAbs := by
    rw [← hwritten]
    split
    · exact Nat.ofDigitChars_ten_toDigits
    · exact Nat.ofDigitChars_ten_toDigits
  split
  · have h := Exponent.minus (Or.inl rfl : 'e' = 'e' ∨ 'e' = 'E') hdigits hne
    rwa [hvalue, show -(power.natAbs : ℤ) = power by omega] at h
  · have h := Exponent.plus (Or.inl rfl : 'e' = 'e' ∨ 'e' = 'E') hdigits hne
    rwa [hvalue, show (power.natAbs : ℤ) = power by omega] at h

/-- **Digits that are laid out are a numeral for the same value.** -/
theorem isNumeral_layout (h : Leading ds) (exponent : ℤ) :
    IsNumeral negative (layout ds exponent) (Nat.ofDigitChars 10 ds 0 * 10 ^ exponent) := by
  have hlength : 0 < ds.length := List.length_pos_iff.2 h.nonempty
  unfold layout
  dsimp only
  split
  · split
    · -- zeros behind the point
      have hzeros := isNumeral_zeros_append negative h (-(exponent + ds.length)).toNat
      rwa [show -(((-(exponent + ds.length)).toNat + ds.length : ℕ) : ℤ) = exponent by omega] at hzeros
    split
    · -- zeros before the point
      have hzeros := isNumeral_append_zeros negative h exponent.toNat
      rwa [show (exponent.toNat : ℤ) = exponent by omega] at hzeros
    · -- the point between the digits
      have hdrop : ds.drop (exponent + ds.length).toNat ≠ [] := by
        rw [ne_eq, List.drop_eq_nil_iff]
        omega
      have hpart := isNumeral_take_drop negative h (k := (exponent + ds.length).toNat) (by omega)
        (.digits (h.digits.drop _) hdrop) .none (List.cons_ne_nil _ _)
      rwa [List.append_nil, show 0 - ((ds.length - (exponent + ds.length).toNat : ℕ) : ℤ) = exponent by omega] at hpart
  · -- one digit before the point
    have hfraction : Fraction (ds.drop 1) (if (ds.drop 1).isEmpty then [] else '.' :: ds.drop 1) := by
      split
      · rename_i hempty
        rw [List.isEmpty_iff.1 hempty]
        exact .none
      · rename_i hrest
        exact .digits (h.digits.drop 1) (by simpa using hrest)
    have hpart := isNumeral_take_drop negative h Nat.one_pos hfraction (exponent_layout (exponent + ds.length - 1))
      (List.append_ne_nil_of_right_ne_nil _ (List.cons_ne_nil _ _))
    rw [show exponent + ds.length - 1 - ((ds.length - 1 : ℕ) : ℤ) = exponent by omega] at hpart
    simpa using hpart

/-! ### Numbers -/

theorem ratio_pos {value : Dyadic} (h : value ≠ 0) : 0 < (ratio value).1 ∧ 0 < (ratio value).2 := by
  cases value with
  | zero => exact absurd rfl h
  | ofOdd n k hn =>
    have hpos : 0 < n.natAbs := by omega
    simp only [ratio, Nat.shiftLeft_eq]
    exact ⟨by positivity, by positivity⟩

/-- The text of zero, with its sign. -/
theorem numeral_zero (negative : Bool) : Numeral negative 0 (-1) ((if negative then ['-'] else []) ++ "0.0".toList) :=
  ⟨['0'], ['0'], ['.', '0'], 0, [], whole_zero, .digits (areDigits_zeros 1) (List.cons_ne_nil _ _), .none,
    List.cons_ne_nil _ _, rfl, rfl, by simp⟩

/-- The digits of a numeral are the shortest ones, and how many zeros at their end were taken off is in its exponent. -/
theorem isNumeral_shortest {num den : ℕ} (hnum : 0 < num) (hden : 0 < den) :
    IsNumeral negative
      (layout (Nat.toDigits 10 (dropZeros 20 (shortest (num, den)).1).1)
        ((shortest (num, den)).2 + (dropZeros 20 (shortest (num, den)).1).2))
      ((shortest (num, den)).1 * 10 ^ (shortest (num, den)).2) := by
  obtain ⟨-, -, hdigits, -⟩ := shortest_spec hnum hden
  generalize shortest (num, den) = found at hdigits ⊢
  obtain ⟨digits, exponent⟩ := found
  have hdropped := dropZeros_spec 20 digits
  generalize dropZeros 20 digits = kept at hdropped ⊢
  obtain ⟨rest, count⟩ := kept
  dsimp only at hdigits hdropped ⊢
  have hpos : 0 < rest := by
    rw [Nat.pos_iff_ne_zero]
    rintro rfl
    exact hdigits (by rw [← hdropped, Nat.zero_mul])
  have hvalue : (rest : ℚ) * 10 ^ (exponent + count) = digits * 10 ^ exponent := by
    rw [← hdropped, add_comm, zpow_add₀ (by norm_num), zpow_natCast]
    push_cast
    ring
  have hlayout := isNumeral_layout negative (leading_toDigits hpos) (exponent + count)
  rwa [Nat.ofDigitChars_ten_toDigits, hvalue] at hlayout

/-- **A finite number is written as a numeral that is read as it.** -/
theorem atom_finite (value : Dyadic) (infinity nan : String) :
    Atom (.float (.finite value)) (textWith infinity nan (.finite value)).toList := by
  by_cases hzero : value = 0
  · subst hzero
    exact .finite (numeral_zero false) rfl
  · obtain ⟨hnum, hden⟩ := ratio_pos hzero
    obtain ⟨digits, k, hnumeral, hvalue⟩ := isNumeral_shortest (isNegative value) hnum hden
    have hread : ofDecimal (isNegative value) digits k = round value := ofDecimal_shortest hnum hden hvalue
    have hne : (value == 0) = false := by simpa using hzero
    rw [textWith, hne, if_neg (by decide)]
    dsimp only
    rw [String.toList_append, String.toList_ofList]
    refine .finite ?_ hread
    convert hnumeral using 2
    split <;> rfl

theorem atom_negativeZero (infinity nan : String) :
    Atom (.float .negativeZero) (textWith infinity nan .negativeZero).toList := by
  have htext : (textWith infinity nan .negativeZero).toList = (if true then ['-'] else []) ++ "0.0".toList := by
    simp [textWith]
  have hread : ofDecimal true 0 (-1) = .negativeZero := rfl
  rw [htext]
  exact .negativeZero (numeral_zero true) hread

end Disclosure.Json
