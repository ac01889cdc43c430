import Disclosure.Binary64
import Mathlib.Algebra.Order.Field.Power
import Mathlib.Data.Nat.Log
import Mathlib.Data.Rat.Cast.Order
import Mathlib.Tactic.FieldSimp
import Mathlib.Tactic.Linarith
import Mathlib.Tactic.NormNum
import Mathlib.Tactic.Positivity
import Mathlib.Tactic.Ring

/-!
# Disclosure.Proofs.Rounding — the binary number that is nearest

A positive rational number `v` is rounded in two steps.  Its size gives the exponent `e` of the last of 53 bits, which is
never below -1074; then `v / 2 ^ e` is rounded to a natural number.  Both are determined by `v`, so that it does not
matter which quotient or which decimal numeral `v` is given by.

* `Binary64.Rounds`: `m * 2 ^ e` is what `v` is rounded to.
* `Binary64.ofRatio_eq`, `Binary64.ofDecimal_eq`: quotients and numerals are rounded so, those far out of range included.
* `Binary64.Rounds.of_near`: whatever is as near to `m * 2 ^ e` as half a bit reads back to it, also where the size of
  the last bit changes.
-/

namespace Disclosure.Binary64

/-- The natural number nearest to `w`, the even one of two. -/
structure Nearest (w : ℚ) (m : ℕ) : Prop where
  upper : 2 * w ≤ 2 * m + 1
  lower : 2 * (m : ℚ) ≤ 2 * w + 1
  even : 2 * w = 2 * m + 1 ∨ 2 * (m : ℚ) = 2 * w + 1 → m % 2 = 0

/-- The exponent of the last of 53 bits of `v`. -/
structure IsLastBit (v : ℚ) (e : ℤ) : Prop where
  least : -1074 ≤ e
  below : v < 2 ^ (e + 53)
  above : 2 ^ (e + 52) ≤ v ∨ e = -1074

/-- The number `m * 2 ^ e` is what `v` is rounded to. -/
structure Rounds (v : ℚ) (m : ℕ) (e : ℤ) : Prop where
  bit : IsLastBit v e
  nearest : Nearest (v / 2 ^ e) m

/-- The number `m * 2 ^ e` with a sign, unless it is too large. -/
def assemble (negative : Bool) (m : ℕ) (e : ℤ) : Binary64 :=
  if m = 0 then zero negative
  else if 1024 ≤ e + (m.log2 : ℤ) then .infinite negative
  else .finite (Dyadic.ofIntWithPrec (if negative then -(m : ℤ) else m) (-e))

variable {v q w : ℚ} {m m' num den digits : ℕ} {e e' exponent : ℤ} {negative : Bool}

/-! ### Powers of two and of ten -/

theorem two_zpow_pos (e : ℤ) : (0 : ℚ) < 2 ^ e := zpow_pos (by norm_num) e

theorem ten_zpow_pos (k : ℤ) : (0 : ℚ) < 10 ^ k := zpow_pos (by norm_num) k

theorem two_zpow_add (e : ℤ) (k : ℕ) : (2 : ℚ) ^ (e + k) = 2 ^ k * 2 ^ e := by
  rw [zpow_add₀ (by norm_num), zpow_natCast, mul_comm]

/-- A number is compared with powers of two in units of `2 ^ e`. -/
theorem lt_two_zpow_add_iff (e : ℤ) (k : ℕ) : q < 2 ^ (e + k) ↔ q / 2 ^ e < 2 ^ k := by
  rw [two_zpow_add, div_lt_iff₀ (two_zpow_pos e)]

theorem two_zpow_add_le_iff (e : ℤ) (k : ℕ) : 2 ^ (e + k) ≤ q ↔ 2 ^ k ≤ q / 2 ^ e := by
  rw [two_zpow_add, le_div_iff₀ (two_zpow_pos e)]

/-- The numbers at which values stop being computed are far beyond the largest one and the smallest one. -/
theorem two_zpow_le_ten_zpow : (2 : ℚ) ^ (1077 : ℤ) ≤ 10 ^ (400 : ℤ) := by
  calc (2 : ℚ) ^ (1077 : ℤ) ≤ 2 ^ ((3 : ℤ) * 400) := zpow_le_zpow_right₀ (by norm_num) (by norm_num)
    _ = (2 ^ (3 : ℤ)) ^ (400 : ℤ) := zpow_mul _ _ _
    _ ≤ 10 ^ (400 : ℤ) := zpow_le_zpow_left₀ (by norm_num) (by norm_num) (by norm_num)

/-- A quotient of two powers with natural exponents is a power. -/
theorem pow_toNat_div {b : ℚ} (hb : b ≠ 0) (k : ℤ) : b ^ k.toNat / b ^ (-k).toNat = b ^ k := by
  rw [← zpow_natCast, ← zpow_natCast, ← zpow_sub₀ hb, Int.toNat_sub_toNat_neg]

/-- A quotient that is shifted. -/
theorem shift_div (num den : ℕ) (k : ℤ) :
    ((num <<< k.toNat : ℕ) : ℚ) / ((den <<< (-k).toNat : ℕ) : ℚ) = num / den * 2 ^ k := by
  rw [Nat.shiftLeft_eq, Nat.shiftLeft_eq, ← pow_toNat_div (by norm_num : (2 : ℚ) ≠ 0) k]
  push_cast
  rw [mul_div_mul_comm]

/-! ### The nearest natural number -/

theorem Nearest.unique (h : Nearest w m) (h' : Nearest w m') : m = m' := by
  have hle : ∀ {a b : ℕ}, Nearest w a → Nearest w b → a ≤ b := by
    intro a b ha hb
    by_contra hlt
    have hnext : (b : ℚ) + 1 ≤ a := by exact_mod_cast Nat.lt_of_not_le hlt
    -- both are half a unit away, so both are even
    have hea := ha.even (Or.inr (by linarith [ha.lower, hb.upper]))
    have heb := hb.even (Or.inl (by linarith [ha.lower, hb.upper]))
    have hone : (a : ℚ) ≤ b + 1 := by linarith [ha.lower, hb.upper]
    have hone : a ≤ b + 1 := by exact_mod_cast hone
    omega
  exact Nat.le_antisymm (hle h h') (hle h' h)

/-- Nearest to a quotient, without division. -/
theorem nearest_div {n d : ℕ} (hd : 0 < d) (hupper : 2 * n ≤ (2 * m + 1) * d) (hlower : 2 * m * d ≤ 2 * n + d)
    (heven : 2 * n = (2 * m + 1) * d ∨ 2 * m * d = 2 * n + d → m % 2 = 0) : Nearest (n / d) m := by
  have hdq : (0 : ℚ) < d := by exact_mod_cast hd
  have hn : (n : ℚ) / d * d = n := div_mul_cancel₀ _ hdq.ne'
  have hupper : 2 * (n : ℚ) ≤ (2 * m + 1) * d := by exact_mod_cast hupper
  have hlower : 2 * (m : ℚ) * d ≤ 2 * n + d := by exact_mod_cast hlower
  refine ⟨?_, ?_, ?_⟩
  · refine le_of_mul_le_mul_right ?_ hdq
    linarith
  · refine le_of_mul_le_mul_right ?_ hdq
    linarith
  · rintro (h | h)
    · refine heven (Or.inl ?_)
      have h := congrArg (· * (d : ℚ)) h
      have h : 2 * (n : ℚ) = (2 * m + 1) * d := by linarith
      exact_mod_cast h
    · refine heven (Or.inr ?_)
      have h := congrArg (· * (d : ℚ)) h
      have h : 2 * (m : ℚ) * d = 2 * n + d := by linarith
      exact_mod_cast h

theorem nearest_roundQuotient (num : ℕ) (hden : 0 < den) (k : ℤ) :
    Nearest (num / den * 2 ^ k) (roundQuotient num den k) := by
  unfold roundQuotient
  rw [← shift_div]
  generalize num <<< k.toNat = n
  have hd : 0 < den <<< (-k).toNat := by
    rw [Nat.shiftLeft_eq]
    positivity
  generalize den <<< (-k).toNat = d at hd
  have hn := Nat.div_add_mod n d
  have hr : n % d < d := Nat.mod_lt n hd
  dsimp only
  generalize n / d = low at hn ⊢
  generalize n % d = r at hn hr ⊢
  have hnext : (2 * (low + 1) + 1) * d = 2 * (d * low) + 3 * d := by ring
  have hhere : (2 * low + 1) * d = 2 * (d * low) + d := by ring
  have htwice : 2 * low * d = 2 * (d * low) := by ring
  have htwice' : 2 * (low + 1) * d = 2 * (d * low) + 2 * d := by ring
  split
  · rename_i h
    simp only [Bool.or_eq_true, decide_eq_true_eq, Bool.and_eq_true, beq_iff_eq] at h
    refine nearest_div hd ?_ ?_ ?_ <;> omega
  · rename_i h
    simp only [Bool.or_eq_true, decide_eq_true_eq, Bool.and_eq_true, beq_iff_eq, not_or, not_and] at h
    refine nearest_div hd ?_ ?_ ?_ <;> omega

/-! ### The last bit -/

theorem IsLastBit.unique (h : IsLastBit v e) (h' : IsLastBit v e') : e = e' := by
  have hle : ∀ {a b : ℤ}, IsLastBit v a → IsLastBit v b → b ≤ a := by
    intro a b ha hb
    by_contra hlt
    rcases hb.above with habove | hleast
    · have hpow : (2 : ℚ) ^ (a + 53) ≤ 2 ^ (b + 52) := zpow_le_zpow_right₀ (by norm_num) (by omega)
      exact absurd (lt_of_lt_of_le ha.below (hpow.trans habove)) (lt_irrefl v)
    · have := ha.least
      omega
  exact le_antisymm (hle h' h) (hle h h')

/-- Comparing a quotient with a power of two, without division. -/
theorem shiftLeft_le_shiftLeft_iff (num : ℕ) (hden : 0 < den) (k : ℤ) :
    den <<< k.toNat ≤ num <<< (-k).toNat ↔ (2 : ℚ) ^ k ≤ num / den := by
  have hdq : (0 : ℚ) < den := by exact_mod_cast hden
  have hpow : (0 : ℚ) < 2 ^ (-k).toNat := by positivity
  rw [Nat.shiftLeft_eq, Nat.shiftLeft_eq, ← pow_toNat_div (by norm_num : (2 : ℚ) ≠ 0) k, div_le_div_iff₀ hpow hdq,
    mul_comm den]
  exact_mod_cast Iff.rfl

/-- The size of a quotient, up to a factor of two, by the sizes of its parts. -/
theorem log2_sub_log2 (hnum : 0 < num) (hden : 0 < den) :
    (2 : ℚ) ^ ((num.log2 : ℤ) - den.log2 - 1) ≤ num / den ∧ (num : ℚ) / den < 2 ^ ((num.log2 : ℤ) - den.log2 + 1) := by
  have hdq : (0 : ℚ) < den := by exact_mod_cast hden
  have hnlow : (2 : ℚ) ^ (num.log2 : ℤ) ≤ num := by exact_mod_cast Nat.log2_self_le hnum.ne'
  have hnhigh : (num : ℚ) < 2 ^ ((num.log2 : ℤ) + 1) := by exact_mod_cast Nat.lt_log2_self (n := num)
  have hdlow : (2 : ℚ) ^ (den.log2 : ℤ) ≤ den := by exact_mod_cast Nat.log2_self_le hden.ne'
  have hdhigh : (den : ℚ) < 2 ^ ((den.log2 : ℤ) + 1) := by exact_mod_cast Nat.lt_log2_self (n := den)
  constructor
  · rw [le_div_iff₀ hdq]
    calc (2 : ℚ) ^ ((num.log2 : ℤ) - den.log2 - 1) * den
        ≤ 2 ^ ((num.log2 : ℤ) - den.log2 - 1) * 2 ^ ((den.log2 : ℤ) + 1) :=
          mul_le_mul_of_nonneg_left hdhigh.le (two_zpow_pos _).le
      _ = 2 ^ (num.log2 : ℤ) := by rw [← zpow_add₀ (by norm_num)]; congr 1; ring
      _ ≤ num := hnlow
  · rw [div_lt_iff₀ hdq]
    calc (num : ℚ) < 2 ^ ((num.log2 : ℤ) + 1) := hnhigh
      _ = 2 ^ ((num.log2 : ℤ) - den.log2 + 1) * 2 ^ (den.log2 : ℤ) := by
        rw [← zpow_add₀ (by norm_num)]; congr 1; ring
      _ ≤ 2 ^ ((num.log2 : ℤ) - den.log2 + 1) * den := mul_le_mul_of_nonneg_left hdlow (two_zpow_pos _).le

theorem isLastBit_lastBit (hnum : 0 < num) (hden : 0 < den) : IsLastBit (num / den) (lastBit num den) := by
  obtain ⟨hlow, hhigh⟩ := log2_sub_log2 hnum hden
  have hwide := shiftLeft_le_shiftLeft_iff num hden ((num.log2 : ℤ) - den.log2)
  have hexponent : 53 + ((num.log2 : ℤ) - den.log2 - 53) = num.log2 - den.log2 := by ring
  unfold lastBit
  dsimp only
  rw [hexponent]
  -- as long as the exponent is not too low, the quotient has exactly 53 bits
  have hbits : ∀ e k : ℤ, e + 52 = k → (2 : ℚ) ^ k ≤ num / den → (num : ℚ) / den < 2 ^ (k + 1) →
      IsLastBit (num / den) (max e (-1074)) := by
    rintro e _ rfl habove hbelow
    rw [add_assoc, show (52 : ℤ) + 1 = 53 by norm_num] at hbelow
    rcases le_total e (-1074) with he | he
    · rw [max_eq_right he]
      exact ⟨le_rfl, hbelow.trans_le (zpow_le_zpow_right₀ (by norm_num) (by omega)), Or.inr rfl⟩
    · rw [max_eq_left he]
      exact ⟨he, hbelow, Or.inl habove⟩
  split
  · rename_i h
    exact hbits _ _ (by ring) (hwide.1 (of_decide_eq_true h)) hhigh
  · rename_i h
    have hbelow := not_le.1 (fun hle => h (decide_eq_true (hwide.2 hle)))
    exact hbits _ _ (by ring) hlow (by rwa [sub_add_cancel])

/-! ### Rounding -/

theorem Rounds.unique (h : Rounds v m e) (h' : Rounds v m' e') : m = m' ∧ e = e' := by
  obtain rfl := h.bit.unique h'.bit
  exact ⟨h.nearest.unique h'.nearest, rfl⟩

theorem rounds_of_ratio (hnum : 0 < num) (hden : 0 < den) :
    Rounds (num / den) (roundQuotient num den (-lastBit num den)) (lastBit num den) := by
  refine ⟨isLastBit_lastBit hnum hden, ?_⟩
  rw [div_eq_mul_inv _ ((2 : ℚ) ^ _), ← zpow_neg]
  exact nearest_roundQuotient num hden _

/-- A number of 53 bits, or the next power of two. -/
theorem Rounds.le (h : Rounds v m e) : m ≤ 2 ^ 53 := by
  have hv : v / 2 ^ e < 2 ^ 53 := (lt_two_zpow_add_iff e 53).1 h.bit.below
  have hm : (m : ℚ) < 2 ^ 53 + 1 := by linarith [h.nearest.lower]
  have hm : m < 2 ^ 53 + 1 := by exact_mod_cast hm
  omega

theorem Rounds.ge (h : Rounds v m e) (he : e ≠ -1074) : 2 ^ 52 ≤ m := by
  have hv : (2 : ℚ) ^ 52 ≤ v / 2 ^ e := (two_zpow_add_le_iff e 52).1 (h.bit.above.resolve_right he)
  have hm : (2 : ℚ) ^ 52 < m + 1 := by linarith [h.nearest.upper]
  have hm : 2 ^ 52 < m + 1 := by exact_mod_cast hm
  omega

/-- What is less than half of the last bit is rounded to zero. -/
theorem Rounds.eq_zero (h : Rounds v m e) (hv : v < 2 ^ (-1075 : ℤ)) : m = 0 := by
  have he : e = -1074 := by
    refine h.bit.above.resolve_left (not_le.2 (hv.trans_le ?_))
    have hleast := h.bit.least
    exact zpow_le_zpow_right₀ (by norm_num) (by omega)
  have hhalf : v / 2 ^ e < 1 / 2 := by
    rw [div_lt_iff₀ (two_zpow_pos e), he]
    calc v < 2 ^ (-1075 : ℤ) := hv
      _ = 1 / 2 * 2 ^ (-1074 : ℤ) := by rw [show (-1075 : ℤ) = -1 + -1074 by norm_num, zpow_add₀ (by norm_num)]; norm_num
  have hm : (m : ℚ) < 1 := by linarith [h.nearest.lower]
  have hm : m < 1 := by exact_mod_cast hm
  omega

/-- A quotient is the number that it is rounded to. -/
theorem ofRatio_eq (hden : 0 < den) (h : Rounds (num / den) m e) : ofRatio negative num den = assemble negative m e := by
  unfold ofRatio
  split
  · rename_i hzero
    have hm : m = 0 := h.eq_zero (by rw [hzero, Nat.cast_zero, zero_div]; exact two_zpow_pos _)
    rw [assemble, if_pos hm]
  · rename_i hnum
    obtain ⟨rfl, rfl⟩ := (rounds_of_ratio (Nat.pos_of_ne_zero hnum) hden).unique h
    rfl

/-- What is far too large is rounded to infinity. -/
theorem Rounds.assemble_of_large (h : Rounds v m e) (hv : 2 ^ (1077 : ℤ) ≤ v) :
    assemble negative m e = .infinite negative := by
  have hlt : (2 : ℚ) ^ (1077 : ℤ) < 2 ^ (e + 53) := hv.trans_lt h.bit.below
  have he : 1077 < e + 53 := (zpow_lt_zpow_iff_right₀ (by norm_num)).1 hlt
  have hm : m ≠ 0 := by
    have hge := h.ge (by omega)
    omega
  rw [assemble, if_neg hm, if_pos (by omega)]

/-- The size of a natural number by the number of its digits. -/
theorem pow_length_toDigits (hm : 0 < m) :
    10 ^ ((Nat.toDigits 10 m).length - 1) ≤ m ∧ m < 10 ^ (Nat.toDigits 10 m).length := by
  have hpos := Nat.length_toDigits_pos (b := 10) (n := m)
  refine ⟨?_, (Nat.length_toDigits_le_iff (by norm_num) hpos).1 le_rfl⟩
  rcases Nat.eq_zero_or_pos ((Nat.toDigits 10 m).length - 1) with hone | hmore
  · rw [hone]
    exact hm
  · by_contra hlt
    have hle := (Nat.length_toDigits_le_iff (b := 10) (by norm_num) hmore).2 (not_le.1 hlt)
    omega

/-- The size of a numeral by the number of its digits. -/
theorem decimal_bounds (hdigits : 0 < digits) (exponent : ℤ) :
    (10 : ℚ) ^ (exponent + (Nat.toDigits 10 digits).length - 1) ≤ digits * 10 ^ exponent ∧
      (digits : ℚ) * 10 ^ exponent < 10 ^ (exponent + (Nat.toDigits 10 digits).length) := by
  obtain ⟨hlower, hupper⟩ := pow_length_toDigits hdigits
  have hlength := Nat.length_toDigits_pos (b := 10) (n := digits)
  generalize (Nat.toDigits 10 digits).length = places at hlower hupper hlength ⊢
  constructor
  · rw [show exponent + places - 1 = ((places - 1 : ℕ) : ℤ) + exponent by omega, zpow_add₀ (by norm_num)]
    refine mul_le_mul_of_nonneg_right ?_ (ten_zpow_pos _).le
    exact_mod_cast hlower
  · rw [add_comm, zpow_add₀ (by norm_num)]
    refine mul_lt_mul_of_pos_right ?_ (ten_zpow_pos _)
    exact_mod_cast hupper

/-- **A numeral is the number that its value is rounded to**, also where the value is not computed because it is far too
large or too small. -/
theorem ofDecimal_eq (h : Rounds (digits * 10 ^ exponent) m e) :
    ofDecimal negative digits exponent = assemble negative m e := by
  unfold ofDecimal
  dsimp only
  split
  · -- the value is zero, or too small
    rename_i hsmall
    have hv : (digits : ℚ) * 10 ^ exponent < 2 ^ (-1075 : ℤ) := by
      rcases Nat.eq_zero_or_pos digits with rfl | hdigits
      · rw [Nat.cast_zero, zero_mul]
        exact two_zpow_pos _
      · have hfew : exponent + ((Nat.toDigits 10 digits).length : ℤ) < -400 := by
          simpa [hdigits.ne'] using hsmall
        have hpowers : (2 : ℚ) ^ (1075 : ℤ) ≤ 10 ^ (400 : ℤ) :=
          (zpow_le_zpow_right₀ (by norm_num) (by norm_num)).trans two_zpow_le_ten_zpow
        calc (digits : ℚ) * 10 ^ exponent
            < 10 ^ (exponent + (Nat.toDigits 10 digits).length) := (decimal_bounds hdigits exponent).2
          _ ≤ 10 ^ (-400 : ℤ) := zpow_le_zpow_right₀ (by norm_num) hfew.le
          _ ≤ 2 ^ (-1075 : ℤ) := by
            rw [zpow_neg, zpow_neg]
            exact inv_anti₀ (two_zpow_pos _) hpowers
    rw [assemble, if_pos (h.eq_zero hv)]
  · rename_i hnonzero
    have hdigits : 0 < digits := by
      refine Nat.pos_of_ne_zero ?_
      rintro rfl
      simp at hnonzero
    split
    · -- the value is too large
      refine (h.assemble_of_large ?_).symm
      calc (2 : ℚ) ^ (1077 : ℤ) ≤ 10 ^ (400 : ℤ) := two_zpow_le_ten_zpow
        _ ≤ 10 ^ (exponent + (Nat.toDigits 10 digits).length - 1) := zpow_le_zpow_right₀ (by norm_num) (by omega)
        _ ≤ digits * 10 ^ exponent := (decimal_bounds hdigits exponent).1
    · rw [Nat.pow_eq, Nat.pow_eq]
      refine ofRatio_eq (by positivity) ?_
      push_cast
      rwa [mul_div_assoc, pow_toNat_div (by norm_num)]

/-- The same number, as the greatest of its size and as the smallest of the next size. -/
theorem assemble_carry (negative : Bool) (e : ℤ) : assemble negative (2 ^ 52) (e + 1) = assemble negative (2 ^ 53) e := by
  have hdyadic : ∀ n : ℤ, Dyadic.ofIntWithPrec (n <<< (1 : ℕ)) (-e) = Dyadic.ofIntWithPrec n (-(e + 1)) := by
    intro n
    have h := Dyadic.ofIntWithPrec_shiftLeft_add (x := n) (i := -(e + 1)) (n := 1)
    rwa [show -(e + 1) + ((1 : ℕ) : ℤ) = -e by ring] at h
  have hsize : 1024 ≤ e + 1 + ((2 ^ 52 : ℕ).log2 : ℤ) ↔ 1024 ≤ e + ((2 ^ 53 : ℕ).log2 : ℤ) := by
    rw [Nat.log2_two_pow, Nat.log2_two_pow]
    omega
  have hshift : (if negative then -((2 ^ 53 : ℕ) : ℤ) else ((2 ^ 53 : ℕ) : ℤ))
      = (if negative then -((2 ^ 52 : ℕ) : ℤ) else ((2 ^ 52 : ℕ) : ℤ)) <<< (1 : ℕ) := by
    cases negative <;> rfl
  unfold assemble
  simp only [hsize, hshift, hdyadic, Nat.pow_eq_zero, OfNat.ofNat_ne_zero, false_and, if_false]

/-- What is near the greatest number of one size, and has the next size. -/
theorem Rounds.of_near_above (h : Rounds v m e) (near : Nearest (q / 2 ^ e) m) (hlarge : 2 ^ 53 ≤ q / 2 ^ e) :
    m = 2 ^ 53 ∧ Rounds q (2 ^ 52) (e + 1) := by
  have hm : (2 : ℚ) ^ 53 < m + 1 := by linarith [near.upper]
  have hm : 2 ^ 53 < m + 1 := by exact_mod_cast hm
  obtain rfl : m = 2 ^ 53 := Nat.le_antisymm h.le (by omega)
  have hhalf : q / 2 ^ (e + 1) = q / 2 ^ e / 2 := by
    rw [zpow_add₀ (by norm_num), zpow_one, div_mul_eq_div_div]
  have hupper := near.upper
  push_cast at hupper
  refine ⟨rfl, ⟨by linarith [h.bit.least], ?_, Or.inl ?_⟩, ?_⟩
  · rw [add_assoc]
    exact (lt_two_zpow_add_iff e 54).2 (by norm_num at hupper ⊢; linarith)
  · rw [add_assoc]
    exact (two_zpow_add_le_iff e 53).2 hlarge
  · rw [hhalf]
    refine ⟨?_, ?_, fun _ => by norm_num⟩ <;> norm_num at hupper hlarge ⊢ <;> linarith

/-- What is near the smallest number of one size, and has the size before. -/
theorem Rounds.of_near_below (h : Rounds v m e) (he : e ≠ -1074) (near : Nearest (q / 2 ^ e) m)
    (narrow : m = 2 ^ 52 → -1074 < e → 4 * (m : ℚ) ≤ 4 * (q / 2 ^ e) + 1) (hless : q / 2 ^ e < 2 ^ 52) :
    m = 2 ^ 52 ∧ Rounds q (2 ^ 53) (e - 1) := by
  have hm : (m : ℚ) < 2 ^ 52 + 1 := by linarith [near.lower]
  have hm : m < 2 ^ 52 + 1 := by exact_mod_cast hm
  obtain rfl : m = 2 ^ 52 := Nat.le_antisymm (by omega) (h.ge he)
  have hleast : -1074 < e := lt_of_le_of_ne h.bit.least (Ne.symm he)
  have hlower := narrow rfl hleast
  push_cast at hlower
  have htwice : q / 2 ^ (e - 1) = 2 * (q / 2 ^ e) := by
    rw [zpow_sub₀ (by norm_num), zpow_one, div_div_eq_mul_div]
    ring
  refine ⟨rfl, ⟨by linarith, ?_, Or.inl ?_⟩, ?_⟩
  · rw [show e - 1 + 53 = e + (52 : ℕ) by push_cast; ring]
    exact (lt_two_zpow_add_iff e 52).2 hless
  · rw [show e - 1 + 52 = e + (51 : ℕ) by push_cast; ring]
    exact (two_zpow_add_le_iff e 51).2 (by norm_num at hlower ⊢; linarith)
  · rw [htwice]
    refine ⟨?_, ?_, fun _ => by norm_num⟩ <;> norm_num at hlower hless ⊢ <;> linarith

/-- **What is near reads back.**  A rational number as near to `m * 2 ^ e` as half a bit is rounded to the same number,
even if it has another size, for then it lies beside the power of two at which the size changes.  Below that power the
bits are half as large, and so is the distance. -/
theorem Rounds.of_near (h : Rounds v m e) (near : Nearest (q / 2 ^ e) m)
    (narrow : m = 2 ^ 52 → -1074 < e → 4 * (m : ℚ) ≤ 4 * (q / 2 ^ e) + 1) :
    ∃ m' e', Rounds q m' e' ∧ ∀ negative, assemble negative m' e' = assemble negative m e := by
  rcases le_or_gt (2 ^ 53) (q / 2 ^ e) with hlarge | hsmall
  · obtain ⟨rfl, hq⟩ := h.of_near_above near hlarge
    exact ⟨_, _, hq, fun negative => assemble_carry negative e⟩
  have hbelow := (lt_two_zpow_add_iff e 53).2 hsmall
  rcases le_or_gt (2 ^ 52) (q / 2 ^ e) with hsame | hless
  · exact ⟨m, e, ⟨⟨h.bit.least, hbelow, Or.inl ((two_zpow_add_le_iff e 52).2 hsame)⟩, near⟩, fun _ => rfl⟩
  by_cases he : e = -1074
  · exact ⟨m, e, ⟨⟨h.bit.least, hbelow, Or.inr he⟩, near⟩, fun _ => rfl⟩
  · obtain ⟨rfl, hq⟩ := h.of_near_below he near narrow hless
    refine ⟨_, _, hq, fun negative => ?_⟩
    rw [← assemble_carry, sub_add_cancel]

end Disclosure.Binary64
