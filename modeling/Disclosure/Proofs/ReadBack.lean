import Disclosure.Binary64.Shortest
import Disclosure.Proofs.Rounding

/-!
# Disclosure.Proofs.ReadBack — the shortest digits read back

The digits that a number is written with are looked for on finer and finer grids of powers of ten.  Whatever is found
lies within half a bit of the number, and something is found at the latest when the grid is finer than that, long before
the search is given up.

* `Binary64.Interval.near_of_readsBack`: what reads back is as near as half a bit.
* `Binary64.Interval.search_reads_back`: the search finds digits that read back.
* `Binary64.ofDecimal_shortest`: a numeral with the value of the shortest digits is the number.
-/

namespace Disclosure.Binary64

variable {v : ℚ} {m num den digits : ℕ} {e exponent : ℤ} {negative : Bool}

/-! ### Comparing -/

/-- Both sides of a comparison, without their denominators. -/
theorem scaled_eq (a : ℕ) (i : ℤ) (n : ℕ) (j : ℤ) :
    ∃ d : ℚ, 0 < d ∧
      (((a * Nat.pow 10 i.toNat) <<< (-j).toNat : ℕ) : ℚ) = a * 10 ^ i * d ∧
      (((n * Nat.pow 10 (-i).toNat) <<< j.toNat : ℕ) : ℚ) = n * 2 ^ j * d := by
  refine ⟨10 ^ (-i).toNat * 2 ^ (-j).toNat, by positivity, ?_, ?_⟩
  · rw [Nat.shiftLeft_eq, Nat.pow_eq, ← pow_toNat_div (by norm_num : (10 : ℚ) ≠ 0) i]
    push_cast
    field_simp
  · rw [Nat.shiftLeft_eq, Nat.pow_eq, ← pow_toNat_div (by norm_num : (2 : ℚ) ≠ 0) j]
    push_cast
    field_simp

theorem compareScaled_eq_gt_iff {a n : ℕ} {i j : ℤ} :
    compareScaled a i n j = .gt ↔ (n : ℚ) * 2 ^ j < a * 10 ^ i := by
  obtain ⟨d, hd, ha, hn⟩ := scaled_eq a i n j
  rw [compareScaled, Nat.compare_eq_gt, ← mul_lt_mul_iff_of_pos_right hd, ← ha, ← hn]
  exact_mod_cast Iff.rfl

theorem compareScaled_eq_lt_iff {a n : ℕ} {i j : ℤ} :
    compareScaled a i n j = .lt ↔ (a : ℚ) * 10 ^ i < n * 2 ^ j := by
  obtain ⟨d, hd, ha, hn⟩ := scaled_eq a i n j
  rw [compareScaled, Nat.compare_eq_lt, ← mul_lt_mul_iff_of_pos_right hd, ← ha, ← hn]
  exact_mod_cast Iff.rfl

theorem compareScaled_eq_eq_iff {a n : ℕ} {i j : ℤ} :
    compareScaled a i n j = .eq ↔ (a : ℚ) * 10 ^ i = n * 2 ^ j := by
  obtain ⟨d, hd, ha, hn⟩ := scaled_eq a i n j
  rw [compareScaled, Nat.compare_eq_eq, ← mul_left_inj' hd.ne', ← ha, ← hn]
  exact_mod_cast Iff.rfl

/-! ### What reads back -/

namespace Interval

variable {x : Interval}

/-- The interval of the number that `v` is rounded to. -/
structure Of (x : Interval) (v : ℚ) : Prop where
  rounds : Rounds v x.m x.e
  low : x.low = if x.m = 2 ^ 52 ∧ -1074 < x.e then 4 * x.m - 1 else 4 * x.m - 2
  high : x.high = 4 * x.m + 2

theorem of_ofRatio (hnum : 0 < num) (hden : 0 < den) : (ofRatio (num, den)).Of (num / den) := by
  refine ⟨rounds_of_ratio hnum hden, ?_, rfl⟩
  simp [ofRatio]

theorem readsBack_iff : x.readsBack digits exponent = true ↔
    ((x.low : ℚ) * 2 ^ (x.e - 2) < digits * 10 ^ exponent ∨
      x.m % 2 = 0 ∧ (digits : ℚ) * 10 ^ exponent = x.low * 2 ^ (x.e - 2)) ∧
    ((digits : ℚ) * 10 ^ exponent < x.high * 2 ^ (x.e - 2) ∨
      x.m % 2 = 0 ∧ (digits : ℚ) * 10 ^ exponent = x.high * 2 ^ (x.e - 2)) := by
  simp only [readsBack, Bool.and_eq_true, Bool.or_eq_true, beq_iff_eq, compareScaled_eq_gt_iff, compareScaled_eq_lt_iff,
    compareScaled_eq_eq_iff]

/-- The ends of the interval, in quarters of the last bit. -/
theorem Of.ends (hx : x.Of v) : (x.high : ℚ) = 4 * x.m + 2 ∧ (4 * (x.m : ℚ) ≤ x.low + 2 ∨ x.m = 0) ∧
    (x.m = 2 ^ 52 → -1074 < x.e → (x.low : ℚ) = 4 * x.m - 1) ∧ (x.low : ℚ) ≤ 4 * x.m := by
  refine ⟨by exact_mod_cast hx.high, ?_, ?_, ?_⟩
  · by_cases hm : x.m = 0
    · exact Or.inr hm
    · left
      have hlow : 4 * x.m ≤ x.low + 2 := by
        rw [hx.low]
        split <;> omega
      exact_mod_cast hlow
  · intro hm he
    have hlow : x.low + 1 = 4 * x.m := by
      rw [hx.low, if_pos ⟨hm, he⟩]
      omega
    have hlow : (x.low : ℚ) + 1 = 4 * x.m := by exact_mod_cast hlow
    linarith
  · have hlow : x.low ≤ 4 * x.m := by
      rw [hx.low]
      split <;> omega
    exact_mod_cast hlow

/-- What reads back is as near as half a bit, and below a power of two as a quarter. -/
theorem near_of_readsBack (hx : x.Of v) (h : x.readsBack digits exponent = true) :
    Nearest ((digits : ℚ) * 10 ^ exponent / 2 ^ x.e) x.m ∧
      (x.m = 2 ^ 52 → -1074 < x.e → 4 * (x.m : ℚ) ≤ 4 * ((digits : ℚ) * 10 ^ exponent / 2 ^ x.e) + 1) := by
  obtain ⟨hhigh, hlow, hnarrow, -⟩ := hx.ends
  have hnonneg : 0 ≤ (digits : ℚ) * 10 ^ exponent / 2 ^ x.e := by positivity
  have hquarter : (digits : ℚ) * 10 ^ exponent = 4 * ((digits : ℚ) * 10 ^ exponent / 2 ^ x.e) * 2 ^ (x.e - 2) := by
    rw [zpow_sub₀ (by norm_num)]
    have hpow := (two_zpow_pos x.e).ne'
    field_simp
    norm_num
  have hends := readsBack_iff.1 h
  rw [hquarter] at hends
  generalize (digits : ℚ) * 10 ^ exponent / 2 ^ x.e = w at hends hnonneg ⊢
  have hpow := two_zpow_pos (x.e - 2)
  rw [mul_lt_mul_iff_of_pos_right hpow, mul_lt_mul_iff_of_pos_right hpow, mul_left_inj' hpow.ne', mul_left_inj' hpow.ne']
    at hends
  obtain ⟨hbelow, habove⟩ := hends
  have hle : (x.low : ℚ) ≤ 4 * w := hbelow.elim le_of_lt (fun h => h.2.ge)
  have hge : 4 * w ≤ x.high := habove.elim le_of_lt (fun h => h.2.le)
  refine ⟨⟨by linarith, ?_, ?_⟩, fun hm he => by linarith [hnarrow hm he]⟩
  · rcases hlow with hlow | hm
    · linarith
    · rw [hm, Nat.cast_zero]
      linarith
  · rintro (hupper | hlower)
    · exact (habove.resolve_left (by linarith)).1
    · rcases hlow with hlow | hm
      · exact (hbelow.resolve_left (by linarith)).1
      · rw [hm]

/-! ### The grid -/

/-- The number lies between two neighbours on the grid. -/
theorem gridBelow_spec (x : Interval) (exponent : ℤ) :
    (x.gridBelow exponent : ℚ) * 10 ^ exponent ≤ x.m * 2 ^ x.e ∧
      (x.m : ℚ) * 2 ^ x.e < ((x.gridBelow exponent + 1 : ℕ) : ℚ) * 10 ^ exponent := by
  obtain ⟨d, hd, hgrid, hx⟩ := scaled_eq 1 exponent x.m x.e
  rw [Nat.one_mul, Nat.cast_one, one_mul] at hgrid
  unfold gridBelow
  generalize (x.m * Nat.pow 10 (-exponent).toNat) <<< x.e.toNat = n at hx ⊢
  generalize Nat.pow 10 exponent.toNat <<< (-x.e).toNat = step at hgrid ⊢
  have hstep : 0 < step := by
    have hpos : (0 : ℚ) < step := by
      rw [hgrid]
      exact mul_pos (ten_zpow_pos _) hd
    exact_mod_cast hpos
  have hle : ((n / step : ℕ) : ℚ) * step ≤ n := by exact_mod_cast Nat.div_mul_le_self n step
  have hlt : (n : ℚ) < ((n / step + 1 : ℕ) : ℚ) * step := by
    have hlt := Nat.lt_mul_div_succ n hstep
    rw [mul_comm] at hlt
    exact_mod_cast hlt
  rw [hgrid, hx] at hle hlt
  constructor
  · refine le_of_mul_le_mul_right ?_ hd
    linarith
  · refine lt_of_mul_lt_mul_right ?_ hd.le
    linarith

/-- What is taken from a grid reads back. -/
theorem readsBack_of_onGrid (h : x.onGrid exponent = some digits) :
    digits ≠ 0 ∧ x.readsBack digits exponent = true := by
  -- either neighbour is taken only if it reads back
  have hbelow : (x.gridBelow exponent != 0 && x.readsBack (x.gridBelow exponent) exponent) = true →
      x.gridBelow exponent ≠ 0 ∧ x.readsBack (x.gridBelow exponent) exponent = true := by
    simp
  have habove : x.readsBack (x.gridBelow exponent + 1) exponent = true →
      x.gridBelow exponent + 1 ≠ 0 ∧ x.readsBack (x.gridBelow exponent + 1) exponent = true :=
    fun h => ⟨Nat.succ_ne_zero _, h⟩
  unfold onGrid at h
  dsimp only at h
  split at h
  · cases h
  · rename_i hb ha
    cases h
    exact hbelow hb
  · rename_i hb ha
    cases h
    exact habove ha
  · rename_i hb ha
    split at h
    · cases h
      exact hbelow hb
    · cases h
      exact habove ha
    · split at h
      · cases h
        exact hbelow hb
      · cases h
        exact habove ha

/-- On a grid that is finer than half a bit there is something that reads back. -/
theorem exists_onGrid (hx : x.Of v) (hfine : (10 : ℚ) ^ exponent < 2 ^ (x.e - 1)) :
    ∃ digits, x.onGrid exponent = some digits := by
  obtain ⟨hhigh, -, -, hlow⟩ := hx.ends
  obtain ⟨hbelow, habove⟩ := x.gridBelow_spec exponent
  have hnext : x.readsBack (x.gridBelow exponent + 1) exponent = true := by
    have hhalf : (2 : ℚ) ^ (x.e - 1) = 2 * 2 ^ (x.e - 2) := by
      rw [show x.e - 1 = x.e - 2 + (1 : ℕ) by push_cast; ring, two_zpow_add, pow_one]
    have hwhole : (2 : ℚ) ^ x.e = 4 * 2 ^ (x.e - 2) := by
      have h := two_zpow_add (x.e - 2) 2
      rw [Nat.cast_ofNat, sub_add_cancel] at h
      rw [h]
      norm_num
    have hpow := two_zpow_pos (x.e - 2)
    rw [hhalf] at hfine
    rw [hwhole] at hbelow habove
    refine readsBack_iff.2 ⟨Or.inl (lt_of_le_of_lt ?_ habove), Or.inl ?_⟩
    · have h := mul_le_mul_of_nonneg_right hlow hpow.le
      linarith
    · rw [hhigh]
      push_cast at habove ⊢
      linarith
  unfold onGrid
  dsimp only
  rw [hnext]
  split
  · rename_i h
    cases h
  · exact ⟨_, rfl⟩
  · exact ⟨_, rfl⟩
  · split <;> exact ⟨_, rfl⟩

/-- **The search finds digits that read back**, if it comes to a grid that is finer than half a bit. -/
theorem search_reads_back (hx : x.Of v) (steps : ℕ) (exponent : ℤ)
    (hfine : (10 : ℚ) ^ (exponent - steps) < 2 ^ (x.e - 1)) :
    (x.search exponent (steps + 1)).1 ≠ 0 ∧
      x.readsBack (x.search exponent (steps + 1)).1 (x.search exponent (steps + 1)).2 = true := by
  induction steps generalizing exponent with
  | zero =>
    rw [Nat.cast_zero, sub_zero] at hfine
    obtain ⟨digits, hdigits⟩ := exists_onGrid hx hfine
    rw [search, hdigits]
    exact readsBack_of_onGrid hdigits
  | succ steps ih =>
    rw [search]
    cases hgrid : x.onGrid exponent with
    | none =>
      refine ih (exponent - 1) ?_
      rwa [sub_sub, add_comm 1, ← Nat.cast_succ]
    | some digits => exact readsBack_of_onGrid hgrid

end Interval

/-! ### Where the search begins -/

/-- The power of ten that is found is not above the number, or it has been lowered as often as possible. -/
theorem leadingExponent_spec (m : ℕ) (e : ℤ) (steps : ℕ) (k : ℤ) :
    (10 : ℚ) ^ leadingExponent m e steps k ≤ m * 2 ^ e ∨ leadingExponent m e steps k = k - steps := by
  induction steps generalizing k with
  | zero => simp [leadingExponent]
  | succ steps ih =>
    rw [leadingExponent]
    split
    · rcases ih (k - 1) with h | h
      · exact Or.inl h
      · right
        rw [h]
        push_cast
        ring
    · rename_i h
      left
      have h : ¬ (m : ℚ) * 2 ^ e < (1 : ℕ) * 10 ^ k := by
        rw [← compareScaled_eq_gt_iff]
        simpa using h
      rw [Nat.cast_one, one_mul] at h
      exact not_lt.1 h

/-- A thousand is hardly less than `2 ^ 10`, as long as it is not multiplied too often. -/
theorem thousand_zpow_le (u : ℤ) (hu : -108 ≤ u) : (1000 : ℚ) ^ u ≤ 13 * 1024 ^ u := by
  rcases le_total 0 u with hpos | hneg
  · obtain ⟨n, rfl⟩ := Int.eq_ofNat_of_zero_le hpos
    rw [zpow_natCast, zpow_natCast]
    have h : (1000 : ℚ) ^ n ≤ 1024 ^ n := pow_le_pow_left₀ (by norm_num) (by norm_num) n
    have hpow : (0 : ℚ) ≤ 1024 ^ n := by positivity
    linarith
  · obtain ⟨n, hn⟩ : ∃ n : ℕ, u = -(n : ℤ) := ⟨(-u).toNat, by omega⟩
    subst hn
    have hratio : ((1024 : ℚ) / 1000) ^ n ≤ 13 := by
      calc ((1024 : ℚ) / 1000) ^ n ≤ (1024 / 1000) ^ 108 := pow_le_pow_right₀ (by norm_num) (by omega)
        _ ≤ 13 := by norm_num
    rw [zpow_neg, zpow_neg, zpow_natCast, zpow_natCast, ← div_eq_mul_inv, inv_eq_one_div,
      div_le_div_iff₀ (by positivity) (by positivity), one_mul]
    rwa [div_pow, div_le_iff₀ (by positivity)] at hratio

/-- The search begins not far above the number, whether the power of ten is found or not. -/
theorem ten_zpow_leadingExponent_le (h : Rounds v m e) :
    (10 : ℚ) ^ leadingExponent m e 60
      (((m.log2 : ℤ) + e) * 3 / 10 + (if (m.log2 : ℤ) + e < 0 then 2 else 20)) ≤ 2 ^ (e + 53) := by
  have hm : (m : ℚ) ≤ 2 ^ 53 := by exact_mod_cast h.le
  have hlog : m.log2 ≤ 53 := by
    by_cases hzero : m = 0
    · rw [hzero, Nat.log2_zero]
      omega
    · have hpow := (Nat.log2_self_le hzero).trans h.le
      exact (Nat.pow_le_pow_iff_right (by norm_num)).1 hpow
  have hleast := h.bit.least
  rcases leadingExponent_spec m e 60 (((m.log2 : ℤ) + e) * 3 / 10 + (if (m.log2 : ℤ) + e < 0 then 2 else 20)) with
    hfound | hlast
  · calc _ ≤ (m : ℚ) * 2 ^ e := hfound
      _ ≤ 2 ^ 53 * 2 ^ e := mul_le_mul_of_nonneg_right hm (two_zpow_pos e).le
      _ = 2 ^ (e + 53) := (two_zpow_add e 53).symm
  · rw [hlast]
    -- ten bits are at least three digits
    generalize hbits : (m.log2 : ℤ) + e = bits
    have hexponent : bits * 3 / 10 + (if bits < 0 then 2 else 20) - ((60 : ℕ) : ℤ) ≤ 3 * (bits / 10) + -38 := by
      split <;> omega
    calc (10 : ℚ) ^ (bits * 3 / 10 + (if bits < 0 then 2 else 20) - ((60 : ℕ) : ℤ))
        ≤ 10 ^ (3 * (bits / 10) + -38) := zpow_le_zpow_right₀ (by norm_num) hexponent
      _ = 1000 ^ (bits / 10) * 10 ^ (-38 : ℤ) := by
        rw [zpow_add₀ (by norm_num), zpow_mul]
        norm_num
      _ ≤ 13 * 1024 ^ (bits / 10) * 10 ^ (-38 : ℤ) :=
        mul_le_mul_of_nonneg_right (thousand_zpow_le _ (by omega)) (ten_zpow_pos _).le
      _ ≤ 1024 ^ (bits / 10) := by
        have hpow : (0 : ℚ) < 1024 ^ (bits / 10) := zpow_pos (by norm_num) _
        have hsmall : (13 : ℚ) * 10 ^ (-38 : ℤ) ≤ 1 := by norm_num
        nlinarith
      _ = 2 ^ (10 * (bits / 10)) := by
        rw [zpow_mul]
        norm_num
      _ ≤ 2 ^ (e + 53) := zpow_le_zpow_right₀ (by norm_num) (by omega)

/-! ### The shortest digits -/

theorem dropZeros_spec (steps n : ℕ) : (dropZeros steps n).1 * 10 ^ (dropZeros steps n).2 = n := by
  induction steps generalizing n with
  | zero => simp [dropZeros]
  | succ steps ih =>
    rw [dropZeros]
    split
    · rename_i h
      simp only [Bool.and_eq_true, decide_eq_true_eq] at h
      have hrest := ih (n / 10)
      dsimp only
      rw [pow_succ, ← mul_assoc, hrest]
      omega
    · simp

/-- The shortest digits of a number that is not zero read back, and are not zero either. -/
theorem shortest_spec (hnum : 0 < num) (hden : 0 < den) :
    ∃ x : Interval, x.Of (num / den) ∧ (shortest (num, den)).1 ≠ 0 ∧
      x.readsBack (shortest (num, den)).1 (shortest (num, den)).2 = true := by
  have hx := Interval.of_ofRatio hnum hden
  refine ⟨_, hx, Interval.search_reads_back hx 19 _ ?_⟩
  have hstart := ten_zpow_leadingExponent_le hx.rounds
  generalize (Interval.ofRatio (num, den)).e = e at hstart ⊢
  generalize leadingExponent _ _ _ _ = k at hstart ⊢
  calc (10 : ℚ) ^ (k + 1 - ((19 : ℕ) : ℤ)) = 10 ^ k * 10 ^ (-18 : ℤ) := by
        rw [← zpow_add₀ (by norm_num)]
        congr 1
        push_cast
        ring
    _ ≤ 2 ^ (e + 53) * 10 ^ (-18 : ℤ) := mul_le_mul_of_nonneg_right hstart (ten_zpow_pos _).le
    _ = 2 ^ (e - 1) * (2 ^ 54 * 10 ^ (-18 : ℤ)) := by
        rw [show e + 53 = e - 1 + (54 : ℕ) by push_cast; ring, two_zpow_add]
        ring
    _ < 2 ^ (e - 1) := by
        have hpow := two_zpow_pos (e - 1)
        have hsmall : (2 : ℚ) ^ 54 * 10 ^ (-18 : ℤ) < 1 := by norm_num
        exact mul_lt_of_lt_one_right hpow hsmall

/-- **A numeral with the value of the shortest digits reads back.** -/
theorem ofDecimal_shortest (hnum : 0 < num) (hden : 0 < den)
    (hvalue : (digits : ℚ) * 10 ^ exponent = (shortest (num, den)).1 * 10 ^ (shortest (num, den)).2) :
    ofDecimal negative digits exponent = ofRatio negative num den := by
  obtain ⟨x, hx, -, hreads⟩ := shortest_spec hnum hden
  obtain ⟨hnear, hnarrow⟩ := Interval.near_of_readsBack hx hreads
  obtain ⟨m', e', hrounds, hsame⟩ := hx.rounds.of_near hnear hnarrow
  rw [← hvalue] at hrounds
  rw [ofDecimal_eq hrounds, hsame, ofRatio_eq hden hx.rounds]

end Disclosure.Binary64
