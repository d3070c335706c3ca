import EventPipeline.Proofs.Number.Rounding

/-! # Shortest decimals read back

A decimal in the rounding interval of a number is rounded to that number
(`Double.ofDecimal_of_covers`), and the search for the shortest decimal ends with one in the
interval (`Double.covers_shortest`). So what is written for a number reads back as that number.
-/

namespace EventPipeline

/-- The rational that a decimal denotes. -/
def Decimal.value (digits : ℕ) (scale : ℤ) : ℚ := digits * 10 ^ scale

/-- Whether a rational lies in an interval. -/
def RoundingInterval.Covers (i : RoundingInterval) (v : ℚ) : Prop :=
  (i.low : ℚ) ≤ v * i.den ∧ v * i.den ≤ i.high ∧
    (i.closed = false → (i.low : ℚ) < v * i.den ∧ v * i.den < i.high)

namespace RoundingInterval

theorem contains_iff (i : RoundingInterval) (digits : ℕ) (scale : ℤ) :
    i.contains digits scale = true ↔ i.Covers (Decimal.value digits scale) := by
  have unit : (0 : ℚ) < 10 ^ (-scale).toNat := by positivity
  have scaled : Decimal.value digits scale * i.den * 10 ^ (-scale).toNat =
      digits * 10 ^ scale.toNat * i.den := by
    rw [Decimal.value, ← zpow_mul_pow_toNat_neg (by norm_num) scale]
    ring
  have lowLe : (i.low : ℚ) ≤ Decimal.value digits scale * i.den ↔
      i.low * 10 ^ (-scale).toNat ≤ digits * 10 ^ scale.toNat * i.den := by
    rw [← mul_le_mul_iff_left₀ unit, scaled]
    exact_mod_cast Iff.rfl
  have leHigh : Decimal.value digits scale * i.den ≤ i.high ↔
      digits * 10 ^ scale.toNat * i.den ≤ i.high * 10 ^ (-scale).toNat := by
    rw [← mul_le_mul_iff_left₀ unit, scaled]
    exact_mod_cast Iff.rfl
  have lowLt : (i.low : ℚ) < Decimal.value digits scale * i.den ↔
      i.low * 10 ^ (-scale).toNat < digits * 10 ^ scale.toNat * i.den := by
    rw [← mul_lt_mul_iff_left₀ unit, scaled]
    exact_mod_cast Iff.rfl
  have ltHigh : Decimal.value digits scale * i.den < i.high ↔
      digits * 10 ^ scale.toNat * i.den < i.high * 10 ^ (-scale).toNat := by
    rw [← mul_lt_mul_iff_left₀ unit, scaled]
    exact_mod_cast Iff.rfl
  rw [Covers, lowLe, leHigh, lowLt, ltHigh, contains]
  cases i.closed with
  | true => simp
  | false =>
    simp only [Bool.false_eq_true, if_false, Bool.and_eq_true, decide_eq_true_eq, true_implies]
    exact ⟨fun inside => ⟨inside.1.le, inside.2.le, inside⟩, fun covers => covers.2.2⟩

/-- What is found on a grid lies in the interval. -/
theorem contains_of_onGrid? {i : RoundingInterval} {scale : ℤ} {digits : ℕ}
    (found : i.onGrid? scale = some digits) : i.contains digits scale = true := by
  simp only [onGrid?] at found
  generalize hnum : i.point * 10 ^ (-scale).toNat = num at found
  generalize hden : i.den * 10 ^ scale.toNat = den at found
  split_ifs at found with both nearBelow nearAbove even low
  · simp only [Bool.and_eq_true] at both
    have := Option.some.inj found
    exact this ▸ both.1
  · simp only [Bool.and_eq_true] at both
    have := Option.some.inj found
    exact this ▸ both.2
  · simp only [Bool.and_eq_true] at both
    have rounded := Option.some.inj found
    rcases Nat.mod_two_eq_zero_or_one (num / den) with even | odd
    · rw [even, Nat.add_zero] at rounded
      exact rounded ▸ both.1
    · rw [odd] at rounded
      exact rounded ▸ both.2
  · simp only [Bool.and_eq_true] at even
    exact Option.some.inj found ▸ even.1
  · exact Option.some.inj found ▸ low

/-- A multiple just above the point is found, if nothing better is. -/
theorem onGrid?_isSome {i : RoundingInterval} {scale : ℤ}
    (next : i.contains (i.point * 10 ^ (-scale).toNat / (i.den * 10 ^ scale.toNat) + 1) scale) :
    (i.onGrid? scale).isSome := by
  simp only [onGrid?, Nat.pow_eq, next, Bool.and_true]
  split_ifs <;> rfl

/-- A search that goes as far as a grid with a multiple in the interval finds one. -/
theorem coarsest_isSome {i : RoundingInterval} {fuel : ℕ} {scale : ℤ} (k : ℕ) (within : k < fuel)
    (found : (i.onGrid? (scale - k)).isSome) : (i.coarsest fuel scale).isSome := by
  induction fuel generalizing scale k with
  | zero => omega
  | succ fuel ih =>
    rw [coarsest]
    cases here : i.onGrid? scale with
    | some digits => rfl
    | none =>
      cases k with
      | zero => simp [here] at found
      | succ k =>
        apply ih k (by omega)
        rwa [sub_sub, add_comm, ← Nat.cast_succ]

theorem contains_of_coarsest {i : RoundingInterval} {fuel : ℕ} {scale : ℤ} {d : Decimal}
    (found : i.coarsest fuel scale = some d) : i.contains d.digits d.scale = true := by
  induction fuel generalizing scale with
  | zero => cases found
  | succ fuel ih =>
    rw [coarsest] at found
    split at found
    · next digits here =>
      cases found
      exact contains_of_onGrid? here
    · exact ih found

end RoundingInterval

namespace Double

/-! ### The rounding interval of a number -/

theorem significand_lt (x : Double) : x.significand < 2 ^ 53 := by
  have := Nat.mod_lt x.code (show 0 < 2 ^ 52 by decide)
  simp only [significand]
  split_ifs <;> omega

theorem significand_pos {x : Double} (nonzero : x.isZero = false) : 0 < x.significand := by
  have : x.code ≠ 0 := by simpa [isZero] using nonzero
  simp only [significand]
  split_ifs <;> omega

theorem exponent_bounds (x : Double) : -1074 ≤ x.exponent ∧ x.exponent ≤ 971 := by
  have := x.code_lt
  simp only [exponent]
  omega

/-- A code is made of its place and significand. -/
theorem code_eq (x : Double) : x.code = (x.exponent + 1074).toNat * 2 ^ 52 + x.significand := by
  have := Nat.div_add_mod x.code (2 ^ 52)
  simp only [exponent, significand]
  split_ifs <;> omega

/-- A number whose last place is not the lowest one has all its digits. -/
theorem le_significand {x : Double} (normal : -1074 < x.exponent) : 2 ^ 52 ≤ x.significand := by
  simp only [exponent] at normal
  simp only [significand]
  split_ifs <;> omega

/-- The gap below a number in quarters of its last place. -/
def gapBelow (x : Double) : ℕ := if x.significand = 2 ^ 52 ∧ 1 < x.code / 2 ^ 52 then 1 else 2

theorem gapBelow_le (x : Double) : 1 ≤ x.gapBelow ∧ x.gapBelow ≤ 2 := by
  rw [gapBelow]
  split_ifs <;> decide

/-- A number above the lowest binade that starts its own has the narrow gap below it. -/
theorem gapBelow_eq_two {x : Double} (wide : x.significand ≠ 2 ^ 52 ∨ x.exponent = -1074) :
    x.gapBelow = 2 := by
  rw [gapBelow, if_neg]
  rintro ⟨first, above⟩
  rcases wide with other | lowest
  · exact other first
  · simp only [exponent] at lowest
    omega

theorem cast_roundingInterval_den (x : Double) :
    (x.roundingInterval.den : ℚ) = 2 ^ (-(x.exponent - 2)).toNat := by
  change ((2 ^ (-(x.exponent - 2)).toNat : ℕ) : ℚ) = _
  push_cast
  ring

theorem covers_roundingInterval {x : Double} (nonzero : x.isZero = false) (v : ℚ) :
    x.roundingInterval.Covers v ↔
      (4 * (x.significand : ℚ) - x.gapBelow) * 2 ^ (x.exponent - 2) ≤ v ∧
      v ≤ (4 * (x.significand : ℚ) + 2) * 2 ^ (x.exponent - 2) ∧
      (x.significand % 2 = 1 →
        (4 * (x.significand : ℚ) - x.gapBelow) * 2 ^ (x.exponent - 2) < v ∧
        v < (4 * (x.significand : ℚ) + 2) * 2 ^ (x.exponent - 2)) := by
  have positive := significand_pos nonzero
  have gap := x.gapBelow_le
  have scale : (0 : ℚ) < 2 ^ (-(x.exponent - 2)).toNat := by positivity
  have split (t : ℚ) : t * 2 ^ (x.exponent - 2) * 2 ^ (-(x.exponent - 2)).toNat =
      t * 2 ^ (x.exponent - 2).toNat := by
    rw [mul_assoc, zpow_mul_pow_toNat_neg two_ne_zero]
  have low : (x.roundingInterval.low : ℚ) =
      (4 * (x.significand : ℚ) - x.gapBelow) * 2 ^ (x.exponent - 2).toNat := by
    change (((4 * x.significand - x.gapBelow) * 2 ^ (x.exponent - 2).toNat : ℕ) : ℚ) = _
    rw [Nat.cast_mul, Nat.cast_sub (by omega)]
    push_cast
    ring
  have high : (x.roundingInterval.high : ℚ) =
      (4 * (x.significand : ℚ) + 2) * 2 ^ (x.exponent - 2).toNat := by
    change (((4 * x.significand + 2) * 2 ^ (x.exponent - 2).toNat : ℕ) : ℚ) = _
    push_cast
    ring
  have closed : x.roundingInterval.closed = false ↔ x.significand % 2 = 1 := by
    change (x.significand % 2 == 0) = false ↔ _
    rw [beq_eq_false_iff_ne]
    omega
  rw [RoundingInterval.Covers, low, high, cast_roundingInterval_den, closed]
  simp only [← split, mul_le_mul_iff_left₀ scale, mul_lt_mul_iff_left₀ scale]

/-! ### Reading a decimal of the interval -/

theorem two_zpow_eq_four_mul (e : ℤ) : (2 : ℚ) ^ e = 4 * 2 ^ (e - 2) := by
  rw [show (4 : ℚ) = 2 ^ (2 : ℤ) by norm_num, ← zpow_add₀ two_ne_zero]
  congr 1
  omega

/-- The interval of a number ends below the binade after the next one. -/
theorem interval_lt_top {x : Double} {v : ℚ}
    (high : v ≤ (4 * (x.significand : ℚ) + 2) * 2 ^ (x.exponent - 2)) :
    v < 2 ^ (x.exponent + 53) := by
  have whole : (x.significand : ℚ) + 1 ≤ 2 ^ 53 := by exact_mod_cast x.significand_lt
  calc v ≤ (4 * (x.significand : ℚ) + 2) * 2 ^ (x.exponent - 2) := high
    _ < 4 * 2 ^ 53 * 2 ^ (x.exponent - 2) := by gcongr; linarith
    _ = 2 ^ (x.exponent + 53) := by
      rw [zpow_add₀ two_ne_zero, two_zpow_eq_four_mul x.exponent,
        show ((2 : ℚ) ^ (53 : ℤ)) = 2 ^ 53 by norm_cast]
      ring

/-- A ratio of the interval that lies in the number's own binade, or in the lowest one, is rounded at
the number's last place. -/
theorem nearestCode_of_within {x : Double} {num den : ℕ} (hnum : 0 < num) (hden : 0 < den)
    (low : (4 * (x.significand : ℚ) - x.gapBelow) * 2 ^ (x.exponent - 2) ≤ (num : ℚ) / den)
    (high : (num : ℚ) / den ≤ (4 * (x.significand : ℚ) + 2) * 2 ^ (x.exponent - 2))
    (strict : x.significand % 2 = 1 →
      (4 * (x.significand : ℚ) - x.gapBelow) * 2 ^ (x.exponent - 2) < (num : ℚ) / den ∧
        (num : ℚ) / den < (4 * (x.significand : ℚ) + 2) * 2 ^ (x.exponent - 2))
    (within : (2 : ℚ) ^ (x.exponent + 52) ≤ (num : ℚ) / den ∨ x.exponent = -1074) :
    nearestCode num den = x.code := by
  obtain ⟨lowest, -⟩ := x.exponent_bounds
  have quarter := two_zpow_eq_four_mul x.exponent
  have unit : (0 : ℚ) < 2 ^ (x.exponent - 2) := by positivity
  have gap : (x.gapBelow : ℚ) ≤ 2 := by exact_mod_cast x.gapBelow_le.2
  have place : max (floorLog2 num den - 52) (-1074) = x.exponent := by
    have most : floorLog2 num den < x.exponent + 53 :=
      (zpow_lt_zpow_iff_right₀ (one_lt_two (α := ℚ))).mp
        ((floorLog2_spec hnum hden).1.trans_lt (interval_lt_top high))
    rcases within with reached | least
    · have next : x.exponent + 52 < floorLog2 num den + 1 :=
        (zpow_lt_zpow_iff_right₀ (one_lt_two (α := ℚ))).mp
          (reached.trans_lt (floorLog2_spec hnum hden).2)
      omega
    · omega
  rw [nearestCode_eq hden place (m := x.significand), ← code_eq]
  · rw [quarter]
    nlinarith
  · rw [quarter]
    linarith
  · intro odd
    obtain ⟨strictLow, strictHigh⟩ := strict odd
    rw [quarter]
    constructor
    · nlinarith
    · linarith

/-- A ratio of the interval that lies below the number's own binade is rounded at a place that is half
as high, to the number that starts the binade. -/
theorem nearestCode_of_under {x : Double} {num den : ℕ} (hnum : 0 < num) (hden : 0 < den)
    (low : (4 * (x.significand : ℚ) - x.gapBelow) * 2 ^ (x.exponent - 2) ≤ (num : ℚ) / den)
    (under : (num : ℚ) / den < 2 ^ (x.exponent + 52)) (normal : x.exponent ≠ -1074) :
    nearestCode num den = x.code := by
  obtain ⟨lowest, -⟩ := x.exponent_bounds
  have quarter := two_zpow_eq_four_mul x.exponent
  have full := le_significand (x := x) (by omega)
  have first : x.significand = 2 ^ 52 := by
    by_contra other
    have wide := gapBelow_eq_two (.inl other)
    have whole : (2 : ℚ) ^ 52 + 1 ≤ x.significand := by
      exact_mod_cast (show 2 ^ 52 + 1 ≤ x.significand by omega)
    have unit : (0 : ℚ) < 2 ^ (x.exponent - 2) := by positivity
    rw [wide, Nat.cast_ofNat] at low
    rw [zpow_add₀ two_ne_zero, quarter, show ((2 : ℚ) ^ (52 : ℤ)) = 2 ^ 52 by norm_cast] at under
    nlinarith
  have halved : (2 : ℚ) ^ x.exponent = 2 * 2 ^ (x.exponent - 1) := by
    rw [← zpow_one_add₀ two_ne_zero]
    congr 1
    omega
  have narrow : x.gapBelow = 1 := by
    have above : 1 < x.code / 2 ^ 52 := by
      have := code_eq x
      omega
    rw [gapBelow, if_pos ⟨first, above⟩]
  have unit : (0 : ℚ) < 2 ^ (x.exponent - 1) := by positivity
  have lower : ((2 : ℚ) ^ 53 - 1 / 2) * 2 ^ (x.exponent - 1) ≤ (num : ℚ) / den := by
    rw [first, narrow] at low
    push_cast at low
    have : (2 : ℚ) * 2 ^ (x.exponent - 1) = 4 * 2 ^ (x.exponent - 2) := halved ▸ quarter
    nlinarith
  have upper : (num : ℚ) / den < 2 ^ 53 * 2 ^ (x.exponent - 1) := by
    rw [zpow_add₀ two_ne_zero, halved, show ((2 : ℚ) ^ (52 : ℤ)) = 2 ^ 52 by norm_cast] at under
    linarith
  have log : floorLog2 num den = x.exponent + 51 := by
    apply floorLog2_eq hnum hden
    · have : (2 : ℚ) ^ (x.exponent + 51) = 2 ^ 52 * 2 ^ (x.exponent - 1) := by
        rw [show x.exponent + 51 = 52 + (x.exponent - 1) by omega, zpow_add₀ two_ne_zero]
        norm_cast
      nlinarith
    · rwa [show x.exponent + 51 + 1 = x.exponent + 52 by omega]
  have place : max (floorLog2 num den - 52) (-1074) = x.exponent - 1 := by omega
  rw [nearestCode_eq hden place (m := 2 ^ 53)]
  · rw [code_eq x, first]
    omega
  · push_cast
    exact lower
  · push_cast
    nlinarith
  · exact fun odd => absurd odd (by decide)

/-- A ratio in the rounding interval of a number has that number's code. -/
theorem nearestCode_of_covers {x : Double} (nonzero : x.isZero = false) {num den : ℕ}
    (hnum : 0 < num) (hden : 0 < den) (covered : x.roundingInterval.Covers ((num : ℚ) / den)) :
    nearestCode num den = x.code := by
  obtain ⟨low, high, strict⟩ := (covers_roundingInterval nonzero _).mp covered
  by_cases within : (2 : ℚ) ^ (x.exponent + 52) ≤ (num : ℚ) / den ∨ x.exponent = -1074
  · exact nearestCode_of_within hnum hden low high strict within
  · obtain ⟨under, normal⟩ := not_or.mp within
    exact nearestCode_of_under hnum hden low (not_le.mp under) normal

theorem two_zpow_lt_ten_zpow : (2 : ℚ) ^ (1088 : ℤ) < 10 ^ (400 : ℤ) := by
  rw [show (1088 : ℤ) = 68 * 16 by norm_num, show (400 : ℤ) = 25 * 16 by norm_num, zpow_mul,
    zpow_mul]
  exact zpow_lt_zpow_left₀ (by positivity) (by norm_num) (by norm_num)

theorem interval_below {x : Double} {v : ℚ}
    (high : v ≤ (4 * (x.significand : ℚ) + 2) * 2 ^ (x.exponent - 2)) : v < 10 ^ (400 : ℤ) := by
  obtain ⟨-, greatest⟩ := x.exponent_bounds
  have whole : (x.significand : ℚ) + 1 ≤ 2 ^ 53 := by exact_mod_cast x.significand_lt
  calc v ≤ (4 * (x.significand : ℚ) + 2) * 2 ^ (x.exponent - 2) := high
    _ ≤ 2 ^ (55 : ℤ) * 2 ^ (1033 : ℤ) := by
      gcongr
      · norm_num
        linarith
      · norm_num
      · omega
    _ = 2 ^ (1088 : ℤ) := by rw [← zpow_add₀ two_ne_zero]; congr 1
    _ < 10 ^ (400 : ℤ) := two_zpow_lt_ten_zpow

theorem interval_above {x : Double} (nonzero : x.isZero = false) {v : ℚ}
    (low : (4 * (x.significand : ℚ) - x.gapBelow) * 2 ^ (x.exponent - 2) ≤ v) :
    (10 : ℚ) ^ (-400 : ℤ) < v := by
  obtain ⟨lowest, -⟩ := x.exponent_bounds
  have whole : (1 : ℚ) ≤ x.significand := by exact_mod_cast significand_pos nonzero
  have gap : (x.gapBelow : ℚ) ≤ 2 := by exact_mod_cast x.gapBelow_le.2
  calc (10 : ℚ) ^ (-400 : ℤ) < 2 ^ (-1088 : ℤ) := by
        rw [zpow_neg, zpow_neg, inv_lt_inv₀ (by positivity) (by positivity)]
        exact two_zpow_lt_ten_zpow
    _ ≤ 1 * 2 ^ (x.exponent - 2) := by
      rw [one_mul]
      exact zpow_le_zpow_right₀ one_le_two (by omega)
    _ ≤ (4 * (x.significand : ℚ) - x.gapBelow) * 2 ^ (x.exponent - 2) := by
      gcongr
      linarith
    _ ≤ v := low

/-- Every decimal in the rounding interval of a number is read as that number. -/
theorem ofDecimal_of_covers {x : Double} (nonzero : x.isZero = false) {digits : ℕ} {scale : ℤ}
    (covered : x.roundingInterval.Covers (Decimal.value digits scale)) :
    ofDecimal x.negative digits scale = some x := by
  obtain ⟨low, high, -⟩ := (covers_roundingInterval nonzero _).mp covered
  have under := interval_below high
  have above := interval_above nonzero low
  have some : digits ≠ 0 := by
    rintro rfl
    rw [Decimal.value, Nat.cast_zero, zero_mul] at above
    exact absurd above (not_lt.mpr (by positivity))
  have positive : (1 : ℚ) ≤ digits := by exact_mod_cast Nat.one_le_iff_ne_zero.mpr some
  have notHuge : ¬ 400 < scale := by
    intro huge
    have : (10 : ℚ) ^ (400 : ℤ) ≤ Decimal.value digits scale := by
      calc (10 : ℚ) ^ (400 : ℤ) ≤ 1 * 10 ^ scale := by
            rw [one_mul]
            exact zpow_le_zpow_right₀ (by norm_num) huge.le
        _ ≤ digits * 10 ^ scale := by gcongr
    linarith
  have notTiny : ¬ scale < -(400 + digits.log2 : ℕ) := by
    intro tiny
    have size : (digits : ℚ) ≤ 10 ^ ((digits.log2 : ℤ) + 1) := by
      have log := (@Nat.lt_log2_self digits).le
      have wider : 2 ^ (digits.log2 + 1) ≤ 10 ^ (digits.log2 + 1) :=
        Nat.pow_le_pow_left (by decide) _
      exact_mod_cast log.trans wider
    have : Decimal.value digits scale ≤ 10 ^ (-400 : ℤ) := by
      calc (digits : ℚ) * 10 ^ scale ≤
            10 ^ ((digits.log2 : ℤ) + 1) * 10 ^ (-400 - ((digits.log2 : ℤ) + 1)) := by
            gcongr
            · norm_num
            · push_cast at tiny
              omega
        _ = 10 ^ (-400 : ℤ) := by
            rw [← zpow_add₀ (by norm_num)]
            congr 1
            ring
    linarith
  have ratio : ((digits * 10 ^ scale.toNat : ℕ) : ℚ) / ((10 ^ (-scale).toNat : ℕ) : ℚ) =
      Decimal.value digits scale := by
    have unit : (0 : ℚ) < 10 ^ (-scale).toNat := by positivity
    push_cast
    rw [div_eq_iff unit.ne', Decimal.value, mul_assoc, zpow_mul_pow_toNat_neg (by norm_num)]
  have code : nearestCode (digits * 10 ^ scale.toNat) (10 ^ (-scale).toNat) = x.code :=
    nearestCode_of_covers nonzero (by positivity) (by positivity) (ratio ▸ covered)
  rw [ofDecimal, if_neg some, if_neg notHuge, if_neg notTiny, ofRatio]
  simp only [Nat.pow_eq, code]
  rw [dif_pos x.code_lt]

/-! ### The search for the shortest decimal -/

/-- Whether the last grid searched for a number with this last place is finer than half the place;
places are counted from the lowest one. -/
def lastGridFits (n : ℕ) : Bool :=
  let exponent : ℤ := n - 1074
  let scale : ℤ := (53 + exponent) * 30103 / 100000 - 22
  10 ^ scale.toNat * 2 ^ (1 - exponent).toNat < 2 ^ (exponent - 1).toNat * 10 ^ (-scale).toNat

theorem lastGridFits_of_lt : ∀ n < 2046, lastGridFits n = true := by decide +kernel

/-- The last grid searched is finer than half the last place. -/
theorem lastGrid_lt (x : Double) : (10 : ℚ) ^ (x.topScale - 23) < 2 ^ (x.exponent - 1) := by
  obtain ⟨lowest, greatest⟩ := x.exponent_bounds
  obtain ⟨n, counted⟩ := Int.eq_ofNat_of_zero_le (show 0 ≤ x.exponent + 1074 by omega)
  have places : x.exponent = (n : ℤ) - 1074 := by omega
  have fits := lastGridFits_of_lt n (by omega)
  simp only [lastGridFits, ← places, decide_eq_true_eq] at fits
  generalize hscale : (53 + x.exponent) * 30103 / 100000 - 22 = scale at fits
  have coarser : x.topScale - 23 ≤ scale := by
    have digits : x.significand.log2 < 53 := by
      rcases Nat.eq_zero_or_pos x.significand with zero | positive
      · simp [zero]
      · exact (Nat.log2_lt positive.ne').mpr x.significand_lt
    simp only [topScale]
    omega
  have tens : (0 : ℚ) < 10 ^ (-scale).toNat := by positivity
  have twos : (0 : ℚ) < 2 ^ (1 - x.exponent).toNat := by positivity
  have compared : (10 : ℚ) ^ scale < 2 ^ (x.exponent - 1) := by
    rw [← mul_lt_mul_iff_left₀ tens, ← mul_lt_mul_iff_left₀ twos,
      zpow_mul_pow_toNat_neg (by norm_num), mul_right_comm,
      show 1 - x.exponent = -(x.exponent - 1) by ring, zpow_mul_pow_toNat_neg two_ne_zero,
      show -(x.exponent - 1) = 1 - x.exponent by ring]
    exact_mod_cast fits
  exact (zpow_le_zpow_right₀ (by norm_num) coarser).trans_lt compared

/-- The multiple of a power of ten that comes next after a number. -/
theorem next_multiple (x : Double) (scale : ℤ) :
    let below := x.roundingInterval.point * 10 ^ (-scale).toNat /
      (x.roundingInterval.den * 10 ^ scale.toNat)
    4 * (x.significand : ℚ) * 2 ^ (x.exponent - 2) < Decimal.value (below + 1) scale ∧
      Decimal.value (below + 1) scale ≤
        4 * (x.significand : ℚ) * 2 ^ (x.exponent - 2) + 10 ^ scale := by
  intro below
  have tens : (0 : ℚ) < 10 ^ (-scale).toNat := by positivity
  have twos : (0 : ℚ) < 2 ^ (-(x.exponent - 2)).toNat := by positivity
  have point : (x.roundingInterval.point : ℚ) =
      4 * (x.significand : ℚ) * 2 ^ (x.exponent - 2).toNat := by
    change ((4 * x.significand * 2 ^ (x.exponent - 2).toNat : ℕ) : ℚ) = _
    push_cast
    ring
  have positive : 0 < x.roundingInterval.den * 10 ^ scale.toNat :=
    Nat.mul_pos (Nat.pow_pos (by decide)) (Nat.pow_pos (by decide))
  have least : (x.roundingInterval.den : ℚ) * 10 ^ scale.toNat * below ≤
      x.roundingInterval.point * 10 ^ (-scale).toNat := by
    exact_mod_cast Nat.mul_div_le (x.roundingInterval.point * 10 ^ (-scale).toNat)
      (x.roundingInterval.den * 10 ^ scale.toNat)
  have greatest : (x.roundingInterval.point : ℚ) * 10 ^ (-scale).toNat <
      x.roundingInterval.den * 10 ^ scale.toNat * (below + 1) := by
    exact_mod_cast Nat.lt_mul_div_succ (x.roundingInterval.point * 10 ^ (-scale).toNat) positive
  have splitTwo := zpow_mul_pow_toNat_neg (two_ne_zero (α := ℚ)) (x.exponent - 2)
  have splitTen := zpow_mul_pow_toNat_neg (show (10 : ℚ) ≠ 0 by norm_num) scale
  rw [point, cast_roundingInterval_den, ← splitTwo, ← splitTen] at least greatest
  rw [Decimal.value]
  push_cast
  have scaled : (0 : ℚ) < 10 ^ (-scale).toNat * 2 ^ (-(x.exponent - 2)).toNat := by positivity
  constructor
  · rw [← mul_lt_mul_iff_left₀ scaled]
    linarith
  · rw [← mul_le_mul_iff_left₀ scaled]
    linarith

/-- The search ends with a decimal in the rounding interval. -/
theorem covers_shortest {x : Double} (nonzero : x.isZero = false) :
    x.roundingInterval.Covers (Decimal.value x.shortest.digits x.shortest.scale) := by
  have gap : (1 : ℚ) ≤ x.gapBelow := by exact_mod_cast x.gapBelow_le.1
  have unit : (0 : ℚ) < 2 ^ (x.exponent - 2) := by positivity
  have fine := x.lastGrid_lt
  generalize hscale : x.topScale - 23 = scale at fine
  have found : (x.roundingInterval.onGrid? (x.topScale - (23 : ℕ))).isSome := by
    rw [show x.topScale - ((23 : ℕ) : ℤ) = scale by rw [← hscale]; rfl]
    apply RoundingInterval.onGrid?_isSome
    rw [RoundingInterval.contains_iff, covers_roundingInterval nonzero]
    obtain ⟨above, near⟩ := next_multiple x scale
    have doubled : (2 : ℚ) ^ (x.exponent - 1) = 2 * 2 ^ (x.exponent - 2) := by
      rw [← zpow_one_add₀ two_ne_zero]
      congr 1
      ring
    have low : (4 * (x.significand : ℚ) - x.gapBelow) * 2 ^ (x.exponent - 2) <
        4 * x.significand * 2 ^ (x.exponent - 2) := by
      gcongr
      linarith
    exact ⟨by linarith, by linarith, fun _ => ⟨by linarith, by linarith⟩⟩
  cases search : x.roundingInterval.coarsest 24 x.topScale with
  | none =>
    have ends : (x.roundingInterval.coarsest 24 x.topScale).isSome :=
      RoundingInterval.coarsest_isSome 23 (by decide) found
    rw [search] at ends
    cases ends
  | some d =>
    have same : x.shortest = d := by simp [shortest, nonzero, search]
    rw [same, ← RoundingInterval.contains_iff]
    exact RoundingInterval.contains_of_coarsest search

end Double

end EventPipeline
