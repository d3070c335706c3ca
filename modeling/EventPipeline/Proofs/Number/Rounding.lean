import EventPipeline.Number.Shortest
import Mathlib.Algebra.Order.Field.Power
import Mathlib.Data.Rat.Cast.Order
import Mathlib.Tactic.FieldSimp
import Mathlib.Tactic.Linarith
import Mathlib.Tactic.Positivity
import Mathlib.Tactic.Ring

/-! # Rounding decimals

Rounding is integer arithmetic on a ratio. Here it is described on rationals: `floorLog2` bounds the
ratio by powers of two, `roundHalfEven` finds the nearest integer, and every decimal in the rounding
interval of a number is rounded to that number (`ofDecimal_of_covers`).
-/

namespace EventPipeline

/-- A power with any exponent as a quotient of two powers with natural ones. -/
theorem zpow_mul_pow_toNat_neg {b : ℚ} (nonzero : b ≠ 0) (k : ℤ) :
    b ^ k * b ^ (-k).toNat = b ^ k.toNat := by
  rw [← zpow_natCast, ← zpow_natCast, ← zpow_add₀ nonzero]
  congr 1
  omega

namespace Double

/-- Rounding finds the integer that the ratio is nearest to, a tie going to the even one. -/
theorem roundHalfEven_eq {num den m : ℕ} (positive : 0 < den) (below : 2 * (m * den) ≤ 2 * num + den)
    (above : 2 * num ≤ 2 * (m * den) + den)
    (tie : m % 2 = 1 → 2 * (m * den) < 2 * num + den ∧ 2 * num < 2 * (m * den) + den) :
    roundHalfEven num den = m := by
  have split := Nat.div_add_mod num den
  have small := Nat.mod_lt num positive
  have grid : m = num / den ∨ m = num / den + 1 := by
    rcases Nat.lt_or_ge m (num / den) with less | least
    · have := Nat.mul_le_mul_right den (Nat.succ_le_of_lt less)
      rw [Nat.succ_mul, Nat.mul_comm (num / den)] at this
      omega
    · rcases Nat.lt_or_ge (num / den + 1) m with more | most
      · have := Nat.mul_le_mul_right den (Nat.succ_le_of_lt more)
        rw [Nat.succ_mul, Nat.succ_mul, Nat.mul_comm (num / den)] at this
        omega
      · omega
  simp only [roundHalfEven]
  rcases grid with rfl | rfl
  · rw [Nat.mul_comm (num / den)] at below above tie
    split_ifs <;> omega
  · rw [Nat.add_mul, Nat.one_mul, Nat.mul_comm (num / den)] at below above tie
    split_ifs <;> omega

theorem floorLog2_spec {num den : ℕ} (hnum : 0 < num) (hden : 0 < den) :
    (2 : ℚ) ^ floorLog2 num den ≤ (num : ℚ) / den ∧
      (num : ℚ) / den < 2 ^ (floorLog2 num den + 1) := by
  have denPositive : (0 : ℚ) < den := by exact_mod_cast hden
  have numLow : ((2 : ℚ) ^ (num.log2 : ℤ)) ≤ num := by
    rw [zpow_natCast]
    exact_mod_cast Nat.log2_self_le hnum.ne'
  have numHigh : (num : ℚ) < 2 ^ ((num.log2 : ℤ) + 1) := by
    have bound := @Nat.lt_log2_self num
    rw [← Nat.cast_succ, zpow_natCast]
    exact_mod_cast bound
  have denLow : ((2 : ℚ) ^ (den.log2 : ℤ)) ≤ den := by
    rw [zpow_natCast]
    exact_mod_cast Nat.log2_self_le hden.ne'
  have denHigh : (den : ℚ) < 2 ^ ((den.log2 : ℤ) + 1) := by
    have bound := @Nat.lt_log2_self den
    rw [← Nat.cast_succ, zpow_natCast]
    exact_mod_cast bound
  have reached (e : ℤ) :
      den * 2 ^ e.toNat ≤ num * 2 ^ (-e).toNat ↔ (2 : ℚ) ^ e ≤ (num : ℚ) / den := by
    have scale : (0 : ℚ) < 2 ^ (-e).toNat := by positivity
    rw [le_div_iff₀ denPositive, ← mul_le_mul_iff_left₀ scale, mul_right_comm,
      zpow_mul_pow_toNat_neg two_ne_zero, mul_comm _ (den : ℚ)]
    exact_mod_cast Iff.rfl
  generalize hguess : (num.log2 : ℤ) - den.log2 = guess
  have low : (2 : ℚ) ^ (guess - 1) ≤ (num : ℚ) / den := by
    rw [le_div_iff₀ denPositive]
    calc (2 : ℚ) ^ (guess - 1) * den ≤ 2 ^ (guess - 1) * 2 ^ ((den.log2 : ℤ) + 1) := by gcongr
      _ = 2 ^ (num.log2 : ℤ) := by rw [← zpow_add₀ two_ne_zero]; congr 1; omega
      _ ≤ num := numLow
  have high : (num : ℚ) / den < 2 ^ (guess + 1) := by
    rw [div_lt_iff₀ denPositive]
    calc (num : ℚ) < 2 ^ ((num.log2 : ℤ) + 1) := numHigh
      _ = 2 ^ (guess + 1) * 2 ^ (den.log2 : ℤ) := by
        rw [← zpow_add₀ two_ne_zero]; congr 1; omega
      _ ≤ 2 ^ (guess + 1) * den := by gcongr
  simp only [floorLog2, hguess, Nat.pow_eq]
  split_ifs with fits
  · exact ⟨(reached guess).mp fits, high⟩
  · rw [reached, not_le] at fits
    exact ⟨low, by simpa using fits⟩

/-- The logarithm is found from bounds by powers of two. -/
theorem floorLog2_eq {num den : ℕ} (hnum : 0 < num) (hden : 0 < den) {e : ℤ}
    (low : (2 : ℚ) ^ e ≤ (num : ℚ) / den) (high : (num : ℚ) / den < 2 ^ (e + 1)) :
    floorLog2 num den = e := by
  obtain ⟨least, greatest⟩ := floorLog2_spec hnum hden
  have first := (zpow_lt_zpow_iff_right₀ (one_lt_two (α := ℚ))).mp (low.trans_lt greatest)
  have second := (zpow_lt_zpow_iff_right₀ (one_lt_two (α := ℚ))).mp (least.trans_lt high)
  omega

/-- The code of a ratio whose last binary place is known, found from an integer that the ratio, in
units of that place, is nearest to. -/
theorem nearestCode_eq {num den m : ℕ} {place : ℤ} (hden : 0 < den)
    (atPlace : max (floorLog2 num den - 52) (-1074) = place)
    (below : ((m : ℚ) - 1 / 2) * 2 ^ place ≤ (num : ℚ) / den)
    (above : (num : ℚ) / den ≤ ((m : ℚ) + 1 / 2) * 2 ^ place)
    (tie : m % 2 = 1 → ((m : ℚ) - 1 / 2) * 2 ^ place < (num : ℚ) / den ∧
      (num : ℚ) / den < ((m : ℚ) + 1 / 2) * 2 ^ place) :
    nearestCode num den = (place + 1074).toNat * 2 ^ 52 + m := by
  have denPositive : (0 : ℚ) < den := by exact_mod_cast hden
  have scalePositive : (0 : ℚ) < 2 ^ (-place).toNat := by positivity
  have scaled := zpow_mul_pow_toNat_neg (two_ne_zero (α := ℚ)) place
  have cast (t : ℚ) : t * 2 ^ place * den * 2 ^ (-place).toNat = t * (den * 2 ^ place.toNat) := by
    rw [← scaled]
    ring
  have rounded : roundHalfEven (num * 2 ^ (-place).toNat) (den * 2 ^ place.toNat) = m := by
    rw [le_div_iff₀ denPositive, ← mul_le_mul_iff_left₀ scalePositive, cast] at below
    rw [div_le_iff₀ denPositive, ← mul_le_mul_iff_left₀ scalePositive, cast] at above
    apply roundHalfEven_eq (by positivity)
    · have doubled : (2 : ℚ) * (m * (den * 2 ^ place.toNat)) ≤
          2 * (num * 2 ^ (-place).toNat) + den * 2 ^ place.toNat := by linarith
      exact_mod_cast doubled
    · have doubled : (2 : ℚ) * (num * 2 ^ (-place).toNat) ≤
          2 * (m * (den * 2 ^ place.toNat)) + den * 2 ^ place.toNat := by linarith
      exact_mod_cast doubled
    · intro odd
      obtain ⟨strictBelow, strictAbove⟩ := tie odd
      rw [lt_div_iff₀ denPositive, ← mul_lt_mul_iff_left₀ scalePositive, cast] at strictBelow
      rw [div_lt_iff₀ denPositive, ← mul_lt_mul_iff_left₀ scalePositive, cast] at strictAbove
      have doubledBelow : (2 : ℚ) * (m * (den * 2 ^ place.toNat)) <
          2 * (num * 2 ^ (-place).toNat) + den * 2 ^ place.toNat := by linarith
      have doubledAbove : (2 : ℚ) * (num * 2 ^ (-place).toNat) <
          2 * (m * (den * 2 ^ place.toNat)) + den * 2 ^ place.toNat := by linarith
      exact ⟨by exact_mod_cast doubledBelow, by exact_mod_cast doubledAbove⟩
  simp only [nearestCode, atPlace, Nat.pow_eq, rounded]
  norm_num

end Double

end EventPipeline
