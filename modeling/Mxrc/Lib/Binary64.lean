import Mxrc.Lib.Decimal

/-!
# Rounding to binary64

`nearest` is the value of the double next to a non-negative number, ties to the
even significand. Overflow and subnormal numbers are left out. A rounding moves
a number by at most a `2 ^ 53`-th of it.
-/

namespace Mxrc.Lib.Binary64
open Mxrc.Lib.Decimal

/-- The distance of the doubles around `x`; their significand has 53 bits. -/
def ulp (x : ℚ) : ℚ := 2 ^ (Int.log 2 x - 52)

def nearest (x : ℚ) : ℚ := roundHalfEven (x / ulp x) * ulp x

lemma abs_roundHalfEven_sub_le (q : ℚ) : |roundHalfEven q - q| ≤ 1 / 2 := by
  have hlow := Int.floor_le q
  have hhigh := Int.lt_floor_add_one q
  rw [roundHalfEven, abs_le]
  split_ifs <;> push_cast <;> constructor <;> linarith

lemma ulp_pos (x : ℚ) : 0 < ulp x := by
  rw [ulp]
  positivity

lemma ulp_le {x : ℚ} (hx : 0 < x) : ulp x ≤ x / 2 ^ 52 := by
  have hlog : (2 : ℚ) ^ Int.log 2 x ≤ x := by
    have h := Int.zpow_log_le_self (b := 2) (by norm_num) hx
    exact_mod_cast h
  rw [ulp, zpow_sub₀ two_ne_zero]
  gcongr
  norm_num

lemma abs_nearest_sub_le {x : ℚ} (hx : 0 ≤ x) : |nearest x - x| ≤ x / 2 ^ 53 := by
  rcases hx.eq_or_lt with rfl | hpos
  · simp [nearest, roundHalfEven]
  · have hu := ulp_pos x
    have hscl : nearest x - x = (roundHalfEven (x / ulp x) - x / ulp x) * ulp x := by
      rw [nearest]
      field_simp
    calc |nearest x - x| = |roundHalfEven (x / ulp x) - x / ulp x| * ulp x := by
          rw [hscl, abs_mul, abs_of_pos hu]
      _ ≤ 1 / 2 * ulp x := by
          gcongr
          exact abs_roundHalfEven_sub_le _
      _ ≤ 1 / 2 * (x / 2 ^ 52) := by
          gcongr
          exact ulp_le hpos
      _ = x / 2 ^ 53 := by ring

lemma nearest_le {x : ℚ} (hx : 0 ≤ x) : nearest x ≤ x * (1 + 1 / 2 ^ 53) := by
  have h := (abs_le.mp (abs_nearest_sub_le hx)).2
  linarith

lemma le_nearest {x : ℚ} (hx : 0 ≤ x) : x * (1 - 1 / 2 ^ 53) ≤ nearest x := by
  have h := (abs_le.mp (abs_nearest_sub_le hx)).1
  linarith

lemma nearest_nonneg {x : ℚ} (hx : 0 ≤ x) : 0 ≤ nearest x :=
  (mul_nonneg hx (by norm_num)).trans (le_nearest hx)

end Mxrc.Lib.Binary64
