import Mathlib.Algebra.Group.Int.Even
import Mathlib.Algebra.Order.Field.Power
import Mathlib.Data.Int.Log
import Mathlib.Data.Rat.Floor
import Mathlib.Tactic.FieldSimp
import Mathlib.Tactic.Linarith
import Mathlib.Tactic.NormNum
import Mathlib.Tactic.Positivity
import Mathlib.Tactic.Ring

/-!
# The values of doubles

A decimal notation denotes the double nearest to it, which need not have the value that the notation
says. Numbers beyond the range of the format are not considered.

* `nearest`: the value of the double nearest to a number, ties to even.
* `nearest_intCast`: integers below `2 ^ 53` are doubles.
* `abs_nearest_sub_le`, `nearest_le_intCast`: the relative error, and that no integer is passed.
-/

namespace Binary64

/-- The nearest integer, ties to even. -/
def roundHalfEven (x : ℚ) : ℤ :=
  if x - ⌊x⌋ < 1 / 2 then ⌊x⌋
  else if 1 / 2 < x - ⌊x⌋ then ⌊x⌋ + 1
  else if Even ⌊x⌋ then ⌊x⌋ else ⌊x⌋ + 1

/-- The distance between the doubles around a number: they have 53 significant bits, and the exponent
of the smallest is `-1074`. -/
def ulp (x : ℚ) : ℚ := 2 ^ (max (Int.log 2 |x|) (-1022) - 52)

/-- The value of the double nearest to a number. -/
def nearest (x : ℚ) : ℚ := roundHalfEven (x / ulp x) * ulp x

theorem roundHalfEven_intCast (n : ℤ) : roundHalfEven n = n := by
  rw [roundHalfEven, Int.floor_intCast, sub_self, if_pos (by norm_num)]

theorem ulp_ne_zero (x : ℚ) : ulp x ≠ 0 := zpow_ne_zero _ two_ne_zero

/-- The multiples of the distance are doubles. -/
theorem nearest_of_eq_mul {x : ℚ} {n : ℤ} (h : x = n * ulp x) : nearest x = x := by
  have hquotient : x / ulp x = n := by
    rw [div_eq_iff (ulp_ne_zero x)]
    exact h
  rw [nearest, hquotient, roundHalfEven_intCast, ← h]

/-- The integers of at most 53 bits are doubles. -/
theorem nearest_intCast {n : ℤ} (h : |n| < 2 ^ 53) : nearest n = n := by
  rcases eq_or_ne n 0 with rfl | hn
  · exact nearest_of_eq_mul (n := 0) (by simp)
  · have hpos : (0 : ℚ) < |(n : ℚ)| := abs_pos.mpr (Int.cast_ne_zero.mpr hn)
    have hlt : |(n : ℚ)| < ((2 : ℕ) : ℚ) ^ (53 : ℤ) := by
      rw [← Int.cast_abs]
      exact_mod_cast h
    have hlog : Int.log 2 |(n : ℚ)| < 53 := (Int.lt_zpow_iff_log_lt one_lt_two hpos).mp hlt
    obtain ⟨j, hj⟩ : ∃ j : ℕ, max (Int.log 2 |(n : ℚ)|) (-1022) - 52 = -j :=
      ⟨(52 - max (Int.log 2 |(n : ℚ)|) (-1022)).toNat, by omega⟩
    -- The distance between doubles divides one.
    refine nearest_of_eq_mul (n := n * 2 ^ j) ?_
    rw [ulp, hj, zpow_neg, zpow_natCast]
    push_cast
    field_simp

/-- Rounding moves a number by a half at most. -/
theorem abs_roundHalfEven_sub_le (x : ℚ) : |roundHalfEven x - x| ≤ 1 / 2 := by
  have hfloor := Int.floor_le x
  have hlt := Int.lt_floor_add_one x
  rw [abs_le, roundHalfEven]
  split_ifs with hdown hup heven <;> push_cast <;> constructor <;> linarith

/-- Rounding does not pass an integer from below. -/
theorem roundHalfEven_le {x : ℚ} {n : ℤ} (h : x ≤ n) : roundHalfEven x ≤ n := by
  by_contra hlt
  have hstep : (n : ℚ) + 1 ≤ roundHalfEven x := by exact_mod_cast not_le.mp hlt
  have habs := (abs_le.mp (abs_roundHalfEven_sub_le x)).2
  linarith

theorem ulp_pos (x : ℚ) : 0 < ulp x := zpow_pos two_pos _

/-- The relative error of a double that is not below the smallest normal number. -/
theorem abs_nearest_sub_le {x : ℚ} (h : 2 ^ (-1022 : ℤ) ≤ |x|) : |nearest x - x| ≤ |x| / 2 ^ 53 := by
  have hpos : 0 < |x| := (zpow_pos two_pos _).trans_le h
  have hlog : (-1022 : ℤ) ≤ Int.log 2 |x| := (Int.zpow_le_iff_le_log one_lt_two hpos).mp (by exact_mod_cast h)
  have hulp : ulp x ≤ |x| / 2 ^ 52 := by
    rw [ulp, max_eq_left hlog, zpow_sub₀ two_ne_zero]
    have hle : ((2 : ℕ) : ℚ) ^ Int.log 2 |x| ≤ |x| := Int.zpow_log_le_self one_lt_two hpos
    exact div_le_div_of_nonneg_right (by exact_mod_cast hle) (by positivity)
  have hround := abs_roundHalfEven_sub_le (x / ulp x)
  have hscaled : nearest x - x = (roundHalfEven (x / ulp x) - x / ulp x) * ulp x := by
    rw [nearest, sub_mul, div_mul_cancel₀ x (ulp_ne_zero x)]
  calc |nearest x - x| = |roundHalfEven (x / ulp x) - x / ulp x| * ulp x := by
        rw [hscaled, abs_mul, abs_of_pos (ulp_pos x)]
    _ ≤ 1 / 2 * ulp x := mul_le_mul_of_nonneg_right hround (ulp_pos x).le
    _ ≤ 1 / 2 * (|x| / 2 ^ 52) := by linarith
    _ = |x| / 2 ^ 53 := by ring

/-- The nearest double does not pass an integer of at most 53 bits from below. -/
theorem nearest_le_intCast {x : ℚ} {n : ℤ} (h : x ≤ n) (hx : |x| < 2 ^ 53) : nearest x ≤ n := by
  -- The integer is a multiple of the distance between the doubles around the number.
  obtain ⟨j, hj⟩ : ∃ j : ℕ, max (Int.log 2 |x|) (-1022) - 52 = -j := by
    refine ⟨(52 - max (Int.log 2 |x|) (-1022)).toNat, ?_⟩
    rcases eq_or_ne x 0 with rfl | hne
    · simp
    · have hlog : Int.log 2 |x| < 53 :=
        (Int.lt_zpow_iff_log_lt one_lt_two (abs_pos.mpr hne)).mp (by exact_mod_cast hx)
      omega
  have hulp : ulp x = (2 ^ j : ℚ)⁻¹ := by rw [ulp, hj, zpow_neg, zpow_natCast]
  have hscaled : x / ulp x ≤ ((n * 2 ^ j : ℤ) : ℚ) := by
    rw [hulp, div_inv_eq_mul]
    push_cast
    exact mul_le_mul_of_nonneg_right h (by positivity)
  have hround : (roundHalfEven (x / ulp x) : ℚ) ≤ n * 2 ^ j := by exact_mod_cast roundHalfEven_le hscaled
  calc nearest x = roundHalfEven (x / ulp x) * ulp x := rfl
    _ ≤ n * 2 ^ j * ulp x := mul_le_mul_of_nonneg_right hround (ulp_pos x).le
    _ = n := by rw [hulp, mul_inv_cancel_right₀ (by positivity)]

/-- Rounding loses at most a small share of a value. -/
theorem sub_le_nearest {x : ℚ} (h : 1 / 1000 ≤ x) : x - x / 2 ^ 53 ≤ nearest x := by
  have habs : |x| = x := abs_of_nonneg (by linarith)
  have hnormal : (2 : ℚ) ^ (-1022 : ℤ) ≤ |x| := by
    calc (2 : ℚ) ^ (-1022 : ℤ) ≤ 2 ^ (-10 : ℤ) := zpow_le_zpow_right₀ one_le_two (by omega)
      _ ≤ 1 / 1000 := by norm_num
      _ ≤ |x| := by rw [habs]; exact h
  have herror := (abs_le.mp (abs_nearest_sub_le hnormal)).1
  rw [habs] at herror
  linarith

theorem roundHalfEven_nonneg {x : ℚ} (h : 0 ≤ x) : 0 ≤ roundHalfEven x := by
  by_contra hlt
  have hstep : (roundHalfEven x : ℚ) ≤ -1 := by exact_mod_cast Int.le_sub_one_of_lt (not_le.mp hlt)
  have habs := (abs_le.mp (abs_roundHalfEven_sub_le x)).1
  linarith

/-- A number between 0 and 1 is rounded to one between 0 and 1. -/
theorem nearest_mem_unit {x : ℚ} (h : 0 ≤ x) (h' : x ≤ 1) : 0 ≤ nearest x ∧ nearest x ≤ 1 := by
  constructor
  · have hscaled : 0 ≤ x / ulp x := div_nonneg h (ulp_pos x).le
    exact mul_nonneg (by exact_mod_cast roundHalfEven_nonneg hscaled) (ulp_pos x).le
  · have habs : |x| < 2 ^ 53 := by
      rw [abs_of_nonneg h]
      linarith
    exact_mod_cast nearest_le_intCast (by exact_mod_cast h') habs

/-- `round(x, digits)`. -/
def roundTo (digits : ℕ) (x : ℚ) : ℚ := nearest (roundHalfEven (x * 10 ^ digits) / 10 ^ digits)

theorem roundTo_mem_unit {x : ℚ} (digits : ℕ) (h : 0 ≤ x) (h' : x ≤ 1) :
    0 ≤ roundTo digits x ∧ roundTo digits x ≤ 1 := by
  have hpos : (0 : ℚ) < 10 ^ digits := by positivity
  have hge : (0 : ℚ) ≤ roundHalfEven (x * 10 ^ digits) := by
    exact_mod_cast roundHalfEven_nonneg (mul_nonneg h hpos.le)
  have hle : (roundHalfEven (x * 10 ^ digits) : ℚ) ≤ 10 ^ digits := by
    have hscaled : x * 10 ^ digits ≤ ((10 ^ digits : ℤ) : ℚ) := by
      push_cast
      exact mul_le_of_le_one_left hpos.le h'
    exact_mod_cast roundHalfEven_le hscaled
  exact nearest_mem_unit (div_nonneg hge hpos.le) ((div_le_one hpos).mpr hle)

/-- A notation whose double has another value. -/
theorem nearest_1e23 : nearest (10 ^ 23) = 99999999999999991611392 := by
  decide +kernel

end Binary64
