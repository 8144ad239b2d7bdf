import VoiceAgentPlatform.Lib.Binary64

/-!
# Rounding to integers

The two ways in which the platform rounds to the nearest integer: `round` of Python takes a tie to the even
neighbour, `Math.round` of JavaScript to the greater one.

* `roundHalfUp`; `roundHalfEven` is that of `Binary64`.
* `roundHalfEven_eq_roundHalfUp_iff`: where the two are the same.
* `roundHalfUp_mem`, `roundHalfEven_mem`: rounding does not leave a range of integers.
-/

namespace Rounding

open Binary64 (roundHalfEven)

/-- `Math.round`. -/
def roundHalfUp (x : ℚ) : ℤ := ⌊x + 1 / 2⌋

theorem roundHalfUp_eq (x : ℚ) : roundHalfUp x = if x - ⌊x⌋ < 1 / 2 then ⌊x⌋ else ⌊x⌋ + 1 := by
  have hle := Int.floor_le x
  have hlt := Int.lt_floor_add_one x
  rw [roundHalfUp, Int.floor_eq_iff]
  split_ifs with hhalf
  · constructor <;> linarith
  · rw [Int.cast_add, Int.cast_one]
    constructor <;> linarith

/-- The two ways differ for the ties behind an even integer only. -/
theorem roundHalfEven_eq_roundHalfUp_iff (x : ℚ) :
    roundHalfEven x = roundHalfUp x ↔ ∀ m : ℤ, x ≠ 2 * m + 1 / 2 := by
  rw [roundHalfUp_eq, roundHalfEven]
  have htie (m : ℤ) (h : x = 2 * m + 1 / 2) : ⌊x⌋ = 2 * m := by
    rw [Int.floor_eq_iff, h, Int.cast_mul, Int.cast_ofNat]
    constructor <;> linarith
  by_cases hlow : x - ⌊x⌋ < 1 / 2
  · refine iff_of_true (by rw [if_pos hlow, if_pos hlow]) fun m h => ?_
    rw [htie m h, h, Int.cast_mul, Int.cast_ofNat] at hlow
    linarith
  · rw [if_neg hlow, if_neg hlow]
    by_cases hhigh : 1 / 2 < x - ⌊x⌋
    · refine iff_of_true (if_pos hhigh) fun m h => ?_
      rw [htie m h, h, Int.cast_mul, Int.cast_ofNat] at hhigh
      linarith
    · -- Only a tie is rounded in two ways, and only above an even number.
      have hhalf : x - ⌊x⌋ = 1 / 2 := le_antisymm (not_lt.mp hhigh) (not_lt.mp hlow)
      rw [if_neg hhigh]
      split_ifs with heven
      · obtain ⟨m, hm⟩ := heven
        refine iff_of_false (fun h => absurd h (lt_add_one _).ne) fun h => h m ?_
        rw [hm, Int.cast_add] at hhalf
        linarith
      · refine iff_of_true rfl fun m h => heven ?_
        rw [htie m h]
        exact even_two_mul m

theorem roundHalfUp_mem {a b : ℤ} {x : ℚ} (ha : a ≤ x) (hb : x ≤ b) :
    a ≤ roundHalfUp x ∧ roundHalfUp x ≤ b := by
  constructor
  · rw [roundHalfUp, Int.le_floor]
    linarith
  · rw [roundHalfUp, ← Int.lt_add_one_iff, Int.floor_lt, Int.cast_add, Int.cast_one]
    linarith

theorem roundHalfEven_mem {a b : ℤ} {x : ℚ} (ha : a ≤ x) (hb : x ≤ b) :
    a ≤ roundHalfEven x ∧ roundHalfEven x ≤ b := by
  have hfloor : a ≤ ⌊x⌋ := Int.le_floor.mpr ha
  have hfloor' : ⌊x⌋ ≤ b := Int.floor_le_iff.mpr (by linarith)
  -- Rounding up needs a fraction.
  have hup (h : ¬ x - ⌊x⌋ < 1 / 2) : ⌊x⌋ + 1 ≤ b := by
    have hlt : ((⌊x⌋ : ℤ) : ℚ) < b := by linarith
    exact Int.add_one_le_iff.mpr (Int.cast_lt.mp hlt)
  rw [roundHalfEven]
  split_ifs with hlow hhigh heven
  · exact ⟨hfloor, hfloor'⟩
  · exact ⟨hfloor.trans (lt_add_one _).le, hup hlow⟩
  · exact ⟨hfloor, hfloor'⟩
  · exact ⟨hfloor.trans (lt_add_one _).le, hup hlow⟩

end Rounding
