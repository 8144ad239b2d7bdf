import VoiceAgentPlatform.Lib.Binary64

/-!
# The order of doubles

* `roundHalfEven_mono`, `nearest_mono`: rounding keeps the order of numbers.
* `nearest_neg`: it is symmetric.
* `lerp`: interpolation; `lerp_mem` and `lerp_mono` say that it stays between integers, and grows.
-/

namespace Binary64

theorem roundHalfEven_mono {x y : ℚ} (h : x ≤ y) : roundHalfEven x ≤ roundHalfEven y := by
  by_contra hlt
  have hstep : (roundHalfEven y : ℚ) + 1 ≤ roundHalfEven x := by exact_mod_cast not_le.mp hlt
  have hx := (abs_le.mp (abs_roundHalfEven_sub_le x)).2
  have hy := (abs_le.mp (abs_roundHalfEven_sub_le y)).1
  -- Both are halfway between the two integers, so they are the same number.
  obtain rfl : x = y := le_antisymm h (by linarith)
  exact hlt le_rfl

/-- What is not an integer has its neighbours below and above it; between them ties go to the even one. -/
theorem roundHalfEven_neg (x : ℚ) : roundHalfEven (-x) = -roundHalfEven x := by
  by_cases hint : ∃ n : ℤ, x = n
  · obtain ⟨n, rfl⟩ := hint
    rw [← Int.cast_neg, roundHalfEven_intCast, roundHalfEven_intCast]
  · have hfloor : ⌊-x⌋ = -⌊x⌋ - 1 := by
      rw [Int.floor_eq_iff]
      have hle := Int.floor_le x
      have hlt := Int.lt_floor_add_one x
      have hne : (⌊x⌋ : ℚ) ≠ x := fun h => hint ⟨⌊x⌋, h.symm⟩
      have hlt' := lt_of_le_of_ne hle hne
      push_cast
      constructor <;> linarith
    have heven : Even (-⌊x⌋ - 1) ↔ ¬ Even ⌊x⌋ := by
      rw [Int.even_sub_one, Int.not_even_iff_odd, ← Int.not_even_iff_odd, even_neg]
    simp only [roundHalfEven, hfloor, heven]
    push_cast
    split_ifs <;> first | omega | linarith

theorem ulp_neg (x : ℚ) : ulp (-x) = ulp x := by rw [ulp, ulp, abs_neg]

theorem nearest_neg (x : ℚ) : nearest (-x) = -nearest x := by
  rw [nearest, nearest, ulp_neg, neg_div, roundHalfEven_neg, Int.cast_neg, neg_mul]

theorem nearest_nonneg {x : ℚ} (h : 0 ≤ x) : 0 ≤ nearest x :=
  mul_nonneg (by exact_mod_cast roundHalfEven_nonneg (div_nonneg h (ulp_pos x).le)) (ulp_pos x).le

/-- The exponent of a double, as far as the format has it. -/
def exponent (x : ℚ) : ℤ := max (Int.log 2 |x|) (-1022)

theorem ulp_eq (x : ℚ) : ulp x = 2 ^ (exponent x - 52) := rfl

/-- A power of two that is not below the exponent is not passed from below. -/
theorem nearest_le_zpow {x : ℚ} {e : ℤ} (h : x ≤ 2 ^ e) (he : exponent x ≤ e) : nearest x ≤ 2 ^ e := by
  obtain ⟨j, hj⟩ : ∃ j : ℕ, e - (exponent x - 52) = j := ⟨(e - (exponent x - 52)).toNat, by omega⟩
  have hpow : (2 : ℚ) ^ e = (2 ^ j : ℤ) * ulp x := by
    rw [ulp_eq]
    push_cast
    rw [← zpow_natCast, ← zpow_add₀ two_ne_zero, ← hj, sub_add_cancel]
  have hscaled : x / ulp x ≤ ((2 ^ j : ℤ) : ℚ) := by
    rwa [div_le_iff₀ (ulp_pos x), ← hpow]
  have hround : (roundHalfEven (x / ulp x) : ℚ) ≤ ((2 ^ j : ℤ) : ℚ) := by
    exact_mod_cast roundHalfEven_le hscaled
  calc nearest x = roundHalfEven (x / ulp x) * ulp x := rfl
    _ ≤ (2 ^ j : ℤ) * ulp x := mul_le_mul_of_nonneg_right hround (ulp_pos x).le
    _ = 2 ^ e := hpow.symm

/-- The power of two of the exponent is not passed from above. -/
theorem zpow_le_nearest {x : ℚ} (h : 2 ^ exponent x ≤ x) : 2 ^ exponent x ≤ nearest x := by
  have hpow : (2 : ℚ) ^ exponent x = (2 ^ 52 : ℤ) * ulp x := by
    rw [ulp_eq, zpow_sub₀ two_ne_zero]
    norm_num
    ring
  have hscaled : ((2 ^ 52 : ℤ) : ℚ) ≤ x / ulp x := by
    rwa [le_div_iff₀ (ulp_pos x), ← hpow]
  have hround := roundHalfEven_mono hscaled
  rw [roundHalfEven_intCast] at hround
  calc (2 : ℚ) ^ exponent x = (2 ^ 52 : ℤ) * ulp x := hpow
    _ ≤ roundHalfEven (x / ulp x) * ulp x :=
      mul_le_mul_of_nonneg_right (by exact_mod_cast hround) (ulp_pos x).le

theorem nearest_mono_of_nonneg {x y : ℚ} (hx : 0 ≤ x) (h : x ≤ y) : nearest x ≤ nearest y := by
  have hzero : nearest 0 = 0 := by exact_mod_cast nearest_intCast (n := 0) (by norm_num)
  rcases hx.eq_or_lt with rfl | hx
  · rw [hzero]
    exact nearest_nonneg h
  have hy := hx.trans_le h
  have hlog : Int.log 2 x ≤ Int.log 2 y := Int.log_mono_right hx h
  have hle : exponent x ≤ exponent y := by
    rw [exponent, exponent, abs_of_pos hx, abs_of_pos hy]
    omega
  rcases hle.eq_or_lt with heq | hlt
  · -- The doubles around both are equally far apart.
    have hulp : ulp x = ulp y := by rw [ulp_eq, ulp_eq, heq]
    rw [nearest, nearest, hulp]
    refine mul_le_mul_of_nonneg_right ?_ (ulp_pos y).le
    exact_mod_cast roundHalfEven_mono (div_le_div_of_nonneg_right h (ulp_pos y).le)
  · -- A power of two lies between them.
    have hexponent : exponent y = Int.log 2 y := by
      rw [exponent, abs_of_pos hy]
      rw [exponent, exponent, abs_of_pos hx, abs_of_pos hy] at hlt
      omega
    have hpow : (2 : ℚ) ^ exponent y ≤ y := by
      rw [hexponent]
      exact_mod_cast Int.zpow_log_le_self one_lt_two hy
    have hbelow : x ≤ 2 ^ exponent y := by
      have hsucc : x < ((2 : ℕ) : ℚ) ^ (Int.log 2 x + 1) := Int.lt_zpow_succ_log_self one_lt_two x
      have hlog' : Int.log 2 x + 1 ≤ exponent y := by
        have : Int.log 2 x ≤ exponent x := by
          rw [exponent, abs_of_pos hx]
          exact le_max_left _ _
        omega
      have hzpow : (2 : ℚ) ^ (Int.log 2 x + 1) ≤ 2 ^ exponent y := zpow_le_zpow_right₀ one_le_two hlog'
      exact hsucc.le.trans (by exact_mod_cast hzpow)
    exact (nearest_le_zpow hbelow hle).trans (zpow_le_nearest hpow)

/-- Rounding keeps the order of numbers. -/
theorem nearest_mono {x y : ℚ} (h : x ≤ y) : nearest x ≤ nearest y := by
  rcases le_total 0 x with hx | hx
  · exact nearest_mono_of_nonneg hx h
  · have hnegx := nearest_nonneg (neg_nonneg.mpr hx)
    rw [nearest_neg] at hnegx
    rcases le_total 0 y with hy | hy
    · have hposy := nearest_nonneg hy
      linarith
    · have hneg := nearest_mono_of_nonneg (neg_nonneg.mpr hy) (neg_le_neg h)
      rw [nearest_neg, nearest_neg] at hneg
      linarith

theorem roundTo_mono (digits : ℕ) {x y : ℚ} (h : x ≤ y) : roundTo digits x ≤ roundTo digits y := by
  have hpos : (0 : ℚ) < 10 ^ digits := by positivity
  refine nearest_mono (div_le_div_of_nonneg_right ?_ hpos.le)
  exact_mod_cast roundHalfEven_mono (mul_le_mul_of_nonneg_right h hpos.le)

/-! ### Interpolation -/

/-- The numbers that are integers of less than 53 bits. -/
def IsSmallInt (x : ℚ) : Prop := ∃ n : ℤ, x = n ∧ |n| < 2 ^ 52

theorem IsSmallInt.nearest_eq {x : ℚ} (h : IsSmallInt x) : nearest x = x := by
  obtain ⟨n, rfl, hn⟩ := h
  exact nearest_intCast (by omega)

/-- The difference of small integers is exact. -/
theorem IsSmallInt.nearest_sub {x y : ℚ} (hx : IsSmallInt x) (hy : IsSmallInt y) :
    nearest (y - x) = y - x := by
  obtain ⟨n, rfl, hn⟩ := hx
  obtain ⟨m, rfl, hm⟩ := hy
  have hsmall : |m - n| < 2 ^ 53 := (abs_sub m n).trans_lt (by omega)
  exact_mod_cast nearest_intCast hsmall

/-- The value at a place between two others, in floats. -/
def lerp (x y frac : ℚ) : ℚ := nearest (x + nearest (nearest (y - x) * frac))

/-- Between small integers it lies between them. -/
theorem lerp_mem {x y frac : ℚ} (hx : IsSmallInt x) (hy : IsSmallInt y) (h : x ≤ y) (h0 : 0 ≤ frac)
    (h1 : frac ≤ 1) : x ≤ lerp x y frac ∧ lerp x y frac ≤ y := by
  have hstep : 0 ≤ nearest ((y - x) * frac) ∧ nearest ((y - x) * frac) ≤ y - x := by
    refine ⟨nearest_nonneg (mul_nonneg (sub_nonneg.mpr h) h0), ?_⟩
    rw [← hx.nearest_sub hy]
    refine nearest_mono ?_
    rw [hx.nearest_sub hy]
    exact mul_le_of_le_one_right (sub_nonneg.mpr h) h1
  rw [lerp, hx.nearest_sub hy]
  constructor
  · rw [← hx.nearest_eq]
    exact nearest_mono (by rw [hx.nearest_eq]; linarith)
  · rw [← hy.nearest_eq]
    exact nearest_mono (by rw [hy.nearest_eq]; linarith)

/-- It grows with the place. -/
theorem lerp_mono {x y frac frac' : ℚ} (hx : IsSmallInt x) (hy : IsSmallInt y) (h : x ≤ y)
    (hfrac : frac ≤ frac') : lerp x y frac ≤ lerp x y frac' := by
  rw [lerp, lerp, hx.nearest_sub hy]
  exact nearest_mono (add_le_add_right
    (nearest_mono (mul_le_mul_of_nonneg_left hfrac (sub_nonneg.mpr h))) x)

end Binary64
