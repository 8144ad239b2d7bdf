import Mathlib.Algebra.Order.Floor.Semifield
import VoiceAgentPlatform.Lib.Rounding

/-!
# Resampling

Linear interpolation of PCM16 audio, once in `bot.py` and once in `audio-utils.ts` of the voice server.
Positions and interpolated values are exact rationals.

* `upsamplePcm16Linear`, `resample`, `downsample24to8`: as the sources have them; none if an index lies
  outside the buffer.
* `samples`, `valueAt`: the samples of a buffer, and the interpolated value of an output sample.
* `upsamplePcm16Linear_eq`, `resample_eq`: both round these values, in their two ways.
* `resamplersAgree_iff`: when they return the same.
-/

namespace VoiceServer

open Binary64 (roundHalfEven)
open Rounding

/-! ### The code -/

/-- A signed sample of two bytes, the low one first. -/
def int16 (low high : UInt8) : ℤ :=
  let unsigned := low.toNat + 256 * high.toNat
  if unsigned < 32768 then unsigned else unsigned - 65536

/-- The bytes of a sample. -/
def int16Bytes (val : ℤ) : List UInt8 := [.ofNat (val % 256).toNat, .ofNat (val / 256 % 256).toNat]

/-- `array.array("h")` from the even part of the bytes. -/
def samples : List UInt8 → List ℤ
  | low :: high :: pcm => int16 low high :: samples pcm
  | _ => []

/-- `max(-32768, min(32767, val))`. -/
def clamp (val : ℤ) : ℤ := max (-32768) (min 32767 val)

/-- `_upsample_pcm16_linear`. -/
def upsamplePcm16Linear (pcm : List UInt8) (srcRate dstRate : ℕ) : Option (List UInt8) :=
  if srcRate = dstRate ∨ pcm = [] then some pcm
  else do
    let src := samples pcm
    let nSrc := src.length
    if nSrc = 0 then return []
    let nDst := nSrc * dstRate / srcRate
    let out ← (List.range nDst).mapM fun i => do
      let pos : ℚ := ((i * srcRate : ℕ) : ℚ) / dstRate
      let idx := ⌊pos⌋₊
      let frac := pos - idx
      -- Positions behind the last sample read the last one.
      let s0 ← src[min idx (nSrc - 1)]?
      let s1 ← src[min (idx + 1) (nSrc - 1)]?
      let val := roundHalfEven (s0 + frac * (s1 - s0))
      return clamp val
    return out.flatMap int16Bytes

/-- `buf.readInt16LE(offset)`. -/
def readInt16LE (pcmBuf : List UInt8) (offset : ℕ) : Option ℤ := do
  let low ← pcmBuf[offset]?
  let high ← pcmBuf[offset + 1]?
  return int16 low high

/-- `resample`, of a buffer of even length. -/
def resample (pcmBuf : List UInt8) (srcRate dstRate : ℕ) : Option (List UInt8) :=
  if srcRate = dstRate then some pcmBuf
  else do
    let srcSamples := pcmBuf.length / 2
    let dstSamples := srcSamples * dstRate / srcRate
    let out ← (List.range dstSamples).mapM fun i => do
      let srcPos : ℚ := ((i * srcRate : ℕ) : ℚ) / dstRate
      let idx := ⌊srcPos⌋₊
      let frac := srcPos - idx
      -- Positions behind the last sample read the last one.
      let s0 ← readInt16LE pcmBuf (min idx (srcSamples - 1) * 2)
      let s1 ← readInt16LE pcmBuf (min (idx + 1) (srcSamples - 1) * 2)
      let val := roundHalfUp (s0 + frac * (s1 - s0))
      return clamp val
    return out.flatMap int16Bytes

/-- `downsample24to8`. -/
def downsample24to8 (pcm24k : List UInt8) : Option (List UInt8) := resample pcm24k 24000 8000

/-! ### Samples and bytes -/

/-- The values of a sample. -/
def IsInt16 (x : ℤ) : Prop := -32768 ≤ x ∧ x ≤ 32767

theorem isInt16_int16 (low high : UInt8) : IsInt16 (int16 low high) := by
  have hlow := low.toNat_lt
  have hhigh := high.toNat_lt
  simp only [IsInt16, int16]
  split_ifs <;> omega

theorem isInt16_of_mem_samples {pcm : List UInt8} {x : ℤ} (h : x ∈ samples pcm) : IsInt16 x := by
  induction pcm using samples.induct with
  | case1 low high pcm ih =>
    rcases List.mem_cons.mp h with rfl | h
    · exact isInt16_int16 low high
    · exact ih h
  | case2 pcm hpcm =>
    rw [samples.eq_2 pcm hpcm] at h
    exact absurd h List.not_mem_nil

/-- What `samples` does not take two bytes from. -/
theorem eq_nil_or_singleton {pcm : List UInt8}
    (h : ∀ low high pcm', pcm = low :: high :: pcm' → False) : pcm = [] ∨ ∃ low, pcm = [low] := by
  cases pcm with
  | nil => exact Or.inl rfl
  | cons low pcm =>
    cases pcm with
    | nil => exact Or.inr ⟨low, rfl⟩
    | cons high pcm => exact absurd rfl (h low high pcm)

theorem length_samples (pcm : List UInt8) : (samples pcm).length = pcm.length / 2 := by
  induction pcm using samples.induct with
  | case1 low high pcm ih =>
    rw [samples, List.length_cons, ih, List.length_cons, List.length_cons]
    omega
  | case2 pcm hpcm =>
    rw [samples.eq_2 pcm hpcm]
    rcases eq_nil_or_singleton hpcm with rfl | ⟨low, rfl⟩
    · rfl
    · exact (Nat.div_eq_of_lt Nat.one_lt_two).symm

/-- Reading at an even offset. -/
theorem readInt16LE_mul_two (pcm : List UInt8) (k : ℕ) :
    readInt16LE pcm (k * 2) = (samples pcm)[k]? := by
  induction pcm using samples.induct generalizing k with
  | case1 low high pcm ih =>
    cases k with
    | zero => rfl
    | succ k =>
      have hshift : readInt16LE (low :: high :: pcm) ((k + 1) * 2) = readInt16LE pcm (k * 2) := by
        rw [readInt16LE, readInt16LE, show (k + 1) * 2 = k * 2 + 1 + 1 by ring]
        rfl
      rw [hshift, ih, samples, List.getElem?_cons_succ]
  | case2 pcm hpcm =>
    rw [samples.eq_2 pcm hpcm, List.getElem?_nil]
    rcases eq_nil_or_singleton hpcm with rfl | ⟨low, rfl⟩
    · rfl
    · cases k <;> rfl

theorem int16_int16Bytes {x : ℤ} (h : IsInt16 x) :
    int16 (.ofNat (x % 256).toNat) (.ofNat (x / 256 % 256).toNat) = x := by
  obtain ⟨hmin, hmax⟩ := h
  have hlow : (UInt8.ofNat (x % 256).toNat).toNat = (x % 256).toNat := by
    rw [UInt8.toNat_ofNat']
    omega
  have hhigh : (UInt8.ofNat (x / 256 % 256).toNat).toNat = (x / 256 % 256).toNat := by
    rw [UInt8.toNat_ofNat']
    omega
  rw [int16, hlow, hhigh]
  split_ifs <;> omega

theorem samples_flatMap {xs : List ℤ} (h : ∀ x ∈ xs, IsInt16 x) :
    samples (xs.flatMap int16Bytes) = xs := by
  induction xs with
  | nil => rfl
  | cons x xs ih =>
    obtain ⟨hx, hxs⟩ := List.forall_mem_cons.mp h
    have hcons : (x :: xs).flatMap int16Bytes =
        .ofNat (x % 256).toNat :: .ofNat (x / 256 % 256).toNat :: xs.flatMap int16Bytes := rfl
    rw [hcons, samples, int16_int16Bytes hx, ih hxs]

/-- Appending to a buffer of even length appends the samples. -/
theorem samples_append {pcm : List UInt8} (h : Even pcm.length) (pcm' : List UInt8) :
    samples (pcm ++ pcm') = samples pcm ++ samples pcm' := by
  induction pcm using samples.induct with
  | case1 low high pcm ih =>
    rw [List.length_cons, List.length_cons, Nat.even_add_one, Nat.even_add_one, not_not] at h
    rw [List.cons_append, List.cons_append, samples, samples, ih h, List.cons_append]
  | case2 pcm hpcm =>
    rcases eq_nil_or_singleton hpcm with rfl | ⟨low, rfl⟩
    · rfl
    · exact absurd h Nat.not_even_one

theorem flatMap_samples {pcm : List UInt8} (h : Even pcm.length) :
    (samples pcm).flatMap int16Bytes = pcm := by
  induction pcm using samples.induct with
  | case1 low high pcm ih =>
    rw [List.length_cons, List.length_cons, Nat.even_add_one, Nat.even_add_one, not_not] at h
    have hlow := low.toNat_lt
    have hhigh := high.toNat_lt
    have hmod : int16 low high % 256 = low.toNat := by
      simp only [int16]
      split_ifs <;> omega
    have hdiv : int16 low high / 256 % 256 = high.toNat := by
      simp only [int16]
      split_ifs <;> omega
    have hbytes : int16Bytes (int16 low high) = [low, high] := by
      rw [int16Bytes, hmod, hdiv, Int.toNat_natCast, Int.toNat_natCast, UInt8.ofNat_toNat,
        UInt8.ofNat_toNat]
    rw [samples, List.flatMap_cons, hbytes, ih h]
    rfl
  | case2 pcm hpcm =>
    rcases eq_nil_or_singleton hpcm with rfl | ⟨low, rfl⟩
    · rfl
    · exact absurd h Nat.not_even_one

/-! ### The interpolated values -/

/-- How many samples the output has. -/
def outLength (src : List ℤ) (srcRate dstRate : ℕ) : ℕ := src.length * dstRate / srcRate

/-- The sample at or before the position of output sample `i`. -/
def before (src : List ℤ) (srcRate dstRate i : ℕ) : ℤ := src.getD (i * srcRate / dstRate) 0

/-- The sample after it; at the end the last one. -/
def after (src : List ℤ) (srcRate dstRate i : ℕ) : ℤ :=
  src.getD (min (i * srcRate / dstRate + 1) (src.length - 1)) 0

/-- The interpolated value of output sample `i`. -/
def valueAt (src : List ℤ) (srcRate dstRate i : ℕ) : ℚ :=
  before src srcRate dstRate i + ((i * srcRate % dstRate : ℕ) : ℚ) / dstRate *
    (after src srcRate dstRate i - before src srcRate dstRate i)

variable {src : List ℤ} {srcRate dstRate i : ℕ}

/-- The position of an output sample lies inside the source. -/
theorem index_lt (hdst : 0 < dstRate) (hi : i < outLength src srcRate dstRate) :
    i * srcRate / dstRate < src.length := by
  rw [Nat.div_lt_iff_lt_mul hdst]
  have hsrc : 0 < srcRate := by
    rcases Nat.eq_zero_or_pos srcRate with rfl | hpos
    · rw [outLength, Nat.div_zero] at hi
      exact absurd hi (Nat.not_lt_zero i)
    · exact hpos
  exact (Nat.mul_le_mul_right srcRate (Nat.succ_le_of_lt hi)).trans (Nat.div_mul_le_self _ _) |>.trans_lt'
    (Nat.mul_lt_mul_of_pos_right (Nat.lt_succ_self i) hsrc)

/-- The fraction of a position. -/
theorem position_sub_floor (hdst : 0 < dstRate) :
    ((i * srcRate : ℕ) : ℚ) / dstRate - ((i * srcRate / dstRate : ℕ) : ℚ) =
      ((i * srcRate % dstRate : ℕ) : ℚ) / dstRate := by
  have hne : (dstRate : ℚ) ≠ 0 := Nat.cast_ne_zero.mpr hdst.ne'
  have hdivmod : ((dstRate * (i * srcRate / dstRate) + i * srcRate % dstRate : ℕ) : ℚ) =
      ((i * srcRate : ℕ) : ℚ) := congrArg Nat.cast (Nat.div_add_mod _ _)
  rw [Nat.cast_add, Nat.cast_mul] at hdivmod
  rw [← hdivmod]
  field_simp
  ring

/-- The interpolated value lies between its two neighbours. -/
theorem valueAt_mem (hdst : 0 < dstRate) :
    ((min (before src srcRate dstRate i) (after src srcRate dstRate i) : ℤ) : ℚ) ≤
        valueAt src srcRate dstRate i ∧
      valueAt src srcRate dstRate i ≤
        (max (before src srcRate dstRate i) (after src srcRate dstRate i) : ℤ) := by
  have hpos : (0 : ℚ) < dstRate := Nat.cast_pos.mpr hdst
  have hnonneg : (0 : ℚ) ≤ ((i * srcRate % dstRate : ℕ) : ℚ) / dstRate := by positivity
  have hle : ((i * srcRate % dstRate : ℕ) : ℚ) / dstRate ≤ 1 := by
    rw [div_le_one hpos]
    exact Nat.cast_le.mpr (Nat.mod_lt _ hdst).le
  rw [valueAt, Int.cast_min, Int.cast_max]
  rcases le_total (before src srcRate dstRate i) (after src srcRate dstRate i) with hab | hab
  · have hab' : (before src srcRate dstRate i : ℚ) ≤ after src srcRate dstRate i := Int.cast_le.mpr hab
    rw [min_eq_left hab', max_eq_right hab']
    constructor <;> nlinarith
  · have hab' : (after src srcRate dstRate i : ℚ) ≤ before src srcRate dstRate i := Int.cast_le.mpr hab
    rw [min_eq_right hab', max_eq_left hab']
    constructor <;> nlinarith

/-- The value of output sample `i`, as the code computes it. -/
theorem valueAt_eq (hdst : 0 < dstRate) :
    (before src srcRate dstRate i : ℚ) +
        (((i * srcRate : ℕ) : ℚ) / dstRate - ((i * srcRate / dstRate : ℕ) : ℚ)) *
          (after src srcRate dstRate i - before src srcRate dstRate i) = valueAt src srcRate dstRate i := by
  rw [position_sub_floor hdst, valueAt]

/-- The samples that are read are there. -/
theorem getElem?_before (hdst : 0 < dstRate) (hi : i < outLength src srcRate dstRate) :
    src[min (i * srcRate / dstRate) (src.length - 1)]? = some (before src srcRate dstRate i) := by
  have hlt := index_lt hdst hi
  rw [min_eq_left (Nat.le_sub_one_of_lt hlt), before, List.getD_eq_getElem?_getD,
    List.getElem?_eq_getElem hlt, Option.getD_some]

theorem getElem?_after (hdst : 0 < dstRate) (hi : i < outLength src srcRate dstRate) :
    src[min (i * srcRate / dstRate + 1) (src.length - 1)]? = some (after src srcRate dstRate i) := by
  have hlt : min (i * srcRate / dstRate + 1) (src.length - 1) < src.length :=
    (min_le_right _ _).trans_lt (Nat.sub_one_lt (Nat.ne_zero_of_lt (index_lt hdst hi)))
  rw [after, List.getD_eq_getElem?_getD, List.getElem?_eq_getElem hlt, Option.getD_some]

/-- Interpolated samples, rounded in some way. -/
def interpolated (round : ℚ → ℤ) (src : List ℤ) (srcRate dstRate : ℕ) : List ℤ :=
  (List.range (outLength src srcRate dstRate)).map fun i => round (valueAt src srcRate dstRate i)

theorem mapM_eq_some {ι β : Type} {f : ι → Option β} {g : ι → β} {xs : List ι}
    (h : ∀ x ∈ xs, f x = some (g x)) : xs.mapM f = some (xs.map g) := by
  induction xs with
  | nil => rfl
  | cons x xs ih =>
    obtain ⟨hx, hxs⟩ := List.forall_mem_cons.mp h
    rw [List.mapM_cons, hx, ih hxs]
    rfl

theorem isInt16_getD {src : List ℤ} (h : ∀ x ∈ src, IsInt16 x) (k : ℕ) : IsInt16 (src.getD k 0) := by
  rw [List.getD_eq_getElem?_getD]
  cases hk : src[k]? with
  | none => exact ⟨by decide, by decide⟩
  | some x => exact h x (List.mem_of_getElem? hk)

theorem clamp_eq_self {x : ℤ} (h : IsInt16 x) : clamp x = x := by
  rw [clamp, min_eq_right h.2, max_eq_right h.1]

/-- A rounding that does not leave a range of integers. -/
def KeepsRange (round : ℚ → ℤ) : Prop :=
  ∀ (a b : ℤ) (x : ℚ), a ≤ x → x ≤ b → a ≤ round x ∧ round x ≤ b

/-- A rounded value lies between its neighbours. -/
theorem round_valueAt_mem {round : ℚ → ℤ} (hround : KeepsRange round) (src : List ℤ) (srcRate : ℕ)
    (hdst : 0 < dstRate) (i : ℕ) :
    min (before src srcRate dstRate i) (after src srcRate dstRate i) ≤
        round (valueAt src srcRate dstRate i) ∧
      round (valueAt src srcRate dstRate i) ≤
        max (before src srcRate dstRate i) (after src srcRate dstRate i) :=
  hround _ _ _ (valueAt_mem hdst).1 (valueAt_mem hdst).2

theorem isInt16_round_valueAt {round : ℚ → ℤ} (hround : KeepsRange round) (hdst : 0 < dstRate)
    (h : ∀ x ∈ src, IsInt16 x) : IsInt16 (round (valueAt src srcRate dstRate i)) := by
  obtain ⟨hmin, hmax⟩ := round_valueAt_mem hround src srcRate hdst i
  have hbefore : IsInt16 (before src srcRate dstRate i) := isInt16_getD h _
  have hafter : IsInt16 (after src srcRate dstRate i) := isInt16_getD h _
  exact ⟨(le_min hbefore.1 hafter.1).trans hmin, hmax.trans (max_le hbefore.2 hafter.2)⟩

theorem keepsRange_roundHalfUp : KeepsRange roundHalfUp := fun _ _ _ => roundHalfUp_mem

theorem keepsRange_roundHalfEven : KeepsRange roundHalfEven := fun _ _ _ => roundHalfEven_mem

theorem round_intCast {round : ℚ → ℤ} (hround : KeepsRange round) (n : ℤ) : round n = n :=
  le_antisymm (hround n n n le_rfl le_rfl).2 (hround n n n le_rfl le_rfl).1

/-! ### What the two functions return -/

/-- At the same rate nothing is interpolated. -/
theorem interpolated_self {round : ℚ → ℤ} (hround : KeepsRange round) {rate : ℕ} (hrate : 0 < rate)
    (src : List ℤ) : interpolated round src rate rate = src := by
  have hlength : outLength src rate rate = src.length := Nat.mul_div_left _ hrate
  refine List.ext_getElem (by rw [interpolated, List.length_map, List.length_range, hlength]) ?_
  intro i hi hi'
  simp only [interpolated, List.getElem_map, List.getElem_range]
  rw [valueAt, before, Nat.mul_mod_left,
    Nat.mul_div_left _ hrate, Nat.cast_zero, zero_div, zero_mul, add_zero, round_intCast hround,
    List.getD_eq_getElem?_getD, List.getElem?_eq_getElem hi', Option.getD_some]

theorem upsamplePcm16Linear_eq {pcm : List UInt8} (heven : Even pcm.length) (hdst : 0 < dstRate) :
    upsamplePcm16Linear pcm srcRate dstRate =
      some ((interpolated roundHalfEven (samples pcm) srcRate dstRate).flatMap int16Bytes) := by
  rw [upsamplePcm16Linear]
  split_ifs with hsame
  · rcases hsame with rfl | rfl
    · rw [interpolated_self keepsRange_roundHalfEven hdst, flatMap_samples heven]
    · have hnil : interpolated roundHalfEven (samples []) srcRate dstRate = [] := by
        simp [interpolated, outLength, samples]
      rw [hnil]
      rfl
  · rcases Nat.eq_zero_or_pos (samples pcm).length with hzero | hpos
    · simp only [hzero, ↓reduceIte, interpolated, outLength, Nat.zero_mul, Nat.zero_div]
      rfl
    · -- Every position has a sample before and after it, so the loop does not fail.
      have hout : ((List.range (outLength (samples pcm) srcRate dstRate)).mapM fun i => do
          let s0 ← (samples pcm)[min ⌊((i * srcRate : ℕ) : ℚ) / dstRate⌋₊ ((samples pcm).length - 1)]?
          let s1 ← (samples pcm)[min (⌊((i * srcRate : ℕ) : ℚ) / dstRate⌋₊ + 1)
            ((samples pcm).length - 1)]?
          return clamp (roundHalfEven (s0 + (((i * srcRate : ℕ) : ℚ) / dstRate -
            ⌊((i * srcRate : ℕ) : ℚ) / dstRate⌋₊) * (s1 - s0)))) =
          some (interpolated roundHalfEven (samples pcm) srcRate dstRate) := by
        refine mapM_eq_some fun i hi => ?_
        have hi := List.mem_range.mp hi
        simp only [Nat.floor_div_eq_div, getElem?_before hdst hi, getElem?_after hdst hi, bind,
          Option.bind, pure, valueAt_eq hdst]
        rw [clamp_eq_self (isInt16_round_valueAt keepsRange_roundHalfEven hdst
          fun x hx => isInt16_of_mem_samples hx)]
      simp only [if_neg hpos.ne', outLength] at hout ⊢
      rw [hout]
      rfl

theorem resample_eq {pcm : List UInt8} (heven : Even pcm.length) (hdst : 0 < dstRate) :
    resample pcm srcRate dstRate =
      some ((interpolated roundHalfUp (samples pcm) srcRate dstRate).flatMap int16Bytes) := by
  rw [resample]
  split_ifs with hsame
  · rw [hsame, interpolated_self keepsRange_roundHalfUp hdst, flatMap_samples heven]
  · have hout : ((List.range (outLength (samples pcm) srcRate dstRate)).mapM fun i => do
        let s0 ← readInt16LE pcm (min ⌊((i * srcRate : ℕ) : ℚ) / dstRate⌋₊ (pcm.length / 2 - 1) * 2)
        let s1 ← readInt16LE pcm
          (min (⌊((i * srcRate : ℕ) : ℚ) / dstRate⌋₊ + 1) (pcm.length / 2 - 1) * 2)
        return clamp (roundHalfUp (s0 + (((i * srcRate : ℕ) : ℚ) / dstRate -
          ⌊((i * srcRate : ℕ) : ℚ) / dstRate⌋₊) * (s1 - s0)))) =
        some (interpolated roundHalfUp (samples pcm) srcRate dstRate) := by
      refine mapM_eq_some fun i hi => ?_
      have hi := List.mem_range.mp hi
      simp only [Nat.floor_div_eq_div, readInt16LE_mul_two, ← length_samples, getElem?_before hdst hi,
        getElem?_after hdst hi, bind, Option.bind, pure, valueAt_eq hdst]
      rw [clamp_eq_self (isInt16_round_valueAt keepsRange_roundHalfUp hdst
        fun x hx => isInt16_of_mem_samples hx)]
    simp only [outLength, length_samples] at hout
    simp only [hout]
    rfl

/-! ### When they are the same -/

/-- The interpolated value of output sample `i` lies half way between an even integer and the next. -/
def TiesUp (src : List ℤ) (srcRate dstRate i : ℕ) : Prop :=
  2 * ((dstRate - (i * srcRate % dstRate : ℕ)) * before src srcRate dstRate i +
    (i * srcRate % dstRate : ℕ) * after src srcRate dstRate i) % (4 * dstRate) = dstRate

instance (src : List ℤ) (srcRate dstRate i : ℕ) : Decidable (TiesUp src srcRate dstRate i) :=
  inferInstanceAs (Decidable (_ = _))

theorem tiesUp_iff (hdst : 0 < dstRate) :
    TiesUp src srcRate dstRate i ↔ ∃ m : ℤ, valueAt src srcRate dstRate i = 2 * m + 1 / 2 := by
  have hne : (dstRate : ℚ) ≠ 0 := Nat.cast_ne_zero.mpr hdst.ne'
  -- A tie, without the denominator.
  have hvalue (m : ℤ) : valueAt src srcRate dstRate i = 2 * m + 1 / 2 ↔
      2 * (((dstRate : ℤ) - (i * srcRate % dstRate : ℕ)) * before src srcRate dstRate i +
        (i * srcRate % dstRate : ℕ) * after src srcRate dstRate i) = 4 * dstRate * m + dstRate := by
    rw [valueAt, ← Int.cast_inj (α := ℚ)]
    generalize i * srcRate % dstRate = r
    push_cast
    constructor
    · intro h
      field_simp at h
      linarith
    · intro h
      field_simp
      linarith
  simp only [hvalue, TiesUp]
  constructor
  · intro h
    have hdivmod := Int.mul_ediv_add_emod
      (2 * (((dstRate : ℤ) - (i * srcRate % dstRate : ℕ)) * before src srcRate dstRate i +
        (i * srcRate % dstRate : ℕ) * after src srcRate dstRate i)) (4 * dstRate)
    rw [h] at hdivmod
    exact ⟨_, hdivmod.symm⟩
  · rintro ⟨m, hm⟩
    rw [hm, Int.mul_add_emod_self_left]
    exact Int.emod_eq_of_lt (by omega) (by omega)

/-- The two ways of rounding give the same samples unless a value ties behind an even integer. -/
theorem interpolated_eq_iff (hdst : 0 < dstRate) :
    interpolated roundHalfEven src srcRate dstRate = interpolated roundHalfUp src srcRate dstRate ↔
      ∀ i < outLength src srcRate dstRate, ¬ TiesUp src srcRate dstRate i := by
  rw [interpolated, interpolated, List.map_inj_left]
  refine forall_congr' fun i => ?_
  rw [List.mem_range, roundHalfEven_eq_roundHalfUp_iff, tiesUp_iff hdst, not_exists]

theorem isInt16_interpolated {round : ℚ → ℤ} (hround : KeepsRange round) (hdst : 0 < dstRate)
    (h : ∀ x ∈ src, IsInt16 x) : ∀ x ∈ interpolated round src srcRate dstRate, IsInt16 x := by
  intro x hx
  obtain ⟨i, -, rfl⟩ := List.mem_map.mp hx
  exact isInt16_round_valueAt hround hdst h

theorem upsamplePcm16Linear_eq_resample_iff {pcm : List UInt8} (heven : Even pcm.length)
    (hdst : 0 < dstRate) :
    upsamplePcm16Linear pcm srcRate dstRate = resample pcm srcRate dstRate ↔
      ∀ i < outLength (samples pcm) srcRate dstRate, ¬ TiesUp (samples pcm) srcRate dstRate i := by
  have hsamples : ∀ x ∈ samples pcm, IsInt16 x := fun x hx => isInt16_of_mem_samples hx
  rw [upsamplePcm16Linear_eq heven hdst, resample_eq heven hdst, ← interpolated_eq_iff hdst,
    Option.some.injEq]
  refine ⟨fun h => ?_, fun h => h ▸ rfl⟩
  -- The samples can be read back.
  have hread := congrArg samples h
  rwa [samples_flatMap (isInt16_interpolated keepsRange_roundHalfEven hdst hsamples),
    samples_flatMap (isInt16_interpolated keepsRange_roundHalfUp hdst hsamples)] at hread

/-! ### From 24 kHz to 8 kHz -/

/-- Every third sample. -/
def everyThird (src : List ℤ) : List ℤ := (List.range (src.length / 3)).map fun i => src.getD (3 * i) 0

theorem interpolated_24to8 {round : ℚ → ℤ} (hround : KeepsRange round) (src : List ℤ) :
    interpolated round src 24000 8000 = everyThird src := by
  have hlength : outLength src 24000 8000 = src.length / 3 := by
    rw [outLength]
    omega
  rw [interpolated, everyThird, hlength]
  refine List.map_congr_left fun i _ => ?_
  have hindex : i * 24000 / 8000 = 3 * i := by omega
  have hfraction : i * 24000 % 8000 = 0 := by omega
  rw [valueAt, hfraction, Nat.cast_zero, zero_div, zero_mul, add_zero, round_intCast hround, before,
    hindex]

theorem everyThird_append {src : List ℤ} (h : 3 ∣ src.length) (src' : List ℤ) :
    everyThird (src ++ src') = everyThird src ++ everyThird src' := by
  obtain ⟨k, hk⟩ := h
  have hlength : (src ++ src').length / 3 = k + src'.length / 3 := by
    rw [List.length_append, hk]
    omega
  have hlength' : src.length / 3 = k := by omega
  rw [everyThird, everyThird, everyThird, hlength, hlength', List.range_add, List.map_append,
    List.map_map]
  congr 1
  · refine List.map_congr_left fun i hi => ?_
    -- The samples of the first buffer are found there.
    have hlt : 3 * i < src.length := by
      have hi := List.mem_range.mp hi
      omega
    rw [List.getD_eq_getElem?_getD, List.getD_eq_getElem?_getD, List.getElem?_append_left hlt]
  · refine List.map_congr_left fun i _ => ?_
    -- The others are behind whole triples.
    have hge : src.length ≤ 3 * (k + i) := by omega
    have hsub : 3 * (k + i) - src.length = 3 * i := by omega
    rw [Function.comp_apply, List.getD_eq_getElem?_getD, List.getD_eq_getElem?_getD,
      List.getElem?_append_right hge, hsub]

theorem downsample24to8_eq {pcm : List UInt8} (heven : Even pcm.length) :
    downsample24to8 pcm = some ((everyThird (samples pcm)).flatMap int16Bytes) := by
  rw [downsample24to8, resample_eq heven (by norm_num), interpolated_24to8 keepsRange_roundHalfUp]

/-- The conversion of two buffers, of which the first has a whole number of triples. -/
theorem downsample24to8_append {pcm pcm' : List UInt8} (heven : Even pcm.length)
    (heven' : Even pcm'.length) (htriples : 3 ∣ (samples pcm).length) :
    downsample24to8 (pcm ++ pcm') =
      (downsample24to8 pcm).bind fun out => (downsample24to8 pcm').map (out ++ ·) := by
  have hboth : Even (pcm ++ pcm').length := by
    rw [List.length_append]
    exact heven.add heven'
  rw [downsample24to8_eq hboth, downsample24to8_eq heven, downsample24to8_eq heven',
    samples_append heven, everyThird_append htriples, List.flatMap_append]
  rfl

/-! ### The agreement -/

/-- The two resamplers return the same. What one of them returns are samples, as many as the rates say,
each of which lies between its two neighbours in the source, also before it is clamped; at 24 kHz to 8 kHz
they are every third sample, and buffers of whole triples can be converted one after the other. -/
structure ResamplersAgree (pcm : List UInt8) (srcRate dstRate : ℕ) : Prop where
  same : upsamplePcm16Linear pcm srcRate dstRate = resample pcm srcRate dstRate
  inside : ∀ i < outLength (samples pcm) srcRate dstRate,
    i * srcRate / dstRate < (samples pcm).length ∧
      min (i * srcRate / dstRate + 1) ((samples pcm).length - 1) < (samples pcm).length
  output : ∀ out, (upsamplePcm16Linear pcm srcRate dstRate = some out ∨
      resample pcm srcRate dstRate = some out) →
    (samples out).length = outLength (samples pcm) srcRate dstRate ∧
      ∀ i x, (samples out)[i]? = some x →
        min (before (samples pcm) srcRate dstRate i) (after (samples pcm) srcRate dstRate i) ≤ x ∧
          x ≤ max (before (samples pcm) srcRate dstRate i) (after (samples pcm) srcRate dstRate i)
  returns : (upsamplePcm16Linear pcm srcRate dstRate).isSome ∧ (resample pcm srcRate dstRate).isSome
  unclamped : ∀ i < outLength (samples pcm) srcRate dstRate,
    clamp (roundHalfEven (valueAt (samples pcm) srcRate dstRate i)) =
        roundHalfEven (valueAt (samples pcm) srcRate dstRate i) ∧
      clamp (roundHalfUp (valueAt (samples pcm) srcRate dstRate i)) =
        roundHalfUp (valueAt (samples pcm) srcRate dstRate i)
  third : downsample24to8 pcm = some ((everyThird (samples pcm)).flatMap int16Bytes) ∧
    upsamplePcm16Linear pcm 24000 8000 = downsample24to8 pcm
  triples : ∀ pcm', Even pcm'.length → 3 ∣ (samples pcm).length → 3 ∣ (samples pcm').length →
    downsample24to8 (pcm ++ pcm') =
      (downsample24to8 pcm).bind fun out => (downsample24to8 pcm').map (out ++ ·)

/-- What is returned are rounded samples. -/
theorem rounded_of_returned {pcm : List UInt8} (heven : Even pcm.length) (hdst : 0 < dstRate)
    {out : List UInt8} (h : upsamplePcm16Linear pcm srcRate dstRate = some out ∨
      resample pcm srcRate dstRate = some out) :
    ∃ round, KeepsRange round ∧ samples out = interpolated round (samples pcm) srcRate dstRate := by
  have hsamples : ∀ x ∈ samples pcm, IsInt16 x := fun x hx => isInt16_of_mem_samples hx
  rcases h with h | h
  · rw [upsamplePcm16Linear_eq heven hdst] at h
    obtain rfl := Option.some.inj h
    exact ⟨roundHalfEven, keepsRange_roundHalfEven,
      samples_flatMap (isInt16_interpolated keepsRange_roundHalfEven hdst hsamples)⟩
  · rw [resample_eq heven hdst] at h
    obtain rfl := Option.some.inj h
    exact ⟨roundHalfUp, keepsRange_roundHalfUp,
      samples_flatMap (isInt16_interpolated keepsRange_roundHalfUp hdst hsamples)⟩

/-- The two resamplers agree on a buffer and two rates exactly if no interpolated value lies half way
between an even integer and the next. -/
theorem resamplersAgree_iff (pcm : List UInt8) (srcRate dstRate : ℕ) (heven : Even pcm.length)
    (_hsrc : 0 < srcRate) (hdst : 0 < dstRate) :
    ResamplersAgree pcm srcRate dstRate ↔
      ∀ i < outLength (samples pcm) srcRate dstRate, ¬ TiesUp (samples pcm) srcRate dstRate i := by
  have hsamples : ∀ x ∈ samples pcm, IsInt16 x := fun x hx => isInt16_of_mem_samples hx
  refine ⟨fun h => (upsamplePcm16Linear_eq_resample_iff heven hdst).mp h.same, fun h => ?_⟩
  refine
    { same := (upsamplePcm16Linear_eq_resample_iff heven hdst).mpr h
      inside := fun i hi => ?_
      output := fun out hout => ?_
      returns := by rw [upsamplePcm16Linear_eq heven hdst, resample_eq heven hdst]; exact ⟨rfl, rfl⟩
      unclamped := fun i _ =>
        ⟨clamp_eq_self (isInt16_round_valueAt keepsRange_roundHalfEven hdst hsamples),
          clamp_eq_self (isInt16_round_valueAt keepsRange_roundHalfUp hdst hsamples)⟩
      third := ⟨downsample24to8_eq heven, ?_⟩
      triples := fun pcm' heven' htriples _ => downsample24to8_append heven heven' htriples }
  · have hlt := index_lt hdst hi
    exact ⟨hlt, (min_le_right _ _).trans_lt (Nat.sub_one_lt (Nat.ne_zero_of_lt hlt))⟩
  · -- What holds of the output holds for any rounding that keeps the range.
    obtain ⟨round, hround, heq⟩ := rounded_of_returned heven hdst hout
    rw [heq]
    refine ⟨by rw [interpolated, List.length_map, List.length_range], fun i x hx => ?_⟩
    rw [interpolated, List.getElem?_map, Option.map_eq_some_iff] at hx
    obtain ⟨j, hj, rfl⟩ := hx
    obtain ⟨hlt, rfl⟩ := List.getElem?_eq_some_iff.mp hj
    rw [List.getElem_range]
    exact round_valueAt_mem hround _ _ hdst _
  · rw [upsamplePcm16Linear_eq heven (by norm_num), downsample24to8_eq heven,
      interpolated_24to8 keepsRange_roundHalfEven]

/-- Two samples at 8 kHz whose mean is half of one. -/
def tiedSamples : List UInt8 := [0, 0, 1, 0]

/-- From 8 kHz to 16 kHz the one rounds it to zero and the other to one. -/
theorem tiedSamples_differ : ¬ ResamplersAgree tiedSamples 8000 16000 :=
  fun h => absurd h.same (by decide +kernel)

/-- The mean of two samples ties behind an odd integer. -/
theorem resamplersAgree_iff_odd : ResamplersAgree [1, 0, 2, 0] 8000 16000 ↔
    ∀ i < outLength (samples [1, 0, 2, 0]) 8000 16000, ¬ TiesUp (samples [1, 0, 2, 0]) 8000 16000 i :=
  resamplersAgree_iff [1, 0, 2, 0] 8000 16000 (by decide) (by decide) (by decide)

end VoiceServer
