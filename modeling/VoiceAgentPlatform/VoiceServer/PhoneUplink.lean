import Mathlib.Data.List.GetD
import VoiceAgentPlatform.VoiceServer.Resampling

/-!
# The uplink of a phone call

The voice server sends what it hears at 8 kHz, one message after the other. `bot.py` passes the messages on
as they are, or, for Nova Sonic, interpolates each by itself to 16 kHz.

* `deserialize`, `deserializeUpsampling`, `phoneDeserialize`, `receiveMessages`: as the sources have them.
* `wire`: the samples of the messages.
* `upsampled_append`: interpolating two buffers one by one is interpolating both, except behind the last
  sample of the first.
* `phoneUplink_wire`: no sample of the messages is lost or moved.
* `phoneUplink_seams`: exactly where the frames differ from the messages interpolated at once.
-/

namespace VoiceServer

open Binary64 (roundHalfEven)
open Rounding

/-! ### The code -/

/-- A message of the socket. -/
inductive WsMessage
  | text (data : String)
  | bytes (data : List UInt8)

/-- Audio that enters the pipeline. -/
structure InputAudioRawFrame where
  audio : List UInt8
  sampleRate : ℕ
  numChannels : ℕ
  numFrames : ℕ
deriving DecidableEq, Repr

/-- The constructor, with `__post_init__`. -/
def InputAudioRawFrame.of (audio : List UInt8) (sampleRate numChannels : ℕ) : InputAudioRawFrame :=
  { audio, sampleRate, numChannels, numFrames := audio.length / (numChannels * 2) }

/-- What a serializer makes of a message, if it makes anything of it; none outside if it raises. -/
abbrev Deserialize := WsMessage → Option (Option InputAudioRawFrame)

/-- `RawPCMSerializer.deserialize`. -/
def deserialize (inputSampleRate : ℕ) : Deserialize
  | .text _ => some none
  | .bytes data => some (if data = [] then none else some (.of data inputSampleRate 1))

/-- `UpsamplingPCMSerializer.deserialize`. -/
def deserializeUpsampling (wireRate inputSampleRate : ℕ) : Deserialize
  | .text _ => some none
  | .bytes data =>
    if data = [] then some none
    else (upsamplePcm16Linear data wireRate inputSampleRate).map fun pcm =>
      some (.of pcm inputSampleRate 1)

/-- `INPUT_SAMPLE_RATE`. -/
def inputSampleRate : ℕ := 16000

/-- `PHONE_WIRE_SAMPLE_RATE`. -/
def phoneWireSampleRate : ℕ := 8000

/-- The serializer that `_run_phone_session` chooses for a call through the voice server. -/
def phoneDeserialize (engine : String) : Deserialize :=
  if engine = "nova-sonic" then deserializeUpsampling phoneWireSampleRate inputSampleRate
  else deserialize phoneWireSampleRate

/-- The frames that `_receive_messages` pushes. -/
def receiveMessages (deserialize : Deserialize) : List WsMessage → List InputAudioRawFrame
  | [] => []
  | message :: messages =>
    match deserialize message with
    -- The exception is caught outside the loop.
    | none => []
    | some none => receiveMessages deserialize messages
    | some (some frame) => frame :: receiveMessages deserialize messages

/-! ### Interpolation by a whole factor -/

/-- The bytes of a message that carry audio. -/
def WsMessage.data : WsMessage → List UInt8
  | .text _ => []
  | .bytes data => data

/-- The samples of the messages. -/
def wire (messages : List WsMessage) : List ℤ := messages.flatMap fun message => samples message.data

/-- A sample, the one behind it if there is one, and how far between them. -/
def between (k : ℕ) (src : List ℤ) (p r : ℕ) : ℚ :=
  src.getD p 0 + (r : ℚ) / k * (src.getD (min (p + 1) (src.length - 1)) 0 - src.getD p 0)

/-- Samples interpolated by the factor `k`. -/
def upsampled (round : ℚ → ℤ) (k : ℕ) (src : List ℤ) : List ℤ :=
  (List.range (k * src.length)).map fun i => round (between k src (i / k) (i % k))

variable {round : ℚ → ℤ} {k rate : ℕ}

@[simp] theorem length_upsampled (src : List ℤ) : (upsampled round k src).length = k * src.length := by
  rw [upsampled, List.length_map, List.length_range]

theorem getElem?_upsampled {src : List ℤ} {i : ℕ} (hi : i < k * src.length) :
    (upsampled round k src)[i]? = some (round (between k src (i / k) (i % k))) := by
  rw [upsampled, List.getElem?_map, List.getElem?_range hi, Option.map_some]

/-- Only the ratio of the rates matters. -/
theorem interpolated_mul (hrate : 0 < rate) (src : List ℤ) :
    interpolated round src rate (k * rate) = upsampled round k src := by
  have hlength : outLength src rate (k * rate) = k * src.length := by
    rw [outLength, ← mul_assoc, Nat.mul_div_left _ hrate, mul_comm]
  have hne : (rate : ℚ) ≠ 0 := Nat.cast_ne_zero.mpr hrate.ne'
  rw [interpolated, upsampled, hlength]
  refine List.map_congr_left fun i _ => ?_
  have hfraction : ((i % k * rate : ℕ) : ℚ) / ((k * rate : ℕ) : ℚ) = ((i % k : ℕ) : ℚ) / k := by
    rw [Nat.cast_mul, Nat.cast_mul, mul_div_mul_right _ _ hne]
  rw [valueAt, before, after, Nat.mul_div_mul_right _ _ hrate, Nat.mul_mod_mul_right, hfraction, between]

/-- The samples of the source are kept, each at `k` times its place. -/
theorem getElem?_upsampled_mul (hround : KeepsRange round) (hk : 0 < k) (src : List ℤ) (j : ℕ) :
    (upsampled round k src)[k * j]? = src[j]? := by
  by_cases hj : j < src.length
  · rw [getElem?_upsampled (Nat.mul_lt_mul_of_pos_left hj hk), Nat.mul_div_cancel_left _ hk,
      Nat.mul_mod_right, between, Nat.cast_zero, zero_div, zero_mul, add_zero, round_intCast hround,
      List.getD_eq_getElem?_getD, List.getElem?_eq_getElem hj, Option.getD_some]
  · have hge : src.length ≤ j := Nat.le_of_not_lt hj
    rw [List.getElem?_eq_none hge, List.getElem?_eq_none]
    rw [length_upsampled]
    exact Nat.mul_le_mul_left k hge

/-- The last sample is held for the places behind it. -/
theorem getElem?_upsampled_last (hround : KeepsRange round) {src : List ℤ} {i : ℕ}
    (hi : i < k * src.length) (hlast : i / k + 1 = src.length) :
    (upsampled round k src)[i]? = src[i / k]? := by
  have hlt : i / k < src.length := hlast ▸ Nat.lt_succ_self _
  have hmin : min (i / k + 1) (src.length - 1) = i / k := by
    rw [← hlast, Nat.add_sub_cancel]
    exact min_eq_right (Nat.le_succ _)
  rw [getElem?_upsampled hi, between, hmin, sub_self, mul_zero, add_zero, round_intCast hround,
    List.getD_eq_getElem?_getD, List.getElem?_eq_getElem hlt, Option.getD_some]

/-- A sample of the first buffer and the one behind it, if that is in the buffer as well. -/
theorem between_append_left {src : List ℤ} {p : ℕ} (hnext : p + 1 < src.length) (src' : List ℤ) (r : ℕ) :
    between k (src ++ src') p r = between k src p r := by
  have hmin : min (p + 1) (src.length - 1) = p + 1 := min_eq_left (Nat.le_sub_one_of_lt hnext)
  have hmin' : min (p + 1) ((src ++ src').length - 1) = p + 1 := by
    rw [List.length_append]
    exact min_eq_left (Nat.le_sub_one_of_lt (Nat.lt_add_right _ hnext))
  rw [between, between, hmin, hmin', List.getD_append _ _ _ _ (Nat.lt_of_succ_lt hnext),
    List.getD_append _ _ _ _ hnext]

/-- A sample of the second buffer and the one behind it. -/
theorem between_append_right {src' : List ℤ} {p : ℕ} (hp : p < src'.length) (src : List ℤ) (r : ℕ) :
    between k (src ++ src') (src.length + p) r = between k src' p r := by
  have hmin : min (src.length + p + 1) ((src ++ src').length - 1) =
      src.length + min (p + 1) (src'.length - 1) := by
    rw [List.length_append, Nat.add_sub_assoc (Nat.one_le_of_lt hp), Nat.add_assoc, Nat.add_min_add_left]
  rw [between, between, hmin, List.getD_append_right _ _ _ _ (Nat.le_add_right _ _),
    Nat.add_sub_cancel_left, List.getD_append_right _ _ _ _ (Nat.le_add_right _ _),
    Nat.add_sub_cancel_left]

/-- Behind the first buffer, the second is interpolated as if it were alone. -/
theorem getElem?_upsampled_append_right (hk : 0 < k) (src src' : List ℤ) (j : ℕ) :
    (upsampled round k (src ++ src'))[k * src.length + j]? = (upsampled round k src')[j]? := by
  by_cases hj : j < k * src'.length
  · have hj' : k * src.length + j < k * (src ++ src').length := by
      rw [List.length_append, mul_add]
      omega
    rw [getElem?_upsampled hj, getElem?_upsampled hj', Nat.mul_add_div hk, Nat.mul_add_mod,
      between_append_right (Nat.div_lt_of_lt_mul hj)]
  · have hnone : (upsampled round k src').length ≤ j := by
      rw [length_upsampled]
      exact Nat.le_of_not_lt hj
    rw [List.getElem?_eq_none hnone, List.getElem?_eq_none]
    rw [length_upsampled, List.length_append, mul_add]
    omega

theorem add_succ_ne_self (n p : ℕ) : n + p + 1 ≠ n := by omega

/-- Interpolating two buffers one by one is interpolating both, except behind the last sample of the
first. -/
theorem upsampled_append (hround : KeepsRange round) (hk : 0 < k) (src src' : List ℤ) (i : ℕ) :
    (upsampled round k src ++ upsampled round k src')[i]? =
      if i / k + 1 = src.length ∧ i % k ≠ 0 then src[i / k]?
      else (upsampled round k (src ++ src'))[i]? := by
  by_cases hi : i < k * src.length
  · have hlt : i / k < src.length := Nat.div_lt_of_lt_mul hi
    rw [List.getElem?_append_left (by rwa [length_upsampled])]
    split_ifs with hseam
    · exact getElem?_upsampled_last hround hi hseam.1
    · by_cases hmod : i % k = 0
      · -- A sample of the source, which the buffer behind it does not change.
        obtain ⟨j, rfl⟩ := Nat.dvd_of_mod_eq_zero hmod
        rw [Nat.mul_div_cancel_left _ hk] at hlt
        rw [getElem?_upsampled_mul hround hk, getElem?_upsampled_mul hround hk,
          List.getElem?_append_left hlt]
      · -- Both neighbours lie in the first buffer.
        have hnext : i / k + 1 < src.length := by
          have hne : i / k + 1 ≠ src.length := fun h => hseam ⟨h, hmod⟩
          exact lt_of_le_of_ne hlt hne
        have hi' : i < k * (src ++ src').length := by
          rw [List.length_append, mul_add]
          exact Nat.lt_add_right _ hi
        rw [getElem?_upsampled hi, getElem?_upsampled hi', between_append_left hnext]
  · -- Behind the first buffer, where there is no seam.
    obtain ⟨j, rfl⟩ := Nat.exists_eq_add_of_le (Nat.le_of_not_lt hi)
    have hnot : ¬ ((k * src.length + j) / k + 1 = src.length ∧ (k * src.length + j) % k ≠ 0) := by
      rw [Nat.mul_add_div hk]
      exact fun h => add_succ_ne_self _ _ h.1
    rw [if_neg hnot, List.getElem?_append_right (by rw [length_upsampled]; omega), length_upsampled,
      Nat.add_sub_cancel_left, getElem?_upsampled_append_right hk]

/-! ### Many buffers -/

/-- How many samples lie before the end of each buffer. -/
def seams : List (List ℤ) → List ℕ
  | [] => []
  | src :: srcs => src.length :: (seams srcs).map (src.length + ·)

/-- Buffers that are interpolated one by one. -/
theorem flatMap_upsampled (hround : KeepsRange round) (hk : 0 < k) (srcs : List (List ℤ)) (i : ℕ) :
    (srcs.flatMap (upsampled round k))[i]? =
      if i / k + 1 ∈ seams srcs ∧ i % k ≠ 0 then srcs.flatten[i / k]?
      else (upsampled round k srcs.flatten)[i]? := by
  induction srcs generalizing i with
  | nil => simp [seams, upsampled]
  | cons src srcs ih =>
    rw [List.flatMap_cons, List.flatten_cons]
    by_cases hi : i < k * src.length
    · -- In the first buffer.
      have hwhole := upsampled_append hround hk src srcs.flatten i
      have hlt : i / k < src.length := Nat.div_lt_of_lt_mul hi
      have hseam : i / k + 1 ∈ seams (src :: srcs) ↔ i / k + 1 = src.length := by
        rw [seams, List.mem_cons, List.mem_map]
        refine or_iff_left_of_imp ?_
        rintro ⟨p, -, hp⟩
        omega
      rw [List.getElem?_append_left (by rwa [length_upsampled])] at hwhole ⊢
      rw [hwhole, List.getElem?_append_left hlt]
      simp only [hseam]
    · -- Behind it, where the places are those of the rest.
      obtain ⟨j, rfl⟩ := Nat.exists_eq_add_of_le (Nat.le_of_not_lt hi)
      have hseam : src.length + j / k + 1 ∈ seams (src :: srcs) ↔ j / k + 1 ∈ seams srcs := by
        rw [seams, List.mem_cons, List.mem_map]
        constructor
        · rintro (h | ⟨p, hp, h⟩)
          · exact absurd h (add_succ_ne_self _ _)
          · rw [Nat.add_assoc] at h
            rwa [← Nat.add_left_cancel h]
        · exact fun h => Or.inr ⟨_, h, (Nat.add_assoc _ _ _).symm⟩
      have hle : (upsampled round k src).length ≤ k * src.length + j := by
        rw [length_upsampled]
        exact Nat.le_add_right _ _
      rw [List.getElem?_append_right hle, length_upsampled, Nat.add_sub_cancel_left, ih j,
        Nat.mul_add_div hk, Nat.mul_add_mod, getElem?_upsampled_append_right hk,
        List.getElem?_append_right (Nat.le_add_right _ _), Nat.add_sub_cancel_left]
      simp only [hseam]

theorem length_flatMap_upsampled (srcs : List (List ℤ)) :
    (srcs.flatMap (upsampled round k)).length = k * srcs.flatten.length := by
  induction srcs with
  | nil => rfl
  | cons src srcs ih =>
    rw [List.flatMap_cons, List.length_append, ih, length_upsampled, List.flatten_cons, List.length_append,
      mul_add]

theorem getElem?_flatMap_upsampled_mul (hround : KeepsRange round) (hk : 0 < k) (srcs : List (List ℤ))
    (j : ℕ) : (srcs.flatMap (upsampled round k))[k * j]? = srcs.flatten[j]? := by
  rw [flatMap_upsampled hround hk, if_neg (fun h => h.2 (Nat.mul_mod_right k j)),
    getElem?_upsampled_mul hround hk]

/-- Interpolation back to the rate of the source takes every `k`th sample. -/
theorem getElem?_interpolated_back (hround : KeepsRange round) (hk : 0 < k) (hrate : 0 < rate)
    {src : List ℤ} {m : ℕ} (hlength : src.length = k * m) (j : ℕ) :
    (interpolated round src (k * rate) rate)[j]? = src[k * j]? := by
  have hout : outLength src (k * rate) rate = m := by
    rw [outLength, hlength, show k * m * rate = m * (k * rate) by ring]
    exact Nat.mul_div_left _ (Nat.mul_pos hk hrate)
  have hindex : j * (k * rate) / rate = k * j := by
    rw [show j * (k * rate) = k * j * rate by ring]
    exact Nat.mul_div_left _ hrate
  have hfraction : j * (k * rate) % rate = 0 := by
    rw [show j * (k * rate) = k * j * rate by ring]
    exact Nat.mul_mod_left _ _
  rw [interpolated, List.getElem?_map, hout]
  by_cases hj : j < m
  · have hlt : k * j < src.length := hlength ▸ Nat.mul_lt_mul_of_pos_left hj hk
    rw [List.getElem?_range hj, Option.map_some, valueAt, hfraction, Nat.cast_zero, zero_div, zero_mul,
      add_zero, round_intCast hround, before, hindex, List.getD_eq_getElem?_getD,
      List.getElem?_eq_getElem hlt, Option.getD_some]
  · have hge : src.length ≤ k * j := hlength ▸ Nat.mul_le_mul_left k (Nat.le_of_not_lt hj)
    rw [List.getElem?_eq_none (by rw [List.length_range]; exact Nat.le_of_not_lt hj), Option.map_none,
      List.getElem?_eq_none hge]

/-! ### The frames of a call -/

/-- Without the last byte of an odd buffer. -/
def evenPart (pcm : List UInt8) : List UInt8 := (samples pcm).flatMap int16Bytes

theorem samples_evenPart (pcm : List UInt8) : samples (evenPart pcm) = samples pcm :=
  samples_flatMap fun _ hx => isInt16_of_mem_samples hx

theorem length_flatMap_int16Bytes (xs : List ℤ) : (xs.flatMap int16Bytes).length = 2 * xs.length := by
  rw [List.length_flatMap]
  simp [int16Bytes, Nat.mul_comm]

theorem even_flatMap_int16Bytes (xs : List ℤ) : Even (xs.flatMap int16Bytes).length :=
  ⟨xs.length, by rw [length_flatMap_int16Bytes, two_mul]⟩

/-- Of a buffer only the samples are interpolated. -/
theorem upsamplePcm16Linear_of_ne {pcm : List UInt8} (hrate : 0 < rate) (hk : 1 < k) :
    upsamplePcm16Linear pcm rate (k * rate) =
      some ((upsampled roundHalfEven k (samples pcm)).flatMap int16Bytes) := by
  have hne : rate ≠ k * rate := (lt_mul_of_one_lt_left hrate hk).ne
  have hdst : 0 < k * rate := Nat.mul_pos (Nat.zero_lt_of_lt hk) hrate
  have hpart : upsamplePcm16Linear pcm rate (k * rate) =
      upsamplePcm16Linear (evenPart pcm) rate (k * rate) := by
    have hsamples := samples_evenPart pcm
    rw [upsamplePcm16Linear, upsamplePcm16Linear]
    by_cases hnil : samples pcm = []
    · -- Neither holds a sample.
      have heven : evenPart pcm = [] := by rw [evenPart, hnil, List.flatMap_nil]
      rw [if_pos (Or.inr heven), heven]
      split_ifs with hpcm
      · rw [hpcm.resolve_left hne]
      · simp [hnil]
    · have hpcm : pcm ≠ [] := by
        rintro rfl
        exact hnil rfl
      have heven : evenPart pcm ≠ [] := by
        intro h
        rw [h] at hsamples
        exact hnil hsamples.symm
      rw [if_neg (not_or.mpr ⟨hne, hpcm⟩), if_neg (not_or.mpr ⟨hne, heven⟩), hsamples]
  have heven : Even (evenPart pcm).length := even_flatMap_int16Bytes _
  rw [hpart, upsamplePcm16Linear_eq heven hdst, samples_evenPart, interpolated_mul hrate]

/-- The messages that carry audio. -/
def audioMessages (messages : List WsMessage) : List (List UInt8) :=
  (messages.map WsMessage.data).filter (· ≠ [])

theorem flatMap_samples_audioMessages (messages : List WsMessage) :
    (audioMessages messages).flatMap samples = wire messages := by
  induction messages with
  | nil => rfl
  | cons message messages ih =>
    rw [wire, List.flatMap_cons, ← wire, ← ih, audioMessages, List.map_cons, List.filter_cons]
    split_ifs with hdata
    · rw [List.flatMap_cons, audioMessages]
    · rw [decide_eq_true_eq, not_not] at hdata
      rw [hdata, samples.eq_2 [] (by simp), List.nil_append, audioMessages]

/-- The frame that a message with audio becomes. -/
def upsampledFrame (k rate : ℕ) (data : List UInt8) : InputAudioRawFrame :=
  .of ((upsampled roundHalfEven k (samples data)).flatMap int16Bytes) (k * rate) 1

/-- Every message with audio becomes one frame, and the loop does not end before the messages do. -/
theorem receiveMessages_deserializeUpsampling (hrate : 0 < rate) (hk : 1 < k) (messages : List WsMessage) :
    receiveMessages (deserializeUpsampling rate (k * rate)) messages =
      (audioMessages messages).map (upsampledFrame k rate) := by
  induction messages with
  | nil => rfl
  | cons message messages ih =>
    rw [receiveMessages, audioMessages, List.map_cons, List.filter_cons, ih]
    cases message with
    | text data => rfl
    | bytes data =>
      by_cases hdata : data = []
      · simp [deserializeUpsampling, WsMessage.data, hdata, audioMessages]
      · simp [deserializeUpsampling, WsMessage.data, hdata, audioMessages, upsampledFrame,
          upsamplePcm16Linear_of_ne hrate hk]

/-- The audio of the frames, one after the other. -/
def uplinkAudio (frames : List InputAudioRawFrame) : List UInt8 := frames.flatMap (·.audio)

theorem uplinkAudio_upsampledFrame (datas : List (List UInt8)) :
    uplinkAudio (datas.map (upsampledFrame k rate)) =
      ((datas.map samples).flatMap (upsampled roundHalfEven k)).flatMap int16Bytes := by
  induction datas with
  | nil => rfl
  | cons data datas ih =>
    rw [List.map_cons, List.map_cons, List.flatMap_cons, List.flatMap_append, ← ih]
    rfl

theorem isInt16_of_mem_wire {messages : List WsMessage} {x : ℤ} (h : x ∈ wire messages) : IsInt16 x := by
  obtain ⟨message, -, hx⟩ := List.mem_flatMap.mp h
  exact isInt16_of_mem_samples hx

theorem isInt16_upsampled (hk : 0 < k) {src : List ℤ} (h : ∀ x ∈ src, IsInt16 x) :
    ∀ x ∈ upsampled roundHalfEven k src, IsInt16 x := by
  intro x hx
  rw [← interpolated_mul Nat.one_pos] at hx
  exact isInt16_interpolated keepsRange_roundHalfEven (Nat.mul_pos hk Nat.one_pos) h x hx

/-- The samples of the frames. -/
theorem samples_uplinkAudio (hk : 0 < k) (datas : List (List UInt8)) :
    samples (uplinkAudio (datas.map (upsampledFrame k rate))) =
      (datas.map samples).flatMap (upsampled roundHalfEven k) := by
  rw [uplinkAudio_upsampledFrame, samples_flatMap]
  intro x hx
  obtain ⟨src, hsrc, hx⟩ := List.mem_flatMap.mp hx
  obtain ⟨data, -, rfl⟩ := List.mem_map.mp hsrc
  exact isInt16_upsampled hk (fun y hy => isInt16_of_mem_samples hy) x hx

theorem flatten_map_samples (messages : List WsMessage) :
    ((audioMessages messages).map samples).flatten = wire messages := by
  rw [← List.flatMap_def, flatMap_samples_audioMessages]

/-- The frames of a call with Nova Sonic. -/
def novaUplink (messages : List WsMessage) : List InputAudioRawFrame :=
  receiveMessages (phoneDeserialize "nova-sonic") messages

theorem novaUplink_eq (messages : List WsMessage) :
    novaUplink messages = (audioMessages messages).map (upsampledFrame 2 phoneWireSampleRate) := by
  have hrate : 0 < phoneWireSampleRate := by decide
  exact receiveMessages_deserializeUpsampling hrate Nat.one_lt_two messages

theorem numFrames_upsampledFrame (data : List UInt8) :
    (upsampledFrame k rate data).numFrames = k * (samples data).length := by
  rw [upsampledFrame, InputAudioRawFrame.of, length_flatMap_int16Bytes, length_upsampled]
  exact Nat.mul_div_cancel_left _ Nat.two_pos

/-- However the voice server cuts what it hears into messages, each with audio becomes one frame at the
rate of the model, and from all the frames the samples of the messages can be read back. -/
theorem phoneUplink_wire (messages : List WsMessage) :
    (novaUplink messages).length = (audioMessages messages).length ∧
      (∀ frame ∈ novaUplink messages,
        frame.sampleRate = inputSampleRate ∧ frame.numChannels = 1 ∧
          frame.audio.length = 2 * frame.numFrames) ∧
      ((novaUplink messages).map (·.numFrames)).sum = 2 * (wire messages).length ∧
      resample (uplinkAudio (novaUplink messages)) inputSampleRate phoneWireSampleRate =
        some ((wire messages).flatMap int16Bytes) := by
  rw [novaUplink_eq]
  refine ⟨List.length_map _, fun frame hframe => ?_, ?_, ?_⟩
  · obtain ⟨data, -, rfl⟩ := List.mem_map.mp hframe
    refine ⟨rfl, rfl, ?_⟩
    have hlength : (upsampledFrame 2 phoneWireSampleRate data).audio.length = 2 * (2 * _) :=
      (length_flatMap_int16Bytes _).trans (congrArg (2 * ·) (length_upsampled _))
    rw [hlength, numFrames_upsampledFrame]
  · rw [List.map_map, ← flatten_map_samples]
    induction audioMessages messages with
    | nil => rfl
    | cons data datas ih =>
      rw [List.map_cons, List.sum_cons, ih, Function.comp_apply, numFrames_upsampledFrame, List.map_cons,
        List.flatten_cons, List.length_append, mul_add]
  · have heven : Even (uplinkAudio
        ((audioMessages messages).map (upsampledFrame 2 phoneWireSampleRate))).length := by
      rw [uplinkAudio_upsampledFrame]
      exact even_flatMap_int16Bytes _
    rw [resample_eq heven (by decide), samples_uplinkAudio Nat.two_pos]
    congr 2
    -- Sample by sample.
    ext1 j
    rw [show inputSampleRate = 2 * phoneWireSampleRate from rfl,
      getElem?_interpolated_back keepsRange_roundHalfUp Nat.two_pos (by decide)
        (length_flatMap_upsampled _),
      getElem?_flatMap_upsampled_mul keepsRange_roundHalfEven Nat.two_pos, flatten_map_samples]

/-- The frames hold the messages interpolated at once, except that behind the last sample of a message
this sample is held instead of the mean with the first one of the next. -/
theorem phoneUplink_seams (messages : List WsMessage) :
    ∃ whole, upsamplePcm16Linear ((wire messages).flatMap int16Bytes) phoneWireSampleRate inputSampleRate =
        some whole ∧
      ∀ i, (samples (uplinkAudio (novaUplink messages)))[i]? =
        if i / 2 + 1 ∈ seams ((audioMessages messages).map samples) ∧ i % 2 ≠ 0 then
          (wire messages)[i / 2]?
        else (samples whole)[i]? := by
  have hsamples : samples ((wire messages).flatMap int16Bytes) = wire messages :=
    samples_flatMap fun x hx => isInt16_of_mem_wire hx
  have hrate : 0 < phoneWireSampleRate := by decide
  refine ⟨_, upsamplePcm16Linear_of_ne hrate Nat.one_lt_two, fun i => ?_⟩
  rw [novaUplink_eq, samples_uplinkAudio Nat.two_pos,
    flatMap_upsampled keepsRange_roundHalfEven Nat.two_pos, flatten_map_samples, hsamples,
    samples_flatMap (isInt16_upsampled Nat.two_pos fun x hx => isInt16_of_mem_wire hx)]

/-- Two messages of one sample each, 0 and 1. -/
example : (novaUplink [.bytes [0, 0], .text "\x7b\x7d", .bytes [2, 0]]).map (·.audio) =
    [[0, 0, 0, 0], [2, 0, 2, 0]] := by decide +kernel

end VoiceServer
