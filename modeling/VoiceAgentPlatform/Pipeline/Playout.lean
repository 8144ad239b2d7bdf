import Mathlib.Algebra.Order.Field.Rat
import Mathlib.Tactic.Linarith
import Mathlib.Tactic.Positivity
import Mathlib.Tactic.Ring

/-!
# The playout tracker

`BotPlayoutTracker` of `bot.py`, over exact time: one clock anchor and one byte counter for each turn of
the bot, and the estimate of when the audio of the turn has been played.
-/

namespace Pipeline

/-- `BotPlayoutTracker`. -/
structure BotPlayoutTracker where
  rate : ℕ
  channels : ℕ
  ttsStartedAt : Option ℚ
  botAudioBytes : ℕ
  /-- Audio of a turn has begun and not yet ended. -/
  turnActive : Bool
  deriving DecidableEq

/-- The seconds that PCM16 audio lasts; none if the rate or the number of channels is zero. -/
def audioSecs (rate channels bytes : ℕ) : ℚ :=
  if rate * 2 * channels ≠ 0 then bytes / (rate * 2 * channels : ℕ) else 0

namespace BotPlayoutTracker

/-- `BotPlayoutTracker(out_sample_rate, channels)`. -/
def new (outSampleRate channels : ℕ) : BotPlayoutTracker :=
  { rate := outSampleRate, channels, ttsStartedAt := none, botAudioBytes := 0, turnActive := false }

/-- Anchor the clock, if no turn is active. -/
def onBotTurnStart (t : BotPlayoutTracker) (now : ℚ) : BotPlayoutTracker :=
  if t.turnActive then t
  else { t with ttsStartedAt := some now, botAudioBytes := 0, turnActive := true }

/-- The next audio frame starts a new measurement. -/
def onBotTurnEnd (t : BotPlayoutTracker) : BotPlayoutTracker := { t with turnActive := false }

/-- Count the bytes of an audio frame; the first frame of a turn anchors the clock. -/
def addAudio (t : BotPlayoutTracker) (bytes : ℕ) (now : ℚ) : BotPlayoutTracker :=
  let t := t.onBotTurnStart now
  { t with botAudioBytes := t.botAudioBytes + bytes }

/-- How long the audio of the turn lasts. -/
def botAudioSecs (t : BotPlayoutTracker) : ℚ := audioSecs t.rate t.channels t.botAudioBytes

/-- When the audio of the turn ends, counted from its start. -/
def playoutFinishAt (t : BotPlayoutTracker) : Option ℚ := t.ttsStartedAt.map (· + t.botAudioSecs)

/-- The seconds of audio that are estimated still unplayed. -/
def remaining (t : BotPlayoutTracker) (now : ℚ) : ℚ :=
  match t.playoutFinishAt with
  | none => 0
  | some fin => fin - now

end BotPlayoutTracker

theorem audioSecs_nonneg (rate channels bytes : ℕ) : 0 ≤ audioSecs rate channels bytes := by
  rw [audioSecs]
  split_ifs
  · positivity
  · exact le_rfl

theorem audioSecs_zero (rate channels : ℕ) : audioSecs rate channels 0 = 0 := by
  rw [audioSecs]
  simp

theorem audioSecs_add (rate channels m n : ℕ) :
    audioSecs rate channels (m + n) = audioSecs rate channels m + audioSecs rate channels n := by
  rw [audioSecs, audioSecs, audioSecs]
  split_ifs
  · rw [Nat.cast_add, add_div]
  · exact (add_zero 0).symm

namespace BotPlayoutTracker

variable {t : BotPlayoutTracker}

theorem onBotTurnStart_of_active (h : t.turnActive = true) (now : ℚ) : t.onBotTurnStart now = t :=
  if_pos h

theorem onBotTurnStart_of_not_active (h : t.turnActive = false) (now : ℚ) :
    t.onBotTurnStart now =
      { t with ttsStartedAt := some now, botAudioBytes := 0, turnActive := true } :=
  if_neg (Bool.eq_false_iff.mp h)

theorem addAudio_of_active (h : t.turnActive = true) (bytes : ℕ) (now : ℚ) :
    t.addAudio bytes now = { t with botAudioBytes := t.botAudioBytes + bytes } := by
  rw [addAudio, onBotTurnStart_of_active h]

theorem addAudio_of_not_active (h : t.turnActive = false) (bytes : ℕ) (now : ℚ) :
    t.addAudio bytes now =
      { t with ttsStartedAt := some now, botAudioBytes := bytes, turnActive := true } := by
  rw [addAudio, onBotTurnStart_of_not_active h]
  simp

end BotPlayoutTracker

end Pipeline
