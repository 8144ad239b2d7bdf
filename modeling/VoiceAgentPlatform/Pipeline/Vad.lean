import VoiceAgentPlatform.Lib.Binary64
import VoiceAgentPlatform.Lib.Framing
import VoiceAgentPlatform.Lib.Hysteresis
import VoiceAgentPlatform.Lib.Run

/-!
# Voice activity detection

`vad_analyzer.py` and `silero.py` cut the caller's audio into windows, judge each of them, and keep a
machine of four states; `vad_controller.py` turns its states into the signals that speech has started or
stopped. `_make_vad_analyzer` of `bot.py` sets the thresholds of a session.

* `VADAnalyzer.runAnalyzer`: a buffer of audio; `VADController.step`: a step of the controller, of which
  the analysis, the handlers of a signal and the timer for idle audio interleave.
* `machine_foldl_runAnalyzer`: the machine is a switch with hysteresis, over the verdicts on the windows.
* `foldl_runAnalyzer_congr`: the analysis does not depend on how audio is chunked.
* `signals_alternate`: the signals in any interleaving.
* `signals_dwell`: no signal comes before the audio that it takes has been heard.
-/

namespace Pipeline.Vad

open Binary64 (nearest roundHalfEven)
open Hysteresis (trailing trailing_concat_self trailing_concat_not trailing_not Reached reached_iff Switch)

/-! ### The machine -/

/-- `VADState`. -/
inductive VADState where
  | quiet
  | starting
  | speaking
  | stopping
  deriving DecidableEq

/-- `_vad_state`, `_vad_starting_count` and `_vad_stopping_count`. -/
@[ext]
structure Machine where
  vadState : VADState
  startingCount : ℤ
  stoppingCount : ℤ
  deriving DecidableEq

namespace Machine

/-- The state that `set_params` sets. -/
def init : Machine := { vadState := .quiet, startingCount := 0, stoppingCount := 0 }

/-- What a window does, of which the analyzer has said whether it holds speech. -/
def advance (m : Machine) (speaking : Bool) : Machine :=
  match speaking, m.vadState with
  | true, .quiet => { m with vadState := .starting, startingCount := 1 }
  | true, .starting => { m with startingCount := m.startingCount + 1 }
  | true, .speaking => m
  | true, .stopping => { m with vadState := .speaking, stoppingCount := 0 }
  | false, .quiet => m
  | false, .starting => { m with vadState := .quiet, startingCount := 0 }
  | false, .speaking => { m with vadState := .stopping, stoppingCount := 1 }
  | false, .stopping => { m with stoppingCount := m.stoppingCount + 1 }

/-- The first check behind the loop. -/
def confirmStart (startFrames : ℤ) (m : Machine) : Machine :=
  if m.vadState = .starting ∧ m.startingCount ≥ startFrames then
    { m with vadState := .speaking, startingCount := 0 }
  else m

/-- The second check behind the loop. -/
def confirmStop (stopFrames : ℤ) (m : Machine) : Machine :=
  if m.vadState = .stopping ∧ m.stoppingCount ≥ stopFrames then
    { m with vadState := .quiet, stoppingCount := 0 }
  else m

end Machine

/-! ### The analyzer -/

/-- `VADParams`. -/
structure VADParams where
  confidence : ℚ
  startSecs : ℚ
  stopSecs : ℚ
  minVolume : ℚ

/-- The defaults of `VADParams`. -/
def VADParams.default : VADParams :=
  { confidence := nearest 0.7, startSecs := nearest 0.2, stopSecs := nearest 0.2, minVolume := nearest 0.6 }

/-- The parameters that `_make_vad_analyzer` builds an analyzer with. -/
def makeVadAnalyzer (isPhone : Bool) : VADParams :=
  if isPhone then
    { confidence := nearest 0.8
      startSecs := nearest 0.5
      stopSecs := nearest 0.2
      minVolume := nearest 0.8 }
  else VADParams.default

/-- What is not in the repository: the network of Silero with its state, of which the analyzer asks whether
its confidence in a window reaches a threshold; and the loudness of a window at a sample rate, none for
silence. The verdict is taken as a function of the windows so far: that the clock resets the state is left
to the network. -/
structure Ear (μ : Type) where
  confidenceReaches : μ → List UInt8 → ℚ → Bool × μ
  integratedLoudness : ℕ → List UInt8 → Option ℚ

/-- What the analyzer keeps of the windows so far. -/
structure Hearing (μ : Type) where
  model : μ
  prevVolume : ℚ

structure VADAnalyzer (μ : Type) where
  params : VADParams
  sampleRate : ℕ
  vadFramesNumBytes : ℕ+
  vadStartFrames : ℤ
  vadStopFrames : ℤ
  vadBuffer : List UInt8
  hearing : Hearing μ
  machine : Machine

/-- `calculate_audio_volume`, with `normalize_value` from -20 to 80. -/
def calculateAudioVolume {μ : Type} (ear : Ear μ) (audio : List UInt8) (sampleRate : ℕ) : ℚ :=
  match ear.integratedLoudness sampleRate audio with
  | none => 0
  | some loudness => max 0 (min 1 (nearest (nearest (loudness + 20) / 100)))

/-- `exp_smoothing`. -/
def expSmoothing (value prevValue factor : ℚ) : ℚ :=
  nearest (prevValue + nearest (factor * nearest (value - prevValue)))

/-- `num_frames_required`. -/
def numFramesRequired (sampleRate : ℕ) : ℕ+ := if sampleRate = 16000 then 512 else 256

/-- The number of windows in a time, as `set_params` computes it. -/
def framesOf (secs : ℚ) (sampleRate : ℕ) : ℤ :=
  roundHalfEven (nearest (secs / nearest ((numFramesRequired sampleRate : ℕ) / sampleRate)))

namespace VADAnalyzer

variable {μ : Type} (ear : Ear μ)

/-- A new analyzer, after `set_sample_rate` and the `set_params` that it calls. -/
def setSampleRate (params : VADParams) (model : μ) (sampleRate : ℕ) : Except String (VADAnalyzer μ) :=
  if sampleRate ≠ 16000 ∧ sampleRate ≠ 8000 then
    .error ("Silero VAD sample rate needs to be 16000 or 8000 (sample rate: " ++ toString sampleRate ++ ")")
  else
    .ok
      { params, sampleRate
        vadFramesNumBytes := numFramesRequired sampleRate * 1 * 2
        vadStartFrames := framesOf params.startSecs sampleRate
        vadStopFrames := framesOf params.stopSecs sampleRate
        vadBuffer := []
        hearing := { model, prevVolume := 0 }
        machine := Machine.init }

/-- Whether a window holds speech. -/
def judge (a : VADAnalyzer μ) (h : Hearing μ) (audioFrames : List UInt8) : Bool × Hearing μ :=
  let (confident, model) := ear.confidenceReaches h.model audioFrames a.params.confidence
  let volume := expSmoothing (calculateAudioVolume ear audioFrames a.sampleRate) h.prevVolume (nearest 0.2)
  (confident && decide (volume ≥ a.params.minVolume), { model, prevVolume := volume })

/-- The loop of `_run_analyzer`. -/
def windowLoop (a : VADAnalyzer μ) : VADAnalyzer μ :=
  if (a.vadFramesNumBytes : ℕ) ≤ a.vadBuffer.length then
    let (speaking, hearing) := judge ear a a.hearing (a.vadBuffer.take a.vadFramesNumBytes)
    windowLoop
      { a with
        vadBuffer := a.vadBuffer.drop a.vadFramesNumBytes
        hearing
        machine := a.machine.advance speaking }
  else a
termination_by a.vadBuffer.length
decreasing_by
  have := a.vadFramesNumBytes.pos
  show (a.vadBuffer.drop _).length < _
  rw [List.length_drop]
  omega

/-- `_run_analyzer`. -/
def runAnalyzer (a : VADAnalyzer μ) (buffer : List UInt8) : VADAnalyzer μ :=
  let a := { a with vadBuffer := a.vadBuffer ++ buffer }
  if a.vadBuffer.length < a.vadFramesNumBytes then a
  else
    let a := windowLoop ear a
    { a with machine := (a.machine.confirmStart a.vadStartFrames).confirmStop a.vadStopFrames }

end VADAnalyzer

/-- At both sample rates, a start takes 16 windows on the phone and 6 in a browser, and a stop takes 6. -/
theorem framesOf_makeVadAnalyzer (isPhone : Bool) {sampleRate : ℕ}
    (h : sampleRate = 16000 ∨ sampleRate = 8000) :
    framesOf (makeVadAnalyzer isPhone).startSecs sampleRate = (if isPhone then 16 else 6) ∧
      framesOf (makeVadAnalyzer isPhone).stopSecs sampleRate = 6 := by
  rcases h with rfl | rfl <;> cases isPhone <;> constructor <;> decide +kernel

/-! ### The controller -/

/-- `on_speech_started` and `on_speech_stopped`. -/
inductive Signal where
  | started
  | stopped
  deriving DecidableEq

/-- Where `_handle_audio` waits: for the analysis of its audio, with the state that it was called in, or
for the handlers of a signal, with the state that it then sets. -/
inductive Handling where
  | analyzing (audio : List UInt8) (vadState : VADState)
  | signalling (vadState : VADState)

/-- What happens: a frame of audio is handled, its analysis is done, the handlers of its signal have
returned, or `_audio_idle_handler` wakes up after too long without a frame. The time is left out, so that
it may wake up at any moment. -/
inductive Event where
  | audio (audio : List UInt8)
  | analyzed
  | signalled
  | idle
  deriving DecidableEq

structure VADController (μ : Type) where
  analyzer : VADAnalyzer μ
  vadState : VADState
  handling : Option Handling
  signals : List Signal

namespace VADController

variable {μ : Type} (ear : Ear μ)

/-- A controller before the first frame. -/
def new (analyzer : VADAnalyzer μ) : VADController μ :=
  { analyzer, vadState := .quiet, handling := none, signals := [] }

/-- What `_handle_vad` does after the analysis. -/
def handleVad (c : VADController μ) (analyzer : VADAnalyzer μ) (vadState : VADState) : VADController μ :=
  let newVadState := analyzer.machine.vadState
  if newVadState ≠ vadState ∧ newVadState ≠ .starting ∧ newVadState ≠ .stopping then
    { c with
      analyzer
      handling := some (.signalling newVadState)
      signals := c.signals ++ [if newVadState = .speaking then .started else .stopped] }
  else { c with analyzer, vadState, handling := none }

def step (c : VADController μ) : Event → VADController μ
  | .audio audio =>
    match c.handling with
    | none => { c with handling := some (.analyzing audio c.vadState) }
    | some _ => c
  | .analyzed =>
    match c.handling with
    | some (.analyzing audio vadState) => c.handleVad (c.analyzer.runAnalyzer ear audio) vadState
    | _ => c
  | .signalled =>
    match c.handling with
    | some (.signalling vadState) => { c with vadState, handling := none }
    | _ => c
  | .idle =>
    if c.vadState = .speaking then { c with vadState := .quiet, signals := c.signals ++ [.stopped] }
    else c

/-- What an event does. -/
inductive Move (c : VADController μ) : Event → VADController μ → Prop where
  | rest (e : Event) : Move c e c
  | audio (audio : List UInt8) (hhandling : c.handling = none) :
    Move c (.audio audio) { c with handling := some (.analyzing audio c.vadState) }
  | analyzed (audio : List UInt8) (vadState : VADState)
    (hhandling : c.handling = some (.analyzing audio vadState)) :
    Move c .analyzed (c.handleVad (c.analyzer.runAnalyzer ear audio) vadState)
  | signalled (vadState : VADState) (hhandling : c.handling = some (.signalling vadState)) :
    Move c .signalled { c with vadState, handling := none }
  | idle (hspeaking : c.vadState = .speaking) :
    Move c .idle { c with vadState := .quiet, signals := c.signals ++ [.stopped] }

theorem move_step (c : VADController μ) (e : Event) : Move ear c e (c.step ear e) := by
  cases e with
  | audio audio =>
    cases hhandling : c.handling with
    | none => simpa only [step, hhandling] using Move.audio audio hhandling
    | some handling => simpa only [step, hhandling] using Move.rest _
  | analyzed =>
    match hhandling : c.handling with
    | none | some (.signalling _) => simpa only [step, hhandling] using Move.rest _
    | some (.analyzing audio vadState) =>
      simpa only [step, hhandling] using Move.analyzed audio vadState hhandling
  | signalled =>
    match hhandling : c.handling with
    | none | some (.analyzing _ _) => simpa only [step, hhandling] using Move.rest _
    | some (.signalling vadState) =>
      simpa only [step, hhandling] using Move.signalled vadState hhandling
  | idle =>
    by_cases hspeaking : c.vadState = .speaking
    · simpa only [step, if_pos hspeaking] using Move.idle hspeaking
    · simpa only [step, if_neg hspeaking] using Move.rest _

end VADController

/-! ### The machine is a switch with hysteresis -/

namespace Machine

/-- The machine that an output of the switch and a history stand for. -/
def of (on : Bool) (history : List Bool) : Machine :=
  if on then
    if trailing false history = 0 then { init with vadState := .speaking }
    else { init with vadState := .stopping, stoppingCount := trailing false history }
  else if trailing true history = 0 then init
  else { init with vadState := .starting, startingCount := trailing true history }

theorem vadState_of_true (history : List Bool) :
    (of true history).vadState = if trailing false history = 0 then .speaking else .stopping := by
  rw [of, if_pos rfl]
  split_ifs <;> rfl

theorem vadState_of_false (history : List Bool) :
    (of false history).vadState = if trailing true history = 0 then .quiet else .starting := by
  rw [of, if_neg Bool.false_ne_true]
  split_ifs <;> rfl

theorem advance_of (on : Bool) (history : List Bool) (speaking : Bool) :
    (of on history).advance speaking = of on (history ++ [speaking]) := by
  -- An input that is the output ends the run against it, and any other one extends that run.
  cases on <;> cases speaking
  case false.false =>
    have hnot : trailing true (history ++ [false]) = 0 := trailing_concat_not true history
    simp only [of, hnot, Bool.false_eq_true, if_false, if_true]
    split_ifs <;> rfl
  case false.true =>
    simp only [of, trailing_concat_self, Bool.false_eq_true, if_false, Nat.succ_ne_zero]
    split_ifs with h
    · rw [h]; rfl
    · rfl
  case true.false =>
    simp only [of, trailing_concat_self, if_true, if_false, Nat.succ_ne_zero]
    split_ifs with h
    · rw [h]; rfl
    · rfl
  case true.true =>
    have hnot : trailing false (history ++ [true]) = 0 := trailing_concat_not false history
    simp only [of, hnot, if_true]
    split_ifs <;> rfl

/-- The loop over the windows only extends the history. -/
theorem foldl_advance_of (on : Bool) (history verdicts : List Bool) :
    verdicts.foldl advance (of on history) = of on (history ++ verdicts) := by
  induction verdicts generalizing history with
  | nil => rw [List.foldl_nil, List.append_nil]
  | cons speaking verdicts ih => rw [List.foldl_cons, advance_of, ih, List.append_assoc]; rfl

/-- What the first check asks of the history. -/
theorem confirmStart_of (startFrames : ℤ) (on : Bool) (history : List Bool) :
    (of on history).confirmStart startFrames =
      of (on || decide (Reached true startFrames.toNat history)) history := by
  cases on with
  | true =>
    -- A switch that is on is speaking or stopping, which the check leaves alone.
    have hstate : (of true history).vadState ≠ .starting := by
      rw [vadState_of_true]
      split_ifs <;> decide
    rw [Bool.true_or, confirmStart, if_neg fun h => hstate h.1]
  | false =>
    rw [Bool.false_or]
    by_cases htrue : trailing true history = 0
    · have hnot : ¬ Reached true startFrames.toNat history := fun h => h.pos.ne' htrue
      have hstate : (of false history).vadState ≠ .starting := by
        rw [vadState_of_false, if_pos htrue]
        decide
      rw [decide_eq_false hnot, confirmStart, if_neg fun h => hstate h.1]
    · have hfalse : trailing false history = 0 := trailing_not (b := true) (Nat.pos_of_ne_zero htrue)
      have hof : of false history = ⟨.starting, trailing true history, 0⟩ := by simp [of, htrue, init]
      have hiff : (VADState.starting = .starting ∧ (trailing true history : ℤ) ≥ startFrames) ↔
          Reached true startFrames.toNat history := by
        simp only [true_and, reached_iff]
        omega
      rw [hof, confirmStart]
      split_ifs with h
      · rw [decide_eq_true (hiff.mp h)]
        simp [of, hfalse, init]
      · rw [decide_eq_false (mt hiff.mpr h), hof]

/-- What the second check asks of the history. -/
theorem confirmStop_of (stopFrames : ℤ) (on : Bool) (history : List Bool) :
    (of on history).confirmStop stopFrames =
      of (on && !decide (Reached false stopFrames.toNat history)) history := by
  cases on with
  | false =>
    -- A switch that is off is quiet or starting.
    have hstate : (of false history).vadState ≠ .stopping := by
      rw [vadState_of_false]
      split_ifs <;> decide
    rw [Bool.false_and, confirmStop, if_neg fun h => hstate h.1]
  | true =>
    rw [Bool.true_and]
    by_cases hfalse : trailing false history = 0
    · have hnot : ¬ Reached false stopFrames.toNat history := fun h => h.pos.ne' hfalse
      have hstate : (of true history).vadState ≠ .stopping := by
        rw [vadState_of_true, if_pos hfalse]
        decide
      rw [decide_eq_false hnot, confirmStop, if_neg fun h => hstate h.1]
      rfl
    · have htrue : trailing true history = 0 := trailing_not (b := false) (Nat.pos_of_ne_zero hfalse)
      have hof : of true history = ⟨.stopping, 0, trailing false history⟩ := by simp [of, hfalse, init]
      have hiff : (VADState.stopping = .stopping ∧ (trailing false history : ℤ) ≥ stopFrames) ↔
          Reached false stopFrames.toNat history := by
        simp only [true_and, reached_iff]
        omega
      rw [hof, confirmStop]
      split_ifs with h
      · rw [decide_eq_true (hiff.mp h)]
        simp [of, htrue, init]
      · rw [decide_eq_false (mt hiff.mpr h)]
        exact hof.symm

/-- The two checks settle the switch. -/
theorem settle_of (startFrames stopFrames : ℤ) (on : Bool) (history : List Bool) :
    ((of on history).confirmStart startFrames).confirmStop stopFrames =
      of (Hysteresis.settle startFrames.toNat stopFrames.toNat on history) history := by
  rw [confirmStart_of, confirmStop_of]
  congr 1
  unfold Hysteresis.settle
  split_ifs with hup hdown
  · have hnot : ¬ Reached false stopFrames.toNat history := hup.not_reached
    rw [decide_eq_true hup, decide_eq_false hnot, Bool.or_true]
    rfl
  · rw [decide_eq_true hdown, Bool.not_true, Bool.and_false]
  · rw [decide_eq_false hup, decide_eq_false hdown, Bool.or_false, Bool.not_false, Bool.and_true]

end Machine

namespace VADAnalyzer

variable {μ : Type} {ear : Ear μ}

/-- The verdicts on windows, and what is kept of them. -/
def judgeAll (ear : Ear μ) (a : VADAnalyzer μ) : Hearing μ → List (List UInt8) → List Bool × Hearing μ
  | h, [] => ([], h)
  | h, window :: windows =>
    ((judge ear a h window).1 :: (judgeAll ear a (judge ear a h window).2 windows).1,
      (judgeAll ear a (judge ear a h window).2 windows).2)

theorem judgeAll_append (a : VADAnalyzer μ) (h : Hearing μ) (windows windows' : List (List UInt8)) :
    judgeAll ear a h (windows ++ windows') =
      ((judgeAll ear a h windows).1 ++ (judgeAll ear a (judgeAll ear a h windows).2 windows').1,
        (judgeAll ear a (judgeAll ear a h windows).2 windows').2) := by
  induction windows generalizing h with
  | nil => rfl
  | cons window windows ih => rw [List.cons_append, judgeAll, ih]; rfl

theorem length_judgeAll (a : VADAnalyzer μ) (h : Hearing μ) (windows : List (List UInt8)) :
    (judgeAll ear a h windows).1.length = windows.length := by
  induction windows generalizing h with
  | nil => rfl
  | cons window windows ih => rw [judgeAll, List.length_cons, ih, List.length_cons]

/-- The analyzer with other state, which judges windows in the same way. -/
theorem judgeAll_with (a : VADAnalyzer μ) (buffer : List UInt8) (hearing : Hearing μ) (machine : Machine)
    (h : Hearing μ) (windows : List (List UInt8)) :
    judgeAll ear { a with vadBuffer := buffer, hearing, machine } h windows = judgeAll ear a h windows := by
  induction windows generalizing h with
  | nil => rfl
  | cons window windows ih =>
    rw [judgeAll, judgeAll, ih]
    rfl

/-- The windows in the buffer of an analyzer, and what is left of it. -/
def windows (a : VADAnalyzer μ) (buffer : List UInt8) : List (List UInt8) × List UInt8 :=
  Framing.frames a.vadFramesNumBytes buffer

/-- The loop judges the windows of the buffer in their order. -/
theorem windowLoop_eq (a : VADAnalyzer μ) :
    windowLoop ear a =
      { a with
        vadBuffer := (a.windows a.vadBuffer).2
        hearing := (judgeAll ear a a.hearing (a.windows a.vadBuffer).1).2
        machine := (judgeAll ear a a.hearing (a.windows a.vadBuffer).1).1.foldl Machine.advance
          a.machine } := by
  induction a using windowLoop.induct ear with
  | case1 a hle speaking hearing hjudge ih =>
    rw [windowLoop, if_pos hle, windows, Framing.frames_of_le hle]
    simp only [hjudge, judgeAll, List.foldl_cons]
    rw [ih]
    simp only [judgeAll_with]
    rfl
  | case2 a hlt =>
    rw [windowLoop, if_neg hlt, windows, Framing.frames_of_lt (Nat.not_le.mp hlt)]
    rfl

/-- The verdicts on the windows that a buffer completes. -/
def verdicts (ear : Ear μ) (a : VADAnalyzer μ) (buffer : List UInt8) : List Bool :=
  (judgeAll ear a a.hearing (a.windows (a.vadBuffer ++ buffer)).1).1

/-- The machine of an analyzer is the one that a switch stands for. -/
structure Follows {up down : ℕ} (a : VADAnalyzer μ) (s : Switch up down) : Prop where
  up_eq : a.vadStartFrames.toNat = up
  down_eq : a.vadStopFrames.toNat = down
  machine_eq : a.machine = Machine.of s.on s.history

variable {up down : ℕ} {s : Switch up down} {a : VADAnalyzer μ}

/-- What a buffer does to an analyzer, whether or not it completes a window. -/
theorem Follows.runAnalyzer_eq (h : a.Follows s) (buffer : List UInt8) :
    runAnalyzer ear a buffer =
      { a with
        vadBuffer := (a.windows (a.vadBuffer ++ buffer)).2
        hearing := (judgeAll ear a a.hearing (a.windows (a.vadBuffer ++ buffer)).1).2
        machine := Machine.of (s.report (a.verdicts ear buffer)).on
          (s.report (a.verdicts ear buffer)).history } := by
  obtain ⟨rfl, rfl, hmachine⟩ := h
  unfold runAnalyzer
  dsimp only
  split_ifs with hlt
  · -- Without a window the checks are not made, which makes no difference to a settled switch.
    have hwindows : a.windows (a.vadBuffer ++ buffer) = ([], a.vadBuffer ++ buffer) :=
      Framing.frames_of_lt hlt
    have hverdicts : a.verdicts ear buffer = [] := by rw [verdicts, hwindows, judgeAll]
    rw [hverdicts, Switch.report_nil, hwindows, judgeAll, ← hmachine]
  · rw [windowLoop_eq]
    simp only [judgeAll_with, hmachine, Machine.foldl_advance_of, Machine.settle_of]
    rfl

/-- A buffer is a batch of verdicts. -/
theorem Follows.runAnalyzer (h : a.Follows s) (buffer : List UInt8) :
    (runAnalyzer ear a buffer).Follows (s.report (a.verdicts ear buffer)) := by
  rw [h.runAnalyzer_eq]
  exact ⟨h.up_eq, h.down_eq, rfl⟩

/-- The verdicts on batches of windows. -/
def judgeBatches (ear : Ear μ) (a : VADAnalyzer μ) :
    Hearing μ → List (List (List UInt8)) → List (List Bool)
  | _, [] => []
  | h, windows :: batches =>
    (judgeAll ear a h windows).1 :: judgeBatches ear a (judgeAll ear a h windows).2 batches

theorem flatten_judgeBatches (a : VADAnalyzer μ) (h : Hearing μ) (batches : List (List (List UInt8))) :
    (judgeBatches ear a h batches).flatten = (judgeAll ear a h batches.flatten).1 := by
  induction batches generalizing h with
  | nil => rfl
  | cons windows batches ih =>
    rw [judgeBatches, List.flatten_cons, ih, List.flatten_cons, judgeAll_append]

theorem length_le_one_of_mem_judgeBatches {a : VADAnalyzer μ} {h : Hearing μ}
    {batches : List (List (List UInt8))} (hbatches : ∀ windows ∈ batches, windows.length ≤ 1) :
    ∀ batch ∈ judgeBatches ear a h batches, batch.length ≤ 1 := by
  induction batches generalizing h with
  | nil => exact fun batch hbatch => absurd hbatch List.not_mem_nil
  | cons windows batches ih =>
    intro batch hbatch
    rw [judgeBatches, List.mem_cons] at hbatch
    rcases hbatch with rfl | hbatch
    · rw [length_judgeAll]
      exact hbatches windows List.mem_cons_self
    · exact ih (fun windows hwindows => hbatches windows (List.mem_cons_of_mem _ hwindows)) batch hbatch

theorem judgeBatches_with (a : VADAnalyzer μ) (buffer : List UInt8) (hearing : Hearing μ)
    (machine : Machine) (h : Hearing μ) (batches : List (List (List UInt8))) :
    judgeBatches ear { a with vadBuffer := buffer, hearing, machine } h batches =
      judgeBatches ear a h batches := by
  induction batches generalizing h with
  | nil => rfl
  | cons windows batches ih => rw [judgeBatches, judgeBatches, ih, judgeAll_with]

/-- The windows that each buffer of a stream completes. -/
def batches (a : VADAnalyzer μ) (buffers : List (List UInt8)) : List (List (List UInt8)) :=
  Framing.batches a.vadFramesNumBytes a.vadBuffer buffers

/-- What the buffers of a stream do: the switch takes the verdicts in the batches that they come in, and
the rest does not depend on the batches. -/
theorem Follows.foldl_runAnalyzer (h : a.Follows s) (buffers : List (List UInt8)) :
    buffers.foldl (VADAnalyzer.runAnalyzer ear) a =
      { a with
        vadBuffer := Framing.restOf a.vadFramesNumBytes a.vadBuffer buffers
        hearing := (judgeAll ear a a.hearing (a.batches buffers).flatten).2
        machine := Machine.of ((judgeBatches ear a a.hearing (a.batches buffers)).foldl Switch.report s).on
          ((judgeBatches ear a a.hearing (a.batches buffers)).foldl Switch.report s).history } := by
  induction buffers generalizing a s with
  | nil =>
    show a = { a with machine := Machine.of s.on s.history }
    rw [← h.machine_eq]
  | cons buffer buffers ih =>
    rw [List.foldl_cons, ih (h.runAnalyzer buffer), h.runAnalyzer_eq]
    simp only [judgeAll_with, judgeBatches_with, batches, Framing.batches, List.flatten_cons,
      judgeAll_append, judgeBatches, List.foldl_cons]
    rfl

/-- A new analyzer follows the switch that is off. -/
theorem follows_of_setSampleRate {params : VADParams} {model : μ} {sampleRate : ℕ}
    (h : setSampleRate params model sampleRate = .ok a) :
    a.Follows (Switch.off (framesOf params.startSecs sampleRate).toNat
      (framesOf params.stopSecs sampleRate).toNat) := by
  unfold setSampleRate at h
  split_ifs at h
  obtain rfl := Except.ok.inj h
  exact ⟨rfl, rfl, rfl⟩

theorem vadBuffer_of_setSampleRate {params : VADParams} {model : μ} {sampleRate : ℕ}
    (h : setSampleRate params model sampleRate = .ok a) : a.vadBuffer = [] := by
  unfold setSampleRate at h
  split_ifs at h
  obtain rfl := Except.ok.inj h
  rfl

end VADAnalyzer

/-! ### The analysis of a stream -/

section

open VADAnalyzer

variable {μ : Type} {ear : Ear μ} {params : VADParams} {model : μ} {sampleRate : ℕ} {a : VADAnalyzer μ}

/-- However the audio is chunked, the machine stands for a switch with hysteresis, which takes the
verdicts on the windows of the stream, each once and in order, in the batches that the buffers complete. -/
theorem machine_foldl_runAnalyzer (h : setSampleRate params model sampleRate = .ok a)
    (buffers : List (List UInt8)) :
    ∃ s : Switch (framesOf params.startSecs sampleRate).toNat (framesOf params.stopSecs sampleRate).toNat,
      s = (judgeBatches ear a a.hearing (a.batches buffers)).foldl Switch.report (Switch.off _ _) ∧
      (buffers.foldl (runAnalyzer ear) a).machine = Machine.of s.on s.history ∧
      s.history = (judgeAll ear a a.hearing (a.windows buffers.flatten).1).1 := by
  refine ⟨_, rfl, ?_, ?_⟩
  · rw [(follows_of_setSampleRate h).foldl_runAnalyzer]
  · rw [Switch.history_foldl_report, flatten_judgeBatches, batches, vadBuffer_of_setSampleRate h,
      Framing.flatten_batches]
    rfl

/-- An ear that hears speech in windows that start with a byte that is not zero, and hears them all as
loud. -/
def sampleEar : Ear Unit :=
  { confidenceReaches := fun _ window _ => (window.head? != some 0, ())
    integratedLoudness := fun _ _ => some 80 }

/-- The analyzer of a call over the phone. -/
def phoneAnalyzer : VADAnalyzer Unit :=
  { params := makeVadAnalyzer true
    sampleRate := 8000
    vadFramesNumBytes := 256 * 1 * 2
    vadStartFrames := framesOf (makeVadAnalyzer true).startSecs 8000
    vadStopFrames := framesOf (makeVadAnalyzer true).stopSecs 8000
    vadBuffer := []
    hearing := { model := (), prevVolume := 0 }
    machine := Machine.init }

theorem machine_foldl_runAnalyzer_phone :
    ∃ s : Switch (framesOf (makeVadAnalyzer true).startSecs 8000).toNat
        (framesOf (makeVadAnalyzer true).stopSecs 8000).toNat,
      ([List.replicate 300 0, List.replicate 300 1].foldl (runAnalyzer sampleEar) phoneAnalyzer).machine =
        Machine.of s.on s.history ∧
      s.history.length = 1 := by
  have hset : setSampleRate (makeVadAnalyzer true) () 8000 = .ok phoneAnalyzer := rfl
  obtain ⟨s, -, hmachine, hhistory⟩ :=
    @machine_foldl_runAnalyzer _ sampleEar _ _ _ _ hset [List.replicate 300 0, List.replicate 300 1]
  refine ⟨s, hmachine, ?_⟩
  have hlength : [List.replicate 300 (0 : UInt8), List.replicate 300 1].flatten.length = 600 := by
    decide +kernel
  rw [hhistory, length_judgeAll]
  show (Framing.frames 512 _).1.length = 1
  generalize [List.replicate 300 (0 : UInt8), List.replicate 300 1].flatten = bytes at hlength ⊢
  have hmul := Framing.length_frames_mul (n := 512) bytes
  have hrest := Framing.length_rest_lt (n := 512) bytes
  rw [hlength] at hmul
  dsimp only [PNat.val_ofNat] at hmul hrest
  omega

/-- Where no buffer is longer than a window, how the audio is chunked does not matter at all. -/
theorem foldl_runAnalyzer_congr (h : setSampleRate params model sampleRate = .ok a)
    {buffers buffers' : List (List UInt8)} (hflatten : buffers.flatten = buffers'.flatten)
    (hbuffers : ∀ buffer ∈ buffers, buffer.length ≤ a.vadFramesNumBytes)
    (hbuffers' : ∀ buffer ∈ buffers', buffer.length ≤ a.vadFramesNumBytes) :
    buffers.foldl (runAnalyzer ear) a = buffers'.foldl (runAnalyzer ear) a := by
  have hrest : a.vadBuffer.length < a.vadFramesNumBytes := by
    rw [vadBuffer_of_setSampleRate h]
    exact a.vadFramesNumBytes.pos
  have hbatches : (a.batches buffers).flatten = (a.batches buffers').flatten := by
    rw [batches, batches, vadBuffer_of_setSampleRate h, Framing.flatten_batches, Framing.flatten_batches,
      hflatten]
  have hsmall : ∀ batch ∈ judgeBatches ear a a.hearing (a.batches buffers), batch.length ≤ 1 :=
    length_le_one_of_mem_judgeBatches (Framing.length_le_one_of_mem_batches hrest hbuffers)
  have hsmall' : ∀ batch ∈ judgeBatches ear a a.hearing (a.batches buffers'), batch.length ≤ 1 :=
    length_le_one_of_mem_judgeBatches (Framing.length_le_one_of_mem_batches hrest hbuffers')
  have hverdicts : (judgeBatches ear a a.hearing (a.batches buffers)).flatten =
      (judgeBatches ear a a.hearing (a.batches buffers')).flatten := by
    rw [flatten_judgeBatches, flatten_judgeBatches, hbatches]
  rw [(follows_of_setSampleRate h).foldl_runAnalyzer, (follows_of_setSampleRate h).foldl_runAnalyzer,
    hbatches, Switch.foldl_report_congr _ hsmall hsmall' hverdicts, vadBuffer_of_setSampleRate h,
    Framing.restOf_eq, Framing.restOf_eq, hflatten]

theorem foldl_runAnalyzer_congr_phone :
    [List.replicate 300 1, List.replicate 500 1].foldl (runAnalyzer sampleEar) phoneAnalyzer =
      [List.replicate 400 1, List.replicate 400 1].foldl (runAnalyzer sampleEar) phoneAnalyzer :=
  foldl_runAnalyzer_congr
    (show setSampleRate (makeVadAnalyzer true) () 8000 = .ok phoneAnalyzer from rfl)
    (by decide +kernel) (by decide +kernel) (by decide +kernel)

end

/-! ### The signals -/

/-- The state that an output of the switch is signalled as. -/
def outputState (on : Bool) : VADState := if on then .speaking else .quiet

/-- The signal of a change of the output. -/
def Signal.of (on : Bool) : Signal := if on then .started else .stopped

section

open VADAnalyzer VADController

variable {μ : Type} {ear : Ear μ} {up down : ℕ} {s : Switch up down}

/-- A buffer is signalled if and only if it changes the output of the switch. -/
theorem signalled_iff (s : Switch up down) (batch : List Bool) {vadState : VADState}
    (hstate : vadState = (Machine.of (s.report batch).on (s.report batch).history).vadState) :
    (vadState ≠ outputState s.on ∧ vadState ≠ .starting ∧ vadState ≠ .stopping ↔
        (s.report batch).on ≠ s.on) ∧
      ((s.report batch).on ≠ s.on → vadState = outputState (s.report batch).on) := by
  by_cases hon : (s.report batch).on = s.on
  · -- The machine shows the output that was there before, or is on its way from it.
    refine ⟨⟨fun h => absurd ?_ h.1, fun h => absurd hon h⟩, fun h => absurd hon h⟩
    rw [hon] at hstate
    obtain ⟨-, hstarting, hstopping⟩ := h
    cases hs : s.on with
    | false =>
      rw [hs, Machine.vadState_of_false] at hstate
      split_ifs at hstate
      · exact hstate
      · exact absurd hstate hstarting
    | true =>
      rw [hs, Machine.vadState_of_true] at hstate
      split_ifs at hstate
      · exact hstate
      · exact absurd hstate hstopping
  · -- A change ends the run of inputs against it, so that the machine is not on its way back.
    have hnot : (s.report batch).on = !s.on := Bool.eq_not_of_ne hon
    have hzero : trailing s.on (s.report batch).history = 0 := Switch.trailing_report_of_ne hon
    have houtput : vadState = outputState (s.report batch).on := by
      rw [hstate, hnot]
      cases hs : s.on with
      | false =>
        rw [hs] at hzero
        rw [Bool.not_false, Machine.vadState_of_true, if_pos hzero]
        rfl
      | true =>
        rw [hs] at hzero
        rw [Bool.not_true, Machine.vadState_of_false, if_pos hzero]
        rfl
    refine ⟨⟨fun _ => hon, fun _ => ?_⟩, fun _ => houtput⟩
    rw [houtput, hnot]
    cases s.on <;> decide

/-! ### Signals in any interleaving -/

/-- The last signal. Before the first one, the caller has not started to speak. -/
def lastSignal (signals : List Signal) : Signal := signals.getLast?.getD .stopped

theorem lastSignal_concat (signals : List Signal) (signal : Signal) :
    lastSignal (signals ++ [signal]) = signal := by
  rw [lastSignal, List.getLast?_concat, Option.getD_some]

theorem isChain_concat {R : Signal → Signal → Prop} {signals : List Signal} {signal : Signal}
    (h : (.stopped :: signals).IsChain R) (hlast : R (lastSignal signals) signal) :
    (.stopped :: (signals ++ [signal])).IsChain R := by
  rw [← List.cons_append, List.isChain_append]
  refine ⟨h, List.isChain_singleton signal, fun x hx y hy => ?_⟩
  obtain rfl : signal = y := Option.some.inj hy
  have hx' : (Signal.stopped :: signals).getLast? = some (lastSignal signals) := by
    rw [List.getLast?_cons, lastSignal]
  obtain rfl : lastSignal signals = x := Option.some.inj (hx'.symm.trans hx)
  exact hlast

/-- Which signal may follow which: in a strict run, only the other one. -/
def MayFollow (strict : Prop) (x y : Signal) : Prop :=
  ¬ (x = .started ∧ y = .started) ∧ (strict → x ≠ y)

/-- What holds at each step: the timer may have signalled during an analysis unless the run is strict. -/
structure Paired (strict : Prop) (c : VADController μ) : Prop where
  isChain : (.stopped :: c.signals).IsChain (MayFollow strict)
  waiting :
    match c.handling with
    | none =>
      c.vadState = .quiet ∧ lastSignal c.signals = .stopped ∨
        c.vadState = .speaking ∧ (strict → lastSignal c.signals = .started)
    | some (.analyzing _ vadState) =>
      vadState = .quiet ∧ c.vadState = .quiet ∧ lastSignal c.signals = .stopped ∨
        vadState = .speaking ∧ (strict → lastSignal c.signals = .started) ∧
          (c.vadState = .speaking ∨ c.vadState = .quiet ∧ lastSignal c.signals = .stopped)
    | some (.signalling vadState) =>
      vadState = .speaking ∧ c.vadState = .quiet ∧ lastSignal c.signals = .started ∨
        vadState = .quiet ∧ lastSignal c.signals = .stopped ∧ (c.vadState = .quiet ∨ c.vadState = .speaking)

theorem paired_new (strict : Prop) (analyzer : VADAnalyzer μ) : Paired strict (new analyzer) where
  isChain := List.isChain_singleton _
  waiting := .inl ⟨rfl, rfl⟩

/-- The end of an analysis. -/
theorem Paired.analyzed {strict : Prop} {c : VADController μ} (h : Paired strict c)
    {audio : List UInt8} {vadState : VADState} (hhandling : c.handling = some (.analyzing audio vadState))
    (analyzer : VADAnalyzer μ) : Paired strict (c.handleVad analyzer vadState) := by
  have hwaiting := h.waiting
  rw [hhandling] at hwaiting
  unfold handleVad
  dsimp only
  split_ifs with hnew hspeaking
  · -- Speech has started: in the state that the analysis was called in, it had not.
    obtain ⟨rfl, hquiet, hlast⟩ | ⟨rfl, -, -⟩ := hwaiting
    · refine ⟨isChain_concat h.isChain (by rw [hlast]; exact ⟨by simp, by simp⟩),
        .inl ⟨hspeaking, hquiet, ?_⟩⟩
      exact lastSignal_concat _ _
    · exact absurd hspeaking hnew.1
  · -- It has stopped; the timer may have said so before.
    have hquiet : analyzer.machine.vadState = .quiet := by
      cases hstate : analyzer.machine.vadState with
      | quiet => rfl
      | starting => exact absurd hstate hnew.2.1
      | speaking => exact absurd hstate hspeaking
      | stopping => exact absurd hstate hnew.2.2
    obtain ⟨rfl, -, -⟩ | ⟨rfl, hstrict, hstate⟩ := hwaiting
    · exact absurd hquiet hnew.1
    · refine ⟨isChain_concat h.isChain ⟨by simp, fun hs => by rw [hstrict hs]; decide⟩,
        .inr ⟨hquiet, lastSignal_concat _ _, ?_⟩⟩
      exact hstate.symm.imp And.left id
  · refine ⟨h.isChain, ?_⟩
    obtain ⟨rfl, -, hlast⟩ | ⟨rfl, hstrict, -⟩ := hwaiting
    · exact .inl ⟨rfl, hlast⟩
    · exact .inr ⟨rfl, hstrict⟩

/-- The timer, which in a strict run does not signal while a frame is handled. -/
theorem Paired.idle {strict : Prop} {c : VADController μ} (h : Paired strict c)
    (hstrict : strict → c.handling = none) (hspeaking : c.vadState = .speaking) :
    Paired strict { c with vadState := .quiet, signals := c.signals ++ [.stopped] } := by
  have hwaiting := h.waiting
  have hnot : c.vadState ≠ .quiet := by rw [hspeaking]; decide
  have hmay : strict → lastSignal c.signals = .started := by
    intro hs
    rw [hstrict hs] at hwaiting
    obtain ⟨hquiet, -⟩ | ⟨-, hlast⟩ := hwaiting
    · exact absurd hquiet hnot
    · exact hlast hs
  refine ⟨isChain_concat h.isChain ⟨by simp, fun hs => by rw [hmay hs]; decide⟩, ?_⟩
  dsimp only
  rw [lastSignal_concat]
  match hhandling : c.handling with
  | none => exact .inl ⟨rfl, rfl⟩
  | some (.analyzing audio vadState) =>
    rw [hhandling] at hwaiting
    obtain ⟨-, hquiet, -⟩ | ⟨rfl, -, -⟩ := hwaiting
    · exact absurd hquiet hnot
    · refine .inr ⟨rfl, fun hs => ?_, .inr ⟨rfl, rfl⟩⟩
      rw [hstrict hs] at hhandling
      cases hhandling
  | some (.signalling vadState) =>
    rw [hhandling] at hwaiting
    obtain ⟨-, hquiet, -⟩ | ⟨rfl, -, -⟩ := hwaiting
    · exact absurd hquiet hnot
    · exact .inr ⟨rfl, rfl, .inl rfl⟩

theorem Paired.step {strict : Prop} {c : VADController μ} (h : Paired strict c) (e : Event)
    (hstrict : strict → e = .idle → c.handling = none) : Paired strict (c.step ear e) := by
  have hwaiting := h.waiting
  have hmove := move_step ear c e
  generalize c.step ear e = c' at hmove ⊢
  cases hmove with
  | rest => exact h
  | audio audio hhandling =>
    rw [hhandling] at hwaiting
    refine ⟨h.isChain, ?_⟩
    obtain ⟨hquiet, hlast⟩ | ⟨hspeaking, hlast⟩ := hwaiting
    · exact .inl ⟨hquiet, hquiet, hlast⟩
    · exact .inr ⟨hspeaking, hlast, .inl hspeaking⟩
  | analyzed audio vadState hhandling => exact h.analyzed hhandling _
  | signalled vadState hhandling =>
    rw [hhandling] at hwaiting
    refine ⟨h.isChain, ?_⟩
    obtain ⟨rfl, -, hlast⟩ | ⟨rfl, hlast, -⟩ := hwaiting
    · exact .inr ⟨rfl, fun _ => hlast⟩
    · exact .inl ⟨rfl, hlast⟩
  | idle hspeaking => exact h.idle (fun hs => hstrict hs rfl) hspeaking

/-- In no interleaving is speech signalled to start twice without a stop between. Where the timer does not
fire while a frame is handled, starts and stops alternate, and a start is first. -/
theorem signals_alternate (ear : Ear μ) (analyzer : VADAnalyzer μ) (es : List Event) :
    (Run.exec (VADController.step ear) (new analyzer) es).signals.IsChain
        (fun x y => ¬ (x = .started ∧ y = .started)) ∧
      (Run.Guarded (VADController.step ear) (fun c e => e = .idle → c.handling = none) (new analyzer) es →
        (.stopped :: (Run.exec (VADController.step ear) (new analyzer) es).signals).IsChain (· ≠ ·)) := by
  constructor
  · have hpaired : Paired False (Run.exec (VADController.step ear) (new analyzer) es) :=
      Run.exec_invariant (fun c e hc => hc.step e False.elim) (paired_new False analyzer) es
    exact hpaired.isChain.tail.imp fun _ _ h => h.1
  · intro hguarded
    have hpaired : Paired True (Run.exec (VADController.step ear) (new analyzer) es) :=
      Run.exec_of_guarded (fun c e hc hguard => hc.step e fun _ => hguard) (paired_new True analyzer)
        hguarded
    exact hpaired.isChain.imp fun _ _ h => h.2 trivial

/-! ### What the signals take -/

/-- The audio of an event. -/
def Event.heard : Event → List UInt8
  | .audio buffer => buffer
  | _ => []

/-- The audio that is still to be analyzed. -/
def pending (c : VADController μ) : List UInt8 :=
  match c.handling with
  | some (.analyzing audio _) => audio
  | _ => []

/-- The state that the next analysis is compared with. -/
def current (c : VADController μ) : VADState :=
  match c.handling with
  | none => c.vadState
  | some (.analyzing _ vadState) => vadState
  | some (.signalling vadState) => vadState

/-- The windows that signals take. -/
def cost (up down : ℕ) (signals : List Signal) : ℕ :=
  signals.count .started * max 1 up + signals.count .stopped * max 1 down

theorem cost_nil (up down : ℕ) : cost up down [] = 0 := by
  rw [cost, List.count_nil, List.count_nil, Nat.zero_mul, Nat.zero_mul]

theorem cost_concat (up down : ℕ) (signals : List Signal) (on : Bool) :
    cost up down (signals ++ [if outputState on = .speaking then .started else .stopped]) =
      cost up down signals + max 1 (if on then up else down) := by
  cases on
  · simp [cost, outputState, Nat.add_mul, Nat.add_assoc]
  · simp [cost, outputState, Nat.add_mul]
    omega

/-- A controller that has been given so many bytes of audio, of which the windows have paid for its
signals. -/
structure Heard (n : ℕ+) (up down : ℕ) (total : ℕ) (c : VADController μ) : Prop where
  numBytes_eq : c.analyzer.vadFramesNumBytes = n
  exists_switch : ∃ s : Switch up down, c.analyzer.Follows s ∧ s.Paid (cost up down c.signals) ∧
    current c = outputState s.on ∧
    s.history.length * n + c.analyzer.vadBuffer.length + (pending c).length ≤ total

/-- A buffer is turned into verdicts, or kept. -/
theorem length_verdicts_mul (a : VADAnalyzer μ) (buffer : List UInt8) :
    (a.verdicts ear buffer).length * a.vadFramesNumBytes +
        (a.windows (a.vadBuffer ++ buffer)).2.length = a.vadBuffer.length + buffer.length := by
  rw [verdicts, length_judgeAll, ← List.length_append]
  exact Framing.length_frames_mul (a.vadBuffer ++ buffer)

/-- The end of an analysis. -/
theorem Heard.analyzed {n : ℕ+} {total : ℕ} {c : VADController μ} (h : Heard n up down total c)
    {audio : List UInt8} {vadState : VADState} (hhandling : c.handling = some (.analyzing audio vadState)) :
    Heard n up down total (c.handleVad (c.analyzer.runAnalyzer ear audio) vadState) := by
  obtain ⟨rfl, s, hfollows, hpaid, hcurrent, hle⟩ := h
  rw [current, hhandling] at hcurrent
  obtain rfl : vadState = outputState s.on := hcurrent
  rw [pending, hhandling] at hle
  have hfollows' : (c.analyzer.runAnalyzer ear audio).Follows _ := hfollows.runAnalyzer audio
  have hbytes : (s.report (c.analyzer.verdicts ear audio)).history.length * c.analyzer.vadFramesNumBytes +
      (c.analyzer.runAnalyzer ear audio).vadBuffer.length ≤ total := by
    have hlength : (c.analyzer.verdicts ear audio).length * _ + _ = _ :=
      length_verdicts_mul c.analyzer audio
    rw [hfollows.runAnalyzer_eq, Switch.history_report, List.length_append, Nat.add_mul]
    dsimp only at hle ⊢
    omega
  have hnumBytes : (c.analyzer.runAnalyzer ear audio).vadFramesNumBytes = c.analyzer.vadFramesNumBytes := by
    rw [hfollows.runAnalyzer_eq]
  obtain ⟨hiff, houtput⟩ := signalled_iff s (c.analyzer.verdicts ear audio)
    (congrArg Machine.vadState hfollows'.machine_eq)
  unfold handleVad
  by_cases hnew : (c.analyzer.runAnalyzer ear audio).machine.vadState ≠ outputState s.on ∧
      (c.analyzer.runAnalyzer ear audio).machine.vadState ≠ .starting ∧
      (c.analyzer.runAnalyzer ear audio).machine.vadState ≠ .stopping
  · -- The signal is of a change, which has paid for itself.
    have hon := hiff.mp hnew
    rw [if_pos hnew]
    refine ⟨hnumBytes, s.report (c.analyzer.verdicts ear audio), hfollows', ?_, houtput hon, hbytes⟩
    dsimp only
    rw [houtput hon, cost_concat, Bool.eq_not_of_ne hon]
    have hthreshold : (if (!s.on) then up else down) = if s.on then down else up := by
      cases s.on <;> rfl
    rw [hthreshold]
    exact hpaid.report_of_ne hon
  · have hon : (s.report (c.analyzer.verdicts ear audio)).on = s.on := not_not.mp (mt hiff.mpr hnew)
    rw [if_neg hnew]
    exact ⟨hnumBytes, s.report (c.analyzer.verdicts ear audio), hfollows', hpaid.report_of_eq hon,
      congrArg outputState hon.symm, hbytes⟩

theorem Heard.step {n : ℕ+} {total : ℕ} {c : VADController μ} (h : Heard n up down total c) {e : Event}
    (he : e ≠ .idle) : Heard n up down (total + e.heard.length) (c.step ear e) := by
  have hmove := move_step ear c e
  generalize c.step ear e = c' at hmove ⊢
  cases hmove with
  | rest =>
    obtain ⟨hn, s, hfollows, hpaid, hcurrent, hle⟩ := h
    exact ⟨hn, s, hfollows, hpaid, hcurrent, hle.trans (Nat.le_add_right _ _)⟩
  | audio audio hhandling =>
    obtain ⟨hn, s, hfollows, hpaid, hcurrent, hle⟩ := h
    rw [current, hhandling] at hcurrent
    rw [pending, hhandling] at hle
    refine ⟨hn, s, hfollows, hpaid, hcurrent, ?_⟩
    show _ + _ + audio.length ≤ total + audio.length
    dsimp only [List.length_nil] at hle ⊢
    omega
  | analyzed audio vadState hhandling => exact h.analyzed hhandling
  | signalled vadState hhandling =>
    obtain ⟨hn, s, hfollows, hpaid, hcurrent, hle⟩ := h
    rw [current, hhandling] at hcurrent
    rw [pending, hhandling] at hle
    exact ⟨hn, s, hfollows, hpaid, hcurrent, hle⟩
  | idle hspeaking => exact absurd rfl he

theorem Heard.exec {n : ℕ+} {total : ℕ} {c : VADController μ} (h : Heard n up down total c)
    {es : List Event} (hes : .idle ∉ es) :
    Heard n up down (total + (es.flatMap Event.heard).length) (Run.exec (VADController.step ear) c es) := by
  induction es generalizing c total with
  | nil => exact h
  | cons e es ih =>
    rw [List.mem_cons, not_or] at hes
    rw [Run.exec_cons, List.flatMap_cons, List.length_append, ← Nat.add_assoc]
    exact ih (h.step (Ne.symm hes.1)) hes.2

/-- In a run in which audio does not go idle, each start and each stop takes as many windows of audio of
its own as the parameters say: the signals cannot outrun the audio, however noisy it is. -/
theorem signals_dwell {params : VADParams} {model : μ} {sampleRate : ℕ} {a : VADAnalyzer μ}
    (h : setSampleRate params model sampleRate = .ok a) {es : List Event} (hes : .idle ∉ es) :
    ((Run.exec (VADController.step ear) (new a) es).signals.count .started *
          max 1 (framesOf params.startSecs sampleRate).toNat +
        (Run.exec (VADController.step ear) (new a) es).signals.count .stopped *
          max 1 (framesOf params.stopSecs sampleRate).toNat) * a.vadFramesNumBytes ≤
      (es.flatMap Event.heard).length := by
  have hnew : Heard a.vadFramesNumBytes (framesOf params.startSecs sampleRate).toNat
      (framesOf params.stopSecs sampleRate).toNat 0 (new a) := by
    refine ⟨rfl, Switch.off _ _, follows_of_setSampleRate h, ?_, rfl, ?_⟩
    · rw [new, cost_nil]
      exact Switch.paid_off
    · show 0 * _ + a.vadBuffer.length + 0 ≤ 0
      rw [vadBuffer_of_setSampleRate h, Nat.zero_mul, List.length_nil]
  have hheard : Heard _ _ _ _ (Run.exec (VADController.step ear) (new a) es) := hnew.exec hes
  obtain ⟨-, s, -, hpaid, -, hle⟩ := hheard
  have hcost := Nat.mul_le_mul_right (a.vadFramesNumBytes : ℕ) hpaid.le
  rw [Nat.zero_add] at hle
  exact hcost.trans (by omega)

/-- In half a second of a call over the phone, no noise is signalled as speech. -/
theorem signals_dwell_phone :
    (Run.exec (VADController.step sampleEar) (new phoneAnalyzer)
      (List.replicate 25 [Event.audio (List.replicate 320 1), .analyzed, .signalled]).flatten).signals.count
        .started = 0 := by
  have hset : setSampleRate (makeVadAnalyzer true) () 8000 = .ok phoneAnalyzer := rfl
  have hes : .idle ∉
      (List.replicate 25 [Event.audio (List.replicate 320 1), .analyzed, .signalled]).flatten := by
    decide +kernel
  have h := @signals_dwell _ sampleEar _ _ _ _ hset _ hes
  rw [(framesOf_makeVadAnalyzer true (.inr rfl)).1] at h
  have hheard : ((List.replicate 25
      [Event.audio (List.replicate 320 1), .analyzed, .signalled]).flatten.flatMap Event.heard).length =
        8000 := by decide +kernel
  rw [hheard] at h
  have hbytes : (phoneAnalyzer.vadFramesNumBytes : ℕ) = 512 := rfl
  have hframes : max 1 (if true then (16 : ℤ) else 6).toNat = 16 := rfl
  rw [hbytes, hframes, Nat.add_mul] at h
  omega

end

end Pipeline.Vad
