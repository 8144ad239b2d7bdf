import Mathlib.Data.Rat.Defs

/-!
# Frames

What the observers of a pipeline see: every push of a frame from one processor to the next. A frame
crosses many processors, so that it is pushed many times; its id tells which pushes are of one frame.
-/

namespace Pipeline

/-- An item of a metrics frame. -/
inductive MetricsItem where
  | ttfb (processor : String) (value : ℚ)
  | llmUsage (promptTokens completionTokens totalTokens : ℕ)
  | ttsUsage (value : ℕ)
  | other
  deriving DecidableEq

/-- The classes of frames that some observer looks at. -/
inductive FrameKind where
  | userStartedSpeaking
  | userStoppedSpeaking
  | vadUserStartedSpeaking
  | vadUserStoppedSpeaking
  | interimTranscription (text : String)
  | transcription (text : String)
  | llmFullResponseStart
  | llmText (text : String)
  | llmFullResponseEnd
  | ttsStarted
  | ttsStopped
  /-- Audio of the bot, with the number of its bytes. -/
  | ttsAudioRaw (bytes : ℕ)
  | botStartedSpeaking
  | botStoppedSpeaking
  | metrics (data : List MetricsItem)
  | other
  deriving DecidableEq

structure Frame where
  id : ℕ
  kind : FrameKind
  deriving DecidableEq

/-- A push of a frame, with the clock at this moment. -/
structure FramePushed where
  frame : Frame
  now : ℚ
  deriving DecidableEq

end Pipeline
