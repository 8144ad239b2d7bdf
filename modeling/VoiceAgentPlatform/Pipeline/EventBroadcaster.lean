import VoiceAgentPlatform.Lib.Binary64
import VoiceAgentPlatform.Lib.Repush
import VoiceAgentPlatform.Pipeline.Frames
import VoiceAgentPlatform.Pipeline.Playout

/-!
# The event broadcaster

`EventBroadcaster` of `bot.py`: it turns frames into events for the monitors, records the final turns
of the user and of the bot, and feeds the playout tracker. It handles every frame once, at its first
push.

* `onPushFrame`: one push.
* `onPushFrame_ignores`: what is pushed again changes nothing.
* `llmTexts`, `botTranscript`: what the model said, and what was recorded of it.
* `EndedBeforeStart`: no response starts before the text of the one before it has been ended.
* `faithful_iff`: nothing is lost exactly for these sequences of frames.
-/

namespace Pipeline

open Run

/-- An event for the monitors. -/
inductive Event where
  | userSpeaking (value : Bool)
  | asrPartial (text : String)
  | asrFinal (text : String)
  | llmStart
  | llmDelta (text : String)
  | llmEnd (text : String)
  | ttsStart
  | ttsEnd
  | botSpeaking (value : Bool)
  deriving DecidableEq

/-- An event with its time since the start of the call. -/
structure Payload where
  event : Event
  t : ℚ
  deriving DecidableEq

inductive Speaker where
  | user
  | bot
  deriving DecidableEq

/-- A turn in the history of the call. -/
structure Turn where
  who : Speaker
  text : String
  t : ℚ
  deriving DecidableEq

/-- `EventBroadcaster`, with what it has emitted and recorded. An emit that fails and a recorder that
raises change nothing. -/
structure EventBroadcaster where
  start : ℚ
  seen : List ℕ
  llmBuffer : String
  /-- There are a recorder and a call id. -/
  recording : Bool
  playout : Option BotPlayoutTracker
  emitted : List Payload
  recorded : List Turn

/-- `_WATCHED`. -/
def FrameKind.watched : FrameKind → Bool
  | userStartedSpeaking | userStoppedSpeaking | interimTranscription _ | transcription _
  | llmFullResponseStart | llmText _ | llmFullResponseEnd | ttsStarted | ttsStopped
  | botStartedSpeaking | botStoppedSpeaking => true
  | vadUserStartedSpeaking | vadUserStoppedSpeaking | ttsAudioRaw _ | metrics _ | other => false

/-- The turn that an event adds to the history. -/
def Payload.turn? (p : Payload) : Option Turn :=
  match p.event with
  | .asrFinal text => some ⟨.user, text, p.t⟩
  | .llmEnd text => some ⟨.bot, text, p.t⟩
  | _ => none

namespace EventBroadcaster

/-- A broadcaster that has seen nothing. -/
def new (start : ℚ) (recording : Bool) (playout : Option BotPlayoutTracker) : EventBroadcaster :=
  { start, seen := [], llmBuffer := "", recording, playout, emitted := [], recorded := [] }

/-- `_send`; the time is rounded to milliseconds. -/
def send (b : EventBroadcaster) (event : Event) (now : ℚ) : EventBroadcaster :=
  let payload : Payload := ⟨event, (Binary64.roundHalfEven ((now - b.start) * 1000) : ℚ) / 1000⟩
  { b with
    emitted := b.emitted ++ [payload]
    recorded := if b.recording then b.recorded ++ payload.turn?.toList else b.recorded }

/-- The audio of the bot is counted, but it is no event. -/
def feedAudio (b : EventBroadcaster) (p : FramePushed) : EventBroadcaster :=
  match b.playout, p.frame.kind with
  | some playout, .ttsAudioRaw bytes =>
    if p.frame.id ∉ b.seen then
      { b with seen := p.frame.id :: b.seen, playout := some (playout.addAudio bytes p.now) }
    else b
  | _, _ => b

/-- What the start and the end of a turn do to the playout tracker. -/
def feedTurn (b : EventBroadcaster) (p : FramePushed) : EventBroadcaster :=
  match p.frame.kind with
  | .botStartedSpeaking => { b with playout := b.playout.map fun t => t.onBotTurnStart p.now }
  | .botStoppedSpeaking | .userStartedSpeaking =>
    { b with playout := b.playout.map BotPlayoutTracker.onBotTurnEnd }
  | _ => b

/-- The event of a watched frame. -/
def broadcast (b : EventBroadcaster) (p : FramePushed) : EventBroadcaster :=
  match p.frame.kind with
  | .userStartedSpeaking => b.send (.userSpeaking true) p.now
  | .userStoppedSpeaking => b.send (.userSpeaking false) p.now
  | .interimTranscription text => b.send (.asrPartial text) p.now
  | .transcription text => b.send (.asrFinal text) p.now
  -- The deltas of a response are gathered for its end.
  | .llmFullResponseStart => { b with llmBuffer := "" }.send .llmStart p.now
  | .llmText text => { b with llmBuffer := b.llmBuffer ++ text }.send (.llmDelta text) p.now
  | .llmFullResponseEnd => { b.send (.llmEnd b.llmBuffer) p.now with llmBuffer := "" }
  | .ttsStarted => b.send .ttsStart p.now
  | .ttsStopped => b.send .ttsEnd p.now
  | .botStartedSpeaking => b.send (.botSpeaking true) p.now
  | .botStoppedSpeaking => b.send (.botSpeaking false) p.now
  | _ => b

/-- `on_push_frame`. -/
def onPushFrame (b : EventBroadcaster) (p : FramePushed) : EventBroadcaster :=
  let b := b.feedAudio p
  if !p.frame.kind.watched then b
  else if p.frame.id ∈ b.seen then b
  else
    let b := { b with seen := p.frame.id :: b.seen }
    (b.feedTurn p).broadcast p

/-- The broadcaster has handled a frame, or does not handle it at all. -/
def Seen (b : EventBroadcaster) (frame : Frame) : Prop :=
  frame.kind.watched = true ∨ (b.playout.isSome = true ∧ ∃ bytes, frame.kind = .ttsAudioRaw bytes) →
    frame.id ∈ b.seen

/-! ### One push -/

variable {b : EventBroadcaster} {p : FramePushed}

theorem seen_broadcast : (b.broadcast p).seen = b.seen := by
  rw [broadcast]
  split <;> rfl

theorem playout_broadcast : (b.broadcast p).playout = b.playout := by
  rw [broadcast]
  split <;> rfl

theorem seen_feedTurn : (b.feedTurn p).seen = b.seen := by
  rw [feedTurn]
  split <;> rfl

theorem playout_isSome_feedTurn : (b.feedTurn p).playout.isSome = b.playout.isSome := by
  rw [feedTurn]
  split
  · exact Option.isSome_map
  · exact Option.isSome_map
  · exact Option.isSome_map
  · rfl

theorem feedAudio_of_watched (h : p.frame.kind.watched = true) : b.feedAudio p = b := by
  rw [feedAudio]
  split
  next heq =>
    rw [heq] at h
    exact absurd h nofun
  next => rfl

theorem playout_isSome_feedAudio : (b.feedAudio p).playout.isSome = b.playout.isSome := by
  rw [feedAudio]
  split
  next hplayout _ =>
    split_ifs
    · rfl
    · rw [hplayout]
      rfl
  next => rfl

theorem seen_feedAudio_subset : b.seen ⊆ (b.feedAudio p).seen := by
  rw [feedAudio]
  split
  · split_ifs
    · exact List.Subset.refl _
    · exact List.subset_cons_self _ _
  · exact List.Subset.refl _

/-- The first push of a watched frame. -/
theorem onPushFrame_of_watched (h : p.frame.kind.watched = true) (hnew : p.frame.id ∉ b.seen) :
    b.onPushFrame p = ({ b with seen := p.frame.id :: b.seen }.feedTurn p).broadcast p := by
  rw [onPushFrame, feedAudio_of_watched h, h]
  exact if_neg hnew

theorem onPushFrame_of_not_watched (h : p.frame.kind.watched = false) :
    b.onPushFrame p = b.feedAudio p := by
  rw [onPushFrame, h]
  rfl

theorem onPushFrame_of_mem (h : p.frame.kind.watched = true) (hold : p.frame.id ∈ b.seen) :
    b.onPushFrame p = b := by
  rw [onPushFrame, feedAudio_of_watched h, h]
  exact if_pos hold

theorem seen_onPushFrame_subset : b.seen ⊆ (b.onPushFrame p).seen := by
  rcases hwatched : p.frame.kind.watched with _ | _
  · rw [onPushFrame_of_not_watched hwatched]
    exact seen_feedAudio_subset
  · by_cases hold : p.frame.id ∈ b.seen
    · rw [onPushFrame_of_mem hwatched hold]
      exact List.Subset.refl _
    · rw [onPushFrame_of_watched hwatched hold, seen_broadcast, seen_feedTurn]
      exact List.subset_cons_self _ _

theorem playout_isSome_onPushFrame : (b.onPushFrame p).playout.isSome = b.playout.isSome := by
  rcases hwatched : p.frame.kind.watched with _ | _
  · rw [onPushFrame_of_not_watched hwatched]
    exact playout_isSome_feedAudio
  · by_cases hold : p.frame.id ∈ b.seen
    · rw [onPushFrame_of_mem hwatched hold]
    · rw [onPushFrame_of_watched hwatched hold, playout_broadcast, playout_isSome_feedTurn]

/-- A frame that is pushed again is ignored. -/
theorem onPushFrame_ignores : Ignores onPushFrame FramePushed.frame Seen where
  ignores b p h := by
    rcases hwatched : p.frame.kind.watched with _ | _
    · rw [onPushFrame_of_not_watched hwatched, feedAudio]
      split
      next hplayout haudio =>
        -- Audio that the tracker has counted is in the set of the frames seen.
        have hold := h (Or.inr ⟨by rw [hplayout]; rfl, _, haudio⟩)
        exact if_neg (not_not.mpr hold)
      next => rfl
    · exact onPushFrame_of_mem hwatched (h (Or.inl hwatched))
  marks b p := by
    rintro (hwatched | ⟨hplayout, bytes, haudio⟩)
    · by_cases hold : p.frame.id ∈ b.seen
      · exact seen_onPushFrame_subset hold
      · rw [onPushFrame_of_watched hwatched hold, seen_broadcast, seen_feedTurn]
        exact List.mem_cons_self
    · have hwatched : p.frame.kind.watched = false := by
        rw [haudio]
        rfl
      rw [playout_isSome_onPushFrame] at hplayout
      obtain ⟨playout, hplayout⟩ := Option.isSome_iff_exists.mp hplayout
      rw [onPushFrame_of_not_watched hwatched, feedAudio, hplayout, haudio]
      by_cases hold : p.frame.id ∈ b.seen
      · simp [hold]
      · simp [hold]
  keeps b p frame h := by
    intro hhandled
    rw [playout_isSome_onPushFrame] at hhandled
    exact seen_onPushFrame_subset (h hhandled)

end EventBroadcaster

/-! ### The transcript -/

/-- The text of the model in a frame. -/
def FrameKind.llmText? : FrameKind → Option String
  | llmText text => some text
  | _ => none

/-- What the model said. -/
def llmTexts (pushes : List FramePushed) : String :=
  String.join (pushes.filterMap fun p => p.frame.kind.llmText?)

/-- What was recorded of the bot. -/
def botTranscript (turns : List Turn) : String :=
  String.join ((turns.filter fun turn => turn.who = .bot).map Turn.text)

/-- Whether some text has been pushed since the last response ended. -/
def awaitsEnd (awaiting : Bool) (p : FramePushed) : Bool :=
  match p.frame.kind with
  | .llmText text => awaiting || text ≠ ""
  | .llmFullResponseEnd => false
  | _ => awaiting

/-- No response starts before the text of the responses before it has been ended. -/
def EndedBeforeStart (pushes : List FramePushed) : Prop :=
  Guarded awaitsEnd (fun awaiting p => p.frame.kind = .llmFullResponseStart → awaiting = false) false
    pushes

instance (pushes : List FramePushed) : Decidable (EndedBeforeStart pushes) :=
  Guarded.decidable false pushes

/-- Distinct frames. -/
structure FrameSequence where
  pushes : List FramePushed
  distinct : (pushes.map fun p => p.frame.id).Nodup

/-- Every text of the model is followed by the end of a response. -/
def FrameSequence.Closed (frames : FrameSequence) : Prop :=
  ∀ pre p text post, frames.pushes = pre ++ p :: post → p.frame.kind = .llmText text →
    ∃ q ∈ post, q.frame.kind = .llmFullResponseEnd

/-- What of the texts in the buffer and of the frames to come is recorded. -/
def recordedTexts : String → List FramePushed → String
  | _, [] => ""
  | buffer, p :: pushes =>
    match p.frame.kind with
    | .llmFullResponseStart => recordedTexts "" pushes
    | .llmText text => recordedTexts (buffer ++ text) pushes
    | .llmFullResponseEnd => buffer ++ recordedTexts "" pushes
    | _ => recordedTexts buffer pushes

namespace EventBroadcaster

theorem botTranscript_append (turns turns' : List Turn) :
    botTranscript (turns ++ turns') = botTranscript turns ++ botTranscript turns' := by
  simp [botTranscript, String.join_append]

variable {b : EventBroadcaster} {p : FramePushed}

theorem recordedTexts_of_not_watched (h : p.frame.kind.watched = false) (buffer : String)
    (pushes : List FramePushed) : recordedTexts buffer (p :: pushes) = recordedTexts buffer pushes := by
  rw [recordedTexts]
  split
  next hkind => exact absurd (hkind ▸ h) nofun
  next hkind => exact absurd (hkind ▸ h) nofun
  next hkind => exact absurd (hkind ▸ h) nofun
  next => rfl

/-- Audio is not recorded. -/
theorem recorded_feedAudio :
    (b.feedAudio p).recorded = b.recorded ∧ (b.feedAudio p).llmBuffer = b.llmBuffer ∧
      (b.feedAudio p).recording = b.recording ∧ (b.feedAudio p).seen ⊆ p.frame.id :: b.seen := by
  rw [feedAudio]
  split
  · split_ifs
    · exact ⟨rfl, rfl, rfl, List.subset_cons_self _ _⟩
    · exact ⟨rfl, rfl, rfl, List.Subset.refl _⟩
  · exact ⟨rfl, rfl, rfl, List.subset_cons_self _ _⟩

theorem seen_onPushFrame_subset_cons : (b.onPushFrame p).seen ⊆ p.frame.id :: b.seen := by
  rcases hwatched : p.frame.kind.watched with _ | _
  · rw [onPushFrame_of_not_watched hwatched]
    exact recorded_feedAudio.2.2.2
  · by_cases hold : p.frame.id ∈ b.seen
    · rw [onPushFrame_of_mem hwatched hold]
      exact List.subset_cons_self _ _
    · rw [onPushFrame_of_watched hwatched hold, seen_broadcast, seen_feedTurn]
      exact List.Subset.refl _

/-- Of distinct frames the later ones stay new. -/
theorem notMem_seen_onPushFrame {pushes : List FramePushed}
    (hdistinct : ((p :: pushes).map fun p => p.frame.id).Nodup)
    (hnew : ∀ q ∈ pushes, q.frame.id ∉ b.seen) :
    ∀ q ∈ pushes, q.frame.id ∉ (b.onPushFrame p).seen := by
  intro q hq hmem
  rw [List.map_cons, List.nodup_cons] at hdistinct
  rcases List.mem_cons.mp (seen_onPushFrame_subset_cons hmem) with heq | hold
  · exact hdistinct.1 (heq ▸ List.mem_map_of_mem hq)
  · exact hnew q hq hold

theorem recorded_feedTurn :
    (b.feedTurn p).recorded = b.recorded ∧ (b.feedTurn p).llmBuffer = b.llmBuffer ∧
      (b.feedTurn p).recording = b.recording := by
  rw [feedTurn]
  split <;> exact ⟨rfl, rfl, rfl⟩

theorem botTranscript_user (text : String) (t : ℚ) : botTranscript [⟨.user, text, t⟩] = "" := rfl

theorem botTranscript_bot (text : String) (t : ℚ) : botTranscript [⟨.bot, text, t⟩] = text := by
  simp [botTranscript]

/-- What the event of a frame does to the buffer and to the transcript. -/
theorem recordedTexts_broadcast (hrecording : b.recording = true) (pushes : List FramePushed) :
    botTranscript (b.broadcast p).recorded ++ recordedTexts (b.broadcast p).llmBuffer pushes =
      botTranscript b.recorded ++ recordedTexts b.llmBuffer (p :: pushes) := by
  rw [broadcast, recordedTexts]
  split <;> simp [send, Payload.turn?, botTranscript_append, botTranscript_user, botTranscript_bot,
    String.append_assoc, *]

theorem recording_broadcast : (b.broadcast p).recording = b.recording := by
  rw [broadcast]
  split <;> rfl

/-- What the first push of a frame does to the buffer and to the transcript. -/
theorem recordedTexts_onPushFrame (hrecording : b.recording = true) (hnew : p.frame.id ∉ b.seen)
    (pushes : List FramePushed) :
    botTranscript (b.onPushFrame p).recorded ++
        recordedTexts (b.onPushFrame p).llmBuffer pushes =
      botTranscript b.recorded ++ recordedTexts b.llmBuffer (p :: pushes) ∧
    (b.onPushFrame p).recording = true := by
  rcases hwatched : p.frame.kind.watched with _ | _
  · obtain ⟨hrecorded, hbuffer, hrec, -⟩ := recorded_feedAudio (b := b) (p := p)
    rw [onPushFrame_of_not_watched hwatched, recordedTexts_of_not_watched hwatched, hrecorded, hbuffer]
    exact ⟨rfl, hrec.trans hrecording⟩
  · obtain ⟨hrecorded, hbuffer, hrec⟩ :=
      recorded_feedTurn (b := { b with seen := p.frame.id :: b.seen }) (p := p)
    rw [onPushFrame_of_watched hwatched hnew, recordedTexts_broadcast (hrec.trans hrecording), hrecorded,
      hbuffer, recording_broadcast, hrec]
    exact ⟨rfl, hrecording⟩

/-- The transcript of a run over new and distinct frames. -/
theorem botTranscript_exec (hrecording : b.recording = true) {pushes : List FramePushed}
    (hdistinct : (pushes.map fun p => p.frame.id).Nodup) (hnew : ∀ p ∈ pushes, p.frame.id ∉ b.seen) :
    botTranscript (exec onPushFrame b pushes).recorded =
      botTranscript b.recorded ++ recordedTexts b.llmBuffer pushes := by
  induction pushes generalizing b with
  | nil => exact (String.append_empty).symm
  | cons p pushes ih =>
    obtain ⟨hp, hnew⟩ := List.forall_mem_cons.mp hnew
    obtain ⟨htexts, hrecording⟩ := recordedTexts_onPushFrame hrecording hp pushes
    rw [exec_cons, ih hrecording hdistinct.of_cons (notMem_seen_onPushFrame hdistinct hnew), htexts]

end EventBroadcaster

theorem llmTexts_cons (p : FramePushed) (pushes : List FramePushed) :
    llmTexts (p :: pushes) = (p.frame.kind.llmText?.getD "") ++ llmTexts pushes := by
  rw [llmTexts, List.filterMap_cons]
  match p.frame.kind.llmText? with
  | none => exact (String.empty_append).symm
  | some text => exact String.join_cons

/-- No text is recorded twice. -/
theorem length_recordedTexts_le (buffer : String) (pushes : List FramePushed) :
    (recordedTexts buffer pushes).length ≤ buffer.length + (llmTexts pushes).length := by
  induction pushes generalizing buffer with
  | nil => exact Nat.zero_le _
  | cons p pushes ih =>
    rw [llmTexts_cons, String.length_append, recordedTexts]
    split
    next hkind =>
      have := ih ""
      rw [String.length_empty] at this
      omega
    next text hkind =>
      have := ih (buffer ++ text)
      rw [String.length_append] at this
      rw [hkind]
      -- The text goes into the buffer.
      show _ ≤ buffer.length + (text.length + _)
      omega
    next hkind =>
      have := ih ""
      rw [String.length_empty] at this
      rw [String.length_append]
      omega
    next =>
      have := ih buffer
      omega

/-- The frames keep every text exactly if no response starts while the buffer has text in it. -/
theorem recordedTexts_eq_iff {buffer : String} {pushes : List FramePushed}
    (hbuffer : buffer ≠ "" → ∃ q ∈ pushes, q.frame.kind = .llmFullResponseEnd)
    (hclosed : ∀ pre p text post, pushes = pre ++ p :: post → p.frame.kind = .llmText text →
      ∃ q ∈ post, q.frame.kind = .llmFullResponseEnd) :
    recordedTexts buffer pushes = buffer ++ llmTexts pushes ↔
      Guarded awaitsEnd (fun awaiting p => p.frame.kind = .llmFullResponseStart → awaiting = false)
        (buffer ≠ "") pushes := by
  induction pushes generalizing buffer with
  | nil =>
    have hempty : buffer = "" := by
      by_contra hne
      obtain ⟨q, hq, -⟩ := hbuffer hne
      exact List.not_mem_nil hq
    rw [hempty]
    exact iff_of_true rfl trivial
  | cons p pushes ih =>
    have hrest : ∀ pre q text post, pushes = pre ++ q :: post → q.frame.kind = .llmText text →
        ∃ r ∈ post, r.frame.kind = .llmFullResponseEnd :=
      fun pre q text post heq => hclosed (p :: pre) q text post (congrArg (p :: ·) heq)
    have hmore (hend : p.frame.kind ≠ .llmFullResponseEnd) :
        buffer ≠ "" → ∃ q ∈ pushes, q.frame.kind = .llmFullResponseEnd := by
      intro hne
      obtain ⟨q, hq, hkind⟩ := hbuffer hne
      rcases List.mem_cons.mp hq with rfl | hq
      · exact absurd hkind hend
      · exact ⟨q, hq, hkind⟩
    rw [Guarded, llmTexts_cons, recordedTexts]
    split
    next hkind =>
      -- What is in the buffer is thrown away.
      have hsame : awaitsEnd (decide (buffer ≠ "")) p = decide (buffer ≠ "") := by
        rw [awaitsEnd, hkind]
      rw [hsame, hkind]
      show recordedTexts "" pushes = buffer ++ ("" ++ llmTexts pushes) ↔ _
      rw [String.empty_append]
      by_cases hempty : buffer = ""
      · have hih := @ih buffer (fun hne => absurd hempty hne) hrest
        simpa [hempty] using hih
      · refine iff_of_false (fun heq => ?_) fun h => hempty (by simpa using h.1 rfl)
        have hlength := congrArg String.length heq
        have hle := length_recordedTexts_le "" pushes
        have hpos : buffer.length ≠ 0 := by simpa [String.length_eq_zero_iff] using hempty
        rw [String.length_append] at hlength
        rw [String.length_empty] at hle
        omega
    next text hkind =>
      have hnext : awaitsEnd (decide (buffer ≠ "")) p = decide (buffer ++ text ≠ "") := by
        rw [awaitsEnd, hkind]
        simp [String.append_eq_empty_iff, imp_iff_not_or]
      rw [hnext, hkind]
      show recordedTexts (buffer ++ text) pushes = buffer ++ (text ++ llmTexts pushes) ↔ _
      rw [← String.append_assoc, ih (fun _ => hclosed [] p text pushes rfl hkind) hrest]
      exact ⟨fun h => ⟨fun hkind => (by cases hkind), h⟩, fun h => h.2⟩
    next hkind =>
      have hnext : awaitsEnd (decide (buffer ≠ "")) p = decide ("" ≠ "") := by
        rw [awaitsEnd, hkind]
        simp
      rw [hnext, hkind]
      show buffer ++ recordedTexts "" pushes = buffer ++ ("" ++ llmTexts pushes) ↔ _
      rw [String.append_right_inj, ih (fun hne => absurd rfl hne) hrest]
      exact ⟨fun h => ⟨fun hkind => (by cases hkind), h⟩, fun h => h.2⟩
    next hstart htext hend =>
      have hsame : awaitsEnd (decide (buffer ≠ "")) p = decide (buffer ≠ "") := by
        rw [awaitsEnd]
        split
        next hkind => exact absurd hkind (htext _)
        next hkind => exact absurd hkind hend
        next => rfl
      have hnone : p.frame.kind.llmText? = none := by
        rw [FrameKind.llmText?]
        exact htext
      rw [hsame, hnone]
      show recordedTexts buffer pushes = buffer ++ ("" ++ llmTexts pushes) ↔ _
      rw [String.empty_append, ih (hmore hend) hrest]
      exact ⟨fun h => ⟨fun hkind => absurd hkind hstart, h⟩, fun h => h.2⟩

open EventBroadcaster in
/-- **Faithful transcripts.** Frames that are pushed again change neither the events nor the history;
and if every text is ended at some point, the history has the texts of the model exactly if no response
starts before. -/
theorem faithful_iff (start : ℚ) (playout : Option BotPlayoutTracker) (frames : FrameSequence) :
    (∀ recording pushed, Repushed FramePushed.frame [] frames.pushes pushed →
      (exec onPushFrame (new start recording playout) pushed).emitted =
          (exec onPushFrame (new start recording playout) frames.pushes).emitted ∧
        (exec onPushFrame (new start recording playout) pushed).recorded =
          (exec onPushFrame (new start recording playout) frames.pushes).recorded) ∧
    (frames.Closed →
      (botTranscript (exec onPushFrame (new start true playout) frames.pushes).recorded =
        llmTexts frames.pushes ↔ EndedBeforeStart frames.pushes)) := by
  constructor
  · intro recording pushed hpushed
    rw [onPushFrame_ignores.exec_repushed hpushed fun _ hk => absurd hk List.not_mem_nil]
    exact ⟨rfl, rfl⟩
  · intro hclosed
    -- The buffer is empty at the start, and at the end of the sequence.
    have htexts := @recordedTexts_eq_iff "" _ (fun hne => absurd rfl hne) hclosed
    rw [String.empty_append] at htexts
    rw [botTranscript_exec rfl frames.distinct fun _ _ => List.not_mem_nil]
    show "" ++ recordedTexts "" frames.pushes = _ ↔ _
    rw [String.empty_append, htexts]
    rfl

theorem FrameSequence.closed_of_getLast? {frames : FrameSequence} {q : FramePushed}
    (hlast : frames.pushes.getLast? = some q) (hq : q.frame.kind = .llmFullResponseEnd) :
    frames.Closed := by
  intro pre p text post heq hkind
  rw [heq, List.getLast?_append_of_ne_nil _ (List.cons_ne_nil p post)] at hlast
  rcases List.mem_cons.mp (List.mem_of_getLast? hlast) with rfl | hmem
  · exact absurd (hkind.symm.trans hq) nofun
  · exact ⟨q, hmem, hq⟩

/-- A response and, interrupted, its successor. -/
def twoResponses : FrameSequence where
  pushes :=
    [⟨⟨1, .llmFullResponseStart⟩, 0⟩, ⟨⟨2, .llmText "Hello."⟩, 0⟩, ⟨⟨3, .llmFullResponseEnd⟩, 1⟩,
      ⟨⟨4, .userStartedSpeaking⟩, 1⟩, ⟨⟨5, .llmFullResponseStart⟩, 2⟩, ⟨⟨6, .llmText "Bye."⟩, 2⟩,
      ⟨⟨7, .llmFullResponseEnd⟩, 2⟩]
  distinct := by decide

theorem faithful_iff_twoResponses :
    botTranscript (exec EventBroadcaster.onPushFrame (.new 0 true none) twoResponses.pushes).recorded =
      llmTexts twoResponses.pushes :=
  ((faithful_iff 0 none twoResponses).2 (FrameSequence.closed_of_getLast? rfl rfl)).mpr
    (by decide +kernel)

/-- The second response starts before the first one has been ended. -/
def overlapping : FrameSequence where
  pushes :=
    [⟨⟨1, .llmFullResponseStart⟩, 0⟩, ⟨⟨2, .llmText "Hello."⟩, 0⟩, ⟨⟨3, .userStartedSpeaking⟩, 1⟩,
      ⟨⟨4, .llmFullResponseStart⟩, 2⟩, ⟨⟨5, .llmFullResponseEnd⟩, 2⟩, ⟨⟨6, .llmText "Bye."⟩, 2⟩,
      ⟨⟨7, .llmFullResponseEnd⟩, 2⟩]
  distinct := by decide

/-- The text of the first response is lost. -/
theorem overlapping_lost :
    overlapping.Closed ∧ llmTexts overlapping.pushes = "Hello.Bye." ∧
      botTranscript (exec EventBroadcaster.onPushFrame (.new 0 true none) overlapping.pushes).recorded =
        "Bye." := by
  refine ⟨FrameSequence.closed_of_getLast? rfl rfl, ?_, ?_⟩
  · decide +kernel
  · decide +kernel

end Pipeline
