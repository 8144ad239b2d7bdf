import Mathlib.Logic.Function.Basic
import VoiceAgentPlatform.Lib.Binary64
import VoiceAgentPlatform.Pipeline.EventBroadcaster

/-!
# The latency observer

`latency_observer.py`: the frames of a call are grouped into turns, which a user's start opens and the
next start of the bot closes, and every closed turn is recorded with the times of its stages.

* `onPushFrame`: one push.
* `closedTurns`: the turns of distinct frames.
* `AudioHistory`: the audio that was pushed, within turns and between them.
* `written_iff`: the records are those of the turns exactly if no audio from between the turns is pushed
  again in a turn before its own audio.
-/

namespace Pipeline

open Run

/-- The keys of `_ts`. -/
inductive Stage where
  | userStart
  | userStop
  | asrFinal
  | llmStart
  | llmFirst
  | llmEnd
  | ttsStart
  | ttsFirstAudio
  | botStart
  deriving DecidableEq

/-- `_svc`. -/
structure ServiceMetrics where
  llmTtfbMs : Option ℤ
  ttsTtfbMs : Option ℤ
  tokens : Option (ℕ × ℕ × ℕ)
  ttsChars : Option ℕ
  deriving DecidableEq

/-- What is stamped onto every record. -/
structure CallContext where
  callId : Option String
  engine : Option String
  scenario : Option String
  lang : Option String
  deriving DecidableEq

/-- A record of a closed turn, without the date, and with the times of the stages that its latencies
are computed from. -/
structure LatencyRecord where
  context : CallContext
  turnId : ℕ
  ts : Stage → Option ℚ
  svc : ServiceMetrics

/-- `_ms`. -/
def ms (later earlier : Option ℚ) : Option ℤ :=
  later.bind fun later => earlier.map fun earlier =>
    Binary64.roundHalfEven ((later - earlier) * 1000)

namespace LatencyRecord

def e2eMs (r : LatencyRecord) : Option ℤ := ms (r.ts .botStart) (r.ts .userStop)
def sttMs (r : LatencyRecord) : Option ℤ := ms (r.ts .asrFinal) (r.ts .userStop)
def llmTtftMs (r : LatencyRecord) : Option ℤ := ms (r.ts .llmFirst) (r.ts .asrFinal)
def llmTotalMs (r : LatencyRecord) : Option ℤ := ms (r.ts .llmEnd) (r.ts .llmStart)
def ttsTtfbMs (r : LatencyRecord) : Option ℤ := ms (r.ts .ttsFirstAudio) (r.ts .ttsStart)

end LatencyRecord

/-- The stage whose time a frame marks. -/
def FrameKind.stage? : FrameKind → Option Stage
  | userStartedSpeaking => some .userStart
  | userStoppedSpeaking => some .userStop
  | transcription _ => some .asrFinal
  | llmFullResponseStart => some .llmStart
  | llmText _ => some .llmFirst
  | llmFullResponseEnd => some .llmEnd
  | ttsStarted => some .ttsStart
  | ttsAudioRaw _ => some .ttsFirstAudio
  | botStartedSpeaking => some .botStart
  | _ => none

/-- `_BOUNDARY_FRAMES`. -/
def FrameKind.boundary : FrameKind → Bool
  | userStartedSpeaking | userStoppedSpeaking | transcription _ | llmFullResponseStart | llmText _
  | llmFullResponseEnd | ttsStarted | botStartedSpeaking => true
  | _ => false

/-- The service metrics with one item more; of times to the first byte the first one counts. -/
def ServiceMetrics.consume (svc : ServiceMetrics) : MetricsItem → ServiceMetrics
  | .ttfb processor value =>
    let name := processor.toUpper.toList
    let valMs := Binary64.roundHalfEven (value * 1000)
    if ['L', 'L', 'M'] <:+: name then
      if svc.llmTtfbMs = none then { svc with llmTtfbMs := some valMs } else svc
    else if ['T', 'T', 'S'] <:+: name then
      if svc.ttsTtfbMs = none then { svc with ttsTtfbMs := some valMs } else svc
    else svc
  | .llmUsage prompt completion total => { svc with tokens := some (prompt, completion, total) }
  | .ttsUsage value => { svc with ttsChars := some value }
  | .other => svc

/-- `_consume_metrics`. -/
def ServiceMetrics.consumeMetrics (svc : ServiceMetrics) (data : List MetricsItem) : ServiceMetrics :=
  data.foldl consume svc

/-- `LatencyObserver`, with what it has written to its log and emitted. -/
structure LatencyObserver where
  context : CallContext
  seen : List ℕ
  turnId : ℕ
  turnOpen : Bool
  ts : Stage → Option ℚ
  svc : ServiceMetrics
  written : List LatencyRecord

namespace LatencyObserver

def new (context : CallContext) : LatencyObserver :=
  { context, seen := [], turnId := 0, turnOpen := false, ts := fun _ => none
    svc := ⟨none, none, none, none⟩, written := [] }

/-- `_mark`. -/
def mark (o : LatencyObserver) (key : Stage) (now : ℚ) : LatencyObserver :=
  if o.ts key = none then { o with ts := Function.update o.ts key (some now) } else o

/-- `_on_user_started`. -/
def onUserStarted (o : LatencyObserver) (now : ℚ) : LatencyObserver :=
  { o with
    turnId := o.turnId + 1
    turnOpen := true
    ts := Function.update (fun _ => none) .userStart (some now)
    svc := ⟨none, none, none, none⟩ }

/-- `_build_record`. -/
def buildRecord (o : LatencyObserver) : LatencyRecord := ⟨o.context, o.turnId, o.ts, o.svc⟩

/-- `_on_bot_started`. -/
def onBotStarted (o : LatencyObserver) (now : ℚ) : LatencyObserver :=
  if !o.turnOpen then o
  else
    let o := o.mark .botStart now
    { o with turnOpen := false, written := o.written ++ [o.buildRecord] }

/-- The frame is seen. -/
def see (o : LatencyObserver) (p : FramePushed) : LatencyObserver :=
  { o with seen := p.frame.id :: o.seen }

/-- `on_push_frame`. -/
def onPushFrame (o : LatencyObserver) (p : FramePushed) : LatencyObserver :=
  match p.frame.kind with
  | .metrics data =>
    if p.frame.id ∈ o.seen then o else { o.see p with svc := o.svc.consumeMetrics data }
  | .ttsAudioRaw _ =>
    -- Between the turns the frame is not seen.
    if o.turnOpen && p.frame.id ∉ o.seen then (o.see p).mark .ttsFirstAudio p.now else o
  | kind =>
    if !kind.boundary then o
    else if p.frame.id ∈ o.seen then o
    else
      match kind with
      | .userStartedSpeaking => (o.see p).onUserStarted p.now
      | .botStartedSpeaking => (o.see p).onBotStarted p.now
      | kind =>
        match o.turnOpen, kind.stage? with
        | true, some stage => (o.see p).mark stage p.now
        | _, _ => o.see p

end LatencyObserver

/-! ### Turns -/

/-- The frames of the turn that is open, if one is; turns are numbered from 1 on. -/
structure TurnState where
  turnId : ℕ
  frames : Option (List FramePushed)

/-- A turn that a start of the bot has closed, with its frames from the user's start on. -/
structure ClosedTurn where
  turnId : ℕ
  frames : List FramePushed

namespace TurnState

/-- A frame that was not pushed before: a user's start opens the next turn, whether one is open or not, a
start of the bot closes the one that is open. -/
def push (t : TurnState) (p : FramePushed) : TurnState :=
  match p.frame.kind with
  | .userStartedSpeaking => ⟨t.turnId + 1, some [p]⟩
  | .botStartedSpeaking => { t with frames := none }
  | _ => { t with frames := t.frames.map (· ++ [p]) }

/-- The turn that a frame closes. -/
def closed (t : TurnState) (p : FramePushed) : Option ClosedTurn :=
  match p.frame.kind with
  | .botStartedSpeaking => t.frames.map fun frames => ⟨t.turnId, frames ++ [p]⟩
  | _ => none

end TurnState

/-- The turns that some new frames close. -/
def closedTurns : TurnState → List FramePushed → List ClosedTurn
  | _, [] => []
  | t, p :: pushes => (t.closed p).toList ++ closedTurns (t.push p) pushes

/-- The time of the first of the frames that marks a stage. -/
def firstTime (stage : Stage) (frames : List FramePushed) : Option ℚ :=
  (frames.find? fun p => p.frame.kind.stage? = some stage).map FramePushed.now

/-- The service metrics in some frames. -/
def serviceMetrics (frames : List FramePushed) : ServiceMetrics :=
  frames.foldl (fun svc p => match p.frame.kind with
    | .metrics data => svc.consumeMetrics data
    | _ => svc) ⟨none, none, none, none⟩

/-- The record of a turn: every stage has the time of the first of its frames. -/
def ClosedTurn.record (context : CallContext) (t : ClosedTurn) : LatencyRecord :=
  { context, turnId := t.turnId, ts := fun stage => firstTime stage t.frames
    svc := serviceMetrics t.frames }

/-! ### Audio -/

/-- The audio of the pushes so far. -/
structure AudioHistory where
  /-- The ids of all frames pushed. -/
  pushed : List ℕ
  /-- The ids of the audio frames that were pushed within some turn. -/
  inTurn : List ℕ
  turnOpen : Bool
  /-- In the current turn, the first push of an audio frame that was not pushed within a turn before. -/
  first : Option ℚ
  /-- In the current turn, the first push of an audio frame that was not pushed at all before. -/
  own : Option ℚ

namespace AudioHistory

/-- One push, new or not. -/
def push (h : AudioHistory) (p : FramePushed) : AudioHistory :=
  let pushed := p.frame.id :: h.pushed
  match p.frame.kind with
  | .userStartedSpeaking =>
    if p.frame.id ∈ h.pushed then h
    else { h with pushed, turnOpen := true, first := none, own := none }
  | .botStartedSpeaking =>
    if p.frame.id ∈ h.pushed then h else { h with pushed, turnOpen := false }
  -- Audio counts within a turn only, by its first push there and by its first push at all.
  | .ttsAudioRaw _ =>
    if h.turnOpen then
      { h with
        pushed
        inTurn := p.frame.id :: h.inTurn
        first := if p.frame.id ∈ h.inTurn then h.first else h.first <|> some p.now
        own := if p.frame.id ∈ h.pushed then h.own else h.own <|> some p.now }
    else { h with pushed }
  | _ => { h with pushed }

/-- When a turn is closed, no audio from between the turns came before its own audio. -/
def OwnFirst (h : AudioHistory) (p : FramePushed) : Prop :=
  p.frame.kind = .botStartedSpeaking → p.frame.id ∉ h.pushed → h.turnOpen = true → h.first = h.own

instance (h : AudioHistory) (p : FramePushed) : Decidable (h.OwnFirst p) :=
  inferInstanceAs (Decidable (_ → _ → _ → _))

end AudioHistory

/-! ### One push -/

theorem firstTime_append (stage : Stage) (frames : List FramePushed) (p : FramePushed) :
    firstTime stage (frames ++ [p]) =
      (firstTime stage frames <|> if p.frame.kind.stage? = some stage then some p.now else none) := by
  rw [firstTime, firstTime, List.find?_append, List.find?_singleton]
  generalize frames.find? (fun p => decide (p.frame.kind.stage? = some stage)) = first
  match first with
  | some q => rfl
  | none =>
    by_cases hstage : p.frame.kind.stage? = some stage
    · simp [hstage]
    · simp [hstage]

theorem serviceMetrics_append (frames : List FramePushed) (p : FramePushed) :
    serviceMetrics (frames ++ [p]) = match p.frame.kind with
      | .metrics data => (serviceMetrics frames).consumeMetrics data
      | _ => serviceMetrics frames := by
  rw [serviceMetrics, List.foldl_append]
  rfl

namespace LatencyObserver

variable {o : LatencyObserver}

theorem mark_ts (key : Stage) (now : ℚ) (stage : Stage) :
    (o.mark key now).ts stage = (o.ts stage <|> if key = stage then some now else none) := by
  rw [mark]
  -- A stage is marked once, and the other stages are as they were.
  by_cases hsame : key = stage
  · obtain rfl := hsame
    rw [if_pos rfl]
    split_ifs with hnone
    · rw [hnone]
      exact Function.update_self _ _ _
    · match hts : o.ts key with
      | none => exact absurd hts hnone
      | some t => rfl
  · have hother : (Function.update o.ts key (some now)) stage = o.ts stage :=
      Function.update_of_ne (Ne.symm hsame) _ _
    have hnothing : (o.ts stage <|> none) = o.ts stage := by simp
    rw [if_neg hsame, hnothing]
    split_ifs
    · exact hother
    · rfl

/-- Marking changes nothing but the times. -/
theorem mark_eq (key : Stage) (now : ℚ) :
    (o.mark key now).context = o.context ∧ (o.mark key now).seen = o.seen ∧
      (o.mark key now).turnId = o.turnId ∧ (o.mark key now).turnOpen = o.turnOpen ∧
      (o.mark key now).svc = o.svc ∧ (o.mark key now).written = o.written := by
  rw [mark]
  split_ifs
  · exact ⟨rfl, rfl, rfl, rfl, rfl, rfl⟩
  · exact ⟨rfl, rfl, rfl, rfl, rfl, rfl⟩

end LatencyObserver

theorem FrameKind.stage?_eq_ttsFirstAudio {kind : FrameKind} (h : kind.stage? = some .ttsFirstAudio) :
    ∃ bytes, kind = .ttsAudioRaw bytes := by
  cases kind with
  | ttsAudioRaw bytes => exact ⟨bytes, rfl⟩
  | _ => exact absurd h nofun

theorem FrameKind.stage?_eq_botStart {kind : FrameKind} (h : kind.stage? = some .botStart) :
    kind = .botStartedSpeaking := by
  cases kind with
  | botStartedSpeaking => rfl
  | _ => exact absurd h nofun

/-- The frames that the observer sees at their first push, whether a turn is open or not. -/
def FrameKind.Deduped (kind : FrameKind) : Prop := kind.boundary = true ∨ ∃ data, kind = .metrics data

theorem FrameKind.stage?_ne_of_not_deduped {kind : FrameKind} (h : ¬ kind.Deduped)
    (haudio : ∀ bytes, kind ≠ .ttsAudioRaw bytes) (stage : Stage) : kind.stage? ≠ some stage := by
  cases kind with
  | ttsAudioRaw bytes => exact absurd rfl (haudio bytes)
  | interimTranscription | ttsStopped | botStoppedSpeaking | vadUserStartedSpeaking
  | vadUserStoppedSpeaking | metrics | other => exact nofun
  | _ => exact absurd (Or.inl rfl) h

/-- The observer, the turns and the history of the audio after the same pushes; `kind` tells the kinds of
all frames by their ids. -/
structure Follows (kind : ℕ → FrameKind) (h : AudioHistory) (t : TurnState) (o : LatencyObserver) :
    Prop where
  turnId : o.turnId = t.turnId
  turnOpen : o.turnOpen = t.frames.isSome
  isOpen : h.turnOpen = t.frames.isSome
  stages : ∀ frames, t.frames = some frames → ∀ stage, stage ≠ .ttsFirstAudio →
    o.ts stage = firstTime stage frames
  first : t.frames.isSome = true → o.ts .ttsFirstAudio = h.first
  own : ∀ frames, t.frames = some frames → h.own = firstTime .ttsFirstAudio frames
  svc : ∀ frames, t.frames = some frames → o.svc = serviceMetrics frames
  unfinished : ∀ frames, t.frames = some frames → firstTime .botStart frames = none
  inTurn : ∀ id ∈ h.inTurn, id ∈ h.pushed
  seen_audio : ∀ id bytes, kind id = .ttsAudioRaw bytes → (id ∈ o.seen ↔ id ∈ h.inTurn)
  seen_other : ∀ id, (kind id).Deduped → (id ∈ o.seen ↔ id ∈ h.pushed)

namespace Follows

variable {kind : ℕ → FrameKind} {h : AudioHistory} {t : TurnState} {o o' : LatencyObserver}
  {p : FramePushed}

/-- A push that the observer has no use for. -/
theorem remember (hf : Follows kind h t o) {id : ℕ} (hid : id ∈ h.pushed ∨ ¬ (kind id).Deduped) :
    Follows kind { h with pushed := id :: h.pushed } t o :=
  { hf with
    inTurn := fun id' hid' => List.mem_cons_of_mem _ (hf.inTurn id' hid')
    seen_other := by
      intro id' hdeduped
      rw [hf.seen_other id' hdeduped, List.mem_cons]
      constructor
      · exact Or.inr
      · rintro (rfl | hmem)
        · exact hid.resolve_right (not_not.mpr hdeduped)
        · exact hmem }

/-- A new frame that neither opens nor closes a turn and is no audio. -/
theorem append (hf : Follows kind h t o) (hkind : p.frame.kind = kind p.frame.id)
    (haudio : ∀ bytes, p.frame.kind ≠ .ttsAudioRaw bytes)
    (hbot : p.frame.kind ≠ .botStartedSpeaking)
    (hturnId : o'.turnId = o.turnId) (hturnOpen : o'.turnOpen = o.turnOpen)
    (hts : t.frames.isSome = true → ∀ stage, o'.ts stage =
      (o.ts stage <|> if p.frame.kind.stage? = some stage then some p.now else none))
    (hsvc : o'.svc = match p.frame.kind with
      | .metrics data => o.svc.consumeMetrics data
      | _ => o.svc)
    (hseen : ∀ id, id ∈ o'.seen ↔ (id = p.frame.id ∧ p.frame.kind.Deduped) ∨ id ∈ o.seen) :
    Follows kind { h with pushed := p.frame.id :: h.pushed } { t with frames := t.frames.map (· ++ [p]) }
      o' := by
  -- The frames of the turn, if it is open, are the old ones with the new frame behind them.
  have hmap (frames' : List FramePushed) (hframes' : t.frames.map (· ++ [p]) = some frames') :
      ∃ frames, t.frames = some frames ∧ frames' = frames ++ [p] := by
    obtain ⟨frames, hframes, rfl⟩ := Option.map_eq_some_iff.mp hframes'
    exact ⟨frames, hframes, rfl⟩
  -- The two stages that the code keeps apart are not those of this frame.
  have hstage : p.frame.kind.stage? ≠ some .ttsFirstAudio := by
    intro heq
    obtain ⟨bytes, hbytes⟩ := FrameKind.stage?_eq_ttsFirstAudio heq
    exact haudio bytes hbytes
  have hother : p.frame.kind.stage? ≠ some .botStart := fun heq =>
    hbot (FrameKind.stage?_eq_botStart heq)
  constructor
  · exact hturnId.trans hf.turnId
  · rw [hturnOpen, hf.turnOpen, Option.isSome_map]
  · rw [Option.isSome_map]
    exact hf.isOpen
  · intro frames' hframes' stage hne
    obtain ⟨frames, hframes, rfl⟩ := hmap frames' hframes'
    rw [hts (by rw [hframes]; rfl), firstTime_append, hf.stages frames hframes stage hne]
  · intro hsome
    rw [Option.isSome_map] at hsome
    rw [hts hsome, hf.first hsome, if_neg hstage]
    simp
  · intro frames' hframes'
    obtain ⟨frames, hframes, rfl⟩ := hmap frames' hframes'
    rw [firstTime_append, if_neg hstage, ← hf.own frames hframes]
    simp
  · intro frames' hframes'
    obtain ⟨frames, hframes, rfl⟩ := hmap frames' hframes'
    rw [serviceMetrics_append, hsvc, hf.svc frames hframes]
  · intro frames' hframes'
    obtain ⟨frames, hframes, rfl⟩ := hmap frames' hframes'
    rw [firstTime_append, if_neg hother, hf.unfinished frames hframes]
    simp
  · exact fun id hid => List.mem_cons_of_mem _ (hf.inTurn id hid)
  · intro id bytes hid
    rw [hseen, hf.seen_audio id bytes hid]
    refine or_iff_right ?_
    rintro ⟨rfl, -⟩
    exact haudio bytes (hkind.trans hid)
  · intro id hid
    rw [hseen, hf.seen_other id hid, List.mem_cons]
    refine or_congr_left ⟨fun h => h.1, ?_⟩
    rintro rfl
    exact ⟨rfl, hkind ▸ hid⟩

end Follows

/-- The turns, when a frame is pushed that may have been pushed before. -/
def TurnState.pushNew (t : TurnState) (h : AudioHistory) (p : FramePushed) : TurnState :=
  if p.frame.id ∈ h.pushed then t else t.push p

def TurnState.newlyClosed (t : TurnState) (h : AudioHistory) (p : FramePushed) : Option ClosedTurn :=
  if p.frame.id ∈ h.pushed then none else t.closed p

/-- At a push the observer goes with the turns. What it writes belongs to the turn that is closed, and is
its record exactly if the turn's own audio came first. -/
structure Advances (kind : ℕ → FrameKind) (h : AudioHistory) (t : TurnState) (o : LatencyObserver)
    (p : FramePushed) : Prop where
  follows : Follows kind (h.push p) (t.pushNew h p) (o.onPushFrame p)
  context : (o.onPushFrame p).context = o.context
  written : ∃ actual, (o.onPushFrame p).written = o.written ++ actual ∧
    actual.map LatencyRecord.turnId = (t.newlyClosed h p).toList.map ClosedTurn.turnId ∧
    (actual = (t.newlyClosed h p).toList.map (ClosedTurn.record o.context) ↔ h.OwnFirst p)

section Advances

variable {kind : ℕ → FrameKind} {h : AudioHistory} {t : TurnState} {o : LatencyObserver}
  {p : FramePushed}

/-- A push at which nothing is written. -/
theorem Advances.of_silent (hfollows : Follows kind (h.push p) (t.pushNew h p) (o.onPushFrame p))
    (hcontext : (o.onPushFrame p).context = o.context)
    (hwritten : (o.onPushFrame p).written = o.written)
    (hbot : p.frame.kind = .botStartedSpeaking → p.frame.id ∉ h.pushed → t.frames = none)
    (hf : Follows kind h t o) : Advances kind h t o p where
  follows := hfollows
  context := hcontext
  written := by
    -- No turn closes.
    have hnone : t.newlyClosed h p = none := by
      rw [TurnState.newlyClosed]
      split_ifs with hold
      · rfl
      · rw [TurnState.closed]
        split
        next hkind => rw [hbot hkind hold]; rfl
        next => rfl
    have hown : h.OwnFirst p := by
      intro hkind hnew hopen
      rw [hf.isOpen, hbot hkind hnew] at hopen
      exact absurd hopen nofun
    rw [hnone]
    exact ⟨[], hwritten.trans (List.append_nil _).symm, rfl, iff_of_true rfl hown⟩

theorem LatencyObserver.onPushFrame_of_not_deduped (hdeduped : ¬ p.frame.kind.Deduped)
    (haudio : ∀ bytes, p.frame.kind ≠ .ttsAudioRaw bytes) : o.onPushFrame p = o := by
  have hboundary : p.frame.kind.boundary = false := Bool.eq_false_iff.mpr fun h => hdeduped (Or.inl h)
  rw [onPushFrame]
  split
  next data hkind => exact absurd (Or.inr ⟨data, hkind⟩) hdeduped
  next bytes hkind => exact absurd hkind (haudio bytes)
  next => rw [hboundary]; rfl

theorem LatencyObserver.onPushFrame_of_seen (hdeduped : p.frame.kind.Deduped) (hseen : p.frame.id ∈ o.seen) :
    o.onPushFrame p = o := by
  rw [onPushFrame]
  split
  next => exact if_pos hseen
  next hkind =>
    rcases hdeduped with hboundary | ⟨data, hdata⟩
    · exact absurd (hkind ▸ hboundary) nofun
    · exact absurd (hkind.symm.trans hdata) nofun
  next hdata _ =>
    have hboundary : p.frame.kind.boundary = true :=
      hdeduped.resolve_right fun ⟨data, hkind⟩ => hdata data hkind
    rw [hboundary]
    exact if_pos hseen

/-- The history of the audio after a push of a frame that is no audio. -/
theorem AudioHistory.push_eq (haudio : ∀ bytes, p.frame.kind ≠ .ttsAudioRaw bytes)
    (hboundary : p.frame.kind = .userStartedSpeaking ∨ p.frame.kind = .botStartedSpeaking →
      p.frame.id ∈ h.pushed) :
    h.push p = { h with pushed := p.frame.id :: h.pushed } ∨ h.push p = h ∧ p.frame.id ∈ h.pushed := by
  rw [push]
  split
  next hkind => exact Or.inr ⟨if_pos (hboundary (Or.inl hkind)), hboundary (Or.inl hkind)⟩
  next hkind => exact Or.inr ⟨if_pos (hboundary (Or.inr hkind)), hboundary (Or.inr hkind)⟩
  next hkind => exact absurd hkind (haudio _)
  next => exact Or.inl rfl

/-- A frame that was pushed before and is no audio changes nothing. -/
theorem advances_of_pushed (hf : Follows kind h t o) (hkind : p.frame.kind = kind p.frame.id)
    (haudio : ∀ bytes, p.frame.kind ≠ .ttsAudioRaw bytes) (hold : p.frame.id ∈ h.pushed) :
    Advances kind h t o p := by
  have hsame : o.onPushFrame p = o := by
    by_cases hdeduped : p.frame.kind.Deduped
    · apply LatencyObserver.onPushFrame_of_seen hdeduped
      exact (hf.seen_other p.frame.id (hkind ▸ hdeduped)).mpr hold
    · exact LatencyObserver.onPushFrame_of_not_deduped hdeduped haudio
  refine .of_silent ?_ (by rw [hsame]) (by rw [hsame]) (fun _ hnew => absurd hold hnew) hf
  rw [hsame, TurnState.pushNew, if_pos hold]
  rcases AudioHistory.push_eq haudio fun _ => hold with heq | ⟨heq, -⟩
  · rw [heq]
    exact hf.remember (Or.inl hold)
  · rw [heq]
    exact hf

/-- Audio is the one kind of frames that is seen only within a turn. -/
theorem advances_of_audio (hf : Follows kind h t o) (hkind : p.frame.kind = kind p.frame.id)
    {bytes : ℕ} (haudio : p.frame.kind = .ttsAudioRaw bytes) : Advances kind h t o p := by
  have hdeduped : ¬ (kind p.frame.id).Deduped := by
    rw [← hkind, haudio]
    rintro (hboundary | ⟨data, hdata⟩)
    · exact absurd hboundary nofun
    · exact absurd hdata nofun
  have hseen : p.frame.id ∈ o.seen ↔ p.frame.id ∈ h.inTurn :=
    hf.seen_audio p.frame.id bytes (hkind.symm.trans haudio)
  have hbot : p.frame.kind ≠ .botStartedSpeaking := by
    rw [haudio]
    exact nofun
  have hpush : t.push p = { t with frames := t.frames.map (· ++ [p]) } := by
    rw [TurnState.push, haudio]
  have hsilent (hfollows : Follows kind (h.push p) (t.pushNew h p) (o.onPushFrame p))
      (hcontext : (o.onPushFrame p).context = o.context)
      (hwritten : (o.onPushFrame p).written = o.written) : Advances kind h t o p :=
    .of_silent hfollows hcontext hwritten (fun heq => absurd heq hbot) hf
  rcases hframes : t.frames with _ | frames
  · -- Between the turns the observer forgets the frame.
    have hsame : o.onPushFrame p = o := by
      have hclosed : o.turnOpen = false := by rw [hf.turnOpen, hframes]; rfl
      rw [LatencyObserver.onPushFrame, haudio]
      simp [hclosed]
    have hhistory : h.push p = { h with pushed := p.frame.id :: h.pushed } := by
      have hclosed : h.turnOpen = false := by rw [hf.isOpen, hframes]; rfl
      rw [AudioHistory.push, haudio]
      simp [hclosed]
    have hturn : t.pushNew h p = t := by
      rw [TurnState.pushNew, hpush]
      split_ifs
      · rfl
      · rw [hframes]
        exact congrArg (TurnState.mk t.turnId) hframes.symm
    refine hsilent ?_ (by rw [hsame]) (by rw [hsame])
    rw [hhistory, hturn, hsame]
    exact hf.remember (Or.inr hdeduped)
  have hopen : o.turnOpen = true := by rw [hf.turnOpen, hframes]; rfl
  have hhistory : h.push p = { h with
      pushed := p.frame.id :: h.pushed
      inTurn := p.frame.id :: h.inTurn
      first := if p.frame.id ∈ h.inTurn then h.first else h.first <|> some p.now
      own := if p.frame.id ∈ h.pushed then h.own else h.own <|> some p.now } := by
    have hhopen : h.turnOpen = true := by rw [hf.isOpen, hframes]; rfl
    rw [AudioHistory.push, haudio]
    simp [hhopen]
  have hremember : Follows kind { h with pushed := p.frame.id :: h.pushed } t o :=
    hf.remember (Or.inr hdeduped)
  by_cases hin : p.frame.id ∈ h.inTurn
  · have hsame : o.onPushFrame p = o := by
      rw [LatencyObserver.onPushFrame, haudio]
      simp [hseen.mpr hin]
    have hold := hf.inTurn _ hin
    refine hsilent ?_ (by rw [hsame]) (by rw [hsame])
    rw [hhistory, hsame, TurnState.pushNew, if_pos hold, if_pos hin, if_pos hold]
    refine { hremember with inTurn := fun id hid => ?_, seen_audio := fun id bytes hid => ?_ }
    · rcases List.mem_cons.mp hid with rfl | hid
      · exact List.mem_cons_self
      · exact List.mem_cons_of_mem _ (hf.inTurn id hid)
    · rw [hf.seen_audio id bytes hid, List.mem_cons]
      exact ⟨Or.inr, fun hmem => hmem.elim (fun heq => heq ▸ hin) fun hmem => hmem⟩
  · have hnext : o.onPushFrame p = (o.see p).mark .ttsFirstAudio p.now := by
      rw [LatencyObserver.onPushFrame, haudio]
      simp [hopen, mt hseen.mp hin]
    obtain ⟨hcontext, hseen', hturnId, hturnOpen, hsvc, hwritten⟩ :=
      LatencyObserver.mark_eq (o := o.see p) .ttsFirstAudio p.now
    have hts (stage : Stage) : (o.onPushFrame p).ts stage =
        (o.ts stage <|> if .ttsFirstAudio = stage then some p.now else none) := by
      rw [hnext, LatencyObserver.mark_ts]
      rfl
    have hmem (id : ℕ) : id ∈ (o.onPushFrame p).seen ↔ id = p.frame.id ∨ id ∈ o.seen := by
      rw [hnext, hseen']
      exact List.mem_cons
    -- The frame is new in the turn, but only a new frame is the turn's own.
    have hframes' : ∃ frames', (t.pushNew h p).frames = some frames' ∧
        (∀ stage, stage ≠ .ttsFirstAudio → firstTime stage frames' = firstTime stage frames) ∧
        (h.push p).own = firstTime .ttsFirstAudio frames' ∧
        serviceMetrics frames' = serviceMetrics frames := by
      by_cases hold : p.frame.id ∈ h.pushed
      · refine ⟨frames, ?_, fun _ _ => rfl, ?_, rfl⟩
        · rw [TurnState.pushNew, if_pos hold, hframes]
        · rw [hhistory, if_pos hold]
          exact hf.own frames hframes
      · refine ⟨frames ++ [p], ?_, fun stage hne => ?_, ?_, ?_⟩
        · rw [TurnState.pushNew, if_neg hold, hpush, hframes]
          rfl
        · have hother : p.frame.kind.stage? ≠ some stage := by
            rw [haudio]
            exact fun heq => hne (Option.some.inj heq).symm
          rw [firstTime_append, if_neg hother]
          simp
        · have hstage : p.frame.kind.stage? = some .ttsFirstAudio := by rw [haudio]; rfl
          rw [hhistory, if_neg hold, firstTime_append, if_pos hstage, ← hf.own frames hframes]
        · rw [serviceMetrics_append, haudio]
    obtain ⟨frames', hframes', hstages, hown, hmetrics⟩ := hframes'
    have hturn : (t.pushNew h p).turnId = t.turnId := by
      rw [TurnState.pushNew, hpush]
      split_ifs <;> rfl
    have hof (frames'' : List FramePushed) (heq : (t.pushNew h p).frames = some frames'') :
        frames'' = frames' := Option.some.inj (heq.symm.trans hframes')
    refine hsilent ?_ (by rw [hnext, hcontext]; rfl) (by rw [hnext, hwritten]; rfl)
    constructor
    · rw [hnext, hturnId, hturn]
      exact hf.turnId
    · rw [hnext, hturnOpen, hframes']
      exact hopen
    · rw [hhistory, hframes', hf.isOpen, hframes]
      rfl
    · intro frames'' heq stage hne
      obtain rfl := hof frames'' heq
      rw [hts, if_neg (Ne.symm hne), hstages stage hne, hf.stages frames hframes stage hne]
      simp
    · intro _
      rw [hts, if_pos rfl, hhistory, if_neg hin, hf.first (by rw [hframes]; rfl)]
    · intro frames'' heq
      obtain rfl := hof frames'' heq
      exact hown
    · intro frames'' heq
      obtain rfl := hof frames'' heq
      rw [hnext, hsvc, hmetrics]
      exact hf.svc frames hframes
    · intro frames'' heq
      obtain rfl := hof frames'' heq
      rw [hstages .botStart nofun]
      exact hf.unfinished frames hframes
    · rw [hhistory]
      intro id hid
      rcases List.mem_cons.mp hid with rfl | hid
      · exact List.mem_cons_self
      · exact List.mem_cons_of_mem _ (hf.inTurn id hid)
    · intro id bytes' hid
      rw [hmem, hhistory, hf.seen_audio id bytes' hid]
      exact List.mem_cons.symm
    · intro id hid
      have hne : id ≠ p.frame.id := fun heq => hdeduped (heq ▸ hid)
      rw [hmem, hhistory, hf.seen_other id hid]
      show _ ↔ id ∈ p.frame.id :: h.pushed
      rw [List.mem_cons]

/-- The first push of a boundary frame. -/
theorem LatencyObserver.onPushFrame_of_boundary (hboundary : p.frame.kind.boundary = true)
    (hnew : p.frame.id ∉ o.seen) : o.onPushFrame p =
      match p.frame.kind with
      | .userStartedSpeaking => (o.see p).onUserStarted p.now
      | .botStartedSpeaking => (o.see p).onBotStarted p.now
      | kind =>
        match o.turnOpen, kind.stage? with
        | true, some stage => (o.see p).mark stage p.now
        | _, _ => o.see p := by
  rw [onPushFrame]
  split
  next hkind => exact absurd (hkind ▸ hboundary) nofun
  next hkind => exact absurd (hkind ▸ hboundary) nofun
  next => rw [hboundary]; exact if_neg hnew

/-- A new frame that neither opens nor closes a turn and is no audio: it marks its stage if a turn is
open. -/
theorem LatencyObserver.onPushFrame_of_plain (haudio : ∀ bytes, p.frame.kind ≠ .ttsAudioRaw bytes)
    (huser : p.frame.kind ≠ .userStartedSpeaking) (hbot : p.frame.kind ≠ .botStartedSpeaking)
    (hnew : p.frame.kind.Deduped → p.frame.id ∉ o.seen) :
    (o.onPushFrame p).context = o.context ∧ (o.onPushFrame p).written = o.written ∧
      (o.onPushFrame p).turnId = o.turnId ∧ (o.onPushFrame p).turnOpen = o.turnOpen ∧
      (o.turnOpen = true → ∀ stage, (o.onPushFrame p).ts stage =
        (o.ts stage <|> if p.frame.kind.stage? = some stage then some p.now else none)) ∧
      ((o.onPushFrame p).svc = match p.frame.kind with
        | .metrics data => o.svc.consumeMetrics data
        | _ => o.svc) ∧
      ∀ id, id ∈ (o.onPushFrame p).seen ↔
        (id = p.frame.id ∧ p.frame.kind.Deduped) ∨ id ∈ o.seen := by
  -- Metrics are deduplicated but mark no stage; they only feed the service metrics.
  by_cases hmetrics : ∃ data, p.frame.kind = .metrics data
  · obtain ⟨data, hdata⟩ := hmetrics
    have hdeduped : p.frame.kind.Deduped := Or.inr ⟨data, hdata⟩
    have hnext : o.onPushFrame p = { o.see p with svc := o.svc.consumeMetrics data } := by
      rw [onPushFrame, hdata]
      exact if_neg (hnew hdeduped)
    rw [hnext]
    refine ⟨rfl, rfl, rfl, rfl, fun _ stage => ?_, by rw [hdata], fun id => ?_⟩
    · have hstage : p.frame.kind.stage? = none := by rw [hdata]; rfl
      rw [hstage, if_neg nofun]
      exact (by simp : o.ts stage = (o.ts stage <|> none))
    · rw [and_iff_left hdeduped]
      exact List.mem_cons
  have hsvc : (match p.frame.kind with
      | .metrics data => o.svc.consumeMetrics data
      | _ => o.svc) = o.svc := by
    split
    next data hdata => exact absurd ⟨data, hdata⟩ hmetrics
    next => rfl
  rw [hsvc]
  -- Of the other frames the boundaries are deduplicated, and the rest does nothing.
  rcases hboundary : p.frame.kind.boundary with _ | _
  · have hdeduped : ¬ p.frame.kind.Deduped := by
      rintro (h | h)
      · exact absurd (hboundary.symm.trans h) nofun
      · exact hmetrics h
    have hstage (stage : Stage) : p.frame.kind.stage? ≠ some stage :=
      FrameKind.stage?_ne_of_not_deduped hdeduped haudio stage
    rw [onPushFrame_of_not_deduped hdeduped haudio]
    refine ⟨rfl, rfl, rfl, rfl, fun _ stage => ?_, rfl, fun id => ?_⟩
    · rw [if_neg (hstage stage)]
      simp
    · exact (or_iff_right fun h => hdeduped h.2).symm
  · have hdeduped : p.frame.kind.Deduped := Or.inl hboundary
    have hseen (id : ℕ) : (id = p.frame.id ∧ p.frame.kind.Deduped) ∨ id ∈ o.seen ↔
        id ∈ (o.see p).seen := by
      rw [and_iff_left hdeduped]
      exact List.mem_cons.symm
    simp only [hseen]
    rw [onPushFrame_of_boundary hboundary (hnew hdeduped)]
    split
    next heq => exact absurd heq huser
    next heq => exact absurd heq hbot
    next =>
      split
      next stage hopen hstage =>
        obtain ⟨hcontext, hseen', hturnId, hturnOpen, hsvc', hwritten⟩ :=
          mark_eq (o := o.see p) stage p.now
        refine ⟨hcontext, hwritten, hturnId, hturnOpen, fun _ stage' => ?_, hsvc', fun id => ?_⟩
        · rw [mark_ts, hstage]
          simp only [Option.some.injEq]
          rfl
        · rw [hseen']
      next hother =>
        refine ⟨rfl, rfl, rfl, rfl, fun hopen stage => ?_, rfl, fun id => Iff.rfl⟩
        rw [if_neg fun hstage => hother stage hopen hstage]
        exact (by simp : o.ts stage = (o.ts stage <|> none))

/-- A new frame that neither opens nor closes a turn and is no audio. -/
theorem advances_of_plain (hf : Follows kind h t o) (hkind : p.frame.kind = kind p.frame.id)
    (haudio : ∀ bytes, p.frame.kind ≠ .ttsAudioRaw bytes)
    (huser : p.frame.kind ≠ .userStartedSpeaking) (hbot : p.frame.kind ≠ .botStartedSpeaking)
    (hnew : p.frame.id ∉ h.pushed) : Advances kind h t o p := by
  have hpush : t.pushNew h p = { t with frames := t.frames.map (· ++ [p]) } := by
    rw [TurnState.pushNew, if_neg hnew, TurnState.push]
    split
    next heq => exact absurd heq huser
    next heq => exact absurd heq hbot
    next => rfl
  have hhistory : h.push p = { h with pushed := p.frame.id :: h.pushed } :=
    (AudioHistory.push_eq haudio fun heq => heq.elim (absurd · huser) (absurd · hbot)).resolve_right
      fun heq => hnew heq.2
  -- A new frame has not been seen.
  have hunseen (hdeduped : p.frame.kind.Deduped) : p.frame.id ∉ o.seen :=
    fun hmem => hnew ((hf.seen_other p.frame.id (hkind ▸ hdeduped)).mp hmem)
  obtain ⟨hcontext, hwritten, hturnId, hturnOpen, hts, hsvc, hseen⟩ :=
    LatencyObserver.onPushFrame_of_plain haudio huser hbot hunseen
  refine .of_silent ?_ hcontext hwritten (fun heq => absurd heq hbot) hf
  rw [hhistory, hpush]
  exact hf.append hkind haudio hbot hturnId hturnOpen (fun hsome => hts (hf.turnOpen.trans hsome)) hsvc
    hseen

/-- A user's start opens a turn. -/
theorem advances_of_user (hf : Follows kind h t o) (hkind : p.frame.kind = kind p.frame.id)
    (huser : p.frame.kind = .userStartedSpeaking) (hnew : p.frame.id ∉ h.pushed) :
    Advances kind h t o p := by
  have hdeduped : p.frame.kind.Deduped := Or.inl (by rw [huser]; rfl)
  have hunseen : p.frame.id ∉ o.seen :=
    fun hmem => hnew ((hf.seen_other p.frame.id (hkind ▸ hdeduped)).mp hmem)
  have hnext : o.onPushFrame p = (o.see p).onUserStarted p.now := by
    rw [LatencyObserver.onPushFrame_of_boundary (by rw [huser]; rfl) hunseen, huser]
  have hturn : t.pushNew h p = ⟨t.turnId + 1, some [p]⟩ := by
    rw [TurnState.pushNew, if_neg hnew, TurnState.push, huser]
  have hhistory : h.push p =
      { h with pushed := p.frame.id :: h.pushed, turnOpen := true, first := none, own := none } := by
    rw [AudioHistory.push, huser]
    exact if_neg hnew
  -- The new turn consists of this frame, which marks only the start of the user.
  have hfirst (stage : Stage) :
      firstTime stage [p] = if .userStart = stage then some p.now else none := by
    rw [← List.nil_append [p], firstTime_append, huser]
    simp [FrameKind.stage?, firstTime]
  refine .of_silent ?_ (by rw [hnext]; rfl) (by rw [hnext]; rfl)
    (fun hbot => absurd (huser.symm.trans hbot) nofun) hf
  rw [hnext, hturn, hhistory]
  constructor
  · exact congrArg (· + 1) hf.turnId
  · rfl
  · rfl
  · rintro frames ⟨⟩ stage -
    rw [hfirst]
    show Function.update (fun _ => none) Stage.userStart (some p.now) stage = _
    by_cases hstage : Stage.userStart = stage
    · obtain rfl := hstage
      rw [if_pos rfl, Function.update_self]
    · rw [if_neg hstage, Function.update_of_ne (Ne.symm hstage)]
  · exact fun _ => rfl
  · rintro frames ⟨⟩
    exact (hfirst .ttsFirstAudio).symm
  · rintro frames ⟨⟩
    rw [← List.nil_append [p], serviceMetrics_append, huser]
    rfl
  · rintro frames ⟨⟩
    exact hfirst .botStart
  · exact fun id hid => List.mem_cons_of_mem _ (hf.inTurn id hid)
  · intro id bytes hid
    -- An audio frame is not the start of the user.
    have hne : id ≠ p.frame.id := by
      rintro rfl
      exact absurd (huser.symm.trans (hkind.trans hid)) nofun
    show id ∈ p.frame.id :: o.seen ↔ _
    rw [List.mem_cons, or_iff_right hne]
    exact hf.seen_audio id bytes hid
  · intro id hid
    show id ∈ p.frame.id :: o.seen ↔ id ∈ p.frame.id :: h.pushed
    rw [List.mem_cons, List.mem_cons, hf.seen_other id hid]

/-- A start of the bot closes the turn that is open. -/
theorem advances_of_bot (hf : Follows kind h t o) (hkind : p.frame.kind = kind p.frame.id)
    (hbot : p.frame.kind = .botStartedSpeaking) (hnew : p.frame.id ∉ h.pushed) :
    Advances kind h t o p := by
  have hdeduped : p.frame.kind.Deduped := Or.inl (by rw [hbot]; rfl)
  have hunseen : p.frame.id ∉ o.seen :=
    fun hmem => hnew ((hf.seen_other p.frame.id (hkind ▸ hdeduped)).mp hmem)
  have hnext : o.onPushFrame p = (o.see p).onBotStarted p.now := by
    rw [LatencyObserver.onPushFrame_of_boundary (by rw [hbot]; rfl) hunseen, hbot]
  have hturn : t.pushNew h p = { t with frames := none } := by
    rw [TurnState.pushNew, if_neg hnew, TurnState.push, hbot]
  have hclosed : t.newlyClosed h p = t.frames.map fun frames => ⟨t.turnId, frames ++ [p]⟩ := by
    rw [TurnState.newlyClosed, if_neg hnew, TurnState.closed, hbot]
  have hhistory : h.push p = { h with pushed := p.frame.id :: h.pushed, turnOpen := false } := by
    rw [AudioHistory.push, hbot]
    exact if_neg hnew
  have hown : h.OwnFirst p ↔ (h.turnOpen = true → h.first = h.own) :=
    ⟨fun howned => howned hbot hnew, fun howned _ _ => howned⟩
  have hfollows (hseen : (o.onPushFrame p).seen = p.frame.id :: o.seen)
      (hturnId : (o.onPushFrame p).turnId = o.turnId) (hopen : (o.onPushFrame p).turnOpen = false) :
      Follows kind (h.push p) (t.pushNew h p) (o.onPushFrame p) := by
    rw [hturn, hhistory]
    constructor
    · exact hturnId.trans hf.turnId
    · exact hopen
    · rfl
    · exact nofun
    · exact nofun
    · exact nofun
    · exact nofun
    · exact nofun
    · exact fun id hid => List.mem_cons_of_mem _ (hf.inTurn id hid)
    · intro id bytes hid
      have hne : id ≠ p.frame.id := by
        rintro rfl
        exact absurd (hbot.symm.trans (hkind.trans hid)) nofun
      rw [hseen, List.mem_cons, or_iff_right hne]
      exact hf.seen_audio id bytes hid
    · intro id hid
      show _ ↔ id ∈ p.frame.id :: h.pushed
      rw [hseen, List.mem_cons, List.mem_cons, hf.seen_other id hid]
  rcases hframes : t.frames with _ | frames
  · -- No turn is open.
    have hnotOpen : o.turnOpen = false := by rw [hf.turnOpen, hframes]; rfl
    have hsee : o.onPushFrame p = o.see p := by
      rw [hnext, LatencyObserver.onBotStarted]
      exact if_pos (by rw [LatencyObserver.see, hnotOpen]; rfl)
    exact .of_silent (hfollows (by rw [hsee]; rfl) (by rw [hsee]; rfl) (by rw [hsee]; exact hnotOpen))
      (by rw [hsee]; rfl) (by rw [hsee]; rfl) (fun _ _ => hframes) hf
  · have hopen : o.turnOpen = true := by rw [hf.turnOpen, hframes]; rfl
    obtain ⟨hcontext, hseen, hturnId, -, hsvc, hwritten⟩ :=
      LatencyObserver.mark_eq (o := o.see p) .botStart p.now
    have hwrite : o.onPushFrame p = { (o.see p).mark .botStart p.now with
        turnOpen := false
        written := ((o.see p).mark .botStart p.now).written ++
          [((o.see p).mark .botStart p.now).buildRecord] } := by
      rw [hnext, LatencyObserver.onBotStarted]
      exact if_neg (by rw [LatencyObserver.see, hopen]; decide)
    refine ⟨hfollows (by rw [hwrite]; exact hseen) (by rw [hwrite]; exact hturnId) (by rw [hwrite]),
      by rw [hwrite]; exact hcontext, [((o.see p).mark .botStart p.now).buildRecord],
      by rw [hwrite, hwritten]; rfl, ?_⟩
    rw [hclosed, hframes]
    constructor
    · show [((o.see p).mark .botStart p.now).turnId] = [t.turnId]
      rw [hturnId]
      exact congrArg (fun id => [id]) hf.turnId
    · have hts (stage : Stage) : ((o.see p).mark .botStart p.now).ts stage =
          (o.ts stage <|> if .botStart = stage then some p.now else none) :=
        LatencyObserver.mark_ts _ _ _
      have hlast (stage : Stage) : firstTime stage (frames ++ [p]) =
          (firstTime stage frames <|> if .botStart = stage then some p.now else none) := by
        rw [firstTime_append, hbot]
        simp [FrameKind.stage?]
      have hrecord : ((o.see p).mark .botStart p.now).buildRecord =
          ClosedTurn.record o.context ⟨t.turnId, frames ++ [p]⟩ ↔
            ∀ stage, ((o.see p).mark .botStart p.now).ts stage = firstTime stage (frames ++ [p]) := by
        rw [LatencyObserver.buildRecord, ClosedTurn.record, LatencyRecord.mk.injEq, hcontext, hturnId,
          hsvc, serviceMetrics_append, hbot]
        exact ⟨fun h stage => congrFun h.2.2.1 stage,
          fun h => ⟨rfl, hf.turnId, funext h, hf.svc frames hframes⟩⟩
      have haudio : ((o.see p).mark .botStart p.now).ts .ttsFirstAudio =
          firstTime .ttsFirstAudio (frames ++ [p]) ↔ h.first = h.own := by
        rw [hts, hlast, hf.first (by rw [hframes]; rfl), ← hf.own frames hframes]
        simp
      have hhopen : h.turnOpen = true := by rw [hf.isOpen, hframes]; rfl
      rw [hown]
      show [_] = [_] ↔ _
      rw [List.cons.injEq, and_iff_left rfl, hrecord]
      constructor
      · exact fun hall _ => haudio.mp (hall .ttsFirstAudio)
      · intro howned stage
        by_cases hstage : stage = .ttsFirstAudio
        · rw [hstage]
          exact haudio.mpr (howned hhopen)
        · rw [hts, hlast, hf.stages frames hframes stage hstage]

/-- Every push advances the observer with the turns. -/
theorem advances (hf : Follows kind h t o) (hkind : p.frame.kind = kind p.frame.id) :
    Advances kind h t o p := by
  by_cases haudio : ∃ bytes, p.frame.kind = .ttsAudioRaw bytes
  · obtain ⟨bytes, hbytes⟩ := haudio
    exact advances_of_audio hf hkind hbytes
  have haudio' : ∀ bytes, p.frame.kind ≠ .ttsAudioRaw bytes := fun bytes heq => haudio ⟨bytes, heq⟩
  by_cases hold : p.frame.id ∈ h.pushed
  · exact advances_of_pushed hf hkind haudio' hold
  by_cases huser : p.frame.kind = .userStartedSpeaking
  · exact advances_of_user hf hkind huser hold
  by_cases hbot : p.frame.kind = .botStartedSpeaking
  · exact advances_of_bot hf hkind hbot hold
  · exact advances_of_plain hf hkind haudio' huser hbot hold

end Advances

/-! ### Runs -/

theorem AudioHistory.mem_pushed (h : AudioHistory) (p : FramePushed) (id : ℕ) :
    id ∈ (h.push p).pushed ↔ id = p.frame.id ∨ id ∈ h.pushed := by
  have hold (hmem : p.frame.id ∈ h.pushed) : id ∈ h.pushed ↔ id = p.frame.id ∨ id ∈ h.pushed :=
    ⟨Or.inr, fun hor => hor.elim (fun heq => heq ▸ hmem) fun hmem => hmem⟩
  rw [push]
  split
  · split_ifs with hmem
    · exact hold hmem
    · exact List.mem_cons
  · split_ifs with hmem
    · exact hold hmem
    · exact List.mem_cons
  · split
    · exact List.mem_cons
    · exact List.mem_cons
  · exact List.mem_cons

/-- The turns that are closed, of the frames that were not pushed before. -/
theorem closedTurns_firsts_cons (t : TurnState) (h : AudioHistory) (p : FramePushed)
    (pushes : List FramePushed) :
    closedTurns t (firsts (fun p => p.frame.id) h.pushed (p :: pushes)) =
      (t.newlyClosed h p).toList ++
        closedTurns (t.pushNew h p) (firsts (fun p => p.frame.id) (h.push p).pushed pushes) := by
  have hpushed : firsts (fun p => p.frame.id) (h.push p).pushed pushes =
      firsts (fun p => p.frame.id) (p.frame.id :: h.pushed) pushes :=
    firsts_congr (fun id => by rw [h.mem_pushed, List.mem_cons]) pushes
  rw [hpushed, firsts, TurnState.newlyClosed, TurnState.pushNew]
  split_ifs with hold
  · -- A frame that was pushed before does not count again.
    have hsame : firsts (fun p => p.frame.id) (p.frame.id :: h.pushed) pushes =
        firsts (fun p => p.frame.id) h.pushed pushes :=
      firsts_congr (fun id => by
        rw [List.mem_cons]
        exact ⟨fun hor => hor.elim (fun heq => heq ▸ hold) fun hmem => hmem, Or.inr⟩) pushes
    rw [hsame]
    rfl
  · rfl

/-- A run of the observer writes a record for each turn that is closed, and the right one exactly if the
turn's own audio came first. -/
theorem Follows.written_exec {kind : ℕ → FrameKind} {h : AudioHistory} {t : TurnState}
    {o : LatencyObserver} (hf : Follows kind h t o) {pushes : List FramePushed}
    (hkind : ∀ p ∈ pushes, p.frame.kind = kind p.frame.id) :
    ∃ actual, (exec LatencyObserver.onPushFrame o pushes).written = o.written ++ actual ∧
      actual.map LatencyRecord.turnId =
        (closedTurns t (firsts (fun p => p.frame.id) h.pushed pushes)).map ClosedTurn.turnId ∧
      (actual = (closedTurns t (firsts (fun p => p.frame.id) h.pushed pushes)).map
          (ClosedTurn.record o.context) ↔
        Guarded AudioHistory.push AudioHistory.OwnFirst h pushes) := by
  induction pushes generalizing h t o with
  | nil => exact ⟨[], (List.append_nil _).symm, rfl, iff_of_true rfl trivial⟩
  | cons p pushes ih =>
    obtain ⟨hp, hkind⟩ := List.forall_mem_cons.mp hkind
    obtain ⟨hfollows, hcontext, first, hfirst, hfirstIds, hfirstIff⟩ := advances hf hp
    obtain ⟨rest, hrest, hrestIds, hrestIff⟩ := ih hfollows hkind
    refine ⟨first ++ rest, ?_, ?_, ?_⟩
    · rw [exec_cons, hrest, hfirst, List.append_assoc]
    · rw [closedTurns_firsts_cons, List.map_append, List.map_append, hfirstIds, hrestIds]
    · -- As many records are written as turns close, so the lists can be split at the same place.
      have hlength : first.length = ((t.newlyClosed h p).toList.map
          (ClosedTurn.record o.context)).length := by
        have := congrArg List.length hfirstIds
        rwa [List.length_map, List.length_map, ← List.length_map (ClosedTurn.record o.context)] at this
      rw [hcontext] at hrestIff
      rw [closedTurns_firsts_cons, List.map_append, Guarded, ← hfirstIff, ← hrestIff]
      constructor
      · exact fun heq => List.append_inj heq hlength
      · rintro ⟨rfl, rfl⟩
        rfl

/-- Nothing has been pushed. -/
def AudioHistory.new : AudioHistory := ⟨[], [], false, none, none⟩

theorem follows_new (kind : ℕ → FrameKind) (context : CallContext) :
    Follows kind .new ⟨0, none⟩ (.new context) where
  turnId := rfl
  turnOpen := rfl
  isOpen := rfl
  stages := nofun
  first := nofun
  own := nofun
  svc := nofun
  unfinished := nofun
  inTurn := nofun
  seen_audio := fun _ _ _ => Iff.rfl
  seen_other := fun _ _ => Iff.rfl

/-- The numbers of the turns increase. -/
theorem pairwise_closedTurns (t : TurnState) (pushes : List FramePushed) :
    ((closedTurns t pushes).map ClosedTurn.turnId).Pairwise (· < ·) ∧
      ∀ c ∈ closedTurns t pushes, t.turnId ≤ c.turnId ∧ (t.frames = none → t.turnId < c.turnId) := by
  induction pushes generalizing t with
  | nil => exact ⟨.nil, nofun⟩
  | cons p pushes ih =>
    obtain ⟨hsorted, hbounds⟩ := ih (t.push p)
    rw [closedTurns]
    -- A start of the user opens a turn with a greater number and closes none.
    by_cases huser : p.frame.kind = .userStartedSpeaking
    -- Any other frame joins the open turn.
    · have hclosed : t.closed p = none := by rw [TurnState.closed, huser]
      have hpush : (t.push p).turnId = t.turnId + 1 := by rw [TurnState.push, huser]
      rw [hclosed]
      refine ⟨hsorted, fun c hc => ?_⟩
      have hle := (hbounds c hc).1
      rw [hpush] at hle
      exact ⟨by omega, fun _ => by omega⟩
    -- A start of the bot closes the open turn, and the number is not used again.
    by_cases hbot : p.frame.kind = .botStartedSpeaking
    · have hclosed : t.closed p = t.frames.map fun frames => ⟨t.turnId, frames ++ [p]⟩ := by
        rw [TurnState.closed, hbot]
      have hpush : t.push p = ⟨t.turnId, none⟩ := by rw [TurnState.push, hbot]
      have hlater (c : ClosedTurn) (hc : c ∈ closedTurns (t.push p) pushes) : t.turnId < c.turnId := by
        have hlt := (hbounds c hc).2 (by rw [hpush])
        rwa [hpush] at hlt
      rw [hclosed]
      match hframes : t.frames with
      | none => exact ⟨hsorted, fun c hc => ⟨(hlater c hc).le, fun _ => hlater c hc⟩⟩
      | some frames =>
        constructor
        · refine List.pairwise_cons.mpr ⟨fun id hid => ?_, hsorted⟩
          obtain ⟨c, hc, rfl⟩ := List.mem_map.mp hid
          exact hlater c hc
        · intro c hc
          rcases List.mem_cons.mp hc with rfl | hc
          · exact ⟨le_rfl, nofun⟩
          · exact ⟨(hlater c hc).le, nofun⟩
    · have hclosed : t.closed p = none := by
        rw [TurnState.closed]
        split
        next heq => exact absurd heq hbot
        next => rfl
      have hpush : t.push p = { t with frames := t.frames.map (· ++ [p]) } := by
        rw [TurnState.push]
        split
        next heq => exact absurd heq huser
        next heq => exact absurd heq hbot
        next => rfl
      rw [hclosed]
      refine ⟨hsorted, fun c hc => ?_⟩
      obtain ⟨hle, hlt⟩ := hbounds c hc
      rw [hpush] at hle hlt
      exact ⟨hle, fun hnone => hlt (by rw [hnone]; rfl)⟩

/-- Of distinct frames the audio of a turn is its own. -/
theorem guarded_ownFirst {h : AudioHistory} {pushes : List FramePushed}
    (hdistinct : (pushes.map fun p => p.frame.id).Nodup) (hnew : ∀ p ∈ pushes, p.frame.id ∉ h.pushed)
    (hsame : h.first = h.own) (hin : ∀ id ∈ h.inTurn, id ∈ h.pushed) :
    Guarded AudioHistory.push AudioHistory.OwnFirst h pushes := by
  induction pushes generalizing h with
  | nil => trivial
  | cons p pushes ih =>
    obtain ⟨hp, hnew⟩ := List.forall_mem_cons.mp hnew
    have hnotIn : p.frame.id ∉ h.inTurn := fun hmem => hp (hin _ hmem)
    refine ⟨fun _ _ _ => hsame, ?_⟩
    -- With distinct frames no first audio is taken over from an earlier turn.
    have hnext : (h.push p).first = (h.push p).own ∧
        ∀ id ∈ (h.push p).inTurn, id ∈ (h.push p).pushed := by
      have hmore (id : ℕ) (hid : id ∈ h.inTurn) : id ∈ p.frame.id :: h.pushed :=
        List.mem_cons_of_mem _ (hin id hid)
      rw [AudioHistory.push]
      split
      · rw [if_neg hp]
        exact ⟨rfl, hmore⟩
      · rw [if_neg hp]
        exact ⟨hsame, hmore⟩
      · rw [if_neg hnotIn, if_neg hp, hsame]
        split
        · refine ⟨rfl, fun id hid => ?_⟩
          rcases List.mem_cons.mp hid with rfl | hid
          · exact List.mem_cons_self
          · exact hmore id hid
        · exact ⟨rfl, hmore⟩
      · exact ⟨hsame, hmore⟩
    rw [List.map_cons, List.nodup_cons] at hdistinct
    apply ih hdistinct.2 _ hnext.1 hnext.2
    intro q hq hmem
    rcases (h.mem_pushed p _).mp hmem with heq | hold
    · exact hdistinct.1 (heq ▸ List.mem_map_of_mem hq)
    · exact hnew q hq hold

/-- The ids of distinct frames tell their kinds. -/
theorem FrameSequence.exists_kind (frames : FrameSequence) :
    ∃ kind : ℕ → FrameKind, ∀ p ∈ frames.pushes, p.frame.kind = kind p.frame.id := by
  refine ⟨fun id => ((frames.pushes.find? fun q => q.frame.id = id).map fun q => q.frame.kind).getD .other,
    fun p hp => ?_⟩
  have hfound : (frames.pushes.find? fun q => q.frame.id = p.frame.id).isSome = true :=
    List.find?_isSome.mpr ⟨p, hp, by simp⟩
  obtain ⟨q, hq⟩ := Option.isSome_iff_exists.mp hfound
  have hid : q.frame.id = p.frame.id := by simpa using List.find?_some hq
  obtain rfl := List.inj_on_of_nodup_map frames.distinct (List.mem_of_find?_eq_some hq) hp hid
  simp only [hq, Option.map_some, Option.getD_some]

/-- **Latency records.** However the frames are pushed again: there is one record for each turn that a
start of the bot closes, in the order of the turns; and every stage in them has the time of the first
push of the turn's first frame of that kind, as without the pushes that repeat, exactly if no audio from
between the turns came before a turn's own audio. -/
theorem written_iff (context : CallContext) (frames : FrameSequence) (pushed : List FramePushed)
    (hpushed : Repushed FramePushed.frame [] frames.pushes pushed) :
    (exec LatencyObserver.onPushFrame (.new context) pushed).written.map LatencyRecord.turnId =
        (closedTurns ⟨0, none⟩ frames.pushes).map ClosedTurn.turnId ∧
      ((closedTurns ⟨0, none⟩ frames.pushes).map ClosedTurn.turnId).Pairwise (· < ·) ∧
      (exec LatencyObserver.onPushFrame (.new context) frames.pushes).written =
        (closedTurns ⟨0, none⟩ frames.pushes).map (ClosedTurn.record context) ∧
      ((exec LatencyObserver.onPushFrame (.new context) pushed).written =
          (closedTurns ⟨0, none⟩ frames.pushes).map (ClosedTurn.record context) ↔
        Guarded AudioHistory.push AudioHistory.OwnFirst .new pushed) := by
  obtain ⟨kind, hkind⟩ := frames.exists_kind
  have hkind' : ∀ p ∈ pushed, p.frame.kind = kind p.frame.id := by
    intro p hp
    obtain ⟨q, hq, heq⟩ := List.mem_map.mp ((hpushed.key_mem p hp).resolve_right List.not_mem_nil)
    rw [← heq]
    exact hkind q hq
  -- The first pushes of the frames are the sequence that was meant.
  have hfirsts : firsts (fun p => p.frame.id) [] pushed = frames.pushes :=
    (hpushed.map Frame.id).firsts_eq frames.distinct fun _ _ => List.not_mem_nil
  have hself : firsts (fun p => p.frame.id) [] frames.pushes = frames.pushes :=
    (Repushed.refl _ []).firsts_eq frames.distinct fun _ _ => List.not_mem_nil
  obtain ⟨actual, hactual, hids, hiff⟩ := (follows_new kind context).written_exec hkind'
  obtain ⟨base, hbase, -, hbaseIff⟩ := (follows_new kind context).written_exec hkind
  have hnew : AudioHistory.new.pushed = [] := rfl
  rw [hnew, hfirsts] at hids hiff
  rw [hnew, hself] at hbaseIff
  refine ⟨?_, (pairwise_closedTurns _ _).1, ?_, ?_⟩
  · rw [hactual]
    exact hids
  · rw [hbase]
    exact hbaseIff.mpr
      (guarded_ownFirst frames.distinct (fun _ _ => List.not_mem_nil) rfl fun _ h => h)
  · rw [hactual]
    exact hiff

/-- A call whose greeting is spoken before the first turn; `pushed` has the greeting's audio once more,
within that turn, at its next processor. -/
def greetedCall : FrameSequence where
  pushes :=
    [⟨⟨1, .ttsAudioRaw 480⟩, 0⟩, ⟨⟨2, .userStartedSpeaking⟩, 1⟩, ⟨⟨3, .ttsStarted⟩, 3⟩,
      ⟨⟨4, .ttsAudioRaw 480⟩, 4⟩, ⟨⟨5, .botStartedSpeaking⟩, 5⟩]
  distinct := by decide

def greetedPushes : List FramePushed :=
  [⟨⟨1, .ttsAudioRaw 480⟩, 0⟩, ⟨⟨2, .userStartedSpeaking⟩, 1⟩, ⟨⟨1, .ttsAudioRaw 480⟩, 2⟩,
    ⟨⟨3, .ttsStarted⟩, 3⟩, ⟨⟨4, .ttsAudioRaw 480⟩, 4⟩, ⟨⟨5, .botStartedSpeaking⟩, 5⟩]

theorem repushed_greetedPushes : Repushed FramePushed.frame [] greetedCall.pushes greetedPushes :=
  .first (.first (.again (by decide) (.first (.first (.first (.nil _))))))

theorem written_iff_greetedPushes :
    (exec LatencyObserver.onPushFrame (.new ⟨none, none, none, none⟩) greetedPushes).written.map
        LatencyRecord.turnId = [1] :=
  (written_iff _ greetedCall greetedPushes repushed_greetedPushes).1

/-- The greeting's audio is taken for that of the turn, a second before the turn's speech starts. -/
theorem greetedPushes_early :
    (exec LatencyObserver.onPushFrame (.new ⟨none, none, none, none⟩) greetedPushes).written.map
        (fun r => (r.turnId, r.ts .ttsFirstAudio, r.ttsTtfbMs)) = [(1, some 2, some (-1000))] ∧
      (exec LatencyObserver.onPushFrame (.new ⟨none, none, none, none⟩) greetedCall.pushes).written.map
        (fun r => (r.turnId, r.ts .ttsFirstAudio, r.ttsTtfbMs)) = [(1, some 4, some 1000)] := by
  constructor
  · decide +kernel
  · decide +kernel

end Pipeline
