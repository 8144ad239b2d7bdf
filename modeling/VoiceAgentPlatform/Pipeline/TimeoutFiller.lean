import VoiceAgentPlatform.Lib.Run
import VoiceAgentPlatform.Lib.TaskSlot
import VoiceAgentPlatform.Pipeline.Frames

/-!
# The timeout filler

`TimeoutFillerObserver` of `timeout_filler.py`: frames at which the user stops speaking arm a timer task,
frames of the reply and of the user's next turn cancel it, and a timer that expires may queue a filler.
Timer tasks are resumed by the event loop at any time, in any order.

* `onPushFrame`, `resume`: a push of a frame, and the next steps of a timer task.
* `step_effect`: what a step makes of the slot with the timer; at most one timer is live at a time.
* `armed_of_live`: a live timer was armed by a push behind the last frame that cancels.
* `FillerTurn`: the observer, with the number of fillers since the user last began to speak.
* `fillers_le_one`: there is at most one filler if none is followed by a frame that arms in the same turn.
-/

namespace Pipeline

open Run

/-- `FILLERS`. -/
def fillerPool : String → Option (List String)
  | "zh-CN" => some ["嗯", "啊", "好的", "嗯…稍等", "让我看一下"]
  | "zh-HK" => some ["嗯", "好嘅", "等我睇一睇", "稍等"]
  | "en-US" => some ["um", "uh-huh", "let me see", "one sec"]
  | "ja-JP" => some ["えっと", "はい", "少々お待ちください"]
  | _ => none

/-- `pick_filler`; `choice` is what the random generator draws. -/
def pickFiller (langKey : String) (phrases : Option (List String)) (choice : ℕ) : String :=
  let pool :=
    match phrases with
    | some (phrase :: more) => phrase :: more
    | _ => ((fillerPool langKey).orElse fun _ => fillerPool "en-US").getD []
  (pool[choice % pool.length]?).getD ""

/-- `_ARM_FRAMES`. -/
def FrameKind.arms : FrameKind → Bool
  | userStoppedSpeaking | vadUserStoppedSpeaking => true
  | _ => false

/-- `_CANCEL_FRAMES`. -/
def FrameKind.cancels : FrameKind → Bool
  | ttsStarted | botStartedSpeaking | userStartedSpeaking | vadUserStartedSpeaking => true
  | _ => false

/-- The frames with which the user begins to speak. -/
def FrameKind.startsUserTurn : FrameKind → Bool
  | userStartedSpeaking | vadUserStartedSpeaking => true
  | _ => false

/-- What a timer task waits for. -/
inductive TimerPhase where
  /-- `asyncio.sleep`. -/
  | sleeping
  /-- `task.queue_frames`. -/
  | queueing
  deriving DecidableEq

/-- A filler, with the timer that queued it. -/
structure Filler where
  timer : ℕ
  text : String
  deriving DecidableEq

/-- `TimeoutFillerObserver`, with its timer tasks and the fillers that it has queued. -/
structure TimeoutFillerObserver where
  lang : String
  phrases : Option (List String)
  enabled : Bool
  prob : ℚ
  /-- The pipeline task is set. -/
  task : Bool
  /-- `_pending`, and the timer tasks. -/
  slot : TaskSlot TimerPhase
  queued : List Filler
  deriving DecidableEq

namespace TimeoutFillerObserver

def new (lang : String) (phrases : Option (List String)) (enabled : Bool) (prob : ℚ) :
    TimeoutFillerObserver :=
  { lang, phrases, enabled, prob, task := false, slot := .empty, queued := [] }

/-- `_cancel`. -/
def cancel (o : TimeoutFillerObserver) : TimeoutFillerObserver := { o with slot := o.slot.cancel }

/-- `_arm`. -/
def arm (o : TimeoutFillerObserver) : TimeoutFillerObserver :=
  let o := o.cancel
  { o with slot := o.slot.create .sleeping }

/-- `on_push_frame`. -/
def onPushFrame (o : TimeoutFillerObserver) (kind : FrameKind) : TimeoutFillerObserver :=
  if !o.enabled then o
  else if kind.arms then o.arm
  else if kind.cancels then o.cancel
  else o

/-- The end of `_fire`: the slot is cleared, unless a newer timer is in it. -/
def finish (o : TimeoutFillerObserver) (id : ℕ) : TimeoutFillerObserver :=
  { o with slot := (o.slot.finish id).release id }

/-- The event loop resumes a timer task, whose sleep is over unless it was cancelled; `draw` and `choice`
are what the random generator draws. -/
def resume (o : TimeoutFillerObserver) (id : ℕ) (draw : ℚ) (choice : ℕ) : TimeoutFillerObserver :=
  match o.slot.jobs[id]? with
  | none | some ⟨_, .done⟩ => o
  | some ⟨.sleeping, .running⟩ =>
    -- The job has slept; what it queues is decided now.
    let text := pickFiller o.lang o.phrases choice
    if draw < o.prob ∧ o.task = true ∧ text ≠ "" then
      { o with slot := o.slot.update id .queueing, queued := o.queued ++ [⟨id, text⟩] }
    else o.finish id
  | some ⟨.queueing, .running⟩ | some ⟨_, .cancelled⟩ => o.finish id

end TimeoutFillerObserver

/-- What happens to the observer. -/
inductive FillerInput where
  /-- `observer.task = task`. -/
  | setTask
  | push (frame : Frame)
  | resume (id : ℕ) (draw : ℚ) (choice : ℕ)
  deriving DecidableEq

namespace TimeoutFillerObserver

def step (o : TimeoutFillerObserver) : FillerInput → TimeoutFillerObserver
  | .setTask => { o with task := true }
  | .push frame => o.onPushFrame frame.kind
  | .resume id draw choice => o.resume id draw choice

variable {o o' : TimeoutFillerObserver} {e : FillerInput} {id id' : ℕ} {phase : TimerPhase}

/-- The timer `id` wakes and queues `text`. -/
def Speaks (o o' : TimeoutFillerObserver) (id : ℕ) (text : String) : Prop :=
  o.slot.Live id .sleeping ∧
    o' = { o with slot := o.slot.update id .queueing, queued := o.queued ++ [⟨id, text⟩] }

/-- A timer that is resumed had ended, ends, or queues a filler. -/
theorem resume_cases (o : TimeoutFillerObserver) (id : ℕ) (draw : ℚ) (choice : ℕ) :
    o.resume id draw choice = o ∨ o.resume id draw choice = o.finish id ∨
      ∃ text, Speaks o (o.resume id draw choice) id text := by
  rw [resume]
  split
  · exact .inl rfl
  · exact .inl rfl
  next htimer =>
    dsimp only
    split
    · exact .inr (.inr ⟨_, htimer, rfl⟩)
    · exact .inr (.inl rfl)
  · exact .inr (.inl rfl)
  · exact .inr (.inl rfl)

/-- A push arms a timer, cancels it, or does nothing. -/
theorem onPushFrame_cases (o : TimeoutFillerObserver) (kind : FrameKind) :
    (o.enabled = true ∧ kind.arms = true ∧ o.onPushFrame kind = o.arm) ∨
      o.onPushFrame kind = o.cancel ∨
        ((o.enabled = true → kind.arms = false ∧ kind.cancels = false) ∧ o.onPushFrame kind = o) := by
  cases henabled : o.enabled with
  | false => exact .inr (.inr ⟨nofun, by simp [onPushFrame, henabled]⟩)
  | true =>
    cases harms : kind.arms with
    | true => exact .inl ⟨rfl, rfl, by simp [onPushFrame, henabled, harms]⟩
    | false =>
      cases hcancels : kind.cancels with
      | true => exact .inr (.inl (by simp [onPushFrame, henabled, harms, hcancels]))
      | false =>
        exact .inr (.inr ⟨fun _ => ⟨rfl, rfl⟩, by simp [onPushFrame, henabled, harms, hcancels]⟩)

/-- What a step makes of the slot and the fillers. -/
inductive Effect (o o' : TimeoutFillerObserver) : FillerInput → Prop where
  | armed (frame : Frame) (henabled : o.enabled = true) (harms : frame.kind.arms = true)
      (hslot : o'.slot = o.slot.cancel.create .sleeping) (hqueued : o'.queued = o.queued) :
      Effect o o' (.push frame)
  | cancelled (frame : Frame) (hslot : o'.slot = o.slot.cancel) (hqueued : o'.queued = o.queued) :
      Effect o o' (.push frame)
  /-- A push that arms or cancels is not idle. -/
  | idle {e : FillerInput} (hslot : o'.slot = o.slot) (hqueued : o'.queued = o.queued)
      (hframe : ∀ frame, e = .push frame → o.enabled = true →
        frame.kind.arms = false ∧ frame.kind.cancels = false) : Effect o o' e
  | finished (id : ℕ) (draw : ℚ) (choice : ℕ) (hslot : o'.slot = (o.slot.finish id).release id)
      (hqueued : o'.queued = o.queued) : Effect o o' (.resume id draw choice)
  | spoke (id : ℕ) (draw : ℚ) (choice : ℕ) (text : String) (hspeaks : Speaks o o' id text) :
      Effect o o' (.resume id draw choice)

theorem step_effect (o : TimeoutFillerObserver) (e : FillerInput) : Effect o (o.step e) e := by
  match e with
  | .setTask => exact .idle rfl rfl nofun
  | .push frame =>
    rcases onPushFrame_cases o frame.kind with ⟨henabled, harms, heq⟩ | heq | ⟨hidle, heq⟩
    · exact .armed frame henabled harms (by rw [step, heq, arm, cancel])
        (by rw [step, heq, arm, cancel])
    · exact .cancelled frame (by rw [step, heq, cancel]) (by rw [step, heq, cancel])
    · refine .idle (by rw [step, heq]) (by rw [step, heq]) fun frame' hframe => ?_
      obtain rfl := FillerInput.push.inj hframe
      exact hidle
  | .resume id draw choice =>
    rcases resume_cases o id draw choice with heq | heq | ⟨text, hspeaks⟩
    · exact .idle (by rw [step, heq]) (by rw [step, heq]) nofun
    · exact .finished id draw choice (by rw [step, heq, finish]) (by rw [step, heq, finish])
    · exact .spoke id draw choice text hspeaks

/-- A step leaves the setting as it is. -/
theorem enabled_step (o : TimeoutFillerObserver) (e : FillerInput) :
    (o.step e).enabled = o.enabled := by
  match e with
  | .setTask => rfl
  | .push frame =>
    rcases onPushFrame_cases o frame.kind with ⟨-, -, heq⟩ | heq | ⟨-, heq⟩ <;>
      simp only [step, heq, arm, cancel]
  | .resume id draw choice =>
    rcases resume_cases o id draw choice with heq | heq | ⟨text, hspeaks⟩
    · rw [step, heq]
    · simp only [step, heq, finish]
    · rw [step, hspeaks.2]

/-- The observer cancels a timer before it creates the next one. -/
theorem move_step (o : TimeoutFillerObserver) (e : FillerInput) :
    TaskSlot.Move o.slot (o.step e).slot := by
  cases step_effect o e with
  | armed frame _ _ hslot _ =>
    rw [hslot]
    exact .replace o.slot .sleeping
  | cancelled frame hslot _ =>
    rw [hslot]
    exact .cancel o.slot
  | idle hslot _ _ =>
    rw [hslot]
    exact .stay o.slot
  | finished id draw choice hslot _ =>
    rw [hslot]
    exact .release o.slot id
  | spoke id draw choice text hspeaks =>
    rw [hspeaks.2]
    exact .update o.slot id .queueing

theorem tracked_exec (h : o.slot.Idle) (es : List FillerInput) : (exec step o es).slot.Tracked :=
  exec_invariant (I := fun o : TimeoutFillerObserver => o.slot.Tracked)
    (fun o e h => h.move (move_step o e)) h.tracked es

/-- The timer that speaks is the only live one, and waits in `queue_frames` then. -/
theorem Speaks.live {text : String} (h : Speaks o o' id text) (htracked : o.slot.Tracked)
    (hlive : o'.slot.Live id' phase) : id' = id ∧ phase = .queueing := by
  obtain ⟨hsleeping, rfl⟩ := h
  obtain ⟨phase', hbefore, hsame, -⟩ := TaskSlot.live_update hlive
  have hid := htracked.live_unique hbefore hsleeping
  exact ⟨hid, hsame hid⟩

/-- A timer that is live after a step has just been armed, or was live before it, where only a wake
changes what it waits for; then the step neither armed nor cancelled. -/
theorem live_step (h : o.slot.Tracked) (hlive : (o.step e).slot.Live id phase) :
    (∃ frame, e = .push frame ∧ o.enabled = true ∧ frame.kind.arms = true ∧
      id = o.slot.jobs.length) ∨
      (∃ phase', o.slot.Live id phase' ∧ (phase = phase' ∨ phase = .queueing)) ∧
        ∀ frame, e = .push frame → o.enabled = true →
          frame.kind.arms = false ∧ frame.kind.cancels = false := by
  -- What one step does to the slot.
  cases step_effect o e with
  | armed frame henabled harms hslot _ =>
    rw [hslot] at hlive
    rcases TaskSlot.live_create hlive with hbefore | ⟨hid, -⟩
    · exact absurd hbefore (h.idle_cancel id phase)
    · exact .inl ⟨frame, rfl, henabled, harms, by simpa using hid⟩
  | cancelled frame hslot _ =>
    rw [hslot] at hlive
    exact absurd hlive (h.idle_cancel id phase)
  | idle hslot _ hframe =>
    rw [hslot] at hlive
    exact .inr ⟨⟨phase, hlive, .inl rfl⟩, hframe⟩
  | finished id' draw choice hslot _ =>
    rw [hslot] at hlive
    exact .inr ⟨⟨phase, (TaskSlot.live_finish hlive).1, .inl rfl⟩, nofun⟩
  | spoke id' draw choice text hspeaks =>
    obtain ⟨rfl, hphase⟩ := hspeaks.live h hlive
    exact .inr ⟨⟨.sleeping, hspeaks.1, .inr hphase⟩, nofun⟩

/-- A filler is queued by a live timer whose sleep is over. -/
theorem queued_step (o : TimeoutFillerObserver) (e : FillerInput) :
    (o.step e).queued = o.queued ∨
      ∃ id draw choice text, e = .resume id draw choice ∧ Speaks o (o.step e) id text := by
  cases step_effect o e with
  | spoke id draw choice text hspeaks => exact .inr ⟨id, draw, choice, text, rfl, hspeaks⟩
  | _ => exact .inl ‹_›

/-- Among the events `es`, the timer `id` was armed by a push behind the last one that cancels. -/
def ArmedLast (o : TimeoutFillerObserver) (es : List FillerInput) (id : ℕ) : Prop :=
  ∃ before frame after, es = before ++ .push frame :: after ∧ frame.kind.arms = true ∧
    (exec step o before).slot.jobs.length = id ∧
      ∀ frame', .push frame' ∈ after → frame'.kind.cancels = false

/-- A live timer was armed behind the last frame that cancels. -/
theorem armed_of_live (hidle : o.slot.Idle) {es : List FillerInput}
    (h : (exec step o es).slot.Live id phase) : ArmedLast o es id := by
  have henabled : ∀ es, (exec step o es).enabled = o.enabled := fun es =>
    exec_invariant (I := fun o' => o'.enabled = o.enabled)
      (fun o' e h => (enabled_step o' e).trans h) rfl es
  -- With the switch, which does not change, in the induction.
  suffices h' : ArmedLast o es id ∧ o.enabled = true from h'.1
  induction es using List.reverseRecOn generalizing phase with
  | nil => exact absurd h (hidle id phase)
  | append_singleton es e ih =>
    rw [exec_append] at h
    rcases live_step (tracked_exec hidle es) h with
      ⟨frame, rfl, hon, harms, hid⟩ | ⟨⟨_, hbefore, -⟩, hquiet⟩
    · exact ⟨⟨es, frame, [], rfl, harms, hid.symm, fun _ h => absurd h List.not_mem_nil⟩,
        (henabled es).symm.trans hon⟩
    · obtain ⟨⟨before, frame, after, rfl, harms, hid, hafter⟩, hon⟩ := ih hbefore
      refine ⟨⟨before, frame, after ++ [e], by simp, harms, hid, fun frame' hmem => ?_⟩, hon⟩
      rcases List.mem_append.mp hmem with hmem | hmem
      · exact hafter frame' hmem
      · exact (hquiet frame' (List.mem_singleton.mp hmem).symm ((henabled _).trans hon)).2

end TimeoutFillerObserver

/-! ## The fillers of a user's turn -/

/-- The observer, the frames with which the user began to speak so far, and the number of fillers since
the last of them. -/
structure FillerTurn where
  observer : TimeoutFillerObserver
  started : List ℕ
  fillers : ℕ
  deriving DecidableEq

namespace FillerTurn

open TimeoutFillerObserver

/-- A frame begins a new turn of the user at its first push. -/
def step (t : FillerTurn) (e : FillerInput) : FillerTurn :=
  let observer := t.observer.step e
  let queued := observer.queued.length - t.observer.queued.length
  match e with
  | .push frame =>
    if frame.kind.startsUserTurn ∧ frame.id ∉ t.started then
      { observer, started := frame.id :: t.started, fillers := 0 }
    else { observer, started := t.started, fillers := t.fillers + queued }
  | _ => { observer, started := t.started, fillers := t.fillers + queued }

/-- A timer is armed only while there was no filler in the turn. -/
def ArmsBeforeFiller (t : FillerTurn) : FillerInput → Prop
  | .push frame => frame.kind.arms = true → t.fillers = 0
  | _ => True

instance (t : FillerTurn) : ∀ e, Decidable (t.ArmsBeforeFiller e)
  | .push frame => inferInstanceAs (Decidable (frame.kind.arms = true → t.fillers = 0))
  | .setTask => isTrue trivial
  | .resume _ _ _ => isTrue trivial

/-- There was at most one filler, and behind it no timer sleeps. -/
structure Once (t : FillerTurn) : Prop where
  tracked : t.observer.slot.Tracked
  fillers : t.fillers ≤ 1
  spoken : t.fillers = 1 → ∀ id phase, t.observer.slot.Live id phase → phase = .queueing

variable {t : FillerTurn}

@[simp]
theorem observer_step (t : FillerTurn) (e : FillerInput) :
    (t.step e).observer = t.observer.step e := by
  match e with
  | .push frame =>
    simp only [step]
    split <;> rfl
  | .setTask => rfl
  | .resume _ _ _ => rfl

/-- Without a new filler the number stays, or a new turn begins. -/
theorem fillers_step {e : FillerInput} (h : (t.observer.step e).queued = t.observer.queued) :
    (t.step e).fillers = t.fillers ∨ (t.step e).fillers = 0 := by
  match e with
  | .push frame =>
    simp only [step, h]
    split
    · exact .inr rfl
    · exact .inl (by simp)
  | .setTask => exact .inl (by simp [step, h])
  | .resume _ _ _ => exact .inl (by simp [step, h])

/-- A step that arms no timer behind a filler keeps it at one filler. -/
theorem Once.after (h : t.Once) {e : FillerInput} (he : t.ArmsBeforeFiller e) : (t.step e).Once := by
  have htracked : (t.step e).observer.slot.Tracked := by
    rw [observer_step]
    exact h.tracked.move (move_step t.observer e)
  rcases queued_step t.observer e with hqueued | ⟨id, draw, choice, text, rfl, hspeaks⟩
  · have hfillers := fillers_step hqueued
    refine ⟨htracked, ?_, fun hone id phase hlive => ?_⟩
    · have := h.fillers
      omega
    · have hone' : t.fillers = 1 := by omega
      rw [observer_step] at hlive
      rcases live_step h.tracked hlive with ⟨frame, rfl, -, harms, -⟩ | ⟨⟨phase', hbefore, hphase⟩, -⟩
      · -- The guard does not let a timer be armed here.
        have := he harms
        omega
      · rcases hphase with rfl | hphase
        · exact h.spoken hone' id phase hbefore
        · exact hphase
  · -- A timer that sleeps tells that there was no filler yet.
    have hzero : t.fillers = 0 := by
      have hle := h.fillers
      have hne : t.fillers ≠ 1 := fun hone => nomatch h.spoken hone id .sleeping hspeaks.1
      omega
    have hqueued : (t.observer.step (.resume id draw choice)).queued =
        t.observer.queued ++ [⟨id, text⟩] := by
      rw [hspeaks.2]
    have hfillers : (t.step (.resume id draw choice)).fillers = 1 := by
      simp [step, hqueued, hzero]
    refine ⟨htracked, hfillers.le, fun _ id' phase hlive => ?_⟩
    rw [observer_step] at hlive
    exact (hspeaks.live h.tracked hlive).2

end FillerTurn

open FillerTurn TimeoutFillerObserver in
/-- In every run there is at most one live timer, and only one that was armed behind the last frame that
cancels queues a filler. A turn of the user has at most one filler if no timer is armed behind it. -/
theorem fillers_le_one (lang : String) (phrases : Option (List String)) (enabled : Bool) (prob : ℚ)
    (es : List FillerInput) :
    let observer := TimeoutFillerObserver.new lang phrases enabled prob
    (∀ id id' phase phase',
      (exec TimeoutFillerObserver.step observer es).slot.Live id phase →
      (exec TimeoutFillerObserver.step observer es).slot.Live id' phase' → id = id') ∧
    (∀ before e after, es = before ++ e :: after →
      (exec TimeoutFillerObserver.step observer (before ++ [e])).queued ≠
        (exec TimeoutFillerObserver.step observer before).queued →
      ∃ id draw choice, e = .resume id draw choice ∧ ArmedLast observer before id) ∧
    (Guarded FillerTurn.step ArmsBeforeFiller ⟨observer, [], 0⟩ es →
      Always FillerTurn.step (fun t => t.fillers ≤ 1) ⟨observer, [], 0⟩ es) := by
  intro observer
  have hidle : observer.slot.Idle := TaskSlot.idle_empty
  refine ⟨fun id id' phase phase' hlive hlive' => ?_, ?_, fun hG => ?_⟩
  · exact (tracked_exec hidle es).live_unique hlive hlive'
  · rintro before e after - hqueued
    rw [exec_append] at hqueued
    rcases queued_step (exec TimeoutFillerObserver.step observer before) e with
      hsame | ⟨id, draw, choice, text, he, hspeaks⟩
    · exact absurd hsame hqueued
    · exact ⟨id, draw, choice, he, armed_of_live hidle hspeaks.1⟩
  · -- The invariant holds at the start, and each step that is guarded keeps it.
    have hOnce : Once ⟨observer, [], 0⟩ := ⟨hidle.tracked, Nat.zero_le 1, nofun⟩
    exact (always_of_guarded (fun _ _ h he => h.after he) hOnce hG).mono fun _ h => h.fillers

/-- The user starts again before the turn analyzer ends the turn whose filler the VAD has armed. -/
theorem fillers_le_one_turns :
    Guarded FillerTurn.step FillerTurn.ArmsBeforeFiller ⟨.new "en-US" none true (1 / 2), [], 0⟩
        [.setTask, .push ⟨1, .userStartedSpeaking⟩, .push ⟨2, .vadUserStoppedSpeaking⟩,
          .resume 0 (1 / 4) 0, .resume 0 0 0, .push ⟨3, .userStartedSpeaking⟩,
          .push ⟨4, .userStoppedSpeaking⟩] ∧
      Always FillerTurn.step (fun t => t.fillers ≤ 1) ⟨.new "en-US" none true (1 / 2), [], 0⟩
        [.setTask, .push ⟨1, .userStartedSpeaking⟩, .push ⟨2, .vadUserStoppedSpeaking⟩,
          .resume 0 (1 / 4) 0, .resume 0 0 0, .push ⟨3, .userStartedSpeaking⟩,
          .push ⟨4, .userStoppedSpeaking⟩] := by
  have hG : Guarded FillerTurn.step FillerTurn.ArmsBeforeFiller
      ⟨.new "en-US" none true (1 / 2), [], 0⟩
      [.setTask, .push ⟨1, .userStartedSpeaking⟩, .push ⟨2, .vadUserStoppedSpeaking⟩,
        .resume 0 (1 / 4) 0, .resume 0 0 0, .push ⟨3, .userStartedSpeaking⟩,
        .push ⟨4, .userStoppedSpeaking⟩] := by decide +kernel
  exact ⟨hG, (fillers_le_one "en-US" none true (1 / 2) _).2.2 hG⟩

/-- The VAD and the turn analyzer each end the same turn, and a filler follows each. -/
theorem siblingStops_twoFillers :
    ¬ Always FillerTurn.step (fun t => t.fillers ≤ 1) ⟨.new "en-US" none true (1 / 2), [], 0⟩
      [.setTask, .push ⟨1, .userStartedSpeaking⟩, .push ⟨2, .vadUserStoppedSpeaking⟩,
        .resume 0 (1 / 4) 0, .resume 0 0 0, .push ⟨3, .ttsStarted⟩,
        .push ⟨4, .userStoppedSpeaking⟩, .resume 1 (1 / 4) 1] := by
  intro h
  have hlast := h.last
  exact absurd hlast (by decide +kernel)

end Pipeline
