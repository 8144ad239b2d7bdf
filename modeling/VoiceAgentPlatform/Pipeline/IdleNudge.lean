import VoiceAgentPlatform.Lib.Run
import VoiceAgentPlatform.Lib.TaskSlot
import VoiceAgentPlatform.Pipeline.Playout

/-!
# The idle nudge

The callbacks of `_build_pipeline` that let the model speak again while the user is silent, with their
counter, the slot of the re-check task and the estimate of the playout. Between a read of the estimate and
the nudge nothing is awaited, so that every callback and every wake of a re-check is one step.

* `IdleNudge.step`: the turns of the user, the idle timer, the wakes of re-checks, the audio of the bot.
* `Effect`, `step_effect`: what a step makes of the counter, the slot and the nudges.
* `count_exec`: while the user does not end a turn, the counter grows with the nudges only.
* `nudges_bounded`: what holds in every run.
-/

namespace Pipeline

open Run

/-- `IDLE_NUDGE_MAX`. -/
def idleNudgeMax : ℕ := 2

/-- `RECHECK_MARGIN`, in seconds. -/
def recheckMargin : ℚ := 3 / 10

/-- The nudge prompt for `en-US`. -/
def defaultNudgePrompt : String :=
  "The user hasn't spoken for a while. If your last message promised to continue " ++
    "(e.g. \"please hold\"), continue now; otherwise briefly check if they are still there. " ++
    "One or two sentences."

/-- `IDLE_NUDGE_PROMPTS`. -/
def idleNudgePrompts : String → Option String
  | "zh-HK" => some "用戶暫時冇出聲。如果你頭先講咗會繼續（例如「請稍等」），而家直接繼續講落去；否則簡短問下用戶仲喺唔喺度。只講一兩句。"
  | "zh-CN" => some "用户暂时没有说话。如果你刚才说过会继续（例如「请稍等」），现在直接继续；否则简短问一下用户是否还在。只说一两句。"
  | "en-US" => some defaultNudgePrompt
  | "ja-JP" => some "ユーザーがしばらく話していません。直前に「お待ちください」など続きを約束した場合は、そのまま続けてください。そうでなければ、まだいらっしゃるか短く確認してください。1〜2文で。"
  | _ => none

/-- A run of the model that was queued behind a developer message. -/
structure Nudge where
  prompt : String
  queuedAt : ℚ
  /-- The re-check that queued it; none for the idle callback. -/
  recheck : Option ℕ
  deriving DecidableEq

/-- What the callbacks share. A re-check waits for the end of its sleep. -/
structure IdleNudge where
  langKey : String
  playout : BotPlayoutTracker
  idleNudgeCount : ℕ
  /-- `pending_recheck`, and the re-check tasks. -/
  slot : TaskSlot ℚ
  nudges : List Nudge
  deriving DecidableEq

/-- What the callbacks are called for, with the clock where they read it. -/
inductive NudgeInput where
  | userTurnStarted
  | userTurnStopped
  | userTurnIdle (now : ℚ)
  /-- The event loop resumes a re-check. -/
  | recheck (id : ℕ) (now : ℚ)
  | clientDisconnected
  | botTurnStart (now : ℚ)
  | botTurnEnd
  | addAudio (bytes : ℕ) (now : ℚ)
  deriving DecidableEq

namespace IdleNudge

def new (langKey : String) (playout : BotPlayoutTracker) : IdleNudge :=
  { langKey, playout, idleNudgeCount := 0, slot := .empty, nudges := [] }

/-- `_cancel_pending_recheck`. -/
def cancelPendingRecheck (s : IdleNudge) : IdleNudge := { s with slot := s.slot.cancel }

/-- Create a `_recheck_after_playout` task. -/
def createRecheck (s : IdleNudge) (delay now : ℚ) : IdleNudge :=
  { s with slot := s.slot.create (now + delay) }

/-- `_do_nudge`. -/
def doNudge (s : IdleNudge) (now : ℚ) (recheck : Option ℕ) : IdleNudge :=
  let prompt := (idleNudgePrompts s.langKey).getD defaultNudgePrompt
  { s with
    idleNudgeCount := s.idleNudgeCount + 1
    nudges := s.nudges ++ [⟨prompt, now, recheck⟩] }

/-- `_recheck_after_playout`, resumed. -/
def recheckAfterPlayout (s : IdleNudge) (id : ℕ) (now : ℚ) : IdleNudge :=
  match s.slot.jobs[id]? with
  | none | some ⟨_, .done⟩ => s
  | some ⟨_, .cancelled⟩ => { s with slot := s.slot.finish id }
  | some ⟨wakeAt, .running⟩ =>
    if now < wakeAt then s
    else
      let s := { s with slot := (s.slot.finish id).clear }
      let remaining := s.playout.remaining now
      -- The bot produced more audio in the meantime: defer again.
      if remaining > 0 then s.createRecheck (remaining + recheckMargin) now
      else if s.idleNudgeCount ≥ idleNudgeMax then s
      else s.doNudge now (some id)

/-- `_on_user_turn_idle`. -/
def onUserTurnIdle (s : IdleNudge) (now : ℚ) : IdleNudge :=
  let remaining := s.playout.remaining now
  if remaining > 0 then s.cancelPendingRecheck.createRecheck (remaining + recheckMargin) now
  else if s.idleNudgeCount ≥ idleNudgeMax then s
  else s.doNudge now none

def step (s : IdleNudge) : NudgeInput → IdleNudge
  | .userTurnStarted => s.cancelPendingRecheck
  | .userTurnStopped => { s with idleNudgeCount := 0 }.cancelPendingRecheck
  | .userTurnIdle now => s.onUserTurnIdle now
  | .recheck id now => s.recheckAfterPlayout id now
  | .clientDisconnected => s.cancelPendingRecheck
  | .botTurnStart now => { s with playout := s.playout.onBotTurnStart now }
  | .botTurnEnd => { s with playout := s.playout.onBotTurnEnd }
  | .addAudio bytes now => { s with playout := s.playout.addAudio bytes now }

end IdleNudge

/-- The time that the input reads from the clock for a nudge, and the re-check that asks. -/
def NudgeInput.asks : NudgeInput → Option (ℚ × Option ℕ)
  | .userTurnIdle now => some (now, none)
  | .recheck id now => some (now, some id)
  | _ => none

namespace IdleNudge

variable {s s' : IdleNudge} {e : NudgeInput} {n : ℕ}

/-- What a step makes of the counter, the slot and the nudges. -/
inductive Effect (s s' : IdleNudge) (e : NudgeInput) : Prop where
  | quiet (hmove : TaskSlot.Move s.slot s'.slot)
      (hcount : s'.idleNudgeCount = if e = .userTurnStopped then 0 else s.idleNudgeCount)
      (hnudges : s'.nudges = s.nudges)
  /-- A nudge is queued, by the idle callback or by a live re-check, while nothing is playing. -/
  | nudged (nudge : Nudge) (hasks : e.asks = some (nudge.queuedAt, nudge.recheck))
      (hremaining : s.playout.remaining nudge.queuedAt ≤ 0) (hmax : s.idleNudgeCount < idleNudgeMax)
      (hlive : ∀ id, nudge.recheck = some id → ∃ wakeAt, s.slot.Live id wakeAt)
      (hmove : TaskSlot.Move s.slot s'.slot) (hcount : s'.idleNudgeCount = s.idleNudgeCount + 1)
      (hnudges : s'.nudges = s.nudges ++ [nudge])

theorem recheck_effect (s : IdleNudge) (id : ℕ) (now : ℚ) :
    Effect s (s.recheckAfterPlayout id now) (.recheck id now) := by
  rw [recheckAfterPlayout]
  split
  · exact .quiet (.stay _) rfl rfl
  · exact .quiet (.stay _) rfl rfl
  · exact .quiet (.finish _ id) rfl rfl
  next wakeAt hjob =>
    have hlive : s.slot.Live id wakeAt := hjob
    by_cases hearly : now < wakeAt
    · rw [if_pos hearly]
      exact .quiet (.stay _) rfl rfl
    · rw [if_neg hearly]
      dsimp only
      -- The bot is still heard, the user has been nudged enough, or is nudged now.
      split_ifs with hremaining hmax
      · exact .quiet (.renew hlive _) rfl rfl
      · exact .quiet (.leave hlive) rfl rfl
      · refine .nudged ⟨_, now, some id⟩ rfl (not_lt.mp hremaining) (not_le.mp hmax) ?_ (.leave hlive)
          rfl rfl
        rintro id' hid
        obtain rfl := Option.some.inj hid
        exact ⟨wakeAt, hlive⟩

theorem idle_effect (s : IdleNudge) (now : ℚ) : Effect s (s.onUserTurnIdle now) (.userTurnIdle now) := by
  simp only [onUserTurnIdle]
  split_ifs with hremaining hmax
  · exact .quiet (.replace _ _) rfl rfl
  · exact .quiet (.stay _) rfl rfl
  · exact .nudged ⟨_, now, none⟩ rfl (not_lt.mp hremaining) (not_le.mp hmax) nofun (.stay _) rfl rfl

theorem step_effect (s : IdleNudge) (e : NudgeInput) : Effect s (s.step e) e := by
  match e with
  | .userTurnStarted => exact .quiet (.cancel _) rfl rfl
  | .userTurnStopped => exact .quiet (.cancel _) rfl rfl
  | .userTurnIdle now => exact idle_effect s now
  | .recheck id now => exact recheck_effect s id now
  | .clientDisconnected => exact .quiet (.cancel _) rfl rfl
  | .botTurnStart now => exact .quiet (.stay _) rfl rfl
  | .botTurnEnd => exact .quiet (.stay _) rfl rfl
  | .addAudio bytes now => exact .quiet (.stay _) rfl rfl

theorem move_step (s : IdleNudge) (e : NudgeInput) : TaskSlot.Move s.slot (s.step e).slot := by
  cases step_effect s e with
  | quiet hmove _ _ => exact hmove
  | nudged _ _ _ _ _ hmove _ _ => exact hmove

theorem tracked_exec (h : s.slot.Idle) (es : List NudgeInput) : (exec step s es).slot.Tracked :=
  exec_invariant (I := fun s : IdleNudge => s.slot.Tracked) (fun s e h => h.move (move_step s e))
    h.tracked es

/-- The counter of a step: the end of a user's turn resets it, and only a nudge counts. -/
theorem count_step (s : IdleNudge) (e : NudgeInput) :
    (s.step e).idleNudgeCount =
      if e = .userTurnStopped then 0
      else s.idleNudgeCount + ((s.step e).nudges.length - s.nudges.length) := by
  cases step_effect s e with
  | quiet _ hcount hnudges =>
    rw [hcount, hnudges]
    simp
  | nudged nudge hasks _ _ _ _ hcount hnudges =>
    have hne : e ≠ .userTurnStopped := by
      rintro rfl
      exact nomatch hasks
    rw [if_neg hne, hcount, hnudges]
    simp

theorem count_le_step (h : s.idleNudgeCount ≤ idleNudgeMax) (e : NudgeInput) :
    (s.step e).idleNudgeCount ≤ idleNudgeMax := by
  cases step_effect s e with
  | quiet _ hcount _ =>
    rw [hcount]
    split_ifs
    · exact Nat.zero_le _
    · exact h
  | nudged _ _ _ hmax _ _ hcount _ =>
    rw [hcount]
    exact hmax

theorem nudges_prefix_step (s : IdleNudge) (e : NudgeInput) : s.nudges <+: (s.step e).nudges := by
  cases step_effect s e with
  | quiet _ _ hnudges => exact hnudges ▸ List.prefix_rfl
  | nudged nudge _ _ _ _ _ _ hnudges => exact hnudges ▸ List.prefix_append _ _

/-- While the user does not end a turn, the counter grows with the nudges only. -/
theorem count_exec {es : List NudgeInput} (h : ∀ e ∈ es, e ≠ .userTurnStopped) :
    (exec step s es).idleNudgeCount + s.nudges.length =
      s.idleNudgeCount + (exec step s es).nudges.length := by
  induction es generalizing s with
  | nil => simp
  | cons e es ih =>
    obtain ⟨hne, hrest⟩ := List.forall_mem_cons.mp h
    have hcount := count_step s e
    rw [if_neg hne] at hcount
    have hle := (nudges_prefix_step s e).length_le
    have := ih (s := s.step e) hrest
    rw [exec_cons]
    omega

/-- The nudges behind the first `k` are of re-checks that were created behind the first `n`. -/
structure NudgesFrom (n k : ℕ) (s : IdleNudge) : Prop where
  slot : s.slot.LiveFrom n
  nudges : k ≤ s.nudges.length
  recheck : ∀ nudge ∈ s.nudges.drop k, ∀ id, nudge.recheck = some id → n ≤ id

theorem NudgesFrom.after {k : ℕ} (h : NudgesFrom n k s) (e : NudgeInput) :
    NudgesFrom n k (s.step e) := by
  refine ⟨h.slot.move (move_step s e), h.nudges.trans (nudges_prefix_step s e).length_le, ?_⟩
  cases step_effect s e with
  | quiet _ _ hnudges =>
    rw [hnudges]
    exact h.recheck
  | nudged nudge _ _ _ hlive _ _ hnudges =>
    rw [hnudges, List.drop_append_of_le_length h.nudges]
    intro nudge' hmem id hid
    rcases List.mem_append.mp hmem with hmem | hmem
    · exact h.recheck nudge' hmem id hid
    · -- Only a live re-check nudges.
      obtain rfl := List.mem_singleton.mp hmem
      obtain ⟨wakeAt, hlive⟩ := hlive id hid
      exact h.slot.live id wakeAt hlive

/-- What cancels the deferred nudge: the user begins or ends a turn, or the client is gone. -/
def Cancels (e : NudgeInput) : Prop :=
  e = .userTurnStarted ∨ e = .userTurnStopped ∨ e = .clientDisconnected

theorem nudgesFrom_of_cancels (h : s.slot.Tracked) (he : Cancels e) :
    NudgesFrom s.slot.jobs.length s.nudges.length (s.step e) := by
  have hslot : (s.step e).slot = s.slot.cancel := by rcases he with rfl | rfl | rfl <;> rfl
  have hnudges : (s.step e).nudges = s.nudges := by rcases he with rfl | rfl | rfl <;> rfl
  refine ⟨hslot ▸ h.liveFrom_cancel, hnudges ▸ le_rfl, ?_⟩
  simp [hnudges]

end IdleNudge

open IdleNudge in
/-- In every run there are at most `IDLE_NUDGE_MAX` nudges between two ends of a user's turn; at most one
re-check is live; a nudge is queued only while nothing is playing; a re-check that was created before the
user began a turn or the client was gone does not nudge behind it; and only nudges count. -/
theorem nudges_bounded (langKey : String) (playout : BotPlayoutTracker) :
    let s := IdleNudge.new langKey playout
    (∀ before during, (∀ e ∈ during, e ≠ .userTurnStopped) →
      (exec step s (before ++ during)).nudges.length ≤
        (exec step s before).nudges.length + idleNudgeMax) ∧
    (∀ es id id' wakeAt wakeAt', (exec step s es).slot.Live id wakeAt →
      (exec step s es).slot.Live id' wakeAt' → id = id') ∧
    (∀ es e, (exec step s (es ++ [e])).nudges = (exec step s es).nudges ∨
      ∃ nudge, (exec step s (es ++ [e])).nudges = (exec step s es).nudges ++ [nudge] ∧
        e.asks = some (nudge.queuedAt, nudge.recheck) ∧
        (exec step s es).playout.remaining nudge.queuedAt ≤ 0) ∧
    (∀ before e after, Cancels e →
      ∀ nudge ∈ (exec step s (before ++ e :: after)).nudges.drop (exec step s before).nudges.length,
        ∀ id, nudge.recheck = some id → (exec step s before).slot.jobs.length ≤ id) ∧
    (∀ es e, (exec step s (es ++ [e])).idleNudgeCount =
      if e = .userTurnStopped then 0
      else (exec step s es).idleNudgeCount +
        ((exec step s (es ++ [e])).nudges.length - (exec step s es).nudges.length)) := by
  intro s
  have htracked : ∀ es, (exec step s es).slot.Tracked := tracked_exec TaskSlot.idle_empty
  refine ⟨fun before during hduring => ?_, fun es id id' wakeAt wakeAt' hlive hlive' => ?_,
    fun es e => ?_, fun before e after he => ?_, fun es e => ?_⟩
  -- The counter never exceeds the limit, and without a turn of the user it counts the nudges.
  · have hmax : (exec step s (before ++ during)).idleNudgeCount ≤ idleNudgeMax :=
      exec_invariant (I := fun s : IdleNudge => s.idleNudgeCount ≤ idleNudgeMax)
        (fun _ e h => count_le_step h e) (Nat.zero_le _) _
    have hcount := count_exec (s := exec step s before) hduring
    rw [← exec_append] at hcount
    omega
  · exact (htracked es).live_unique hlive hlive'
  · rw [exec_append]
    cases step_effect (exec step s es) e with
    | quiet _ _ hnudges => exact .inl hnudges
    | nudged nudge hasks hremaining _ _ _ _ hnudges => exact .inr ⟨nudge, hnudges, hasks, hremaining⟩
  -- After the cancellation only re-checks that were created later can nudge.
  · rw [exec_append, exec_cons]
    exact (exec_invariant (I := NudgesFrom _ _) (fun _ e h => h.after e)
      (nudgesFrom_of_cancels (htracked before) he) after).recheck
  · rw [exec_append]
    exact count_step (exec step s es) e

end Pipeline
