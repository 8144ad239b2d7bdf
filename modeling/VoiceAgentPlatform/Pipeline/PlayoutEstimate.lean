import VoiceAgentPlatform.Pipeline.EventBroadcaster

/-!
# The playout estimate against a player

The tracker, as the broadcaster drives it, next to a player that plays every audio frame when it has
arrived and the frames before it have been played.

* `Playback`: the tracker and the player, and what a frame does to them.
* `NeverEarly`: as long as the player has audio, the tracker says that some remains.
* `OnTime`: a frame at which the tracker stays with the player.
* `neverEarly_iff`: the estimate is never early exactly if all frames are on time.
-/

namespace Pipeline

open Run

/-- The tracker, and when the player will have played the audio that has arrived. -/
structure Playback where
  tracker : BotPlayoutTracker
  playedUntil : Option ℚ

namespace Playback

/-- No audio yet. -/
def new (outSampleRate channels : ℕ) : Playback := ⟨.new outSampleRate channels, none⟩

/-- The player with one more frame of audio, which is played when it arrives or when the frames before it
have been played, whichever is later. In an empty frame there is nothing to play. -/
def arrive (playedUntil : Option ℚ) (now secs : ℚ) : Option ℚ :=
  if secs = 0 then playedUntil else some (max (playedUntil.getD now) now + secs)

/-- How long some bytes of audio play. -/
def secsOf (s : Playback) (bytes : ℕ) : ℚ := audioSecs s.tracker.rate s.tracker.channels bytes

/-- What a frame does. -/
def step (s : Playback) (p : FramePushed) : Playback :=
  match p.frame.kind with
  | .ttsAudioRaw bytes =>
    { tracker := s.tracker.addAudio bytes p.now
      playedUntil := arrive s.playedUntil p.now (s.secsOf bytes) }
  | .botStartedSpeaking => { s with tracker := s.tracker.onBotTurnStart p.now }
  | .botStoppedSpeaking | .userStartedSpeaking => { s with tracker := s.tracker.onBotTurnEnd }
  | _ => s

/-- The player still has audio to play at the time `t`. -/
def Audible (s : Playback) (t : ℚ) : Prop := ∃ fin, s.playedUntil = some fin ∧ t < fin

/-- A turn begins after all audio before it has been played. Within a turn, the first audio comes at the
moment when the turn begins, and the later audio before the player runs dry. -/
def OnTime (s : Playback) (p : FramePushed) : Prop :=
  match p.frame.kind with
  | .botStartedSpeaking => s.tracker.turnActive = false → ¬ s.Audible p.now
  | .ttsAudioRaw bytes =>
    if s.tracker.turnActive = false then ¬ s.Audible p.now
    else s.secsOf bytes ≠ 0 →
      if s.tracker.botAudioSecs = 0 then s.tracker.ttsStartedAt = some p.now
      else ∃ fin, s.playedUntil = some fin ∧ p.now ≤ fin
  | _ => True

/-! ### The two sides -/

/-- The estimate is not behind the player. The clock is at `now`. -/
structure Ahead (now : ℚ) (s : Playback) : Prop where
  active : s.tracker.turnActive = true → ∃ start, s.tracker.ttsStartedAt = some start ∧ start ≤ now ∧
    (s.tracker.botAudioSecs = 0 → ∀ fin, s.playedUntil = some fin → fin ≤ start) ∧
    (s.tracker.botAudioSecs ≠ 0 → s.playedUntil = some (start + s.tracker.botAudioSecs))
  inactive : s.tracker.turnActive = false → ∀ fin, s.playedUntil = some fin →
    ∃ start, s.tracker.ttsStartedAt = some start ∧ fin ≤ start + s.tracker.botAudioSecs

/-- The estimate is behind the player, which has audio to play. The clock is at `now`. -/
structure Behind (now : ℚ) (s : Playback) : Prop where
  exists_lt : ∃ start fin, s.tracker.ttsStartedAt = some start ∧ s.playedUntil = some fin ∧
    start + s.tracker.botAudioSecs < fin ∧ now < fin

variable {s : Playback} {p : FramePushed} {now t : ℚ}

theorem remaining_eq {start : ℚ} (h : s.tracker.ttsStartedAt = some start) (t : ℚ) :
    s.tracker.remaining t = start + s.tracker.botAudioSecs - t := by
  rw [BotPlayoutTracker.remaining, BotPlayoutTracker.playoutFinishAt, h]
  rfl

/-- What the player has left is estimated to remain. -/
theorem Ahead.remaining_pos (h : s.Ahead now) (haudible : s.Audible t) : 0 < s.tracker.remaining t := by
  obtain ⟨fin, hfin, ht⟩ := haudible
  rcases hactive : s.tracker.turnActive with _ | _
  · obtain ⟨start, hstart, hle⟩ := h.inactive hactive fin hfin
    rw [remaining_eq hstart]
    linarith
  · obtain ⟨start, hstart, -, hnone, hsome⟩ := h.active hactive
    rw [remaining_eq hstart]
    by_cases hsecs : s.tracker.botAudioSecs = 0
    · have := hnone hsecs fin hfin
      linarith
    · obtain rfl := Option.some.inj ((hsome hsecs).symm.trans hfin)
      linarith

theorem not_audible_iff : ¬ s.Audible now ↔ ∀ fin, s.playedUntil = some fin → fin ≤ now :=
  ⟨fun h fin hfin => not_lt.mp fun hlt => h ⟨fin, hfin, hlt⟩,
    fun h ⟨fin, hfin, hlt⟩ => absurd (h fin hfin) (not_le.mpr hlt)⟩

theorem arrive_zero (playedUntil : Option ℚ) (now : ℚ) : arrive playedUntil now 0 = playedUntil :=
  if_pos rfl

/-- Audio that arrives when nothing is left to play. -/
theorem arrive_of_le {playedUntil : Option ℚ} (h : ∀ fin, playedUntil = some fin → fin ≤ now)
    {secs : ℚ} (hsecs : secs ≠ 0) : arrive playedUntil now secs = some (now + secs) := by
  rw [arrive, if_neg hsecs]
  match playedUntil with
  | none => rw [Option.getD_none, max_self]
  | some fin => rw [Option.getD_some, max_eq_right (h fin rfl)]

/-- Audio that arrives before the player runs dry. -/
theorem arrive_of_ge {fin : ℚ} (h : now ≤ fin) (secs : ℚ) :
    arrive (some fin) now secs = some (fin + secs) := by
  rw [arrive]
  split_ifs with hsecs
  · rw [hsecs, add_zero]
  · rw [Option.getD_some, max_eq_left h]

/-- The first audio of a turn that nothing has begun yet. -/
theorem step_audio_of_not_active {bytes : ℕ} (hkind : p.frame.kind = .ttsAudioRaw bytes)
    (hactive : s.tracker.turnActive = false) :
    (s.step p).tracker.turnActive = true ∧ (s.step p).tracker.ttsStartedAt = some p.now ∧
      (s.step p).tracker.botAudioSecs = s.secsOf bytes ∧
      (s.step p).playedUntil = arrive s.playedUntil p.now (s.secsOf bytes) := by
  rw [step, hkind]
  show (s.tracker.addAudio bytes p.now).turnActive = true ∧
    (s.tracker.addAudio bytes p.now).ttsStartedAt = some p.now ∧
    (s.tracker.addAudio bytes p.now).botAudioSecs = s.secsOf bytes ∧ _
  rw [BotPlayoutTracker.addAudio_of_not_active hactive]
  exact ⟨rfl, rfl, rfl, rfl⟩

/-- Further audio of a turn. -/
theorem step_audio_of_active {bytes : ℕ} (hkind : p.frame.kind = .ttsAudioRaw bytes)
    (hactive : s.tracker.turnActive = true) :
    (s.step p).tracker.turnActive = true ∧
      (s.step p).tracker.ttsStartedAt = s.tracker.ttsStartedAt ∧
      (s.step p).tracker.botAudioSecs = s.tracker.botAudioSecs + s.secsOf bytes ∧
      (s.step p).playedUntil = arrive s.playedUntil p.now (s.secsOf bytes) := by
  rw [step, hkind]
  show (s.tracker.addAudio bytes p.now).turnActive = true ∧
    (s.tracker.addAudio bytes p.now).ttsStartedAt = s.tracker.ttsStartedAt ∧
    (s.tracker.addAudio bytes p.now).botAudioSecs = s.tracker.botAudioSecs + s.secsOf bytes ∧ _
  rw [BotPlayoutTracker.addAudio_of_active hactive]
  exact ⟨hactive, rfl, audioSecs_add _ _ _ _, rfl⟩

/-- A turn that begins without audio. -/
theorem step_start_of_not_active (hkind : p.frame.kind = .botStartedSpeaking)
    (hactive : s.tracker.turnActive = false) :
    (s.step p).tracker.turnActive = true ∧ (s.step p).tracker.ttsStartedAt = some p.now ∧
      (s.step p).tracker.botAudioSecs = 0 ∧ (s.step p).playedUntil = s.playedUntil := by
  rw [step, hkind]
  show (s.tracker.onBotTurnStart p.now).turnActive = true ∧
    (s.tracker.onBotTurnStart p.now).ttsStartedAt = some p.now ∧
    (s.tracker.onBotTurnStart p.now).botAudioSecs = 0 ∧ _
  rw [BotPlayoutTracker.onBotTurnStart_of_not_active hactive]
  exact ⟨rfl, rfl, audioSecs_zero _ _, rfl⟩

/-- Any other frame changes at most whether a turn is active. -/
theorem step_other (haudio : ∀ bytes, p.frame.kind ≠ .ttsAudioRaw bytes)
    (hstart : p.frame.kind = .botStartedSpeaking → s.tracker.turnActive = true) :
    ((s.step p).tracker.turnActive = true → s.tracker.turnActive = true) ∧
      (s.step p).tracker.ttsStartedAt = s.tracker.ttsStartedAt ∧
      (s.step p).tracker.botAudioSecs = s.tracker.botAudioSecs ∧
      (s.step p).playedUntil = s.playedUntil := by
  rw [step]
  split
  next hkind => exact absurd hkind (haudio _)
  next hkind =>
    rw [BotPlayoutTracker.onBotTurnStart_of_active (hstart hkind)]
    exact ⟨id, rfl, rfl, rfl⟩
  next => exact ⟨nofun, rfl, rfl, rfl⟩
  next => exact ⟨nofun, rfl, rfl, rfl⟩
  next => exact ⟨id, rfl, rfl, rfl⟩

/-- A turn that begins when nothing is left to play. -/
theorem Ahead.of_beginning (hactive : s.tracker.turnActive = true)
    (hstart : s.tracker.ttsStartedAt = some now)
    (hnone : s.tracker.botAudioSecs = 0 → ∀ fin, s.playedUntil = some fin → fin ≤ now)
    (hsome : s.tracker.botAudioSecs ≠ 0 → s.playedUntil = some (now + s.tracker.botAudioSecs)) :
    s.Ahead now where
  active _ := ⟨now, hstart, le_rfl, hnone, hsome⟩
  inactive h := absurd (hactive.symm.trans h) nofun

/-- Whether a turn is active or not, the estimate is not behind. -/
theorem Ahead.le_finish (h : s.Ahead now) {fin : ℚ} (hfin : s.playedUntil = some fin) :
    ∃ start, s.tracker.ttsStartedAt = some start ∧ fin ≤ start + s.tracker.botAudioSecs := by
  rcases hactive : s.tracker.turnActive with _ | _
  · exact h.inactive hactive fin hfin
  · obtain ⟨start, hstart, -, hnone, hsome⟩ := h.active hactive
    refine ⟨start, hstart, ?_⟩
    by_cases hsecs : s.tracker.botAudioSecs = 0
    · rw [hsecs, add_zero]
      exact hnone hsecs fin hfin
    · exact (Option.some.inj (hfin.symm.trans (hsome hsecs))).le

/-- Audio that comes on time. -/
theorem Ahead.audio (h : s.Ahead now) (hnow : now ≤ p.now) {bytes : ℕ}
    (hkind : p.frame.kind = .ttsAudioRaw bytes) (hontime : s.OnTime p) : (s.step p).Ahead p.now := by
  rw [OnTime, hkind] at hontime
  rcases hactive : s.tracker.turnActive with _ | _
  · obtain ⟨hactive', hstart', hsecs', hfin'⟩ := step_audio_of_not_active hkind hactive
    have hquiet : ¬ s.Audible p.now := by simpa [hactive] using hontime
    apply Ahead.of_beginning hactive' hstart'
    · intro hzero
      rw [hsecs'] at hzero
      rw [hfin', hzero, arrive_zero]
      exact not_audible_iff.mp hquiet
    · rw [hsecs', hfin']
      exact arrive_of_le (not_audible_iff.mp hquiet)
  · obtain ⟨hactive', hstart', hsecs', hfin'⟩ := step_audio_of_active hkind hactive
    have hfirst : s.secsOf bytes ≠ 0 →
        if s.tracker.botAudioSecs = 0 then s.tracker.ttsStartedAt = some p.now
        else ∃ fin, s.playedUntil = some fin ∧ p.now ≤ fin := by simpa [hactive] using hontime
    obtain ⟨start, hstart, hbefore, hnone, hsome⟩ := h.active hactive
    refine ⟨fun _ => ⟨start, hstart'.trans hstart, hbefore.trans hnow, ?_⟩,
      fun hinactive => absurd (hactive'.symm.trans hinactive) nofun⟩
    rw [hsecs', hfin']
    by_cases hempty : s.secsOf bytes = 0
    · rw [hempty, add_zero, arrive_zero]
      exact ⟨hnone, hsome⟩
    · have hpos : 0 < s.secsOf bytes := lt_of_le_of_ne (audioSecs_nonneg _ _ _) (Ne.symm hempty)
      have hnonneg : 0 ≤ s.tracker.botAudioSecs := audioSecs_nonneg _ _ _
      refine ⟨fun hzero => absurd hzero (by linarith), fun _ => ?_⟩
      have hcase := hfirst hempty
      split_ifs at hcase with hsecs
      · -- The turn begins at this moment.
        obtain rfl := Option.some.inj (hstart.symm.trans hcase)
        rw [hsecs, zero_add]
        exact arrive_of_le (hnone hsecs) hempty
      · obtain ⟨fin, hfin, hle⟩ := hcase
        have heq := hsome hsecs
        obtain rfl := Option.some.inj (hfin.symm.trans heq)
        rw [heq, arrive_of_ge hle, add_assoc]

/-- A frame on time keeps the estimate from falling behind. -/
theorem Ahead.step_of_onTime (h : s.Ahead now) (hnow : now ≤ p.now) (hontime : s.OnTime p) :
    (s.step p).Ahead p.now := by
  by_cases haudio : ∃ bytes, p.frame.kind = .ttsAudioRaw bytes
  · obtain ⟨bytes, hkind⟩ := haudio
    exact h.audio hnow hkind hontime
  by_cases hbegins : p.frame.kind = .botStartedSpeaking ∧ s.tracker.turnActive = false
  · obtain ⟨hkind, hactive⟩ := hbegins
    rw [OnTime, hkind] at hontime
    obtain ⟨hactive', hstart', hsecs', hfin'⟩ := step_start_of_not_active hkind hactive
    apply Ahead.of_beginning hactive' hstart'
    · rw [hfin']
      exact fun _ => not_audible_iff.mp (hontime hactive)
    · exact fun hsecs => absurd hsecs' hsecs
  · -- No audio, and no new turn: the estimate is as it was.
    have hstarted : p.frame.kind = .botStartedSpeaking → s.tracker.turnActive = true :=
      fun hkind => by simpa [hkind] using hbegins
    obtain ⟨hactive', hstart', hsecs', hfin'⟩ :=
      step_other (fun bytes hkind => haudio ⟨bytes, hkind⟩) hstarted
    constructor
    · intro hactive
      obtain ⟨start, hstart, hbefore, hrest⟩ := h.active (hactive' hactive)
      rw [hstart', hsecs', hfin']
      exact ⟨start, hstart, hbefore.trans hnow, hrest⟩
    · intro _ fin hfin
      rw [hstart', hsecs']
      exact h.le_finish (hfin'.symm.trans hfin)

theorem lt_arrive {playedUntil : Option ℚ} {secs : ℚ} (hsecs : 0 < secs) :
    ∃ fin, arrive playedUntil now secs = some fin ∧ now + secs ≤ fin := by
  refine ⟨_, if_neg hsecs.ne', ?_⟩
  linarith [le_max_right (playedUntil.getD now) now]

/-- Once it is behind and the player has audio left, every frame keeps it behind. -/
theorem behind_step {start fin : ℚ} (hstart : s.tracker.ttsStartedAt = some start)
    (hfin : s.playedUntil = some fin) (hlt : start + s.tracker.botAudioSecs < fin)
    (hnow : p.now < fin) : (s.step p).Behind p.now := by
  have hnonneg (bytes : ℕ) : 0 ≤ s.secsOf bytes := audioSecs_nonneg _ _ _
  by_cases haudio : ∃ bytes, p.frame.kind = .ttsAudioRaw bytes
  · obtain ⟨bytes, hkind⟩ := haudio
    have harrive : arrive s.playedUntil p.now (s.secsOf bytes) = some (fin + s.secsOf bytes) := by
      rw [hfin]
      exact arrive_of_ge hnow.le _
    rcases hactive : s.tracker.turnActive with _ | _
    · obtain ⟨-, hstart', hsecs', hfin'⟩ := step_audio_of_not_active hkind hactive
      refine ⟨⟨p.now, _, hstart', hfin'.trans harrive, ?_, ?_⟩⟩
      · rw [hsecs']
        linarith
      · linarith [hnonneg bytes]
    · obtain ⟨-, hstart', hsecs', hfin'⟩ := step_audio_of_active hkind hactive
      refine ⟨⟨start, _, hstart'.trans hstart, hfin'.trans harrive, ?_, ?_⟩⟩
      · rw [hsecs']
        linarith
      · linarith [hnonneg bytes]
  by_cases hbegins : p.frame.kind = .botStartedSpeaking ∧ s.tracker.turnActive = false
  · -- The clock is anchored anew while the player goes on.
    obtain ⟨-, hstart', hsecs', hfin'⟩ := step_start_of_not_active hbegins.1 hbegins.2
    refine ⟨⟨p.now, fin, hstart', hfin'.trans hfin, ?_, hnow⟩⟩
    rw [hsecs', add_zero]
    exact hnow
  · obtain ⟨-, hstart', hsecs', hfin'⟩ := step_other (fun bytes hkind => haudio ⟨bytes, hkind⟩)
      fun hkind => by simpa [hkind] using hbegins
    exact ⟨⟨start, fin, hstart'.trans hstart, hfin'.trans hfin, by rwa [hsecs'], hnow⟩⟩

/-- A frame that is not on time makes the estimate fall behind. -/
theorem Ahead.behind_step (h : s.Ahead now) (hnow : now ≤ p.now) (hlate : ¬ s.OnTime p) :
    (s.step p).Behind p.now := by
  rw [OnTime] at hlate
  split at hlate
  next hkind =>
    -- A turn begins while the audio of the turn before is played.
    rw [Classical.not_imp, not_not] at hlate
    obtain ⟨hactive, fin, hfin, hlt⟩ := hlate
    obtain ⟨start, hstart, hle⟩ := h.inactive hactive fin hfin
    obtain ⟨-, hstart', hsecs', hfin'⟩ := step_start_of_not_active hkind hactive
    refine ⟨⟨p.now, fin, hstart', hfin'.trans hfin, ?_, hlt⟩⟩
    rw [hsecs', add_zero]
    exact hlt
  next bytes hkind =>
    have hnonneg : 0 ≤ s.secsOf bytes := audioSecs_nonneg _ _ _
    rcases hactive : s.tracker.turnActive with _ | _
    · obtain ⟨fin, hfin, hlt⟩ : s.Audible p.now := by simpa [hactive] using hlate
      obtain ⟨-, hstart', hsecs', hfin'⟩ := step_audio_of_not_active hkind hactive
      rw [hfin, arrive_of_ge hlt.le] at hfin'
      refine ⟨⟨p.now, _, hstart', hfin', ?_, ?_⟩⟩
      · rw [hsecs']
        linarith
      · linarith
    · obtain ⟨-, hstart', hsecs', hfin'⟩ := step_audio_of_active hkind hactive
      obtain ⟨start, hstart, hbefore, hnone, hsome⟩ := h.active hactive
      rw [hactive, if_neg nofun, Classical.not_imp] at hlate
      obtain ⟨hempty, hlate⟩ := hlate
      have hpos : 0 < s.secsOf bytes := lt_of_le_of_ne hnonneg (Ne.symm hempty)
      obtain ⟨fin, hfin, hge⟩ :
          ∃ fin, arrive s.playedUntil p.now _ = some fin ∧ p.now + _ ≤ fin := lt_arrive hpos
      refine ⟨⟨start, fin, hstart'.trans hstart, hfin'.trans hfin, ?_, by linarith⟩⟩
      rw [hsecs']
      split_ifs at hlate with hsecs
      · -- The turn began before its first audio.
        have hne : start ≠ p.now := fun heq => hlate (heq ▸ hstart)
        have hlt : start < p.now := lt_of_le_of_ne (hbefore.trans hnow) hne
        rw [hsecs]
        linarith
      · -- The player ran dry within the turn.
        have hdry : start + s.tracker.botAudioSecs < p.now :=
          not_le.mp fun hle => hlate ⟨_, hsome hsecs, hle⟩
        linarith
  next => exact absurd trivial hlate

/-- At some time from `now` on the player has audio and the estimate says that nothing remains. -/
def EarlyFrom (now : ℚ) (s : Playback) (pushes : List FramePushed) : Prop :=
  ∃ pre post t, pushes = pre ++ post ∧ now ≤ t ∧ (∀ p ∈ pre, p.now ≤ t) ∧ (∀ p ∈ post, t < p.now) ∧
    (exec step s pre).Audible t ∧ (exec step s pre).tracker.remaining t ≤ 0

/-- An estimate that is behind is early before the player has caught up. -/
theorem Behind.earlyFrom {pushes : List FramePushed} (h : s.Behind now)
    (hsorted : pushes.Pairwise fun p q => p.now ≤ q.now) (hnow : ∀ p ∈ pushes, now ≤ p.now) :
    EarlyFrom now s pushes := by
  induction pushes generalizing now s with
  | nil =>
    obtain ⟨start, fin, hstart, hfin, hlt, hleft⟩ := h.exists_lt
    refine ⟨[], [], max (start + s.tracker.botAudioSecs) now, rfl, le_max_right _ _, nofun, nofun,
      ⟨fin, hfin, max_lt hlt hleft⟩, ?_⟩
    rw [exec_nil, remaining_eq hstart]
    linarith [le_max_left (start + s.tracker.botAudioSecs) now]
  | cons p pushes ih =>
    obtain ⟨hp, hsorted⟩ := List.pairwise_cons.mp hsorted
    obtain ⟨start, fin, hstart, hfin, hlt, hleft⟩ := h.exists_lt
    rcases lt_or_ge (max (start + s.tracker.botAudioSecs) now) p.now with hbefore | hafter
    · -- The estimate runs out before the next frame.
      refine ⟨[], p :: pushes, max (start + s.tracker.botAudioSecs) now, rfl, le_max_right _ _, nofun,
        ?_, ⟨fin, hfin, max_lt hlt hleft⟩, ?_⟩
      · intro q hq
        rcases List.mem_cons.mp hq with rfl | hq
        · exact hbefore
        · exact hbefore.trans_le (hp q hq)
      · rw [exec_nil, remaining_eq hstart]
        linarith [le_max_left (start + s.tracker.botAudioSecs) now]
    · have hstill : p.now < fin := hafter.trans_lt (max_lt hlt hleft)
      obtain ⟨pre, post, t, rfl, ht, hpre, hpost, hearly⟩ :=
        ih (behind_step hstart hfin hlt hstill) hsorted hp
      refine ⟨p :: pre, post, t, rfl, (hnow p List.mem_cons_self).trans ht, ?_, hpost, hearly⟩
      exact List.forall_mem_cons.mpr ⟨ht, hpre⟩

/-- The estimate is early at some time exactly if some frame is not on time. -/
theorem Ahead.not_earlyFrom_iff {pushes : List FramePushed} (h : s.Ahead now)
    (hsorted : pushes.Pairwise fun p q => p.now ≤ q.now) (hnow : ∀ p ∈ pushes, now ≤ p.now) :
    ¬ EarlyFrom now s pushes ↔ Guarded step OnTime s pushes := by
  induction pushes generalizing now s with
  | nil =>
    refine iff_of_true ?_ trivial
    rintro ⟨pre, post, t, heq, -, -, -, haudible, hremaining⟩
    obtain ⟨rfl, -⟩ := List.append_eq_nil_iff.mp heq.symm
    exact absurd (h.remaining_pos haudible) (not_lt.mpr hremaining)
  | cons p pushes ih =>
    obtain ⟨hp, hsorted'⟩ := List.pairwise_cons.mp hsorted
    have hle := hnow p List.mem_cons_self
    rw [Guarded]
    by_cases hontime : s.OnTime p
    · -- Nothing is early before the first push, as the estimate is ahead there.
      have hrest : EarlyFrom now s (p :: pushes) ↔ EarlyFrom p.now (s.step p) pushes := by
        constructor
        · rintro ⟨pre, post, t, heq, ht, hpre, hpost, haudible, hremaining⟩
          rcases pre with _ | ⟨q, pre⟩
          · exact absurd (h.remaining_pos haudible) (not_lt.mpr hremaining)
          · obtain ⟨rfl, hpushes⟩ := List.cons.inj heq
            obtain ⟨hq, hpre⟩ := List.forall_mem_cons.mp hpre
            exact ⟨pre, post, t, hpushes, hq, hpre, hpost, haudible, hremaining⟩
        · rintro ⟨pre, post, t, rfl, ht, hpre, hpost, hearly⟩
          exact ⟨p :: pre, post, t, rfl, hle.trans ht, List.forall_mem_cons.mpr ⟨ht, hpre⟩, hpost,
            hearly⟩
      rw [hrest, ih (h.step_of_onTime hle hontime) hsorted' hp, and_iff_right hontime]
    · -- A push that is late leaves the estimate behind what is heard.
      have hearly := h.behind_step hle hontime |>.earlyFrom hsorted' hp
      obtain ⟨pre, post, t, rfl, ht, hpre, hpost, hearly⟩ := hearly
      refine iff_of_false (not_not.mpr ⟨p :: pre, post, t, rfl, hle.trans ht, ?_, hpost, hearly⟩)
        fun hguarded => hontime hguarded.1
      exact List.forall_mem_cons.mpr ⟨ht, hpre⟩

end Playback

/-! ### The broadcaster -/

namespace EventBroadcaster

variable {b : EventBroadcaster} {p : FramePushed} {s : Playback}

/-- The first push of a frame does to the tracker of the broadcaster what it does to the tracker alone. -/
theorem playout_onPushFrame (h : b.playout = some s.tracker) (hnew : p.frame.id ∉ b.seen) :
    (b.onPushFrame p).playout = some (s.step p).tracker := by
  by_cases haudio : ∃ bytes, p.frame.kind = .ttsAudioRaw bytes
  · obtain ⟨bytes, hkind⟩ := haudio
    rw [onPushFrame_of_not_watched (by rw [hkind]; rfl), feedAudio, Playback.step, h, hkind]
    simp [hnew]
  rcases hwatched : p.frame.kind.watched with _ | _
  · rw [onPushFrame_of_not_watched hwatched, feedAudio, Playback.step, h]
    -- Audio has been dealt with, and the frames of the turn are watched.
    split
    next hkind => exact absurd ⟨_, hkind⟩ haudio
    next =>
      split
      next hkind => exact absurd ⟨_, hkind⟩ haudio
      next hkind => rw [hkind] at hwatched; cases hwatched
      next hkind => rw [hkind] at hwatched; cases hwatched
      next hkind => rw [hkind] at hwatched; cases hwatched
      next => exact h
  · rw [onPushFrame_of_watched hwatched hnew, playout_broadcast, feedTurn, Playback.step]
    split
    next hkind => simp [hkind, h]
    next hkind => simp [hkind, h]
    next hkind => simp [hkind, h]
    next hstart hstop huser =>
      split
      next hkind => exact absurd ⟨_, hkind⟩ haudio
      next hkind => exact absurd hkind hstart
      next hkind => exact absurd hkind hstop
      next hkind => exact absurd hkind huser
      next => exact h

/-- The broadcaster drives its tracker as the frames say. -/
theorem playout_exec (h : b.playout = some s.tracker) {pushes : List FramePushed}
    (hdistinct : (pushes.map fun p => p.frame.id).Nodup) (hnew : ∀ p ∈ pushes, p.frame.id ∉ b.seen) :
    (exec onPushFrame b pushes).playout = some (exec Playback.step s pushes).tracker := by
  induction pushes generalizing b s with
  | nil => exact h
  | cons p pushes ih =>
    obtain ⟨hp, hnew⟩ := List.forall_mem_cons.mp hnew
    exact ih (playout_onPushFrame h hp) hdistinct.of_cons (notMem_seen_onPushFrame hdistinct hnew)

end EventBroadcaster

/-- Distinct frames, pushed one after the other. -/
structure TimedFrames extends FrameSequence where
  sorted : pushes.Pairwise fun p q => p.now ≤ q.now

/-- At every time `t`, when the frames in `pre` have been pushed: if the player still has audio, the
tracker of the broadcaster says that some remains. -/
def NeverEarly (b : EventBroadcaster) (player : Playback) (pushes : List FramePushed) : Prop :=
  ∀ pre post t, pushes = pre ++ post → (∀ p ∈ pre, p.now ≤ t) → (∀ p ∈ post, t < p.now) →
    (exec Playback.step player pre).Audible t →
      ∃ tracker, (exec EventBroadcaster.onPushFrame b pre).playout = some tracker ∧
        0 < tracker.remaining t

/-- **The playout estimate.** It is never early exactly if all frames are on time. -/
theorem neverEarly_iff (start : ℚ) (recording : Bool) (outSampleRate channels : ℕ)
    (frames : TimedFrames) :
    NeverEarly (.new start recording (some (.new outSampleRate channels)))
        (.new outSampleRate channels) frames.pushes ↔
      Guarded Playback.step Playback.OnTime (.new outSampleRate channels) frames.pushes := by
  -- The broadcaster drives the tracker as the player does, since each frame comes once.
  have htracker (pre post : List FramePushed) (hpushes : frames.pushes = pre ++ post) :
      (exec EventBroadcaster.onPushFrame
          (.new start recording (some (.new outSampleRate channels))) pre).playout =
        some (exec Playback.step (.new outSampleRate channels) pre).tracker := by
    have hdistinct := frames.distinct
    rw [hpushes, List.map_append] at hdistinct
    exact EventBroadcaster.playout_exec rfl hdistinct.of_append_left fun _ _ => List.not_mem_nil
  have hquiet (t : ℚ) : ¬ (Playback.new outSampleRate channels).Audible t := nofun
  have hsorted := frames.sorted
  -- Never early is the absence of a moment at which the estimate has run out and audio plays.
  have hfrom : NeverEarly (.new start recording (some (.new outSampleRate channels)))
        (.new outSampleRate channels) frames.pushes ↔
      ¬ Playback.EarlyFrom (frames.pushes.head?.elim 0 FramePushed.now) (.new outSampleRate channels)
        frames.pushes := by
    constructor
    · rintro hnever ⟨pre, post, t, hpushes, -, hpre, hpost, haudible, hremaining⟩
      obtain ⟨tracker, hplayout, hpos⟩ := hnever pre post t hpushes hpre hpost haudible
      rw [htracker pre post hpushes] at hplayout
      obtain rfl := Option.some.inj hplayout
      exact absurd hpos (not_lt.mpr hremaining)
    · intro hnot pre post t hpushes hpre hpost haudible
      refine ⟨_, htracker pre post hpushes, not_le.mp fun hremaining => hnot ?_⟩
      refine ⟨pre, post, t, hpushes, ?_, hpre, hpost, haudible, hremaining⟩
      match pre with
      | [] => exact absurd haudible (hquiet t)
      | p :: pre =>
        rw [hpushes]
        exact hpre p List.mem_cons_self
  have hahead : Playback.Ahead (frames.pushes.head?.elim 0 FramePushed.now)
      (.new outSampleRate channels) := ⟨fun h => absurd h nofun, fun _ _ h => absurd h nofun⟩
  rw [hfrom]
  apply hahead.not_earlyFrom_iff hsorted
  intro p hp
  match hpushes : frames.pushes with
  | [] => exact absurd (hpushes ▸ hp) List.not_mem_nil
  | q :: pushes =>
    rw [hpushes] at hp hsorted
    rcases List.mem_cons.mp hp with rfl | hp
    · exact le_rfl
    · exact (List.pairwise_cons.mp hsorted).1 p hp

/-- Ten seconds of audio are generated in one second, and the next turn begins a second later. -/
def backlog : TimedFrames where
  pushes :=
    [⟨⟨1, .ttsAudioRaw 480000⟩, 0⟩, ⟨⟨2, .botStartedSpeaking⟩, 0⟩, ⟨⟨3, .botStoppedSpeaking⟩, 1⟩,
      ⟨⟨4, .ttsAudioRaw 48000⟩, 2⟩]
  distinct := by decide
  sorted := by decide +kernel

/-- Four seconds after the beginning seven seconds are still to be played, but the estimate says that the
audio has ended a second before. -/
theorem backlog_early :
    (exec Playback.step (.new 24000 1) backlog.pushes).playedUntil = some 11 ∧
      (exec EventBroadcaster.onPushFrame (.new 0 false (some (.new 24000 1)))
        backlog.pushes).playout.map (fun tracker => tracker.remaining 4) = some (-1) ∧
      ¬ NeverEarly (.new 0 false (some (.new 24000 1))) (.new 24000 1) backlog.pushes := by
  have hplayed : (exec Playback.step (.new 24000 1) backlog.pushes).playedUntil = some 11 := by
    decide +kernel
  have hremaining : (exec EventBroadcaster.onPushFrame (.new 0 false (some (.new 24000 1)))
      backlog.pushes).playout.map (fun tracker => tracker.remaining 4) = some (-1) := by
    decide +kernel
  refine ⟨hplayed, hremaining, fun hnever => ?_⟩
  obtain ⟨tracker, hplayout, hpos⟩ := hnever backlog.pushes [] 4 (List.append_nil _).symm
    (by decide +kernel) nofun ⟨11, hplayed, by norm_num⟩
  rw [hplayout, Option.map_some, Option.some.injEq] at hremaining
  linarith

end Pipeline
