import VoiceAgentPlatform.Lib.Window
import VoiceAgentPlatform.Pipeline.EventBroadcaster

/-!
# The transcript of the talk page

`stores/session.js` keeps the bubbles of the transcript, the last 50 of them; `handleEvent` of
`TalkView.vue` makes them from the events of the call, which the broadcaster sends and also records for
the history.

* `pushTurn`, `handleEvent`: the page; `shown`: what it shows after some events.
* `whole`: the transcript without the window.
* `shown_eq_rtake`: the page shows the end of the whole transcript.
* `finals_whole`: the whole transcript and the history agree on what has been said.
-/

namespace Talk

open Pipeline (Event Payload Speaker EventBroadcaster)

/-- A bubble; `t` is the time of its arrival. -/
structure Turn where
  role : Speaker
  text : String
  isPartial : Bool
  t : ℚ
  deriving DecidableEq

/-- `MAX_TURNS`. -/
def maxTurns : ℕ := 50

/-- `trimTurns`: what is left of the turns. -/
def trimTurns (turns : List Turn) : List Turn :=
  if turns.length ≤ maxTurns then turns else turns.drop (turns.length - maxTurns)

/-- The turns with the last one changed. -/
def setLast (turns : List Turn) (last : Turn) : List Turn := turns.dropLast ++ [last]

/-- `pushTurn`, which trims the turns with `trim` after a new bubble. -/
def pushTurn (trim : List Turn → List Turn) (turns : List Turn) (role : Speaker) (text : String)
    (isPartial : Bool) (now : ℚ) : List Turn :=
  match turns.getLast? with
  | none => trim (turns ++ [⟨role, text, isPartial, now⟩])
  | some last =>
    if isPartial ∧ last.role = role ∧ last.isPartial then setLast turns { last with text }
    else if ¬ isPartial ∧ last.role = role ∧ last.isPartial then
      setLast turns { last with text, isPartial := false }
    else trim (turns ++ [⟨role, text, isPartial, now⟩])

/-- What the end of a response makes of its bubble. -/
def endTurn (last : Turn) (text : String) : Turn :=
  { last with text := if text = "" then last.text else text, isPartial := false }

/-- `handleEvent`, on the turns. An event of another type leaves them as they are. -/
def handleEvent (trim : List Turn → List Turn) (turns : List Turn) (evt : Option Event × ℚ) : List Turn :=
  match evt.1 with
  | some (.asrPartial text) => pushTurn trim turns .user text true evt.2
  | some (.asrFinal text) => pushTurn trim turns .user text false evt.2
  | some (.llmDelta text) =>
    match turns.getLast? with
    | none => pushTurn trim turns .bot text true evt.2
    | some last =>
      if last.role = .bot ∧ last.isPartial then setLast turns { last with text := last.text ++ text }
      else pushTurn trim turns .bot text true evt.2
  | some (.llmEnd text) =>
    match turns.getLast? with
    | none => turns
    | some last =>
      if last.role = .bot ∧ last.isPartial then
        setLast turns (endTurn last text)
      else turns
  | _ => turns

/-- What the page shows after some events of a call. -/
def shown (events : List (Option Event × ℚ)) : List Turn := events.foldl (handleEvent trimTurns) []

/-- What it would show without its window. -/
def whole (events : List (Option Event × ℚ)) : List Turn := events.foldl (handleEvent id) []

/-! ### The window -/

theorem setLast_concat (front : List Turn) (last last' : Turn) :
    setLast (front ++ [last]) last' = front ++ [last'] := by
  rw [setLast, List.dropLast_concat]

theorem pushTurn_concat (front : List Turn) (last : Turn) (role : Speaker) (text : String)
    (isPartial : Bool) (now : ℚ) :
    pushTurn id (front ++ [last]) role text isPartial now =
      front ++ pushTurn id [last] role text isPartial now := by
  unfold pushTurn
  rw [List.getLast?_concat, List.getLast?_singleton]
  dsimp only
  split_ifs
  · exact setLast_concat front last _
  · exact setLast_concat front last _
  · exact List.append_assoc front [last] _

theorem pushTurn_ne_nil (turns : List Turn) (role : Speaker) (text : String) (isPartial : Bool) (now : ℚ) :
    pushTurn id turns role text isPartial now ≠ [] := by
  unfold pushTurn
  split
  · exact List.append_ne_nil_of_right_ne_nil _ (List.cons_ne_nil _ _)
  · split_ifs <;> exact List.append_ne_nil_of_right_ne_nil _ (List.cons_ne_nil _ _)

/-- An event changes at most the last bubble. -/
theorem actsOnLast_handleEvent (evt : Option Event × ℚ) :
    Window.ActsOnLast fun turns => handleEvent id turns evt where
  concat front last := by
    unfold handleEvent
    rw [List.getLast?_concat, List.getLast?_singleton]
    dsimp only
    split
    · exact pushTurn_concat front last _ _ _ _
    · exact pushTurn_concat front last _ _ _ _
    · split_ifs
      · exact setLast_concat front last _
      · exact pushTurn_concat front last _ _ _ _
    · split_ifs
      · exact setLast_concat front last _
      · rfl
    · rfl
  ne_nil last := by
    unfold handleEvent
    rw [List.getLast?_singleton]
    dsimp only
    split
    · exact pushTurn_ne_nil _ _ _ _ _
    · exact pushTurn_ne_nil _ _ _ _ _
    · split_ifs
      · exact List.append_ne_nil_of_right_ne_nil _ (List.cons_ne_nil _ _)
      · exact pushTurn_ne_nil _ _ _ _ _
    · split_ifs
      · exact List.append_ne_nil_of_right_ne_nil _ (List.cons_ne_nil _ _)
      · exact List.cons_ne_nil _ _
    · exact List.cons_ne_nil _ _

theorem rtake_eq_self {turns : List Turn} {n : ℕ} (h : turns.length ≤ n) : turns.rtake n = turns := by
  rw [List.rtake, Nat.sub_eq_zero_of_le h, List.drop_zero]

theorem trimTurns_eq (turns : List Turn) : trimTurns turns = turns.rtake maxTurns := by
  unfold trimTurns
  split_ifs with h
  · exact (rtake_eq_self h).symm
  · rfl

theorem length_setLast {turns : List Turn} {last : Turn} (h : turns.getLast? = some last) (last' : Turn) :
    (setLast turns last').length = turns.length := by
  obtain ⟨front, rfl⟩ := List.getLast?_eq_some_iff.mp h
  rw [setLast_concat, List.length_append, List.length_append]
  rfl

theorem setLast_eq_rtake {turns : List Turn} {last : Turn} (h : turns.getLast? = some last)
    (hlength : turns.length ≤ maxTurns) (last' : Turn) :
    setLast turns last' = (setLast turns last').rtake maxTurns :=
  (rtake_eq_self ((length_setLast h last').trans_le hlength)).symm

theorem pushTurn_trimTurns {turns : List Turn} (h : turns.length ≤ maxTurns) (role : Speaker)
    (text : String) (isPartial : Bool) (now : ℚ) :
    pushTurn trimTurns turns role text isPartial now =
      (pushTurn id turns role text isPartial now).rtake maxTurns := by
  unfold pushTurn
  split
  next => exact trimTurns_eq _
  next last hlast =>
    split_ifs
    · exact setLast_eq_rtake hlast h _
    · exact setLast_eq_rtake hlast h _
    · exact trimTurns_eq _

/-- An event does to the window what it does to all turns, and the window is cut again. -/
theorem handleEvent_trimTurns {turns : List Turn} (h : turns.length ≤ maxTurns)
    (evt : Option Event × ℚ) :
    handleEvent trimTurns turns evt = (handleEvent id turns evt).rtake maxTurns := by
  unfold handleEvent
  split
  next => exact pushTurn_trimTurns h _ _ _ _
  next => exact pushTurn_trimTurns h _ _ _ _
  next =>
    split
    next => exact pushTurn_trimTurns h _ _ _ _
    next last hlast =>
      split_ifs
      · exact setLast_eq_rtake hlast h _
      · exact pushTurn_trimTurns h _ _ _ _
  next =>
    split
    next => exact (rtake_eq_self h).symm
    next last hlast =>
      split_ifs
      · exact setLast_eq_rtake hlast h _
      · exact (rtake_eq_self h).symm
  next => exact (rtake_eq_self h).symm

theorem length_rtake_le (turns : List Turn) (n : ℕ) : (turns.rtake n).length ≤ n := by
  rw [List.rtake, List.length_drop]
  omega

theorem foldl_handleEvent_trimTurns {turns : List Turn} (h : turns.length ≤ maxTurns)
    (events : List (Option Event × ℚ)) :
    events.foldl (handleEvent trimTurns) turns =
      events.foldl (fun turns evt => (handleEvent id turns evt).rtake maxTurns) turns := by
  induction events generalizing turns with
  | nil => rfl
  | cons evt events ih =>
    rw [List.foldl_cons, List.foldl_cons, handleEvent_trimTurns h, ih (length_rtake_le _ _)]

/-- However long the call gets, the page shows the last bubbles of its whole transcript, of which all but
the last one stay as they are whatever happens later. -/
theorem shown_eq_rtake (events later : List (Option Event × ℚ)) :
    shown events = (whole events).rtake maxTurns ∧
      (whole events).dropLast <+: (whole (events ++ later)).dropLast := by
  constructor
  · rw [shown, foldl_handleEvent_trimTurns (Nat.zero_le _), whole,
      ← Window.rtake_foldl actsOnLast_handleEvent (by decide), List.rtake_nil]
  · rw [whole, whole, List.foldl_append]
    exact Window.dropLast_isPrefix_foldl actsOnLast_handleEvent _ _

/-! ### What has been said -/

/-- The bubbles that are final, as who said what. -/
def finals (turns : List Turn) : List (Speaker × String) :=
  (turns.filter fun turn => !turn.isPartial).map fun turn => (turn.role, turn.text)

/-- What an event adds to the history. -/
def said (event : Event) : List (Speaker × String) :=
  match event with
  | .asrFinal text => [(.user, text)]
  | .llmEnd text => [(.bot, text)]
  | _ => []

theorem finals_concat (turns : List Turn) (turn : Turn) :
    finals (turns ++ [turn]) = finals turns ++ if turn.isPartial then [] else [(turn.role, turn.text)] := by
  rw [finals, List.filter_append, List.map_append]
  cases hopen : turn.isPartial
  · rw [List.filter_cons_of_pos (by rw [hopen]; rfl)]
    rfl
  · rw [List.filter_cons_of_neg (by rw [hopen]; simp)]
    rfl

/-- A partial bubble is replaced at the end of the final ones. -/
theorem finals_setLast {turns : List Turn} {last : Turn} (h : turns.getLast? = some last)
    (hopen : last.isPartial = true) (last' : Turn) :
    finals (setLast turns last') =
      finals turns ++ if last'.isPartial then [] else [(last'.role, last'.text)] := by
  obtain ⟨front, rfl⟩ := List.getLast?_eq_some_iff.mp h
  rw [setLast_concat, finals_concat, finals_concat, hopen, if_pos rfl, List.append_nil]

/-- A text that is pushed makes a final bubble if it is final itself. -/
theorem finals_pushTurn (turns : List Turn) (role : Speaker) (text : String) (isPartial : Bool) (now : ℚ) :
    finals (pushTurn id turns role text isPartial now) =
      finals turns ++ if isPartial then [] else [(role, text)] := by
  unfold pushTurn
  split
  next => exact finals_concat turns ⟨role, text, isPartial, now⟩
  next last hlast =>
    -- A partial bubble of the same role takes the text, and is not final itself.
    by_cases hmerge : last.role = role ∧ last.isPartial = true
    · cases isPartial with
      | true =>
        rw [if_pos ⟨rfl, hmerge⟩, finals_setLast hlast hmerge.2, hmerge.2, if_pos rfl, if_pos rfl]
      | false =>
        rw [if_neg (by simp), if_pos ⟨by simp, hmerge⟩, finals_setLast hlast hmerge.2, ← hmerge.1]
    · rw [if_neg fun h => hmerge h.2, if_neg fun h => hmerge h.2]
      exact finals_concat turns ⟨role, text, isPartial, now⟩

/-- What an event adds to the final bubbles is what it adds to the history, but for the end of a response
that finds no bubble, or that has no text. -/
theorem exists_finals_handleEvent (turns : List Turn) (evt : Option Event × ℚ) :
    ∃ added, finals (handleEvent id turns evt) = finals turns ++ added ∧
      added.filter (·.1 = .user) = (evt.1.toList.flatMap said).filter (·.1 = .user) ∧
      (evt.1 ≠ some (.llmEnd "") → added.Sublist (evt.1.toList.flatMap said)) := by
  obtain ⟨event, now⟩ := evt
  match event with
  | some (.asrPartial text) =>
    exact ⟨[], finals_pushTurn turns .user text true now, rfl, fun _ => List.Sublist.refl []⟩
  | some (.asrFinal text) =>
    exact ⟨[(.user, text)], finals_pushTurn turns .user text false now, rfl, fun _ => List.Sublist.refl _⟩
  | some (.llmDelta text) =>
    refine ⟨[], ?_, rfl, fun _ => List.Sublist.refl []⟩
    show finals (match turns.getLast? with | none => _ | some last => _) = _
    split
    next => exact finals_pushTurn turns .bot text true now
    next last hlast =>
      split_ifs with hlast'
      · rw [finals_setLast hlast hlast'.2, if_pos hlast'.2]
      · exact finals_pushTurn turns .bot text true now
  | some (.llmEnd text) =>
    -- The history has the end of a response in any case, and the page only at its bubble.
    cases hlast : turns.getLast? with
    | none =>
      refine ⟨[], ?_, rfl, fun _ => List.nil_sublist _⟩
      simp only [handleEvent, hlast, List.append_nil]
    | some last =>
      by_cases hbot : last.role = .bot ∧ last.isPartial = true
      · refine ⟨[(.bot, if text = "" then last.text else text)], ?_, rfl, fun htext => ?_⟩
        · simp only [handleEvent, hlast]
          rw [if_pos hbot, finals_setLast hlast hbot.2, ← hbot.1]
          rfl
        · have hne : text ≠ "" := fun h => htext (by rw [h])
          rw [if_neg hne]
          exact List.Sublist.refl _
      · refine ⟨[], ?_, rfl, fun _ => List.nil_sublist _⟩
        simp only [handleEvent, hlast]
        rw [if_neg hbot, List.append_nil]
  | none | some (.userSpeaking _) | some .llmStart | some .ttsStart | some .ttsEnd |
    some (.botSpeaking _) =>
    exact ⟨[], (List.append_nil _).symm, rfl, fun _ => List.Sublist.refl []⟩

/-- What the final bubbles of a run are made of. -/
theorem finals_foldl (turns : List Turn) (events : List (Option Event × ℚ)) :
    ∃ added, finals (events.foldl (handleEvent id) turns) = finals turns ++ added ∧
      added.filter (·.1 = .user) = ((events.filterMap Prod.fst).flatMap said).filter (·.1 = .user) ∧
      (.llmEnd "" ∉ events.filterMap Prod.fst →
        added.Sublist ((events.filterMap Prod.fst).flatMap said)) := by
  induction events generalizing turns with
  | nil => exact ⟨[], (List.append_nil _).symm, rfl, fun _ => List.Sublist.refl []⟩
  | cons evt events ih =>
    obtain ⟨first, hfirst, huser, hsublist⟩ := exists_finals_handleEvent turns evt
    obtain ⟨added, hadded, huser', hsublist'⟩ := ih (handleEvent id turns evt)
    have hcons : (evt :: events).filterMap Prod.fst = evt.1.toList ++ events.filterMap Prod.fst := by
      cases hevent : evt.1 with
      | none => rw [List.filterMap_cons_none hevent]; rfl
      | some event => rw [List.filterMap_cons_some hevent]; rfl
    refine ⟨first ++ added, ?_, ?_, fun hnot => ?_⟩
    · rw [List.foldl_cons, hadded, hfirst, List.append_assoc]
    · rw [List.filter_append, huser, huser', hcons, List.flatMap_append, List.filter_append]
    · rw [hcons, List.mem_append, not_or] at hnot
      rw [hcons, List.flatMap_append]
      refine (hsublist fun h => hnot.1 ?_).append (hsublist' hnot.2)
      rw [h]
      exact List.mem_singleton_self _

/-- The broadcaster records what it sends. -/
def Records (b : EventBroadcaster) : Prop :=
  b.recording = true ∧ b.recorded = b.emitted.filterMap Payload.turn?

theorem Records.send {b : EventBroadcaster} (h : Records b) (event : Event) (now : ℚ) :
    Records (b.send event now) := by
  refine ⟨h.1, ?_⟩
  simp only [EventBroadcaster.send, h.1, if_true, h.2, List.filterMap_append]
  rfl

theorem Records.congr {b b' : EventBroadcaster} (h : Records b) (hrecording : b'.recording = b.recording)
    (hrecorded : b'.recorded = b.recorded) (hemitted : b'.emitted = b.emitted) : Records b' := by
  rw [Records, hrecording, hrecorded, hemitted]
  exact h

theorem Records.feedAudio {b : EventBroadcaster} (h : Records b) (p : Pipeline.FramePushed) :
    Records (b.feedAudio p) := by
  unfold EventBroadcaster.feedAudio
  split
  · split_ifs
    · exact h.congr rfl rfl rfl
    · exact h
  · exact h

theorem Records.feedTurn {b : EventBroadcaster} (h : Records b) (p : Pipeline.FramePushed) :
    Records (b.feedTurn p) := by
  unfold EventBroadcaster.feedTurn
  split
  · exact h.congr rfl rfl rfl
  · exact h.congr rfl rfl rfl
  · exact h.congr rfl rfl rfl
  · exact h

theorem Records.broadcast {b : EventBroadcaster} (h : Records b) (p : Pipeline.FramePushed) :
    Records (b.broadcast p) := by
  have hbuffer (text : String) : Records { b with llmBuffer := text } := h.congr rfl rfl rfl
  unfold EventBroadcaster.broadcast
  split
  -- 5 to 7: a response starts, goes on and ends; 12: a frame that is not broadcast.
  case h_5 => exact (hbuffer "").send _ _
  case h_6 => exact (hbuffer _).send _ _
  case h_7 => exact (h.send (.llmEnd b.llmBuffer) p.now).congr rfl rfl rfl
  case h_12 => exact h
  all_goals exact h.send _ _

theorem Records.onPushFrame {b : EventBroadcaster} (h : Records b) (p : Pipeline.FramePushed) :
    Records (b.onPushFrame p) := by
  have hseen : Records { b.feedAudio p with seen := p.frame.id :: (b.feedAudio p).seen } :=
    (h.feedAudio p).congr rfl rfl rfl
  unfold EventBroadcaster.onPushFrame
  dsimp only
  split_ifs
  · exact h.feedAudio p
  · exact h.feedAudio p
  · exact (hseen.feedTurn p).broadcast p

theorem said_event (p : Payload) :
    said p.event = (p.turn?.toList).map fun turn => (turn.who, turn.text) := by
  rw [Payload.turn?]
  cases p.event <;> rfl

/-- The history of a call holds what was said by the events that were sent. -/
theorem map_recorded_eq {b : EventBroadcaster} (h : Records b) :
    (b.recorded.map fun turn => (turn.who, turn.text)) = (b.emitted.map Payload.event).flatMap said := by
  rw [h.2]
  induction b.emitted with
  | nil => rfl
  | cons p emitted ih =>
    rw [List.map_cons, List.flatMap_cons, said_event, ← ih]
    cases hturn : p.turn? with
    | none => rw [List.filterMap_cons_none hturn]; rfl
    | some turn => rw [List.filterMap_cons_some hturn]; rfl

/-- Whatever frames a call pushes, and whatever other events come between those of the broadcaster, the
final bubbles of the user are the user's turns in the history of the call. If no response ends without a
text, the final bubbles of both are turns of the history, in its order. -/
theorem finals_whole (start : ℚ) (playout : Option Pipeline.BotPlayoutTracker)
    (pushes : List Pipeline.FramePushed) {received : List (Option Event × ℚ)} {b : EventBroadcaster}
    (hb : b = Run.exec EventBroadcaster.onPushFrame (.new start true playout) pushes)
    (hreceived : received.filterMap Prod.fst = b.emitted.map Payload.event) :
    (finals (whole received)).filter (·.1 = .user) =
        (b.recorded.map fun turn => (turn.who, turn.text)).filter (·.1 = .user) ∧
      (.llmEnd "" ∉ b.emitted.map Payload.event →
        (finals (whole received)).Sublist (b.recorded.map fun turn => (turn.who, turn.text))) := by
  have hrecords : Records b := by
    rw [hb]
    exact Run.exec_invariant (fun b p h => h.onPushFrame p) ⟨rfl, rfl⟩ pushes
  obtain ⟨added, hadded, huser, hsublist⟩ := finals_foldl [] received
  rw [hreceived, ← map_recorded_eq hrecords] at huser hsublist
  rw [whole, hadded]
  exact ⟨huser, hsublist⟩

/-- A call in which the user breaks in while the bot speaks. -/
def samplePushes : List Pipeline.FramePushed :=
  [⟨⟨1, .transcription "hello"⟩, 1⟩, ⟨⟨1, .transcription "hello"⟩, 1⟩, ⟨⟨2, .llmFullResponseStart⟩, 2⟩,
    ⟨⟨3, .llmText "how "⟩, 2⟩, ⟨⟨4, .interimTranscription "wa"⟩, 3⟩, ⟨⟨5, .llmText "are"⟩, 3⟩,
    ⟨⟨6, .llmFullResponseEnd⟩, 3⟩, ⟨⟨7, .transcription "wait"⟩, 4⟩]

/-- What the page receives of it, with an event of a tool behind. -/
def sampleReceived : List (Option Event × ℚ) :=
  ((Run.exec EventBroadcaster.onPushFrame (.new 0 true none) samplePushes).emitted.map
    fun p => (some p.event, p.t)) ++ [(none, 5)]

theorem finals_whole_samplePushes :
    (finals (whole sampleReceived)).filter (·.1 = .user) = [(.user, "hello"), (.user, "wait")] ∧
      (finals (whole sampleReceived)).Sublist [(.user, "hello"), (.bot, "how are"), (.user, "wait")] := by
  have hreceived : sampleReceived.filterMap Prod.fst =
      (Run.exec EventBroadcaster.onPushFrame (.new 0 true none) samplePushes).emitted.map
        Payload.event := by decide +kernel
  have h := finals_whole 0 none samplePushes rfl hreceived
  exact ⟨h.1.trans (by decide +kernel), (h.2 (by decide +kernel)).trans (by decide +kernel)⟩

end Talk
