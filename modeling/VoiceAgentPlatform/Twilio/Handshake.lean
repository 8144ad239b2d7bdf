import VoiceAgentPlatform.Lib.Json
import VoiceAgentPlatform.Twilio.Signature

/-!
# The handshake of a Twilio media stream

The frames that an unauthenticated peer sends before its `start` message, and what the endpoint does with
this message.

* `twilioReadStart`, `twilioMediaStream`: as the source has them.
* `HandshakeExact`: what is accepted, and what is done.
* `Handled`: the frames that are handled so; `handshakeExact_iff`.
-/

namespace Twilio

/-- What a JSON text is to `json.loads`. -/
inductive JsonError where
  | value
  | recursion
  deriving DecidableEq

/-- What is raised to the server. -/
inductive Raised where
  | attribute
  | recursion
  deriving DecidableEq

/-- `json.loads`, up to the kind of what it raises. -/
def jsonLoads [Json.Python] (raw : String) : Except JsonError PyVal :=
  match Json.loads raw with
  | .ok msg => .ok msg
  | .error (.recursion _) => .error .recursion
  -- A `JSONDecodeError` is a `ValueError`, as is what too many digits raise.
  | .error _ => .error .value

/-- `_twilio_read_start`: the frames that arrive; when there are no more, `receive_text` raises. -/
def twilioReadStart [Json.Python] : List String → Except Raised (Option PyDict)
  | [] => .ok none
  | raw :: frames =>
    match jsonLoads raw with
    | .error .value => .ok none
    | .error .recursion => .error .recursion
    | .ok (.dict msg) =>
      let event := PyDict.get msg "event"
      if event = .str "connected" then twilioReadStart frames
      else if event = .str "start" then .ok (some msg)
      else .ok none
    | .ok _ => .error .attribute

/-- What the endpoint does. -/
inductive Action where
  | accept
  | close (code : ℕ)
  | sessionRegister (callId : String) (caller : PyVal)
  | runPhoneSession (callId : String) (streamSid callSid : PyVal) (autoHangUp : Bool)
  deriving DecidableEq

/-- `value.get`. -/
def asDict : PyVal → Except Raised PyDict
  | .dict d => .ok d
  | _ => .error .attribute

/-- `twilio_media_stream` behind the handshake. -/
def onStart (pyStr : PyVal → String) (cfg : TwilioConfig) (start : PyDict) :
    Except Raised (List Action) := do
  -- A payload that is falsy stands for an empty one; one of another type raises.
  let startData := (start.get "start").orElse (.dict [])
  let streamSid ←
    if (start.get "streamSid").truthy then pure (start.get "streamSid")
    else do pure ((← asDict startData).get "streamSid")
  let callSid ←
    if (start.get "callSid").truthy then pure (start.get "callSid")
    else do pure ((← asDict startData).get "callSid")
  let customParameters ← asDict (((← asDict startData).get "customParameters").orElse (.dict []))
  let caller := customParameters.get "caller"
  -- The socket has been accepted when the stream id is found missing.
  if !streamSid.truthy then return [.accept, .close 1008]
  let haveHangupCreds := callSid.truthy && cfg.accountSid ≠ "" && cfg.authToken ≠ ""
  let callId := "twilio-" ++ pyStr streamSid
  return [.accept, .sessionRegister callId caller,
    .runPhoneSession callId streamSid callSid haveHangupCreds]

/-- `twilio_media_stream`. -/
def twilioMediaStream [Json.Python] (pyStr : PyVal → String) (cfg : TwilioConfig)
    (frames : List String) : Except Raised (List Action) :=
  if !cfg.enabled then .ok [.accept, .close 1011]
  else
    match twilioReadStart frames with
    | .error raised => .error raised
    | .ok none => .ok [.accept, .close 1008]
    | .ok (some start) => onStart pyStr cfg start

/-! ### What is accepted -/

/-- A frame is a JSON object with an event, whatever its size. -/
def IsMessage [Json.Python] (event raw : String) (msg : PyDict) : Prop :=
  Json.value? Json.Python.standIn raw = some (.dict msg) ∧ msg.get "event" = .str event

/-- The frames begin with `connected` messages, and a `start` message behind them. -/
def BeginsWithStart [Json.Python] (frames : List String) (msg : PyDict) : Prop :=
  ∃ pre raw post, frames = pre ++ raw :: post ∧ (∀ p ∈ pre, ∃ m, IsMessage "connected" p m) ∧
    IsMessage "start" raw msg

/-- The endpoint registers one session and runs it. -/
def StartsSession (actions : List Action) : Prop :=
  ∃ callId caller streamSid callSid autoHangUp,
    actions = [.accept, .sessionRegister callId caller,
      .runPhoneSession callId streamSid callSid autoHangUp]

/-- The endpoint closes the socket and registers no session. -/
def Closes (actions : List Action) : Prop := ∃ code, actions = [.accept, .close code]

/-- The start message is returned exactly if the frames begin with it behind `connected` messages, and
`None` otherwise; without a message the socket is closed, and with one it is closed or a session is
started. -/
structure HandshakeExact [Json.Python] (pyStr : PyVal → String) (cfg : TwilioConfig)
    (frames : List String) : Prop where
  accepts : ∀ msg, twilioReadStart frames = .ok (some msg) ↔ BeginsWithStart frames msg
  otherwise : (∀ msg, ¬ BeginsWithStart frames msg) → twilioReadStart frames = .ok none
  closes : twilioReadStart frames = .ok none →
    ∃ actions, twilioMediaStream pyStr cfg frames = .ok actions ∧ Closes actions
  starts : ∀ msg, twilioReadStart frames = .ok (some msg) →
    ∃ actions, twilioMediaStream pyStr cfg frames = .ok actions ∧
      (Closes actions ∨ StartsSession actions)

/-- The fields of a start message can be read: `start` is an object or falsy, and so are its
`customParameters`. -/
def Readable (msg : PyDict) : Prop :=
  ∃ startData customParameters, (msg.get "start").orElse (.dict []) = .dict startData ∧
    (PyDict.get startData "customParameters").orElse (.dict []) = .dict customParameters

/-- The first frame that is no `connected` message, if there is one, is not nested too deeply, is an object
if it is JSON, and can be read if it is a start message. No `connected` message before it is nested too
deeply. If too many digits stop the parser in one of them, no start message is missed. -/
def Handled [Json.Python] (cfg : TwilioConfig) : List String → Prop
  | [] => True
  | raw :: frames =>
    match Json.loads raw with
    | .error .decode => True
    | .error (.digits _) => ∀ msg, ¬ BeginsWithStart (raw :: frames) msg
    | .error (.recursion _) => False
    | .ok (.dict msg) =>
      if PyDict.get msg "event" = .str "connected" then Handled cfg frames
      else PyDict.get msg "event" = .str "start" → cfg.enabled = true → Readable msg
    | .ok _ => False

variable {pyStr : PyVal → String} {cfg : TwilioConfig} {raw : String} {frames : List String} {msg : PyDict}

/-! ### The start message -/

theorem asDict_eq_ok {v : PyVal} {d : PyDict} : asDict v = .ok d ↔ v = .dict d := by
  cases v <;> simp [asDict]

/-- A start message is handled without an exception exactly if it can be read. -/
theorem onStart_eq_ok_iff : (∃ actions, onStart pyStr cfg msg = .ok actions) ↔ Readable msg := by
  constructor
  · rintro ⟨actions, h⟩
    -- It raises if one of the two is not an object.
    cases hdata : asDict ((msg.get "start").orElse (.dict [])) with
    | error e =>
      simp only [onStart, hdata, bind, Except.bind, pure, Except.pure] at h
      split_ifs at h
    | ok startData =>
      cases hparams : asDict ((startData.get "customParameters").orElse (.dict [])) with
      | error e =>
        simp only [onStart, hdata, hparams, bind, Except.bind, pure, Except.pure] at h
        split_ifs at h
      | ok customParameters =>
        exact ⟨startData, customParameters, asDict_eq_ok.mp hdata, asDict_eq_ok.mp hparams⟩
  · rintro ⟨startData, customParameters, hdata, hparams⟩
    simp only [onStart, asDict_eq_ok.mpr hdata, asDict_eq_ok.mpr hparams, bind, Except.bind, pure,
      Except.pure]
    split_ifs <;> exact ⟨_, rfl⟩

/-- A start message that is handled closes the socket or starts a session. -/
theorem closes_or_starts {actions : List Action} (h : onStart pyStr cfg msg = .ok actions) :
    Closes actions ∨ StartsSession actions := by
  obtain ⟨startData, customParameters, hdata, hparams⟩ := onStart_eq_ok_iff.mp ⟨actions, h⟩
  simp only [onStart, asDict_eq_ok.mpr hdata, asDict_eq_ok.mpr hparams, bind, Except.bind, pure,
    Except.pure] at h
  split_ifs at h <;> obtain rfl := Except.ok.inj h
  all_goals first
    | exact Or.inl ⟨_, rfl⟩
    | exact Or.inr ⟨_, _, _, _, _, rfl⟩

variable [Json.Python]

/-! ### One frame -/

/-- Nothing begins with a start message behind a frame that is neither. -/
theorem beginsWithStart_cons : BeginsWithStart (raw :: frames) msg ↔
    IsMessage "start" raw msg ∨ (∃ m, IsMessage "connected" raw m) ∧ BeginsWithStart frames msg := by
  constructor
  · rintro ⟨pre, start, post, heq, hpre, hstart⟩
    cases pre with
    | nil =>
      obtain ⟨rfl, -⟩ := List.cons.inj heq
      exact Or.inl hstart
    | cons p pre =>
      obtain ⟨rfl, rfl⟩ := List.cons.inj heq
      obtain ⟨hp, hpre⟩ := List.forall_mem_cons.mp hpre
      exact Or.inr ⟨hp, pre, start, post, rfl, hpre, hstart⟩
  · rintro (hstart | ⟨hraw, pre, start, post, rfl, hpre, hstart⟩)
    · exact ⟨[], raw, frames, rfl, fun p hp => absurd hp List.not_mem_nil, hstart⟩
    · exact ⟨raw :: pre, start, post, rfl, List.forall_mem_cons.mpr ⟨hraw, hpre⟩, hstart⟩

theorem not_beginsWithStart_nil : ¬ BeginsWithStart [] msg := by
  rintro ⟨pre, start, post, heq, -⟩
  exact List.cons_ne_nil start post (List.append_eq_nil_iff.mp heq.symm).2

/-- A frame whose value, if it has one, is no object. -/
theorem not_beginsWithStart_of_value? (h : ∀ m, Json.value? Json.Python.standIn raw ≠ some (.dict m)) :
    ¬ BeginsWithStart (raw :: frames) msg := by
  rw [beginsWithStart_cons]
  rintro (⟨hvalue, -⟩ | ⟨⟨m, hvalue, -⟩, -⟩)
  · exact h msg hvalue
  · exact h m hvalue

/-! ### The handshake -/

/-- What one frame does. -/
theorem twilioReadStart_cons (raw : String) (frames : List String) :
    twilioReadStart (raw :: frames) =
      match Json.loads raw with
      | .error (.recursion _) => .error .recursion
      | .error _ => .ok none
      | .ok (.dict msg) =>
        if PyDict.get msg "event" = .str "connected" then twilioReadStart frames
        else if PyDict.get msg "event" = .str "start" then .ok (some msg)
        else .ok none
      | .ok _ => .error .attribute := by
  rw [twilioReadStart, jsonLoads]
  cases Json.loads raw with
  | error e => cases e <;> rfl
  | ok v => cases v <;> rfl

/-- What is read is a start message behind `connected` messages. -/
theorem beginsWithStart_of_read (h : twilioReadStart frames = .ok (some msg)) :
    BeginsWithStart frames msg := by
  induction frames with
  | nil => cases h
  | cons raw frames ih =>
    rw [twilioReadStart_cons] at h
    rw [beginsWithStart_cons]
    split at h
    · cases h
    · cases h
    · rename_i m hloads
      -- What was read is the value of the frame.
      have hvalue := Json.value?_of_loads hloads
      split_ifs at h with hconnected hstart
      · exact Or.inr ⟨⟨m, hvalue, hconnected⟩, ih h⟩
      · obtain rfl := Option.some.inj (Except.ok.inj h)
        exact Or.inl ⟨hvalue, hstart⟩
      · cases h
    · cases h

/-- Handled frames are read without an exception, and a start message is found. -/
theorem read_of_handled (h : Handled cfg frames) :
    (∀ msg, BeginsWithStart frames msg → twilioReadStart frames = .ok (some msg) ∧
        (cfg.enabled = true → Readable msg)) ∧
      ((∀ msg, ¬ BeginsWithStart frames msg) → twilioReadStart frames = .ok none) := by
  induction frames with
  | nil => exact ⟨fun msg hmsg => absurd hmsg not_beginsWithStart_nil, fun _ => rfl⟩
  | cons raw frames ih =>
    rw [Handled] at h
    rw [twilioReadStart_cons]
    cases hloads : Json.loads raw with
    | error e =>
      rw [hloads] at h
      cases e with
      | decode =>
        refine ⟨fun msg hmsg => absurd hmsg (not_beginsWithStart_of_value? fun m hm => ?_), fun _ => rfl⟩
        rw [Json.value?_of_decode hloads] at hm
        cases hm
      | digits n => exact ⟨fun msg hmsg => absurd hmsg (h msg), fun _ => rfl⟩
      | recursion what => exact h.elim
    | ok v =>
      rw [hloads] at h
      have hvalue := Json.value?_of_loads hloads
      cases v with
      | dict m =>
        have hself (event : String) (msg : PyDict) (hmsg : IsMessage event raw msg) :
            msg = m ∧ PyDict.get m "event" = .str event := by
          obtain rfl : m = msg := by simpa [hvalue] using hmsg.1
          exact ⟨rfl, hmsg.2⟩
        have hne : PyVal.str "connected" ≠ .str "start" := by simp
        simp only [beginsWithStart_cons]
        simp only at h
        split_ifs at h ⊢ with hconnected hstart
        · -- The next frame decides.
          obtain ⟨hfound, hnone⟩ := ih h
          refine ⟨fun msg hmsg => ?_, fun hno => hnone fun msg hmsg => ?_⟩
          · rcases hmsg with hmsg | ⟨-, hmsg⟩
            · exact absurd (hconnected.symm.trans (hself _ _ hmsg).2) hne
            · exact hfound msg hmsg
          · exact hno msg (Or.inr ⟨⟨m, hvalue, hconnected⟩, hmsg⟩)
        · refine ⟨fun msg hmsg => ?_, fun hno => absurd (Or.inl ⟨hvalue, hstart⟩) (hno m)⟩
          rcases hmsg with hmsg | ⟨⟨m', hmsg⟩, -⟩
          · rw [(hself _ _ hmsg).1]
            exact ⟨rfl, h hstart⟩
          · exact absurd (hself _ _ hmsg).2 hconnected
        · refine ⟨fun msg hmsg => ?_, fun _ => rfl⟩
          rcases hmsg with hmsg | ⟨⟨m', hmsg⟩, -⟩
          · exact absurd (hself _ _ hmsg).2 hstart
          · exact absurd (hself _ _ hmsg).2 hconnected
      | _ => exact h.elim

/-- Frames are handled if they are read without an exception, a start message behind `connected` messages
is found, and can be read. -/
theorem handled_of_read {r : Option PyDict} (hread : twilioReadStart frames = .ok r)
    (hfound : ∀ msg, BeginsWithStart frames msg → r = some msg)
    (hreadable : ∀ msg, r = some msg → cfg.enabled = true → Readable msg) :
    Handled cfg frames := by
  induction frames with
  | nil => trivial
  | cons raw frames ih =>
    rw [twilioReadStart_cons] at hread
    rw [Handled]
    cases hloads : Json.loads raw with
    | error e =>
      rw [hloads] at hread
      cases e with
      | decode => trivial
      | digits n =>
        -- The reading is given up, so there must be no start message to find.
        obtain rfl := Except.ok.inj hread
        exact fun msg hmsg => Option.some_ne_none msg (hfound msg hmsg).symm
      | recursion what => cases hread
    | ok v =>
      rw [hloads] at hread
      cases v with
      | dict m =>
        simp only at hread ⊢
        split_ifs at hread ⊢ with hconnected hstart
        · refine ih hread fun msg hmsg => hfound msg (beginsWithStart_cons.mpr (Or.inr ⟨?_, hmsg⟩))
          exact ⟨m, Json.value?_of_loads hloads, hconnected⟩
        · exact fun _ => hreadable m (Except.ok.inj hread).symm
        · exact fun h => absurd h hstart
      | _ => cases hread

/-- The handshake does what it should exactly on the frames that are handled. -/
theorem handshakeExact_iff (pyStr : PyVal → String) (cfg : TwilioConfig) (frames : List String) :
    HandshakeExact pyStr cfg frames ↔ Handled cfg frames := by
  constructor
  · intro h
    -- With a start frame the payload is read as well, unless the service is off.
    by_cases hbegins : ∃ msg, BeginsWithStart frames msg
    · obtain ⟨msg, hmsg⟩ := hbegins
      have hread := (h.accepts msg).mpr hmsg
      refine handled_of_read hread (fun msg' hmsg' => ?_) fun msg' heq henabled => ?_
      · rw [(h.accepts msg').mpr hmsg'] at hread
        exact (Except.ok.inj hread).symm
      obtain rfl := Option.some.inj heq
      obtain ⟨actions, hactions, -⟩ := h.starts msg hread
      rw [twilioMediaStream, henabled, hread] at hactions
      exact onStart_eq_ok_iff.mp ⟨actions, hactions⟩
    · have hread := h.otherwise fun msg hmsg => hbegins ⟨msg, hmsg⟩
      exact handled_of_read hread (fun msg hmsg => absurd ⟨msg, hmsg⟩ hbegins) fun msg heq => by cases heq
  · intro h
    obtain ⟨hfound, hnone⟩ := read_of_handled h
    refine ⟨fun msg => ⟨beginsWithStart_of_read, fun hmsg => (hfound msg hmsg).1⟩, hnone,
      fun hread => ?_, fun msg hread => ?_⟩
    · rw [twilioMediaStream, hread]
      split_ifs
      · exact ⟨_, rfl, 1011, rfl⟩
      · exact ⟨_, rfl, 1008, rfl⟩
    · rw [twilioMediaStream, hread]
      split_ifs with henabled
      · exact ⟨_, rfl, Or.inl ⟨1011, rfl⟩⟩
      · have hreadable := (hfound msg (beginsWithStart_of_read hread)).2 (by simpa using henabled)
        obtain ⟨actions, hactions⟩ := onStart_eq_ok_iff.mpr hreadable
        exact ⟨actions, hactions, closes_or_starts hactions⟩

omit [Json.Python] in
/-- A frame that is JSON, but no object, is not skipped and not refused. -/
theorem arrayFrame_raises :
    ¬ ∃ _ : Json.Python, HandshakeExact (fun _ => "") ⟨"t", "b", ""⟩ ["[]"] := by
  rintro ⟨_, h⟩
  have hloads : Json.loads "[]" = .ok (.list []) := by
    obtain ⟨depth, hdepth⟩ := Nat.exists_eq_add_of_le' Json.Python.two_le_depth
    rw [Json.loads, hdepth]
    rfl
  have hread := h.otherwise fun msg => not_beginsWithStart_of_value? fun m hm => by
    rw [Json.value?_of_loads hloads] at hm
    cases hm
  rw [twilioReadStart_cons, hloads] at hread
  cases hread

end Twilio
