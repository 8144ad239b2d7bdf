import Mathlib.Logic.Function.Basic
import VoiceAgentPlatform.History.Recorder

/-!
# The session registry

The maps of `bot.py` that are keyed by a call id, and the calls and monitors that use them:
`ACTIVE_SESSIONS`, `HISTORY_BUFFERS` and the `_meta` of the history recorder. Every operation runs
between two awaits of its connection, so it is one step; `_SESSIONS_LOCK` is never held across one.

* `Session`: the dictionary that a call registers.
* `Door.callId`: how the endpoints choose the id of a call.
* `Registry`: the maps, with the calls and monitors in the order in which they came. A dictionary
  that is shared by reference is named by the number of the call that made it.
* `step`: what a connection does between two awaits.
-/

namespace Sessions

open History

/-- An emit function: of the call's own socket, or of a monitor's. -/
inductive Emit where
  | primary (call : ℕ)
  | monitor (watcher : ℕ)
  deriving DecidableEq

/-- The dictionary of a session. -/
structure Session where
  callId : String
  caller : Option String
  started : ℚ
  emits : List Emit
  monitors : List Emit
  deriving DecidableEq

/-- The endpoint that a call arrives at, with what its id is chosen from. -/
inductive Door where
  | web (requested : Option String) (millis : ℕ)
  | phone (requested : Option String) (millis : ℕ)
  | twilio (streamSid : String)

/-- The call id. -/
def Door.callId : Door → String
  | .web requested millis => PyText.orDefault requested ("web-" ++ toString millis)
  | .phone requested millis => PyText.orDefault requested ("phone-" ++ toString millis)
  | .twilio streamSid => "twilio-" ++ streamSid

/-- The caller that is registered. -/
def Door.caller : Door → Option String → Option String
  | .web _ _, requested => some (PyText.orDefault requested "web")
  | .phone _ _, requested => requested
  | .twilio _, custom => custom

/-- The metadata given to `attach`, apart from the caller and the start. -/
structure Launch where
  engine : String
  lang : String
  scenario : String
  provider : String
  voice : String
  model : String
  minimaxModel : String
  /-- The user that the token of a web call names. -/
  webUser : Option String

/-- How far the endpoint of a call has come. -/
inductive Phase where
  /-- Registered; a phone call waits for the audit log. -/
  | starting
  /-- From the attachment of the history to the end of the pipeline. -/
  | running
  /-- Unregistered, with `flush_turns_and_summarize` scheduled. -/
  | closing
  /-- The flush waits for the outcome row, holding the dictionary of call `held`. -/
  | writing (held : ℕ)
  /-- The turns and the metadata have been taken out. -/
  | flushed
  deriving DecidableEq

/-- A call: its endpoint and the dictionaries that it made. -/
structure Call where
  callId : String
  launch : Launch
  phase : Phase
  session : Session
  /-- What `attach` made of the metadata. -/
  callMeta : Option CallMeta
  /-- The dictionaries that tools hold while they wait for the outcome row. -/
  writers : List ℕ

/-- The `n`-th call when it has registered its session. -/
def registeredCall (n : ℕ) (door : Door) (caller : Option String) (now : ℚ) (launch : Launch) :
    Call where
  callId := door.callId
  launch
  phase := .starting
  session :=
    { callId := door.callId
      caller := door.caller caller
      started := now
      emits := [.primary n]
      monitors := [] }
  callMeta := none
  writers := []

/-- From its registration to its own unregistration. -/
def Call.Live (c : Call) : Prop := c.phase = .starting ∨ c.phase = .running

instance (c : Call) : Decidable c.Live := inferInstanceAs (Decidable (_ ∨ _))

/-- A monitor's connection. -/
structure Monitor where
  callId : String
  attached : Bool

/-- The maps of the process and its connections. -/
structure Registry where
  /-- `_history is not None`. -/
  history : Bool
  activeSessions : String → Option ℕ
  historyBuffers : String → Option (List PyVal)
  /-- `_meta`. -/
  metaOf : String → Option ℕ
  calls : List Call
  watchers : List Monitor

namespace Registry

/-- Nothing has been connected. -/
def init (history : Bool) : Registry where
  history
  activeSessions := fun _ => none
  historyBuffers := fun _ => none
  metaOf := fun _ => none
  calls := []
  watchers := []

/-- What is at the other end of a reference to a call's dictionaries changes. -/
def modifyCall (s : Registry) (i : ℕ) (f : Call → Call) : Registry :=
  { s with calls := s.calls.modify i f }

@[simp]
theorem calls_modifyCall (s : Registry) (i j : ℕ) (f : Call → Call) :
    (s.modifyCall i f).calls[j]? = if i = j then s.calls[j]?.map f else s.calls[j]? := by
  simp only [modifyCall, List.getElem?_modify]
  split <;> simp

/-- `ACTIVE_SESSIONS.get(call_id)`. -/
def session? (s : Registry) (callId : String) : Option Session := do
  let i ← s.activeSessions callId
  return (← s.calls[i]?).session

/-- `session_emits`. -/
def sessionEmits (s : Registry) (callId : String) : List Emit :=
  ((s.session? callId).map Session.emits).getD []

/-- `_meta.get(call_id)`. -/
def callMeta? (s : Registry) (callId : String) : Option CallMeta := do
  let i ← s.metaOf callId
  (← s.calls[i]?).callMeta

/-- `session_register`, for a call that comes in. -/
def sessionRegister (s : Registry) (door : Door) (caller : Option String) (now : ℚ)
    (launch : Launch) : Registry :=
  { s with
    activeSessions := Function.update s.activeSessions door.callId (some s.calls.length)
    calls := s.calls ++ [registeredCall s.calls.length door caller now launch] }

/-- `session_unregister`. -/
def sessionUnregister (s : Registry) (callId : String) : Registry :=
  { s with activeSessions := Function.update s.activeSessions callId none }

/-- `session_attach_monitor`, for a monitor that comes in. -/
def sessionAttachMonitor (s : Registry) (callId : String) : Registry :=
  let emit := Emit.monitor s.watchers.length
  match s.activeSessions callId with
  | none => { s with watchers := s.watchers ++ [⟨callId, false⟩] }
  | some i =>
    { s.modifyCall i fun c =>
        { c with
          session.emits := c.session.emits ++ [emit]
          session.monitors := c.session.monitors ++ [emit] } with
      watchers := s.watchers ++ [⟨callId, true⟩] }

/-- `session_detach_monitor`. -/
def sessionDetachMonitor (s : Registry) (callId : String) (emit : Emit) : Registry :=
  match s.activeSessions callId with
  | none => s
  | some i =>
    s.modifyCall i fun c =>
      { c with
        session.emits := c.session.emits.erase emit
        session.monitors := c.session.monitors.erase emit }

/-- The dictionary that `attach` makes. -/
def attachedMeta (c : Call) : CallMeta where
  caller := c.session.caller
  startedAt := some c.session.started
  engine := some c.launch.engine
  lang := some c.launch.lang
  scenario := some c.launch.scenario
  provider := some c.launch.provider
  voice := some c.launch.voice
  model := some c.launch.model
  minimaxModel := some c.launch.minimaxModel
  webUser := c.launch.webUser
  -- What the tools of the call set later.
  transferRequested := false
  transferTopic := none
  outcomeWritten := false

/-- The call's endpoint goes on, past `attach` if there is a recorder. -/
def attach (s : Registry) (i : ℕ) (c : Call) : Registry :=
  if s.history then
    { s.modifyCall i fun c => { c with phase := .running, callMeta := some (attachedMeta c) } with
      historyBuffers := Function.update s.historyBuffers c.callId
        (some ((s.historyBuffers c.callId).getD []))
      metaOf := Function.update s.metaOf c.callId (some i) }
  else s.modifyCall i fun c => { c with phase := .running }

/-- `append` and `append_event`. -/
def append (s : Registry) (callId : String) (turn : PyVal) : Registry :=
  { s with
    historyBuffers := Function.update s.historyBuffers callId
      (some ((s.historyBuffers callId).getD [] ++ [turn])) }

/-- The metadata of a call is changed through a reference to it. -/
def modifyMeta (s : Registry) (i : ℕ) (f : CallMeta → CallMeta) : Registry :=
  s.modifyCall i fun c => { c with callMeta := c.callMeta.map f }

/-- `mark_transfer`. -/
def markTransfer (s : Registry) (callId topic : String) : Registry :=
  match s.metaOf callId with
  | none => s
  | some i =>
    s.modifyMeta i fun m =>
      { m with transferRequested := true, transferTopic := some (firstChars 500 topic) }

/-- The dictionary whose outcome row `write_outcome_row` has to put, if any. -/
def outcomeToWrite (s : Registry) (callId : String) : Option ℕ := do
  let i ← s.metaOf callId
  let m ← (← s.calls[i]?).callMeta
  if m.outcomeWritten then none else some i

/-- What `write_outcome_row` does when its put has returned. -/
def outcomePut (s : Registry) (held : ℕ) (ok : Bool) : Registry :=
  if ok then s.modifyMeta held fun m => { m with outcomeWritten := true } else s

/-- `flush_turns_and_summarize` of call `i`, from the outcome row to its next await. -/
def popHistory (s : Registry) (i : ℕ) (callId : String) : Registry :=
  { s.modifyCall i fun c => { c with phase := .flushed } with
    historyBuffers := Function.update s.historyBuffers callId none
    metaOf := Function.update s.metaOf callId none }

end Registry

/-- What happens next. -/
inductive Event where
  /-- A call comes in. -/
  | connect (door : Door) (caller : Option String) (now : ℚ) (launch : Launch)
  /-- The audit log has taken the start of phone call `i`. -/
  | attach (i : ℕ)
  /-- A final turn or an event of call `i`. -/
  | append (i : ℕ) (turn : PyVal)
  /-- A tool of call `i` marks a transfer. -/
  | transfer (i : ℕ) (topic : String)
  /-- A tool of call `i` begins to write the outcome row. -/
  | outcome (i : ℕ)
  /-- The put of the `k`-th tool of call `i` returns. -/
  | outcomePut (i k : ℕ) (ok : Bool)
  /-- The pipeline of call `i` has ended. -/
  | hangUp (i : ℕ)
  /-- The flush of call `i` begins. -/
  | flush (i : ℕ)
  /-- The put that the flush of call `i` waits for returns. -/
  | flushPut (i : ℕ) (ok : Bool)
  | monitorOpen (callId : String)
  | monitorClose (m : ℕ)

/-- The call whose connection takes the step. -/
def Event.call? : Event → Option ℕ
  | .connect _ _ _ _ => none
  | .attach i => some i
  | .append i _ => some i
  | .transfer i _ => some i
  | .outcome i => some i
  | .outcomePut i _ _ => some i
  | .hangUp i => some i
  | .flush i => some i
  | .flushPut i _ => some i
  | .monitorOpen _ => none
  | .monitorClose _ => none

namespace Registry

/-- A call comes in: a web call attaches its history before its first await, a phone call first waits
for the audit log. -/
def connect (s : Registry) (door : Door) (caller : Option String) (now : ℚ) (launch : Launch) :
    Registry :=
  let registered := s.sessionRegister door caller now launch
  match door with
  | .web _ _ =>
    registered.attach s.calls.length (registeredCall s.calls.length door caller now launch)
  | .phone _ _ => registered
  | .twilio _ => registered

/-- What the endpoint, the pipeline, the tools and the flush of call `i` do. -/
def callStep (s : Registry) (i : ℕ) (c : Call) : Event → Registry
  | .attach _ => if c.phase = .starting then s.attach i c else s
  | .append _ turn =>
    -- Tools that outlive their call still write, also when the flush has taken everything out.
    if s.history && c.phase ≠ .starting then s.append c.callId turn else s
  | .transfer _ topic =>
    if s.history && c.phase ≠ .starting then s.markTransfer c.callId topic else s
  | .outcome _ =>
    if s.history && c.phase ≠ .starting then
      match s.outcomeToWrite c.callId with
      | none => s
      | some held => s.modifyCall i fun c => { c with writers := c.writers ++ [held] }
    else s
  | .outcomePut _ k ok =>
    match c.writers[k]? with
    | none => s
    | some held =>
      (s.modifyCall i fun c => { c with writers := c.writers.eraseIdx k }).outcomePut held ok
  | .hangUp _ =>
    if c.phase = .running then
      (s.sessionUnregister c.callId).modifyCall i fun c =>
        { c with phase := if s.history then .closing else .flushed }
    else s
  | .flush _ =>
    if c.phase = .closing then
      match s.outcomeToWrite c.callId with
      | none => s.popHistory i c.callId
      | some held => s.modifyCall i fun c => { c with phase := .writing held }
    else s
  | .flushPut _ ok =>
    match c.phase with
    | .writing held => (s.outcomePut held ok).popHistory i c.callId
    | _ => s
  | _ => s

/-- One step of one connection; an event that is not possible changes nothing. -/
def step (s : Registry) (e : Event) : Registry :=
  match e.call? with
  | some i =>
    match s.calls[i]? with
    | some c => s.callStep i c e
    | none => s
  | none =>
    match e with
    | .connect door caller now launch => s.connect door caller now launch
    -- Monitors are not calls: they watch one, by its id.
    | .monitorOpen callId => s.sessionAttachMonitor callId
    | .monitorClose m =>
      match s.watchers[m]? with
      | some w => if w.attached then s.sessionDetachMonitor w.callId (.monitor m) else s
      | none => s
    | _ => s

end Registry

end Sessions
