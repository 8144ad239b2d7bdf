import Mathlib.Algebra.Order.Ring.Rat
import VoiceAgentPlatform.Ddb
import VoiceAgentPlatform.History.Row

/-!
# The history recorder

`HistoryRecorder` of `bot.py` and the call-control tools of `call_control_tools.py`, for one call:
what they keep in memory and which writes to the call's row they await. Everything else that is
awaited (the tool event, the grace period, the summary of the language model) is one operation outside
the table, which answers with a summary or an error.

* `CallMeta`: the dictionary of the call's metadata; `RecorderMemory`: what the process holds.
* `markTransfer`, `writeOutcomeRow`, `flushTurnsAndSummarize`: the methods of the recorder.
* `handleEndCall`, `handleTransfer`: the tools.
* `CallRequest`: what can happen to the call.
-/

namespace History

open Async KeyedTable

/-- The metadata that `attach` gets. -/
structure SessionMeta where
  caller : Option String
  startedAt : Option ℚ
  engine : Option String
  lang : Option String
  scenario : Option String
  provider : Option String
  voice : Option String
  model : Option String
  minimaxModel : Option String
  webUser : Option String

/-- The dictionary that the recorder keeps of a call. -/
structure CallMeta extends SessionMeta where
  transferRequested : Bool
  transferTopic : Option String
  outcomeWritten : Bool

/-- What the process holds of a call. -/
structure RecorderMemory where
  /-- The dictionary itself: a writer that is suspended keeps it when `_meta` has let it go. -/
  callMeta : CallMeta
  /-- Whether `_meta` has the call. -/
  attached : Bool
  /-- The entry of `HISTORY_BUFFERS`. -/
  buffer : Option (List PyVal)
  /-- The `state` of the tool handlers. -/
  ending : Bool
  /-- What `time.time()` and `time.monotonic()` read. -/
  clock : ℚ
  monotonic : ℚ

/-- `attach`, for a call that has no buffer yet. -/
def attach (sessionMeta : SessionMeta) (clock monotonic : ℚ) : RecorderMemory where
  callMeta :=
    { sessionMeta with transferRequested := false, transferTopic := none, outcomeWritten := false }
  attached := true
  buffer := some []
  ending := false
  clock
  monotonic

/-- `int(x)` of a number: the fraction is cut off. -/
def truncate (x : ℚ) : ℤ := x.num.tdiv x.den

/-- `s[:n]`. -/
def firstChars (n : ℕ) (s : String) : String := String.ofList (s.toList.take n)

/-- `float(meta.get("started_at") or time.time())`. -/
def CallMeta.startedAtOr (callMeta : CallMeta) (now : ℚ) : ℚ :=
  match callMeta.startedAt with
  | none => now
  | some t => if t = 0 then now else t

/-- The item of `write_outcome_row`. -/
def outcomeRow (callId : String) (ttlDays : ℤ) (now : ℚ) (callMeta : CallMeta) : HistoryRow :=
  let startedAt := callMeta.startedAtOr now
  -- What the metadata lacks has a default.
  { bareRow callId with
    caller := some (PyText.orDefault callMeta.caller "unknown")
    startedAt := some (truncate startedAt)
    endedAt := some (truncate now)
    durationS := some (truncate (max 0 (now - startedAt)))
    summaryStatus := some "pending"
    ttl := some (truncate (startedAt + ttlDays * 86400))
    transferRequested := some callMeta.transferRequested
    transferTopic := some (PyText.orDefault callMeta.transferTopic "")
    webUser := some (PyText.orDefault callMeta.webUser "") }

/-- The values of the update that flushes the turns. -/
def turnsUpdate (turns : List PyVal) (callMeta : CallMeta) : TurnsUpdate where
  turns := turns.map Ddb.itemValue
  lang := PyText.orDefault callMeta.lang ""
  engine := PyText.orDefault callMeta.engine ""
  scenario := PyText.orDefault callMeta.scenario ""
  provider := PyText.orDefault callMeta.provider ""
  voice := PyText.orDefault callMeta.voice ""
  model := PyText.orDefault callMeta.model ""
  minimaxModel := PyText.orDefault callMeta.minimaxModel ""

/-- The summary of the language model, or the text of the exception. -/
abbrev Answer := Except String PyVal

/-- The history table and everything else that is awaited. -/
@[reducible] def callService (slot : String ↪ ℕ) : Service (Table (historySchema slot)) :=
  (service (historySchema slot)).withAwait Answer

/-- Operations on the history table. -/
abbrev RowOp := Op String HistoryRow HistoryUpdate

variable {slot : String ↪ ℕ}

/-- Programs of the recorder; every exception is caught. -/
abbrev RecorderProg (slot : String ↪ ℕ) := Prog (callService slot) RecorderMemory Empty

/-- `append`. -/
def append (turn : PyVal) : RecorderProg slot Unit :=
  modify fun m => { m with buffer := some (m.buffer.getD [] ++ [turn]) }

/-- `append_event`. -/
def appendEvent (kind : String) (data : PyDict) : RecorderProg slot Unit := do
  let m : RecorderMemory ← MonadState.get
  append (.dict [("kind", .str kind), ("data", .dict data), ("t", .float m.monotonic)])

/-- `mark_transfer`. -/
def markTransfer (topic : String) : RecorderProg slot Unit :=
  modify fun m =>
    if m.attached then
      { m with
        callMeta.transferRequested := true
        callMeta.transferTopic := some (firstChars 500 topic) }
    else m

/-- What `write_outcome_row` does with the reply to its put. -/
def afterPut : Except Fault Unit → RecorderProg slot Bool
  | .error _ => pure false
  | .ok _ => do
    -- The dictionary may have left `_meta` in the meantime; it is marked all the same.
    modify fun m => { m with callMeta.outcomeWritten := true }
    return true

/-- `write_outcome_row`. -/
def writeOutcomeRow (callId : String) (ttlDays : ℤ) : RecorderProg slot Bool := do
  let m : RecorderMemory ← MonadState.get
  if m.attached = false then return false
  else if m.callMeta.outcomeWritten then return true
  else
    .await (.inl (.putItem (outcomeRow callId ttlDays m.clock m.callMeta) : RowOp)) afterPut

/-- The update of `_summarize_and_update`. -/
def summaryUpdate : Answer → HistoryUpdate
  | .ok struct => .summaryOk (Ddb.itemValue struct)
  | .error e => .summaryFailed (firstChars 500 e)

/-- `_summarize_and_update`, from the end of the language model's work. -/
def afterSummary (callId : String) : Except Fault Answer → RecorderProg slot Unit
  | .ok answer => .await (.inl (.updateItem callId (summaryUpdate answer) : RowOp)) fun _ => pure ()
  -- What is not about the table does not fail in the table.
  | .error _ => pure ()

/-- What `flush_turns_and_summarize` does with the reply to its update. -/
def afterTurns (callId : String) : Except Fault Unit → RecorderProg slot Unit
  | .error _ => pure ()
  | .ok _ => .await (.inr ()) (afterSummary callId)

/-- `flush_turns_and_summarize`, after the outcome row. -/
def flushTurns (callId : String) : RecorderProg slot Unit := do
  let m : RecorderMemory ← MonadState.get
  set { m with buffer := none, attached := false }
  if m.attached = false then return ()
  else
    let update := turnsUpdate (m.buffer.getD []) m.callMeta
    .await (.inl (.updateItem callId (.turns update) : RowOp)) (afterTurns callId)

/-- `flush_turns_and_summarize`. -/
def flushTurnsAndSummarize (callId : String) (ttlDays : ℤ) : RecorderProg slot Unit := do
  let _ ← writeOutcomeRow callId ttlDays
  flushTurns callId

/-- `_grace_then_end`, without the frame that ends the call. -/
def graceThenEnd (callId : String) (ttlDays : ℤ) : RecorderProg slot Unit :=
  .await (.inr ()) fun _ => do
    let _ ← writeOutcomeRow callId ttlDays
    return ()

/-- What both tools do from the tool event on. -/
def announce (callId : String) (ttlDays : ℤ) (event : PyDict) : RecorderProg slot Unit :=
  .await (.inr ()) fun _ => do
    appendEvent "tool_call" event
    graceThenEnd callId ttlDays

/-- `VALID_END_REASONS`. -/
def validEndReasons : List String :=
  ["user_requested", "task_completed", "transfer_requested", "abusive"]

/-- `_handle_end_call`. -/
def handleEndCall (callId : String) (ttlDays : ℤ) (rawReason : Option String) :
    RecorderProg slot Unit := do
  let m : RecorderMemory ← MonadState.get
  -- The marker is set before the first wait, so only one tool passes.
  if m.ending then return ()
  else
    let raw := PyText.orDefault rawReason "user_requested"
    let reason := if validEndReasons.contains raw then raw else "user_requested"
    set { m with ending := true }
    announce callId ttlDays [("name", .str "end_call"), ("reason", .str reason)]

/-- `_handle_transfer`. -/
def handleTransfer (callId : String) (ttlDays : ℤ) (rawTopic : Option String) :
    RecorderProg slot Unit := do
  let m : RecorderMemory ← MonadState.get
  -- The marker is set before the first wait, so only one tool passes.
  if m.ending then return ()
  else
    let topic := PyText.orDefault rawTopic ""
    set { m with ending := true }
    markTransfer topic
    announce callId ttlDays [("name", .str "transfer_to_human"), ("topic", .str topic)]

/-- What can happen to a call. -/
inductive CallRequest where
  | tick (clock monotonic : ℚ)
  | append (turn : PyVal)
  | endCall (reason : Option String)
  | transferToHuman (topic : Option String)
  | hangUp

/-- What the process does then. -/
def serveCall (callId : String) (ttlDays : ℤ) : CallRequest → RecorderProg slot Unit
  | .tick clock monotonic => modify fun m => { m with clock, monotonic }
  | .append turn => append turn
  | .endCall reason => handleEndCall callId ttlDays reason
  | .transferToHuman topic => handleTransfer callId ttlDays topic
  | .hangUp => flushTurnsAndSummarize callId ttlDays

/-- The history table and the requests of a call. -/
abbrev CallPool (slot : String ↪ ℕ) :=
  Pool (callService slot) CallRequest RecorderMemory Empty Unit

end History
