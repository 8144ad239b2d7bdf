import Mathlib.Data.Int.Notation
import VoiceAgentPlatform.Lib.KeyedTable
import VoiceAgentPlatform.Lib.PyVal

/-!
# The call-history table

The rows that `HistoryRecorder` writes, one for each call, and the updates it makes to them.

* `HistoryRow`: a row; a row made by an update alone lacks the attributes of the outcome.
* `HistoryUpdate`: the `SET` updates of the recorder.
* `historySchema`: the table, keyed by call.
-/

namespace History

open KeyedTable

/-- A row of the history table. -/
structure HistoryRow where
  callId : String
  caller : Option String
  startedAt : Option ℤ
  endedAt : Option ℤ
  durationS : Option ℤ
  summaryStatus : Option String
  ttl : Option ℤ
  transferRequested : Option Bool
  transferTopic : Option String
  webUser : Option String
  turns : Option (List PyVal)
  turnCount : Option ℤ
  lang : Option String
  engine : Option String
  scenario : Option String
  provider : Option String
  voice : Option String
  model : Option String
  minimaxModel : Option String
  summary : Option PyVal
  summaryError : Option String

/-- The row `update_item` starts from when there is none. -/
def bareRow (callId : String) : HistoryRow :=
  { callId, caller := none, startedAt := none, endedAt := none, durationS := none
    summaryStatus := none, ttl := none, transferRequested := none, transferTopic := none
    webUser := none, turns := none, turnCount := none, lang := none, engine := none
    scenario := none, provider := none, voice := none, model := none, minimaxModel := none
    summary := none, summaryError := none }

/-- The values of the update that flushes the turns. -/
structure TurnsUpdate where
  turns : List PyVal
  lang : String
  engine : String
  scenario : String
  provider : String
  voice : String
  model : String
  minimaxModel : String

/-- The `SET` updates of the recorder. -/
inductive HistoryUpdate where
  | turns (values : TurnsUpdate)
  | summaryOk (summary : PyVal)
  | summaryFailed (error : String)

/-- Set the attributes of an update. -/
def HistoryUpdate.set : HistoryUpdate → HistoryRow → HistoryRow
  | turns u, row =>
    { row with
      turns := some u.turns, turnCount := some u.turns.length, lang := some u.lang
      engine := some u.engine, scenario := some u.scenario, provider := some u.provider
      voice := some u.voice, model := some u.model, minimaxModel := some u.minimaxModel }
  | summaryOk s, row => { row with summary := some s, summaryStatus := some "ok" }
  | summaryFailed e, row => { row with summaryStatus := some "failed", summaryError := some e }

@[simp] theorem callId_set (u : HistoryUpdate) (row : HistoryRow) :
    (u.set row).callId = row.callId := by
  cases u <;> rfl

/-- The history table: `update_item` creates a missing row. `slot` is the table's own order. -/
def historySchema (slot : String ↪ ℕ) : Schema String HistoryRow HistoryUpdate where
  key := HistoryRow.callId
  slot
  update u callId row := u.set (row.getD (bareRow callId))
  key_update u callId row hrow := by
    rw [callId_set]
    cases row with
    | none => rfl
    | some row => exact hrow row rfl

end History
