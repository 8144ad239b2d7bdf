import VoiceAgentPlatform.History.HeadlessRows

/-!
# The row of a call under concurrent writers

A tool of the call and the hang-up each may put the outcome, and the hang-up updates the row
afterwards. The put replaces the whole row, so it must not come late, and it carries the transfer
mark only if it was built after the mark.

* `writes`: the writes that have taken effect, in order; `rowOf`: the row they leave.
* `RowKept`: what the row has to be, at any time and once all is done.
* `OutcomeSettled`: when the turns are stored, the outcome is there and no put is in flight.
* `rowKept_of_outcomeSettled`: in runs that meet this the row is kept.
-/

namespace History

open Async KeyedTable

variable {slot : String ↪ ℕ} {callId : String} {ttlDays : ℤ}

/-- A write of the history that has taken effect. -/
def writeOf : ℕ × (RowOp ⊕ Unit) × Mark → Option RowOp
  | (_, .inl (.putItem v), .effect true) => some (.putItem v)
  | (_, .inl (.updateItem k u), .effect true) => some (.updateItem k u)
  | _ => none

/-- The writes that have taken effect, in their order. -/
def writes (s : CallPool slot) : List RowOp := s.history.filterMap writeOf

/-- What a write makes of the row of the call. -/
def writeRow (callId : String) (row : Option HistoryRow) : RowOp → Option HistoryRow
  | .putItem v => some v
  | .updateItem _ u => some (u.set (row.getD (bareRow callId)))
  | _ => row

/-- The row that writes leave of a call that had none. -/
def rowOf (callId : String) (ops : List RowOp) : Option HistoryRow := ops.foldl (writeRow callId) none

/-- All operations have ended, none of them with an error, and the call was hung up. -/
structure AllDone (s : CallPool slot) : Prop where
  finished : ∀ task ∈ s.tasks, task.stage = .finished (.ok ())
  succeeded : ∀ i op, (i, op, Mark.effect false) ∉ s.history
  hungUp : .hangUp ∈ s.tasks.map Task.request

/-- Stages of a request. -/
abbrev CallStage (slot : String ↪ ℕ) := Stage (callService slot) RecorderMemory Empty Unit

/-- Requests with their stages. -/
abbrev CallTask (slot : String ↪ ℕ) := Task (callService slot) CallRequest RecorderMemory Empty Unit

/-- No put replaces a row that was updated; and once all is done, the row has the turns, the values of
every update and, if the call was marked, the mark. -/
structure RowKept (callId : String) (s : CallPool slot) : Prop where
  noOverwrite : ∀ before v after, writes s = before ++ .putItem v :: after →
    ∀ k u, .updateItem k u ∉ before
  complete : AllDone s → ∃ row, s.store.get? callId = some row ∧
    (∃ u, .updateItem callId (.turns u) ∈ writes s) ∧
    (∀ k u, .updateItem k u ∈ writes s → u.set row = row) ∧
    (s.memory.callMeta.transferRequested = true → row.transferRequested = some true)

/-- An outcome put that has not taken effect yet. -/
def PutInFlight (s : CallPool slot) : Prop :=
  ∃ (i : ℕ) (request : CallRequest) (v : HistoryRow) (flight : Flight String HistoryRow) (k : _),
    s.tasks[i]? = some { request, stage := .waiting (.inl (.putItem v : RowOp)) flight k }

/-- When the update of the turns takes effect, no outcome put is in flight, and if the call was marked
for a transfer, the put that took effect last was built after the mark. -/
def OutcomeSettled (callId : String) (s : CallPool slot)
    (e : Event (callService slot) CallRequest) : Prop :=
  ∀ request u flight, s.Performs e request (.inl (.updateItem callId (.turns u) : RowOp)) flight
      (.inl .ok) →
    ¬ PutInFlight s ∧ (s.memory.callMeta.transferRequested = true →
      ∃ v, (writes s).getLast? = some (.putItem v) ∧ v.transferRequested = some true)

/-- Where a request that has not flushed waits, and how it goes on. -/
inductive RecordingPoint (callId : String) (ttlDays : ℤ) (request : CallRequest) :
    (op : RowOp ⊕ Unit) →
      (Except Fault ((callService slot).Reply op) → RecorderProg slot Unit) → Prop where
  | announced (event : PyDict) (hrequest : request ≠ .hangUp) :
      RecordingPoint callId ttlDays request (.inr ()) fun _ => do
        appendEvent "tool_call" event
        graceThenEnd callId ttlDays
  | grace (hrequest : request ≠ .hangUp) :
      RecordingPoint callId ttlDays request (.inr ()) fun _ => do
        let _ ← writeOutcomeRow callId ttlDays
        return ()
  | toolPut (v : HistoryRow) (hrequest : request ≠ .hangUp) :
      RecordingPoint callId ttlDays request (.inl (.putItem v)) fun reply =>
        (afterPut reply).bind fun _ => pure ()
  | flushPut (v : HistoryRow) :
      RecordingPoint callId ttlDays request (.inl (.putItem v)) fun reply =>
        (afterPut reply).bind fun _ => flushTurns callId

/-- A stage of a request that has not flushed. -/
def Recording (callId : String) (ttlDays : ℤ) (request : CallRequest) : CallStage slot → Prop
  | .waiting op _ k => RecordingPoint callId ttlDays request op k
  | .applied op _ k => RecordingPoint callId ttlDays request op k
  | .finished _ => True

/-- What a request that has not flushed does with the memory when it runs: it goes on without having
flushed, and puts nothing if the call is detached, or it detaches the call and flushes. -/
inductive Ran (callId : String) (ttlDays : ℤ) (request : CallRequest) (m : RecorderMemory) :
    RecorderMemory × CallStage slot → Prop where
  | recording {m' stage} (hstage : Recording callId ttlDays request stage)
      (hattached : m'.attached = m.attached)
      (hmark : m.attached = false →
        m'.callMeta.transferRequested = m.callMeta.transferRequested)
      (hput : m.attached = false → ∀ v flight k, stage ≠ .waiting (.inl (.putItem v : RowOp)) flight k)
      (hdone : request = .hangUp → (∃ r, stage = .finished r) → m.attached = false) :
      Ran callId ttlDays request m (m', stage)
  | flushing {m'} (hbefore : m.attached = true) (hafter : m'.attached = false) (u : TurnsUpdate) :
      Ran callId ttlDays request m
        (m', .waiting (.inl (.updateItem callId (.turns u) : RowOp)) ⟨[], none⟩ (afterTurns callId))

/-- Only whether the call is attached and marked matters of the memory. -/
theorem Ran.congr {request : CallRequest} {m₁ m₂ : RecorderMemory}
    {result : RecorderMemory × CallStage slot} (h : Ran callId ttlDays request m₁ result)
    (hattached : m₁.attached = m₂.attached)
    (hmark : m₁.callMeta.transferRequested = m₂.callMeta.transferRequested) :
    Ran callId ttlDays request m₂ result := by
  cases h with
  | recording hstage hsame hm hput hdone =>
    rw [hattached] at hsame hm hput hdone
    exact .recording hstage hsame (fun h => (hm h).trans hmark) hput hdone
  | flushing hbefore hafter u => exact .flushing (hattached ▸ hbefore) hafter u

/-- Running the flush. -/
theorem ran_flushTurns (request : CallRequest) (m : RecorderMemory) :
    Ran callId ttlDays request m ((flushTurns callId : RecorderProg slot Unit).settle m) := by
  cases hattached : m.attached with
  | false =>
    -- It ends at once if the call is detached, and waits for its update otherwise.
    have hsettle : (flushTurns callId : RecorderProg slot Unit).settle m =
        ({ m with buffer := none, attached := false }, .finished (.ok ())) := by
      simp [flushTurns, hattached]
    rw [hsettle]
    exact .recording trivial hattached.symm (fun _ => rfl) (fun _ _ _ _ => nofun) fun _ _ => hattached
  | true =>
    have hsettle : (flushTurns callId : RecorderProg slot Unit).settle m =
        ({ m with buffer := none, attached := false },
          .waiting (.inl (.updateItem callId
            (.turns (turnsUpdate (m.buffer.getD []) m.callMeta)) : RowOp)) ⟨[], none⟩
            (afterTurns callId)) := by
      simp [flushTurns, hattached]
    rw [hsettle]
    exact .flushing hattached rfl _

/-- Running `write_outcome_row` and what follows it. -/
theorem settle_writeOutcomeRow_bind (f : Bool → RecorderProg slot Unit) (m : RecorderMemory) :
    ((writeOutcomeRow callId ttlDays).bind f).settle m =
      if m.attached = false then (f false).settle m
      else if m.callMeta.outcomeWritten = true then (f true).settle m
      else
        (m, .waiting (.inl (.putItem (outcomeRow callId ttlDays m.clock m.callMeta)) : RowOp ⊕ Unit)
          ⟨[], none⟩ fun reply => (afterPut reply).bind f) := by
  simp only [writeOutcomeRow, Prog.get_eq, Prog.bind_eq, Prog.bind_read, Prog.bind_done, settle_read]
  split_ifs <;> rfl

/-- A request resumed where it had not flushed. -/
theorem ran_resume {request : CallRequest} {op : RowOp ⊕ Unit}
    {k : Except Fault ((callService slot).Reply op) → RecorderProg slot Unit}
    (hpoint : RecordingPoint callId ttlDays request op k)
    (reply : Except Fault ((callService slot).Reply op)) (m : RecorderMemory) :
    Ran callId ttlDays request m ((k reply).settle m) := by
  cases hpoint with
  | announced event hrequest =>
    exact .recording (.grace hrequest) rfl (fun _ => rfl) (fun _ _ _ _ => nofun)
      fun h => absurd h hrequest
  | grace hrequest =>
    change Ran _ _ _ _ (((writeOutcomeRow callId ttlDays).bind fun _ => pure ()).settle m)
    rw [settle_writeOutcomeRow_bind]
    split_ifs with hdetached hwritten
    · exact .recording trivial rfl (fun _ => rfl) (fun _ _ _ _ => nofun) fun h => absurd h hrequest
    · exact .recording trivial rfl (fun _ => rfl) (fun _ _ _ _ => nofun) fun h => absurd h hrequest
    · exact .recording (.toolPut _ hrequest) rfl (fun _ => rfl) (fun h => absurd h hdetached)
        fun h => absurd h hrequest
  | toolPut v hrequest =>
    cases reply with
    | error f =>
      exact .recording trivial rfl (fun _ => rfl) (fun _ _ _ _ => nofun) fun h => absurd h hrequest
    | ok u =>
      exact .recording trivial rfl (fun _ => rfl) (fun _ _ _ _ => nofun) fun h => absurd h hrequest
  | flushPut v =>
    cases reply with
    | error f => exact ran_flushTurns request m
    | ok u =>
      -- The flush runs with the call marked as written.
      exact (ran_flushTurns request { m with callMeta.outcomeWritten := true }).congr rfl rfl

/-- A request that arrives. -/
theorem ran_serveCall (r : CallRequest) (m : RecorderMemory) :
    Ran callId ttlDays r m ((serveCall callId ttlDays r : RecorderProg slot Unit).settle m) := by
  have hnotHangUp {r : CallRequest} {p : Prop} (h : r ≠ .hangUp) : r = .hangUp → p := fun hr =>
    absurd hr h
  cases r with
  | tick clock monotonic =>
    exact .recording trivial rfl (fun _ => rfl) (fun _ _ _ _ => nofun) (hnotHangUp nofun)
  | append turn =>
    exact .recording trivial rfl (fun _ => rfl) (fun _ _ _ _ => nofun) (hnotHangUp nofun)
  | endCall reason =>
    cases hending : m.ending with
    | true =>
      simp only [serveCall, handleEndCall, Prog.get_eq, Prog.bind_eq, Prog.bind_read, Prog.bind_done,
        settle_read, hending, if_pos]
      exact .recording trivial rfl (fun _ => rfl) (fun _ _ _ _ => nofun) (hnotHangUp nofun)
    | false =>
      simp only [serveCall, handleEndCall, Prog.get_eq, Prog.bind_eq, Prog.bind_read, Prog.bind_done,
        settle_read, hending, Bool.false_eq_true, if_false]
      exact .recording (.announced _ nofun) rfl (fun _ => rfl) (fun _ _ _ _ => nofun)
        (hnotHangUp nofun)
  | transferToHuman topic =>
    cases hending : m.ending with
    | true =>
      simp only [serveCall, handleTransfer, Prog.get_eq, Prog.bind_eq, Prog.bind_read, Prog.bind_done,
        settle_read, hending, if_pos]
      exact .recording trivial rfl (fun _ => rfl) (fun _ _ _ _ => nofun) (hnotHangUp nofun)
    | false =>
      simp only [serveCall, handleTransfer, Prog.get_eq, Prog.bind_eq, Prog.bind_read, Prog.bind_done,
        settle_read, hending, Bool.false_eq_true, if_false]
      refine .recording (.announced _ nofun) ?_ (fun hdetached => ?_) (fun _ _ _ _ => nofun)
        (hnotHangUp nofun)
      · dsimp only
        split_ifs <;> rfl
      · -- The mark is only set on an attached call.
        dsimp only
        rw [if_neg (by simp [hdetached])]
  | hangUp =>
    change Ran _ _ _ _ (((writeOutcomeRow callId ttlDays).bind fun _ => flushTurns callId).settle m)
    rw [settle_writeOutcomeRow_bind]
    split_ifs with hdetached hwritten
    · exact ran_flushTurns _ m
    · exact ran_flushTurns _ m
    · exact .recording (.flushPut _) rfl (fun _ => rfl) (fun h => absurd h hdetached) fun _ ⟨_, h⟩ => by
        cases h

/-- An operation has failed. -/
def Failed (s : CallPool slot) : Prop := ∃ i op, (i, op, Mark.effect false) ∈ s.history

theorem Failed.of_history {s s' : CallPool slot} (h : Failed s)
    {marks : List (ℕ × (RowOp ⊕ Unit) × Mark)} (hhistory : s'.history = s.history ++ marks) :
    Failed s' := by
  obtain ⟨i, op, hmem⟩ := h
  exact ⟨i, op, hhistory ▸ List.mem_append_left _ hmem⟩

/-- Where the request that flushed stands, and which of its updates have taken effect. -/
inductive Flusher (callId : String) (failed : Prop) : CallStage slot → List HistoryUpdate → Prop where
  | updating (u flight) : Flusher callId failed
      (.waiting (.inl (.updateItem callId (.turns u) : RowOp)) flight (afterTurns callId)) []
  | updated (u) : Flusher callId failed
      (.applied (.inl (.updateItem callId (.turns u) : RowOp)) (.ok ()) (afterTurns callId))
      [.turns u]
  | turnsFailed (u f) (h : failed) : Flusher callId failed
      (.applied (.inl (.updateItem callId (.turns u) : RowOp)) (.error f) (afterTurns callId)) []
  | summarizing (u flight) : Flusher callId failed
      (.waiting (.inr ()) flight (afterSummary callId)) [.turns u]
  | summarized (u answer) : Flusher callId failed
      (.applied (.inr ()) (.ok answer) (afterSummary callId)) [.turns u]
  | storing (u answer flight) : Flusher callId failed
      (.waiting (.inl (.updateItem callId (summaryUpdate answer) : RowOp)) flight fun _ => pure ())
      [.turns u]
  | stored (u answer) : Flusher callId failed
      (.applied (.inl (.updateItem callId (summaryUpdate answer) : RowOp)) (.ok ()) fun _ => pure ())
      [.turns u, summaryUpdate answer]
  | summaryFailed (u answer f) (h : failed) : Flusher callId failed
      (.applied (.inl (.updateItem callId (summaryUpdate answer) : RowOp)) (.error f)
        fun _ => pure ()) [.turns u]
  | done (u answer) : Flusher callId failed (.finished (.ok ())) [.turns u, summaryUpdate answer]
  | gaveUp (ups) (h : failed) : Flusher callId failed (.finished (.ok ())) ups

theorem Flusher.mono {failed failed' : Prop} {stage : CallStage slot} {ups : List HistoryUpdate}
    (h : Flusher callId failed stage ups) (himp : failed → failed') :
    Flusher callId failed' stage ups := by
  cases h with
  | updating u flight => exact .updating u flight
  | updated u => exact .updated u
  | turnsFailed u f h => exact .turnsFailed u f (himp h)
  | summarizing u flight => exact .summarizing u flight
  | summarized u answer => exact .summarized u answer
  | storing u answer flight => exact .storing u answer flight
  | stored u answer => exact .stored u answer
  | summaryFailed u answer f h => exact .summaryFailed u answer f (himp h)
  | done u answer => exact .done u answer
  | gaveUp ups h => exact .gaveUp ups (himp h)

/-- An operation of the flusher stays in flight. -/
theorem Flusher.fly {failed : Prop} {op : RowOp ⊕ Unit} {flight : Flight String HistoryRow}
    {k : Except Fault ((callService slot).Reply op) → RecorderProg slot Unit}
    {ups : List HistoryUpdate} (h : Flusher callId failed (.waiting op flight k) ups)
    (flight' : Flight String HistoryRow) : Flusher callId failed (.waiting op flight' k) ups := by
  cases h with
  | updating u _ => exact .updating u flight'
  | summarizing u _ => exact .summarizing u flight'
  | storing u answer _ => exact .storing u answer flight'

/-- The flusher is resumed: it leaves the memory alone. -/
theorem Flusher.resume {failed : Prop} {op : RowOp ⊕ Unit}
    {reply : Except Fault ((callService slot).Reply op)}
    {k : Except Fault ((callService slot).Reply op) → RecorderProg slot Unit}
    {ups : List HistoryUpdate} (h : Flusher callId failed (.applied op reply k) ups)
    (m : RecorderMemory) :
    ((k reply).settle m).1 = m ∧ Flusher callId failed ((k reply).settle m).2 ups := by
  cases h with
  | updated u => exact ⟨rfl, .summarizing u _⟩
  | turnsFailed u f h => exact ⟨rfl, .gaveUp _ h⟩
  | summarized u answer => exact ⟨rfl, .storing u answer _⟩
  | stored u answer => exact ⟨rfl, .done u answer⟩
  | summaryFailed u answer f h => exact ⟨rfl, .gaveUp _ h⟩

/-- An operation of the flusher takes effect: an update is one more of its updates, and nothing is
a put. -/
theorem Flusher.land {failed : Prop} {op : RowOp ⊕ Unit} {flight : Flight String HistoryRow}
    {k : Except Fault ((callService slot).Reply op) → RecorderProg slot Unit}
    {ups : List HistoryUpdate} (h : Flusher callId failed (.waiting op flight k) ups)
    {choice : Choice ⊕ Answer} {t t' : Table (historySchema slot)}
    {reply : Except Fault ((callService slot).Reply op)}
    (hperform : (callService slot).perform op flight choice t = (t', .inr reply)) (i : ℕ) :
    ∃ new, Flusher callId (failed ∨ reply.isOk = false) (.applied op reply k) (ups ++ new) ∧
      (writeOf (i, op, .effect reply.isOk)).toList = new.map (.updateItem callId) ∧
      (new ≠ [] → ups = [] → choice = .inl .ok ∧ ∃ u, op = .inl (.updateItem callId (.turns u))) := by
  cases h with
  | updating u _ =>
    -- An update completes or fails; the other choices are not for it.
    rcases choice with (_ | n | code) | answer
    · cases hperform
      exact ⟨[.turns u], .updated u, rfl, fun _ _ => ⟨rfl, u, rfl⟩⟩
    · cases hperform
    · cases hperform
      exact ⟨[], .turnsFailed u _ (Or.inr rfl), rfl, fun h => absurd rfl h⟩
    · cases hperform
  | summarizing u _ =>
    rcases choice with choice | answer
    · cases hperform
    · cases hperform
      exact ⟨[], .summarized u answer, rfl, fun h => absurd rfl h⟩
  | storing u answer _ =>
    rcases choice with (_ | n | code) | answer'
    · cases hperform
      exact ⟨[summaryUpdate answer], .stored u answer, rfl, fun _ => nofun⟩
    · cases hperform
    · cases hperform
      exact ⟨[], .summaryFailed u answer _ (Or.inr rfl), rfl, fun h => absurd rfl h⟩
    · cases hperform

/-- The call is attached and nothing has been flushed. -/
structure BeforeFlush (callId : String) (ttlDays : ℤ) (s : CallPool slot)
    (rows : List HistoryRow) : Prop where
  attached : s.memory.attached = true
  recording : ∀ (j : ℕ) (task : CallTask slot), s.tasks[j]? = some task → Recording callId ttlDays task.request task.stage
  writes_eq : writes s = rows.map .putItem

/-- Task `i` has flushed, and the others have not. -/
structure AfterFlush (callId : String) (ttlDays : ℤ) (s : CallPool slot) (i : ℕ)
    (rows : List HistoryRow) (ups : List HistoryUpdate) : Prop where
  attached : s.memory.attached = false
  flusher : ∃ request stage, s.tasks[i]? = some { request, stage } ∧
    Flusher callId (Failed s) stage ups
  recording : ∀ (j : ℕ) (task : CallTask slot), j ≠ i → s.tasks[j]? = some task →
    Recording callId ttlDays task.request task.stage
  writes_eq : writes s = rows.map .putItem ++ ups.map (.updateItem callId)
  settled : ups ≠ [] → ¬ PutInFlight s ∧ (s.memory.callMeta.transferRequested = true →
    ∃ v, rows.getLast? = some v ∧ v.transferRequested = some true)

/-- How far the call is. -/
def Phase (callId : String) (ttlDays : ℤ) (s : CallPool slot) : Prop :=
  (∃ rows, BeforeFlush callId ttlDays s rows) ∨ ∃ i rows ups, AfterFlush callId ttlDays s i rows ups

/-- Task `i` of the pool is replaced, or added, and everything else stays in its place. -/
def Replaces (s s' : CallPool slot) (i : ℕ)
    (task : CallTask slot) : Prop :=
  ∀ j, s'.tasks[j]? = if j = i then some task else s.tasks[j]?

theorem getElem?_set_of_getElem? {α : Type} {l : List α} {i : ℕ} {a : α} (h : l[i]? = some a)
    (b : α) (j : ℕ) : (l.set i b)[j]? = if j = i then some b else l[j]? := by
  obtain ⟨hlt, -⟩ := List.getElem?_eq_some_iff.mp h
  rw [List.getElem?_set, if_pos hlt]
  simp only [eq_comm]

theorem getElem?_append_singleton {α : Type} (l : List α) (b : α) (j : ℕ) :
    (l ++ [b])[j]? = if j = l.length then some b else l[j]? := by
  rw [List.getElem?_append]
  split_ifs with hlt heq heq
  · omega
  · rfl
  · simp [heq]
  · rw [List.getElem?_eq_none (by simp; omega), List.getElem?_eq_none (by omega)]

/-- The call goes on as it was: task `i`, which has not flushed, goes on to a stage in which it has not
flushed either. It may put only if it had a put in flight or the call is attached. -/
theorem Phase.record {s s' : CallPool slot} (h : Phase callId ttlDays s) {i : ℕ}
    {task : Task (callService slot) CallRequest RecorderMemory Empty Unit}
    (htasks : Replaces s s' i task)
    (hnew : Recording callId ttlDays task.request task.stage)
    (hattached : s'.memory.attached = s.memory.attached)
    (hmark : s.memory.attached = false →
      s'.memory.callMeta.transferRequested = s.memory.callMeta.transferRequested)
    {rows' : List HistoryRow} (hwrites : writes s' = writes s ++ rows'.map .putItem)
    (hfailed : Failed s → Failed s') (hrows : rows' ≠ [] → PutInFlight s)
    (hput : s.memory.attached = false → (∃ v flight k, task.stage =
      .waiting (.inl (.putItem v : RowOp)) flight k) → PutInFlight s)
    (hflusher : ∀ rows ups, AfterFlush callId ttlDays s i rows ups → False) :
    Phase callId ttlDays s' := by
  -- Before the flush rows are recorded freely; afterwards only by a put that was in flight.
  obtain ⟨rows, h⟩ | ⟨j, rows, ups, h⟩ := h
  · refine Or.inl ⟨rows ++ rows', hattached.trans h.attached, fun j task' hj => ?_, ?_⟩
    · rw [htasks j] at hj
      split_ifs at hj with hij
      · obtain rfl := Option.some.inj hj
        exact hnew
      · exact h.recording j task' hj
    · rw [hwrites, h.writes_eq, List.map_append]
  · have hij : j ≠ i := by
      rintro rfl
      exact hflusher rows ups h
    obtain ⟨request, stage, hj, hstage⟩ := h.flusher
    -- Once the flush has updated the row, no further row may come.
    have hquiet (hups : ups ≠ []) : rows' = [] := by
      by_contra hne
      exact (h.settled hups).1 (hrows hne)
    refine Or.inr ⟨j, rows ++ rows', ups, hattached.trans h.attached, ⟨request, stage, ?_, ?_⟩,
      fun j' task' hne hj' => ?_, ?_, fun hups => ⟨?_, ?_⟩⟩
    · rw [htasks j, if_neg hij, hj]
    · exact hstage.mono hfailed
    · rw [htasks j'] at hj'
      split_ifs at hj' with hij'
      · obtain rfl := Option.some.inj hj'
        exact hnew
      · exact h.recording j' task' hne hj'
    · by_cases hups : ups = []
      · rw [hwrites, h.writes_eq, hups, List.map_append]
        simp
      · rw [hwrites, h.writes_eq, hquiet hups]
        simp
    · rintro ⟨j', request', v, flight, k, hj'⟩
      refine (h.settled hups).1 ?_
      rw [htasks j'] at hj'
      split_ifs at hj' with hij'
      · obtain rfl := Option.some.inj hj'
        exact hput h.attached ⟨v, flight, k, rfl⟩
      · exact ⟨j', request', v, flight, k, hj'⟩
    · rw [hquiet hups, List.append_nil, hmark h.attached]
      exact (h.settled hups).2

/-- A request that has not flushed runs. -/
theorem Phase.run {s s' : CallPool slot} (h : Phase callId ttlDays s) {i : ℕ} {request : CallRequest}
    {stage : CallStage slot} (htasks : Replaces s s' i { request, stage })
    (hran : Ran callId ttlDays request s.memory (s'.memory, stage))
    (hwrites : writes s' = writes s) (hfailed : Failed s → Failed s')
    (hflusher : ∀ rows ups, AfterFlush callId ttlDays s i rows ups → False) :
    Phase callId ttlDays s' := by
  generalize hmemory : s'.memory = m' at hran
  cases hran with
  | recording hstage hattached hmark hput hdone =>
    subst hmemory
    have hnone : writes s' = writes s ++ ([] : List HistoryRow).map .putItem := by simpa using hwrites
    refine h.record htasks hstage hattached hmark hnone hfailed
      (fun hne => absurd rfl hne) (fun hdetached => ?_) hflusher
    rintro ⟨v, flight, k, hstage⟩
    exact absurd hstage (hput hdetached v flight k)
  | flushing hbefore hafter u =>
    obtain ⟨rows, h⟩ | ⟨j, rows, ups, h⟩ := h
    · refine Or.inr ⟨i, rows, [], hmemory ▸ hafter, ⟨request, _, ?_, .updating u ⟨[], none⟩⟩,
        fun j task hne hj => ?_, ?_, fun hne => absurd rfl hne⟩
      · rw [htasks i, if_pos rfl]
      · rw [htasks j, if_neg hne] at hj
        exact h.recording j task hj
      · rw [hwrites, h.writes_eq]
        simp
    · -- A call is not flushed twice: it is detached.
      rw [h.attached] at hbefore
      cases hbefore

/-- The flusher goes on. -/
theorem AfterFlush.move {s s' : CallPool slot} {i : ℕ} {rows : List HistoryRow}
    {ups : List HistoryUpdate} (h : AfterFlush callId ttlDays s i rows ups) {request : CallRequest}
    {stage : CallStage slot} (htasks : Replaces s s' i { request, stage })
    (hmemory : s'.memory = s.memory) {new : List HistoryUpdate}
    (hstage : Flusher callId (Failed s') stage (ups ++ new))
    (hwrites : writes s' = writes s ++ new.map (.updateItem callId))
    (hsettled : new ≠ [] → ups = [] → ¬ PutInFlight s ∧
      (s.memory.callMeta.transferRequested = true →
        ∃ v, rows.getLast? = some v ∧ v.transferRequested = some true)) :
    AfterFlush callId ttlDays s' i rows (ups ++ new) where
  attached := hmemory ▸ h.attached
  flusher := ⟨request, stage, by rw [htasks i, if_pos rfl], hstage⟩
  recording j task hne hj := by
    rw [htasks j, if_neg hne] at hj
    exact h.recording j task hne hj
  writes_eq := by rw [hwrites, h.writes_eq, List.map_append, List.append_assoc]
  settled hne := by
    have hbefore : ¬ PutInFlight s ∧ (s.memory.callMeta.transferRequested = true →
        ∃ v, rows.getLast? = some v ∧ v.transferRequested = some true) := by
      by_cases hups : ups = []
      · refine hsettled ?_ hups
        rintro rfl
        exact hne (by rw [hups]; rfl)
      · exact h.settled hups
    rw [hmemory]
    refine ⟨?_, hbefore.2⟩
    rintro ⟨j, request', v, flight, k, hj⟩
    rw [htasks j] at hj
    split_ifs at hj with hij
    · -- The flusher puts nothing.
      obtain ⟨-, rfl⟩ := Task.mk.inj (Option.some.inj hj)
      cases hstage
    · exact hbefore.1 ⟨j, request', v, flight, k, hj⟩

theorem filterMap_issueOf (i : ℕ) (stage : CallStage slot) :
    (Pool.issueOf i stage).filterMap writeOf = [] := by
  cases stage with
  | waiting op flight k =>
    rcases op with op | u
    · cases op <;> rfl
    · rfl
  | applied op reply k => rfl
  | finished r => rfl

/-- A task that has not flushed is recording. -/
theorem Phase.recording_of {s : CallPool slot} (h : Phase callId ttlDays s) {i : ℕ}
    (hflusher : ∀ rows ups, AfterFlush callId ttlDays s i rows ups → False) {task : CallTask slot}
    (htask : s.tasks[i]? = some task) : Recording callId ttlDays task.request task.stage := by
  obtain ⟨rows, h⟩ | ⟨j, rows, ups, h⟩ := h
  · exact h.recording i task htask
  · refine h.recording i task ?_ htask
    rintro rfl
    exact hflusher rows ups h

theorem writeOf_of_recordingPoint {request : CallRequest} {op : RowOp ⊕ Unit}
    {k : Except Fault ((callService slot).Reply op) → RecorderProg slot Unit}
    (h : RecordingPoint callId ttlDays request op k) (i : ℕ) (ok : Bool) :
    ∃ rows : List HistoryRow, (writeOf (i, op, .effect ok)).toList = rows.map .putItem ∧
      (rows ≠ [] → ∃ v, op = .inl (.putItem v)) := by
  cases h with
  | announced event _ | grace _ => exact ⟨[], rfl, fun h => absurd rfl h⟩
  | toolPut v _ | flushPut v =>
    cases ok with
    | true => exact ⟨[v], rfl, fun _ => ⟨v, rfl⟩⟩
    | false => exact ⟨[], rfl, fun h => absurd rfl h⟩

/-- Every event keeps the call in one of its phases, if the turns are stored when the outcome is
settled. -/
theorem Phase.step {s : CallPool slot} (h : Phase callId ttlDays s)
    (e : Event (callService slot) CallRequest) (hsettled : OutcomeSettled callId s e) :
    Phase callId ttlDays (s.step (serveCall callId ttlDays) e) := by
  have hstep := Pool.stepTo_step (serveCall callId ttlDays) s e
  revert hstep
  generalize s.step (serveCall callId ttlDays) e = s'
  intro hstep
  cases hstep with
  | idle e => exact h
  | spawn request =>
    refine h.run (getElem?_append_singleton s.tasks _) (ran_serveCall request s.memory) ?_
      (fun hfailed => hfailed.of_history rfl) ?_
    · simp [writes, filterMap_issueOf]
    · rintro rows ups hafter
      obtain ⟨request', stage, hlength, -⟩ := hafter.flusher
      simp at hlength
  | @resume i request op reply k htask =>
    have hwrites : (s.history ++ (i, op, .completed reply.isOk) ::
        Pool.issueOf i ((k reply).settle s.memory).2).filterMap writeOf =
          s.history.filterMap writeOf := by
      have hcompleted : writeOf (i, op, .completed reply.isOk) = none := by
        rcases op with op | u
        · cases op <;> rfl
        · rfl
      rw [List.filterMap_append, List.filterMap_cons, hcompleted, filterMap_issueOf,
        List.append_nil]
    by_cases hflusher : ∃ rows ups, AfterFlush callId ttlDays s i rows ups
    · obtain ⟨rows, ups, hafter⟩ := hflusher
      obtain ⟨request', stage, htask', hstage⟩ := hafter.flusher
      cases htask.symm.trans htask'
      obtain ⟨hmemory, hstage⟩ := hstage.resume s.memory
      refine Or.inr ⟨i, rows, ups ++ [], hafter.move
        (?_ : Replaces s _ i { request, stage := ((k reply).settle s.memory).2 }) hmemory ?_ ?_
        fun hne => absurd rfl hne⟩
      · exact getElem?_set_of_getElem? htask _
      · rw [List.append_nil]
        exact hstage.mono fun hfailed => hfailed.of_history rfl
      · simpa [writes] using hwrites
    · push Not at hflusher
      have hpoint := h.recording_of hflusher htask
      exact h.run (getElem?_set_of_getElem? htask _) (ran_resume hpoint reply s.memory) hwrites
        (fun hfailed => hfailed.of_history rfl) hflusher
  | @fly i choice request op flight k store flight' htask hperform =>
    have hwrites : writes s = writes s ++ [] := (List.append_nil _).symm
    by_cases hflusher : ∃ rows ups, AfterFlush callId ttlDays s i rows ups
    · obtain ⟨rows, ups, hafter⟩ := hflusher
      obtain ⟨request', stage, htask', hstage⟩ := hafter.flusher
      cases htask.symm.trans htask'
      refine Or.inr ⟨i, rows, ups ++ [], hafter.move
        (?_ : Replaces s _ i { request, stage := .waiting op flight' k }) ?_ ?_ ?_
        fun hne => absurd rfl hne⟩
      · exact getElem?_set_of_getElem? htask _
      · rfl
      · rw [List.append_nil]
        exact hstage.fly flight'
      · exact hwrites
    · push Not at hflusher
      have hpoint : RecordingPoint callId ttlDays request op k := h.recording_of hflusher htask
      have hnone : writes s = writes s ++ ([] : List HistoryRow).map .putItem := hwrites
      refine h.record (getElem?_set_of_getElem? htask _) hpoint rfl (fun _ => rfl) hnone id
        (fun hne => absurd rfl hne) ?_ hflusher
      -- The put was in flight before.
      rintro _ ⟨v, flight₁, k₁, hstage⟩
      cases hstage
      exact ⟨i, request, v, flight, _, htask⟩
  | @land i choice request op flight k store reply htask hperform =>
    have hwrites : (s.history ++ [(i, op, Mark.effect reply.isOk)]).filterMap writeOf =
        s.history.filterMap writeOf ++ (writeOf (i, op, .effect reply.isOk)).toList := by
      rw [List.filterMap_append]
      rfl
    by_cases hflusher : ∃ rows ups, AfterFlush callId ttlDays s i rows ups
    · obtain ⟨rows, ups, hafter⟩ := hflusher
      obtain ⟨request', stage, htask', hstage⟩ := hafter.flusher
      cases htask.symm.trans htask'
      obtain ⟨new, hstage', hnew, hfirst⟩ := hstage.land hperform i
      refine Or.inr ⟨i, rows, ups ++ new, hafter.move
        (?_ : Replaces s _ i { request, stage := .applied op reply k }) ?_ (hstage'.mono ?_) ?_
        fun hne hups => ?_⟩
      · exact getElem?_set_of_getElem? htask _
      · rfl
      · rintro (hfailed | hreply)
        · exact hfailed.of_history rfl
        · exact ⟨i, op, List.mem_append_right _ (by simp [hreply])⟩
      · exact hwrites.trans (by rw [hnew, writes])
      · -- The turns are stored now, so the outcome is settled.
        obtain ⟨rfl, u, rfl⟩ := hfirst hne hups
        have hput := hsettled request u flight ⟨i, k, rfl, htask⟩
        refine ⟨hput.1, fun hmark => ?_⟩
        obtain ⟨v, hlast, hv⟩ := hput.2 hmark
        rw [hafter.writes_eq, hups, List.map_nil, List.append_nil, List.getLast?_map] at hlast
        obtain ⟨v', hv', heq⟩ := Option.map_eq_some_iff.mp hlast
        obtain rfl := Op.putItem.inj heq
        exact ⟨v', hv', hv⟩
    · push Not at hflusher
      have hpoint : RecordingPoint callId ttlDays request op k := h.recording_of hflusher htask
      obtain ⟨rows', hrows', hput⟩ := writeOf_of_recordingPoint hpoint i reply.isOk
      refine h.record (getElem?_set_of_getElem? htask _) hpoint rfl (fun _ => rfl)
        (hwrites.trans (by rw [hrows', writes])) (fun hfailed => hfailed.of_history rfl)
        (fun hne => ?_) (fun _ ⟨v, flight', k', hstage⟩ => nomatch hstage) hflusher
      obtain ⟨v, rfl⟩ := hput hne
      exact ⟨i, request, v, flight, k, htask⟩

/-- A hang-up that has ended has detached the call. -/
def HungUp (s : CallPool slot) : Prop :=
  ∀ (j : ℕ) (task : CallTask slot), s.tasks[j]? = some task → task.request = .hangUp →
    (∃ r, task.stage = .finished r) → s.memory.attached = false

/-- What a request that runs means for the call being detached. -/
theorem Ran.detached {request : CallRequest} {m m' : RecorderMemory} {stage : CallStage slot}
    (h : Ran callId ttlDays request m (m', stage)) :
    (m.attached = false → m'.attached = false) ∧
      (request = .hangUp → (∃ r, stage = .finished r) → m'.attached = false) := by
  cases h with
  | recording hstage hattached hmark hput hdone =>
    exact ⟨fun h => hattached.trans h, fun hrequest hend => hattached.trans (hdone hrequest hend)⟩
  | flushing hbefore hafter u => exact ⟨fun _ => hafter, fun _ _ => hafter⟩

theorem HungUp.step {s : CallPool slot} (h : HungUp s) (hphase : Phase callId ttlDays s)
    (e : Event (callService slot) CallRequest) :
    HungUp (s.step (serveCall callId ttlDays) e) := by
  have hstep := Pool.stepTo_step (serveCall callId ttlDays) s e
  revert hstep
  generalize s.step (serveCall callId ttlDays) e = s'
  intro hstep
  cases hstep with
  | idle e => exact h
  | spawn request =>
    intro j task hj hrequest hend
    have hran : Ran callId ttlDays request s.memory
        ((serveCall callId ttlDays request : RecorderProg slot Unit).settle s.memory) :=
      ran_serveCall request s.memory
    rw [getElem?_append_singleton] at hj
    split_ifs at hj with hlast
    · obtain rfl := Option.some.inj hj
      exact hran.detached.2 hrequest hend
    · exact hran.detached.1 (h j task hj hrequest hend)
  | @resume i request op reply k htask =>
    intro j task hj hrequest hend
    rw [getElem?_set_of_getElem? htask] at hj
    by_cases hflusher : ∃ rows ups, AfterFlush callId ttlDays s i rows ups
    · obtain ⟨rows, ups, hafter⟩ := hflusher
      obtain ⟨request', stage, htask', hstage⟩ := hafter.flusher
      cases htask.symm.trans htask'
      exact (congrArg RecorderMemory.attached (hstage.resume s.memory).1).trans hafter.attached
    · push Not at hflusher
      have hran := ran_resume (hphase.recording_of hflusher htask) reply s.memory
      split_ifs at hj with hij
      · obtain rfl := Option.some.inj hj
        exact hran.detached.2 hrequest hend
      · exact hran.detached.1 (h j task hj hrequest hend)
  | fly htask hperform | land htask hperform =>
    intro j task hj hrequest hend
    rw [getElem?_set_of_getElem? htask] at hj
    split_ifs at hj with hij
    · -- A task whose operation is at work has not ended.
      obtain rfl := Option.some.inj hj
      obtain ⟨r, hr⟩ := hend
      cases hr
    · exact h j task hj hrequest hend

/-- The row of the call after an operation of the recorder. -/
theorem row_perform {op : RowOp ⊕ Unit} (hop : RecorderOp callId ttlDays op)
    {flight : Flight String HistoryRow} {choice : Choice ⊕ Answer}
    {t t' : Table (historySchema slot)}
    {result : Flight String HistoryRow ⊕ Except Fault ((callService slot).Reply op)}
    (hperform : (callService slot).perform op flight choice t = (t', result)) (i : ℕ) :
    t'.get? callId = match result with
      | .inl _ => t.get? callId
      | .inr reply =>
        (writeOf (i, op, .effect reply.isOk)).toList.foldl (writeRow callId) (t.get? callId) := by
  cases hop with
  | other =>
    rcases choice with choice | answer
    · cases hperform
      rfl
    · cases hperform
      rfl
  -- Only a put and an update that complete touch the row; faults and pages leave it.
  | outcome now callMeta =>
    rcases choice with (_ | n | code) | answer
    · cases hperform
      have hkey : (historySchema slot).key (outcomeRow callId ttlDays now callMeta) = callId := rfl
      change (t.put _).get? callId = some _
      rw [Table.get?_put, hkey, if_pos rfl]
    · cases hperform
      rfl
    · cases hperform
      rfl
    · cases hperform
      rfl
  | update u =>
    rcases choice with (_ | n | code) | answer
    · cases hperform
      change (t.upsert callId u).get? callId = some (u.set ((t.get? callId).getD (bareRow callId)))
      rw [Table.get?_upsert, if_pos rfl]
      rfl
    · cases hperform
      rfl
    · cases hperform
      rfl
    · cases hperform
      rfl

/-- What is known of a call at any time. -/
structure CallInv (callId : String) (ttlDays : ℤ) (s : CallPool slot) : Prop where
  disciplined : s.Disciplined (fun _ _ => True) (fun _ => RecorderOp callId ttlDays) fun _ _ => True
  phase : Phase callId ttlDays s
  hungUp : HungUp s
  row : s.store.get? callId = rowOf callId (writes s)

/-- The row of the call is what its writes leave. -/
theorem row_step {s : CallPool slot} (h : CallInv callId ttlDays s)
    (e : Event (callService slot) CallRequest) :
    (s.step (serveCall callId ttlDays) e).store.get? callId =
      rowOf callId (writes (s.step (serveCall callId ttlDays) e)) := by
  have hstep := Pool.stepTo_step (serveCall callId ttlDays) s e
  revert hstep
  generalize s.step (serveCall callId ttlDays) e = s'
  intro hstep
  cases hstep with
  | idle e => exact h.row
  | spawn request => simpa [writes, filterMap_issueOf] using h.row
  | @resume i request op reply k htask =>
    -- A completion is not a write.
    have hcompleted : writeOf (i, op, .completed reply.isOk) = none := by
      rcases op with op | u
      · cases op <;> rfl
      · rfl
    simpa [writes, filterMap_issueOf, hcompleted] using h.row
  | @fly i choice request op flight k store flight' htask hperform =>
    have hperforms : s.Performs (.perform i choice) request op flight choice := ⟨i, k, rfl, htask⟩
    have hop := h.disciplined.of_performs hperforms
    exact (row_perform hop hperform i).trans h.row
  | @land i choice request op flight k store reply htask hperform =>
    have hperforms : s.Performs (.perform i choice) request op flight choice := ⟨i, k, rfl, htask⟩
    have hop := h.disciplined.of_performs hperforms
    have hwrites : writes { s with
        store, tasks := s.tasks.set i { request, stage := .applied op reply k }
        history := s.history ++ [(i, op, .effect reply.isOk)] } =
          writes s ++ (writeOf (i, op, .effect reply.isOk)).toList := by
      rw [writes, List.filterMap_append]
      rfl
    rw [hwrites, rowOf, List.foldl_append]
    refine (row_perform hop hperform i).trans ?_
    rw [h.row]
    rfl

/-- Every event keeps what is known, if the turns are stored when the outcome is settled. -/
theorem CallInv.step {s : CallPool slot} (h : CallInv callId ttlDays s)
    (e : Event (callService slot) CallRequest) (hsettled : OutcomeSettled callId s e) :
    CallInv callId ttlDays (s.step (serveCall callId ttlDays) e) where
  disciplined := h.disciplined.step records_serveCall (fun _ _ _ _ _ _ => trivial) e
  phase := h.phase.step e hsettled
  hungUp := h.hungUp.step h.phase e
  row := row_step h e

/-- A call begins with its metadata attached and no row. -/
theorem callInv_start (ttlDays : ℤ) {t : Table (historySchema slot)} (ht : t.get? callId = none)
    (sessionMeta : SessionMeta) (clock monotonic : ℚ) :
    CallInv callId ttlDays (Pool.start t (attach sessionMeta clock monotonic)) where
  disciplined _ h := absurd h List.not_mem_nil
  phase := by
    refine Or.inl ⟨[], rfl, fun j task hj => ?_, rfl⟩
    cases hj
  hungUp j task hj := by cases hj
  row := ht

theorem Phase.writes_eq {s : CallPool slot} (h : Phase callId ttlDays s) :
    ∃ (rows : List HistoryRow) (ups : List HistoryUpdate),
      writes s = rows.map .putItem ++ ups.map (.updateItem callId) := by
  obtain ⟨rows, hbefore⟩ | ⟨i, rows, ups, hafter⟩ := h
  · exact ⟨rows, [], by rw [hbefore.writes_eq, List.map_nil, List.append_nil]⟩
  · exact ⟨rows, ups, hafter.writes_eq⟩

/-- Updates come after the puts. -/
theorem update_notMem_before {rows : List HistoryRow} {ups : List HistoryUpdate}
    {before after : List RowOp} {v : HistoryRow}
    (h : (rows.map .putItem ++ ups.map (.updateItem callId) : List RowOp) =
      before ++ .putItem v :: after) (k : String) (u : HistoryUpdate) :
    .updateItem k u ∉ before := by
  intro hmem
  obtain ⟨middle, -, hups⟩ | ⟨middle, hrows, -⟩ := List.append_eq_append_iff.mp h
  · -- The put would be one of the updates.
    have hput : (.putItem v : RowOp) ∈ ups.map (.updateItem callId) := by simp [hups]
    obtain ⟨u', -, heq⟩ := List.mem_map.mp hput
    cases heq
  · have hput : (.updateItem k u : RowOp) ∈ rows.map .putItem := by
      rw [hrows]
      exact List.mem_append_left _ hmem
    obtain ⟨v', -, heq⟩ := List.mem_map.mp hput
    cases heq

/-- The row that the put which took effect last leaves. -/
theorem rowOf_puts {rows : List HistoryRow} {v : HistoryRow} (h : rows.getLast? = some v) :
    rowOf callId (rows.map .putItem) = some v := by
  obtain ⟨rows, rfl⟩ := List.getLast?_eq_some_iff.mp h
  rw [rowOf, List.map_append, List.foldl_append]
  rfl

/-- The turns and the summary are different attributes, and neither is the transfer mark. -/
theorem set_turns_summary (u : TurnsUpdate) (answer : Answer) (row : HistoryRow) :
    let stored := (summaryUpdate answer).set ((HistoryUpdate.turns u).set row)
    (HistoryUpdate.turns u).set stored = stored ∧ (summaryUpdate answer).set stored = stored ∧
      stored.transferRequested = row.transferRequested := by
  cases answer <;> exact ⟨rfl, rfl, rfl⟩

/-- The row is kept. -/
theorem CallInv.rowKept {s : CallPool slot} (h : CallInv callId ttlDays s) : RowKept callId s where
  noOverwrite before v after hwrites := by
    obtain ⟨rows, ups, heq⟩ := h.phase.writes_eq
    exact update_notMem_before (heq.symm.trans hwrites)
  complete hdone := by
    obtain ⟨rows, hbefore⟩ | ⟨i, rows, ups, hafter⟩ := h.phase
    · -- The hang-up has ended, so the call is detached.
      obtain ⟨task, htask, hrequest⟩ := List.mem_map.mp hdone.hungUp
      obtain ⟨j, hj⟩ := List.mem_iff_getElem?.mp htask
      have hdetached := h.hungUp j task hj hrequest ⟨_, hdone.finished task htask⟩
      rw [hbefore.attached] at hdetached
      cases hdetached
    · obtain ⟨request, stage, hi, hstage⟩ := hafter.flusher
      obtain rfl : stage = .finished (.ok ()) := hdone.finished _ (List.mem_of_getElem? hi)
      cases hstage with
      | gaveUp ups hfailed =>
        obtain ⟨j, op, hmem⟩ := hfailed
        exact absurd hmem (hdone.succeeded j op)
      | done u answer =>
        have hwrites := hafter.writes_eq
        obtain ⟨hturns, hsummary, htransfer⟩ :=
          set_turns_summary u answer ((rowOf callId (rows.map .putItem)).getD (bareRow callId))
        have hrow : s.store.get? callId = some ((summaryUpdate answer).set ((HistoryUpdate.turns u).set
            ((rowOf callId (rows.map .putItem)).getD (bareRow callId)))) := by
          rw [h.row, hwrites, rowOf, List.foldl_append]
          rfl
        refine ⟨_, hrow, ⟨u, ?_⟩, fun k u' hu' => ?_, fun hmark => ?_⟩
        · rw [hwrites]
          simp
        · rw [hwrites] at hu'
          rcases List.mem_append.mp hu' with hput | hupdate
          · obtain ⟨v, -, heq⟩ := List.mem_map.mp hput
            cases heq
          · obtain ⟨u'', hu'', heq⟩ := List.mem_map.mp hupdate
            obtain rfl := (Op.updateItem.inj heq).2
            rcases List.mem_pair.mp hu'' with rfl | rfl
            · exact hturns
            · exact hsummary
        · obtain ⟨v, hlast, hv⟩ := (hafter.settled nofun).2 hmark
          rw [rowOf_puts hlast] at htransfer ⊢
          exact htransfer.trans hv

/-- In a run in which the turns are stored only when the outcome is settled, the row of a new call is
kept. -/
theorem rowKept_of_outcomeSettled (callId : String) (ttlDays : ℤ) {t : Table (historySchema slot)}
    (ht : t.get? callId = none) (sessionMeta : SessionMeta) (clock monotonic : ℚ)
    {es : List (Event (callService slot) CallRequest)}
    (hsettled : Run.Guarded (Pool.step (serveCall callId ttlDays)) (OutcomeSettled callId)
      (Pool.start t (attach sessionMeta clock monotonic)) es) :
    Run.Always (Pool.step (serveCall callId ttlDays)) (RowKept callId)
      (Pool.start t (attach sessionMeta clock monotonic) : CallPool slot) es := by
  have hinv : Run.Always (Pool.step (serveCall callId ttlDays)) (CallInv callId ttlDays)
      (Pool.start t (attach sessionMeta clock monotonic)) es :=
    Run.always_of_guarded (fun s e h hG => h.step e hG)
      (callInv_start ttlDays ht sessionMeta clock monotonic) hsettled
  exact hinv.mono fun s h => h.rowKept

theorem outcomeSettled_spawn (s : CallPool slot) (request : CallRequest) :
    OutcomeSettled callId s (.spawn request) := by
  rintro request' u flight ⟨i, k, he, -⟩
  cases he

theorem outcomeSettled_resume (s : CallPool slot) (i : ℕ) :
    OutcomeSettled callId s (.resume i) := by
  rintro request' u flight ⟨i', k, he, -⟩
  cases he

/-- Nothing is asked when another operation is at work. -/
theorem outcomeSettled_of_ne {s : CallPool slot} {i : ℕ} {choice : Choice ⊕ Answer}
    {request : CallRequest} {op : RowOp ⊕ Unit} {flight : Flight String HistoryRow}
    {k : Except Fault ((callService slot).Reply op) → RecorderProg slot Unit}
    (htask : s.tasks[i]? = some { request, stage := .waiting op flight k })
    (hop : ∀ u, op ≠ .inl (.updateItem callId (.turns u))) :
    OutcomeSettled callId s (.perform i choice) := by
  rintro request' u flight' ⟨i', k', he, htask'⟩
  obtain ⟨rfl, -⟩ := Event.perform.inj he
  cases htask.symm.trans htask'
  exact absurd rfl (hop u)

/-- The call is handed over, its outcome is stored, then it is hung up. -/
theorem rowKept_transferThenHangUp :
    Run.Always (Pool.step (serveCall "c" 30)) (RowKept "c")
      (Pool.start ∅ (attach sampleMeta 1060 60) : CallPool stringSlot)
      [.spawn (.transferToHuman (some "billing")), .perform 0 (.inr (.ok .none)), .resume 0,
        .perform 0 (.inr (.ok .none)), .resume 0, .perform 0 (.inl .ok), .resume 0, .spawn .hangUp,
        .perform 1 (.inl .ok), .resume 1, .perform 1 (.inr (.ok (.str "summary"))), .resume 1,
        .perform 1 (.inl .ok), .resume 1] := by
  refine rowKept_of_outcomeSettled "c" 30 rfl sampleMeta 1060 60 ⟨outcomeSettled_spawn _ _,
    outcomeSettled_of_ne rfl nofun, outcomeSettled_resume _ _, outcomeSettled_of_ne rfl nofun,
    outcomeSettled_resume _ _, outcomeSettled_of_ne rfl nofun, outcomeSettled_resume _ _,
    outcomeSettled_spawn _ _, ?_, outcomeSettled_resume _ _, outcomeSettled_of_ne rfl nofun,
    outcomeSettled_resume _ _, outcomeSettled_of_ne rfl nofun, outcomeSettled_resume _ _, trivial⟩
  rintro request u flight -
  refine ⟨?_, fun _ => ⟨_, rfl, rfl⟩⟩
  rintro ⟨j, request', v, flight', k, hj⟩
  rcases j with _ | _ | j <;> cases hj

/-- A put of the tool is in flight while the call is hung up. -/
def latePut : List (Event (callService stringSlot) CallRequest) :=
  [.spawn (.endCall none), .perform 0 (.inr (.ok .none)), .resume 0, .perform 0 (.inr (.ok .none)),
    .resume 0, .spawn .hangUp, .perform 1 (.inl .ok), .resume 1, .perform 1 (.inl .ok),
    .perform 0 (.inl .ok), .resume 0, .resume 1, .perform 1 (.inr (.ok (.str "summary"))), .resume 1,
    .perform 1 (.inl .ok), .resume 1]

theorem allDone_latePut :
    AllDone (Run.exec (Pool.step (serveCall "c" 30))
      (Pool.start ∅ (attach sampleMeta 1060 60) : CallPool stringSlot) latePut) where
  finished task htask := by
    rcases List.mem_cons.mp htask with rfl | htask
    · rfl
    · rw [List.mem_singleton.mp htask]
  succeeded i op hmem := by
    have hall : (Run.exec (Pool.step (serveCall "c" 30))
        (Pool.start ∅ (attach sampleMeta 1060 60) : CallPool stringSlot) latePut).history.all
          (fun mark => mark.2.2 ≠ Mark.effect false) = true := by decide +kernel
    exact absurd rfl (of_decide_eq_true (List.all_eq_true.mp hall _ hmem))
  hungUp := List.mem_cons_of_mem _ List.mem_cons_self

/-- The late put takes effect after the turns are stored and replaces the row that has them. -/
theorem latePut_losesTurns :
    ¬ Run.Always (Pool.step (serveCall "c" 30)) (RowKept "c")
      (Pool.start ∅ (attach sampleMeta 1060 60) : CallPool stringSlot) latePut := by
  intro h
  obtain ⟨row, hrow, ⟨u, hu⟩, hset, -⟩ := h.last.complete allDone_latePut
  -- The row of the late put has no turns.
  have hlost : row.turns = none := by
    obtain rfl := Option.some.inj hrow
    rfl
  have hkept := congrArg HistoryRow.turns (hset "c" (.turns u) hu)
  rw [hlost] at hkept
  cases hkept

end History
