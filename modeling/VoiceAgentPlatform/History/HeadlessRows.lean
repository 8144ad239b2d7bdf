import VoiceAgentPlatform.History.Recorder

/-!
# Rows without an outcome

`write_outcome_row` swallows the failure of its put and `flush_turns_and_summarize` goes on with its
update, which makes a row of its own if there is none.

* `RecorderOp`: the operations that the recorder awaits.
* `HasOutcome`: a row with the attributes of the outcome.
* `noHeadlessRow_iff`: no row without them is made exactly when every update finds the row.
-/

namespace History

open Async KeyedTable

variable {slot : String ↪ ℕ} {callId : String} {ttlDays : ℤ}

/-- The operations that the recorder awaits. -/
inductive RecorderOp (callId : String) (ttlDays : ℤ) : RowOp ⊕ Unit → Prop where
  | outcome (now : ℚ) (callMeta : CallMeta) :
      RecorderOp callId ttlDays (.inl (.putItem (outcomeRow callId ttlDays now callMeta)))
  | update (u : HistoryUpdate) : RecorderOp callId ttlDays (.inl (.updateItem callId u))
  | other : RecorderOp callId ttlDays (.inr ())

/-- A program whose operations are the recorder's. -/
def Records (callId : String) (ttlDays : ℤ) {α : Type} (p : RecorderProg slot α) : Prop :=
  p.Meets (fun _ _ => True) (RecorderOp callId ttlDays) fun _ => True

theorem records_writeOutcomeRow :
    Records callId ttlDays (writeOutcomeRow callId ttlDays : RecorderProg slot Bool) := by
  intro m
  change Prog.Meets _ _ _ (ite _ _ _)
  split_ifs
  · trivial
  · trivial
  · refine ⟨.outcome m.clock m.callMeta, fun reply _ => ?_⟩
    cases reply with
    | error f => trivial
    | ok u => exact fun _ => trivial

theorem records_flushTurns :
    Records callId ttlDays (flushTurns callId : RecorderProg slot Unit) := by
  intro m
  change Prog.Meets _ _ _ (ite _ _ _)
  split_ifs
  · trivial
  · refine ⟨.update _, fun reply _ => ?_⟩
    cases reply with
    | error f => trivial
    | ok u =>
      refine ⟨.other, fun reply _ => ?_⟩
      cases reply with
      | error f => trivial
      | ok answer => exact ⟨.update _, fun _ _ => trivial⟩

theorem records_announce (event : PyDict) :
    Records callId ttlDays (announce callId ttlDays event : RecorderProg slot Unit) := by
  refine ⟨.other, fun _ _ _ _ => ⟨.other, fun _ _ => ?_⟩⟩
  exact records_writeOutcomeRow.bind (fun _ _ => trivial) fun e => e.elim

/-- What a request awaits are operations of the recorder. -/
theorem records_serveCall (r : CallRequest) :
    Records callId ttlDays (serveCall callId ttlDays r : RecorderProg slot Unit) := by
  cases r with
  | tick clock monotonic => exact fun _ => trivial
  | append turn => exact fun _ => trivial
  | endCall reason =>
    intro m
    change Prog.Meets _ _ _ (ite (m.ending = true) _ _)
    -- A call that is ending already records nothing.
    split
    · trivial
    · exact records_announce _
  | transferToHuman topic =>
    intro m
    change Prog.Meets _ _ _ (ite (m.ending = true) _ _)
    split
    · trivial
    · exact fun _ => records_announce _
  | hangUp => exact records_writeOutcomeRow.bind (fun _ _ => records_flushTurns) fun e => e.elim

/-- The attributes that a downstream reader relies on. -/
structure HasOutcome (row : HistoryRow) : Prop where
  caller : row.caller.isSome
  startedAt : row.startedAt.isSome
  endedAt : row.endedAt.isSome
  ttl : row.ttl.isSome
  transferRequested : row.transferRequested.isSome
  transferTopic : row.transferTopic.isSome

theorem hasOutcome_outcomeRow (now : ℚ) (callMeta : CallMeta) :
    HasOutcome (outcomeRow callId ttlDays now callMeta) :=
  ⟨rfl, rfl, rfl, rfl, rfl, rfl⟩

/-- No update touches the attributes of the outcome. -/
theorem hasOutcome_set (u : HistoryUpdate) (row : HistoryRow) :
    HasOutcome (u.set row) ↔ HasOutcome row := by
  cases u <;> exact ⟨fun h => ⟨h.1, h.2, h.3, h.4, h.5, h.6⟩, fun h => ⟨h.1, h.2, h.3, h.4, h.5, h.6⟩⟩

theorem not_hasOutcome_bareRow : ¬ HasOutcome (bareRow callId) := fun h => by
  cases h.caller

/-- The call has no row, or one with its outcome. -/
def NoHeadlessRow (callId : String) (t : Table (historySchema slot)) : Prop :=
  ∀ row, t.get? callId = some row → HasOutcome row

/-- An update of the call takes effect only when the call has a row. -/
def UpdatesFindRow (callId : String) :
    CallPool slot → Event (callService slot) CallRequest → Prop :=
  Pool.Effects fun t op _ choice =>
    choice = .inl .ok → ∀ u, op = .inl (.updateItem callId u) → (t.get? callId).isSome

/-- One step of an operation of the recorder makes no headless row exactly when it is not an update
of a missing row. -/
theorem noHeadlessRow_perform_iff {t : Table (historySchema slot)} (ht : NoHeadlessRow callId t)
    {op : RowOp ⊕ Unit} (hop : RecorderOp callId ttlDays op) (flight : Flight String HistoryRow)
    (choice : Choice ⊕ Answer) :
    NoHeadlessRow callId ((callService slot).perform op flight choice t).1 ↔
      (choice = .inl .ok → ∀ u, op = .inl (.updateItem callId u) → (t.get? callId).isSome) := by
  cases hop with
  | other =>
    -- What is not about the table leaves it alone.
    have hsame : ((callService slot).perform (.inr ()) flight choice t).1 = t := by
      cases choice <;> rfl
    rw [hsame]
    exact iff_of_true ht fun _ _ hop => by cases hop
  | outcome now callMeta =>
    refine iff_of_true ?_ fun _ _ hop => by cases hop
    rcases choice with (_ | n | code) | answer
    · intro row hrow
      change (t.put (outcomeRow callId ttlDays now callMeta)).get? callId = some row at hrow
      have hkey : (historySchema slot).key (outcomeRow callId ttlDays now callMeta) = callId := rfl
      rw [Table.get?_put, hkey, if_pos rfl] at hrow
      obtain rfl := Option.some.inj hrow
      exact hasOutcome_outcomeRow now callMeta
    · exact ht
    · exact ht
    · exact ht
  | update u =>
    rcases choice with (_ | n | code) | answer
    · have hget : ((callService slot).perform (.inl (.updateItem callId u)) flight (.inl .ok) t).1.get?
          callId = some (u.set ((t.get? callId).getD (bareRow callId))) := by
        change (t.upsert callId u).get? callId = _
        rw [Table.get?_upsert, if_pos rfl]
        rfl
      have hset : NoHeadlessRow callId
          ((callService slot).perform (.inl (.updateItem callId u)) flight (.inl .ok) t).1 ↔
            HasOutcome ((t.get? callId).getD (bareRow callId)) := by
        rw [← hasOutcome_set u, NoHeadlessRow, hget]
        simp only [Option.some.injEq, forall_eq']
      rw [hset]
      cases hrow : t.get? callId with
      | none => exact iff_of_false not_hasOutcome_bareRow fun h => by cases h rfl u rfl
      | some row => exact iff_of_true (ht row hrow) fun _ _ _ => rfl
    · exact iff_of_true ht fun hok => by cases hok
    · exact iff_of_true ht fun hok => by cases hok
    · exact iff_of_true ht fun hok => by cases hok

/-- A run from a table without a headless row makes none exactly when every update of the call takes
effect only when the call has a row. -/
theorem noHeadlessRow_iff (callId : String) (ttlDays : ℤ) {t : Table (historySchema slot)}
    (ht : NoHeadlessRow callId t) (m : RecorderMemory)
    (es : List (Event (callService slot) CallRequest)) :
    Run.Always (Pool.step (serveCall callId ttlDays)) (fun s => NoHeadlessRow callId s.store)
        (Pool.start t m : CallPool slot) es ↔
      Run.Guarded (Pool.step (serveCall callId ttlDays)) (UpdatesFindRow callId)
        (Pool.start t m) es :=
  Pool.always_store_iff_of_disciplined (NoHeadlessRow callId) records_serveCall (fun _ _ _ _ _ _ => trivial)
    (fun _ _ _ flight choice hop ht => noHeadlessRow_perform_iff ht hop flight choice) ht m es

/-- The metadata of a call. -/
def sampleMeta : SessionMeta where
  caller := some "+1555"
  startedAt := some 1000
  engine := some "pipeline"
  lang := some "en-US"
  scenario := some "demo"
  provider := some "polly"
  voice := some "Joanna"
  model := some "nova-lite"
  minimaxModel := none
  webUser := none

/-- The hang-up alone: the put of the outcome, then the update of the turns. -/
theorem noHeadlessRow_iff_hangUp :
    Run.Always (Pool.step (serveCall "c" 30)) (fun s => NoHeadlessRow "c" s.store)
        (Pool.start ∅ (attach sampleMeta 1060 60) : CallPool stringSlot)
        [.spawn .hangUp, .perform 0 (.inl .ok), .resume 0, .perform 0 (.inl .ok)] ↔
      Run.Guarded (Pool.step (serveCall "c" 30)) (UpdatesFindRow "c")
        (Pool.start ∅ (attach sampleMeta 1060 60) : CallPool stringSlot)
        [.spawn .hangUp, .perform 0 (.inl .ok), .resume 0, .perform 0 (.inl .ok)] :=
  noHeadlessRow_iff "c" 30 (fun _ h => by cases h) (attach sampleMeta 1060 60) _

/-- The put of the outcome fails and the update of the turns succeeds: the row has turns and nothing
else. -/
theorem failedPut_headlessRow :
    ¬ Run.Always (Pool.step (serveCall "c" 30)) (fun s => NoHeadlessRow "c" s.store)
      (Pool.start ∅ (attach sampleMeta 1060 60) : CallPool stringSlot)
      [.spawn .hangUp, .perform 0 (.inl (.fault "InternalServerError")), .resume 0,
        .perform 0 (.inl .ok)] := by
  intro h
  have hrow := h.last _ rfl
  cases hrow.ttl

end History
