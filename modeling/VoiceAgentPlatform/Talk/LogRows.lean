import Mathlib.Data.List.Nodup
import VoiceAgentPlatform.Lib.Rollup
import VoiceAgentPlatform.Talk.EventLog

/-!
# The rows of the merged log

`mergeEvent` by the search of rows in flight, and on objects: the rows are objects of their own, updated in
place.

* `mergeEvent_eq`: the search and the updates.
* `Log.merge`: `mergeEvent` on objects.
* `Log.shown_after`: the objects show what `mergeEvent` shows, and the events are as they were.
-/

namespace Talk

open Rollup

variable {V : Type}

/-! ### Rows -/

/-- A row of an utterance. -/
def LogRow.isAsr (row : LogRow V) : Bool :=
  row.event.type = "asr_partial" || row.event.type = "asr_final"

/-- A row of a reply. -/
def LogRow.isLlm (row : LogRow V) : Bool :=
  row.event.type = "llm_delta" || row.event.type = "llm_end"

/-- A row that the search for a reply in flight passes. -/
def LogRow.passesLlm (row : LogRow V) : Bool := row.isLlm || row.event.type = "llm_start"

theorem LogRow.isAsr_iff {row : LogRow V} :
    row.isAsr = true ↔ row.event.type = "asr_partial" ∨ row.event.type = "asr_final" := by
  rw [LogRow.isAsr, Bool.or_eq_true, decide_eq_true_iff, decide_eq_true_iff]

theorem LogRow.isLlm_iff {row : LogRow V} :
    row.isLlm = true ↔ row.event.type = "llm_delta" ∨ row.event.type = "llm_end" := by
  rw [LogRow.isLlm, Bool.or_eq_true, decide_eq_true_iff, decide_eq_true_iff]

/-- The update of the row of an utterance. -/
def asrUpdate (evt : LogEvent V) (row : LogRow V) : LogRow V :=
  let final := evt.type = "asr_final"
  { row with
    event := { row.event with
      type := if final then "asr_final" else "asr_partial"
      text := some (evt.text.getD "")
      t := evt.t }
    asrInFlight := !final }

/-- The update of the row of a reply. -/
def llmUpdate (evt : LogEvent V) (row : LogRow V) : LogRow V :=
  let text := row.event.text.getD ""
  if evt.type = "llm_delta" then
    { row with event := { row.event with text := some (text ++ evt.text.getD ""), t := evt.t } }
  else
    { row with
      event := { row.event with
        type := "llm_end"
        text := some (if evt.text.getD "" ≠ "" then evt.text.getD "" else text)
        t := evt.t }
      llmInFlight := false }

/-- A new row of an utterance. -/
def asrRow (evt : LogEvent V) : LogRow V :=
  { event := evt, asrInFlight := evt.type = "asr_partial", llmInFlight := false }

/-- A new row of a reply. -/
def llmRow (evt : LogEvent V) : LogRow V :=
  { event := { evt with type := if evt.type = "llm_end" then "llm_end" else "llm_delta" }
    asrInFlight := false
    llmInFlight := evt.type = "llm_delta" }

/-- A row of its own. -/
def plainRow (evt : LogEvent V) : LogRow V := { event := evt, asrInFlight := false, llmInFlight := false }

theorem rollAsr_eq_roll (evt : LogEvent V) (rows : List (LogRow V)) :
    rollAsr evt rows = roll LogRow.asrInFlight LogRow.isAsr (asrUpdate evt) rows := by
  induction rows with
  | nil => rfl
  | cons row rows ih =>
    rw [rollAsr, roll, ih]
    by_cases hflight : row.asrInFlight = true
    · rw [if_pos hflight, if_pos hflight]
      rfl
    · rw [if_neg hflight, if_neg hflight]
      by_cases hunfinished : row.event.type = "asr_partial"
      · simp [LogRow.isAsr, hunfinished]
      · by_cases hfinal : row.event.type = "asr_final"
        · simp [LogRow.isAsr, hfinal]
        · simp [LogRow.isAsr, hunfinished, hfinal]

theorem rollLlm_eq_roll (evt : LogEvent V) (rows : List (LogRow V)) :
    rollLlm evt rows = roll LogRow.llmInFlight LogRow.passesLlm (llmUpdate evt) rows := by
  induction rows with
  | nil => rfl
  | cons row rows ih =>
    rw [rollLlm, roll, ih]
    by_cases hflight : row.llmInFlight = true
    · rw [if_pos hflight, if_pos hflight]
      rfl
    · rw [if_neg hflight, if_neg hflight]
      -- The types of a reply, one by one.
      by_cases hdelta : row.event.type = "llm_delta"
      · simp [LogRow.passesLlm, LogRow.isLlm, hdelta]
      · by_cases hend : row.event.type = "llm_end"
        · simp [LogRow.passesLlm, LogRow.isLlm, hend]
        · by_cases hstart : row.event.type = "llm_start"
          · simp [LogRow.passesLlm, LogRow.isLlm, hstart]
          · simp [LogRow.passesLlm, LogRow.isLlm, hdelta, hend, hstart]

/-- The event is one of an utterance. -/
def LogEvent.IsAsr (evt : LogEvent V) : Prop := evt.type = "asr_partial" ∨ evt.type = "asr_final"

/-- The event is one of the text of a reply. -/
def LogEvent.IsLlm (evt : LogEvent V) : Prop := evt.type = "llm_delta" ∨ evt.type = "llm_end"

instance (evt : LogEvent V) : Decidable evt.IsAsr := inferInstanceAs (Decidable (_ ∨ _))

instance (evt : LogEvent V) : Decidable evt.IsLlm := inferInstanceAs (Decidable (_ ∨ _))

theorem LogEvent.IsLlm.not_isAsr {evt : LogEvent V} (h : evt.IsLlm) : ¬ evt.IsAsr := by
  rintro (hasr | hasr) <;> rcases h with h | h <;> simp [h] at hasr

/-- The event repeats the last row. -/
def Repeats [DecidableEq V] (rows : List (LogRow V)) (evt : LogEvent V) : Prop :=
  rows.getLast?.any (fun last => repeatsLast last evt) = true

instance [DecidableEq V] (rows : List (LogRow V)) (evt : LogEvent V) : Decidable (Repeats rows evt) :=
  inferInstanceAs (Decidable (_ = true))

/-- `mergeEvent` by the search. -/
theorem mergeEvent_eq [DecidableEq V] (rows : List (LogRow V)) (evt : LogEvent V) :
    mergeEvent rows evt =
      if Repeats rows evt then rows
      else if evt.IsAsr then
        match roll LogRow.asrInFlight LogRow.isAsr (asrUpdate evt) rows.reverse with
        | some rows' => rows'.reverse
        | none => rows ++ [asrRow evt]
      else if evt.IsLlm then
        match roll LogRow.llmInFlight LogRow.passesLlm (llmUpdate evt) rows.reverse with
        | some rows' => rows'.reverse
        | none => rows ++ [llmRow evt]
      else rows ++ [plainRow evt] := by
  rw [mergeEvent, rollAsr_eq_roll, rollLlm_eq_roll]
  rfl

/-! ### Objects -/

/-- The objects, of which the first are the events, and the addresses of the rows. -/
structure Log (V : Type) where
  objects : List (LogRow V)
  rows : List ℕ

namespace Log

/-- The events before anything is merged. -/
def load (events : List (LogEvent V)) : Log V := { objects := events.map plainRow, rows := [] }

/-- The rows that are shown. -/
def shown (log : Log V) : List (LogRow V) := deref log.objects log.rows

/-- `rows.push`, of a copy. -/
def pushRow (log : Log V) (row : LogRow V) : Log V :=
  { objects := log.objects ++ [row], rows := log.rows ++ [log.objects.length] }

/-- `mergeEvent`, of the event at an address. -/
def merge [DecidableEq V] (log : Log V) (e : ℕ) : Log V :=
  match log.objects[e]? with
  | none => log
  | some object =>
    let evt := object.event
    let last := log.rows.getLast?.bind (log.objects[·]?)
    if last.any fun last => repeatsLast last evt then log
    else if evt.IsAsr then
      match find LogRow.asrInFlight LogRow.isAsr log.objects log.rows.reverse with
      | some i => { log with objects := log.objects.modify i (asrUpdate evt) }
      | none => log.pushRow (asrRow evt)
    else if evt.IsLlm then
      match find LogRow.llmInFlight LogRow.passesLlm log.objects log.rows.reverse with
      | some i => { log with objects := log.objects.modify i (llmUpdate evt) }
      | none => log.pushRow (llmRow evt)
    else log.pushRow (plainRow evt)

/-- The log after the first `k` events. -/
def after [DecidableEq V] (events : List (LogEvent V)) (k : ℕ) : Log V :=
  (List.range k).foldl merge (load events)

/-- The rows have objects of their own behind the `n` events. -/
structure Apart (log : Log V) (events : List (LogEvent V)) : Prop where
  nodup : log.rows.Nodup
  bounds : ∀ i ∈ log.rows, events.length ≤ i ∧ i < log.objects.length
  untouched : log.objects.take events.length = events.map plainRow

variable {log : Log V} {events : List (LogEvent V)}

theorem apart_load (events : List (LogEvent V)) : (load events).Apart events where
  nodup := List.nodup_nil
  bounds i hi := absurd hi List.not_mem_nil
  untouched := List.take_of_length_le (by rw [load, List.length_map])

theorem Apart.length_le (h : log.Apart events) : events.length ≤ log.objects.length := by
  have := congrArg List.length h.untouched
  rw [List.length_take, List.length_map] at this
  omega

theorem Apart.pushRow (h : log.Apart events) (row : LogRow V) : (log.pushRow row).Apart events where
  nodup := by
    refine List.nodup_append.mpr ⟨h.nodup, List.nodup_singleton _, fun i hi j hj heq => ?_⟩
    rw [heq, List.mem_singleton.mp hj] at hi
    exact absurd (h.bounds _ hi).2 (Nat.lt_irrefl _)
  bounds i hi := by
    have hlength := h.length_le
    rw [Log.pushRow, List.length_append, List.length_singleton]
    rcases List.mem_append.mp hi with hi | hi
    · have := h.bounds i hi
      omega
    · rw [List.mem_singleton.mp hi]
      omega
  untouched := by
    rw [Log.pushRow, List.take_append_of_le_length h.length_le, h.untouched]

theorem Apart.modify (h : log.Apart events) {i : ℕ} (hi : i ∈ log.rows) (f : LogRow V → LogRow V) :
    Apart { log with objects := log.objects.modify i f } events where
  nodup := h.nodup
  bounds j hj := by
    rw [List.length_modify]
    exact h.bounds j hj
  untouched := by
    have hi := (h.bounds i hi).1
    refine Eq.trans (List.ext_getElem? fun j => ?_) h.untouched
    rw [List.getElem?_take, List.getElem?_take]
    split_ifs with hj
    · exact List.getElem?_modify_ne f log.objects (by omega)
    · rfl

theorem Apart.valid (h : log.Apart events) : ∀ i ∈ log.rows, i < log.objects.length :=
  fun i hi => (h.bounds i hi).2

/-- A new object does not change the others. -/
theorem shown_pushRow (h : log.Apart events) (row : LogRow V) :
    (log.pushRow row).shown = log.shown ++ [row] := by
  have hold : deref (log.objects ++ [row]) log.rows = deref log.objects log.rows :=
    List.filterMap_congr fun i hi => List.getElem?_append_left (h.valid i hi)
  have hnew : deref (log.objects ++ [row]) [log.objects.length] = [row] := by
    rw [deref_cons List.getElem?_concat_length]
    rfl
  rw [shown, pushRow, deref_append, hold, hnew, shown]

/-- Where the search finds a row, the row is updated in place. -/
theorem shown_modify (h : log.Apart events) {p q : LogRow V → Bool} {f : LogRow V → LogRow V} :
    roll p q f log.shown.reverse = (find p q log.objects log.rows.reverse).map fun i =>
      (shown { log with objects := log.objects.modify i f }).reverse := by
  have hroll := roll_deref (p := p) (q := q) (f := f) (List.nodup_reverse.mpr h.nodup)
    fun i hi => h.valid i (List.mem_reverse.mp hi)
  simp only [deref_reverse] at hroll
  exact hroll

theorem getLast?_shown (h : log.Apart events) :
    log.shown.getLast? = log.rows.getLast?.bind (log.objects[·]?) := by
  rcases List.eq_nil_or_concat log.rows with hnil | ⟨rows, i, hrows⟩
  · rw [shown, hnil]
    rfl
  · have hi : i < log.objects.length := h.valid i (by rw [hrows]; simp)
    have hget : log.objects[i]? = some log.objects[i] := List.getElem?_eq_getElem hi
    rw [shown, hrows, List.concat_eq_append, deref_append, deref_cons hget, List.getLast?_concat,
      Option.bind_some, hget]
    exact List.getLast?_concat

/-- The merge of objects shows the merge of rows. -/
theorem Apart.merge [DecidableEq V] (h : log.Apart events) {e : ℕ} {evt : LogEvent V}
    (he : events[e]? = some evt) :
    (log.merge e).Apart events ∧ (log.merge e).shown = mergeEvent log.shown evt := by
  -- The objects of the events are as the events are.
  have hobject : log.objects[e]? = some (plainRow evt) := by
    have hlt : e < events.length := (List.getElem?_eq_some_iff.mp he).1
    have htake : (log.objects.take events.length)[e]? = some (plainRow evt) := by
      rw [h.untouched, List.getElem?_map, he, Option.map_some]
    rwa [List.getElem?_take_of_lt hlt] at htake
  have hlast : (log.rows.getLast?.bind (log.objects[·]?)).any (fun last => repeatsLast last evt) = true ↔
      Repeats log.shown evt := by
    rw [Repeats, getLast?_shown h]
  rw [Log.merge, hobject, mergeEvent_eq, shown_modify h, shown_modify h]
  dsimp only [plainRow]
  by_cases hrepeats : Repeats log.shown evt
  · rw [if_pos (hlast.mpr hrepeats), if_pos hrepeats]
    exact ⟨h, rfl⟩
  rw [if_neg (mt hlast.mp hrepeats), if_neg hrepeats]
  split_ifs
  · cases hfind : find LogRow.asrInFlight LogRow.isAsr log.objects log.rows.reverse with
    | none => exact ⟨h.pushRow _, shown_pushRow h _⟩
    | some i =>
      refine ⟨h.modify (List.mem_reverse.mp (mem_of_find hfind)) _, ?_⟩
      rw [Option.map_some]
      exact (List.reverse_reverse _).symm
  · cases hfind : find LogRow.llmInFlight LogRow.passesLlm log.objects log.rows.reverse with
    | none => exact ⟨h.pushRow _, shown_pushRow h _⟩
    | some i =>
      refine ⟨h.modify (List.mem_reverse.mp (mem_of_find hfind)) _, ?_⟩
      rw [Option.map_some]
      exact (List.reverse_reverse _).symm
  · exact ⟨h.pushRow _, shown_pushRow h _⟩

/-- The log shows the merge of the events, which are as they were. -/
theorem shown_after [DecidableEq V] (events : List (LogEvent V)) {k : ℕ} (hk : k ≤ events.length) :
    (after events k).Apart events ∧ (after events k).shown = (events.take k).foldl mergeEvent [] := by
  induction k with
  | zero => exact ⟨apart_load events, rfl⟩
  | succ k ih =>
    obtain ⟨hapart, hshown⟩ := ih (Nat.le_of_succ_le hk)
    have hget : events[k]? = some events[k] := List.getElem?_eq_getElem hk
    obtain ⟨hapart', hshown'⟩ := hapart.merge hget
    rw [after, List.range_succ, List.foldl_append, List.foldl_cons, List.foldl_nil, ← after]
    refine ⟨hapart', ?_⟩
    rw [hshown', hshown, List.take_add_one, hget, List.foldl_append]
    rfl

end Log

end Talk
