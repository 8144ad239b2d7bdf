import Mathlib.Algebra.Order.Field.Rat
import Mathlib.Algebra.Order.Group.Abs
import VoiceAgentPlatform.Lib.Run

/-!
# The merged event log

The debug drawer of the talk page: the array of events in the session store, which is cut at the front, and
the rows that `useEventLog` merges from it. A watcher follows the array: it pushes the new events, or it
loads all of them again.

* `mergeEvent`, `push`, `loadAll`: the rows.
* `appendEvent`, `planLogSync`, `Drawer.sync`: the store, the decision of the watcher, and its run.
* `LogSystem.step`: events, resets and flushes of the watcher, in any order.
* `synced_always`: the rows are those of the whole array, as long as the watcher pushes only to what it has
  read.
-/

namespace Talk

open Run

variable {V : Type} [DecidableEq V]

/-- An event in the store; `ts` is the time of its arrival. -/
structure LogEvent (V : Type) where
  type : String
  text : Option String
  value : Option V
  t : Option ℚ
  ts : ℚ
  deriving DecidableEq

/-- A row: an event, or several merged into one. -/
structure LogRow (V : Type) where
  event : LogEvent V
  asrInFlight : Bool
  llmInFlight : Bool
  deriving DecidableEq

/-- `DEDUPE_WINDOW_SEC`. -/
def dedupeWindowSec : ℚ := 5 / 100

/-- `MAX_ROWS`. -/
def maxRows : ℕ := 1000

/-- The event repeats the last row within the window. -/
def repeatsLast (last : LogRow V) (evt : LogEvent V) : Bool :=
  last.event.type = evt.type && last.event.value = evt.value && last.event.text = evt.text &&
    match last.event.t, evt.t with
    | some t, some t' => |t' - t| < dedupeWindowSec
    | _, _ => false

/-- Roll the text of the latest row in flight forward; the rows are given from the last to the first. -/
def rollAsr (evt : LogEvent V) : List (LogRow V) → Option (List (LogRow V))
  | [] => none
  | row :: rest =>
    if row.asrInFlight then
      let final := evt.type = "asr_final"
      some ({ row with
        event := { row.event with
          type := if final then "asr_final" else "asr_partial"
          text := some (evt.text.getD "")
          t := evt.t }
        asrInFlight := !final } :: rest)
    else if row.event.type ≠ "asr_partial" ∧ row.event.type ≠ "asr_final" then none
    else (rollAsr evt rest).map (row :: ·)

/-- Add to the text of the latest row in flight, or close it; the rows are given from the last to the
first. -/
def rollLlm (evt : LogEvent V) : List (LogRow V) → Option (List (LogRow V))
  | [] => none
  | row :: rest =>
    if row.llmInFlight then
      let text := row.event.text.getD ""
      some ((if evt.type = "llm_delta" then
        { row with event := { row.event with text := some (text ++ evt.text.getD ""), t := evt.t } }
      else
        { row with
          event := { row.event with
            type := "llm_end"
            text := some (if evt.text.getD "" ≠ "" then evt.text.getD "" else text)
            t := evt.t }
          llmInFlight := false }) :: rest)
    else if row.event.type ≠ "llm_delta" ∧ row.event.type ≠ "llm_end" ∧ row.event.type ≠ "llm_start" then
      none
    else (rollLlm evt rest).map (row :: ·)

/-- `mergeEvent`. -/
def mergeEvent (rows : List (LogRow V)) (evt : LogEvent V) : List (LogRow V) :=
  if rows.getLast?.any fun last => repeatsLast last evt then rows
  else if evt.type = "asr_partial" ∨ evt.type = "asr_final" then
    match rollAsr evt rows.reverse with
    | some rows' => rows'.reverse
    | none =>
      rows ++ [{ event := evt, asrInFlight := evt.type = "asr_partial", llmInFlight := false }]
  else if evt.type = "llm_delta" ∨ evt.type = "llm_end" then
    match rollLlm evt rows.reverse with
    | some rows' => rows'.reverse
    | none =>
      rows ++ [{
        event := { evt with type := if evt.type = "llm_end" then "llm_end" else "llm_delta" }
        asrInFlight := false
        llmInFlight := evt.type = "llm_delta" }]
  else rows ++ [{ event := evt, asrInFlight := false, llmInFlight := false }]

/-- Merge one event and cut the rows at the front. -/
def push (rows : List (LogRow V)) (evt : LogEvent V) : List (LogRow V) :=
  let rows := mergeEvent rows evt
  rows.drop (rows.length - maxRows)

/-- The rows of a whole array. -/
def loadAll (events : List (LogEvent V)) : List (LogRow V) := events.foldl push []

/-- How many events the store keeps. -/
def maxEvents : ℕ := 1000

/-- `appendEvent` of the session store. -/
def appendEvent (events : List (LogEvent V)) (evt : LogEvent V) (now : ℚ) : List (LogEvent V) :=
  let events := events ++ [{ evt with ts := now }]
  events.drop (events.length - maxEvents)

/-- The time of the newest event; none for the empty string. -/
def tailKey (events : List (LogEvent V)) : Option ℚ := events.getLast?.map fun last => last.t.getD last.ts

/-- What the watcher does. -/
inductive LogSync where
  | rebuild
  | append (start : ℕ)
  | noop
  deriving DecidableEq

/-- `planLogSync`. -/
def planLogSync (events : List (LogEvent V)) (processed : ℕ) (lastTail : Option ℚ) : LogSync :=
  if events.length < processed then .rebuild
  else if events.length > processed then .append processed
  else if tailKey events ≠ lastTail then .rebuild
  else .noop

/-- The merged view of the debug drawer. `signal` are the length and the tail key that the string of the
watcher is made of, at its last run. -/
structure Drawer (V : Type) where
  mergedRows : List (LogRow V)
  processed : ℕ
  lastTail : Option ℚ
  signal : Option (ℕ × Option ℚ)
  deriving DecidableEq

namespace Drawer

/-- The callback of the watcher. -/
def sync (d : Drawer V) (arr : List (LogEvent V)) : Drawer V :=
  let processed := arr.length
  let lastTail := tailKey arr
  match planLogSync arr d.processed d.lastTail with
  | .rebuild => { d with mergedRows := loadAll arr, processed, lastTail }
  | .append start =>
    { d with mergedRows := (arr.drop start).foldl push d.mergedRows, processed, lastTail }
  | .noop => d

/-- The string of the watcher has changed. -/
def due (d : Drawer V) (arr : List (LogEvent V)) : Bool := d.signal ≠ some (arr.length, tailKey arr)

/-- A run of the watcher. -/
def run (d : Drawer V) (arr : List (LogEvent V)) : Drawer V :=
  { d.sync arr with signal := some (arr.length, tailKey arr) }

/-- The drawer when it is set up. -/
def setup (arr : List (LogEvent V)) : Drawer V :=
  run { mergedRows := [], processed := 0, lastTail := none, signal := none } arr

end Drawer

/-- What happens to the log. -/
inductive LogInput (V : Type) where
  | append (evt : LogEvent V) (now : ℚ)
  | reset
  | flush
  deriving DecidableEq

/-- The store with the drawer. -/
structure LogSystem (V : Type) where
  events : List (LogEvent V)
  drawer : Drawer V
  /-- The watcher has run since the array last changed. -/
  synced : Bool
  /-- An event was removed from the array since the watcher last ran. -/
  cut : Bool
  deriving DecidableEq

namespace LogSystem

def setup (events : List (LogEvent V)) : LogSystem V :=
  { events, drawer := .setup events, synced := true, cut := false }

def step (s : LogSystem V) : LogInput V → LogSystem V
  | .append evt now =>
    { s with
      events := appendEvent s.events evt now
      synced := false
      cut := s.cut || decide (maxEvents ≤ s.events.length) }
  | .reset =>
    { s with
      events := []
      synced := s.synced && s.events.isEmpty
      cut := s.cut || !s.events.isEmpty }
  | .flush =>
    if s.drawer.due s.events then
      { s with drawer := s.drawer.run s.events, synced := true, cut := false }
    else s

/-- The rows are those of the whole array. -/
def Synced (s : LogSystem V) : Prop := s.synced = true → s.drawer.mergedRows = loadAll s.events

/-- The watcher finds more events than at its last run only if none was removed in between. -/
def GrownOnly (s : LogSystem V) : LogInput V → Prop
  | .flush => s.drawer.processed < s.events.length → s.cut = false
  | _ => True

instance (s : LogSystem V) : ∀ e, Decidable (s.GrownOnly e)
  | .flush => inferInstanceAs (Decidable (s.drawer.processed < s.events.length → s.cut = false))
  | .append _ _ => isTrue trivial
  | .reset => isTrue trivial

end LogSystem

/-- The drawer shows the events that it has read. -/
structure Drawer.Shows (d : Drawer V) (seen : List (LogEvent V)) : Prop where
  mergedRows : d.mergedRows = loadAll seen
  processed : d.processed = seen.length
  lastTail : d.lastTail = tailKey seen

theorem loadAll_append (events new : List (LogEvent V)) :
    loadAll (events ++ new) = new.foldl push (loadAll events) :=
  List.foldl_append

/-- The watcher shows what it reads, if this is what it had read, or has more behind it, or looks
different. -/
theorem Drawer.Shows.run {d : Drawer V} {seen arr : List (LogEvent V)} (h : d.Shows seen)
    (hgrown : seen.length < arr.length → seen <+: arr)
    (hsame : arr.length = seen.length → tailKey arr = tailKey seen → arr = seen) :
    (d.run arr).Shows arr := by
  suffices hsync : (d.sync arr).Shows arr from ⟨hsync.mergedRows, hsync.processed, hsync.lastTail⟩
  simp only [sync, planLogSync, h.processed, h.lastTail]
  -- The cases are those of the decision.
  rcases Nat.lt_trichotomy arr.length seen.length with hlt | heq | hgt
  · rw [if_pos hlt]
    exact ⟨rfl, rfl, rfl⟩
  · rw [if_neg heq.not_lt, if_neg heq.not_gt]
    by_cases htail : tailKey arr = tailKey seen
    · rw [if_neg (not_not.mpr htail), hsame heq htail]
      exact h
    · rw [if_pos htail]
      exact ⟨rfl, rfl, rfl⟩
  · rw [if_neg (Nat.lt_asymm hgt), if_pos hgt]
    obtain ⟨new, rfl⟩ := hgrown hgt
    refine ⟨?_, rfl, rfl⟩
    -- What was read is merged already.
    show ((seen ++ new).drop seen.length).foldl push d.mergedRows = _
    rw [loadAll_append, ← h.mergedRows, List.drop_left]

theorem Drawer.shows_setup (arr : List (LogEvent V)) : (Drawer.setup arr).Shows arr := by
  have hnone : Drawer.Shows (V := V)
      { mergedRows := [], processed := 0, lastTail := none, signal := none } [] := ⟨rfl, rfl, rfl⟩
  exact hnone.run (fun _ => List.nil_prefix) fun hlength _ => List.eq_nil_of_length_eq_zero hlength

namespace LogSystem

/-- The drawer shows what it has read, and the array has this in front if no event was removed. -/
structure Follows (s : LogSystem V) (seen : List (LogEvent V)) : Prop where
  shows : s.drawer.Shows seen
  signal : s.drawer.signal = some (seen.length, tailKey seen)
  synced : s.synced = true → s.events = seen
  uncut : s.cut = false → seen <+: s.events

theorem follows_setup (events : List (LogEvent V)) : (setup events).Follows events :=
  { shows := Drawer.shows_setup events
    signal := rfl
    synced := fun _ => rfl
    uncut := fun _ => List.prefix_rfl }

omit [DecidableEq V] in
/-- An event behind an array that is not full removes none. -/
theorem appendEvent_of_lt {events : List (LogEvent V)} (h : events.length < maxEvents)
    (evt : LogEvent V) (now : ℚ) : appendEvent events evt now = events ++ [{ evt with ts := now }] := by
  have hdrop : events.length + 1 - maxEvents = 0 := Nat.sub_eq_zero_of_le h
  rw [appendEvent, List.length_append, List.length_singleton, hdrop, List.drop_zero]

/-- The drawer does not change before its watcher runs. -/
theorem drawer_append (s : LogSystem V) (evt : LogEvent V) (now : ℚ) :
    (s.step (.append evt now)).drawer = s.drawer := by
  rw [step]

theorem Follows.append {s : LogSystem V} {seen : List (LogEvent V)} (h : s.Follows seen)
    (evt : LogEvent V) (now : ℚ) : (s.step (.append evt now)).Follows seen where
  shows := by rw [drawer_append]; exact h.shows
  signal := by rw [drawer_append]; exact h.signal
  synced hsynced := by rw [step] at hsynced; cases hsynced
  uncut hcut := by
    rw [step] at hcut ⊢
    rw [Bool.or_eq_false_iff, decide_eq_false_iff_not, not_le] at hcut
    obtain ⟨hcut, hroom⟩ := hcut
    rw [appendEvent_of_lt hroom]
    exact (h.uncut hcut).trans (List.prefix_append _ _)

theorem Follows.reset {s : LogSystem V} {seen : List (LogEvent V)} (h : s.Follows seen) :
    (s.step .reset).Follows seen where
  shows := h.shows
  signal := h.signal
  synced hsynced := by
    obtain ⟨hsynced, hempty⟩ := Bool.and_eq_true_iff.mp hsynced
    rw [← h.synced hsynced, List.isEmpty_iff.mp hempty, step]
  uncut huncut := by
    obtain ⟨huncut, hempty⟩ := Bool.or_eq_false_iff.mp huncut
    -- The array was empty before.
    have hnil : s.events = [] := by simpa using hempty
    rw [step, ← hnil]
    exact h.uncut huncut

/-- The watcher reads the array, or has read it. -/
theorem Follows.flush {s : LogSystem V} {seen : List (LogEvent V)} (h : s.Follows seen)
    (hgrown : s.GrownOnly .flush) : ∃ seen', (s.step .flush).Follows seen' := by
  rw [step]
  split
  next hdue =>
    have hshows : (s.drawer.run s.events).Shows s.events := by
      refine h.shows.run (fun hlt => h.uncut (hgrown ?_)) fun hlength htail => ?_
      · rwa [h.shows.processed]
      · simp [Drawer.due, h.signal, hlength, htail] at hdue
    exact ⟨s.events,
      { shows := hshows
        signal := rfl
        synced := fun _ => rfl
        uncut := fun _ => List.prefix_rfl }⟩
  next => exact ⟨seen, h⟩

theorem Follows.after {s : LogSystem V} {seen : List (LogEvent V)} (h : s.Follows seen)
    {e : LogInput V} (he : s.GrownOnly e) : ∃ seen', (s.step e).Follows seen' := by
  cases e with
  | append evt now => exact ⟨seen, h.append evt now⟩
  | reset => exact ⟨seen, h.reset⟩
  | flush => exact h.flush he

end LogSystem

/-- Whenever the watcher has run since the array last changed, the rows are those of the whole array, if
it never finds the array longer than at its last run when an event was removed in between. -/
theorem synced_always (events : List (LogEvent V)) (es : List (LogInput V)) :
    Guarded LogSystem.step LogSystem.GrownOnly (.setup events) es →
      Always LogSystem.step LogSystem.Synced (.setup events) es := by
  intro hG
  have hfollows := always_of_guarded (P := fun s : LogSystem V => ∃ seen, s.Follows seen)
    (fun s e ⟨seen, h⟩ he => h.after he) ⟨events, LogSystem.follows_setup events⟩ hG
  refine hfollows.mono fun s ⟨seen, h⟩ hsynced => ?_
  rw [h.shows.mergedRows, h.synced hsynced]

/-- An event of a call. -/
def sampleEvent (type : String) (t : ℚ) : LogEvent Unit :=
  { type, text := none, value := none, t := some t, ts := t }

/-- The store is reset, and the watcher runs before it gets an event. -/
theorem synced_always_reset :
    Always LogSystem.step LogSystem.Synced (.setup [sampleEvent "bot_speaking" 1])
      [.reset, .flush, .append (sampleEvent "user_speaking" 2) 2, .flush] :=
  synced_always _ _ (by decide +kernel)

/-- The store is reset and gets two events before the watcher runs again: the first is never shown, and a
row of the former call stays. -/
theorem resetAndRegrown_stale :
    ¬ Always LogSystem.step LogSystem.Synced (.setup [sampleEvent "bot_speaking" 1])
      [.reset, .append (sampleEvent "user_speaking" 2) 2, .append (sampleEvent "tts_start" 3) 3, .flush] := by
  intro h
  have hlast := h.last
  exact absurd (hlast (by decide +kernel)) (by decide +kernel)

end Talk
