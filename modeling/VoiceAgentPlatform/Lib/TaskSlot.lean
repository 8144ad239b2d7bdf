import Mathlib.Data.List.Basic

/-!
# Tasks behind one slot

A component of an event loop creates tasks one after the other and keeps the last one in a slot, through
which it cancels it. A cancelled task ends when it is resumed; nothing else happens to it.

* `cancel`, `create`, `update`, `finish`, `release`, `clear`: what the component and its tasks do.
* `Live`: the task has neither ended nor been cancelled.
* `Idle`: no task is live. `Tracked`: a live task is the one in the slot.
* `Move`: the ways in which a component works on its tasks that cancels before it creates.
* `Tracked.move`: a move keeps a live task in the slot, so that at most one is live
  (`Tracked.live_unique`).
* `LiveFrom`, `LiveFrom.move`: a task that a cancel has reached is not live again.
-/

namespace TaskSlot

/-- How far a task has come. -/
inductive Status where
  | running
  /-- A `CancelledError` is under way. -/
  | cancelled
  | done
  deriving DecidableEq

/-- A task, with what it waits for. -/
structure Job (α : Type) where
  waits : α
  status : Status
  deriving DecidableEq

end TaskSlot

open TaskSlot in
/-- The tasks, in the order in which they were created, and the one in the slot. -/
structure TaskSlot (α : Type) where
  jobs : List (Job α)
  pending : Option ℕ
  deriving DecidableEq

namespace TaskSlot

variable {α : Type}

/-- No task was created yet. -/
def empty : TaskSlot α := { jobs := [], pending := none }

/-- Cancel the task in the slot unless it is done, and empty the slot. -/
def cancel (s : TaskSlot α) : TaskSlot α :=
  { jobs :=
      match s.pending with
      | some id => s.jobs.modify id fun job =>
        if job.status = .done then job else { job with status := .cancelled }
      | none => s.jobs
    pending := none }

/-- Create a task and put it into the slot. -/
def create (s : TaskSlot α) (a : α) : TaskSlot α :=
  { jobs := s.jobs ++ [⟨a, .running⟩], pending := some s.jobs.length }

/-- A task waits for something else. -/
def update (s : TaskSlot α) (id : ℕ) (a : α) : TaskSlot α :=
  { s with jobs := s.jobs.modify id fun job => { job with waits := a } }

/-- A task ends. -/
def finish (s : TaskSlot α) (id : ℕ) : TaskSlot α :=
  { s with jobs := s.jobs.modify id fun job => { job with status := .done } }

/-- Empty the slot if it holds this task. -/
def release (s : TaskSlot α) (id : ℕ) : TaskSlot α :=
  { s with pending := if s.pending = some id then none else s.pending }

/-- Empty the slot. -/
def clear (s : TaskSlot α) : TaskSlot α := { s with pending := none }

/-- The task has neither ended nor been cancelled. -/
def Live (s : TaskSlot α) (id : ℕ) (a : α) : Prop := s.jobs[id]? = some ⟨a, .running⟩

/-- No task is live. -/
def Idle (s : TaskSlot α) : Prop := ∀ id a, ¬ s.Live id a

/-- A live task is the one in the slot. -/
def Tracked (s : TaskSlot α) : Prop := ∀ id a, s.Live id a → s.pending = some id

variable {s : TaskSlot α} {id id' : ℕ} {a b : α}

theorem idle_empty : (empty : TaskSlot α).Idle := fun id a h => by simp [Live, empty] at h

theorem Idle.tracked (h : s.Idle) : s.Tracked := fun id a hlive => absurd hlive (h id a)

/-- At most one task is live. -/
theorem Tracked.live_unique (h : s.Tracked) (hlive : s.Live id a) (hlive' : s.Live id' b) :
    id = id' :=
  Option.some.inj ((h id a hlive).symm.trans (h id' b hlive'))

@[simp]
theorem length_cancel (s : TaskSlot α) : s.cancel.jobs.length = s.jobs.length := by
  rw [cancel]
  cases s.pending <;> simp

/-- What is live behind a cancel was live before. -/
theorem live_cancel (h : s.cancel.Live id a) : s.Live id a := by
  cases hpending : s.pending with
  | none =>
    rw [cancel, Live] at h
    simp only [hpending] at h
    exact h
  | some id' =>
    rw [cancel, Live] at h
    simp only [hpending, List.getElem?_modify] at h
    cases hjob : s.jobs[id]? with
    | none => simp [hjob] at h
    | some job =>
      by_cases hid : id' = id
      · -- The task in the slot is now cancelled, or it had ended before.
        simp only [hjob, hid, if_true, Option.map_eq_map, Option.map_some, Option.some.injEq] at h
        split at h
        next hdone => simp [h] at hdone
        next => simp at h
      · simpa [Live, hjob, hid] using h

/-- Behind a cancel no task is live. -/
theorem Tracked.idle_cancel (h : s.Tracked) : s.cancel.Idle := by
  intro id a hlive
  have hpending := h id a (live_cancel hlive)
  have hjob : s.jobs[id]? = some ⟨a, .running⟩ := live_cancel hlive
  rw [cancel, Live] at hlive
  simp [hpending, hjob] at hlive

/-- What is live behind a creation was live before, or is the new task. -/
theorem live_create (h : (s.create a).Live id b) : s.Live id b ∨ (id = s.jobs.length ∧ b = a) := by
  rw [create, Live, List.getElem?_append] at h
  split at h
  next => exact .inl h
  next hlt =>
    have hid : id - s.jobs.length = 0 := by
      have := (List.getElem?_eq_some_iff.mp h).1
      simp only [List.length_singleton] at this
      omega
    simp only [hid, List.getElem?_cons_zero, Option.some.injEq, Job.mk.injEq, and_true] at h
    exact .inr ⟨by omega, h.symm⟩

/-- What is live behind the end of a task is another one. -/
theorem live_finish (h : (s.finish id).Live id' a) : s.Live id' a ∧ id' ≠ id := by
  rw [finish, Live, List.getElem?_modify] at h
  by_cases hid : id = id'
  · cases hjob : s.jobs[id']? with
    | none => simp [hjob] at h
    | some job => simp [hjob, hid] at h
  · exact ⟨by simpa [Live, hid] using h, Ne.symm hid⟩

/-- What is live behind an update was live before; only this task waits for something else. -/
theorem live_update (h : (s.update id a).Live id' b) :
    ∃ a', s.Live id' a' ∧ (id' = id → b = a) ∧ (id' ≠ id → b = a') := by
  rw [update, Live, List.getElem?_modify] at h
  by_cases hid : id = id'
  · cases hjob : s.jobs[id']? with
    | none => simp [hjob] at h
    | some job =>
      obtain ⟨waits, status⟩ := job
      simp only [hjob, hid, if_true, Option.map_eq_map, Option.map_some, Option.some.injEq,
        Job.mk.injEq] at h
      obtain ⟨rfl, rfl⟩ := h
      exact ⟨waits, hjob, fun _ => rfl, fun hne => absurd hid.symm hne⟩
  · exact ⟨b, by simpa [Live, hid] using h, fun h => absurd h.symm hid, fun _ => rfl⟩

theorem Idle.tracked_create (h : s.Idle) (a : α) : (s.create a).Tracked := by
  intro id b hlive
  rcases live_create hlive with hbefore | ⟨rfl, -⟩
  · exact absurd hbefore (h id b)
  · rfl

/-- The end of the live task leaves no task live. -/
theorem Tracked.idle_finish (h : s.Tracked) (hlive : s.Live id a) : (s.finish id).Idle := by
  intro id' b hlive'
  obtain ⟨hbefore, hne⟩ := live_finish hlive'
  exact hne (h.live_unique hbefore hlive)

/-! ## The moves of a component -/

/-- The ways in which a component works on its tasks that cancels before it creates. -/
inductive Move : TaskSlot α → TaskSlot α → Prop where
  | stay (s : TaskSlot α) : Move s s
  | cancel (s : TaskSlot α) : Move s s.cancel
  | replace (s : TaskSlot α) (a : α) : Move s (s.cancel.create a)
  | update (s : TaskSlot α) (id : ℕ) (a : α) : Move s (s.update id a)
  | finish (s : TaskSlot α) (id : ℕ) : Move s (s.finish id)
  /-- A task ends, and gives the slot free unless a newer task is in it. -/
  | release (s : TaskSlot α) (id : ℕ) : Move s ((s.finish id).release id)
  /-- The live task empties the slot and goes on alone. -/
  | leave {s : TaskSlot α} {id : ℕ} {a : α} (hlive : s.Live id a) : Move s (s.finish id).clear
  /-- The live task ends with a successor. -/
  | renew {s : TaskSlot α} {id : ℕ} {a : α} (hlive : s.Live id a) (b : α) :
      Move s ((s.finish id).clear.create b)

/-- A move keeps a live task in the slot. -/
theorem Tracked.move {s' : TaskSlot α} (h : s.Tracked) (hmove : Move s s') : s'.Tracked := by
  -- By the ways in which the slot moves.
  match hmove with
  | .stay _ => exact h
  | .cancel _ => exact h.idle_cancel.tracked
  | .replace _ a => exact h.idle_cancel.tracked_create a
  | .update _ id a =>
    intro id' b hlive
    obtain ⟨a', hbefore, -⟩ := live_update hlive
    exact h id' a' hbefore
  | .finish _ id => exact fun id' b hlive => h id' b (live_finish hlive).1
  | .release _ id =>
    intro id' b hlive
    obtain ⟨hbefore, hne⟩ := live_finish hlive
    have hpending : (s.finish id).pending = some id' := h id' b hbefore
    simp [release, hpending, hne]
  | .leave hlive =>
    have hidle : (s.finish _).clear.Idle := h.idle_finish hlive
    exact hidle.tracked
  | .renew hlive b =>
    have hidle : (s.finish _).clear.Idle := h.idle_finish hlive
    exact hidle.tracked_create b

/-- What is live behind a move was live before, or is a new task. -/
theorem live_of_move {s' : TaskSlot α} (h : Move s s') (hlive : s'.Live id a) :
    (∃ b, s.Live id b) ∨ s.jobs.length ≤ id := by
  -- A job is not new unless the slot creates it.
  match h with
  | .stay _ => exact .inl ⟨a, hlive⟩
  | .cancel _ => exact .inl ⟨a, live_cancel hlive⟩
  | .replace _ b =>
    rcases live_create hlive with hbefore | ⟨rfl, -⟩
    · exact .inl ⟨a, live_cancel hbefore⟩
    · exact .inr (Nat.le_of_eq (length_cancel s).symm)
  | .update _ id' b =>
    obtain ⟨a', hbefore, -⟩ := live_update hlive
    exact .inl ⟨a', hbefore⟩
  | .finish _ id' => exact .inl ⟨a, (live_finish hlive).1⟩
  | .release _ id' => exact .inl ⟨a, (live_finish hlive).1⟩
  | .leave _ => exact .inl ⟨a, (live_finish hlive).1⟩
  | .renew _ b =>
    rcases live_create hlive with hbefore | ⟨rfl, -⟩
    · exact .inl ⟨a, (live_finish hbefore).1⟩
    · exact .inr (by simp [clear, finish])

/-- A move forgets no task. -/
theorem length_le_of_move {s' : TaskSlot α} (h : Move s s') : s.jobs.length ≤ s'.jobs.length := by
  cases h <;> simp [TaskSlot.create, TaskSlot.update, TaskSlot.finish, TaskSlot.release, clear]

/-- There are `n` tasks at least, and the first `n` are not live. -/
structure LiveFrom (n : ℕ) (s : TaskSlot α) : Prop where
  le : n ≤ s.jobs.length
  live : ∀ id a, s.Live id a → n ≤ id

/-- A task that is not live does not come back. -/
theorem LiveFrom.move {n : ℕ} {s' : TaskSlot α} (h : LiveFrom n s) (hmove : Move s s') :
    LiveFrom n s' := by
  refine ⟨Nat.le_trans h.le (length_le_of_move hmove), fun id a hlive => ?_⟩
  rcases live_of_move hmove hlive with ⟨b, hbefore⟩ | hnew
  · exact h.live id b hbefore
  · exact Nat.le_trans h.le hnew

/-- A cancel reaches every task there is. -/
theorem Tracked.liveFrom_cancel (h : s.Tracked) : LiveFrom s.jobs.length s.cancel :=
  ⟨Nat.le_of_eq (length_cancel s).symm, fun id a hlive => absurd hlive (h.idle_cancel id a)⟩

end TaskSlot
