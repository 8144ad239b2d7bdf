import VoiceAgentPlatform.Lib.PyVal
import VoiceAgentPlatform.Lib.Run

/-!
# The tools that end a call

The handlers of `end_call` and `transfer_to_human` of one call, as tasks on one event loop: a handler runs
until it waits, and then until it waits again. The first that finds the call not ending marks it so, and a
task of its own ends the call after a grace period. A handler may be cancelled while it waits.

* `begin`, `emitted`, `wake`, `written`: the code between two waits.
* `step`: invocations, resumptions and cancellations, in any order.
* `Move`: what a step can do.
* `endsOnce_iff`: which runs end the call exactly once.
-/

namespace CallControl

open Run

/-- Which of the optional callbacks the caller passed. -/
structure Callbacks where
  historyAppend : Bool
  markTransfer : Bool
  writeOutcome : Bool
  deriving DecidableEq

inductive Tool where
  | endCall
  | transferToHuman
  deriving DecidableEq

/-- What the handlers and the task do that others see, in order. -/
inductive Output where
  | markTransfer (topic : PyVal)
  /-- `reason` of the one tool, `topic` of the other. -/
  | emit (tool : Tool) (arg : PyVal)
  | historyAppend (tool : Tool) (arg : PyVal)
  | writeOutcome
  /-- A log line: a callback raised. -/
  | failed
  | result (id : ℕ) (status : String) (reason : Option String)
  | endTaskFrame (reason : String)
  deriving DecidableEq

/-- How far an invocation has come. -/
inductive Phase where
  /-- It waits for `emit`, having marked the call, which is to end for `reason`. -/
  | emitting (tool : Tool) (arg : PyVal) (reason : String)
  /-- It waits for its `result_callback`. -/
  | reporting
  | finished
  | cancelled
  | raised
  deriving DecidableEq

/-- How far `_grace_then_end` has come. -/
inductive Grace where
  | sleeping (reason : String)
  | writing (reason : String)
  | finished
  deriving DecidableEq

structure State where
  ending : Bool
  invocations : List Phase
  graces : List Grace
  outputs : List Output
  deriving DecidableEq

/-- The handlers are registered. -/
def State.initial : State := { ending := false, invocations := [], graces := [], outputs := [] }

/-! ### The code -/

/-- `VALID_END_REASONS`. -/
def validEndReasons : List String := ["user_requested", "task_completed", "transfer_requested", "abusive"]

/-- `(params.arguments or {}).get(key)`; none if it raises. -/
def argument (arguments : PyVal) (key : String) : Option PyVal :=
  match arguments.orElse (.dict []) with
  | .dict d => some (PyDict.get d key)
  | _ => none

/-- The reason of `end_call`; none if it raises, as the look-up of a value without a hash does. -/
def endReason (arguments : PyVal) : Option String :=
  (argument arguments "reason").bind fun raw =>
    match raw.orElse (.str "user_requested") with
    | .str reason => some (if reason ∈ validEndReasons then reason else "user_requested")
    | .list _ => none
    | .dict _ => none
    | _ => some "user_requested"

/-- What a callback does that the caller may have passed, and that may raise. -/
def guarded (given fails : Bool) (output : Output) : List Output :=
  if given then if fails then [output, .failed] else [output] else []

/-- A handler up to its first wait. -/
def begin (cb : Callbacks) (s : State) (tool : Tool) (arguments : PyVal) (markFails : Bool) : State :=
  -- A call that is ending already gets an answer, and nothing else happens.
  if s.ending then
    { s with
      invocations := s.invocations ++ [.reporting]
      outputs := s.outputs ++ [.result s.invocations.length "already_ending" none] }
  else
    match tool with
    | .endCall =>
      match endReason arguments with
      -- Arguments that are not a map raise before the marker is set.
      | none => { s with invocations := s.invocations ++ [.raised] }
      | some reason =>
        { s with
          ending := true
          invocations := s.invocations ++ [.emitting .endCall (.str reason) reason]
          outputs := s.outputs ++ [.emit .endCall (.str reason)] }
    | .transferToHuman =>
      match (argument arguments "topic").map (·.orElse (.str "")) with
      | none => { s with invocations := s.invocations ++ [.raised] }
      | some topic =>
        { s with
          ending := true
          invocations := s.invocations ++ [.emitting .transferToHuman topic "transfer_requested"]
          outputs := s.outputs ++ guarded cb.markTransfer markFails (.markTransfer topic) ++
            [.emit .transferToHuman topic] }

/-- A handler from `emit`, which returned or raised, to its second wait. -/
def emitted (cb : Callbacks) (s : State) (id : ℕ) (emitFails historyFails : Bool) : State :=
  match s.invocations[id]? with
  | some (.emitting tool arg reason) =>
    { s with
      invocations := s.invocations.set id .reporting
      graces := s.graces ++ [.sleeping reason]
      outputs := s.outputs ++ (if emitFails then [.failed] else []) ++
        guarded cb.historyAppend historyFails (.historyAppend tool arg) ++
        [.result id "ending" (some reason)] }
  | _ => s

/-- A handler from its result to its end. -/
def reported (s : State) (id : ℕ) : State :=
  match s.invocations[id]? with
  | some .reporting => { s with invocations := s.invocations.set id .finished }
  | _ => s

/-- A `CancelledError` at the wait of a handler; no handler catches it. -/
def cancel (s : State) (id : ℕ) : State :=
  match s.invocations[id]? with
  | some (.emitting _ _ _) => { s with invocations := s.invocations.set id .cancelled }
  | some .reporting => { s with invocations := s.invocations.set id .cancelled }
  | _ => s

/-- `_grace_then_end` after the grace period. -/
def wake (cb : Callbacks) (s : State) (k : ℕ) : State :=
  match s.graces[k]? with
  | some (.sleeping reason) =>
    if cb.writeOutcome then
      { s with graces := s.graces.set k (.writing reason), outputs := s.outputs ++ [.writeOutcome] }
    else
      { s with graces := s.graces.set k .finished, outputs := s.outputs ++ [.endTaskFrame reason] }
  | _ => s

/-- `_grace_then_end` after `write_outcome`, which returned or raised. -/
def written (s : State) (k : ℕ) (writeFails : Bool) : State :=
  match s.graces[k]? with
  | some (.writing reason) =>
    { s with
      graces := s.graces.set k .finished
      outputs := s.outputs ++ (if writeFails then [.failed] else []) ++ [.endTaskFrame reason] }
  | _ => s

/-- What happens on the event loop. -/
inductive Event where
  | invoke (tool : Tool) (arguments : PyVal) (markFails : Bool)
  | emitted (id : ℕ) (emitFails historyFails : Bool)
  | reported (id : ℕ)
  | cancel (id : ℕ)
  | wake (k : ℕ)
  | written (k : ℕ) (writeFails : Bool)
  deriving DecidableEq

def step (cb : Callbacks) (s : State) : Event → State
  | .invoke tool arguments markFails => begin cb s tool arguments markFails
  | .emitted id emitFails historyFails => emitted cb s id emitFails historyFails
  | .reported id => reported s id
  | .cancel id => cancel s id
  | .wake k => wake cb s k
  | .written k writeFails => written s k writeFails

/-- The state after the events. -/
def after (cb : Callbacks) (es : List Event) : State := exec (step cb) .initial es

/-! ### What is to hold -/

def Output.isFrame : Output → Bool
  | .endTaskFrame _ => true
  | _ => false

def Output.isResultOf (id : ℕ) : Output → Bool
  | .result id' _ _ => id' = id
  | _ => false

/-- The outcome is written before a frame. -/
def OutcomeFirst (outputs : List Output) : Prop :=
  ∀ front back reason, outputs = front ++ .endTaskFrame reason :: back → .writeOutcome ∈ front

/-- In every state: one frame at most, the outcome is written before, and a finished invocation has one
result. -/
structure Safe (cb : Callbacks) (s : State) : Prop where
  once : s.outputs.countP Output.isFrame ≤ 1
  outcomeFirst : cb.writeOutcome → OutcomeFirst s.outputs
  oneResult : ∀ id, s.invocations[id]? = some .finished → s.outputs.countP (Output.isResultOf id) = 1

/-- The handler is done. -/
def Phase.Over (p : Phase) : Prop := p = .finished ∨ p = .cancelled ∨ p = .raised

/-- All tasks are done. -/
def Settled (s : State) : Prop := (∀ p ∈ s.invocations, p.Over) ∧ ∀ g ∈ s.graces, g = .finished

/-- The call is ended exactly once. -/
structure EndsOnce (cb : Callbacks) (es : List Event) : Prop where
  safe : Always (step cb) (Safe cb) .initial es
  ends : Settled (after cb es) → (after cb es).ending → (after cb es).outputs.any Output.isFrame

def Phase.isEmitting : Phase → Bool
  | .emitting _ _ _ => true
  | _ => false

/-- The event cancels a handler that has marked the call and waits for `emit`. -/
def losesMarker (s : State) : Event → Bool
  | .cancel id => s.invocations[id]?.any Phase.isEmitting
  | _ => false

/-! ### What a step does -/

/-- The output is neither a frame, nor a result, nor the outcome. -/
def Output.Quiet (o : Output) : Prop :=
  o.isFrame = false ∧ (∀ id, o.isResultOf id = false) ∧ o ≠ .writeOutcome

/-- The ways in which a step changes the state; the marker is lost or not. -/
inductive Move (cb : Callbacks) (s : State) : Bool → State → Prop where
  | skip : Move cb s false s
  | refuse (h : s.ending = true) :
    Move cb s false { s with
      invocations := s.invocations ++ [.reporting]
      outputs := s.outputs ++ [.result s.invocations.length "already_ending" none] }
  | raise (h : s.ending = false) : Move cb s false { s with invocations := s.invocations ++ [.raised] }
  | mark (tool : Tool) (arg : PyVal) (reason : String) (outs : List Output) (h : s.ending = false)
    (hquiet : ∀ o ∈ outs, o.Quiet) :
    Move cb s false { s with
      ending := true
      invocations := s.invocations ++ [.emitting tool arg reason]
      outputs := s.outputs ++ outs }
  | proceed (id : ℕ) (tool : Tool) (arg : PyVal) (reason : String) (outs : List Output)
    (h : s.invocations[id]? = some (.emitting tool arg reason)) (hquiet : ∀ o ∈ outs, o.Quiet) :
    Move cb s false { s with
      invocations := s.invocations.set id .reporting
      graces := s.graces ++ [.sleeping reason]
      outputs := s.outputs ++ outs ++ [.result id "ending" (some reason)] }
  | finish (id : ℕ) (h : s.invocations[id]? = some .reporting) :
    Move cb s false { s with invocations := s.invocations.set id .finished }
  | cancelReporting (id : ℕ) (h : s.invocations[id]? = some .reporting) :
    Move cb s false { s with invocations := s.invocations.set id .cancelled }
  | cancelEmitting (id : ℕ) (tool : Tool) (arg : PyVal) (reason : String)
    (h : s.invocations[id]? = some (.emitting tool arg reason)) :
    Move cb s true { s with invocations := s.invocations.set id .cancelled }
  | attempt (k : ℕ) (reason : String) (h : s.graces[k]? = some (.sleeping reason)) :
    Move cb s false { s with
      graces := s.graces.set k (.writing reason), outputs := s.outputs ++ [.writeOutcome] }
  | finishEarly (k : ℕ) (reason : String) (h : s.graces[k]? = some (.sleeping reason))
    (hcb : cb.writeOutcome = false) :
    Move cb s false { s with
      graces := s.graces.set k .finished, outputs := s.outputs ++ [.endTaskFrame reason] }
  | finishGrace (k : ℕ) (reason : String) (outs : List Output)
    (h : s.graces[k]? = some (.writing reason)) (hquiet : ∀ o ∈ outs, o.Quiet) :
    Move cb s false { s with
      graces := s.graces.set k .finished, outputs := s.outputs ++ outs ++ [.endTaskFrame reason] }

theorem quiet_guarded {given fails : Bool} {output : Output} (h : output.Quiet) :
    ∀ o ∈ guarded given fails output, o.Quiet := by
  have hfailed : Output.failed.Quiet := ⟨rfl, fun _ => rfl, by simp⟩
  intro o ho
  cases given with
  | false => cases ho
  | true =>
    cases fails with
    | false =>
      obtain rfl := List.mem_singleton.mp ho
      exact h
    | true =>
      rcases List.mem_cons.mp ho with rfl | ho
      · exact h
      · obtain rfl := List.mem_singleton.mp ho
        exact hfailed

theorem quiet_failed {fails : Bool} : ∀ o ∈ if fails then [Output.failed] else [], o.Quiet := by
  intro o ho
  cases fails with
  | false => cases ho
  | true =>
    obtain rfl := List.mem_singleton.mp ho
    exact ⟨rfl, fun _ => rfl, by simp⟩

/-- Every step is a move. -/
theorem move_step (cb : Callbacks) (s : State) (e : Event) :
    Move cb s (losesMarker s e) (step cb s e) := by
  cases e with
  | invoke tool arguments markFails =>
    rw [step, begin.eq_def]
    -- The guard: a call that is ending refuses every further tool.
    by_cases hending : s.ending = true
    · rw [if_pos hending]
      exact .refuse hending
    · rw [if_neg hending]
      rw [Bool.not_eq_true] at hending
      cases tool with
      | endCall =>
        cases endReason arguments with
        | none => exact .raise hending
        | some reason =>
          refine .mark _ _ _ _ hending fun o ho => ?_
          obtain rfl := List.mem_singleton.mp ho
          exact ⟨rfl, fun _ => rfl, by simp⟩
      | transferToHuman =>
        cases (argument arguments "topic").map (·.orElse (.str "")) with
        | none => exact .raise hending
        | some topic =>
          -- The transfer marks its topic before it speaks, and the mark may fail.
          simp only [List.append_assoc]
          refine .mark _ _ _ _ hending fun o ho => ?_
          rcases List.mem_append.mp ho with ho | ho
          · exact quiet_guarded ⟨rfl, fun _ => rfl, by simp⟩ o ho
          · obtain rfl := List.mem_singleton.mp ho
            exact ⟨rfl, fun _ => rfl, by simp⟩
  | emitted id emitFails historyFails =>
    rw [step, emitted]
    split
    · rename_i tool arg reason h
      rw [List.append_assoc s.outputs]
      refine .proceed id tool arg reason _ h fun o ho => ?_
      rcases List.mem_append.mp ho with ho | ho
      · exact quiet_failed o ho
      · exact quiet_guarded ⟨rfl, fun _ => rfl, by simp⟩ o ho
    · exact .skip
  | reported id =>
    rw [step, reported]
    split
    · exact .finish id ‹_›
    · exact .skip
  | cancel id =>
    rw [step, cancel, losesMarker]
    cases h : s.invocations[id]? with
    | none => exact .skip
    | some p =>
      cases p with
      | emitting tool arg reason => exact .cancelEmitting id tool arg reason h
      | reporting => exact .cancelReporting id h
      | finished => exact .skip
      | cancelled => exact .skip
      | raised => exact .skip
  | wake k =>
    rw [step, wake]
    split
    -- Without a callback for the outcome the grace period is over at once.
    · by_cases hcb : cb.writeOutcome = true
      · rw [if_pos hcb]
        exact .attempt k _ ‹_›
      · rw [if_neg hcb]
        exact .finishEarly k _ ‹_› (Bool.eq_false_iff.mpr hcb)
    · exact .skip
  | written k writeFails =>
    rw [step, written]
    split
    · exact .finishGrace k _ _ ‹_› quiet_failed
    · exact .skip

/-! ### Invariants -/

theorem countP_set_of_getElem? {β : Type} {p : β → Bool} {xs : List β} {i : ℕ} {a b : β}
    (h : xs[i]? = some a) : (xs.set i b).countP p + (p a).toNat = xs.countP p + (p b).toNat := by
  induction xs generalizing i with
  | nil => cases h
  | cons x xs ih =>
    cases i with
    | zero =>
      obtain rfl : x = a := Option.some.inj h
      rw [List.set_cons_zero, List.countP_cons, List.countP_cons]
      cases p x <;> cases p b <;> rfl
    | succ i =>
      have hrest := ih (i := i) h
      rw [List.set_cons_succ, List.countP_cons, List.countP_cons]
      omega

/-- The handlers and tasks that are going to end the call, or have. -/
def marks (s : State) : ℕ := s.invocations.countP Phase.isEmitting + s.graces.length

/-- A move keeps the marker, loses it, or is the first to mark the call. -/
theorem Move.marks_eq {cb : Callbacks} {s s' : State} {lost : Bool} (h : Move cb s lost s') :
    (s'.ending = s.ending ∧ marks s = marks s' + lost.toNat) ∨
      (s.ending = false ∧ s'.ending = true ∧ marks s' = marks s + 1 ∧ lost = false) := by
  unfold marks
  cases h with
  | skip => exact Or.inl ⟨rfl, rfl⟩
  | refuse hending =>
    refine Or.inl ⟨rfl, ?_⟩
    simp [Phase.isEmitting]
  | raise hending =>
    refine Or.inl ⟨rfl, ?_⟩
    simp [Phase.isEmitting]
  -- The one move that sets the marker; all others keep it or lose the invocation.
  | mark tool arg reason outs hending hquiet =>
    refine Or.inr ⟨hending, rfl, ?_, rfl⟩
    simp [Phase.isEmitting]
    omega
  | proceed id tool arg reason outs hget hquiet =>
    have hset := countP_set_of_getElem? (p := Phase.isEmitting) (b := .reporting) hget
    refine Or.inl ⟨rfl, ?_⟩
    simp [Phase.isEmitting] at hset ⊢
    omega
  | finish id hget =>
    have hset := countP_set_of_getElem? (p := Phase.isEmitting) (b := .finished) hget
    refine Or.inl ⟨rfl, ?_⟩
    simp [Phase.isEmitting] at hset ⊢
    omega
  | cancelReporting id hget =>
    have hset := countP_set_of_getElem? (p := Phase.isEmitting) (b := .cancelled) hget
    refine Or.inl ⟨rfl, ?_⟩
    simp [Phase.isEmitting] at hset ⊢
    omega
  | cancelEmitting id tool arg reason hget =>
    have hset := countP_set_of_getElem? (p := Phase.isEmitting) (b := .cancelled) hget
    refine Or.inl ⟨rfl, ?_⟩
    simp [Phase.isEmitting] at hset ⊢
    omega
  | attempt k reason hget => exact Or.inl ⟨rfl, by simp⟩
  | finishEarly k reason hget hcb => exact Or.inl ⟨rfl, by simp⟩
  | finishGrace k reason outs hget hquiet => exact Or.inl ⟨rfl, by simp⟩

theorem countP_isFrame_of_quiet {outs : List Output} (h : ∀ o ∈ outs, o.Quiet) :
    outs.countP Output.isFrame = 0 :=
  List.countP_eq_zero.mpr fun o ho => by simp [(h o ho).1]

theorem countP_isResultOf_of_quiet {outs : List Output} (h : ∀ o ∈ outs, o.Quiet) (id : ℕ) :
    outs.countP (Output.isResultOf id) = 0 :=
  List.countP_eq_zero.mpr fun o ho => by simp [(h o ho).2.1 id]

/-- What follows has no frame, or the outcome was written already. -/
theorem OutcomeFirst.append {outputs more : List Output} (h : OutcomeFirst outputs)
    (hmore : (∀ o ∈ more, o.isFrame = false) ∨ .writeOutcome ∈ outputs) :
    OutcomeFirst (outputs ++ more) := by
  intro front back reason heq
  -- The frame is among the new outputs, or it was there.
  rcases List.append_eq_append_iff.mp heq with ⟨gap, hfront, htail⟩ | ⟨gap, houtputs, htail⟩
  · rcases hmore with hmore | hmem
    · have := hmore (.endTaskFrame reason) (by rw [htail]; simp)
      cases this
    · rw [hfront]
      exact List.mem_append_left _ hmem
  · cases gap with
    | nil =>
      rw [List.append_nil] at houtputs
      rcases hmore with hmore | hmem
      · have := hmore (.endTaskFrame reason) (by rw [List.nil_append] at htail; rw [← htail]; simp)
        cases this
      · exact houtputs ▸ hmem
    | cons o gap =>
      rw [List.cons_append, List.cons.injEq] at htail
      exact h front gap reason (by rw [houtputs, ← htail.1])

/-- How many results an invocation has. -/
def Reports (n : ℕ) : Option Phase → Prop
  | none => n = 0
  | some (.emitting _ _ _) => n = 0
  | some .raised => n = 0
  | some .reporting => n = 1
  | some .finished => n = 1
  | some .cancelled => True

/-- What holds in every state. -/
structure Invariant (cb : Callbacks) (s : State) : Prop where
  marked : marks s ≤ s.ending.toNat
  frames : s.outputs.countP Output.isFrame = s.graces.countP (· = .finished)
  attempted : cb.writeOutcome → ∀ g ∈ s.graces, (∀ reason, g ≠ .sleeping reason) → .writeOutcome ∈ s.outputs
  outcomeFirst : cb.writeOutcome → OutcomeFirst s.outputs
  results : ∀ id, Reports (s.outputs.countP (Output.isResultOf id)) s.invocations[id]?

section Move

variable {cb : Callbacks} {s s' : State} {lost : Bool}

theorem Move.marked (h : Move cb s lost s') (hs : marks s ≤ s.ending.toNat) :
    marks s' ≤ s'.ending.toNat := by
  rcases h.marks_eq with ⟨hending, hmarks⟩ | ⟨hbefore, hafter, hmarks, -⟩
  · rw [hending]
    omega
  · rw [hbefore] at hs
    rw [hafter, hmarks]
    exact Nat.succ_le_succ hs

theorem Move.frames (h : Move cb s lost s')
    (hs : s.outputs.countP Output.isFrame = s.graces.countP (· = .finished)) :
    s'.outputs.countP Output.isFrame = s'.graces.countP (· = .finished) := by
  cases h with
  | skip => exact hs
  | refuse hending => simpa [Output.isFrame] using hs
  | raise hending => exact hs
  | mark tool arg reason outs hending hquiet =>
    simpa [countP_isFrame_of_quiet hquiet] using hs
  | proceed id tool arg reason outs hget hquiet =>
    simpa [countP_isFrame_of_quiet hquiet, Output.isFrame] using hs
  | finish id hget => exact hs
  | cancelReporting id hget => exact hs
  | cancelEmitting id tool arg reason hget => exact hs
  | attempt k reason hget =>
    -- A frame is sent exactly when a grace period finishes.
    have hset := countP_set_of_getElem? (p := (· = Grace.finished)) (b := .writing reason) hget
    simp [Output.isFrame] at hset hs ⊢
    omega
  | finishEarly k reason hget hcb =>
    have hset := countP_set_of_getElem? (p := (· = Grace.finished)) (b := .finished) hget
    simp [Output.isFrame] at hset hs ⊢
    omega
  | finishGrace k reason outs hget hquiet =>
    have hset := countP_set_of_getElem? (p := (· = Grace.finished)) (b := .finished) hget
    simp [Output.isFrame, countP_isFrame_of_quiet hquiet] at hset hs ⊢
    omega

/-- The outputs only grow. -/
theorem Move.outputs (h : Move cb s lost s') : ∃ outs, s'.outputs = s.outputs ++ outs ∧
    ((∀ o ∈ outs, o.isFrame = false) ∨ cb.writeOutcome = false ∨
      ∃ g ∈ s.graces, ∀ reason, g ≠ .sleeping reason) := by
  -- Only a grace period that finishes sends a frame.
  cases h with
  | skip => exact ⟨[], (List.append_nil _).symm, Or.inl fun _ ho => absurd ho List.not_mem_nil⟩
  | refuse hending => exact ⟨_, rfl, Or.inl (by simp [Output.isFrame])⟩
  | raise hending => exact ⟨[], (List.append_nil _).symm, Or.inl fun _ ho => absurd ho List.not_mem_nil⟩
  | mark tool arg reason outs hending hquiet => exact ⟨outs, rfl, Or.inl fun o ho => (hquiet o ho).1⟩
  | proceed id tool arg reason outs hget hquiet =>
    refine ⟨_, List.append_assoc _ _ _, Or.inl fun o ho => ?_⟩
    rcases List.mem_append.mp ho with ho | ho
    · exact (hquiet o ho).1
    · obtain rfl := List.mem_singleton.mp ho
      rfl
  | finish id hget => exact ⟨[], (List.append_nil _).symm, Or.inl fun _ ho => absurd ho List.not_mem_nil⟩
  | cancelReporting id hget =>
    exact ⟨[], (List.append_nil _).symm, Or.inl fun _ ho => absurd ho List.not_mem_nil⟩
  | cancelEmitting id tool arg reason hget =>
    exact ⟨[], (List.append_nil _).symm, Or.inl fun _ ho => absurd ho List.not_mem_nil⟩
  | attempt k reason hget => exact ⟨_, rfl, Or.inl (by simp [Output.isFrame])⟩
  | finishEarly k reason hget hcb => exact ⟨_, rfl, Or.inr (Or.inl hcb)⟩
  | finishGrace k reason outs hget hquiet =>
    exact ⟨_, List.append_assoc _ _ _, Or.inr (Or.inr ⟨_, List.mem_of_getElem? hget, by simp⟩)⟩

theorem Move.attempted (h : Move cb s lost s') (hcb : cb.writeOutcome = true)
    (hs : ∀ g ∈ s.graces, (∀ reason, g ≠ .sleeping reason) → .writeOutcome ∈ s.outputs) :
    ∀ g ∈ s'.graces, (∀ reason, g ≠ .sleeping reason) → .writeOutcome ∈ s'.outputs := by
  -- A task that does not sleep was there, and the outcome with it, or is the one that writes it.
  have hkeep : (∀ g ∈ s'.graces,
        g ∈ s.graces ∨ (∃ reason, g = .sleeping reason) ∨ .writeOutcome ∈ s'.outputs) →
      ∀ g ∈ s'.graces, (∀ reason, g ≠ .sleeping reason) → .writeOutcome ∈ s'.outputs := by
    intro hgraces g hg hawake
    rcases hgraces g hg with hmem | ⟨reason, rfl⟩ | hmem
    · obtain ⟨outs, houts, -⟩ := h.outputs
      rw [houts]
      exact List.mem_append_left _ (hs g hmem hawake)
    · exact absurd rfl (hawake reason)
    · exact hmem
  refine hkeep ?_
  cases h with
  | proceed id tool arg reason outs hget hquiet =>
    intro g hg
    rcases List.mem_append.mp hg with hg | hg
    · exact Or.inl hg
    · exact Or.inr (Or.inl ⟨reason, List.mem_singleton.mp hg⟩)
  | attempt k reason hget => exact fun g hg => Or.inr (Or.inr (by simp))
  | finishEarly k reason hget hfalse =>
    rw [hcb] at hfalse
    cases hfalse
  | finishGrace k reason outs hget hquiet =>
    intro g hg
    refine Or.inr (Or.inr ?_)
    have := hs _ (List.mem_of_getElem? hget) (by simp)
    simp [this]
  | _ => exact fun g hg => Or.inl hg

/-- A new invocation, with its first outputs. -/
theorem reports_append {invocations : List Phase} {outputs : List Output} (more : List Output)
    (hs : ∀ id, Reports (outputs.countP (Output.isResultOf id)) invocations[id]?) {p : Phase}
    (hp : Reports (more.countP (Output.isResultOf invocations.length)) (some p))
    (hmore : ∀ id ≠ invocations.length, more.countP (Output.isResultOf id) = 0) (id : ℕ) :
    Reports ((outputs ++ more).countP (Output.isResultOf id)) (invocations ++ [p])[id]? := by
  rw [List.countP_append]
  -- The new invocation has only the new outputs.
  by_cases hid : id = invocations.length
  · have hnone : outputs.countP (Output.isResultOf id) = 0 := by
      have := hs id
      rwa [List.getElem?_eq_none hid.ge] at this
    rw [hnone, hid, List.getElem?_concat_length, Nat.zero_add]
    exact hp
  · rw [hmore id hid, Nat.add_zero]
    by_cases hlt : id < invocations.length
    · rw [List.getElem?_append_left hlt]
      exact hs id
    · have hbeyond : (invocations ++ [p])[id]? = none :=
        List.getElem?_eq_none (by rw [List.length_append, List.length_singleton]; omega)
      have := hs id
      rwa [List.getElem?_eq_none (Nat.le_of_not_lt hlt), ← hbeyond] at this

/-- An invocation goes on, with further outputs. -/
theorem reports_set {invocations : List Phase} {outputs : List Output} (more : List Output)
    (hs : ∀ id, Reports (outputs.countP (Output.isResultOf id)) invocations[id]?) {i : ℕ} {p q : Phase}
    (hget : invocations[i]? = some p)
    (hq : ∀ n, Reports n (some p) → Reports (n + more.countP (Output.isResultOf i)) (some q))
    (hmore : ∀ id ≠ i, more.countP (Output.isResultOf id) = 0) (id : ℕ) :
    Reports ((outputs ++ more).countP (Output.isResultOf id)) (invocations.set i q)[id]? := by
  rw [List.countP_append]
  by_cases hid : id = i
  · subst hid
    have hlt : id < invocations.length := (List.getElem?_eq_some_iff.mp hget).1
    rw [List.getElem?_set_self hlt]
    exact hq _ (hget ▸ hs id)
  · rw [hmore id hid, Nat.add_zero, List.getElem?_set_ne (Ne.symm hid)]
    exact hs id

theorem Move.results (h : Move cb s lost s')
    (hs : ∀ id, Reports (s.outputs.countP (Output.isResultOf id)) s.invocations[id]?) :
    ∀ id, Reports (s'.outputs.countP (Output.isResultOf id)) s'.invocations[id]? := by
  have hresult : ∀ {id id' : ℕ} (status : String) (reason : Option String), id' ≠ id →
      [Output.result id status reason].countP (Output.isResultOf id') = 0 := by
    intro id id' status reason hne
    simp [Output.isResultOf, hne.symm]
  cases h with
  | skip => exact hs
  | refuse hending =>
    exact reports_append _ hs (by simp [Output.isResultOf, Reports]) fun id hid => hresult _ _ hid
  | raise hending =>
    intro id
    have := reports_append [] hs (p := .raised) rfl (fun _ _ => rfl) id
    rwa [List.append_nil] at this
  | mark tool arg reason outs hending hquiet =>
    exact reports_append _ hs (countP_isResultOf_of_quiet hquiet _)
      fun id _ => countP_isResultOf_of_quiet hquiet id
  -- The only move that reports a result is made once for each invocation.
  | proceed id tool arg reason outs hget hquiet =>
    simp only [List.append_assoc]
    refine reports_set _ hs hget (fun n hn => ?_) fun id' hid => ?_
    · obtain rfl : n = 0 := hn
      rw [List.countP_append, countP_isResultOf_of_quiet hquiet]
      simp [Output.isResultOf, Reports]
    · rw [List.countP_append, countP_isResultOf_of_quiet hquiet, hresult _ _ hid]
  | finish id hget =>
    intro id'
    have := reports_set [] (q := .finished) hs hget (fun n hn => hn) (fun _ _ => rfl) id'
    rwa [List.append_nil] at this
  | cancelReporting id hget =>
    intro id'
    have := reports_set [] (q := .cancelled) hs hget (fun n hn => trivial) (fun _ _ => rfl) id'
    rwa [List.append_nil] at this
  | cancelEmitting id tool arg reason hget =>
    intro id'
    have := reports_set [] (q := .cancelled) hs hget (fun n hn => trivial) (fun _ _ => rfl) id'
    rwa [List.append_nil] at this
  | attempt k reason hget => simpa [Output.isResultOf] using hs
  | finishEarly k reason hget hcb => simpa [Output.isResultOf] using hs
  | finishGrace k reason outs hget hquiet =>
    simpa [Output.isResultOf, countP_isResultOf_of_quiet hquiet] using hs

/-- A move keeps the invariant. -/
theorem Invariant.move (hs : Invariant cb s) (h : Move cb s lost s') : Invariant cb s' where
  marked := h.marked hs.marked
  frames := h.frames hs.frames
  attempted hcb := h.attempted hcb (hs.attempted hcb)
  outcomeFirst hcb := by
    obtain ⟨outs, houts, hframe⟩ := h.outputs
    rw [houts]
    refine (hs.outcomeFirst hcb).append ?_
    rcases hframe with hframe | hfalse | ⟨g, hg, hawake⟩
    · exact Or.inl hframe
    · rw [hcb] at hfalse
      cases hfalse
    · exact Or.inr (hs.attempted hcb g hg hawake)
  results := h.results hs.results

end Move

theorem invariant_initial (cb : Callbacks) : Invariant cb .initial where
  marked := Nat.le_refl _
  frames := rfl
  attempted _ _ h := absurd h List.not_mem_nil
  outcomeFirst _ front back reason h := absurd h (by simp [State.initial])
  results _ := rfl

/-- The invariant keeps the call from being ended twice. -/
theorem Invariant.safe {cb : Callbacks} {s : State} (hs : Invariant cb s) : Safe cb s where
  once := by
    have hle := hs.marked
    have hgraces := List.countP_le_length (p := fun g => decide (g = Grace.finished)) (l := s.graces)
    have hone := Bool.toNat_le s.ending
    rw [hs.frames]
    unfold marks at hle
    omega
  outcomeFirst := hs.outcomeFirst
  oneResult id hfinished := by
    have := hs.results id
    rwa [hfinished] at this

/-- While the marker is not lost, the call is marked as long as it is ending. -/
theorem marks_step_of_spares {cb : Callbacks} {s : State} (hs : marks s = s.ending.toNat) {e : Event}
    (h : losesMarker s e = false) : marks (step cb s e) = (step cb s e).ending.toNat := by
  have hmove := (move_step cb s e).marks_eq
  rw [h] at hmove
  rcases hmove with ⟨hending, hmarks⟩ | ⟨hbefore, hafter, hmarks, -⟩
  · rw [hending, ← hs, hmarks]
    rfl
  · rw [hafter, hmarks, hs, hbefore]
    rfl

/-- A lost marker does not come back. -/
theorem lost_step {cb : Callbacks} {s : State} (hs : s.ending = true ∧ marks s = 0) (e : Event) :
    (step cb s e).ending = true ∧ marks (step cb s e) = 0 := by
  rcases (move_step cb s e).marks_eq with ⟨hending, hmarks⟩ | ⟨hbefore, -⟩
  · exact ⟨hending.trans hs.1, by omega⟩
  · rw [hs.1] at hbefore
    cases hbefore

/-- A run that loses the marker ends without one. -/
theorem lost_of_not_guarded {cb : Callbacks} {s : State} (hs : Invariant cb s) {es : List Event}
    (h : ¬ Guarded (step cb) (fun s e => losesMarker s e = false) s es) :
    (exec (step cb) s es).ending = true ∧ marks (exec (step cb) s es) = 0 := by
  induction es generalizing s with
  | nil => exact absurd trivial h
  | cons e es ih =>
    rw [exec_cons]
    by_cases hlost : losesMarker s e = false
    · exact ih (hs.move (move_step cb s e)) fun hrest => h ⟨hlost, hrest⟩
    · rw [Bool.not_eq_false] at hlost
      have hmarked := hs.marked
      have hmove := (move_step cb s e).marks_eq
      rw [hlost] at hmove
      rcases hmove with ⟨hending, hmarks⟩ | ⟨-, -, -, hfalse⟩
      · -- The call was marked once.
        have hone := Bool.toNat_le s.ending
        rw [Bool.toNat_true] at hmarks
        have hend : s.ending = true := Bool.toNat_eq_one.mp (by omega)
        exact exec_invariant (I := fun s => s.ending = true ∧ marks s = 0) (fun s e hs => lost_step hs e)
          ⟨hending.trans hend, by omega⟩ es
      · cases hfalse

/-- When all is done, the frames are the marks. -/
theorem Invariant.frames_of_settled {cb : Callbacks} {s : State} (hs : Invariant cb s) (h : Settled s) :
    s.outputs.countP Output.isFrame = marks s := by
  have hemitting : s.invocations.countP Phase.isEmitting = 0 := by
    refine List.countP_eq_zero.mpr fun p hp => ?_
    rcases h.1 p hp with rfl | rfl | rfl <;> simp [Phase.isEmitting]
  have hgraces : s.graces.countP (· = .finished) = s.graces.length :=
    List.countP_eq_length.mpr fun g hg => by simpa using h.2 g hg
  rw [hs.frames, hgraces, marks, hemitting, Nat.zero_add]

theorem any_isFrame_iff {outputs : List Output} :
    outputs.any Output.isFrame ↔ outputs.countP Output.isFrame ≠ 0 := by
  rw [List.any_eq_true, ← Nat.pos_iff_ne_zero, List.countP_pos_iff]

/-- A run ends the call exactly once if and only if, once all its tasks are done, no handler that had
marked the call was cancelled before it created the task. -/
theorem endsOnce_iff (cb : Callbacks) (es : List Event) :
    EndsOnce cb es ↔ (Settled (after cb es) →
      Guarded (step cb) (fun s e => losesMarker s e = false) .initial es) := by
  have hinvariant : Always (step cb) (Invariant cb) .initial es :=
    always_of_invariant (fun s e hs => hs.move (move_step cb s e)) (invariant_initial cb) es
  have hframes := hinvariant.last.frames_of_settled
  constructor
  · rintro ⟨-, hends⟩ hsettled
    by_contra hlost
    obtain ⟨hending, hmarks⟩ := lost_of_not_guarded (invariant_initial cb) hlost
    exact any_isFrame_iff.mp (hends hsettled hending) ((hframes hsettled).trans hmarks)
  · intro h
    refine ⟨hinvariant.mono fun s hs => hs.safe, fun hsettled hending => any_isFrame_iff.mpr ?_⟩
    -- A run that loses no marker sends one frame for it.
    have hmarks : marks (after cb es) = (after cb es).ending.toNat :=
      exec_of_guarded (P := fun s => marks s = s.ending.toNat) (G := fun s e => losesMarker s e = false)
        (fun s e hs he => marks_step_of_spares hs he) rfl (h hsettled)
    rw [after, hframes hsettled, ← after, hmarks, hending]
    exact Nat.one_ne_zero

/-- The user interrupts while the event of the tool is sent. -/
theorem cancelledMarker_neverEnds :
    ¬ EndsOnce ⟨true, true, true⟩ [.invoke .endCall .none false, .cancel 0] := by
  intro h
  refine absurd (h.ends ⟨?_, ?_⟩ ?_) ?_
  · unfold Phase.Over; decide
  · decide
  · decide
  · decide

end CallControl
