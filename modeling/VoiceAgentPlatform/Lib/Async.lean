import VoiceAgentPlatform.Lib.Run

/-!
# Asynchronous tasks over a shared store

Tasks run on one event loop: between two awaited operations a task runs alone, and an awaited
operation takes effect on the store at some moment between its issue and its completion. An
operation may take several steps in the store before it completes, as a paged scan does.

* `Service`: the operations of a store, what they reply and how they take effect.
* `Service.withAwait`: a service whose programs also await other things than the store.
* `Prog`: programs over a service, with exceptions and the memory of the process; `bind`, `tryCatch`
  and `mapError` are sequencing and exception handling.
* `Pool`: the store, the memory, the tasks and the history of their operations.
* `Pool.step`: a task is spawned, an operation makes progress in the store, or a task whose operation
  has taken effect is resumed.
* `Pool.TaskStep`: what a step can make of one task.
* `Pool.always_store_iff`: the run rule for properties of the store alone.
-/

namespace Async

/-- The operations on a store of type `δ`. -/
structure Service (δ : Type) where
  Op : Type
  Reply : Op → Type
  Fault : Type
  /-- What an operation in flight has gathered so far. -/
  Flight : Type
  /-- What the store decides when it works on an operation. -/
  Choice : Type
  launch : Flight
  /-- One step of an operation in the store: it stays in flight or it replies. -/
  perform : (op : Op) → Flight → Choice → δ → δ × (Flight ⊕ Except Fault (Reply op))

/-- `S` with one more operation, which is not about the store: it ends at some time with an answer of
type `A`. -/
@[reducible] def Service.withAwait {δ : Type} (S : Service δ) (A : Type) : Service δ where
  Op := S.Op ⊕ Unit
  Reply
    | .inl op => S.Reply op
    | .inr _ => A
  Fault := S.Fault
  Flight := S.Flight
  Choice := S.Choice ⊕ A
  launch := S.launch
  perform
    | .inl op, flight, .inl choice, d => S.perform op flight choice d
    | .inr _, _, .inr a, d => (d, .inr (.ok a))
    -- A choice for the other side has no effect.
    | .inl _, flight, .inr _, d => (d, .inl flight)
    | .inr _, flight, .inl _, d => (d, .inl flight)

/-- Programs that await operations of `S`, use a process memory `μ` and raise exceptions `ε`. -/
inductive Prog {δ : Type} (S : Service δ) (μ ε α : Type) : Type where
  | done (a : α)
  | raise (e : ε)
  | read (k : μ → Prog S μ ε α)
  | write (m : μ) (k : Prog S μ ε α)
  | await (op : S.Op) (k : Except S.Fault (S.Reply op) → Prog S μ ε α)

variable {δ μ ε ρ α β : Type} {S : Service δ}

namespace Prog

/-- Sequencing. -/
def bind : Prog S μ ε α → (α → Prog S μ ε β) → Prog S μ ε β
  | done a, f => f a
  | raise e, _ => raise e
  | read k, f => read fun m => (k m).bind f
  | write m k, f => write m (k.bind f)
  | await op k, f => await op fun r => (k r).bind f

/-- Run `h` on the exception that the program raises, if it raises one. -/
def tryCatch : Prog S μ ε α → (ε → Prog S μ ε α) → Prog S μ ε α
  | done a, _ => done a
  | raise e, h => h e
  | read k, h => read fun m => (k m).tryCatch h
  | write m k, h => write m (k.tryCatch h)
  | await op k, h => await op fun r => (k r).tryCatch h

/-- The program that raises other exceptions. -/
def mapError {ε' : Type} (f : ε → ε') : Prog S μ ε α → Prog S μ ε' α
  | done a => done a
  | raise e => raise (f e)
  | read k => read fun m => (k m).mapError f
  | write m k => write m (k.mapError f)
  | await op k => await op fun r => (k r).mapError f

instance : Monad (Prog S μ ε) where
  pure := done
  bind := bind

instance : MonadExceptOf ε (Prog S μ ε) where
  throw := raise
  tryCatch := tryCatch

instance : MonadStateOf μ (Prog S μ ε) where
  get := read done
  set m := write m (done ⟨⟩)
  modifyGet f := read fun m => write (f m).2 (done (f m).1)

/-- A result of code that awaits nothing. -/
def ofExcept : Except ε α → Prog S μ ε α
  | .ok a => done a
  | .error e => raise e

@[simp] theorem pure_eq (a : α) : (pure a : Prog S μ ε α) = done a := rfl
@[simp] theorem throw_eq (e : ε) : (throw e : Prog S μ ε α) = raise e := rfl
@[simp] theorem bind_eq (p : Prog S μ ε α) (f : α → Prog S μ ε β) : p >>= f = p.bind f := rfl
@[simp] theorem tryCatch_eq (p : Prog S μ ε α) (h : ε → Prog S μ ε α) :
    MonadExcept.tryCatch p h = p.tryCatch h := rfl
@[simp] theorem get_eq : (get : Prog S μ ε μ) = read done := rfl
@[simp] theorem set_eq (m : μ) : (set m : Prog S μ ε PUnit) = write m (done ⟨⟩) := rfl
@[simp] theorem modify_eq (f : μ → μ) :
    (modify f : Prog S μ ε PUnit) = read fun m => write (f m) (done ⟨⟩) := rfl

@[simp] theorem ofExcept_ok (a : α) : (ofExcept (.ok a) : Prog S μ ε α) = done a := rfl
@[simp] theorem ofExcept_error (e : ε) : (ofExcept (.error e) : Prog S μ ε α) = raise e := rfl

@[simp] theorem bind_done (a : α) (f : α → Prog S μ ε β) : (done a).bind f = f a := rfl
@[simp] theorem bind_raise (e : ε) (f : α → Prog S μ ε β) : (raise e).bind f = raise e := rfl
@[simp] theorem bind_read (k : μ → Prog S μ ε α) (f : α → Prog S μ ε β) :
    (read k).bind f = read fun m => (k m).bind f := rfl
@[simp] theorem bind_write (m : μ) (k : Prog S μ ε α) (f : α → Prog S μ ε β) :
    (write m k).bind f = write m (k.bind f) := rfl
@[simp] theorem bind_await (op : S.Op) (k : Except S.Fault (S.Reply op) → Prog S μ ε α)
    (f : α → Prog S μ ε β) : (await op k).bind f = await op fun r => (k r).bind f := rfl

@[simp] theorem tryCatch_done (a : α) (h : ε → Prog S μ ε α) : (done a).tryCatch h = done a := rfl
@[simp] theorem tryCatch_raise (e : ε) (h : ε → Prog S μ ε α) : (raise e).tryCatch h = h e := rfl
@[simp] theorem tryCatch_await (op : S.Op) (k : Except S.Fault (S.Reply op) → Prog S μ ε α)
    (h : ε → Prog S μ ε α) : (await op k).tryCatch h = await op fun r => (k r).tryCatch h := rfl

/-- As long as the replies are `honest`, every operation that the program awaits meets `Q` and its
result meets `R`, whatever memory it reads. -/
def Meets (honest : (op : S.Op) → Except S.Fault (S.Reply op) → Prop) (Q : S.Op → Prop)
    (R : Except ε α → Prop) : Prog S μ ε α → Prop
  | done a => R (.ok a)
  | raise e => R (.error e)
  | read k => ∀ m, (k m).Meets honest Q R
  | write _ k => k.Meets honest Q R
  | await op k => Q op ∧ ∀ r, honest op r → (k r).Meets honest Q R

section Meets

variable {honest : (op : S.Op) → Except S.Fault (S.Reply op) → Prop} {Q : S.Op → Prop}
  {R : Except ε α → Prop} {R' : Except ε β → Prop}

/-- A weaker condition on the result is met as well. -/
theorem Meets.mono {R₂ : Except ε α → Prop} {p : Prog S μ ε α} (hp : p.Meets honest Q R)
    (h : ∀ r, R r → R₂ r) : p.Meets honest Q R₂ := by
  induction p with
  | done a => exact h _ hp
  | raise e => exact h _ hp
  | read k ih => exact fun m => ih m (hp m)
  | write m k ih => exact ih hp
  | await op k ih => exact ⟨hp.1, fun r hr => ih r (hp.2 r hr)⟩

/-- Sequencing: what follows may use what is known of the first result. -/
theorem Meets.bind {p : Prog S μ ε α} {f : α → Prog S μ ε β} (hp : p.Meets honest Q R)
    (hok : ∀ a, R (.ok a) → (f a).Meets honest Q R') (herror : ∀ e, R (.error e) → R' (.error e)) :
    (p.bind f).Meets honest Q R' := by
  induction p with
  | done a => exact hok a hp
  | raise e => exact herror e hp
  | read k ih => exact fun m => ih m (hp m)
  | write m k ih => exact ih hp
  | await op k ih => exact ⟨hp.1, fun r hr => ih r (hp.2 r hr)⟩

/-- Exception handling: the handler may use what is known of the exception. -/
theorem Meets.tryCatch {R₂ : Except ε α → Prop} {p : Prog S μ ε α} {h : ε → Prog S μ ε α}
    (hp : p.Meets honest Q R) (hok : ∀ a, R (.ok a) → R₂ (.ok a))
    (herror : ∀ e, R (.error e) → (h e).Meets honest Q R₂) :
    (p.tryCatch h).Meets honest Q R₂ := by
  induction p with
  | done a => exact hok a hp
  | raise e => exact herror e hp
  | read k ih => exact fun m => ih m (hp m)
  | write m k ih => exact ih hp
  | await op k ih => exact ⟨hp.1, fun r hr => ih r (hp.2 r hr)⟩

/-- `Meets` with a condition on results that are not exceptions. -/
def Yields (honest : (op : S.Op) → Except S.Fault (S.Reply op) → Prop) (Q : S.Op → Prop)
    (R : α → Prop) : Prog S μ ε α → Prop :=
  Meets honest Q fun r => ∀ a, r = .ok a → R a

variable {T : α → Prop} {T' : β → Prop}

theorem yields_done {a : α} (h : T a) : (done a : Prog S μ ε α).Yields honest Q T := by
  rintro _ ⟨⟩
  exact h

@[simp] theorem yields_raise (e : ε) : (raise e : Prog S μ ε α).Yields honest Q T := by
  rintro _ ⟨⟩

theorem yields_await {op : S.Op} {k : Except S.Fault (S.Reply op) → Prog S μ ε α} (hop : Q op)
    (hk : ∀ r, honest op r → (k r).Yields honest Q T) : (await op k).Yields honest Q T :=
  ⟨hop, hk⟩

theorem yields_ofExcept {x : Except ε α} (h : ∀ a, x = .ok a → T a) :
    (ofExcept x : Prog S μ ε α).Yields honest Q T := by
  cases x with
  | ok a => exact yields_done (h a rfl)
  | error e => exact yields_raise e

theorem Yields.bind {p : Prog S μ ε α} {f : α → Prog S μ ε β} (hp : p.Yields honest Q T)
    (hf : ∀ a, T a → (f a).Yields honest Q T') : (p.bind f).Yields honest Q T' :=
  Meets.bind hp (fun a ha => hf a (ha a rfl)) (fun _ _ => nofun)

theorem Yields.tryCatch {p : Prog S μ ε α} {h : ε → Prog S μ ε α} (hp : p.Yields honest Q T)
    (hh : ∀ e, (h e).Yields honest Q T) : (p.tryCatch h).Yields honest Q T :=
  Meets.tryCatch hp (fun _ ha => ha) (fun e _ => hh e)

theorem Yields.meets {p : Prog S μ ε α} (hp : p.Yields honest Q T) :
    p.Meets honest Q fun r => ∀ a, r = .ok a → T a := hp

end Meets

-- Programs are analysed by the rules above; unfolding would run them instead.
attribute [irreducible] Yields

end Prog

/-- Where a task stands: its operation is in flight, its operation has taken effect and the task has
not been resumed yet, or it has ended. -/
inductive Stage {δ : Type} (S : Service δ) (μ ε α : Type) : Type where
  | waiting (op : S.Op) (flight : S.Flight) (k : Except S.Fault (S.Reply op) → Prog S μ ε α)
  | applied (op : S.Op) (reply : Except S.Fault (S.Reply op))
    (k : Except S.Fault (S.Reply op) → Prog S μ ε α)
  | finished (result : Except ε α)

/-- Run a program up to its next awaited operation. -/
def Prog.settle : Prog S μ ε α → μ → μ × Stage S μ ε α
  | .done a, m => (m, .finished (.ok a))
  | .raise e, m => (m, .finished (.error e))
  | .read k, m => (k m).settle m
  | .write m' k, _ => k.settle m'
  | .await op k, m => (m, .waiting op S.launch k)

@[simp] theorem settle_done (a : α) (m : μ) :
    (Prog.done a : Prog S μ ε α).settle m = (m, .finished (.ok a)) := rfl
@[simp] theorem settle_raise (e : ε) (m : μ) :
    (Prog.raise e : Prog S μ ε α).settle m = (m, .finished (.error e)) := rfl
@[simp] theorem settle_read (k : μ → Prog S μ ε α) (m : μ) :
    (Prog.read k).settle m = (k m).settle m := rfl
@[simp] theorem settle_write (m m' : μ) (k : Prog S μ ε α) :
    (Prog.write m' k).settle m = k.settle m' := rfl
@[simp] theorem settle_await (op : S.Op) (k : Except S.Fault (S.Reply op) → Prog S μ ε α) (m : μ) :
    (Prog.await op k).settle m = (m, .waiting op S.launch k) := rfl

/-- A task and the request it serves. -/
structure Task {δ : Type} (S : Service δ) (ρ μ ε α : Type) where
  request : ρ
  stage : Stage S μ ε α

/-- What the history records of an operation, and whether the operation succeeded. -/
inductive Mark where
  | issued
  | effect (ok : Bool)
  | completed (ok : Bool)
  deriving DecidableEq

/-- The store, the process memory, the tasks in the order of their spawning and the history of their
operations. -/
structure Pool {δ : Type} (S : Service δ) (ρ μ ε α : Type) where
  store : δ
  memory : μ
  tasks : List (Task S ρ μ ε α)
  history : List (ℕ × S.Op × Mark)

/-- What can happen. -/
inductive Event {δ : Type} (S : Service δ) (ρ : Type) where
  /-- A request arrives. -/
  | spawn (request : ρ)
  /-- The store works on the operation of task `i`. -/
  | perform (i : ℕ) (choice : S.Choice)
  /-- Task `i` is resumed with the reply to its operation. -/
  | resume (i : ℕ)

namespace Pool

/-- A pool without tasks. -/
def start (store : δ) (memory : μ) : Pool S ρ μ ε α := { store, memory, tasks := [], history := [] }

/-- What the history records when task `i` arrives at a stage. -/
def issueOf (i : ℕ) : Stage S μ ε α → List (ℕ × S.Op × Mark)
  | .waiting op _ _ => [(i, op, .issued)]
  | _ => []

/-- One event. An event that is not enabled changes nothing. -/
def step (handler : ρ → Prog S μ ε α) (s : Pool S ρ μ ε α) : Event S ρ → Pool S ρ μ ε α
  | .spawn request =>
    let (memory, stage) := (handler request).settle s.memory
    { s with
      memory
      tasks := s.tasks ++ [{ request, stage }]
      history := s.history ++ issueOf s.tasks.length stage }
  | .perform i choice =>
    match s.tasks[i]? with
    | some { request, stage := .waiting op flight k } =>
      match S.perform op flight choice s.store with
      | (store, .inl flight) =>
        { s with store, tasks := s.tasks.set i { request, stage := .waiting op flight k } }
      | (store, .inr reply) =>
        { s with
          store
          tasks := s.tasks.set i { request, stage := .applied op reply k }
          history := s.history ++ [(i, op, .effect reply.isOk)] }
    | _ => s
  | .resume i =>
    match s.tasks[i]? with
    | some { request, stage := .applied op reply k } =>
      let (memory, stage) := (k reply).settle s.memory
      { s with
        memory
        tasks := s.tasks.set i { request, stage }
        history := s.history ++ (i, op, .completed reply.isOk) :: issueOf i stage }
    | _ => s

variable {handler : ρ → Prog S μ ε α}

/-- The event makes the store work on the operation `op`, in flight with `flight`, of a task serving
`request`, and decide `choice`. -/
def Performs (s : Pool S ρ μ ε α) (e : Event S ρ) (request : ρ) (op : S.Op) (flight : S.Flight)
    (choice : S.Choice) : Prop :=
  ∃ i k, e = .perform i choice ∧ s.tasks[i]? = some { request, stage := .waiting op flight k }

@[simp] theorem store_spawn (s : Pool S ρ μ ε α) (r : ρ) :
    (s.step handler (.spawn r)).store = s.store := rfl

@[simp] theorem store_resume (s : Pool S ρ μ ε α) (i : ℕ) :
    (s.step handler (.resume i)).store = s.store := by
  simp only [step]
  split <;> rfl

/-- When the store works on an operation, the operation decides what becomes of the store. -/
theorem store_of_performs {s : Pool S ρ μ ε α} {e : Event S ρ} {request : ρ} {op : S.Op}
    {flight : S.Flight} {choice : S.Choice} (h : s.Performs e request op flight choice) :
    (s.step handler e).store = (S.perform op flight choice s.store).1 := by
  obtain ⟨i, k, rfl, htask⟩ := h
  simp only [step, htask]
  split <;> rename_i hperform <;> simp [hperform]

/-- Only an operation at work changes the store. -/
theorem store_of_not_performs {s : Pool S ρ μ ε α} {e : Event S ρ}
    (h : ∀ request op flight choice, ¬ s.Performs e request op flight choice) :
    (s.step handler e).store = s.store := by
  cases e with
  | spawn r => rfl
  | resume i => exact store_resume s i
  | perform i choice =>
    simp only [step]
    split
    · rename_i request op flight k htask
      exact absurd ⟨i, k, rfl, htask⟩ (h request op flight choice)
    · rfl

/-- Every operation at work meets `G` in the store in which the event finds it. -/
def Effects (G : δ → S.Op → S.Flight → S.Choice → Prop) (s : Pool S ρ μ ε α) (e : Event S ρ) :
    Prop :=
  ∀ request op flight choice, s.Performs e request op flight choice → G s.store op flight choice

theorem effects_and {G G' : δ → S.Op → S.Flight → S.Choice → Prop} :
    Effects (ρ := ρ) (μ := μ) (ε := ε) (α := α)
        (fun d op flight choice => G d op flight choice ∧ G' d op flight choice) =
      fun s e => Effects G s e ∧ Effects G' s e := by
  funext s e
  refine propext ⟨fun h => ⟨fun r op flight choice hp => (h r op flight choice hp).1,
    fun r op flight choice hp => (h r op flight choice hp).2⟩, fun h => ?_⟩
  exact fun r op flight choice hp => ⟨h.1 r op flight choice hp, h.2 r op flight choice hp⟩

/-- The request that an event brings, if it brings one. -/
def spawned : Event S ρ → List ρ
  | .spawn request => [request]
  | _ => []

/-- The tasks serve the requests that have arrived, in their order. -/
theorem map_request_step (s : Pool S ρ μ ε α) (e : Event S ρ) :
    (s.step handler e).tasks.map Task.request = s.tasks.map Task.request ++ spawned e := by
  -- A task keeps its request through all its stages.
  have hset {i : ℕ} {task : Task S ρ μ ε α} (hi : s.tasks[i]? = some task) (stage : Stage S μ ε α) :
      (s.tasks.set i { request := task.request, stage }).map Task.request =
        s.tasks.map Task.request := by
    rw [List.map_set]
    refine List.ext_getElem? fun j => ?_
    rw [List.getElem?_set, List.length_map]
    split_ifs with hij hlt
    · rw [← hij, List.getElem?_map, hi]
      rfl
    · rw [← hij]
      exact (List.getElem?_eq_none (by simpa using hlt)).symm
    · rfl
  cases e with
  | spawn request => simp [step, spawned]
  | perform i choice =>
    simp only [step, spawned, List.append_nil]
    split
    · rename_i hi
      split <;> exact hset hi _
    · rfl
  | resume i =>
    simp only [step, spawned, List.append_nil]
    split
    · rename_i hi
      exact hset hi _
    · rfl

variable (handler) in
/-- What a pool can be after an event. -/
inductive StepTo (s : Pool S ρ μ ε α) : Event S ρ → Pool S ρ μ ε α → Prop where
  /-- The event is not enabled. -/
  | idle (e) : StepTo s e s
  | spawn (request) : StepTo s (.spawn request)
      { s with
        memory := ((handler request).settle s.memory).1
        tasks := s.tasks ++ [{ request, stage := ((handler request).settle s.memory).2 }]
        history := s.history ++
          issueOf s.tasks.length ((handler request).settle s.memory).2 }
  | fly {i choice request op flight k store flight'}
      (htask : s.tasks[i]? = some { request, stage := .waiting op flight k })
      (hperform : S.perform op flight choice s.store = (store, .inl flight')) :
      StepTo s (.perform i choice)
        { s with store, tasks := s.tasks.set i { request, stage := .waiting op flight' k } }
  | land {i choice request op flight k store reply}
      (htask : s.tasks[i]? = some { request, stage := .waiting op flight k })
      (hperform : S.perform op flight choice s.store = (store, .inr reply)) :
      StepTo s (.perform i choice)
        { s with
          store
          tasks := s.tasks.set i { request, stage := .applied op reply k }
          history := s.history ++ [(i, op, .effect reply.isOk)] }
  | resume {i request op reply k}
      (htask : s.tasks[i]? = some { request, stage := .applied op reply k }) :
      StepTo s (.resume i)
        { s with
          memory := ((k reply).settle s.memory).1
          tasks := s.tasks.set i { request, stage := ((k reply).settle s.memory).2 }
          history := s.history ++
            (i, op, .completed reply.isOk) :: issueOf i ((k reply).settle s.memory).2 }

variable (handler) in
/-- Every event leads to one of the cases of `StepTo`. -/
theorem stepTo_step (s : Pool S ρ μ ε α) (e : Event S ρ) : StepTo handler s e (s.step handler e) := by
  cases e with
  | spawn request => exact .spawn request
  | perform i choice =>
    -- An event for a task that is not there, or not at this stage, is idle.
    simp only [step]
    split
    · rename_i htask
      split
      · rename_i hperform
        exact .fly htask hperform
      · rename_i hperform
        exact .land htask hperform
    · exact .idle _
  | resume i =>
    simp only [step]
    split
    · rename_i htask
      exact .resume htask
    · exact .idle _

variable (handler) in
/-- What the task in place `j` can be after an event. -/
inductive TaskStep (s : Pool S ρ μ ε α) (e : Event S ρ) (j : ℕ) : Task S ρ μ ε α → Prop where
  | kept {task} (htask : s.tasks[j]? = some task)
      (hidle : ∀ request op flight choice k, e = .perform j choice →
        task ≠ { request, stage := .waiting op flight k }) : TaskStep s e j task
  | spawned {request} (he : e = .spawn request) (hj : j = s.tasks.length) :
      TaskStep s e j { request, stage := ((handler request).settle s.memory).2 }
  | flying {request op flight choice k flight'} (he : e = .perform j choice)
      (htask : s.tasks[j]? = some { request, stage := .waiting op flight k })
      (hperform : (S.perform op flight choice s.store).2 = .inl flight') :
      TaskStep s e j { request, stage := .waiting op flight' k }
  | landed {request op flight choice k reply} (he : e = .perform j choice)
      (htask : s.tasks[j]? = some { request, stage := .waiting op flight k })
      (hperform : (S.perform op flight choice s.store).2 = .inr reply) :
      TaskStep s e j { request, stage := .applied op reply k }
  | resumed {request op reply k} (he : e = .resume j)
      (htask : s.tasks[j]? = some { request, stage := .applied op reply k }) :
      TaskStep s e j { request, stage := ((k reply).settle s.memory).2 }

/-- Every task after an event comes from one of the cases of `TaskStep`. -/
theorem taskStep_of_getElem? {s : Pool S ρ μ ε α} {e : Event S ρ} {j : ℕ} {task : Task S ρ μ ε α}
    (h : (s.step handler e).tasks[j]? = some task) : TaskStep handler s e j task := by
  cases e with
  | spawn request =>
    simp only [step] at h
    rw [List.getElem?_append] at h
    split_ifs at h with hlt
    · exact .kept h nofun
    · -- Behind the tasks that were there is the new one only.
      rw [List.getElem?_singleton] at h
      split_ifs at h with hzero
      obtain rfl := Option.some.inj h
      exact .spawned rfl (by omega)
  | perform i choice =>
    simp only [step] at h
    split at h
    · rename_i request op flight k hi
      split at h <;> rename_i hperform <;> rw [List.getElem?_set] at h <;> split_ifs at h with hij hlt
      · subst hij
        obtain rfl := Option.some.inj h
        exact .flying rfl hi (by rw [hperform])
      · exact .kept h fun _ _ _ _ _ he => absurd (Event.perform.inj he).1 hij
      · subst hij
        obtain rfl := Option.some.inj h
        exact .landed rfl hi (by rw [hperform])
      · exact .kept h fun _ _ _ _ _ he => absurd (Event.perform.inj he).1 hij
    · rename_i hidle
      refine .kept h ?_
      rintro request op flight choice k he rfl
      obtain ⟨rfl, -⟩ := Event.perform.inj he
      exact hidle _ _ _ _ h
  | resume i =>
    simp only [step] at h
    split at h
    · rename_i request op reply k hi
      simp only [] at h
      rw [List.getElem?_set] at h
      split_ifs at h with hij hlt
      · subst hij
        obtain rfl := Option.some.inj h
        exact .resumed rfl hi
      · exact .kept h nofun
    · exact .kept h nofun

variable (handler) in
/-- A property of the store that an operation preserves exactly when it meets `G` holds throughout a
run exactly when all its operations meet `G` when the store works on them. -/
theorem always_store_iff {P : δ → Prop} {G : δ → S.Op → S.Flight → S.Choice → Prop}
    (h : ∀ d op flight choice, P d → (P (S.perform op flight choice d).1 ↔ G d op flight choice))
    {s : Pool S ρ μ ε α} (hs : P s.store) (es : List (Event S ρ)) :
    Run.Always (step handler) (fun s => P s.store) s es ↔
      Run.Guarded (step handler) (Effects G) s es := by
  refine Run.always_iff_guarded (J := fun s : Pool S ρ μ ε α => P s.store) (fun _ hP => hP) (fun s e hP hG => ?_)
    (fun s e hP hG => ?_) hs es
  · by_cases hperf : ∃ request op flight choice, s.Performs e request op flight choice
    · obtain ⟨request, op, flight, choice, hperf⟩ := hperf
      rw [store_of_performs hperf]
      exact (h _ op flight choice hP).mpr (hG request op flight choice hperf)
    · push Not at hperf
      rwa [store_of_not_performs hperf]
  · simp only [Effects, not_forall] at hG
    obtain ⟨request, op, flight, choice, hperf, hG⟩ := hG
    rw [store_of_performs hperf]
    exact fun hP' => hG ((h _ op flight choice hP).mp hP')

/-- What remains of every task meets the conditions `Q` and `R` of its request. -/
def Disciplined (honest : (op : S.Op) → Except S.Fault (S.Reply op) → Prop)
    (Q : ρ → S.Op → Prop) (R : ρ → Except ε α → Prop) (s : Pool S ρ μ ε α) : Prop :=
  ∀ task ∈ s.tasks, match task.stage with
    | .waiting op _ k => (Prog.await op k).Meets honest (Q task.request) (R task.request)
    | .applied _ reply k => (k reply).Meets honest (Q task.request) (R task.request)
    | .finished result => R task.request result

section Disciplined

variable {honest : (op : S.Op) → Except S.Fault (S.Reply op) → Prop} {Q : ρ → S.Op → Prop}
  {R : ρ → Except ε α → Prop}

/-- A program that meets the conditions of a request settles in a stage that does. -/
theorem disciplined_settle {request : ρ} {p : Prog S μ ε α}
    (h : p.Meets honest (Q request) (R request)) (m : μ) :
    match (p.settle m).2 with
    | .waiting op _ k => (Prog.await op k).Meets honest (Q request) (R request)
    | .applied _ reply k => (k reply).Meets honest (Q request) (R request)
    | .finished result => R request result := by
  induction p generalizing m with
  | done a => exact h
  | raise e => exact h
  | read k ih => exact ih m (h m) m
  | write m' k ih => exact ih h m'
  | await op k => exact h

/-- If the handler of every request meets the request's conditions and the store is honest, every
step keeps the tasks disciplined. -/
theorem Disciplined.step (hhandler : ∀ r, (handler r).Meets honest (Q r) (R r))
    (hhonest : ∀ op flight choice d reply,
      (S.perform op flight choice d).2 = .inr reply → honest op reply)
    {s : Pool S ρ μ ε α} (h : s.Disciplined honest Q R) (e : Event S ρ) :
    (s.step handler e).Disciplined honest Q R := by
  cases e with
  | spawn request =>
    intro task htask
    rcases List.mem_append.mp htask with htask | htask
    · exact h task htask
    · obtain rfl := List.mem_singleton.mp htask
      exact disciplined_settle (hhandler request) s.memory
  | perform i choice =>
    simp only [Pool.step]
    split
    · rename_i request op flight k hi
      have hold := h _ (List.mem_of_getElem? hi)
      -- The operation is still in flight, or it has replied as an honest store does.
      split <;> rename_i hperform <;> intro task htask <;>
        rcases List.mem_or_eq_of_mem_set htask with htask | rfl
      · exact h task htask
      · exact hold
      · exact h task htask
      · exact hold.2 _ (hhonest op flight choice s.store _ (by rw [hperform]))
    · exact h
  | resume i =>
    simp only [Pool.step]
    split
    · rename_i request op reply k hi
      have hold := h _ (List.mem_of_getElem? hi)
      intro task htask
      rcases List.mem_or_eq_of_mem_set htask with htask | rfl
      · exact h task htask
      · exact disciplined_settle hold s.memory
    · exact h

/-- An operation at work meets the condition of its request. -/
theorem Disciplined.of_performs {s : Pool S ρ μ ε α} (h : s.Disciplined honest Q R)
    {e : Event S ρ} {request : ρ} {op : S.Op} {flight : S.Flight} {choice : S.Choice}
    (hperform : s.Performs e request op flight choice) : Q request op := by
  obtain ⟨i, k, -, hi⟩ := hperform
  exact (h _ (List.mem_of_getElem? hi)).1

/-- The rule for properties of the store, where the requests' conditions are known of the
operations. -/
theorem always_store_iff_of_disciplined (P : δ → Prop)
    {G : δ → S.Op → S.Flight → S.Choice → Prop}
    (hhandler : ∀ r, (handler r).Meets honest (Q r) (R r))
    (hhonest : ∀ op flight choice d reply,
      (S.perform op flight choice d).2 = .inr reply → honest op reply)
    (h : ∀ d request op flight choice, Q request op → P d →
      (P (S.perform op flight choice d).1 ↔ G d op flight choice))
    {store : δ} (hs : P store) (memory : μ) (es : List (Event S ρ)) :
    Run.Always (Pool.step handler) (fun s => P s.store) (start store memory) es ↔
      Run.Guarded (Pool.step handler) (Effects G) (start store memory) es := by
  refine Run.always_iff_guarded
    (J := fun s : Pool S ρ μ ε α => P s.store ∧ s.Disciplined honest Q R) (fun _ hJ => hJ.1)
    (fun s e hJ hG => ⟨?_, hJ.2.step hhandler hhonest e⟩) (fun s e hJ hG => ?_)
    ⟨hs, fun _ htask => absurd htask List.not_mem_nil⟩ es
  · -- The store changes by the event that performs an operation, and by no other.
    by_cases hperf : ∃ request op flight choice, s.Performs e request op flight choice
    · obtain ⟨request, op, flight, choice, hperf⟩ := hperf
      rw [store_of_performs hperf]
      exact (h _ request op flight choice (hJ.2.of_performs hperf) hJ.1).mpr
        (hG request op flight choice hperf)
    · push Not at hperf
      rw [store_of_not_performs hperf]
      exact hJ.1
  · simp only [Effects, not_forall] at hG
    obtain ⟨request, op, flight, choice, hperf, hG⟩ := hG
    rw [store_of_performs hperf]
    exact fun hP' => hG ((h _ request op flight choice (hJ.2.of_performs hperf) hJ.1).mp hP')

end Disciplined

end Pool

end Async
