import VoiceAgentPlatform.Lib.KeyedTable

/-!
# Invariants that every task keeps

Tasks over a shared store and a memory, each of which keeps to a contract: it may rely on what the
contract says of the memory it reads and of the replies it gets, and it guarantees what the contract
says of the memory it leaves and of the operations it issues. Whatever the interleaving, the memory
and the store are then as the contract says.

* `Contract`: the conditions on memory, store, operations and replies, and that the service keeps them;
  `Contract.narrow` has a further condition on the operations.
* `Prog.Keeps`: a program that keeps to a contract, with its rules.
* `Pool.Kept`, `always_kept`: all tasks keep to the contract, each with the condition of its request, in
  every run.
* `itemContract`: the contract of a table all whose items have a property.
-/

namespace Async

variable {δ μ ε ρ α β : Type} {S : Service δ}

/-- What tasks rely on and guarantee. -/
structure Contract (S : Service δ) (μ : Type) where
  memory : μ → Prop
  store : δ → Prop
  issued : S.Op → Prop
  flight : S.Flight → Prop
  reply : (op : S.Op) → Except S.Fault (S.Reply op) → Prop
  launch : flight S.launch
  perform : ∀ op fl choice d, issued op → flight fl → store d →
    store (S.perform op fl choice d).1 ∧
      (∀ fl', (S.perform op fl choice d).2 = .inl fl' → flight fl') ∧
      ∀ r, (S.perform op fl choice d).2 = .inr r → reply op r

/-- The contract where only operations that meet `Q` are issued. -/
def Contract.narrow (c : Contract S μ) (Q : S.Op → Prop) : Contract S μ where
  memory := c.memory
  store := c.store
  issued op := c.issued op ∧ Q op
  flight := c.flight
  reply := c.reply
  launch := c.launch
  perform op flight choice d hop := c.perform op flight choice d hop.1

namespace Prog

/-- The program keeps to the contract, and what it returns meets `R`. -/
def Keeps (c : Contract S μ) (R : α → Prop) : Prog S μ ε α → Prop
  | done a => R a
  | raise _ => True
  | read k => ∀ m, c.memory m → (k m).Keeps c R
  | write m k => c.memory m ∧ k.Keeps c R
  | await op k => c.issued op ∧ ∀ r, c.reply op r → (k r).Keeps c R

variable {c : Contract S μ} {R : α → Prop} {T : β → Prop}

theorem Keeps.mono {R' : α → Prop} {p : Prog S μ ε α} (hp : p.Keeps c R) (h : ∀ a, R a → R' a) :
    p.Keeps c R' := by
  induction p with
  | done a => exact h a hp
  | raise e => trivial
  | read k ih => exact fun m hm => ih m (hp m hm)
  | write m k ih => exact ⟨hp.1, ih hp.2⟩
  | await op k ih => exact ⟨hp.1, fun r hr => ih r (hp.2 r hr)⟩

/-- Sequencing: what follows may use what is known of the first result. -/
theorem Keeps.bind {p : Prog S μ ε α} {f : α → Prog S μ ε β} (hp : p.Keeps c R)
    (hf : ∀ a, R a → (f a).Keeps c T) : (p.bind f).Keeps c T := by
  induction p with
  | done a => exact hf a hp
  | raise e => trivial
  | read k ih => exact fun m hm => ih m (hp m hm)
  | write m k ih => exact ⟨hp.1, ih hp.2⟩
  | await op k ih => exact ⟨hp.1, fun r hr => ih r (hp.2 r hr)⟩

/-- Exception handling. -/
theorem Keeps.tryCatch {p : Prog S μ ε α} {h : ε → Prog S μ ε α} (hp : p.Keeps c R)
    (hh : ∀ e, (h e).Keeps c R) : (p.tryCatch h).Keeps c R := by
  induction p with
  | done a => exact hp
  | raise e => exact hh e
  | read k ih => exact fun m hm => ih m (hp m hm)
  | write m k ih => exact ⟨hp.1, ih hp.2⟩
  | await op k ih => exact ⟨hp.1, fun r hr => ih r (hp.2 r hr)⟩

theorem Keeps.mapError {ε' : Type} {p : Prog S μ ε α} (hp : p.Keeps c R) (f : ε → ε') :
    (p.mapError f).Keeps c R := by
  induction p with
  | done a => exact hp
  | raise e => trivial
  | read k ih => exact fun m hm => ih m (hp m hm)
  | write m k ih => exact ⟨hp.1, ih hp.2⟩
  | await op k ih => exact ⟨hp.1, fun r hr => ih r (hp.2 r hr)⟩

theorem keeps_ite {b : Prop} [Decidable b] {p q : Prog S μ ε α} (hp : b → p.Keeps c R)
    (hq : ¬ b → q.Keeps c R) : (if b then p else q).Keeps c R := by
  split_ifs with hb
  · exact hp hb
  · exact hq hb

theorem keeps_ofExcept {x : Except ε α} (h : ∀ a, x = .ok a → R a) :
    (ofExcept x : Prog S μ ε α).Keeps c R := by
  match x with
  | .ok a => exact h a rfl
  | .error e => trivial

end Prog

namespace Pool

/-- What remains of a task keeps to the contract. -/
def StageKept (c : Contract S μ) : Stage S μ ε α → Prop
  | .waiting op fl k => c.issued op ∧ c.flight fl ∧ ∀ r, c.reply op r → (k r).Keeps c fun _ => True
  | .applied op r k => c.issued op ∧ (k r).Keeps c fun _ => True
  | .finished _ => True

/-- The operation that the task awaits meets `Q`. -/
def Awaits (Q : S.Op → Prop) : Stage S μ ε α → Prop
  | .waiting op _ _ => Q op
  | .applied op _ _ => Q op
  | .finished _ => True

/-- Memory, store and tasks are as the contract says, and each task meets the condition of its
request on operations. -/
structure Kept (c : Contract S μ) (Q : ρ → S.Op → Prop) (s : Pool S ρ μ ε α) : Prop where
  memory : c.memory s.memory
  store : c.store s.store
  stages : ∀ task ∈ s.tasks, StageKept (c.narrow (Q task.request)) task.stage

variable {c : Contract S μ} {Q : ρ → S.Op → Prop} {handler : ρ → Prog S μ ε α}

theorem StageKept.awaits {P : S.Op → Prop} {stage : Stage S μ ε α} (h : StageKept (c.narrow P) stage) :
    Awaits P stage := by
  match stage with
  | .waiting op flight k => exact h.1.2
  | .applied op reply k => exact h.1.2
  | .finished result => trivial

/-- A program that keeps to the contract runs up to its next operation. -/
theorem kept_settle {p : Prog S μ ε α} (hp : p.Keeps c fun _ => True) {m : μ} (hm : c.memory m) :
    c.memory (p.settle m).1 ∧ StageKept c (p.settle m).2 := by
  induction p generalizing m with
  | done a => exact ⟨hm, trivial⟩
  | raise e => exact ⟨hm, trivial⟩
  | read k ih => exact ih m (hp m hm) hm
  | write m' k ih => exact ih hp.2 hp.1
  | await op k => exact ⟨hm, hp.1, c.launch, hp.2⟩

/-- If every handler keeps to the contract, so does every event. -/
theorem Kept.step (hhandler : ∀ r, (handler r).Keeps (c.narrow (Q r)) fun _ => True)
    {s : Pool S ρ μ ε α} (h : Kept c Q s) (e : Event S ρ) : Kept c Q (s.step handler e) := by
  -- A stage that keeps to the contract may take the place of any other.
  have hset {i : ℕ} {task : Task S ρ μ ε α}
      (hstage : StageKept (c.narrow (Q task.request)) task.stage) :
      ∀ t ∈ s.tasks.set i task, StageKept (c.narrow (Q t.request)) t.stage := by
    intro t ht
    rcases List.mem_or_eq_of_mem_set ht with ht | rfl
    · exact h.stages t ht
    · exact hstage
  have hto := stepTo_step handler s e
  generalize s.step handler e = s' at hto
  cases hto with
  | idle => exact h
  | spawn request =>
    obtain ⟨hmemory, hstage⟩ := kept_settle (hhandler request) h.memory
    refine ⟨hmemory, h.store, fun t ht => ?_⟩
    rcases List.mem_append.mp ht with ht | ht
    · exact h.stages t ht
    · rw [List.mem_singleton.mp ht]
      exact hstage
  | @fly i choice request op flight k store flight' htask hperform =>
    obtain ⟨hissued, hflight, hreply⟩ := h.stages _ (List.mem_of_getElem? htask)
    -- The store and the reply are those of the operation, which was issued under the contract.
    have hkept := c.perform op flight choice s.store hissued.1 hflight h.store
    rw [hperform] at hkept
    exact ⟨h.memory, hkept.1, hset ⟨hissued, hkept.2.1 _ rfl, hreply⟩⟩
  | @land i choice request op flight k store reply htask hperform =>
    obtain ⟨hissued, hflight, hreply⟩ := h.stages _ (List.mem_of_getElem? htask)
    have hkept := c.perform op flight choice s.store hissued.1 hflight h.store
    rw [hperform] at hkept
    exact ⟨h.memory, hkept.1, hset ⟨hissued, hreply _ (hkept.2.2 _ rfl)⟩⟩
  | resume htask =>
    obtain ⟨-, hprogram⟩ := h.stages _ (List.mem_of_getElem? htask)
    obtain ⟨hmemory, hstage⟩ := kept_settle hprogram h.memory
    exact ⟨hmemory, h.store, hset hstage⟩

/-- Every run keeps to the contract. -/
theorem always_kept (hhandler : ∀ r, (handler r).Keeps (c.narrow (Q r)) fun _ => True) {store : δ}
    {memory : μ} (hstore : c.store store) (hmemory : c.memory memory) (es : List (Event S ρ)) :
    Run.Always (Pool.step handler) (Kept c Q) (start store memory) es :=
  Run.always_of_invariant (fun _ e h => h.step hhandler e)
    ⟨hmemory, hstore, fun _ h => absurd h List.not_mem_nil⟩ es

end Pool

end Async

namespace KeyedTable

open Async

variable {K V U μ : Type} [DecidableEq K] {sch : Schema K V U}

/-- The values in a reply meet `P`. -/
def ReplyMeets (P : V → Prop) : (op : Op K V U) → Except Fault op.Reply → Prop
  | .getItem _, reply => ∀ v, reply = .ok (some v) → P v
  | .scan, reply => ∀ items, reply = .ok items → ∀ v ∈ items, P v
  | .deleteItem _, reply => ∀ v, reply = .ok (some v) → P v
  | _, _ => True

variable (sch) in
/-- The values that an operation writes meet `P`, as do those that its update makes. -/
def WriteMeets (P : V → Prop) : Op K V U → Prop
  | .putItem v => P v
  | .putIfAbsent v => P v
  | .updateItem k u => ∀ o, (∀ v, o = some v → P v) → P (sch.update u k o)
  | _ => True

omit [DecidableEq K] in
theorem mem_of_mem_after {t : Table sch} {start : Option K} {v : V} (h : v ∈ t.after start) : v ∈ t :=
  (t.after_suffix start).subset h

omit [DecidableEq K] in
/-- The values that a scan has collected after a page. -/
theorem mem_items_nextPage {t : Table sch} {flight : Flight K V} {n : ℕ} {v : V}
    (h : v ∈ (nextPage t flight n).items) : v ∈ flight.items ∨ v ∈ t :=
  (List.mem_append.mp h).imp_right fun hpage => mem_of_mem_after (List.mem_of_mem_take hpage)

theorem complete_meets {P : V → Prop} {op : Op K V U} {flight : Flight K V} {t : Table sch}
    (hop : WriteMeets sch P op) (hflight : ∀ v ∈ flight.items, P v) (ht : ∀ v ∈ t, P v) :
    (∀ v ∈ (complete op flight t).1, P v) ∧ ReplyMeets P op (complete op flight t).2 := by
  have hget {k : K} {v : V} (h : t.get? k = some v) : P v := ht v (Table.get?_eq_some_iff.mp h).1
  -- What is stored meets the contract, and so does what it leaves in place.
  have hput {v : V} (hv : P v) : ∀ w ∈ t.put v, P w := by
    intro w hw
    rcases Table.mem_put.mp hw with rfl | ⟨hw, -⟩
    · exact hv
    · exact ht w hw
  match op with
  | .getItem k => exact ⟨ht, fun v h => hget (Except.ok.inj h)⟩
  | .scan =>
    refine ⟨ht, fun items h v hv => ?_⟩
    rw [← Except.ok.inj h] at hv
    rcases List.mem_append.mp hv with hv | hv
    · exact hflight v hv
    · exact ht v (mem_of_mem_after hv)
  | .putItem v => exact ⟨hput hop, trivial⟩
  | .putIfAbsent v =>
    simp only [complete]
    split_ifs
    · exact ⟨ht, trivial⟩
    · exact ⟨hput hop, trivial⟩
  | .updateItem k u => exact ⟨hput (hop _ fun v h => hget h), trivial⟩
  | .deleteItem k =>
    exact ⟨fun v hv => ht v (Table.mem_delete.mp hv).1, fun v h => hget (Except.ok.inj h)⟩

/-- All items of the table meet `P`. -/
def itemContract (sch : Schema K V U) (P : V → Prop) (M : μ → Prop) : Contract (service sch) μ where
  memory := M
  store t := ∀ v ∈ t, P v
  issued := WriteMeets sch P
  flight flight := ∀ v ∈ flight.items, P v
  reply := ReplyMeets P
  launch _ h := absurd h List.not_mem_nil
  perform op flight choice t hop hflight ht := by
    match choice with
    | .ok =>
      obtain ⟨htable, hreply⟩ := complete_meets hop hflight ht
      refine ⟨htable, nofun, fun r hr => ?_⟩
      obtain rfl := Sum.inr.inj hr
      exact hreply
    -- A page only changes what the scan has gathered so far.
    | .page n =>
      rw [service_perform, fst_perform_page]
      refine ⟨ht, fun flight' h => ?_, fun r hr => ?_⟩
      · match op with
        | .scan =>
          obtain rfl := Sum.inl.inj h
          exact fun v hv => (mem_items_nextPage hv).elim (hflight v) (ht v)
        | .getItem _ | .putItem _ | .putIfAbsent _ | .updateItem _ _ | .deleteItem _ =>
          obtain rfl := Sum.inl.inj h
          exact hflight
      · cases op <;> cases hr
    -- A fault leaves the table as it is.
    | .fault code =>
      refine ⟨ht, nofun, fun r hr => ?_⟩
      obtain rfl := Sum.inr.inj hr
      cases op with
      | getItem k => exact nofun
      | scan => exact nofun
      | deleteItem k => exact nofun
      | _ => trivial

end KeyedTable
