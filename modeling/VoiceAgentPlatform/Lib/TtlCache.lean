import Mathlib.Algebra.Order.Group.Defs
import Mathlib.Algebra.Order.Ring.Rat
import Mathlib.Data.List.GetD
import Mathlib.Tactic.Abel
import VoiceAgentPlatform.Lib.Run

/-!
# A value that is computed at most once in a while

Tasks on one event loop ask for a value that is expensive to read. A value that is younger than its
lifetime is answered from memory; otherwise the task takes a lock, looks again, and reads the source
while it holds the lock. The clock is read at each look and may jump.

* `Cache.step`: a task arrives, takes the lock, finishes its reading, or is given up.
* `Inv`: what every step preserves.
* `Inv.length_window_le`: in a window of time there are no more readings than lifetimes, and one.
* `Inv.answer_of_step`: an answer is the value of the last reading, younger than the lifetime.
* `Inv.progress`: a task that waits does not wait on a lock that nobody releases.
-/

namespace TtlCache

/-- What is cached: the lifetime, the value made from a reading that started at a time, if this does
not raise, and what a later request is shown of a value. `κ` is what is known at once. -/
structure Source (τ ρ κ β : Type) where
  ttl : τ
  make : τ → ρ → κ → Option β
  overlay : β → τ → κ → β

/-- Where a task stands. -/
inductive Phase (τ β : Type) where
  | waiting
  | filling (start : τ)
  | answered (answer : β)
  | failed
  deriving DecidableEq

/-- The memory, the lock, the tasks in the order of their arrival, and the readings that completed. -/
structure Cache (τ β : Type) where
  value : Option (β × τ)
  holder : Option ℕ
  tasks : List (Phase τ β)
  fills : List (τ × β)

/-- No value, and no task. -/
def empty {τ β : Type} : Cache τ β := { value := none, holder := none, tasks := [], fills := [] }

/-- What can happen, with the clock and what is known at once when it happens. -/
inductive Event (τ ρ κ : Type) where
  | arrive (now : τ) (live : κ)
  | acquire (i : ℕ) (now : τ) (live : κ)
  | finish (i : ℕ) (read : ρ) (live : κ)
  | abort (i : ℕ)

variable {τ ρ κ β : Type} [AddCommGroup τ] [LinearOrder τ]

/-- The value in memory, if it is younger than the lifetime. -/
def Cache.fresh (src : Source τ ρ κ β) (c : Cache τ β) (now : τ) : Option β :=
  match c.value with
  | none => none
  | some (v, start) => if now - start < src.ttl then some v else none

/-- A task looks for the value: it is answered, or `miss` is done. -/
def Cache.look (src : Source τ ρ κ β) (c : Cache τ β) (now : τ) (live : κ) (hit : Phase τ β → Cache τ β)
    (miss : Cache τ β) : Cache τ β :=
  match c.fresh src now with
  | some v => hit (.answered (src.overlay v now live))
  | none => miss

/-- Set the phase of a task. -/
def Cache.setTask (c : Cache τ β) (i : ℕ) (phase : Phase τ β) : Cache τ β :=
  { c with tasks := c.tasks.set i phase }

/-- One event. An event that is not enabled changes nothing. -/
def Cache.step (src : Source τ ρ κ β) (c : Cache τ β) : Event τ ρ κ → Cache τ β
  | .arrive now live =>
    c.look src now live (fun phase => { c with tasks := c.tasks ++ [phase] })
      { c with tasks := c.tasks ++ [.waiting] }
  | .acquire i now live =>
    match c.tasks[i]?, c.holder with
    | some .waiting, none =>
      -- The lock is released at once if the value is there by now.
      c.look src now live (c.setTask i) { c.setTask i (.filling now) with holder := some i }
    | _, _ => c
  | .finish i read live =>
    match c.tasks[i]? with
    | some (.filling start) =>
      match src.make start read live with
      | some v =>
        { value := some (v, start), holder := none, tasks := c.tasks.set i (.answered v)
          fills := c.fills ++ [(start, v)] }
      | none => { c.setTask i .failed with holder := none }
    | _ => c
  | .abort i =>
    match c.tasks[i]? with
    | some .waiting => c.setTask i .failed
    | some (.filling _) => { c.setTask i .failed with holder := none }
    | _ => c

/-- What every step preserves: the lock is held by the one task that reads, whose reading started when
the value had expired, and the value is that of the last reading. -/
structure Inv (src : Source τ ρ κ β) (c : Cache τ β) : Prop where
  holds : ∀ (i : ℕ) (start : τ), c.tasks[i]? = some (Phase.filling start) → c.holder = some i
  reads : ∀ i : ℕ, c.holder = some i → ∃ start : τ, c.tasks[i]? = some (Phase.filling start)
  expired : ∀ (i : ℕ) (start : τ), c.tasks[i]? = some (Phase.filling start) → c.fresh src start = none
  value_eq : c.value = c.fills.getLast?.map Prod.swap
  spaced : c.fills.Pairwise fun a b => a.1 + src.ttl ≤ b.1
  made : ∀ fill ∈ c.fills, ∃ read live, src.make fill.1 read live = some fill.2

theorem inv_empty (src : Source τ ρ κ β) : Inv src (empty : Cache τ β) where
  holds i start h := by simp [empty] at h
  reads i h := by simp [empty] at h
  expired i start h := by simp [empty] at h
  value_eq := rfl
  spaced := List.Pairwise.nil
  made fill h := absurd h List.not_mem_nil

section Steps

variable {src : Source τ ρ κ β} {c : Cache τ β}

/-- Tasks that do not read may change as they like, as long as they do not begin to. -/
theorem Inv.of_tasks (h : Inv src c) {c' : Cache τ β} (hvalue : c'.value = c.value)
    (hholder : c'.holder = c.holder) (hfills : c'.fills = c.fills)
    (htasks : ∀ (i : ℕ) (start : τ), c'.tasks[i]? = some (Phase.filling start) ↔
      c.tasks[i]? = some (Phase.filling start)) : Inv src c' where
  holds i start hi := hholder ▸ h.holds i start ((htasks i start).mp hi)
  reads i hi := by
    obtain ⟨start, hstart⟩ := h.reads i (hholder ▸ hi)
    exact ⟨start, (htasks i start).mpr hstart⟩
  expired i start hi := by
    have hfresh := h.expired i start ((htasks i start).mp hi)
    rw [Cache.fresh, hvalue]
    exact hfresh
  value_eq := by rw [hvalue, hfills, h.value_eq]
  spaced := hfills ▸ h.spaced
  made := hfills ▸ h.made

omit [AddCommGroup τ] [LinearOrder τ] in
/-- A task has a phase after that of a task is set. -/
theorem getElem?_set_eq_some {tasks : List (Phase τ β)} {i j : ℕ} {phase phase' : Phase τ β} :
    (tasks.set i phase)[j]? = some phase' ↔
      (i = j ∧ i < tasks.length ∧ phase = phase') ∨ (i ≠ j ∧ tasks[j]? = some phase') := by
  rw [List.getElem?_set]
  split_ifs with hij hlt
  · simp [hij]
    omega
  · simp [hij]
    omega
  · simp [hij]

omit [AddCommGroup τ] [LinearOrder τ] in
/-- A task that had no answer and has one after a phase is set was given it with that phase. -/
theorem eq_of_set_answered {tasks : List (Phase τ β)} {i j : ℕ} {phase : Phase τ β} {answer : β}
    (hbefore : ∀ answer, tasks[i]? ≠ some (Phase.answered answer))
    (hafter : (tasks.set j phase)[i]? = some (Phase.answered answer)) :
    j = i ∧ phase = .answered answer := by
  rcases getElem?_set_eq_some.mp hafter with ⟨hji, -, hphase⟩ | ⟨-, hi⟩
  · exact ⟨hji, hphase⟩
  · exact absurd hi (hbefore answer)

omit [AddCommGroup τ] [LinearOrder τ] in
/-- The same for a task that has just arrived. -/
theorem eq_of_append_answered {tasks : List (Phase τ β)} {i : ℕ} {phase : Phase τ β} {answer : β}
    (hbefore : ∀ answer, tasks[i]? ≠ some (Phase.answered answer))
    (hafter : (tasks ++ [phase])[i]? = some (Phase.answered answer)) : phase = .answered answer := by
  rw [List.getElem?_append] at hafter
  split_ifs at hafter with hlt
  · exact absurd hafter (hbefore answer)
  · exact (List.mem_singleton.mp (List.mem_of_getElem? hafter)).symm

/-- A task that has no reading in progress takes another phase without reading. -/
theorem Inv.setTask (h : Inv src c) {i : ℕ} {phase : Phase τ β}
    (hphase : ∀ start, phase ≠ .filling start)
    (hi : ∀ start, c.tasks[i]? ≠ some (Phase.filling start)) : Inv src (c.setTask i phase) := by
  refine h.of_tasks rfl rfl rfl fun j start => ?_
  rw [Cache.setTask, getElem?_set_eq_some]
  constructor
  · rintro (⟨-, -, heq⟩ | ⟨-, hj⟩)
    · exact absurd heq (hphase start)
    · exact hj
  · intro hj
    refine .inr ⟨?_, hj⟩
    rintro rfl
    exact hi start hj

/-- A task that arrives does not read yet. -/
theorem Inv.append (h : Inv src c) {phase : Phase τ β} (hphase : ∀ start, phase ≠ .filling start) :
    Inv src { c with tasks := c.tasks ++ [phase] } := by
  refine h.of_tasks rfl rfl rfl fun j start => ?_
  rw [List.getElem?_append]
  split_ifs with hlt
  · rfl
  · rw [List.getElem?_eq_none (not_lt.mp hlt)]
    refine iff_of_false (fun hj => ?_) (by simp)
    exact hphase start (List.mem_singleton.mp (List.mem_of_getElem? hj)).symm

/-- While nobody holds the lock, nobody reads. -/
theorem Inv.not_filling (h : Inv src c) (hfree : c.holder = none) (i : ℕ) (start : τ) :
    c.tasks[i]? ≠ some (Phase.filling start) := by
  intro hi
  rw [h.holds i start hi] at hfree
  cases hfree

/-- Only the holder of the lock reads. -/
theorem Inv.eq_of_filling (h : Inv src c) {i j : ℕ} {start start' : τ}
    (hi : c.tasks[i]? = some (Phase.filling start)) (hj : c.tasks[j]? = some (Phase.filling start')) :
    i = j :=
  Option.some.inj ((h.holds i start hi).symm.trans (h.holds j start' hj))

/-- The lock is taken to read, where the value is not there or has expired. -/
theorem Inv.fill (h : Inv src c) {i : ℕ} {now : τ} (hi : i < c.tasks.length) (hfree : c.holder = none)
    (hfresh : c.fresh src now = none) :
    Inv src { c.setTask i (.filling now) with holder := some i } where
  holds j start hj := by
    rcases getElem?_set_eq_some.mp hj with ⟨rfl, -⟩ | ⟨-, hj⟩
    · rfl
    · exact absurd hj (h.not_filling hfree j start)
  reads j hj := by
    obtain rfl := Option.some.inj hj
    exact ⟨now, getElem?_set_eq_some.mpr (.inl ⟨rfl, hi, rfl⟩)⟩
  expired j start hj := by
    rcases getElem?_set_eq_some.mp hj with ⟨-, -, heq⟩ | ⟨-, hj⟩
    · obtain rfl := Phase.filling.inj heq
      exact hfresh
    · exact absurd hj (h.not_filling hfree j start)
  value_eq := h.value_eq
  spaced := h.spaced
  made := h.made

/-- After the reading of the holder nobody reads. -/
theorem Inv.not_filling_set (h : Inv src c) {i : ℕ} {start : τ} {phase : Phase τ β}
    (hi : c.tasks[i]? = some (Phase.filling start)) (hphase : ∀ start, phase ≠ .filling start)
    (j : ℕ) (start' : τ) : (c.tasks.set i phase)[j]? ≠ some (Phase.filling start') := by
  intro hj
  rcases getElem?_set_eq_some.mp hj with ⟨-, -, heq⟩ | ⟨hne, hj⟩
  · exact hphase start' heq
  · exact hne (h.eq_of_filling hi hj)

/-- The holder of the lock gives up. -/
theorem Inv.release (h : Inv src c) {i : ℕ} {start : τ}
    (hi : c.tasks[i]? = some (Phase.filling start)) :
    Inv src { c.setTask i .failed with holder := none } where
  holds j start' hj := absurd hj (h.not_filling_set hi (fun _ => by simp) j start')
  reads j hj := by cases hj
  expired j start' hj := absurd hj (h.not_filling_set hi (fun _ => by simp) j start')
  value_eq := h.value_eq
  spaced := h.spaced
  made := h.made

/-- A value that is given from memory is that of the last reading, and younger than the lifetime. -/
theorem Inv.fresh_eq_some (h : Inv src c) {now : τ} {v : β} (hfresh : c.fresh src now = some v) :
    ∃ start, c.fills.getLast? = some (start, v) ∧ now - start < src.ttl := by
  simp only [Cache.fresh] at hfresh
  split at hfresh
  · cases hfresh
  · rename_i v' start hvalue
    split_ifs at hfresh with hage
    obtain rfl := Option.some.inj hfresh
    refine ⟨start, ?_, hage⟩
    obtain ⟨fill, hfill, hswap⟩ := Option.map_eq_some_iff.mp (h.value_eq.symm.trans hvalue)
    rw [hfill, ← Prod.swap_swap fill, hswap]
    rfl

/-- A task that an event answers gets the value of the last reading: its own, or one that is younger
than the lifetime, with what is known at once laid over it. -/
theorem Inv.answer_of_step (h : Inv src c) {e : Event τ ρ κ} {i : ℕ} {answer : β}
    (hbefore : ∀ answer, c.tasks[i]? ≠ some (Phase.answered answer))
    (hafter : (c.step src e).tasks[i]? = some (Phase.answered answer)) :
    ∃ start v, (c.step src e).fills.getLast? = some (start, v) ∧
      ((answer = v ∧ ∃ read live, e = .finish i read live ∧ src.make start read live = some v) ∨
        ∃ now live, (e = .arrive now live ∨ e = .acquire i now live) ∧
          answer = src.overlay v now live ∧ now - start < src.ttl) := by
  cases e with
  | arrive now live =>
    simp only [Cache.step, Cache.look] at hafter ⊢
    split at hafter
    · rename_i v hfresh
      obtain ⟨start, hlast, hage⟩ := h.fresh_eq_some hfresh
      have hanswer := Phase.answered.inj (eq_of_append_answered hbefore hafter)
      refine ⟨start, v, ?_, .inr ⟨now, live, .inl rfl, hanswer.symm, hage⟩⟩
      simpa only [hfresh] using hlast
    · cases eq_of_append_answered hbefore hafter
  | acquire j now live =>
    simp only [Cache.step, Cache.look] at hafter ⊢
    split at hafter
    · rename_i hwaiting hfree
      split at hafter
      · -- The second look, behind the lock, has found a value.
        rename_i v hfresh
        obtain ⟨start, hlast, hage⟩ := h.fresh_eq_some hfresh
        obtain ⟨rfl, hanswer⟩ := eq_of_set_answered hbefore hafter
        refine ⟨start, v, ?_, .inr ⟨now, live, .inr rfl, (Phase.answered.inj hanswer).symm, hage⟩⟩
        simpa only [hwaiting, hfree, hfresh, Cache.setTask] using hlast
      · cases (eq_of_set_answered hbefore hafter).2
    · exact absurd hafter (hbefore answer)
  | finish j read live =>
    simp only [Cache.step] at hafter ⊢
    split at hafter
    · rename_i start hfilling
      split at hafter
      · -- The reading of the task itself has become the last one.
        rename_i v hmake
        obtain ⟨rfl, hanswer⟩ := eq_of_set_answered hbefore hafter
        refine ⟨start, v, ?_, .inl ⟨(Phase.answered.inj hanswer).symm, read, live, rfl, hmake⟩⟩
        simp only [List.getLast?_concat]
      · cases (eq_of_set_answered hbefore hafter).2
    · exact absurd hafter (hbefore answer)
  | abort j =>
    -- Giving up answers nobody.
    simp only [Cache.step] at hafter
    split at hafter
    · cases (eq_of_set_answered hbefore hafter).2
    · cases (eq_of_set_answered hbefore hafter).2
    · exact absurd hafter (hbefore answer)

/-- A task that waits can go on: the lock is free, or it is held by a task whose reading frees it,
whatever comes of it. -/
theorem Inv.progress (h : Inv src c) {i : ℕ} (hwaiting : c.tasks[i]? = some .waiting) :
    (∀ now live, (c.holder = none → (c.step src (.acquire i now live)).tasks[i]? ≠ some .waiting)) ∧
      ∀ j, c.holder = some j → j ≠ i ∧ ∀ read live,
        (c.step src (.finish j read live)).holder = none ∧
          (c.step src (.finish j read live)).tasks[i]? = some .waiting := by
  have hlt := (List.getElem?_eq_some_iff.mp hwaiting).1
  constructor
  · intro now live hfree
    simp only [Cache.step, Cache.look, hwaiting, hfree]
    split
    · simp [Cache.setTask, hlt]
    · simp [Cache.setTask, hlt]
  · intro j hholder
    obtain ⟨start, hfilling⟩ := h.reads j hholder
    have hne : j ≠ i := by
      rintro rfl
      rw [hwaiting] at hfilling
      cases hfilling
    refine ⟨hne, fun read live => ?_⟩
    simp only [Cache.step, hfilling]
    split
    · simp [hne, hwaiting]
    · simp [Cache.setTask, hne, hwaiting]

end Steps

section Runs

variable [IsOrderedAddMonoid τ] {src : Source τ ρ κ β} {c : Cache τ β}

/-- A reading that starts when the value has expired is a lifetime behind all that completed. -/
theorem Inv.behind (h : Inv src c) (httl : 0 ≤ src.ttl) {start : τ} (hfresh : c.fresh src start = none)
    {fill : τ × β} (hfill : fill ∈ c.fills) : fill.1 + src.ttl ≤ start := by
  -- The last one is a lifetime behind the others, and was the value in memory.
  obtain ⟨fills, last, hfills⟩ : ∃ fills last, c.fills = fills ++ [last] :=
    ⟨_, _, (List.dropLast_concat_getLast (List.ne_nil_of_mem hfill)).symm⟩
  have hvalue : c.value = some (last.2, last.1) := by
    rw [h.value_eq, hfills, List.getLast?_concat]
    rfl
  have hlast : last.1 + src.ttl ≤ start := by
    simp only [Cache.fresh, hvalue] at hfresh
    split_ifs at hfresh with hage
    exact add_comm src.ttl last.1 ▸ le_sub_iff_add_le.mp (not_lt.mp hage)
  have hspaced := h.spaced
  rw [hfills, List.pairwise_append] at hspaced
  rw [hfills, List.mem_append, List.mem_singleton] at hfill
  rcases hfill with hfill | rfl
  · calc fill.1 + src.ttl ≤ last.1 := hspaced.2.2 fill hfill last (List.mem_singleton_self _)
      _ ≤ last.1 + src.ttl := le_add_of_nonneg_right httl
      _ ≤ start := hlast
  · exact hlast

/-- A reading completes. -/
theorem Inv.complete (h : Inv src c) (httl : 0 ≤ src.ttl) {i : ℕ} {start : τ}
    (hi : c.tasks[i]? = some (Phase.filling start)) {v : β}
    (hmade : ∃ read live, src.make start read live = some v) :
    Inv src { value := some (v, start), holder := none, tasks := c.tasks.set i (.answered v),
              fills := c.fills ++ [(start, v)] } where
  holds j start' hj := absurd hj (h.not_filling_set hi (fun _ => by simp) j start')
  reads j hj := by cases hj
  expired j start' hj := absurd hj (h.not_filling_set hi (fun _ => by simp) j start')
  value_eq := by simp
  spaced := by
    refine List.pairwise_append.mpr ⟨h.spaced, List.pairwise_singleton _ _, ?_⟩
    intro fill hfill fill' hfill'
    obtain rfl := List.mem_singleton.mp hfill'
    exact h.behind httl (h.expired i start hi) hfill
  made fill hfill := by
    rcases List.mem_append.mp hfill with hfill | hfill
    · exact h.made fill hfill
    · obtain rfl := List.mem_singleton.mp hfill
      exact hmade

/-- Every event preserves the invariant. -/
theorem Inv.step (h : Inv src c) (httl : 0 ≤ src.ttl) (e : Event τ ρ κ) : Inv src (c.step src e) := by
  cases e with
  | arrive now live =>
    simp only [Cache.step, Cache.look]
    split
    · exact h.append fun _ => by simp
    · exact h.append fun _ => by simp
  | acquire i now live =>
    simp only [Cache.step, Cache.look]
    split
    · rename_i hwaiting hfree
      split
      · exact h.setTask (fun _ => by simp) (fun _ => by simp [hwaiting])
      · exact h.fill (List.getElem?_eq_some_iff.mp hwaiting).1 hfree ‹_›
    · exact h
  | finish i read live =>
    simp only [Cache.step]
    split
    · rename_i start hfilling
      split
      · exact h.complete httl hfilling ⟨read, live, ‹_›⟩
      · exact h.release hfilling
    · exact h
  | abort i =>
    simp only [Cache.step]
    split
    · rename_i hwaiting
      exact h.setTask (fun _ => by simp) (fun _ => by simp [hwaiting])
    · exact h.release ‹_›
    · exact h

/-- The invariant holds at the end of every run. -/
theorem inv_of_run (httl : 0 ≤ src.ttl) (es : List (Event τ ρ κ)) :
    Inv src (Run.exec (Cache.step src) empty es) :=
  Run.exec_invariant (fun _ e h => h.step httl e) (inv_empty src) es

/-- In a window of time there are no more readings than lifetimes, and one. -/
theorem Inv.length_window_le (h : Inv src c) {first last : τ} {fills : List (τ × β)}
    (hsublist : fills.Sublist c.fills) (hwindow : ∀ fill ∈ fills, first ≤ fill.1 ∧ fill.1 ≤ last)
    (hle : first ≤ last) : (fills.length - 1) • src.ttl ≤ last - first := by
  have hspaced : fills.Pairwise fun a b => a.1 + src.ttl ≤ b.1 := h.spaced.sublist hsublist
  clear hsublist
  induction fills generalizing first with
  | nil => simpa using hle
  | cons fill fills ih =>
    obtain ⟨hhead, htail⟩ := List.pairwise_cons.mp hspaced
    obtain ⟨hfirst, hlast⟩ := hwindow fill List.mem_cons_self
    cases fills with
    | nil => simpa using hle
    | cons fill' fills =>
      -- The rest lies in the window from a lifetime behind the first reading on.
      have hrest := @ih (fill.1 + src.ttl)
        (fun f hf => ⟨hhead f hf, (hwindow f (List.mem_cons_of_mem _ hf)).2⟩)
        ((hhead fill' List.mem_cons_self).trans
          (hwindow fill' (List.mem_cons_of_mem _ List.mem_cons_self)).2) htail
      simp only [List.length_cons, Nat.add_sub_cancel] at hrest ⊢
      calc (fills.length + 1) • src.ttl = fills.length • src.ttl + src.ttl := succ_nsmul _ _
        _ ≤ (last - (fill.1 + src.ttl)) + src.ttl := by gcongr
        _ = last - fill.1 := by abel
        _ ≤ last - first := sub_le_sub_left hfirst last

end Runs

end TtlCache
