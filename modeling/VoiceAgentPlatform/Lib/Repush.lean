import VoiceAgentPlatform.Lib.Run

/-!
# Events that come again

Runs in which an event can come again later, as a message that passes several observation points does.
A key tells which events are the same.

* `Repushed key seen base pushed`: `pushed` is `base` with events pushed again at later positions.
* `firsts key seen es`: the events that were not pushed before.
* `Ignores step key Seen`: the system ignores what it has seen; `Ignores.exec_repushed` says that such
  a system does not notice repeated events.
-/

namespace Run

variable {σ ε κ : Type*} {step : σ → ε → σ} {key : ε → κ} {Seen : σ → κ → Prop}

/-- `pushed` is `base`, with events in it whose keys were pushed before; `seen` are the keys pushed so
far. -/
inductive Repushed (key : ε → κ) : List κ → List ε → List ε → Prop where
  | nil (seen : List κ) : Repushed key seen [] []
  | first {seen : List κ} {e : ε} {base pushed : List ε} :
      Repushed key (key e :: seen) base pushed → Repushed key seen (e :: base) (e :: pushed)
  | again {seen : List κ} {e : ε} {base pushed : List ε} :
      key e ∈ seen → Repushed key seen base pushed → Repushed key seen base (e :: pushed)

/-- The events whose keys were not pushed before; `seen` are the keys pushed so far. -/
def firsts [DecidableEq κ] (key : ε → κ) : List κ → List ε → List ε
  | _, [] => []
  | seen, e :: es =>
    if key e ∈ seen then firsts key seen es else e :: firsts key (key e :: seen) es

/-- Only which keys were pushed matters, not in which order. -/
theorem firsts_congr [DecidableEq κ] {seen seen' : List κ} (h : ∀ k, k ∈ seen ↔ k ∈ seen')
    (es : List ε) : firsts key seen es = firsts key seen' es := by
  induction es generalizing seen seen' with
  | nil => rfl
  | cons e es ih =>
    have hmore (k : κ) : k ∈ key e :: seen ↔ k ∈ key e :: seen' := by
      rw [List.mem_cons, List.mem_cons, h k]
    rw [firsts, firsts, ih h, ih hmore]
    simp only [h]

theorem mem_of_mem_firsts [DecidableEq κ] {seen : List κ} {es : List ε} {e : ε} (h : e ∈ firsts key seen es) :
    e ∈ es ∧ key e ∉ seen := by
  induction es generalizing seen with
  | nil => exact absurd h List.not_mem_nil
  | cons e' es ih =>
    rw [firsts] at h
    split_ifs at h with hseen
    · exact ⟨List.mem_cons_of_mem _ (ih h).1, (ih h).2⟩
    · rcases List.mem_cons.mp h with rfl | h
      · exact ⟨List.mem_cons_self, hseen⟩
      · obtain ⟨hmem, hnew⟩ := ih h
        exact ⟨List.mem_cons_of_mem _ hmem, fun hold => hnew (List.mem_cons_of_mem _ hold)⟩

theorem nodup_firsts [DecidableEq κ] (seen : List κ) (es : List ε) : ((firsts key seen es).map key).Nodup := by
  induction es generalizing seen with
  | nil => exact List.nodup_nil
  | cons e es ih =>
    rw [firsts]
    split_ifs
    · exact ih seen
    · rw [List.map_cons, List.nodup_cons]
      refine ⟨fun hmem => ?_, ih _⟩
      obtain ⟨e', he', hkey⟩ := List.mem_map.mp hmem
      exact (mem_of_mem_firsts he').2 (hkey ▸ List.mem_cons_self)

/-- The first event of a new key is the first one of this key. -/
theorem find?_firsts [DecidableEq κ] {seen : List κ} {k : κ} (h : k ∉ seen) (es : List ε) :
    (firsts key seen es).find? (fun e => key e = k) = es.find? fun e => key e = k := by
  induction es generalizing seen with
  | nil => rfl
  | cons e es ih =>
    rw [firsts]
    by_cases hk : key e = k
    · rw [if_neg (hk ▸ h), List.find?_cons_of_pos (by simpa using hk),
        List.find?_cons_of_pos (by simpa using hk)]
    · have hrest : es.find? (fun e => key e = k) = (e :: es).find? fun e => key e = k := by
        rw [List.find?_cons_of_neg (by simpa using hk)]
      rw [← hrest]
      split_ifs with hseen
      · exact ih h
      · rw [List.find?_cons_of_neg (by simpa using hk)]
        exact ih fun hmem => (List.mem_cons.mp hmem).elim (fun heq => hk heq.symm) h

/-- The system remembers the keys of its events and ignores an event whose key it has seen. -/
structure Ignores (step : σ → ε → σ) (key : ε → κ) (Seen : σ → κ → Prop) : Prop where
  ignores : ∀ s e, Seen s (key e) → step s e = s
  marks : ∀ s e, Seen (step s e) (key e)
  keeps : ∀ s e k, Seen s k → Seen (step s e) k

/-- A system that ignores what it has seen does not notice what is pushed again. -/
theorem Ignores.exec_repushed (h : Ignores step key Seen) {seen : List κ} {base pushed : List ε}
    (hpushed : Repushed key seen base pushed) {s : σ} (hs : ∀ k ∈ seen, Seen s k) :
    exec step s pushed = exec step s base := by
  induction hpushed generalizing s with
  | nil => rfl
  | first _ ih => exact ih (List.forall_mem_cons.mpr ⟨h.marks s _, fun k hk => h.keeps s _ k (hs k hk)⟩)
  | again hmem _ ih =>
    rw [exec_cons, h.ignores s _ (hs _ hmem)]
    exact ih hs

namespace Repushed

variable {seen : List κ} {base pushed : List ε}

theorem refl (es : List ε) (seen : List κ) : Repushed key seen es es := by
  induction es generalizing seen with
  | nil => exact .nil seen
  | cons e es ih => exact .first (ih (key e :: seen))

/-- A coarser key tells the repeated events as well. -/
theorem map {τ : Type*} (g : κ → τ) (h : Repushed key seen base pushed) :
    Repushed (fun e => g (key e)) (seen.map g) base pushed := by
  induction h with
  | nil => exact .nil _
  | first _ ih => exact .first ih
  | again hmem _ ih => exact .again (List.mem_map_of_mem hmem) ih

/-- Nothing is pushed but the events and what was pushed before. -/
theorem key_mem (h : Repushed key seen base pushed) :
    ∀ e ∈ pushed, key e ∈ base.map key ∨ key e ∈ seen := by
  induction h with
  | nil => exact nofun
  | first _ ih =>
    intro e he
    rcases List.mem_cons.mp he with rfl | he
    · exact Or.inl List.mem_cons_self
    · -- Seen before means seen at first, or just now.
      rcases ih e he with hbase | hseen
      · exact Or.inl (List.mem_cons_of_mem _ hbase)
      · rcases List.mem_cons.mp hseen with heq | hseen
        · exact Or.inl (heq ▸ List.mem_cons_self)
        · exact Or.inr hseen
  | again hmem _ ih =>
    intro e he
    rcases List.mem_cons.mp he with rfl | he
    · exact Or.inr hmem
    · exact ih e he

/-- Distinct events are the first pushes. -/
theorem firsts_eq [DecidableEq κ] (h : Repushed key seen base pushed) (hdistinct : (base.map key).Nodup)
    (hnew : ∀ e ∈ base, key e ∉ seen) : firsts key seen pushed = base := by
  induction h with
  | nil => rfl
  | first _ ih =>
    rw [List.map_cons, List.nodup_cons] at hdistinct
    obtain ⟨he, hnew⟩ := List.forall_mem_cons.mp hnew
    rw [firsts, if_neg he, ih hdistinct.2]
    intro e he' hmem
    rcases List.mem_cons.mp hmem with heq | hmem
    · exact hdistinct.1 (heq ▸ List.mem_map_of_mem he')
    · exact hnew e he' hmem
  | again hmem _ ih =>
    rw [firsts, if_pos hmem]
    exact ih hdistinct hnew

end Repushed

end Run
