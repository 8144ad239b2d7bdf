import Mathlib.Data.List.Infix

/-!
# Runs of an event-driven system

A system is given by a total step function `step : σ → ε → σ`: an event that is not enabled in a
state leaves the state as it is. A run is a list of events, so "for every run" quantifies over
every sequence and every interleaving of the events.

* `exec step s es`: the state after the events `es`.
* `Always step P s es`: `P` holds in every state the run passes through.
* `Guarded step G s es`: every event of the run meets `G`, judged in the state before it.

The rules below turn facts about one step into facts about runs; `always_iff_guarded` is the one
for a property that a run keeps exactly as long as its steps meet a condition.
-/

namespace Run

variable {σ ε : Type*} {step : σ → ε → σ} {P I : σ → Prop} {G : σ → ε → Prop}

/-- The state after the events `es`, taken in order. -/
def exec (step : σ → ε → σ) (s : σ) (es : List ε) : σ :=
  es.foldl step s

@[simp]
theorem exec_nil (s : σ) : exec step s [] = s := rfl

@[simp]
theorem exec_cons (s : σ) (e : ε) (es : List ε) :
    exec step s (e :: es) = exec step (step s e) es := rfl

theorem exec_append (s : σ) (es es' : List ε) :
    exec step s (es ++ es') = exec step (exec step s es) es' := by
  simp [exec]

/-- `P` holds in every state the run passes through, the first and the last included. -/
def Always (step : σ → ε → σ) (P : σ → Prop) : σ → List ε → Prop
  | s, [] => P s
  | s, e :: es => P s ∧ Always step P (step s e) es

/-- Every event of the run meets `G` in the state in which it occurs. -/
def Guarded (step : σ → ε → σ) (G : σ → ε → Prop) : σ → List ε → Prop
  | _, [] => True
  | s, e :: es => G s e ∧ Guarded step G (step s e) es

instance Guarded.decidable [∀ s e, Decidable (G s e)] :
    ∀ (s : σ) (es : List ε), Decidable (Guarded step G s es)
  | _, [] => isTrue trivial
  | s, e :: es =>
    have := Guarded.decidable (step s e) es
    inferInstanceAs (Decidable (G s e ∧ Guarded step G (step s e) es))

/-- The first state of a run satisfies what always holds. -/
theorem Always.head {s : σ} {es : List ε} (h : Always step P s es) : P s := by
  cases es with
  | nil => exact h
  | cons e es => exact h.1

/-- `Always` is satisfaction after every prefix of the events. -/
theorem always_iff_prefixes {s : σ} {es : List ε} :
    Always step P s es ↔ ∀ pre, pre <+: es → P (exec step s pre) := by
  induction es generalizing s with
  | nil => simp [Always]
  | cons e es ih =>
    rw [Always, ih]
    constructor
    · rintro ⟨hs, hrest⟩ pre hpre
      cases pre with
      | nil => exact hs
      | cons e' pre =>
        obtain ⟨rfl, hpre'⟩ := List.cons_prefix_cons.mp hpre
        exact hrest pre hpre'
    · intro h
      refine ⟨h [] List.nil_prefix, fun pre hpre => ?_⟩
      exact h (e :: pre) (List.cons_prefix_cons.mpr ⟨rfl, hpre⟩)

/-- What always holds may be weakened. -/
theorem Always.mono {Q : σ → Prop} {s : σ} {es : List ε} (h : Always step P s es)
    (hPQ : ∀ s, P s → Q s) : Always step Q s es :=
  always_iff_prefixes.mpr fun pre hpre => hPQ _ (always_iff_prefixes.mp h pre hpre)

/-- A map between the states of two systems that commutes with their steps carries properties
over. -/
theorem always_map {τ : Type*} {step' : τ → ε → τ} (f : σ → τ)
    (hf : ∀ s e, f (step s e) = step' (f s) e) {Q : τ → Prop} {s : σ} {es : List ε} :
    Always step (fun s => Q (f s)) s es ↔ Always step' Q (f s) es := by
  induction es generalizing s with
  | nil => rfl
  | cons e es ih => rw [Always, Always, ih, hf]

/-- The last state of a run satisfies what always holds. -/
theorem Always.last {s : σ} {es : List ε} (h : Always step P s es) : P (exec step s es) :=
  always_iff_prefixes.mp h es List.prefix_rfl

/-- `Guarded` is the guard at every split of the events around one of them. -/
theorem guarded_iff_split {s : σ} {es : List ε} :
    Guarded step G s es ↔
      ∀ pre e post, es = pre ++ e :: post → G (exec step s pre) e := by
  induction es generalizing s with
  | nil => simp [Guarded]
  | cons e es ih =>
    rw [Guarded, ih]
    constructor
    · rintro ⟨hs, hrest⟩ pre e' post heq
      -- The step is the first one, or one of the rest.
      cases pre with
      | nil =>
        obtain ⟨rfl, -⟩ := List.cons.inj heq
        exact hs
      | cons e'' pre =>
        obtain ⟨rfl, heq'⟩ := List.cons.inj heq
        exact hrest pre e' post heq'
    · intro h
      exact ⟨h [] e es rfl, fun pre e' post heq => h (e :: pre) e' post (by rw [heq]; rfl)⟩

/-- A guard that does not look at the state is met by every event of the run. -/
theorem guarded_iff_forall {H : ε → Prop} {s : σ} {es : List ε} :
    Guarded step (fun _ e => H e) s es ↔ ∀ e ∈ es, H e := by
  induction es generalizing s with
  | nil => simp [Guarded]
  | cons e es ih => rw [Guarded, ih, List.forall_mem_cons]

/-- An invariant of every step holds at the end of every run. -/
theorem exec_invariant (hstep : ∀ s e, I s → I (step s e)) {s : σ} (hs : I s) (es : List ε) :
    I (exec step s es) := by
  induction es generalizing s with
  | nil => exact hs
  | cons e es ih => exact ih (hstep s e hs)

/-- An invariant of every step holds throughout every run. -/
theorem always_of_invariant (hstep : ∀ s e, I s → I (step s e)) {s : σ} (hs : I s)
    (es : List ε) : Always step I s es :=
  always_iff_prefixes.mpr fun pre _ => exec_invariant hstep hs pre

/-- A property that steps meeting `G` preserve holds throughout every run guarded by `G`. -/
theorem always_of_guarded (hstep : ∀ s e, P s → G s e → P (step s e)) {s : σ} (hs : P s)
    {es : List ε} (hG : Guarded step G s es) : Always step P s es := by
  induction es generalizing s with
  | nil => exact hs
  | cons e es ih => exact ⟨hs, ih (hstep s e hs hG.1) hG.2⟩

/-- The end of a guarded run satisfies what guarded steps preserve. -/
theorem exec_of_guarded (hstep : ∀ s e, P s → G s e → P (step s e)) {s : σ} (hs : P s)
    {es : List ε} (hG : Guarded step G s es) : P (exec step s es) :=
  (always_of_guarded hstep hs hG).last

/-- Let `J` imply `P`, let steps that meet `G` preserve `J`, and let a step from `J` that does not
meet `G` break `P`. Then a run from `J` keeps `P` throughout exactly when all its steps meet
`G`. -/
theorem always_iff_guarded {J : σ → Prop} (hP : ∀ s, J s → P s)
    (hgood : ∀ s e, J s → G s e → J (step s e))
    (hbad : ∀ s e, J s → ¬ G s e → ¬ P (step s e)) {s : σ} (hs : J s) (es : List ε) :
    Always step P s es ↔ Guarded step G s es := by
  induction es generalizing s with
  | nil => simp [Always, Guarded, hP s hs]
  | cons e es ih =>
    rw [Always, Guarded]
    constructor
    · rintro ⟨-, hrest⟩
      have hG : G s e := by
        by_contra hG
        exact hbad s e hs hG hrest.head
      exact ⟨hG, (ih (hgood s e hs hG)).mp hrest⟩
    · rintro ⟨hG, hrest⟩
      exact ⟨hP s hs, (ih (hgood s e hs hG)).mpr hrest⟩

/-- A conjunction of guards is guarded by both. -/
theorem guarded_and {G' : σ → ε → Prop} {s : σ} {es : List ε} :
    Guarded step (fun s e => G s e ∧ G' s e) s es ↔
      Guarded step G s es ∧ Guarded step G' s es := by
  induction es generalizing s with
  | nil => simp [Guarded]
  | cons e es ih =>
    simp only [Guarded, ih]
    tauto

/-- A guard that keeps an invariant and implies another one under it implies it along runs. -/
theorem Guarded.mono {G' : σ → ε → Prop} (hI : ∀ s e, I s → G s e → I (step s e))
    (h : ∀ s e, I s → G s e → G' s e) {s : σ} (hs : I s) {es : List ε}
    (hG : Guarded step G s es) : Guarded step G' s es := by
  induction es generalizing s with
  | nil => trivial
  | cons e es ih => exact ⟨h s e hs hG.1, ih (hI s e hs hG.1) hG.2⟩

/-- What a run has written into a log that every step extends by what it emits. -/
theorem mem_log_exec {α : Type*} {log : σ → List α} {emit : σ → ε → Option α}
    (hlog : ∀ s e, log (step s e) = log s ++ (emit s e).toList) {s : σ} {es : List ε} {a : α} :
    a ∈ log (exec step s es) ↔ a ∈ log s ∨
      ∃ pre e post, es = pre ++ e :: post ∧ emit (exec step s pre) e = some a := by
  induction es generalizing s with
  | nil => simp
  | cons e es ih =>
    rw [exec_cons, ih, hlog, List.mem_append, Option.mem_toList, or_assoc]
    refine or_congr Iff.rfl ⟨?_, ?_⟩
    · rintro (hemit | ⟨pre, e', post, rfl, hemit⟩)
      · exact ⟨[], e, es, rfl, hemit⟩
      · exact ⟨e :: pre, e', post, rfl, hemit⟩
    · rintro ⟨pre, e', post, heq, hemit⟩
      -- The emitting event is the first one, or one of the rest.
      cases pre with
      | nil =>
        obtain ⟨rfl, rfl⟩ := List.cons.inj heq
        exact .inl hemit
      | cons e'' pre =>
        obtain ⟨rfl, rfl⟩ := List.cons.inj heq
        exact .inr ⟨pre, e', post, rfl, hemit⟩

end Run
