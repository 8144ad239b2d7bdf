import Mathlib.Data.List.DropRight
import Mathlib.Tactic.Linarith

/-!
# A switch with hysteresis

A noisy sequence of booleans is turned into a steady one: the switch goes on only after so many
consecutive inputs that are true, and off only after so many that are false. The inputs come in batches,
and the switch settles at the end of each.

* `trailing`: the length of the run that a history ends in.
* `Switch`: the output and the history, of which it is a settled one; `Switch.report`: a batch.
* `Switch.Paid`: the inputs that changes of the output have taken; `Switch.Paid.report_of_ne`: each takes
  as many of its own as its threshold says.
* `Switch.foldl_report_congr`: where no batch holds two inputs, the batches do not matter.
-/

namespace Hysteresis

/-! ### Runs at the end of a history -/

/-- The number of inputs at the end of a history that all are `b`. -/
def trailing (b : Bool) (history : List Bool) : ℕ := (history.rtakeWhile (· == b)).length

@[simp] theorem trailing_nil (b : Bool) : trailing b [] = 0 := rfl

theorem trailing_concat_self (b : Bool) (history : List Bool) :
    trailing b (history ++ [b]) = trailing b history + 1 := by
  rw [trailing, List.rtakeWhile_concat_pos _ _ _ (by simp), List.length_append, List.length_singleton]
  rfl

theorem trailing_concat_not (b : Bool) (history : List Bool) :
    trailing b (history ++ [!b]) = 0 := by
  rw [trailing, List.rtakeWhile_concat_neg _ _ _ (by simp), List.length_nil]

/-- A history ends in a run of one of the inputs only. -/
theorem trailing_not {b : Bool} {history : List Bool} (h : 0 < trailing b history) :
    trailing (!b) history = 0 := by
  induction history using List.reverseRecOn with
  | nil => rfl
  | append_singleton history last =>
    by_cases hlast : last = b
    · rw [← Bool.not_not b] at hlast
      rw [hlast, trailing_concat_not]
    · rw [Bool.eq_not_of_ne hlast, trailing_concat_not] at h
      omega

/-- Behind an input that is not `b`, a run of `b` is made up of the later inputs. -/
theorem trailing_append_le {b : Bool} {front : List Bool} (h : trailing b front = 0)
    (later : List Bool) : trailing b (front ++ later) ≤ later.length := by
  induction later using List.reverseRecOn with
  | nil => rw [List.append_nil, h]; rfl
  | append_singleton later last ih =>
    rw [← List.append_assoc, List.length_append, List.length_singleton]
    by_cases hlast : last = b
    · rw [hlast, trailing_concat_self]
      omega
    · rw [Bool.eq_not_of_ne hlast, trailing_concat_not]
      omega

/-! ### The switch -/

variable {up down : ℕ}

/-- The history ends in a run of `b`, and one that is long enough. -/
def Reached (b : Bool) (threshold : ℕ) (history : List Bool) : Prop :=
  max 1 threshold ≤ trailing b history

instance (b : Bool) (threshold : ℕ) (history : List Bool) : Decidable (Reached b threshold history) :=
  inferInstanceAs (Decidable (_ ≤ _))

theorem reached_iff {b : Bool} {threshold : ℕ} {history : List Bool} :
    Reached b threshold history ↔ 0 < trailing b history ∧ threshold ≤ trailing b history :=
  max_le_iff

theorem Reached.pos {b : Bool} {threshold : ℕ} {history : List Bool}
    (h : Reached b threshold history) : 0 < trailing b history := (reached_iff.mp h).1

theorem Reached.not_reached {b : Bool} {threshold threshold' : ℕ} {history : List Bool}
    (h : Reached b threshold history) : ¬ Reached (!b) threshold' history := by
  intro h'
  have hpos := h'.pos
  rw [trailing_not h.pos] at hpos
  exact Nat.lt_irrefl 0 hpos

/-- The output at the end of a batch, from the one before it and the history. -/
def settle (up down : ℕ) (on : Bool) (history : List Bool) : Bool :=
  if Reached true up history then true else if Reached false down history then false else on

theorem settle_settle (on : Bool) (history : List Bool) :
    settle up down (settle up down on history) history = settle up down on history := by
  unfold settle
  split_ifs <;> rfl

/-- A change of the output says that the history ends in a run of the new one. -/
theorem reached_of_settle_ne {on : Bool} {history : List Bool} (h : settle up down on history ≠ on) :
    Reached (!on) (if on then down else up) history := by
  unfold settle at h
  split_ifs at h with hup hdown
  · -- It goes on, and was not on before.
    cases on
    · exact hup
    · exact absurd rfl h
  · -- It goes off.
    cases on
    · exact absurd rfl h
    · exact hdown
  · exact absurd rfl h

/-- The output of the switch and the inputs so far, at the end of a batch. -/
@[ext]
structure Switch (up down : ℕ) where
  on : Bool
  history : List Bool
  settled : settle up down on history = on

namespace Switch

/-- The switch before its first input. -/
def off (up down : ℕ) : Switch up down :=
  { on := false, history := [], settled := by simp [settle, Reached] }

/-- A batch of inputs. -/
def report (s : Switch up down) (batch : List Bool) : Switch up down :=
  { on := settle up down s.on (s.history ++ batch), history := s.history ++ batch
    settled := settle_settle _ _ }

@[simp]
theorem history_report (s : Switch up down) (batch : List Bool) :
    (s.report batch).history = s.history ++ batch := rfl

theorem history_foldl_report (s : Switch up down) (batches : List (List Bool)) :
    (batches.foldl report s).history = s.history ++ batches.flatten := by
  induction batches generalizing s with
  | nil => exact (List.append_nil s.history).symm
  | cons batch batches ih =>
    rw [List.foldl_cons, ih, history_report, List.flatten_cons, List.append_assoc]

@[simp]
theorem report_nil (s : Switch up down) : s.report [] = s := by
  ext1
  · show settle up down s.on (s.history ++ []) = s.on
    rw [List.append_nil, s.settled]
  · exact List.append_nil s.history

/-- Batches of at most one input are the same as their inputs one by one. -/
theorem foldl_report_eq (s : Switch up down) {batches : List (List Bool)}
    (h : ∀ batch ∈ batches, batch.length ≤ 1) :
    batches.foldl report s = batches.flatten.foldl (fun s input => s.report [input]) s := by
  induction batches generalizing s with
  | nil => rfl
  | cons batch batches ih =>
    rw [List.foldl_cons, List.flatten_cons, List.foldl_append,
      ih _ fun batch hbatch => h batch (List.mem_cons_of_mem _ hbatch)]
    congr 1
    match batch, h batch List.mem_cons_self with
    | [], _ => exact s.report_nil
    | [_], _ => rfl

/-- Where no batch holds two inputs, the batches do not matter. -/
theorem foldl_report_congr (s : Switch up down) {batches batches' : List (List Bool)}
    (h : ∀ batch ∈ batches, batch.length ≤ 1) (h' : ∀ batch ∈ batches', batch.length ≤ 1)
    (hflatten : batches.flatten = batches'.flatten) :
    batches.foldl report s = batches'.foldl report s := by
  rw [foldl_report_eq s h, foldl_report_eq s h', hflatten]

/-- A change of the output ends the run of inputs that kept it. -/
theorem trailing_report_of_ne {s : Switch up down} {batch : List Bool} (h : (s.report batch).on ≠ s.on) :
    trailing s.on (s.report batch).history = 0 := by
  have hzero := trailing_not (reached_of_settle_ne h).pos
  rwa [Bool.not_not] at hzero

/-! ### What the changes take -/

/-- Changes of the output have taken `k` inputs: these are in front of those that the next change can be
made of. -/
def Paid (s : Switch up down) (k : ℕ) : Prop :=
  ∃ front later, s.history = front ++ later ∧ trailing (!s.on) front = 0 ∧ k ≤ front.length

theorem paid_off : (off up down).Paid 0 := ⟨[], [], rfl, rfl, Nat.le_refl 0⟩

theorem Paid.le {s : Switch up down} {k : ℕ} (h : s.Paid k) : k ≤ s.history.length := by
  obtain ⟨front, later, hhistory, -, hk⟩ := h
  rw [hhistory, List.length_append]
  omega

theorem Paid.report_of_eq {s : Switch up down} {k : ℕ} (h : s.Paid k) {batch : List Bool}
    (hon : (s.report batch).on = s.on) : (s.report batch).Paid k := by
  obtain ⟨front, later, hhistory, hfront, hk⟩ := h
  refine ⟨front, later ++ batch, ?_, by rw [hon]; exact hfront, hk⟩
  rw [history_report, hhistory, List.append_assoc]

/-- A change takes as many inputs of its own as its threshold says. -/
theorem Paid.report_of_ne {s : Switch up down} {k : ℕ} (h : s.Paid k) {batch : List Bool}
    (hon : (s.report batch).on ≠ s.on) :
    (s.report batch).Paid (k + max 1 (if s.on then down else up)) := by
  obtain ⟨front, later, hhistory, hfront, hk⟩ := h
  have hreport : (s.report batch).history = front ++ (later ++ batch) := by
    rw [history_report, hhistory, List.append_assoc]
  refine ⟨(s.report batch).history, [], (List.append_nil _).symm, ?_, ?_⟩
  · rw [Bool.eq_not_of_ne hon, Bool.not_not]
    exact trailing_report_of_ne hon
  · -- The run that makes the change is behind what the earlier ones took.
    have hrun : max 1 (if s.on then down else up) ≤ (later ++ batch).length := by
      refine le_trans ?_ (trailing_append_le hfront (later ++ batch))
      rw [← hreport]
      exact reached_of_settle_ne hon
    rw [hreport, List.length_append]
    omega

end Switch

end Hysteresis
