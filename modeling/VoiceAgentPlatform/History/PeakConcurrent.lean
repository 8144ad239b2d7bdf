import Mathlib.Algebra.Order.Floor.Ring
import Mathlib.Algebra.Order.Ring.Rat
import Mathlib.Data.Rat.Floor
import VoiceAgentPlatform.Lib.PyVal
import VoiceAgentPlatform.Lib.Sweep

/-!
# The peak of concurrent calls

`_peak_concurrent` of `bot.py`: the rows of the call history that are finalised, swept by their starts and
ends.

* `peakConcurrent`: as the source has it.
* `activeAt`: how many finalised calls there are at an instant.
* `peakConcurrent_exact`: the peak is the greatest of these, in whatever order the rows are given.
-/

namespace History

/-- `int(value or 0)`; none if this raises. -/
def intOrZero (value : PyVal) : Option ℤ :=
  match value.orElse (.int 0) with
  | .int i => some i
  | .bool b => some (if b then 1 else 0)
  | .float q | .decimal q => some (q.num.tdiv q.den)
  | .str s => PyText.int? s
  | _ => none

/-- The events of a row: none unless it is finalised. -/
def rowEvents (r : PyDict) : Option (List (ℤ × ℤ)) := do
  let s ← intOrZero (r.get "started_at")
  let e ← intOrZero (r.get "ended_at")
  if e ≤ 0 ∨ e < s then return []
  return [(s, 1), (e, -1)]

/-- `_peak_concurrent`. -/
def peakConcurrent (rows : List PyDict) : Option ℤ := do
  let events ← rows.mapM rowEvents
  if events.flatten.isEmpty then return 0
  return Sweep.sweep events.flatten

/-- Both times of a row are numbers to `int`. -/
def IntegerLike (r : PyDict) : Prop :=
  (intOrZero (r.get "started_at")).isSome ∧ (intOrZero (r.get "ended_at")).isSome

instance (r : PyDict) : Decidable (IntegerLike r) := inferInstanceAs (Decidable (_ ∧ _))

def startedAt (r : PyDict) : ℤ := (intOrZero (r.get "started_at")).getD 0

def endedAt (r : PyDict) : ℤ := (intOrZero (r.get "ended_at")).getD 0

/-- The call of a row is over, and did not end before it began. -/
def Finalised (r : PyDict) : Prop := 0 < endedAt r ∧ startedAt r ≤ endedAt r

instance (r : PyDict) : Decidable (Finalised r) := inferInstanceAs (Decidable (_ ∧ _))

/-- How many finalised calls there are at an instant. -/
def activeAt (rows : List PyDict) (t : ℚ) : ℕ :=
  rows.countP fun r => Finalised r ∧ (startedAt r : ℚ) ≤ t ∧ t < endedAt r

/-- The time that each finalised call takes. -/
def spans (rows : List PyDict) : List (ℤ × ℤ) :=
  (rows.filter fun r => Finalised r).map fun r => (startedAt r, endedAt r)

theorem rowEvents_eq {r : PyDict} (h : IntegerLike r) :
    rowEvents r = some (if Finalised r then [(startedAt r, 1), (endedAt r, -1)] else []) := by
  obtain ⟨hs, he⟩ := h
  obtain ⟨s, hs⟩ := Option.isSome_iff_exists.mp hs
  obtain ⟨e, he⟩ := Option.isSome_iff_exists.mp he
  have hfinal : Finalised r ↔ ¬ (e ≤ 0 ∨ e < s) := by
    rw [Finalised, startedAt, endedAt, hs, he, not_or, not_le, not_lt]
    rfl
  simp only [rowEvents, hs, he, startedAt, endedAt, hfinal, bind, Option.bind, pure, Option.getD_some]
  split_ifs <;> rfl

/-- The events of all rows are the ends of the spans. -/
theorem mapM_rowEvents {rows : List PyDict} (h : ∀ r ∈ rows, IntegerLike r) :
    ∃ events, rows.mapM rowEvents = some events ∧ events.flatten = Sweep.ends (spans rows) := by
  induction rows with
  | nil => exact ⟨[], rfl, rfl⟩
  | cons r rows ih =>
    obtain ⟨hr, hrest⟩ := List.forall_mem_cons.mp h
    obtain ⟨events, hevents, hflatten⟩ := ih hrest
    refine ⟨_ :: events, by rw [List.mapM_cons, rowEvents_eq hr, hevents]; rfl, ?_⟩
    rw [List.flatten_cons, hflatten, spans, spans, List.filter_cons]
    split_ifs with hfinal hfinal' hfinal'
    · rfl
    · exact absurd (decide_eq_true hfinal) hfinal'
    · exact absurd (of_decide_eq_true hfinal') hfinal
    · rfl

theorem peakConcurrent_eq {rows : List PyDict} (h : ∀ r ∈ rows, IntegerLike r) :
    peakConcurrent rows = some (Sweep.sweep (Sweep.ends (spans rows))) := by
  obtain ⟨events, hevents, hflatten⟩ := mapM_rowEvents h
  rw [peakConcurrent, hevents]
  simp only [bind, Option.bind, pure, hflatten]
  split_ifs with hempty
  · rw [List.isEmpty_iff.mp hempty]
    rfl
  · rfl

/-- At an instant between two seconds there are as many calls as at the last second. -/
theorem activeAt_eq (rows : List PyDict) (t : ℚ) :
    activeAt rows t = Sweep.activeAt (spans rows) ⌊t⌋ := by
  rw [activeAt, Sweep.activeAt, spans, List.countP_map, List.countP_filter]
  refine List.countP_congr fun r _ => ?_
  simp only [Function.comp_apply, decide_eq_true_eq, Bool.and_eq_true, Int.le_floor, Int.floor_lt]
  exact and_comm

/-- After all calls there are none. -/
theorem exists_activeAt_eq_zero (rows : List PyDict) : ∃ t : ℚ, activeAt rows t = 0 := by
  have hbound : ∃ t : ℤ, ∀ r ∈ rows, endedAt r ≤ t := by
    induction rows with
    | nil => exact ⟨0, fun r hr => absurd hr List.not_mem_nil⟩
    | cons r rows ih =>
      obtain ⟨t, ht⟩ := ih
      refine ⟨max (endedAt r) t, List.forall_mem_cons.mpr ⟨le_max_left _ _, fun r hr => ?_⟩⟩
      exact (ht r hr).trans (le_max_right _ _)
  obtain ⟨t, ht⟩ := hbound
  refine ⟨t, List.countP_eq_zero.mpr fun r hr => ?_⟩
  simp only [decide_eq_true_eq, not_and, not_lt]
  exact fun _ _ => Int.cast_le.mpr (ht r hr)

theorem isGreatest_sweep (rows : List PyDict) :
    IsGreatest (Set.range fun t : ℚ => (activeAt rows t : ℤ)) (Sweep.sweep (Sweep.ends (spans rows))) := by
  have hspans : ∀ i ∈ spans rows, i.1 ≤ i.2 := by
    intro i hi
    obtain ⟨r, hr, rfl⟩ := List.mem_map.mp hi
    exact (of_decide_eq_true (List.mem_filter.mp hr).2 : Finalised r).2
  -- Times between two seconds count as the second before.
  have hrange : insert 0 (Set.range fun t => (Sweep.activeAt (spans rows) t : ℤ)) =
      Set.range fun t : ℚ => (activeAt rows t : ℤ) := by
    ext n
    constructor
    · rintro (rfl | ⟨t, rfl⟩)
      · obtain ⟨t, ht⟩ := exists_activeAt_eq_zero rows
        exact ⟨t, congrArg Nat.cast ht⟩
      · exact ⟨t, by simp only [activeAt_eq, Int.floor_intCast]⟩
    · rintro ⟨t, rfl⟩
      exact Or.inr ⟨⌊t⌋, by simp only [activeAt_eq]⟩
  rw [← hrange]
  exact Sweep.sweep_isGreatest hspans

theorem ends_perm {rows rows' : List PyDict} (h : rows.Perm rows') :
    (Sweep.ends (spans rows)).Perm (Sweep.ends (spans rows')) :=
  ((h.filter _).map _).flatMap_right _

/-- The peak is the greatest number of finalised calls at an instant, and the order of the rows does not
matter. -/
theorem peakConcurrent_exact (rows : List PyDict) (h : ∀ r ∈ rows, IntegerLike r) :
    ∃ peak, peakConcurrent rows = some peak ∧
      IsGreatest (Set.range fun t : ℚ => (activeAt rows t : ℤ)) peak ∧
      ∀ rows', rows.Perm rows' → peakConcurrent rows' = some peak := by
  refine ⟨_, peakConcurrent_eq h, isGreatest_sweep rows, fun rows' hperm => ?_⟩
  have h' : ∀ r ∈ rows', IntegerLike r := fun r hr => h r (hperm.mem_iff.mpr hr)
  rw [peakConcurrent_eq h', Sweep.sweep, Sweep.sweep, Sweep.sortEnds_congr (ends_perm hperm)]

/-- A call of no length, one that ends when the next begins, and a row that is not finalised. -/
def sampleRows : List PyDict :=
  [[("started_at", .int 5), ("ended_at", .int 5)], [("started_at", .int 2), ("ended_at", .int 5)],
    [("started_at", .decimal 5), ("ended_at", .int 9)], [("started_at", .int 3)]]

theorem peakConcurrent_exact_sampleRows :
    ∃ peak, peakConcurrent sampleRows = some peak ∧
      IsGreatest (Set.range fun t : ℚ => (activeAt sampleRows t : ℤ)) peak ∧
      ∀ rows', sampleRows.Perm rows' → peakConcurrent rows' = some peak :=
  peakConcurrent_exact sampleRows (by decide +kernel)

example : peakConcurrent sampleRows = some 1 := by decide +kernel

end History
