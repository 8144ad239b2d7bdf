import Mathlib.Algebra.BigOperators.Group.List.Basic
import Mathlib.Algebra.Order.BigOperators.Group.List
import Mathlib.Data.Int.Order.Basic
import Mathlib.Data.List.Induction
import Mathlib.Data.List.Sort
import Mathlib.Order.Bounds.Basic
import Mathlib.Tactic.Linarith

/-!
# Sweeping over intervals

Half-open intervals over a linear order, and the sweep that counts how many are open: it walks over the
ends of the intervals in their order, a stop before a start at the same time, and keeps the greatest count.

* `activeAt`: how many intervals are open at a time.
* `ends`, `sortEnds`, `sweep`: the ends of the intervals, their order, and the walk.
* `sweep_isGreatest`: the sweep finds the greatest count; its intermediate counts may be negative.
-/

namespace Sweep

variable {α : Type*} [LinearOrder α]

/-- How many intervals are open at a time. -/
def activeAt (intervals : List (α × α)) (t : α) : ℕ := intervals.countP fun i => i.1 ≤ t ∧ t < i.2

/-- The ends of the intervals, with what they add to the count. -/
def ends (intervals : List (α × α)) : List (α × ℤ) :=
  intervals.flatMap fun i => [(i.1, 1), (i.2, -1)]

/-- By time, and at the same time by what an end adds. -/
def Before (x y : α × ℤ) : Prop := x.1 < y.1 ∨ x.1 = y.1 ∧ x.2 ≤ y.2

instance : DecidableRel (Before : α × ℤ → α × ℤ → Prop) := fun x y =>
  inferInstanceAs (Decidable (x.1 < y.1 ∨ x.1 = y.1 ∧ x.2 ≤ y.2))

def sortEnds (events : List (α × ℤ)) : List (α × ℤ) := events.insertionSort Before

/-- The greatest count so far, and the count. -/
def step (s : ℤ × ℤ) (event : α × ℤ) : ℤ × ℤ :=
  let cur := s.2 + event.2
  (if cur > s.1 then cur else s.1, cur)

/-- The greatest count of the walk over the ends in their order. -/
def sweep (events : List (α × ℤ)) : ℤ := ((sortEnds events).foldl step (0, 0)).1

/-- What the ends in a list add. -/
def total (events : List (α × ℤ)) : ℤ := (events.map Prod.snd).sum

omit [LinearOrder α] in
theorem total_cons (event : α × ℤ) (events : List (α × ℤ)) :
    total (event :: events) = event.2 + total events := by
  rw [total, List.map_cons, List.sum_cons, total]

omit [LinearOrder α] in
theorem total_append (xs ys : List (α × ℤ)) : total (xs ++ ys) = total xs + total ys := by
  rw [total, List.map_append, List.sum_append, total, total]

instance : IsTrans (α × ℤ) Before where
  trans x y z hxy hyz := by
    rcases hxy with hxy | ⟨hxy, hle⟩ <;> rcases hyz with hyz | ⟨hyz, hle'⟩
    · exact Or.inl (hxy.trans hyz)
    · exact Or.inl (hyz ▸ hxy)
    · exact Or.inl (hxy ▸ hyz)
    · exact Or.inr ⟨hxy.trans hyz, hle.trans hle'⟩

instance : Std.Total (Before : α × ℤ → α × ℤ → Prop) where
  total x y := by
    rcases lt_trichotomy x.1 y.1 with h | h | h
    · exact Or.inl (Or.inl h)
    · exact (le_total x.2 y.2).imp (fun hle => Or.inr ⟨h, hle⟩) fun hle => Or.inr ⟨h.symm, hle⟩
    · exact Or.inr (Or.inl h)

theorem pairwise_sortEnds (events : List (α × ℤ)) : (sortEnds events).Pairwise Before :=
  List.pairwise_insertionSort Before events

theorem sortEnds_perm (events : List (α × ℤ)) : (sortEnds events).Perm events :=
  List.perm_insertionSort Before events

/-- Only which ends there are matters, not in which order they are given. -/
theorem sortEnds_congr {events events' : List (α × ℤ)} (h : events.Perm events') :
    sortEnds events = sortEnds events' := by
  refine (((sortEnds_perm events).trans h).trans (sortEnds_perm events').symm).eq_of_pairwise
    (fun x y _ _ hxy hyx => ?_) (pairwise_sortEnds events) (pairwise_sortEnds events')
  rcases hxy with hxy | ⟨hxy, hle⟩ <;> rcases hyx with hyx | ⟨hyx, hle'⟩
  · exact absurd hxy hyx.asymm
  · exact absurd hyx.symm hxy.ne
  · exact absurd hxy.symm hyx.ne
  · exact Prod.ext hxy (le_antisymm hle hle')

/-! ### The walk -/

omit [LinearOrder α] in
/-- The greatest count only grows. -/
theorem le_fst_foldl_step (events : List (α × ℤ)) (s : ℤ × ℤ) : s.1 ≤ (events.foldl step s).1 := by
  induction events generalizing s with
  | nil => exact le_rfl
  | cons event events ih =>
    refine le_trans ?_ (ih _)
    rw [step]
    split_ifs with hgt
    · exact hgt.le
    · exact le_rfl

omit [LinearOrder α] in
/-- The count after some of the ends is at most what the walk finds. -/
theorem le_foldl_step {best cur : ℤ} (h : cur ≤ best) (pre post : List (α × ℤ)) :
    cur + total pre ≤ ((pre ++ post).foldl step (best, cur)).1 := by
  induction pre generalizing best cur with
  | nil =>
    rw [total, List.map_nil, List.sum_nil, add_zero]
    exact h.trans (le_fst_foldl_step post (best, cur))
  | cons event pre ih =>
    have hnext : cur + event.2 ≤ if cur + event.2 > best then cur + event.2 else best := by
      split_ifs with hgt
      · exact le_rfl
      · exact not_lt.mp hgt
    rw [total_cons, ← add_assoc]
    exact ih hnext

omit [LinearOrder α] in
/-- What the walk finds is the count after some of the ends. -/
theorem foldl_step_eq (events : List (α × ℤ)) (best cur : ℤ) :
    (events.foldl step (best, cur)).1 = best ∨
      ∃ pre post, events = pre ++ post ∧ (events.foldl step (best, cur)).1 = cur + total pre := by
  induction events generalizing best cur with
  | nil => exact Or.inl rfl
  | cons event events ih =>
    rw [List.foldl_cons]
    rcases ih (step (best, cur) event).1 (step (best, cur) event).2 with hbest | ⟨pre, post, heq, hpre⟩
    · simp only [Prod.mk.eta] at hbest
      rw [hbest]
      simp only [step]
      -- The first event sets the best value, or it stays as it was.
      split_ifs
      · exact Or.inr ⟨[event], events, rfl, by simp [total]⟩
      · exact Or.inl rfl
    · simp only [Prod.mk.eta] at hpre
      refine Or.inr ⟨event :: pre, post, by rw [heq, List.cons_append], ?_⟩
      rw [hpre, total_cons, ← add_assoc]
      rfl

/-! ### The count at a time -/

/-- The ends up to a time. -/
def upTo (t : α) (events : List (α × ℤ)) : List (α × ℤ) := events.filter fun e => e.1 ≤ t

/-- What the ends up to a time add is the count at this time. -/
theorem total_upTo_ends {intervals : List (α × α)} (h : ∀ i ∈ intervals, i.1 ≤ i.2) (t : α) :
    total (upTo t (ends intervals)) = activeAt intervals t := by
  induction intervals with
  | nil => rfl
  | cons i intervals ih =>
    obtain ⟨hi, hrest⟩ := List.forall_mem_cons.mp h
    have hcons : ends (i :: intervals) = [(i.1, 1), (i.2, -1)] ++ ends intervals := rfl
    rw [hcons, upTo, List.filter_append, total_append, ← upTo, ← upTo, ih hrest, activeAt, activeAt,
      List.countP_cons]
    -- The interval has not begun, is open, or is over.
    rcases lt_or_ge t i.1 with hbegin | hbegin
    · have hend : ¬ i.2 ≤ t := (hbegin.trans_le hi).not_ge
      simp [upTo, total, hbegin.not_ge, hend]
    · rcases lt_or_ge t i.2 with hend | hend
      · simp [upTo, total, hbegin, hend, hend.not_ge, add_comm]
      · simp [upTo, total, hbegin, hend, hend.not_gt]

omit [LinearOrder α] in
theorem total_perm {xs ys : List (α × ℤ)} (h : xs.Perm ys) : total xs = total ys :=
  (h.map Prod.snd).sum_eq

/-- Of sorted ends, those up to a time stand in front. -/
theorem upTo_isPrefix {events : List (α × ℤ)} (h : events.Pairwise Before)
    (t : α) : upTo t events <+: events := by
  induction events with
  | nil => exact List.prefix_rfl
  | cons event events ih =>
    rw [List.pairwise_cons] at h
    rw [upTo, List.filter_cons]
    split_ifs with hle
    · exact List.prefix_cons_inj event |>.mpr (ih h.2)
    · -- The events are sorted, so behind a later one all are later.
      have hnone : events.filter (fun e => e.1 ≤ t) = [] := by
        rw [List.filter_eq_nil_iff]
        intro e he
        have hlt : t < event.1 := by simpa using hle
        have hbefore : event.1 ≤ e.1 := (h.1 e he).elim le_of_lt fun heq => heq.1.le
        simpa using hlt.trans_le hbefore
      rw [hnone]
      exact List.nil_prefix

/-- After a start, no more than the starts at the same time are still to come at this time. -/
theorem total_le_of_start {pre post : List (α × ℤ)} {t : α}
    (h : (pre ++ (t, 1) :: post).Pairwise Before) :
    total (pre ++ [(t, 1)]) ≤ total (upTo t (pre ++ (t, 1) :: post)) := by
  obtain ⟨-, hpost, hpre⟩ := List.pairwise_append.mp h
  have hfront : upTo t pre = pre := by
    refine List.filter_eq_self.mpr fun e he => ?_
    simpa using (hpre e he (t, 1) List.mem_cons_self).elim le_of_lt fun heq => heq.1.le
  -- Behind it, what is at the same time are starts only.
  have hlater : 0 ≤ total (upTo t post) := by
    refine List.sum_nonneg fun d hd => ?_
    obtain ⟨e, he, rfl⟩ := List.mem_map.mp hd
    obtain ⟨he, hle⟩ := List.mem_filter.mp he
    have hle : e.1 ≤ t := by simpa using hle
    rcases (List.pairwise_cons.mp hpost).1 e he with hlt | ⟨-, hdelta⟩
    · exact absurd hlt hle.not_gt
    · exact zero_le_one.trans hdelta
  have hself : upTo t ((t, 1) :: post) = [(t, 1)] ++ upTo t post := by
    rw [upTo, List.filter_cons_of_pos (by simp)]
    rfl
  rw [upTo, List.filter_append, ← upTo, ← upTo, hfront, hself, ← List.append_assoc,
    total_append (pre ++ [(t, 1)])]
  exact le_add_of_nonneg_right hlater

/-- The count after some of the sorted ends is at most the count at some time. -/
theorem total_le_active {intervals : List (α × α)} (h : ∀ i ∈ intervals, i.1 ≤ i.2)
    {pre post : List (α × ℤ)} (heq : sortEnds (ends intervals) = pre ++ post) :
    total pre ≤ 0 ∨ ∃ t, total pre ≤ activeAt intervals t := by
  induction pre using List.reverseRec generalizing post with
  | nil => exact Or.inl le_rfl
  | append_singleton pre event ih =>
    rw [List.append_assoc] at heq
    have hmem : event ∈ ends intervals := by
      refine (sortEnds_perm _).mem_iff.mp (heq ▸ ?_)
      exact List.mem_append_right _ (List.mem_append_left _ List.mem_cons_self)
    obtain ⟨i, hi, hevent⟩ := List.mem_flatMap.mp hmem
    rw [List.mem_cons, List.mem_singleton] at hevent
    rcases hevent with rfl | rfl
    · -- A start: the ends up to its time are those of the count at this time.
      refine Or.inr ⟨i.1, ?_⟩
      have hsorted := pairwise_sortEnds (ends intervals)
      rw [heq] at hsorted
      have hperm : (upTo i.1 (sortEnds (ends intervals))).Perm (upTo i.1 (ends intervals)) :=
        (sortEnds_perm _).filter _
      calc total (pre ++ [(i.1, 1)]) ≤ total (upTo i.1 (pre ++ (i.1, 1) :: post)) :=
            total_le_of_start hsorted
        _ = total (upTo i.1 (sortEnds (ends intervals))) := by rw [heq]; rfl
        _ = activeAt intervals i.1 := by rw [total_perm hperm, total_upTo_ends h]
    · -- A stop: the count was greater before it.
      have hless : total (pre ++ [(i.2, -1)]) ≤ total pre := by
        rw [total_append]
        simp [total]
      exact (ih heq).imp hless.trans fun ⟨t, ht⟩ => ⟨t, hless.trans ht⟩

/-- The sweep finds the greatest count of open intervals, which is nothing less than zero. -/
theorem sweep_isGreatest {intervals : List (α × α)} (h : ∀ i ∈ intervals, i.1 ≤ i.2) :
    IsGreatest (insert 0 (Set.range fun t => (activeAt intervals t : ℤ))) (sweep (ends intervals)) := by
  -- Up to any time, the sweep has counted what is active then.
  have hle : ∀ t, (activeAt intervals t : ℤ) ≤ sweep (ends intervals) := by
    intro t
    obtain ⟨post, hpost⟩ := upTo_isPrefix (pairwise_sortEnds (ends intervals)) t
    have hperm : (upTo t (sortEnds (ends intervals))).Perm (upTo t (ends intervals)) :=
      (sortEnds_perm _).filter _
    have hcount := le_foldl_step (le_refl (0 : ℤ)) (upTo t (sortEnds (ends intervals))) post
    rwa [hpost, zero_add, total_perm hperm, total_upTo_ends h] at hcount
  have hnonneg : 0 ≤ sweep (ends intervals) := le_fst_foldl_step _ (0, 0)
  refine ⟨?_, ?_⟩
  · rcases foldl_step_eq (sortEnds (ends intervals)) 0 0 with hzero | ⟨pre, post, heq, hpre⟩
    · exact Or.inl hzero
    · rw [zero_add] at hpre
      have hsweep : sweep (ends intervals) = total pre := hpre
      rcases total_le_active h heq with hle0 | ⟨t, ht⟩
      · exact Or.inl (le_antisymm (hsweep.trans_le hle0) hnonneg)
      · exact Or.inr ⟨t, le_antisymm (hle t) (hsweep.trans_le ht)⟩
  · rintro x (rfl | ⟨t, rfl⟩)
    · exact hnonneg
    · exact hle t

end Sweep
