import Mathlib.Algebra.BigOperators.Group.List.Basic
import Mathlib.Algebra.GroupWithZero.Nat
import Mathlib.Data.List.Count
import Mathlib.Data.List.Nodup

/-!
# Tallies

A dictionary of counters: for each label its counter is raised by one, and a label without a counter
gets one at the end. Labels are the same if they have the same value under `ident`; a counter keeps the
label it was made for.

* `bump`, `tally`: one label, and a list of labels.
* `count_tally`: a counter has been raised by the number of its labels.
* `total_tally`: the counters together have been raised by the number of all labels.
* `nodup_tally`, `mem_idents_tally`: a label has one counter at most, and one if it was counted.
* `count_tally_perm`: the order in which labels are counted does not matter to a counter.
-/

namespace Tally

variable {κ δ : Type} [DecidableEq δ] (ident : κ → δ)

/-- What the counter of a label shows: 0 if there is none. -/
def count (label : κ) : List (κ × ℕ) → ℕ
  | [] => 0
  | bucket :: buckets => if ident bucket.1 = ident label then bucket.2 else count label buckets

/-- Raise the counter of a label. -/
def bump (label : κ) : List (κ × ℕ) → List (κ × ℕ)
  | [] => [(label, 1)]
  | bucket :: buckets =>
    if ident bucket.1 = ident label then (bucket.1, bucket.2 + 1) :: buckets
    else bucket :: bump label buckets

/-- Count the labels. -/
def tally (buckets : List (κ × ℕ)) (labels : List κ) : List (κ × ℕ) :=
  labels.foldl (fun buckets label => bump ident label buckets) buckets

/-- All that was counted. -/
def total (buckets : List (κ × ℕ)) : ℕ := (buckets.map Prod.snd).sum

/-- The labels that have a counter, as they are told apart. -/
def idents (buckets : List (κ × ℕ)) : List δ := buckets.map fun bucket => ident bucket.1

variable {ident}

/-- Raising a counter raises that one, and no other. -/
theorem count_bump (label label' : κ) (buckets : List (κ × ℕ)) :
    count ident label' (bump ident label buckets) =
      count ident label' buckets + if ident label = ident label' then 1 else 0 := by
  induction buckets with
  | nil => simp only [bump, count, Nat.zero_add]
  | cons bucket buckets ih =>
    rw [bump]
    by_cases hbucket : ident bucket.1 = ident label
    · rw [if_pos hbucket, count, count, hbucket]
      split_ifs <;> rfl
    · rw [if_neg hbucket, count, count, ih]
      by_cases hbucket' : ident bucket.1 = ident label'
      · have hne : ident label ≠ ident label' := fun h => hbucket (hbucket'.trans h.symm)
        rw [if_pos hbucket', if_pos hbucket', if_neg hne, Nat.add_zero]
      · rw [if_neg hbucket', if_neg hbucket']

theorem total_bump (label : κ) (buckets : List (κ × ℕ)) :
    total (bump ident label buckets) = total buckets + 1 := by
  induction buckets with
  | nil => rfl
  | cons bucket buckets ih =>
    rw [bump]
    split_ifs
    · simp only [total, List.map_cons, List.sum_cons]
      omega
    · simp only [total, List.map_cons, List.sum_cons] at ih ⊢
      omega

omit [DecidableEq δ] in
theorem idents_cons (bucket : κ × ℕ) (buckets : List (κ × ℕ)) :
    idents ident (bucket :: buckets) = ident bucket.1 :: idents ident buckets := rfl

/-- The labels that have a counter after one is raised. -/
theorem idents_bump (label : κ) (buckets : List (κ × ℕ)) :
    idents ident (bump ident label buckets) =
      if ident label ∈ idents ident buckets then idents ident buckets
      else idents ident buckets ++ [ident label] := by
  induction buckets with
  | nil => rfl
  | cons bucket buckets ih =>
    rw [bump]
    by_cases hbucket : ident bucket.1 = ident label
    · rw [if_pos hbucket, idents_cons, idents_cons, if_pos]
      exact hbucket ▸ List.mem_cons_self
    · simp only [if_neg hbucket, idents_cons, ih, List.mem_cons, Ne.symm hbucket, false_or]
      by_cases hmem : ident label ∈ idents ident buckets
      · rw [if_pos hmem, if_pos hmem]
      · rw [if_neg hmem, if_neg hmem, List.cons_append]

theorem nodup_bump {buckets : List (κ × ℕ)} (h : (idents ident buckets).Nodup) (label : κ) :
    (idents ident (bump ident label buckets)).Nodup := by
  rw [idents_bump]
  split_ifs with hmem
  · exact h
  · exact List.concat_eq_append ▸ h.concat hmem

/-- A counter has been raised by the number of its labels. -/
theorem count_tally (label : κ) (buckets : List (κ × ℕ)) (labels : List κ) :
    count ident label (tally ident buckets labels) =
      count ident label buckets + labels.countP fun label' => ident label' = ident label := by
  induction labels generalizing buckets with
  | nil => rfl
  | cons label' labels ih =>
    have htail := ih (bump ident label' buckets)
    rw [tally, List.foldl_cons, ← tally, htail, count_bump, List.countP_cons]
    simp only [decide_eq_true_eq]
    omega

/-- The counters together have been raised by the number of all labels. -/
theorem total_tally (buckets : List (κ × ℕ)) (labels : List κ) :
    total (tally ident buckets labels) = total buckets + labels.length := by
  induction labels generalizing buckets with
  | nil => rfl
  | cons label labels ih =>
    rw [tally, List.foldl_cons, ← tally, ih, total_bump, List.length_cons]
    omega

/-- A label has one counter at most. -/
theorem nodup_tally {buckets : List (κ × ℕ)} (h : (idents ident buckets).Nodup) (labels : List κ) :
    (idents ident (tally ident buckets labels)).Nodup := by
  induction labels generalizing buckets with
  | nil => exact h
  | cons label labels ih => exact ih (nodup_bump h label)

/-- The labels that have a counter are those that had one, and those that were counted. -/
theorem mem_idents_tally (buckets : List (κ × ℕ)) (labels : List κ) (i : δ) :
    i ∈ idents ident (tally ident buckets labels) ↔
      i ∈ idents ident buckets ∨ ∃ label ∈ labels, ident label = i := by
  induction labels generalizing buckets with
  | nil => simp [tally]
  | cons label labels ih =>
    rw [tally, List.foldl_cons, ← tally, ih, idents_bump, List.exists_mem_cons_iff]
    split_ifs with hmem
    · constructor
      · rintro (h | h)
        · exact .inl h
        · exact .inr (.inr h)
      · rintro (h | rfl | h)
        · exact .inl h
        · exact .inl hmem
        · exact .inr h
    · rw [List.mem_append, List.mem_singleton, or_assoc, eq_comm]

/-- The order in which labels are counted does not matter to a counter. -/
theorem count_tally_perm {labels labels' : List κ} (h : labels.Perm labels') (label : κ)
    (buckets : List (κ × ℕ)) :
    count ident label (tally ident buckets labels) = count ident label (tally ident buckets labels') := by
  rw [count_tally, count_tally, h.countP_eq]

end Tally
