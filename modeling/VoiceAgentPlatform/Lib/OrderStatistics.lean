import Mathlib.Data.List.Sort
import Mathlib.Order.Bounds.Basic

/-!
# Order statistics

The values of a list in ascending order, and what lies below each of them.

* `lt_countP_getElem`, `countP_le_of_lt_getElem`: how many values are up to the one at an index.
* `IsQuantile`: the least value of a list with so many values up to it.
* `isQuantile_getElem`: it is found at an index of the sorted list.
* `insertionSort_eq_of_perm`: sorting forgets the order of a list.
-/

namespace OrderStatistics

variable {α : Type*} [LinearOrder α] {values : List α}

/-- In a sorted list as many values are up to the one at an index as there are indices up to it. -/
theorem lt_countP_getElem (hsorted : values.Pairwise (· ≤ ·)) {i : ℕ} (hi : i < values.length) :
    i < values.countP (· ≤ values[i]) := by
  have htake : (values.take (i + 1)).countP (· ≤ values[i]) = i + 1 := by
    rw [List.countP_eq_length.mpr, List.length_take, min_eq_left hi]
    intro v hv
    obtain ⟨j, hj, rfl⟩ := List.mem_iff_getElem.mp hv
    rw [List.length_take] at hj
    rw [List.getElem_take, decide_eq_true_eq]
    rcases Nat.lt_or_ge j i with hlt | hge
    · exact List.pairwise_iff_getElem.mp hsorted j i (by omega) hi hlt
    · obtain rfl : j = i := by omega
      exact le_rfl
  have hle := (List.take_sublist (i + 1) values).countP_le (p := (· ≤ values[i]))
  omega

/-- In a sorted list there are no more values below the one at an index than indices below it. -/
theorem countP_le_of_lt_getElem (hsorted : values.Pairwise (· ≤ ·)) {i : ℕ} (hi : i < values.length)
    {v : α} (hv : v < values[i]) : values.countP (· ≤ v) ≤ i := by
  have hdrop : (values.drop i).countP (· ≤ v) = 0 := by
    rw [List.countP_eq_zero]
    intro w hw
    obtain ⟨j, hj, rfl⟩ := List.mem_iff_getElem.mp hw
    rw [List.length_drop] at hj
    rw [List.getElem_drop, decide_eq_true_eq, not_le]
    refine hv.trans_le ?_
    rcases Nat.eq_zero_or_pos j with rfl | hpos
    · exact le_rfl
    · exact List.pairwise_iff_getElem.mp hsorted i (i + j) hi (by omega) (by omega)
  rw [← List.take_append_drop i values, List.countP_append, hdrop, Nat.add_zero]
  exact List.countP_le_length.trans (List.length_take_le i values)

/-- The least value of a list with so many values up to it. -/
def IsQuantile (values : List α) (rank : ℕ) (v : α) : Prop :=
  IsLeast {v | v ∈ values ∧ rank ≤ values.countP (· ≤ v)} v

/-- The value at an index of a sorted list. -/
theorem isQuantile_getElem (hsorted : values.Pairwise (· ≤ ·)) {i : ℕ} (hi : i < values.length) :
    IsQuantile values (i + 1) values[i] := by
  refine ⟨⟨List.getElem_mem hi, lt_countP_getElem hsorted hi⟩, ?_⟩
  rintro v ⟨-, hv⟩
  by_contra hlt
  have hle := countP_le_of_lt_getElem hsorted hi (not_le.mp hlt)
  omega

/-- Sorting forgets the order of a list. -/
theorem insertionSort_eq_of_perm {values' : List α} (h : values.Perm values') :
    values.insertionSort (· ≤ ·) = values'.insertionSort (· ≤ ·) := by
  have hperm : (values.insertionSort (· ≤ ·)).Perm (values'.insertionSort (· ≤ ·)) :=
    (List.perm_insertionSort _ _).trans (h.trans (List.perm_insertionSort _ _).symm)
  exact hperm.eq_of_pairwise (fun _ _ _ _ => le_antisymm) (List.pairwise_insertionSort _ _)
    (List.pairwise_insertionSort _ _)

end OrderStatistics
