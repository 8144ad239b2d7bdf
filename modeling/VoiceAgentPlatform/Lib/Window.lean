import Mathlib.Data.List.DropRight
import Mathlib.Data.List.Infix

/-!
# Sliding windows

A list that steps extend, or change at its end only, is shown through a window: its last `n` elements.

* `ActsOnLast`: a step that changes at most the last element, and does not take it away.
* `rtake_foldl`: steps on the window show what steps on the whole list would.
* `dropLast_isPrefix_foldl`: what is not at the end of the list does not change any more.
-/

namespace Window

variable {α ε : Type*}

/-- A step that changes at most the last element of a list, and does not take it away. -/
structure ActsOnLast (f : List α → List α) : Prop where
  concat : ∀ front last, f (front ++ [last]) = front ++ f [last]
  ne_nil : ∀ last, f [last] ≠ []

/-- A window of a list and more behind it. -/
theorem rtake_append_rtake {n m : ℕ} {later : List α} (h : n ≤ m + later.length) (front : List α) :
    (front.rtake m ++ later).rtake n = (front ++ later).rtake n := by
  rw [List.rtake, List.rtake, List.rtake, List.length_append, List.length_append, List.length_drop,
    List.drop_append, List.drop_append, List.drop_drop, List.length_drop]
  congr 2 <;> omega

/-- A step on the window shows what a step on the list would. -/
theorem ActsOnLast.rtake_apply {f : List α → List α} (h : ActsOnLast f) {n : ℕ} (hn : 0 < n)
    (l : List α) : (f (l.rtake n)).rtake n = (f l).rtake n := by
  induction l using List.reverseRecOn with
  | nil => rw [List.rtake_nil]
  | append_singleton front last =>
    obtain ⟨m, rfl⟩ := Nat.exists_eq_add_one_of_ne_zero hn.ne'
    have hpos := List.length_pos_of_ne_nil (h.ne_nil last)
    rw [List.rtake_concat_succ, h.concat, h.concat, rtake_append_rtake (by omega)]

/-- Steps on the window show what steps on the list would. -/
theorem rtake_foldl {step : List α → ε → List α} (h : ∀ e, ActsOnLast fun l => step l e) {n : ℕ}
    (hn : 0 < n) (l : List α) (es : List ε) :
    es.foldl (fun l e => (step l e).rtake n) (l.rtake n) = (es.foldl step l).rtake n := by
  induction es generalizing l with
  | nil => rfl
  | cons e es ih => rw [List.foldl_cons, List.foldl_cons, (h e).rtake_apply hn, ih]

theorem ActsOnLast.dropLast_isPrefix {f : List α → List α} (h : ActsOnLast f) (l : List α) :
    l.dropLast <+: (f l).dropLast := by
  induction l using List.reverseRecOn with
  | nil => exact List.nil_prefix
  | append_singleton front last =>
    rw [List.dropLast_concat, h.concat, List.dropLast_append_of_ne_nil (h.ne_nil last)]
    exact List.prefix_append _ _

/-- What is not at the end of the list does not change any more. -/
theorem dropLast_isPrefix_foldl {step : List α → ε → List α} (h : ∀ e, ActsOnLast fun l => step l e)
    (l : List α) (es : List ε) : l.dropLast <+: (es.foldl step l).dropLast := by
  induction es generalizing l with
  | nil => exact List.prefix_refl _
  | cons e es ih => exact ((h e).dropLast_isPrefix l).trans (ih (step l e))

end Window
