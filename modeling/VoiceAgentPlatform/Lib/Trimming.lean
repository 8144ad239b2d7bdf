import Mathlib.Data.List.TakeWhile

/-!
# Trimming a list at both ends

`trimBoth p s` is `s` without the elements that satisfy `p` at either end: the stripping of strings in
any language, whatever it takes for white space.
-/

namespace Trimming

variable {α : Type*} {p : α → Bool} {s : List α} {a : α}

/-- The list without a run of elements that satisfy `p` at either end. -/
def trimBoth (p : α → Bool) (s : List α) : List α := ((s.dropWhile p).reverse.dropWhile p).reverse

theorem not_of_head?_dropWhile (h : (s.dropWhile p).head? = some a) : p a = false := by
  have hnot := List.head?_dropWhile_not p s
  rw [h] at hnot
  simpa using hnot

/-- The trimmed list is a beginning of the list without its first run. -/
theorem trimBoth_prefix (p : α → Bool) (s : List α) : trimBoth p s <+: s.dropWhile p := by
  have hsuffix := List.dropWhile_suffix p (l := (s.dropWhile p).reverse)
  rw [← List.reverse_prefix, List.reverse_reverse] at hsuffix
  exact hsuffix

theorem not_of_head?_trimBoth (h : (trimBoth p s).head? = some a) : p a = false := by
  obtain ⟨rest, hrest⟩ := trimBoth_prefix p s
  apply not_of_head?_dropWhile (s := s)
  rw [← hrest, List.head?_append, h, Option.some_or]

theorem not_of_getLast?_trimBoth (h : (trimBoth p s).getLast? = some a) : p a = false := by
  rw [trimBoth, List.getLast?_reverse] at h
  exact not_of_head?_dropWhile h

theorem dropWhile_eq_self (h : ∀ a, s.head? = some a → p a = false) : s.dropWhile p = s := by
  match s with
  | [] => rfl
  | b :: s => exact List.dropWhile_cons_of_neg (by simp [h b rfl])

/-- A list without such elements at its ends is trimmed already. -/
theorem trimBoth_eq_self (hhead : ∀ a, s.head? = some a → p a = false)
    (hlast : ∀ a, s.getLast? = some a → p a = false) : trimBoth p s = s := by
  have hreverse : ∀ a, s.reverse.head? = some a → p a = false := by
    intro a ha
    rw [List.head?_reverse] at ha
    exact hlast a ha
  rw [trimBoth, dropWhile_eq_self hhead, dropWhile_eq_self hreverse, List.reverse_reverse]

/-- Trimming twice is trimming once. -/
theorem trimBoth_trimBoth (p : α → Bool) (s : List α) : trimBoth p (trimBoth p s) = trimBoth p s :=
  trimBoth_eq_self (fun _ => not_of_head?_trimBoth) fun _ => not_of_getLast?_trimBoth

/-- Elements that satisfy `p` around a list are trimmed away. -/
theorem trimBoth_padded (front back : List α) (hfront : ∀ a ∈ front, p a = true)
    (hback : ∀ a ∈ back, p a = true) (hhead : ∀ a, s.head? = some a → p a = false)
    (hlast : ∀ a, s.getLast? = some a → p a = false) (hne : s ≠ []) :
    trimBoth p (front ++ (s ++ back)) = s := by
  have hdrop : (front ++ (s ++ back)).dropWhile p = s ++ back := by
    rw [List.dropWhile_append_of_pos hfront]
    refine dropWhile_eq_self fun a ha => hhead a ?_
    obtain ⟨b, rest, rfl⟩ := List.exists_cons_of_ne_nil hne
    exact ha
  have hreverse : (s ++ back).reverse.dropWhile p = s.reverse := by
    rw [List.reverse_append, List.dropWhile_append_of_pos fun a ha => hback a (List.mem_reverse.mp ha)]
    refine dropWhile_eq_self fun a ha => hlast a ?_
    rwa [List.head?_reverse] at ha
  rw [trimBoth, hdrop, hreverse, List.reverse_reverse]

/-- What is trimmed away. -/
theorem exists_trimBoth (p : α → Bool) (s : List α) : ∃ front back,
    (∀ a ∈ front, p a = true) ∧ (∀ a ∈ back, p a = true) ∧ s = front ++ (trimBoth p s ++ back) := by
  refine ⟨s.takeWhile p, ((s.dropWhile p).reverse.takeWhile p).reverse, fun a => List.mem_takeWhile_imp,
    fun a ha => List.mem_takeWhile_imp (List.mem_reverse.mp ha), ?_⟩
  rw [trimBoth, ← List.reverse_append, List.takeWhile_append_dropWhile, List.reverse_reverse,
    List.takeWhile_append_dropWhile]

/-- An element that does not satisfy `p` is not trimmed away. -/
theorem trimBoth_ne_nil (h : p a = false) (ha : a ∈ s) : trimBoth p s ≠ [] := by
  intro hnil
  have hdrop : s.dropWhile p = [] := by
    have hlast : (s.dropWhile p).reverse.dropWhile p = [] := List.reverse_eq_nil_iff.mp hnil
    rw [List.dropWhile_eq_nil_iff] at hlast
    by_contra hne
    obtain ⟨b, rest, hb⟩ := List.exists_cons_of_ne_nil hne
    have hpos : p b = true := hlast b (by rw [hb]; simp)
    have hneg : p b = false := not_of_head?_dropWhile (s := s) (by rw [hb]; rfl)
    rw [hneg] at hpos
    cases hpos
  rw [List.dropWhile_eq_nil_iff] at hdrop
  rw [hdrop a ha] at h
  cases h

end Trimming
