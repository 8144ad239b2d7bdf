import VoiceAgentPlatform.Lib.Trimming

/-!
# Words

The words of a list are its runs of elements that are not blank. Their number is that of the places where a
run starts, so it grows when the list is extended, and blanks at the ends do not count.

* `words`: the splitting at blanks.
* `length_words_le_append`, `length_words_trimBoth`: the number of words.
-/

namespace Words

variable {α : Type*} {p : α → Bool}

/-- The words of a list; `cur` is the word that was begun. -/
def wordsFrom (p : α → Bool) : List α → List α → List (List α)
  | cur, [] => if cur.isEmpty then [] else [cur]
  | cur, a :: s =>
    if p a then
      if cur.isEmpty then wordsFrom p [] s else cur :: wordsFrom p [] s
    else wordsFrom p (cur ++ [a]) s

/-- The words of a list, between elements that satisfy `p`. -/
def words (p : α → Bool) (s : List α) : List (List α) := wordsFrom p [] s

/-- How many words start in a list; `blank` tells whether the element before it is blank. -/
def starts (p : α → Bool) : Bool → List α → ℕ
  | _, [] => 0
  | blank, a :: s => if p a then starts p true s else blank.toNat + starts p false s

theorem length_wordsFrom (cur s : List α) :
    (wordsFrom p cur s).length = (!cur.isEmpty).toNat + starts p cur.isEmpty s := by
  induction s generalizing cur with
  | nil => rw [wordsFrom]; cases cur <;> rfl
  | cons a s ih =>
    rw [wordsFrom, starts]
    by_cases ha : p a = true
    · rw [if_pos ha, if_pos ha]
      cases cur with
      | nil => exact ih []
      | cons b cur =>
        rw [if_neg (by simp), List.length_cons, ih [], Nat.add_comm]
        simp
    · rw [if_neg ha, if_neg ha, ih]
      cases cur <;> simp

theorem length_words (s : List α) : (words p s).length = starts p true s := by
  rw [words, length_wordsFrom]
  exact Nat.zero_add _

/-- What is appended adds starts. -/
theorem exists_starts_append (blank : Bool) (s t : List α) :
    ∃ blank', starts p blank (s ++ t) = starts p blank s + starts p blank' t := by
  induction s generalizing blank with
  | nil => exact ⟨blank, (Nat.zero_add _).symm⟩
  | cons a s ih =>
    rw [List.cons_append, starts, starts]
    split_ifs
    · exact ih true
    · obtain ⟨blank', heq⟩ := ih false
      exact ⟨blank', by rw [heq, Nat.add_assoc]⟩

theorem starts_of_blank {s : List α} (h : ∀ a ∈ s, p a = true) (blank : Bool) :
    starts p blank s = 0 := by
  induction s generalizing blank with
  | nil => rfl
  | cons a s ih =>
    obtain ⟨ha, hs⟩ := List.forall_mem_cons.mp h
    rw [starts, if_pos ha, ih hs]

theorem starts_blank_append {s : List α} (h : ∀ a ∈ s, p a = true) (t : List α) :
    starts p true (s ++ t) = starts p true t := by
  induction s with
  | nil => rfl
  | cons a s ih =>
    obtain ⟨ha, hs⟩ := List.forall_mem_cons.mp h
    rw [List.cons_append, starts, if_pos ha, ih hs]

/-- An extended list has no fewer words. -/
theorem length_words_le_append (s t : List α) : (words p s).length ≤ (words p (s ++ t)).length := by
  obtain ⟨blank, heq⟩ := exists_starts_append (p := p) true s t
  rw [length_words, length_words, heq]
  exact Nat.le_add_right _ _

/-- A trimmed list has as many words. -/
theorem length_words_trimBoth (s : List α) :
    (words p (Trimming.trimBoth p s)).length = (words p s).length := by
  obtain ⟨front, back, hfront, hback, heq⟩ := Trimming.exists_trimBoth p s
  obtain ⟨blank, hsum⟩ := exists_starts_append (p := p) true (Trimming.trimBoth p s) back
  have hstarts : starts p true s = starts p true (Trimming.trimBoth p s) := by
    calc starts p true s
      _ = starts p true (front ++ (Trimming.trimBoth p s ++ back)) := congrArg _ heq
      _ = starts p true (Trimming.trimBoth p s ++ back) := starts_blank_append hfront _
      _ = starts p true (Trimming.trimBoth p s) + starts p blank back := hsum
      _ = starts p true (Trimming.trimBoth p s) := by rw [starts_of_blank hback, Nat.add_zero]
  rw [length_words, length_words, hstarts]

end Words
