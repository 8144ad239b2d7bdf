import Mathlib.Data.List.Infix
import Mathlib.Data.Nat.Notation

/-!
# Splitting a stream at a marker

A stream whose blocks begin with a marker, read piece by piece. A block is complete when the marker of
the next one has been read.

* `find`: the first occurrence of a marker.
* `nextBlock`: the first complete block; `nextBlock_append` says that more input does not change it.
* `walk`: all complete blocks, and what is held back; `walk_append` says that they do not depend on
  where the input is cut.
* `nextBlock_of_notFound`: a block is found as it was written if the marker does not occur in it.
-/

namespace Marker

variable {α : Type} [DecidableEq α]

/-- `s.find(m)`: the first position at which `m` occurs in `s`. -/
def find (m : List α) : List α → Option ℕ
  | [] => if m = [] then some 0 else none
  | c :: s => if m <+: c :: s then some 0 else (find m s).map (· + 1)

theorem prefix_of_find {m s : List α} {i : ℕ} (h : find m s = some i) : m <+: s.drop i := by
  induction s generalizing i with
  | nil =>
    unfold find at h
    split_ifs at h with hm
    rw [hm]
    exact List.nil_prefix
  | cons c s ih =>
    unfold find at h
    split_ifs at h with hm
    · obtain rfl := Option.some.inj h
      exact hm
    · obtain ⟨j, hj, rfl⟩ := Option.map_eq_some_iff.mp h
      exact ih hj

theorem le_of_find {m s : List α} {i : ℕ} (h : find m s = some i) : i ≤ s.length := by
  induction s generalizing i with
  | nil =>
    unfold find at h
    split_ifs at h
    exact (Option.some.inj h).symm.le
  | cons c s ih =>
    unfold find at h
    split_ifs at h
    · obtain rfl := Option.some.inj h
      exact Nat.zero_le _
    · obtain ⟨j, hj, rfl⟩ := Option.map_eq_some_iff.mp h
      exact Nat.succ_le_succ (ih hj)

theorem add_length_le_of_find {m s : List α} {i : ℕ} (h : find m s = some i) :
    i + m.length ≤ s.length := by
  have hle := (prefix_of_find h).length_le
  have := le_of_find h
  rw [List.length_drop] at hle
  omega

/-- The marker occurs nowhere in front of its first occurrence. -/
theorem not_prefix_of_find {m s : List α} {i j : ℕ} (h : find m s = some i) (hj : j < i) :
    ¬ m <+: s.drop j := by
  induction s generalizing i j with
  | nil =>
    have := le_of_find h
    simp at this
    omega
  | cons c s ih =>
    unfold find at h
    split_ifs at h with hm
    · obtain rfl := Option.some.inj h
      omega
    · obtain ⟨i, hi, rfl⟩ := Option.map_eq_some_iff.mp h
      cases j with
      | zero => exact hm
      | succ j => exact ih hi (by omega)

theorem not_prefix_of_find_eq_none {m s : List α} (h : find m s = none) (j : ℕ) (hj : j ≤ s.length) :
    ¬ m <+: s.drop j := by
  induction s generalizing j with
  | nil =>
    unfold find at h
    split_ifs at h with hm
    rw [List.drop_nil, List.prefix_nil]
    exact hm
  | cons c s ih =>
    unfold find at h
    split_ifs at h with hm
    cases j with
    | zero => exact hm
    | succ j => exact ih (Option.map_eq_none_iff.mp h) j (by simpa using hj)

/-- The first occurrence is where the marker occurs and did not before. -/
theorem find_eq_some {m s : List α} {i : ℕ} (hi : i ≤ s.length) (hpre : m <+: s.drop i)
    (hfirst : ∀ j < i, ¬ m <+: s.drop j) : find m s = some i := by
  cases h : find m s with
  | none => exact absurd hpre (not_prefix_of_find_eq_none h i hi)
  | some k =>
    rcases Nat.lt_trichotomy i k with hlt | rfl | hlt
    · exact absurd hpre (not_prefix_of_find h hlt)
    · rfl
    · exact absurd (prefix_of_find h) (hfirst k hlt)

/-- More input does not change where a marker was found. -/
theorem find_append {m s : List α} {i : ℕ} (h : find m s = some i) (t : List α) :
    find m (s ++ t) = some i := by
  have hlength := add_length_le_of_find h
  refine find_eq_some ?_ ?_ fun j hj hpre => not_prefix_of_find h hj ?_
  · rw [List.length_append]
    omega
  · rw [List.drop_append_of_le_length (by omega)]
    exact (prefix_of_find h).trans (List.prefix_append _ _)
  · rw [List.drop_append_of_le_length (by omega)] at hpre
    refine List.prefix_of_prefix_length_le hpre (List.prefix_append _ t) ?_
    rw [List.length_drop]
    omega

/-- The first complete block, from its marker up to the next, and what follows it. -/
def nextBlock (m s : List α) : Option (List α × List α) :=
  match find m s with
  | none => none
  | some start =>
    match find m (s.drop (start + m.length)) with
    | none => none
    | some n => some ((s.drop start).take (m.length + n), s.drop (start + m.length + n))

/-- What is held back while there is no complete block. -/
def held (m s : List α) : List α :=
  match find m s with
  | none => s
  | some start => s.drop start

theorem nextBlock_append {m s block rest : List α} (h : nextBlock m s = some (block, rest))
    (t : List α) : nextBlock m (s ++ t) = some (block, rest ++ t) := by
  unfold nextBlock at h ⊢
  cases hstart : find m s with
  | none =>
    rw [hstart] at h
    cases h
  | some start =>
    -- Both markers lie in the text that is there already.
    have hle := add_length_le_of_find hstart
    rw [hstart] at h
    simp only [find_append hstart t] at h ⊢
    cases hnext : find m (s.drop (start + m.length)) with
    | none =>
      rw [hnext] at h
      cases h
    | some n =>
      have hle' := add_length_le_of_find hnext
      rw [List.length_drop] at hle'
      rw [hnext] at h
      obtain ⟨rfl, rfl⟩ := Prod.mk.inj (Option.some.inj h)
      rw [List.drop_append_of_le_length (by omega), find_append hnext t]
      simp only [Option.some.injEq, Prod.mk.injEq]
      refine ⟨?_, List.drop_append_of_le_length (by omega)⟩
      rw [List.drop_append_of_le_length (by omega), List.take_append_of_le_length]
      rw [List.length_drop]
      omega

theorem length_lt_of_nextBlock {m s block rest : List α} (hm : m ≠ [])
    (h : nextBlock m s = some (block, rest)) : rest.length < s.length := by
  have hpos := List.length_pos_of_ne_nil hm
  unfold nextBlock at h
  cases hstart : find m s with
  | none =>
    rw [hstart] at h
    cases h
  | some start =>
    have hle := add_length_le_of_find hstart
    rw [hstart] at h
    simp only at h
    cases hnext : find m (s.drop (start + m.length)) with
    | none =>
      rw [hnext] at h
      cases h
    | some n =>
      rw [hnext] at h
      obtain ⟨rfl, rfl⟩ := Prod.mk.inj (Option.some.inj h)
      rw [List.length_drop]
      omega

/-- What is held back is as good as all input. -/
theorem nextBlock_held_append (m s t : List α) :
    nextBlock m (held m s ++ t) = nextBlock m (s ++ t) := by
  unfold held
  cases hstart : find m s with
  | none => rfl
  | some start =>
    have hle := add_length_le_of_find hstart
    -- What is held begins with the marker.
    have hhead : find m (s.drop start) = some 0 := by
      refine find_eq_some (Nat.zero_le _) ?_ fun j hj => absurd hj (Nat.not_lt_zero j)
      rw [List.drop_zero]
      exact prefix_of_find hstart
    have hzero : find m (s.drop start ++ t) = some 0 := find_append hhead t
    unfold nextBlock
    simp only [hzero, find_append hstart t, Nat.zero_add, List.drop_zero]
    rw [List.drop_append_of_le_length (by rw [List.length_drop]; omega), List.drop_drop,
      List.drop_append_of_le_length hle, List.drop_append_of_le_length (by omega)]
    simp only [Nat.add_assoc]
    cases find m (s.drop (start + m.length) ++ t) with
    | none => rfl
    | some n =>
      simp only [Option.some.injEq, Prod.mk.injEq, true_and]
      rw [← List.drop_append_of_le_length (by omega), List.drop_drop]

/-- All complete blocks, of which `fuel` more may be read, and what is held back. -/
def walk (m : List α) : ℕ → List α → List (List α) × List α
  | 0, s => ([], s)
  | fuel + 1, s =>
    match nextBlock m s with
    | none => ([], held m s)
    | some (block, rest) => (block :: (walk m fuel rest).1, (walk m fuel rest).2)

/-- The complete blocks of a stream. -/
def blocks (m s : List α) : List (List α) := (walk m (s.length + 1) s).1

/-- More fuel than input changes nothing. -/
theorem walk_fuel {m : List α} (hm : m ≠ []) {s : List α} {fuel fuel' : ℕ} (h : s.length < fuel)
    (h' : s.length < fuel') : walk m fuel s = walk m fuel' s := by
  induction fuel generalizing s fuel' with
  | zero => omega
  | succ fuel ih =>
    obtain ⟨fuel', rfl⟩ := Nat.exists_eq_add_of_le' (Nat.lt_of_le_of_lt (Nat.zero_le _) h')
    rw [walk, walk]
    cases hnext : nextBlock m s with
    | none => rfl
    | some pair =>
      have hshorter := length_lt_of_nextBlock hm (show nextBlock m s = some (pair.1, pair.2) from hnext)
      simp only [ih (show pair.2.length < fuel by omega) (show pair.2.length < fuel' by omega)]

theorem blocks_of_nextBlock {m s block rest : List α} (hm : m ≠ [])
    (h : nextBlock m s = some (block, rest)) : blocks m s = block :: blocks m rest := by
  have hshorter := length_lt_of_nextBlock hm h
  rw [blocks, walk, h]
  exact congrArg (fun p => block :: p.1) (walk_fuel hm hshorter (Nat.lt_succ_self _))

theorem blocks_of_nextBlock_eq_none {m s : List α} (h : nextBlock m s = none) : blocks m s = [] := by
  rw [blocks, walk, h]

/-- The blocks of a stream do not depend on where its input is cut: what is held back of the first part
is read again with the second. -/
theorem blocks_append {m : List α} (hm : m ≠ []) (s t : List α) {fuel : ℕ} (hfuel : s.length < fuel) :
    blocks m (s ++ t) = (walk m fuel s).1 ++ blocks m ((walk m fuel s).2 ++ t) := by
  induction fuel generalizing s with
  | zero => omega
  | succ fuel ih =>
    rw [walk]
    cases hnext : nextBlock m s with
    | none =>
      -- What is held back is completed by the new text, or not yet.
      cases hmore : nextBlock m (s ++ t) with
      | none =>
        rw [List.nil_append, blocks_of_nextBlock_eq_none hmore,
          blocks_of_nextBlock_eq_none ((nextBlock_held_append m s t).trans hmore)]
      | some pair =>
        rw [List.nil_append, blocks_of_nextBlock hm hmore,
          blocks_of_nextBlock hm ((nextBlock_held_append m s t).trans hmore)]
    | some pair =>
      have hshorter := length_lt_of_nextBlock hm (show nextBlock m s = some (pair.1, pair.2) from hnext)
      rw [blocks_of_nextBlock hm (nextBlock_append hnext t), ih _ (by omega)]
      rfl

/-- A marker no beginning of which is also an end of it. -/
def Unbordered (m : List α) : Prop := ∀ k, 0 < k → k < m.length → ¬ m.drop k <+: m

/-- Behind a text without marker, the next marker is the first one. -/
theorem find_append_marker {m text : List α} (hm : Unbordered m) (h : find m text = none)
    (rest : List α) : find m (text ++ (m ++ rest)) = some text.length := by
  refine find_eq_some (by simp) ?_ fun j hj hpre => ?_
  · rw [List.drop_left]
    exact List.prefix_append m rest
  · rw [List.drop_append_of_le_length hj.le] at hpre
    rcases Nat.le_total (j + m.length) text.length with hle | hle
    · refine not_prefix_of_find_eq_none h j hj.le ?_
      refine List.prefix_of_prefix_length_le hpre (List.prefix_append _ _) ?_
      rw [List.length_drop]
      omega
    · -- the marker would begin inside `text` and end behind it: an end of it would be its beginning
      have hk : (text.drop j).length = text.length - j := List.length_drop
      have hjoin : m.drop (text.drop j).length <+: m ++ rest := by
        have hdrop := hpre.drop (text.drop j).length
        rwa [List.drop_left] at hdrop
      rcases Nat.eq_or_lt_of_le hle with heq | hlt
      · refine not_prefix_of_find_eq_none h j hj.le ?_
        refine List.prefix_of_prefix_length_le hpre (List.prefix_append _ _) ?_
        omega
      · refine hm (text.drop j).length (by omega) (by omega) ?_
        refine List.prefix_of_prefix_length_le hjoin (List.prefix_append _ _) ?_
        rw [List.length_drop]
        omega

/-- A block is found as it was written if the marker does not occur in it. -/
theorem nextBlock_of_notFound {m text : List α} (hm : Unbordered m) (h : find m text = none)
    (rest : List α) : nextBlock m (m ++ (text ++ (m ++ rest))) = some (m ++ text, m ++ rest) := by
  have hhead : find m (m ++ (text ++ (m ++ rest))) = some 0 := by
    refine find_eq_some (Nat.zero_le _) ?_ fun j hj => absurd hj (Nat.not_lt_zero j)
    exact List.prefix_append m _
  unfold nextBlock
  simp only [hhead, Nat.zero_add, List.drop_left, find_append_marker hm h rest, List.drop_zero]
  simp only [Option.some.injEq, Prod.mk.injEq]
  constructor
  · rw [← List.append_assoc, ← List.length_append, List.take_left]
  · rw [← List.append_assoc, ← List.length_append, List.drop_left]

/-- The last block is held back. -/
theorem nextBlock_last {m text : List α} (h : find m text = none) : nextBlock m (m ++ text) = none := by
  have hhead : find m (m ++ text) = some 0 := by
    refine find_eq_some (Nat.zero_le _) ?_ fun j hj => absurd hj (Nat.not_lt_zero j)
    exact List.prefix_append m _
  unfold nextBlock
  simp only [hhead, Nat.zero_add, List.drop_left, h]

/-- A text with a marker is a text without one, the marker, and a shorter text. -/
theorem split_of_find {m text : List α} (hm : m ≠ []) {i : ℕ} (h : find m text = some i) :
    ∃ front rest : List α, text = front ++ (m ++ rest) ∧ find m front = none ∧
      rest.length < text.length := by
  have hpos := List.length_pos_of_ne_nil hm
  have hle := add_length_le_of_find h
  obtain ⟨rest, hrest⟩ := prefix_of_find h
  refine ⟨text.take i, rest, ?_, ?_, ?_⟩
  · rw [hrest, List.take_append_drop]
  · -- an occurrence in front of the first one would be an earlier one
    cases hfront : find m (text.take i) with
    | none => rfl
    | some j =>
      have hj := add_length_le_of_find hfront
      rw [List.length_take] at hj
      refine absurd ?_ (not_prefix_of_find h (show j < i by omega))
      refine (prefix_of_find hfront).trans ?_
      rw [List.drop_take]
      exact List.take_prefix _ _
  · have hlength := congrArg List.length hrest
    rw [List.length_append, List.length_drop] at hlength
    omega

/-- The blocks of two texts, each behind a marker, are the blocks of the first, as far as they are
complete with the marker of the second, and those of the second. -/
theorem blocks_marker_append {m : List α} (hm : m ≠ []) (hborder : Unbordered m) (text s : List α) :
    blocks m (m ++ (text ++ (m ++ s))) = blocks m (m ++ (text ++ m)) ++ blocks m (m ++ s) := by
  induction hlength : text.length using Nat.strong_induction_on generalizing text with
  | h n ih =>
    cases hfind : find m text with
    | none =>
      have hlast := nextBlock_of_notFound hborder hfind []
      rw [List.append_nil] at hlast
      have hempty : find m ([] : List α) = none := by
        unfold find
        rw [if_neg hm]
      have hnone : blocks m m = [] := by
        have := blocks_of_nextBlock_eq_none (nextBlock_last hempty)
        rwa [List.append_nil] at this
      rw [blocks_of_nextBlock hm (nextBlock_of_notFound hborder hfind s),
        blocks_of_nextBlock hm hlast, hnone]
      rfl
    | some i =>
      -- By induction on the length, for the text behind the first marker.
      obtain ⟨front, rest, rfl, hfront, hshorter⟩ := split_of_find hm hfind
      have hrest := ih rest.length (by omega) rest rfl
      simp only [List.append_assoc]
      rw [blocks_of_nextBlock hm (nextBlock_of_notFound hborder hfront _),
        blocks_of_nextBlock hm (nextBlock_of_notFound hborder hfront _), hrest]
      rfl

/-- What is held back has no complete block. -/
theorem nextBlock_walk {m : List α} (hm : m ≠ []) {s : List α} {fuel : ℕ} (h : s.length < fuel) :
    nextBlock m (walk m fuel s).2 = none := by
  induction fuel generalizing s with
  | zero => omega
  | succ fuel ih =>
    rw [walk]
    cases hnext : nextBlock m s with
    | none =>
      have hheld := nextBlock_held_append m s []
      rw [List.append_nil, List.append_nil] at hheld
      exact hheld.trans hnext
    | some pair =>
      have hshorter := length_lt_of_nextBlock hm (show nextBlock m s = some (pair.1, pair.2) from hnext)
      exact ih (by omega)

end Marker
