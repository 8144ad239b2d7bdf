import Mathlib.Data.List.Basic
import Mathlib.Data.PNat.Basic

/-!
# Cutting a stream into frames

A stream arrives in chunks of any length, and is cut into frames of a fixed length; what does not fill a
frame waits for the next chunk.

* `frames`: the frames at the front of a buffer, and what is left of it.
* `slices`: the frames of a list of which nothing is left.
* `batches`: the frames that each chunk of a stream completes.
* `flatten_batches`: together these are the frames of the whole stream, however it is chunked.
* `length_le_one_of_mem_batches`: a chunk that is no longer than a frame completes at most one.
-/

namespace Framing

variable {α : Type*}

/-- The frames at the front of a buffer, and what is left of it. -/
def frames (n : ℕ+) (buffer : List α) : List (List α) × List α :=
  if (n : ℕ) ≤ buffer.length then
    (buffer.take n :: (frames n (buffer.drop n)).1, (frames n (buffer.drop n)).2)
  else ([], buffer)
termination_by buffer.length
decreasing_by
  all_goals
    have := n.pos
    rw [List.length_drop]
    omega

variable {n : ℕ+}

theorem frames_of_le {buffer : List α} (h : (n : ℕ) ≤ buffer.length) :
    frames n buffer =
      (buffer.take n :: (frames n (buffer.drop n)).1, (frames n (buffer.drop n)).2) := by
  rw [frames, if_pos h]

theorem frames_of_lt {buffer : List α} (h : buffer.length < (n : ℕ)) :
    frames n buffer = ([], buffer) := by
  rw [frames, if_neg (Nat.not_le.mpr h)]

/-- An induction over the frames of a buffer. -/
@[elab_as_elim]
theorem frames_induction {P : List α → Prop} (short : ∀ buffer : List α, buffer.length < (n : ℕ) → P buffer)
    (full : ∀ buffer : List α, (n : ℕ) ≤ buffer.length → P (buffer.drop n) → P buffer)
    (buffer : List α) :
    P buffer := by
  induction buffer using frames.induct n with
  | case1 buffer h ih => exact full buffer h ih
  | case2 buffer h => exact short buffer (Nat.not_le.mp h)

theorem length_rest_lt (buffer : List α) : (frames n buffer).2.length < n := by
  induction buffer using frames_induction (n := n) with
  | short buffer h => rw [frames_of_lt h]; exact h
  | full buffer h ih => rw [frames_of_le h]; exact ih

/-- The frames take up what the rest leaves. -/
theorem length_frames_mul (buffer : List α) :
    (frames n buffer).1.length * n + (frames n buffer).2.length = buffer.length := by
  induction buffer using frames_induction (n := n) with
  | short buffer h => rw [frames_of_lt h, List.length_nil, Nat.zero_mul, Nat.zero_add]
  | full buffer h ih =>
    rw [List.length_drop] at ih
    rw [frames_of_le h]
    show ((frames n (buffer.drop n)).1.length + 1) * (n : ℕ) + (frames n (buffer.drop n)).2.length = _
    rw [Nat.succ_mul]
    omega

/-- A buffer may be cut before all of it has arrived. -/
theorem frames_append (buffer chunk : List α) :
    frames n (buffer ++ chunk) =
      ((frames n buffer).1 ++ (frames n ((frames n buffer).2 ++ chunk)).1,
        (frames n ((frames n buffer).2 ++ chunk)).2) := by
  induction buffer using frames_induction (n := n) with
  | short buffer h => rw [frames_of_lt h, List.nil_append]
  | full buffer h ih =>
    have hle : (n : ℕ) ≤ (buffer ++ chunk).length := by
      rw [List.length_append]
      omega
    rw [frames_of_le hle, List.take_append_of_le_length h, List.drop_append_of_le_length h, ih,
      frames_of_le h, List.cons_append]

/-- The frames of a list whose last one may be shorter: `xs[i : i + size] for i in range(0, len(xs), size)`
in Python. -/
def slices (size : ℕ) (xs : List α) : List (List α) :=
  (List.range ((xs.length + size - 1) / size)).map fun i => (xs.drop (i * size)).take size

theorem flatten_slices {size : ℕ} (hsize : 0 < size) (xs : List α) : (slices size xs).flatten = xs := by
  have hcount (n : ℕ) :
      ((List.range n).map fun i => (xs.drop (i * size)).take size).flatten = xs.take (n * size) := by
    induction n with
    | zero => simp
    | succ n ih =>
      rw [List.range_succ, List.map_append, List.flatten_append, ih, Nat.succ_mul, List.take_add]
      simp
  rw [slices, hcount, List.take_of_length_le]
  have hdiv := Nat.div_add_mod (xs.length + size - 1) size
  have hmod := Nat.mod_lt (xs.length + size - 1) hsize
  rw [Nat.mul_comm] at hdiv
  omega

/-- The frames that each chunk completes, behind a rest that is shorter than a frame. -/
def batches (n : ℕ+) : List α → List (List α) → List (List (List α))
  | _, [] => []
  | rest, chunk :: chunks =>
    (frames n (rest ++ chunk)).1 :: batches n (frames n (rest ++ chunk)).2 chunks

/-- What is left after the chunks of a stream. -/
def restOf (n : ℕ+) (rest : List α) (chunks : List (List α)) : List α :=
  chunks.foldl (fun rest chunk => (frames n (rest ++ chunk)).2) rest

/-- The frames of a stream do not depend on how it is chunked. -/
theorem frames_stream (rest : List α) (hrest : rest.length < n) (chunks : List (List α)) :
    frames n (rest ++ chunks.flatten) = ((batches n rest chunks).flatten, restOf n rest chunks) := by
  induction chunks generalizing rest with
  | nil =>
    rw [List.flatten_nil, List.append_nil, frames_of_lt hrest]
    rfl
  | cons chunk chunks ih =>
    rw [List.flatten_cons, ← List.append_assoc, frames_append, ih _ (length_rest_lt _), batches,
      List.flatten_cons]
    rfl

theorem flatten_batches (chunks : List (List α)) :
    (batches n [] chunks).flatten = (frames n chunks.flatten).1 := by
  rw [← List.nil_append chunks.flatten, frames_stream [] n.pos]

theorem restOf_eq (chunks : List (List α)) : restOf n [] chunks = (frames n chunks.flatten).2 := by
  rw [← List.nil_append chunks.flatten, frames_stream [] n.pos]

/-- A chunk that is no longer than a frame completes at most one. -/
theorem length_le_one_of_mem_batches {rest : List α} (hrest : rest.length < n)
    {chunks : List (List α)} (hchunks : ∀ chunk ∈ chunks, chunk.length ≤ n) :
    ∀ batch ∈ batches n rest chunks, batch.length ≤ 1 := by
  induction chunks generalizing rest with
  | nil => exact fun batch hbatch => absurd hbatch List.not_mem_nil
  | cons chunk chunks ih =>
    intro batch hbatch
    rw [batches, List.mem_cons] at hbatch
    rcases hbatch with rfl | hbatch
    · -- Two frames would be more than the chunk and a rest that is shorter than one.
      by_contra hlength
      have htwice : 2 * (n : ℕ) ≤ (frames n (rest ++ chunk)).1.length * n :=
        Nat.mul_le_mul_right _ (by omega)
      have hmul := length_frames_mul (n := n) (rest ++ chunk)
      rw [List.length_append] at hmul
      have := hchunks chunk List.mem_cons_self
      omega
    · exact ih (length_rest_lt _) (fun chunk hchunk => hchunks chunk (List.mem_cons_of_mem _ hchunk))
        batch hbatch

end Framing
