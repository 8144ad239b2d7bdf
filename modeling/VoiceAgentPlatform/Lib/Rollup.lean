import Mathlib.Data.List.Basic
import Mathlib.Tactic.SplitIfs

/-!
# Rolling up

A log keeps elements in flight, and an event that belongs to one of them updates the nearest: the search
passes elements of its own kind and stops at any other. An element in flight with another kind before it is
therefore stuck. The log may also be a list of addresses of objects, which are updated in place.

* `roll p q f`: update the first element that satisfies `p`, passing elements that satisfy `q`.
* `Stuck`, `Stuck.roll`, `Stuck.roll_other`: what is stuck stays so.
* `find`, `deref`, `roll_deref`: the same with addresses.
-/

namespace Rollup

variable {α : Type*} {p q p' q' : α → Bool} {f : α → α} {l l' : List α}

/-- Update the first element that satisfies `p`, if those before it satisfy `q`. -/
def roll (p q : α → Bool) (f : α → α) : List α → Option (List α)
  | [] => none
  | a :: l => if p a then some (f a :: l) else if q a then (roll p q f l).map (a :: ·) else none

theorem roll_cons_of_pos {a : α} (ha : p a = true) : roll p q f (a :: l) = some (f a :: l) := by
  rw [roll, if_pos ha]

theorem roll_cons_of_blocked {a : α} (hp : p a = false) (hq : q a = false) :
    roll p q f (a :: l) = none := by
  simp [roll, hp, hq]

/-- Without an element in flight nothing is updated. -/
theorem roll_eq_none (h : ∀ a ∈ l, p a = false) : roll p q f l = none := by
  induction l with
  | nil => rfl
  | cons a l ih =>
    obtain ⟨ha, hl⟩ := List.forall_mem_cons.mp h
    simp [roll, ha, ih hl]

/-- An element that satisfies `p` is behind one that stops the search. -/
inductive Stuck (p q : α → Bool) : List α → Prop where
  | behind {a : α} {l : List α} (hp : p a = false) (hq : q a = false) (h : ∃ b ∈ l, p b = true) :
    Stuck p q (a :: l)
  | cons {a : α} {l : List α} (h : Stuck p q l) : Stuck p q (a :: l)

/-- What is stuck is there. -/
theorem Stuck.exists_mem (h : Stuck p q l) : ∃ b ∈ l, p b = true := by
  induction h with
  | behind _ _ h => exact h.imp fun b hb => ⟨List.mem_cons_of_mem _ hb.1, hb.2⟩
  | cons _ ih => exact ih.imp fun b hb => ⟨List.mem_cons_of_mem _ hb.1, hb.2⟩

/-- The search does not reach what is stuck. -/
theorem Stuck.roll (h : Stuck p q l) (hl : roll p q f l = some l') : Stuck p q l' := by
  induction h generalizing l' with
  | behind hp hq _ =>
    rw [roll_cons_of_blocked hp hq] at hl
    cases hl
  | @cons a l hstuck ih =>
    rw [Rollup.roll] at hl
    split_ifs at hl
    · cases hl
      exact .cons hstuck
    · obtain ⟨rest, hrest, rfl⟩ := Option.map_eq_some_iff.mp hl
      exact .cons (ih hrest)

theorem exists_mem_of_roll (hf : ∀ a, p' a = true → p (f a) = p a) (hl : roll p' q' f l = some l')
    (h : ∃ b ∈ l, p b = true) : ∃ b ∈ l', p b = true := by
  induction l generalizing l' with
  | nil => cases hl
  | cons a l ih =>
    rw [roll] at hl
    obtain ⟨b, hb, hpb⟩ := h
    -- The row is updated and keeps the property, or it is a later one.
    split_ifs at hl with hp
    · cases hl
      rcases List.mem_cons.mp hb with rfl | hb
      · exact ⟨_, List.mem_cons_self, by rw [hf b hp, hpb]⟩
      · exact ⟨b, List.mem_cons_of_mem _ hb, hpb⟩
    · obtain ⟨rest, hrest, rfl⟩ := Option.map_eq_some_iff.mp hl
      rcases List.mem_cons.mp hb with rfl | hb
      · exact ⟨b, List.mem_cons_self, hpb⟩
      · obtain ⟨b', hb', hpb'⟩ := ih hrest ⟨b, hb, hpb⟩
        exact ⟨b', List.mem_cons_of_mem _ hb', hpb'⟩

/-- Updates of another kind do not set it free. -/
theorem Stuck.roll_other (hf : ∀ a, p' a = true → p (f a) = p a)
    (hblock : ∀ a, p' a = true → q a = false → q (f a) = false)
    (h : Stuck p q l) (hl : Rollup.roll p' q' f l = some l') : Stuck p q l' := by
  -- The update of another kind neither frees the row nor what blocks it.
  induction h generalizing l' with
  | @behind a l hp hq hmem =>
    rw [Rollup.roll] at hl
    split_ifs at hl with hp'
    · cases hl
      exact .behind (by rw [hf a hp', hp]) (hblock a hp' hq) hmem
    · obtain ⟨rest, hrest, rfl⟩ := Option.map_eq_some_iff.mp hl
      exact .behind hp hq (exists_mem_of_roll hf hrest hmem)
  | @cons a l hstuck ih =>
    rw [Rollup.roll] at hl
    split_ifs at hl
    · cases hl
      exact .cons hstuck
    · obtain ⟨rest, hrest, rfl⟩ := Option.map_eq_some_iff.mp hl
      exact .cons (ih hrest)

/-! ### Addresses -/

/-- The objects at the addresses. -/
def deref (objs : List α) (is : List ℕ) : List α := is.filterMap (objs[·]?)

/-- The address of the element that `roll` updates. -/
def find (p q : α → Bool) (objs : List α) : List ℕ → Option ℕ
  | [] => none
  | i :: is =>
    match objs[i]? with
    | none => none
    | some a => if p a then some i else if q a then find p q objs is else none

theorem mem_of_find {objs : List α} {is : List ℕ} {i : ℕ} (h : find p q objs is = some i) : i ∈ is := by
  induction is with
  | nil => cases h
  | cons j is ih =>
    rw [find] at h
    cases hj : objs[j]? with
    | none => simp [hj] at h
    | some a =>
      simp only [hj] at h
      split_ifs at h
      · cases h
        exact List.mem_cons_self
      · exact List.mem_cons_of_mem _ (ih h)

/-- An update elsewhere is not seen. -/
theorem deref_modify_of_notMem {objs : List α} {is : List ℕ} {i : ℕ} (h : i ∉ is) :
    deref (objs.modify i f) is = deref objs is := by
  refine List.filterMap_congr fun j hj => ?_
  have hne : i ≠ j := fun heq => h (heq ▸ hj)
  rw [List.getElem?_modify_ne f objs hne]

theorem deref_cons {objs : List α} {i : ℕ} {a : α} (h : objs[i]? = some a) (is : List ℕ) :
    deref objs (i :: is) = a :: deref objs is := by
  rw [deref, List.filterMap_cons_some h, deref]

theorem deref_append (objs : List α) (is js : List ℕ) :
    deref objs (is ++ js) = deref objs is ++ deref objs js := List.filterMap_append

theorem deref_reverse (objs : List α) (is : List ℕ) : deref objs is.reverse = (deref objs is).reverse :=
  List.filterMap_reverse

/-- With distinct addresses, updating in place is rolling. -/
theorem roll_deref {objs : List α} {is : List ℕ} (hnodup : is.Nodup) (hvalid : ∀ i ∈ is, i < objs.length) :
    roll p q f (deref objs is) = (find p q objs is).map fun i => deref (objs.modify i f) is := by
  induction is with
  | nil => rfl
  | cons i is ih =>
    obtain ⟨hi, hrest⟩ := List.forall_mem_cons.mp hvalid
    obtain ⟨hnot, hnodup⟩ := List.nodup_cons.mp hnodup
    have hget : objs[i]? = some objs[i] := List.getElem?_eq_getElem hi
    rw [deref_cons hget, roll, find, hget]
    dsimp only
    split_ifs with hp hq
    · have hnew : (objs.modify i f)[i]? = some (f objs[i]) := by
        rw [List.getElem?_modify_eq, hget]; rfl
      rw [Option.map_some, deref_cons hnew, deref_modify_of_notMem hnot]
    · rw [ih hnodup hrest, Option.map_map]
      refine Option.map_congr fun j hj => ?_
      -- The row that is found is a later one, so this one is as it was.
      have hne : j ≠ i := fun heq => hnot (heq ▸ mem_of_find hj)
      have hold : (objs.modify j f)[i]? = some objs[i] := by
        rw [List.getElem?_modify_ne f objs hne, hget]
      rw [Function.comp_apply, deref_cons hold]
    · rfl

end Rollup
