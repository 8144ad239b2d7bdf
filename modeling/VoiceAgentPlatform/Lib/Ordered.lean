import Mathlib.Data.List.Nodup
import Mathlib.Data.List.Perm.Basic

/-!
# Insertion-ordered maps and sets

The hash map and the hash set of JavaScript (`Map`, `Set`) and of Python (`dict`) keep their
entries in insertion order: writing an existing key keeps its position, a new key goes to the end.
Both are modelled by a list together with the fact that no key occurs twice.

* `OrderedMap K V`: `get?`, `has`, `set`, `delete`, `keys`, `values`.
* `OrderedSet α`: `has`, `add`, `delete`, `first`.
-/

/-- A map that remembers the order in which its keys were first inserted. -/
structure OrderedMap (K V : Type*) where
  /-- The key-value pairs, oldest key first. -/
  entries : List (K × V)
  /-- No key occurs twice. -/
  nodup_keys : (entries.map Prod.fst).Nodup

namespace OrderedMap

variable {K V : Type*}

/-- The map without entries. -/
def empty : OrderedMap K V := ⟨[], List.nodup_nil⟩

instance : EmptyCollection (OrderedMap K V) := ⟨empty⟩

/-- The keys, oldest first. -/
def keys (m : OrderedMap K V) : List K := m.entries.map Prod.fst

/-- The values, in the order of their keys. -/
def values (m : OrderedMap K V) : List V := m.entries.map Prod.snd

@[simp]
theorem entries_empty : (∅ : OrderedMap K V).entries = [] := rfl

variable [DecidableEq K]

/-- The value stored under `k`. -/
def get? (m : OrderedMap K V) (k : K) : Option V :=
  (m.entries.find? fun e => e.1 = k).map Prod.snd

/-- Whether `k` is a key. -/
def has (m : OrderedMap K V) (k : K) : Bool := (m.get? k).isSome

/-- Store `v` under `k`: in place when `k` is a key, at the end otherwise. -/
def set (m : OrderedMap K V) (k : K) (v : V) : OrderedMap K V where
  entries :=
    if k ∈ m.keys then m.entries.map fun e => if e.1 = k then (k, v) else e
    else m.entries ++ [(k, v)]
  nodup_keys := by
    split_ifs with h
    · -- In place, the keys are the same.
      have hkeys : (m.entries.map fun e => if e.1 = k then (k, v) else e).map Prod.fst =
          m.entries.map Prod.fst := by
        rw [List.map_map]
        refine List.map_congr_left fun e _ => ?_
        by_cases he : e.1 = k <;> simp [he]
      rw [hkeys]
      exact m.nodup_keys
    · rw [List.map_append]
      exact m.nodup_keys.append (List.nodup_singleton k) (by simpa [keys] using h)

/-- Remove `k` and its value. -/
def delete (m : OrderedMap K V) (k : K) : OrderedMap K V where
  entries := m.entries.filter fun e => e.1 ≠ k
  nodup_keys := (List.filter_sublist.map Prod.fst).nodup m.nodup_keys

@[simp]
theorem get?_empty (k : K) : (∅ : OrderedMap K V).get? k = none := rfl

/-- An entry is exactly a key with the value `get?` returns for it. -/
theorem mem_entries_iff {m : OrderedMap K V} {k : K} {v : V} :
    (k, v) ∈ m.entries ↔ m.get? k = some v := by
  obtain ⟨es, hnodup⟩ := m
  simp only [get?]
  induction es with
  | nil => simp
  | cons e es ih =>
    rw [List.map_cons, List.nodup_cons] at hnodup
    obtain ⟨hfresh, hrest⟩ := hnodup
    by_cases he : e.1 = k
    · -- The key is not there again.
      have hno : (k, v) ∉ es := fun hmem =>
        hfresh (he ▸ List.mem_map_of_mem (f := Prod.fst) hmem)
      obtain ⟨k', v'⟩ := e
      obtain rfl : k' = k := he
      simp [hno, eq_comm]
    · have hne : (k, v) ≠ e := fun h => he (h ▸ rfl)
      simp [he, hne, ih hrest]

theorem mem_keys_iff {m : OrderedMap K V} {k : K} : k ∈ m.keys ↔ (m.get? k).isSome := by
  rw [keys, List.mem_map, Option.isSome_iff_exists]
  constructor
  · rintro ⟨⟨k', v⟩, hmem, rfl⟩
    exact ⟨v, mem_entries_iff.mp hmem⟩
  · rintro ⟨v, hv⟩
    exact ⟨(k, v), mem_entries_iff.mpr hv, rfl⟩

theorem get?_eq_none_iff {m : OrderedMap K V} {k : K} : m.get? k = none ↔ k ∉ m.keys := by
  rw [mem_keys_iff, Option.not_isSome_iff_eq_none]

/-- The keys after a write. -/
theorem keys_set (m : OrderedMap K V) (k : K) (v : V) :
    (m.set k v).keys = if k ∈ m.keys then m.keys else m.keys ++ [k] := by
  unfold keys set
  by_cases h : k ∈ m.entries.map Prod.fst
  · rw [if_pos h]
    simp only [keys, h, if_true, List.map_map]
    apply List.map_congr_left
    intro e _
    by_cases he : e.1 = k
    · simp [he]
    · simp [he]
  · simp [keys, h]

/-- Looking up after a write: the new value at the key, the old ones elsewhere. -/
theorem get?_set (m : OrderedMap K V) (k : K) (v : V) (k' : K) :
    (m.set k v).get? k' = if k' = k then some v else m.get? k' := by
  refine Option.ext fun w => ?_
  rw [← mem_entries_iff]
  -- An existing entry is replaced in place, a new one is appended.
  by_cases hk : k ∈ m.keys
  · obtain ⟨u, hu⟩ := Option.isSome_iff_exists.mp (mem_keys_iff.mp hk)
    rw [← mem_entries_iff] at hu
    simp only [set, hk, if_true, List.mem_map]
    by_cases hkk : k' = k
    · subst hkk
      constructor
      · rintro ⟨e, -, he⟩
        by_cases hek : e.1 = k'
        · simp_all
        · rw [if_neg hek] at he
          exact absurd (congrArg Prod.fst he) hek
      · intro hw
        have hvw : v = w := by simpa using hw
        exact ⟨(k', u), hu, by simp [hvw]⟩
    · simp only [hkk, if_false]
      rw [← mem_entries_iff]
      constructor
      · rintro ⟨e, hmem, he⟩
        by_cases hek : e.1 = k
        · rw [if_pos hek] at he
          exact absurd (congrArg Prod.fst he).symm hkk
        · have : e = (k', w) := by simpa [hek] using he
          exact this ▸ hmem
      · intro hmem
        exact ⟨(k', w), hmem, by simp [hkk]⟩
  · simp only [set, hk, if_false, List.mem_append, List.mem_singleton, Prod.mk.injEq]
    by_cases hkk : k' = k
    · subst hkk
      have hno : (k', w) ∉ m.entries := fun hmem => hk (List.mem_map_of_mem (f := Prod.fst) hmem)
      simp [hno, eq_comm]
    · simp [hkk, mem_entries_iff]

@[simp]
theorem get?_set_self (m : OrderedMap K V) (k : K) (v : V) : (m.set k v).get? k = some v := by
  simp [get?_set]

theorem get?_set_of_ne (m : OrderedMap K V) (v : V) {k k' : K} (h : k' ≠ k) :
    (m.set k v).get? k' = m.get? k' := by
  simp [get?_set, h]

/-- Looking up after a removal. -/
theorem get?_delete (m : OrderedMap K V) (k k' : K) :
    (m.delete k).get? k' = if k' = k then none else m.get? k' := by
  refine Option.ext fun w => ?_
  rw [← mem_entries_iff]
  by_cases hkk : k' = k
  · simp [delete, hkk]
  · simp [delete, hkk, mem_entries_iff]

@[simp]
theorem get?_delete_self (m : OrderedMap K V) (k : K) : (m.delete k).get? k = none := by
  simp [get?_delete]

theorem get?_delete_of_ne (m : OrderedMap K V) {k k' : K} (h : k' ≠ k) :
    (m.delete k).get? k' = m.get? k' := by
  simp [get?_delete, h]

/-- A new key is appended. -/
theorem entries_set_of_get?_eq_none {m : OrderedMap K V} {k : K} (v : V) (h : m.get? k = none) :
    (m.set k v).entries = m.entries ++ [(k, v)] := by
  simp [set, get?_eq_none_iff.mp h]

/-- Storing under a key leaves the entries in their places. -/
theorem entries_set_of_get?_eq_some {m : OrderedMap K V} {k : K} {u : V} (v : V) (h : m.get? k = some u) :
    (m.set k v).entries = m.entries.map fun e => if e.1 = k then (k, v) else e := by
  have hmem : k ∈ m.keys := mem_keys_iff.mpr (by rw [h]; rfl)
  simp [set, hmem]

/-- Removing a key that is not there changes nothing. -/
theorem delete_eq_self {m : OrderedMap K V} {k : K} (h : m.get? k = none) : m.delete k = m := by
  have hall : ∀ e ∈ m.entries, e.1 ≠ k := fun e he hek =>
    get?_eq_none_iff.mp h (hek ▸ List.mem_map_of_mem he)
  obtain ⟨es, hnodup⟩ := m
  simp only [delete, mk.injEq]
  exact List.filter_eq_self.mpr fun e he => by simpa using hall e he

/-- The entries are the one removed and the ones kept. -/
theorem perm_cons_delete {m : OrderedMap K V} {k : K} {v : V} (h : m.get? k = some v) :
    m.entries.Perm ((k, v) :: (m.delete k).entries) := by
  have hnodup : ∀ m : OrderedMap K V, m.entries.Nodup := fun m => m.nodup_keys.of_map Prod.fst
  have hno : (k, v) ∉ (m.delete k).entries := by simp [delete]
  refine (List.perm_ext_iff_of_nodup (hnodup m)
    (List.nodup_cons.mpr ⟨hno, hnodup (m.delete k)⟩)).mpr fun e => ?_
  by_cases hek : e.1 = k
  · obtain ⟨k', w⟩ := e
    obtain rfl : k' = k := hek
    have hw : (k', w) ∉ (m.delete k').entries := by simp [delete]
    rw [mem_entries_iff, h, List.mem_cons]
    simp [hw, eq_comm]
  · have hne : e ≠ (k, v) := fun h => hek (h ▸ rfl)
    simp [delete, hek, hne]

/-- Overwriting a key exchanges its value for the new one. -/
theorem perm_set_of_get?_eq_some {m : OrderedMap K V} {k : K} {u : V} (v : V)
    (h : m.get? k = some u) : (m.set k v).entries.Perm ((k, v) :: (m.delete k).entries) := by
  -- The entry that is replaced is deleted either way.
  have hdel : (m.set k v).delete k = m.delete k := by
    have hk : k ∈ m.keys := mem_keys_iff.mpr (by simp [h])
    simp only [delete, set, hk, if_true, mk.injEq, List.filter_map]
    calc List.map (fun e => if e.1 = k then (k, v) else e)
          (m.entries.filter ((fun e : K × V => decide (e.1 ≠ k)) ∘
            fun e => if e.1 = k then (k, v) else e))
        = List.map (fun e => if e.1 = k then (k, v) else e)
          (m.entries.filter fun e => e.1 ≠ k) := by
          congr 1
          refine List.filter_congr fun e _ => ?_
          by_cases he : e.1 = k <;> simp [he]
      _ = m.entries.filter fun e => e.1 ≠ k := by
          refine (List.map_congr_left fun e he => ?_).trans (List.map_id _)
          have hek : e.1 ≠ k := by simpa using (List.mem_filter.mp he).2
          simp [hek]
  rw [← hdel]
  exact perm_cons_delete (get?_set_self m k v)

end OrderedMap

/-- A set that remembers the order in which its elements were inserted. -/
structure OrderedSet (α : Type*) where
  /-- The elements, oldest first. -/
  toList : List α
  /-- No element occurs twice. -/
  nodup : toList.Nodup

namespace OrderedSet

variable {α : Type*}

/-- The set without elements. -/
def empty : OrderedSet α := ⟨[], List.nodup_nil⟩

instance : EmptyCollection (OrderedSet α) := ⟨empty⟩

instance : Membership α (OrderedSet α) := ⟨fun s a => a ∈ s.toList⟩

theorem mem_def {s : OrderedSet α} {a : α} : a ∈ s ↔ a ∈ s.toList := Iff.rfl

@[simp]
theorem notMem_empty (a : α) : a ∉ (∅ : OrderedSet α) := List.not_mem_nil

/-- The oldest element: the first one an iterator yields. -/
def first (s : OrderedSet α) : Option α := s.toList.head?

/-- The number of elements. -/
def size (s : OrderedSet α) : ℕ := s.toList.length

theorem mem_of_first {s : OrderedSet α} {a : α} (h : s.first = some a) : a ∈ s :=
  List.mem_of_mem_head? h

variable [DecidableEq α]

instance (s : OrderedSet α) (a : α) : Decidable (a ∈ s) :=
  inferInstanceAs (Decidable (a ∈ s.toList))

/-- Insert `a` at the end unless it is there already. -/
def add (s : OrderedSet α) (a : α) : OrderedSet α where
  toList := if a ∈ s.toList then s.toList else s.toList ++ [a]
  nodup := by
    split_ifs with h
    · exact s.nodup
    · exact s.nodup.append (List.nodup_singleton a) (by simpa using h)

/-- Remove `a`. -/
def delete (s : OrderedSet α) (a : α) : OrderedSet α where
  toList := s.toList.filter (· ≠ a)
  nodup := s.nodup.filter _

@[simp]
theorem mem_add {s : OrderedSet α} {a b : α} : b ∈ s.add a ↔ b ∈ s ∨ b = a := by
  simp only [mem_def, add]
  split_ifs with h
  · exact ⟨Or.inl, fun hb => hb.elim id fun hba => hba ▸ h⟩
  · simp

@[simp]
theorem mem_delete {s : OrderedSet α} {a b : α} : b ∈ s.delete a ↔ b ∈ s ∧ b ≠ a := by
  simp [mem_def, delete]

end OrderedSet
