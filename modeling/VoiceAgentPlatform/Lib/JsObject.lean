import Mathlib.Algebra.Group.Nat.Defs
import VoiceAgentPlatform.Lib.Ordered
import Mathlib.Data.List.Induction

/-!
# Plain JavaScript objects used as dictionaries

An object literal that is filled by `o[k] = v` with string values and listed by `Object.keys`. Its
own properties are an `OrderedMap` in the order in which the keys were first written; two things
differ from a map:

* `assign`: a write to `__proto__` reaches the setter of the prototype, which ignores a string.
* `lastKey`: `Object.keys(o).pop()`. The keys that are array indices are listed first, by their
  number, whenever they were written.
-/

namespace JsObject

variable {V : Type*}

/-- The array index that a key stands for: the decimal text of a number below `2 ^ 32 - 1`. -/
def arrayIndex (key : String) : Option ℕ :=
  let n := Nat.ofDigitChars 10 key.toList 0
  if Nat.toDigits 10 n = key.toList ∧ n < 2 ^ 32 - 1 then some n else none

/-- The later of two keys in the order of `Object.keys`, where `key` was written after `last`. -/
def later (last : Option String) (key : String) : Option String :=
  match last with
  | none => some key
  | some last =>
    match arrayIndex last, arrayIndex key with
    | _, none => some key
    | none, some _ => some last
    | some i, some j => if i < j then some key else some last

/-- `Object.keys(o).pop()` for the keys in the order in which they were first written. -/
def lastKey (keys : List String) : Option String := keys.foldl later none

/-- `o[k] = v` for a string `v`. -/
def assign (o : OrderedMap String V) (k : String) (v : V) : OrderedMap String V :=
  if k = "__proto__" then o else o.set k v

theorem later_eq (last : Option String) (key : String) :
    later last key = last ∨ later last key = some key := by
  match last with
  | none => exact Or.inr rfl
  | some last =>
    simp only [later]
    split
    · exact Or.inr rfl
    · exact Or.inl rfl
    · split_ifs
      · exact Or.inr rfl
      · exact Or.inl rfl

theorem lastKey_append_singleton (keys : List String) (key : String) :
    lastKey (keys ++ [key]) = later (lastKey keys) key := by
  simp [lastKey]

/-- The last key is one of the keys. -/
theorem mem_of_lastKey {keys : List String} {key : String} (h : lastKey keys = some key) :
    key ∈ keys := by
  induction keys using List.reverseRecOn with
  | nil => cases h
  | append_singleton keys k ih =>
    rw [lastKey_append_singleton] at h
    rw [List.mem_append, List.mem_singleton]
    rcases later_eq (lastKey keys) k with hl | hl
    · exact Or.inl (ih (hl ▸ h))
    · exact Or.inr (Option.some.inj (h.symm.trans hl))

/-- A key that is not the last one does not become the last one again. -/
theorem lastKey_append_ne {keys : List String} {key new : String}
    (hlast : lastKey keys ≠ some key) (hne : new ≠ key) : lastKey (keys ++ [new]) ≠ some key := by
  rw [lastKey_append_singleton]
  rcases later_eq (lastKey keys) new with h | h
  · rwa [h]
  · rw [h]
    exact fun heq => hne (Option.some.inj heq)

theorem get?_assign {k : String} (hk : k ≠ "__proto__") (o : OrderedMap String V) (v : V)
    (k' : String) : (assign o k v).get? k' = if k' = k then some v else o.get? k' := by
  rw [assign, if_neg hk, OrderedMap.get?_set]

end JsObject
