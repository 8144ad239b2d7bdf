/-!
# Programs that raise

Taking apart programs in `Except`, and in `EStateM`, where a step that raises keeps what the steps
before it have done to the state.

* `ok_of_bind`: a computation that succeeds succeeds in its first part.
* `OnlyRaises`: a condition on what a computation raises, with its rules.
* `returned`, `exitState`: what a program returns or raises, and the state it leaves either way.
* `bind_ok`, `bind_error`, `bind_eq_ok_iff`: running a program step by step.
-/

namespace Raising

variable {ε σ α β : Type}

/-- A computation that succeeds succeeds in its first part. -/
theorem ok_of_bind {x : Except ε α} {f : α → Except ε β} {b : β} (h : x >>= f = .ok b) :
    ∃ a, x = .ok a ∧ f a = .ok b := by
  cases x with
  | error e => cases h
  | ok a => exact ⟨a, rfl, h⟩

/-- Whatever the computation raises meets `P`. -/
def OnlyRaises (P : ε → Prop) (x : Except ε α) : Prop := ∀ e, x = .error e → P e

section OnlyRaises

variable {P : ε → Prop} {x : Except ε α}

theorem onlyRaises_ok (a : α) : OnlyRaises P (.ok a) := nofun

theorem OnlyRaises.bind {f : α → Except ε β} (hx : OnlyRaises P x) (hf : ∀ a, OnlyRaises P (f a)) :
    OnlyRaises P (x >>= f) := by
  cases x with
  | ok a => exact hf a
  | error e =>
    rintro _ ⟨⟩
    exact hx e rfl

theorem OnlyRaises.map (hx : OnlyRaises P x) (f : α → β) : OnlyRaises P (x.map f) := by
  cases x with
  | ok a => exact onlyRaises_ok (f a)
  | error e =>
    rintro _ ⟨⟩
    exact hx e rfl

end OnlyRaises

/-- What a program returns or raises. -/
def returned (x : EStateM ε σ α) (s : σ) : Except ε α :=
  match x s with
  | .ok a _ => .ok a
  | .error e _ => .error e

/-- The state that a program leaves, whether it returns or raises. -/
def exitState (x : EStateM ε σ α) (s : σ) : σ :=
  match x s with
  | .ok _ s => s
  | .error _ s => s

variable {x : EStateM ε σ α} {s t : σ}

/-- What comes after a program that returned. -/
theorem bind_ok {a : α} (h : x s = .ok a t) (f : α → EStateM ε σ β) : (x >>= f) s = f a t := by
  show EStateM.bind x f s = _
  rw [EStateM.bind, h]

/-- Nothing comes after a program that raised. -/
theorem bind_error {e : ε} (h : x s = .error e t) (f : α → EStateM ε σ β) :
    (x >>= f) s = .error e t := by
  show EStateM.bind x f s = _
  rw [EStateM.bind, h]

/-- A program that returns returns from its first part. -/
theorem bind_eq_ok_iff {f : α → EStateM ε σ β} {b : β} :
    (x >>= f) s = .ok b t ↔ ∃ a s', x s = .ok a s' ∧ f a s' = .ok b t := by
  constructor
  · intro h
    cases hx : x s with
    | ok a s' => exact ⟨a, s', rfl, (bind_ok hx f).symm.trans h⟩
    | error e s' =>
      rw [bind_error hx] at h
      cases h
  · rintro ⟨a, s', hx, hf⟩
    rw [bind_ok hx, hf]

theorem returned_bind_ok {a : α} (h : x s = .ok a t) (f : α → EStateM ε σ β) :
    returned (x >>= f) s = returned (f a) t := by
  rw [returned, bind_ok h]
  rfl

end Raising
