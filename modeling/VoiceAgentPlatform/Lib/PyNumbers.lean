import VoiceAgentPlatform.Lib.Binary64
import VoiceAgentPlatform.Lib.PyVal

/-!
# Numbers in Python values

Python compares an integer with a float by their exact values, so values that hold `1` and `1.0` in
the same places are equal. The value of a float is that of the double nearest to its decimal
notation.

* `allScalars`: a test of every scalar at any depth.
* `mapScalars_eq_iff`: two walks that do the same to a value.
* `alike`: equality up to the types of numbers.
-/

namespace PyVal

mutual

/-- Every scalar satisfies `p`, at any depth in lists and dictionaries. -/
def allScalars (p : PyVal → Bool) : PyVal → Bool
  | list xs => allScalarsList p xs
  | dict entries => allScalarsEntries p entries
  | none => p none
  | bool b => p (bool b)
  | int i => p (int i)
  | float q => p (float q)
  | nan => p nan
  | infinity negative => p (infinity negative)
  | decimal q => p (decimal q)
  | str s => p (str s)

/-- `allScalars` on the elements of a list. -/
def allScalarsList (p : PyVal → Bool) : List PyVal → Bool
  | [] => true
  | x :: xs => allScalars p x && allScalarsList p xs

/-- `allScalars` on the values of a dictionary. -/
def allScalarsEntries (p : PyVal → Bool) : List (String × PyVal) → Bool
  | [] => true
  | e :: entries => allScalarsEntry p e && allScalarsEntries p entries

/-- `allScalars` on the value of one key. -/
def allScalarsEntry (p : PyVal → Bool) : String × PyVal → Bool
  | (_, value) => allScalars p value

end

theorem allScalars_of_isScalar (p : PyVal → Bool) {v : PyVal} (h : v.isScalar = true) :
    allScalars p v = p v := by
  match v with
  | list xs => exact absurd h nofun
  | dict entries => exact absurd h nofun
  | none | bool _ | int _ | float _ | nan | infinity _ | decimal _ | str _ => rw [allScalars]

theorem allScalars_list (p : PyVal → Bool) (xs : List PyVal) :
    allScalars p (list xs) = xs.all (allScalars p) := by
  rw [allScalars]
  induction xs with
  | nil => rfl
  | cons x xs ih => rw [allScalarsList, ih, List.all_cons]

theorem allScalars_dict (p : PyVal → Bool) (entries : List (String × PyVal)) :
    allScalars p (dict entries) = entries.all fun e => allScalars p e.2 := by
  rw [allScalars]
  induction entries with
  | nil => rfl
  | cons e entries ih => rw [allScalarsEntries, allScalarsEntry, ih, List.all_cons]

/-- Two walks do the same to a value if and only if they do the same to each of its scalars, which
may be known to satisfy `q`. -/
theorem mapScalars_eq_iff {f g : PyVal → PyVal} {p q : PyVal → Bool}
    (h : ∀ v : PyVal, v.isScalar = true → q v = true → (f v = g v ↔ p v = true)) {v : PyVal}
    (hv : allScalars q v = true) : mapScalars f v = mapScalars g v ↔ allScalars p v = true := by
  induction v using walk with
  | scalar v hscalar =>
    rw [allScalars_of_isScalar q hscalar] at hv
    rw [mapScalars_of_isScalar f hscalar, mapScalars_of_isScalar g hscalar,
      allScalars_of_isScalar p hscalar]
    exact h v hscalar hv
  | list xs ih =>
    rw [allScalars_list, List.all_eq_true] at hv
    rw [mapScalars, mapScalars, mapScalarsList_eq_map, mapScalarsList_eq_map, list.injEq,
      List.map_inj_left, allScalars_list, List.all_eq_true]
    exact forall₂_congr fun x hx => ih x hx (hv x hx)
  | dict entries ih =>
    rw [allScalars_dict, List.all_eq_true] at hv
    rw [mapScalars, mapScalars, mapScalarsEntries_eq_map, mapScalarsEntries_eq_map, dict.injEq,
      List.map_inj_left, allScalars_dict, List.all_eq_true]
    -- The keys are the same.
    refine forall₂_congr fun e he => ?_
    rw [Prod.mk.injEq, ← ih e he (hv e he)]
    exact and_iff_right rfl

/-- A test of the scalars of a list or a dictionary is one of its elements or values. -/
theorem allScalars_imp {p q : PyVal → Bool} (h : ∀ v : PyVal, p v = true → q v = true) {v : PyVal}
    (hv : allScalars p v = true) : allScalars q v = true := by
  induction v using walk with
  | scalar v hscalar =>
    rw [allScalars_of_isScalar _ hscalar] at hv ⊢
    exact h v hv
  | list xs ih =>
    rw [allScalars_list, List.all_eq_true] at hv ⊢
    exact fun x hx => ih x hx (hv x hx)
  | dict entries ih =>
    rw [allScalars_dict, List.all_eq_true] at hv ⊢
    exact fun e he => ih e he (hv e he)

/-! ### Equality of numbers -/

/-- A number as its exact value. -/
def numericValue : PyVal → PyVal
  | int i => decimal i
  | float q => decimal (Binary64.nearest q)
  | v => v

/-- `v == w`, where the numbers in both are integers and floats. -/
def alike (v w : PyVal) : Prop := mapScalars numericValue v = mapScalars numericValue w

instance (v w : PyVal) : Decidable (alike v w) := inferInstanceAs (Decidable (_ = _))

/-- A scalar of JSON. -/
def isJsonScalar : PyVal → Bool
  | none => true
  | bool _ => true
  | int _ => true
  | float _ => true
  | str _ => true
  | _ => false

/-- Values of JSON, with finite numbers. -/
def jsonLike : PyVal → Bool := allScalars isJsonScalar

/-- A float that has the value of its notation, or whose notation is not integral. -/
def isExactInteger : PyVal → Bool
  | float q => q.den ≠ 1 || Binary64.nearest q = q
  | _ => true

/-- A float below `2 ^ 53` has the value of its notation, if that is integral. -/
def isSmallInteger : PyVal → Bool
  | float q => q.den ≠ 1 || |q.num| < 2 ^ 53
  | _ => true

theorem isExactInteger_of_isSmallInteger {v : PyVal} (h : isSmallInteger v = true) :
    isExactInteger v = true := by
  match v with
  | float q =>
    simp only [isSmallInteger, isExactInteger, ne_eq, Bool.or_eq_true, Bool.not_eq_true',
      decide_eq_false_iff_not, decide_eq_true_eq, decide_not] at h ⊢
    by_cases hq : q.den = 1
    · -- The notation is that of an integer.
      have hsmall := Binary64.nearest_intCast (h.resolve_left (not_not_intro hq))
      rw [Rat.den_eq_one_iff q |>.mp hq] at hsmall
      exact Or.inr hsmall
    · exact Or.inl hq
  | none | bool _ | int _ | nan | infinity _ | decimal _ | str _ | list _ | dict _ => rfl

end PyVal
