import Mathlib.Data.List.Forall2
import VoiceAgentPlatform.Lib.PyVal

/-!
# Values in DynamoDB

The conversions between Python values and the values that a table item holds: `_to_ddb` on the way
in, `_from_ddb` and `_decimal_to_native`, which do the same, on the way out. The table itself returns
every number as a decimal.

* `toDdb`, `decimalToNative`, `fromDdb`: the conversions of the program.
* `itemValue`: what a table holds after a value was written.
* `itemValue_fromDdb`: reading a value and writing it again changes nothing.
* `Native`: a value with the numbers of Python for its decimals; `native_fromDdb` is what reading gives.
-/

namespace Ddb

/-- Floats as decimals. -/
def floatToDecimal : PyVal → PyVal
  | .float q => .decimal q
  | v => v

/-- `_to_ddb`: floats become decimals. -/
def toDdb : PyVal → PyVal := PyVal.mapScalars floatToDecimal

/-- Decimals as integers where they are integral, as floats otherwise. -/
def decimalToNumber : PyVal → PyVal
  | .decimal q => if q.den = 1 then .int q.num else .float q
  | v => v

/-- `_decimal_to_native`. -/
def decimalToNative : PyVal → PyVal := PyVal.mapScalars decimalToNumber

/-- `_from_ddb`. -/
def fromDdb : PyVal → PyVal := PyVal.mapScalars decimalToNumber

/-- Numbers as decimals, which is how a table returns them. -/
def numberToDecimal : PyVal → PyVal
  | .int i => .decimal i
  | .float q => .decimal q
  | v => v

/-- What a table holds after the value was converted by `_to_ddb` and written. -/
def itemValue (v : PyVal) : PyVal := PyVal.mapScalars numberToDecimal (toDdb v)

theorem itemValue_eq (v : PyVal) : itemValue v = PyVal.mapScalars numberToDecimal v := by
  have hfloat : ∀ v : PyVal, v.isScalar = true → (floatToDecimal v).isScalar = true := by
    intro v hv
    cases v <;> first | rfl | exact hv
  rw [itemValue, toDdb, PyVal.mapScalars_mapScalars hfloat]
  refine PyVal.mapScalars_congr (fun v _ => ?_) v
  cases v <;> rfl

/-- Only strings are written as strings. -/
theorem eq_str_of_itemValue {v : PyVal} {s : String} (h : itemValue v = .str s) : v = .str s := by
  rw [itemValue_eq] at h
  cases v with
  | str s' => exact h
  | _ => exact absurd h (by simp [PyVal.mapScalars, numberToDecimal])

/-- A decimal that was read as an integer or a float is written as the decimal it was. -/
theorem numberToDecimal_decimalToNumber (v : PyVal) :
    numberToDecimal (decimalToNumber (numberToDecimal v)) = numberToDecimal v := by
  cases v with
  | int i => simp [numberToDecimal, decimalToNumber]
  | float q | decimal q =>
    simp only [numberToDecimal, decimalToNumber]
    split_ifs with hq
    · exact congrArg PyVal.decimal (Rat.den_eq_one_iff q |>.mp hq)
    · rfl
  | _ => rfl

theorem isScalar_numberToDecimal {v : PyVal} (hv : v.isScalar = true) :
    (numberToDecimal v).isScalar = true := by
  cases v <;> first | rfl | exact hv

theorem isScalar_decimalToNumber {v : PyVal} (hv : v.isScalar = true) :
    (decimalToNumber v).isScalar = true := by
  cases v with
  | decimal q =>
    rw [decimalToNumber]
    split_ifs <;> rfl
  | _ => first | rfl | exact hv

/-- Reading a value and writing it again changes nothing in the table. -/
theorem itemValue_fromDdb (v : PyVal) : itemValue (fromDdb (itemValue v)) = itemValue v := by
  rw [itemValue_eq, itemValue_eq, fromDdb,
    PyVal.mapScalars_mapScalars fun _ => isScalar_decimalToNumber,
    PyVal.mapScalars_mapScalars fun _ => isScalar_numberToDecimal]
  exact PyVal.mapScalars_congr (fun v _ => numberToDecimal_decimalToNumber v) v

/-- The value `w` is `v` with a number of Python for every decimal, at any depth: an `int` for an integral
one, a `float` for another. -/
inductive Native : PyVal → PyVal → Prop
  | int (i : ℤ) : Native (.decimal i) (.int i)
  | float (q : ℚ) (h : ∀ i : ℤ, q ≠ i) : Native (.decimal q) (.float q)
  | other (v : PyVal) (hv : v.isScalar = true) (h : ∀ q, v ≠ .decimal q) : Native v v
  | list {xs ys : List PyVal} (h : List.Forall₂ Native xs ys) : Native (.list xs) (.list ys)
  | dict {d e : PyDict} (hkeys : d.map Prod.fst = e.map Prod.fst)
      (hvalues : List.Forall₂ Native (d.map Prod.snd) (e.map Prod.snd)) : Native (.dict d) (.dict e)

theorem native_decimalToNumber {v : PyVal} (hv : v.isScalar = true) : Native v (decimalToNumber v) := by
  cases v with
  | decimal q =>
    rw [decimalToNumber]
    split_ifs with hq
    · have heq : q = q.num := ((Rat.den_eq_one_iff q).mp hq).symm
      conv => lhs; rw [heq]
      exact Native.int q.num
    · refine Native.float q fun i hi => hq ?_
      rw [hi]
      exact Rat.den_intCast i
  | _ => exact Native.other _ hv fun q h => by cases h

/-- Reading a value keeps everything but the type of its numbers. -/
theorem native_fromDdb (v : PyVal) : Native v (fromDdb v) := by
  induction v using PyVal.walk with
  | scalar v hv =>
    rw [fromDdb, PyVal.mapScalars_of_isScalar _ hv]
    exact native_decimalToNumber hv
  | list xs ih =>
    rw [fromDdb, PyVal.mapScalars, PyVal.mapScalarsList_eq_map]
    exact Native.list (List.forall₂_map_right_iff.mpr (List.forall₂_same.mpr ih))
  | dict entries ih =>
    rw [fromDdb, PyVal.mapScalars, PyVal.mapScalarsEntries_eq_map]
    refine Native.dict (by rw [List.map_map]; rfl) ?_
    rw [List.map_map, List.forall₂_map_left_iff, List.forall₂_map_right_iff]
    exact List.forall₂_same.mpr ih

end Ddb
