import Mathlib.Data.Rat.Defs
import VoiceAgentPlatform.Lib.JsText

/-!
# Numbers that JavaScript reads from texts

`Number(s)`, on lists of characters. A number is represented by the value of its numeral, before
rounding.

* `JsNumber`: the numbers other than `NaN`.
* `number`: `Number(s)`, with `none` for `NaN`.
* `number_toDigits`: the decimal digits of a natural number are read as this number.
-/

namespace JsText

/-- A number other than `NaN`. -/
inductive JsNumber where
  | finite (q : ℚ)
  | infinity (negative : Bool)
  deriving DecidableEq

/-- The number that a text of digits denotes; `none` if it is empty or has something else in it. -/
def allDigits (base : ℕ) (s : List Char) : Option ℕ :=
  if s ≠ [] ∧ ∀ c ∈ s, (digit base c).isSome then parseDigits base none s else none

/-- The digits on both sides of a decimal point, and the exponent that moves it. -/
def scaled (whole fraction : List Char) (exponent : ℤ) : Option ℚ :=
  if whole = [] ∧ fraction = [] then none
  else (allDigits 10 (whole ++ fraction)).map fun n => n * (10 : ℚ) ^ (exponent - fraction.length)

/-- An unsigned decimal numeral: digits with at most one point, and an optional exponent. -/
def decimalNumeral (s : List Char) : Option ℚ :=
  let mantissa := s.takeWhile fun c => !(c = 'e' || c = 'E')
  let whole := mantissa.takeWhile fun c => c ≠ '.'
  let fraction := (mantissa.drop whole.length).drop 1
  match s.drop mantissa.length with
  | [] => scaled whole fraction 0
  | _ :: exponent =>
    let (sign, digits) := parseSign exponent
    (allDigits 10 digits).bind fun n => scaled whole fraction (sign * n)

/-- `Number(s)`. -/
def number (s : List Char) : Option JsNumber :=
  let integer (base : ℕ) (digits : List Char) : Option JsNumber :=
    (allDigits base digits).map fun n => .finite n
  match trim s with
  | [] => some (.finite 0)
  | '0' :: 'x' :: digits | '0' :: 'X' :: digits => integer 16 digits
  | '0' :: 'o' :: digits | '0' :: 'O' :: digits => integer 8 digits
  | '0' :: 'b' :: digits | '0' :: 'B' :: digits => integer 2 digits
  | numeral =>
    let (sign, unsigned) := parseSign numeral
    if unsigned = ['I', 'n', 'f', 'i', 'n', 'i', 't', 'y'] then some (.infinity (sign < 0))
    else (decimalNumeral unsigned).map fun q => .finite (sign * q)

theorem tight_toDigits (n : ℕ) : Tight (Nat.toDigits 10 n) where
  head _ hc := isSpace_of_isDigit (isDigit_of_mem_toDigits (List.mem_of_mem_head? hc))
  last _ hc := isSpace_of_isDigit (isDigit_of_mem_toDigits (List.mem_of_getLast? hc))

theorem ne_of_isDigit {c d : Char} (hc : c.isDigit = true) (hd : d.isDigit = false) : c ≠ d := by
  rintro rfl
  exact absurd (hc.symm.trans hd) nofun

theorem decimalNumeral_toDigits (n : ℕ) : decimalNumeral (Nat.toDigits 10 n) = some (n : ℚ) := by
  have hdigits : ∀ c ∈ Nat.toDigits 10 n, c.isDigit = true := fun c hc => isDigit_of_mem_toDigits hc
  -- There is neither an exponent nor a point.
  have hmantissa : (Nat.toDigits 10 n).takeWhile (fun c => !(c = 'e' || c = 'E')) =
      Nat.toDigits 10 n := by
    refine List.takeWhile_eq_self_iff.mpr fun c hc => ?_
    simp [ne_of_isDigit (hdigits c hc) (rfl : 'e'.isDigit = false),
      ne_of_isDigit (hdigits c hc) (rfl : 'E'.isDigit = false)]
  have hwhole : (Nat.toDigits 10 n).takeWhile (fun c => c ≠ '.') = Nat.toDigits 10 n := by
    refine List.takeWhile_eq_self_iff.mpr fun c hc => ?_
    simp [ne_of_isDigit (hdigits c hc) (rfl : '.'.isDigit = false)]
  have hall : allDigits 10 (Nat.toDigits 10 n) = some n := by
    have hread := @parseDigits_toDigits n [] nofun
    rw [List.append_nil] at hread
    have hsome : ∀ c ∈ Nat.toDigits 10 n, (digit 10 c).isSome = true := fun c hc => by
      rw [digit_ten_of_isDigit (hdigits c hc)]
      rfl
    rw [allDigits, if_pos ⟨Nat.toDigits_ne_nil, hsome⟩, hread]
  rw [decimalNumeral]
  simp only [hmantissa, hwhole, List.drop_length, List.drop_nil]
  rw [scaled, if_neg fun h => Nat.toDigits_ne_nil h.1, List.append_nil, hall]
  simp

/-- The digits of a natural number are read as this number. -/
theorem number_toDigits (n : ℕ) : number (Nat.toDigits 10 n) = some (.finite n) := by
  have hdigits : ∀ c ∈ Nat.toDigits 10 n, c.isDigit = true := fun c hc => isDigit_of_mem_toDigits hc
  have hdecimal := decimalNumeral_toDigits n
  rw [number, trim_of_tight (tight_toDigits n)]
  generalize Nat.toDigits 10 n = ds at hdigits hdecimal ⊢
  split
  · exact absurd hdecimal (by simp [decimalNumeral, scaled])
  · exact absurd (hdigits 'x' (by simp)) nofun
  · exact absurd (hdigits 'X' (by simp)) nofun
  · exact absurd (hdigits 'o' (by simp)) nofun
  · exact absurd (hdigits 'O' (by simp)) nofun
  · exact absurd (hdigits 'b' (by simp)) nofun
  · exact absurd (hdigits 'B' (by simp)) nofun
  · -- No prefix, no sign and no name.
    match ds with
    | [] => exact absurd hdecimal (by simp [decimalNumeral, scaled])
    | c :: ds =>
      rw [parseSign_of_isDigit (hdigits c List.mem_cons_self)]
      have hname : c :: ds ≠ ['I', 'n', 'f', 'i', 'n', 'i', 't', 'y'] := by
        intro heq
        exact absurd (hdigits c List.mem_cons_self) (by rw [(List.cons.inj heq).1]; decide)
      simp [hname, hdecimal]

end JsText
