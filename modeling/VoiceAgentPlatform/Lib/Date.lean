import Mathlib.Data.Nat.Notation
import Mathlib.Data.Prod.Lex
import Mathlib.Data.String.Basic
import Mathlib.Tactic.IntervalCases

/-!
# Calendar dates

Dates of the Gregorian calendar between the years 1 and 9999, the day before a date, and the text
`YYYY-MM-DD` of a date.

* `Date`: a date, with its validity; dates are ordered by year, month and day.
* `Date.ordinal`: the number of a day; `lt_iff_ordinal_lt` says that it follows the order.
* `Date.pred`: the day before; `ordinal_pred` says that no day lies between.
* `Date.ofOrdinal?`, `Date.isoOfTimestamp`: the date with a number, and the text of a time.
* `Date.iso`: the text of a date; `iso_lt_iso_iff` says that texts are ordered as their dates.
-/

namespace Calendar

/-- Leap years. -/
def isLeap (year : ℕ) : Bool := year % 4 = 0 ∧ (year % 100 ≠ 0 ∨ year % 400 = 0)

/-- The number of days of a month. -/
def daysInMonth (year month : ℕ) : ℕ :=
  if month = 2 then if isLeap year then 29 else 28
  else if month = 4 ∨ month = 6 ∨ month = 9 ∨ month = 11 then 30
  else 31

/-- A date. -/
@[ext] structure Date where
  year : ℕ
  month : ℕ
  day : ℕ
  valid : 1 ≤ year ∧ year ≤ 9999 ∧ 1 ≤ month ∧ month ≤ 12 ∧ 1 ≤ day ∧ day ≤ daysInMonth year month

/-- The number of days before a year, counted from the year 1. -/
def daysBeforeYear (year : ℕ) : ℕ :=
  (year - 1) * 365 + (year - 1) / 4 - (year - 1) / 100 + (year - 1) / 400

/-- The number of days of a year before a month. -/
def daysBeforeMonth (year : ℕ) : ℕ → ℕ
  | 0 => 0
  | 1 => 0
  | month + 2 => daysBeforeMonth year (month + 1) + daysInMonth year (month + 1)

/-- The number of days of a year. -/
def daysInYear (year : ℕ) : ℕ := if isLeap year then 366 else 365

theorem isLeap_iff (year : ℕ) :
    isLeap year = true ↔ 4 ∣ year ∧ (¬ 100 ∣ year ∨ 400 ∣ year) := by
  simp [isLeap, Nat.dvd_iff_mod_eq_zero]

theorem daysBeforeYear_succ {year : ℕ} (h : 1 ≤ year) :
    daysBeforeYear (year + 1) = daysBeforeYear year + daysInYear year := by
  obtain ⟨n, rfl⟩ := Nat.exists_eq_add_of_le' h
  have h100 : 100 ∣ n + 1 → 4 ∣ n + 1 := fun h => Dvd.dvd.trans (by decide) h
  have h400 : 400 ∣ n + 1 → 100 ∣ n + 1 := fun h => Dvd.dvd.trans (by decide) h
  have hle : n / 100 ≤ n / 4 := Nat.div_le_div_left (by decide) (by decide)
  simp only [daysBeforeYear, daysInYear, isLeap_iff, Nat.add_sub_cancel, Nat.succ_div]
  -- A leap day every four years, but not every hundred, except every four hundred.
  by_cases hfour : 4 ∣ n + 1
  · by_cases hhundred : 100 ∣ n + 1
    · by_cases hlast : 400 ∣ n + 1 <;> simp [hfour, hhundred, hlast] <;> omega
    · simp [hfour, hhundred, mt h400 hhundred]
      omega
  · simp [hfour, mt h100 hfour, mt h400 (mt h100 hfour)]
    omega

theorem daysBeforeYear_mono {year year' : ℕ} (h : 1 ≤ year) (hle : year ≤ year') :
    daysBeforeYear year ≤ daysBeforeYear year' := by
  induction year', hle using Nat.le_induction with
  | base => exact le_rfl
  | succ year' hle ih =>
    rw [daysBeforeYear_succ (h.trans hle)]
    omega

theorem daysBeforeMonth_succ (year : ℕ) {month : ℕ} (h : 1 ≤ month) :
    daysBeforeMonth year (month + 1) = daysBeforeMonth year month + daysInMonth year month := by
  obtain ⟨month, rfl⟩ := Nat.exists_eq_add_of_le' h
  rfl

theorem daysBeforeMonth_mono (year : ℕ) {month month' : ℕ} (h : 1 ≤ month) (hle : month ≤ month') :
    daysBeforeMonth year month ≤ daysBeforeMonth year month' := by
  induction month', hle using Nat.le_induction with
  | base => exact le_rfl
  | succ month' hle ih =>
    rw [daysBeforeMonth_succ year (h.trans hle)]
    omega

/-- The months make up the year. -/
theorem daysBeforeMonth_thirteen (year : ℕ) : daysBeforeMonth year 13 = daysInYear year := by
  cases h : isLeap year <;> simp [daysBeforeMonth, daysInMonth, daysInYear, h]

namespace Date

/-- Year, month and day. -/
def key (d : Date) : ℕ ×ₗ ℕ ×ₗ ℕ := toLex (d.year, toLex (d.month, d.day))

theorem key_injective : Function.Injective key := by
  intro a b h
  simp only [key, EmbeddingLike.apply_eq_iff_eq, Prod.mk.injEq] at h
  exact Date.ext h.1 h.2.1 h.2.2

instance : LinearOrder Date := LinearOrder.lift' key key_injective

theorem lt_def {a b : Date} : a < b ↔ a.year < b.year ∨
    a.year = b.year ∧ (a.month < b.month ∨ a.month = b.month ∧ a.day < b.day) := by
  change key a < key b ↔ _
  simp [key, Prod.Lex.toLex_lt_toLex]

/-- The number of a day, counted from 1. -/
def ordinal (d : Date) : ℕ := daysBeforeYear d.year + daysBeforeMonth d.year d.month + d.day

theorem day_le (d : Date) :
    daysBeforeMonth d.year d.month + d.day ≤ daysBeforeMonth d.year (d.month + 1) := by
  rw [daysBeforeMonth_succ d.year d.valid.2.2.1]
  exact Nat.add_le_add_left d.valid.2.2.2.2.2 _

theorem ordinal_lt_of_lt {a b : Date} (h : a < b) : a.ordinal < b.ordinal := by
  have hday := a.day_le
  have hpos := b.valid.2.2.2.2.1
  unfold ordinal
  rcases lt_def.mp h with hyear | ⟨hyear, hmonth | ⟨hmonth, hday'⟩⟩
  · -- The rest of the year of `a` lies before the year of `b`.
    have hrest : daysBeforeMonth a.year (a.month + 1) ≤ daysInYear a.year := by
      rw [← daysBeforeMonth_thirteen]
      exact daysBeforeMonth_mono _ (by omega) (by have := a.valid.2.2.2.1; omega)
    have hyears := daysBeforeYear_mono (by omega) (Nat.succ_le_of_lt hyear)
    rw [Nat.succ_eq_add_one, daysBeforeYear_succ a.valid.1] at hyears
    omega
  · have hmonths : daysBeforeMonth b.year (a.month + 1) ≤ daysBeforeMonth b.year b.month :=
      daysBeforeMonth_mono b.year (by omega) hmonth
    rw [hyear] at hday ⊢
    omega
  · rw [hyear, hmonth]
    omega

/-- The numbers of days follow the order of the dates. -/
theorem lt_iff_ordinal_lt {a b : Date} : a < b ↔ a.ordinal < b.ordinal := by
  refine ⟨ordinal_lt_of_lt, fun h => ?_⟩
  by_contra hle
  rcases (not_lt.mp hle).lt_or_eq with hlt | rfl
  · exact absurd (ordinal_lt_of_lt hlt) (by omega)
  · exact lt_irrefl _ h

theorem le_iff_ordinal_le {a b : Date} : a ≤ b ↔ a.ordinal ≤ b.ordinal := by
  rw [← not_lt, lt_iff_ordinal_lt, not_lt]

/-- The day before; there is none before the first. -/
def pred (d : Date) : Option Date :=
  if hday : 1 < d.day then
    some ⟨d.year, d.month, d.day - 1, by have := d.valid; omega⟩
  else if hmonth : 1 < d.month then
    some ⟨d.year, d.month - 1, daysInMonth d.year (d.month - 1), by
      have := d.valid
      have hpos : 1 ≤ daysInMonth d.year (d.month - 1) := by
        unfold daysInMonth
        split_ifs <;> omega
      omega⟩
  else if hyear : 1 < d.year then
    some ⟨d.year - 1, 12, 31, by
      have := d.valid
      have hlast : daysInMonth (d.year - 1) 12 = 31 := rfl
      omega⟩
  else none

/-- No day lies between a date and the day before. -/
theorem ordinal_pred {d c : Date} (h : d.pred = some c) : c.ordinal + 1 = d.ordinal := by
  have hvalid := d.valid
  unfold pred at h
  split_ifs at h with hday hmonth hyear
  · obtain rfl := Option.some.inj h
    simp only [ordinal]
    omega
  · obtain rfl := Option.some.inj h
    -- The last day of the month before.
    have hmonths := daysBeforeMonth_succ d.year (show 1 ≤ d.month - 1 by omega)
    rw [Nat.sub_add_cancel (by omega)] at hmonths
    simp only [ordinal]
    omega
  · obtain rfl := Option.some.inj h
    -- The last day of the year before.
    have hyears := daysBeforeYear_succ (show 1 ≤ d.year - 1 by omega)
    rw [Nat.sub_add_cancel (by omega), ← daysBeforeMonth_thirteen] at hyears
    have hmonths : daysBeforeMonth (d.year - 1) 13 = daysBeforeMonth (d.year - 1) 12 + 31 :=
      daysBeforeMonth_succ (d.year - 1) (show 1 ≤ 12 by omega)
    have hfirst : daysBeforeMonth d.year d.month = 0 := by
      rw [show d.month = 1 by omega]
      rfl
    simp only [ordinal]
    omega

/-- Only the first day has no day before. -/
theorem ordinal_of_pred_eq_none {d : Date} (h : d.pred = none) : d.ordinal = 1 := by
  have hvalid := d.valid
  unfold pred at h
  split_ifs at h with hday hmonth hyear
  have hyear' : d.year = 1 := by omega
  have hmonth' : d.month = 1 := by omega
  simp only [ordinal, hyear', hmonth', daysBeforeYear, daysBeforeMonth]
  omega

/-- A digit as a character. -/
def digitChar (n : ℕ) : Char := Char.ofNat (48 + n)

/-- The last `w` digits of a number, the first of them in front. -/
def digits : ℕ → ℕ → List Char
  | 0, _ => []
  | w + 1, n => digitChar (n / 10 ^ w % 10) :: digits w (n % 10 ^ w)

/-- A character of the digits is a digit. -/
theorem exists_of_mem_digits {w n : ℕ} {c : Char} (h : c ∈ digits w n) :
    ∃ k < 10, c = digitChar k := by
  induction w generalizing n with
  | zero => exact absurd h List.not_mem_nil
  | succ w ih =>
    rcases List.mem_cons.mp h with rfl | h
    · exact ⟨_, Nat.mod_lt _ (by decide), rfl⟩
    · exact ih h

/-- `d.strftime("%Y-%m-%d")`. -/
def iso (d : Date) : String :=
  String.ofList (digits 4 d.year ++ '-' :: (digits 2 d.month ++ '-' :: digits 2 d.day))

theorem digitChar_lt {m n : ℕ} (h : m < n) (hn : n < 10) : digitChar m < digitChar n := by
  interval_cases n <;> interval_cases m <;> decide

/-- Numbers with the same number of digits are ordered as their digits are. -/
theorem digits_append_lt {w m n : ℕ} (h : m < n) (hn : n < 10 ^ w) (s t : List Char) :
    digits w m ++ s < digits w n ++ t := by
  induction w generalizing m n with
  | zero => omega
  | succ w ih =>
    have hpos : 0 < 10 ^ w := Nat.pos_of_ne_zero (by positivity)
    have hhead : n / 10 ^ w < 10 := Nat.div_lt_of_lt_mul (by rwa [pow_succ] at hn)
    have hle : m / 10 ^ w ≤ n / 10 ^ w := Nat.div_le_div_right h.le
    simp only [digits, List.cons_append]
    rw [Nat.mod_eq_of_lt hhead, Nat.mod_eq_of_lt (hle.trans_lt hhead), List.cons_lt_cons_iff]
    -- The first digits differ, or the rest decides.
    rcases hle.lt_or_eq with hlt | heq
    · exact Or.inl (digitChar_lt hlt hhead)
    · refine Or.inr ⟨congrArg digitChar heq, ih ?_ (Nat.mod_lt n hpos)⟩
      have hm := Nat.div_add_mod m (10 ^ w)
      have hn := Nat.div_add_mod n (10 ^ w)
      rw [heq] at hm
      omega

theorem iso_lt_iso_of_lt {a b : Date} (h : a < b) : a.iso < b.iso := by
  have hb := b.valid
  have hday : daysInMonth b.year b.month < 100 := by
    unfold daysInMonth
    split_ifs <;> omega
  rw [String.lt_iff_toList_lt, iso, iso, String.toList_ofList, String.toList_ofList]
  rcases lt_def.mp h with hyear | ⟨hyear, hmonth | ⟨hmonth, hday'⟩⟩
  · exact digits_append_lt hyear (by omega) _ _
  · rw [hyear]
    exact List.append_left_lt (List.cons_lt_cons_self.mpr (digits_append_lt hmonth (by omega) _ _))
  · rw [hyear, hmonth]
    refine List.append_left_lt (List.cons_lt_cons_self.mpr (List.append_left_lt
      (List.cons_lt_cons_self.mpr ?_)))
    simpa using digits_append_lt hday' (by omega) [] []

/-- Texts are ordered as their dates. -/
theorem iso_lt_iso_iff {a b : Date} : a.iso < b.iso ↔ a < b := by
  refine ⟨fun h => ?_, iso_lt_iso_of_lt⟩
  by_contra hle
  rcases (not_lt.mp hle).lt_or_eq with hlt | rfl
  · exact lt_asymm h (iso_lt_iso_of_lt hlt)
  · exact lt_irrefl _ h

/-- `date.fromordinal(n)`: the date with a number, if there is one. -/
def ofOrdinal? (n : ℕ) : Option Date := do
  let year ← (List.range' 1 9999).find? fun y => n ≤ daysBeforeYear (y + 1)
  let dayOfYear := n - daysBeforeYear year
  let month ← (List.range' 1 12).find? fun m => dayOfYear ≤ daysBeforeMonth year (m + 1)
  let day := dayOfYear - daysBeforeMonth year month
  if h : 1 ≤ year ∧ year ≤ 9999 ∧ 1 ≤ month ∧ month ≤ 12 ∧ 1 ≤ day ∧ day ≤ daysInMonth year month then
    some ⟨year, month, day, h⟩
  else none

/-- `datetime.fromtimestamp(ts, tz=utc).strftime("%Y-%m-%dT%H:%M:%SZ")`, if the time lies in the
calendar. The epoch is day 719163. -/
def isoOfTimestamp (ts : ℤ) : Option String := do
  let date ← ofOrdinal? (ts / 86400 + 719163).toNat
  let second := (ts % 86400).toNat
  return date.iso ++ String.ofList ('T' :: digits 2 (second / 3600) ++ ':' ::
    digits 2 (second / 60 % 60) ++ ':' :: digits 2 (second % 60) ++ ['Z'])

end Date

end Calendar
