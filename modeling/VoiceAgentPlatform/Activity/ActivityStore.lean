import Mathlib.Tactic.Ring
import VoiceAgentPlatform.Ddb
import VoiceAgentPlatform.History.List
import VoiceAgentPlatform.Lib.Date
import VoiceAgentPlatform.Lib.Keyset

/-!
# The activity log

`ActivityStore.query` of `activity_store.py`: a request walks the days of a window from the newest
to the oldest, reads the partition of each day, and stops when it has collected a page.

* `ActivityTable`: the partitions of the days, newest row first.
* `parseDay`: the date of a text; `parseDay_iso` is its round trip.
* `windowBounds`, `dayRangeDesc`: the days of the window of a request.
* `queryDay`: all pages of a partition; how it splits into pages is the table's choice.
* `query`: a request.
-/

namespace Activity

open Calendar
open History (Split)
open Keyset (Page)
open Date (digits digitChar exists_of_mem_digits)
open PyText (isSpace strip nat? int? intDigits?)

/-- A row of the activity table: its keys, and the other attributes. -/
structure ActivityRow where
  day : String
  tsId : String
  attributes : PyDict

/-- The item of a row. -/
def ActivityRow.item (row : ActivityRow) : PyDict :=
  ("day", .str row.day) :: ("ts_id", .str row.tsId) :: row.attributes

/-- `_from_ddb_row`. -/
def fromDdbRow (row : ActivityRow) : PyDict := PyDict.mapValues Ddb.fromDdb row.item

/-- The activity table: the rows of each day, the greatest sort key first. -/
structure ActivityTable where
  partition : String → List ActivityRow
  day_eq : ∀ day, ∀ row ∈ partition day, row.day = day
  sorted : ∀ day, (partition day).Pairwise fun v w => w.tsId < v.tsId

/-- What `int` and `date` raise, and arithmetic that leaves the calendar. -/
inductive DateError where
  | value
  | overflow
  deriving DecidableEq

/-- Whether a number is a C `int`. -/
def isCInt (n : ℤ) : Bool := -2 ^ 31 ≤ n ∧ n < 2 ^ 31

/-- `date(y, m, d)`. -/
def date (y m d : ℤ) : Except DateError Date :=
  if !(isCInt y && isCInt m && isCInt d) then .error .overflow
  else if h : 1 ≤ y.toNat ∧ y.toNat ≤ 9999 ∧ 1 ≤ m.toNat ∧ m.toNat ≤ 12 ∧ 1 ≤ d.toNat ∧
      d.toNat ≤ daysInMonth y.toNat m.toNat then
    .ok ⟨y.toNat, m.toNat, d.toNat, h⟩
  else .error .value

/-- `y, m, d = (int(x) for x in day.split("-"))` and the date of the three numbers. -/
def parseDay (day : String) : Except DateError Date :=
  match ((day.toList.splitOn '-').map String.ofList).map int? with
  | [some y, some m, some d] => date y m d
  | _ => .error .value

/-- A digit is a digit to `int`, and none of the characters that texts of dates and cursors are
split at. -/
theorem digitChar_spec {k : ℕ} (hk : k < 10) :
    (digitChar k).isDigit = true ∧ (digitChar k).toNat - 48 = k ∧ digitChar k ≠ '_' ∧
      digitChar k ≠ '+' ∧ digitChar k ≠ '-' ∧ digitChar k ≠ '|' ∧ isSpace (digitChar k) = false := by
  interval_cases k <;> decide

theorem intDigits?_cons {c : Char} (hc : c.isDigit = true) (hne : c ≠ '_') (value : ℕ)
    (cs : List Char) : intDigits? value (c :: cs) = intDigits? (value * 10 + (c.toNat - 48)) cs := by
  rw [intDigits?, if_pos hc]
  rintro c' cs' heq -
  exact hne heq

theorem intDigits?_digits {w n : ℕ} (h : n < 10 ^ w) (value : ℕ) :
    intDigits? value (digits w n) = some (value * 10 ^ w + n) := by
  induction w generalizing n value with
  | zero =>
    obtain rfl : n = 0 := by omega
    rw [digits, intDigits?]
    simp
  | succ w ih =>
    have hhead : n / 10 ^ w < 10 := Nat.div_lt_of_lt_mul (by rwa [pow_succ] at h)
    obtain ⟨hdigit, hval, hne, -⟩ := digitChar_spec hhead
    rw [digits, Nat.mod_eq_of_lt hhead, intDigits?_cons hdigit hne, hval,
      ih (Nat.mod_lt _ (by positivity))]
    refine congrArg some ?_
    calc (value * 10 + n / 10 ^ w) * 10 ^ w + n % 10 ^ w
        = value * 10 ^ (w + 1) + (10 ^ w * (n / 10 ^ w) + n % 10 ^ w) := by ring
      _ = value * 10 ^ (w + 1) + n := by rw [Nat.div_add_mod]

/-- Nothing is stripped from digits. -/
theorem strip_digits (w n : ℕ) : strip (String.ofList (digits w n)) = String.ofList (digits w n) := by
  have hdrop (cs : List Char) (h : ∀ c ∈ cs, ∃ k < 10, c = digitChar k) :
      cs.dropWhile isSpace = cs := by
    cases cs with
    | nil => rfl
    | cons c cs =>
      obtain ⟨k, hk, rfl⟩ := h c List.mem_cons_self
      rw [List.dropWhile_cons_of_neg (by simp [(digitChar_spec hk).2.2.2.2.2.2])]
  rw [strip, String.toList_ofList, hdrop _ fun c hc => exists_of_mem_digits hc,
    hdrop _ fun c hc => exists_of_mem_digits (List.mem_reverse.mp hc), List.reverse_reverse]

/-- Reading a number of at least one digit. -/
theorem int?_digits {w n : ℕ} (h : n < 10 ^ (w + 1)) :
    int? (String.ofList (digits (w + 1) n)) = some (n : ℤ) := by
  have hhead : n / 10 ^ w < 10 := Nat.div_lt_of_lt_mul (by rwa [pow_succ] at h)
  obtain ⟨hdigit, hval, hunder, hplus, hminus, -⟩ := digitChar_spec hhead
  -- The digits are those of the number, and none of them is a sign.
  have hnat : nat? (digits (w + 1) n) = some n := by
    have hall := intDigits?_digits h 0
    rw [digits, Nat.mod_eq_of_lt hhead, intDigits?_cons hdigit hunder, Nat.zero_mul,
      Nat.zero_add, Nat.zero_mul, Nat.zero_add] at hall
    rw [digits, Nat.mod_eq_of_lt hhead, nat?, if_pos hdigit, hall]
  rw [int?, strip_digits, String.toList_ofList]
  split
  · rename_i heq
    rw [digits, Nat.mod_eq_of_lt hhead] at heq
    exact absurd (List.cons.inj heq).1 hminus
  · rename_i heq
    rw [digits, Nat.mod_eq_of_lt hhead] at heq
    exact absurd (List.cons.inj heq).1 hplus
  · rw [hnat]
    rfl

/-- Reading the text of a date gives the date. -/
theorem parseDay_iso (d : Date) : parseDay d.iso = .ok d := by
  have hd := d.valid
  have hday : daysInMonth d.year d.month ≤ 31 := by
    unfold daysInMonth
    split_ifs <;> omega
  have hminus (w n : ℕ) : '-' ∉ digits w n := by
    intro h
    obtain ⟨k, hk, heq⟩ := exists_of_mem_digits h
    exact (digitChar_spec hk).2.2.2.2.1 heq.symm
  -- The dashes are those between the numbers.
  have hsplit : d.iso.toList.splitOn '-' = [digits 4 d.year, digits 2 d.month, digits 2 d.day] := by
    rw [Date.iso, String.toList_ofList, List.splitOn_append_cons_self, List.splitOn_append_cons_self,
      List.splitOn_eq_singleton (hminus 4 _), List.splitOn_eq_singleton (hminus 2 _),
      List.splitOn_eq_singleton (hminus 2 _)]
    rfl
  rw [parseDay, hsplit]
  simp only [List.map_cons, List.map_nil]
  rw [int?_digits (by omega), int?_digits (by omega), int?_digits (by omega)]
  have hfits : (isCInt d.year && isCInt d.month && isCInt d.day) = true := by
    simp only [isCInt, Bool.and_eq_true, decide_eq_true_eq]
    omega
  simp only [date, hfits, Int.toNat_natCast]
  exact dif_pos hd

/-- `d - timedelta(days=n)`. -/
def minusDays : Date → ℕ → Except DateError Date
  | d, 0 => .ok d
  | d, n + 1 =>
    match d.pred with
    | none => .error .overflow
    | some c => minusDays c n

/-- `_days_ago`. -/
def daysAgo (day : String) (n : ℕ) : Except DateError String := do
  return (← minusDays (← parseDay day) n).iso

/-- The `while` loop of `_day_range_desc`, which may append `guard` more days. -/
def dayLoop (start : Date) : ℕ → Date → Except DateError (List Date)
  | 0, _ => .ok []
  | guard + 1, cur =>
    if start ≤ cur then do
      let prev ← minusDays cur 1
      return cur :: (← dayLoop start guard prev)
    else .ok []

/-- `_day_range_desc`. -/
def dayRangeDesc (dFrom dTo : String) : Except DateError (List Date) := do
  let start ← parseDay dFrom
  let cur ← parseDay dTo
  dayLoop start 366 cur

/-- The parameters of a request. -/
structure ActivityQuery where
  dayFrom : Option String
  dayTo : Option String
  actor : Option String
  type : Option String
  limit : ℤ

/-- `d_from` and `d_to`: until today, and from 90 days before, unless the request says otherwise. -/
def windowBounds (today : Date) (q : ActivityQuery) : Except DateError (String × String) := do
  let dTo := PyText.orDefault q.dayTo today.iso
  let dFrom ←
    match q.dayFrom with
    | none => daysAgo dTo 90
    | some dayFrom => if dayFrom = "" then daysAgo dTo 90 else .ok dayFrom
  return if dTo < dFrom then (dTo, dFrom) else (dFrom, dTo)

/-- The limit that `query` applies. -/
def effectiveLimit (limit : ℤ) : ℕ := (max 1 (min (if limit = 0 then 100 else limit) 1000)).toNat

/-- The cursor that names a row: its day and its sort key. -/
def encodeCursor (day tsId : String) : String := String.ofList (day.toList ++ '|' :: tsId.toList)

/-- `cursor.split("|", 1)`: the day and the sort key that a cursor names. -/
def parseCursor (cursor : Option String) : Option (String × String) :=
  let text := (cursor.getD "").toList
  if '|' ∈ text then
    some (String.ofList (text.takeWhile (· ≠ '|')), String.ofList (text.dropWhile (· ≠ '|')).tail)
  else none

/-- One page of a partition behind the position `start`. -/
def queryPage (partition : List ActivityRow) (split : Split) (start : Option String) :
    List ActivityRow × Option String :=
  Keyset.storePage (fun key row => row.tsId < key) ActivityRow.tsId partition split.size split.more
    start

/-- `_query_day`. A partition has no more pages than rows, and one more that is empty. -/
def queryDay (t : ActivityTable) (split : ℕ → Split) (day : String) : List ActivityRow :=
  Keyset.readPages (fun pages => queryPage (t.partition day) (split pages))
    ((t.partition day).length + 1) 0 none

/-- `r.get(name) == text`. -/
def isText (value : PyVal) (text : String) : Bool :=
  match value with
  | .str s => s = text
  | _ => false

/-- Whether a row passes the filter for one of its attributes. -/
def passes (name : String) (filter : Option String) (row : ActivityRow) : Bool :=
  match filter with
  | none => true
  | some text => text = "" || isText (PyDict.get row.item name) text

/-- Whether a row passes the filters of a request. -/
def wanted (q : ActivityQuery) (row : ActivityRow) : Bool :=
  passes "actor" q.actor row && passes "type" q.type row

/-- Whether a row of the cursor's own day was returned before. -/
def alreadySent (cur : Option (String × String)) (day : String) (row : ActivityRow) : Bool :=
  match cur with
  | none => false
  | some (curDay, curTsId) => day = curDay && decide (curTsId ≤ row.tsId)

/-- The loop over the rows of a day: the response if the limit is reached, else what is collected. -/
def takeRows (q : ActivityQuery) (cur : Option (String × String)) (day : String) :
    List ActivityRow → List PyDict → Page PyDict String ⊕ List PyDict
  | [], collected => .inr collected
  | row :: rows, collected =>
    if alreadySent cur day row then takeRows q cur day rows collected
    else if !wanted q row then takeRows q cur day rows collected
    else
      let collected := collected ++ [fromDdbRow row]
      -- The page ends at this row, although more of its day may follow.
      if effectiveLimit q.limit ≤ collected.length then
        .inl ⟨collected, some (encodeCursor day row.tsId)⟩
      else takeRows q cur day rows collected

/-- The loop over the days of the window. -/
def takeDays (t : ActivityTable) (split : String → ℕ → Split) (q : ActivityQuery) :
    List String → Option (String × String) → List PyDict → Page PyDict String
  | [], _, collected => ⟨collected, none⟩
  | day :: days, cur, collected =>
    -- Days newer than the cursor's were sent before.
    if cur.any fun c => c.1 < day then takeDays t split q days cur collected
    else
      match takeRows q cur day (queryDay t (split day) day) collected with
      | .inl response => response
      | .inr collected =>
        takeDays t split q days (if cur.any fun c => c.1 = day then none else cur) collected

/-- `ActivityStore.query`, with `split day p` the choice of the table for page `p` of a day. What is
raised outside the `try` reaches the caller. -/
def query (t : ActivityTable) (split : String → ℕ → Split) (today : Date) (q : ActivityQuery)
    (cursor : Option String) : Except DateError (Page PyDict String) := do
  let (dFrom, dTo) ← windowBounds today q
  let days ← dayRangeDesc dFrom dTo
  return takeDays t split q (days.map Date.iso) (parseCursor cursor) []

end Activity
