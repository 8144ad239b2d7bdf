import Mathlib.Data.List.ReduceOption
import VoiceAgentPlatform.History.PeakConcurrent
import VoiceAgentPlatform.Lib.Binary64
import VoiceAgentPlatform.Lib.DictUpdate
import VoiceAgentPlatform.Lib.OrderStatistics
import VoiceAgentPlatform.Lib.Tally

/-!
# The numbers of the dashboard

`_aggregate_metrics` of `bot.py`: what the calls of the last 24 hours come to.

* `percentile`: the percentile by nearest rank, with the rank in floats.
* `aggregateMetrics`: durations of today, and the calls by outcome, by demo and by engine.
* `percentile_isNearestRank`: the float rank is the exact one.
* `aggregateMetrics_today`: both percentiles are those of the durations of today.
* `aggregateMetrics_distributions`: every call is counted once in each distribution.
* `aggregateMetrics_perm`: the order of the rows does not matter.
-/

namespace Dashboard

open Binary64 (nearest roundTo)
open OrderStatistics (IsQuantile)

/-- `_METRICS_OUTCOME_KEYS`. -/
def metricsOutcomeKeys : List String :=
  ["user_requested", "task_completed", "transferred", "timeout", "error", "unknown"]

/-- `math.ceil(pct / 100.0 * len(sorted_values)) - 1`. -/
def nearestRank (pct : ℚ) (length : ℕ) : ℤ := ⌈nearest (nearest (pct / 100) * length)⌉ - 1

/-- `_percentile`. -/
def percentile (sortedValues : List ℚ) (pct : ℚ) : ℚ :=
  match sortedValues with
  | [] => 0
  | v :: vs =>
    if pct ≤ 0 then v
    else if 100 ≤ pct then (v :: vs).getLast (List.cons_ne_nil v vs)
    else
      let rank := max 0 (min (nearestRank pct (v :: vs).length) ((v :: vs).length - 1))
      (v :: vs).getD rank.toNat 0

/-- `int` of a float. -/
def intOfFloat (q : ℚ) : ℤ := q.num.tdiv q.den

/-- `_utc_midnight`. -/
def utcMidnight (now : ℚ) : ℤ := intOfFloat now - intOfFloat now % 86400

/-- What the standard library does with floats: the float of a text, if it is one, and the sum. -/
structure FloatOps where
  ofText : String → Option ℚ
  sum : List ℚ → ℚ

/-- `float(d)`; none for what the loop skips. -/
def durationOf (ops : FloatOps) : PyVal → Option ℚ
  | .int i => some (nearest i)
  | .float q => some q
  | .decimal q => some (nearest q)
  | .bool b => some (if b then 1 else 0)
  | .str s => ops.ofText s
  | _ => none

/-- The duration of a row that started today and has one; the outer option is none if the start is not a
number to `int`. -/
def todayDuration (ops : FloatOps) (midnight : ℤ) (r : PyDict) : Option (Option ℚ) := do
  let started ← History.intOrZero (r.get "started_at")
  return if midnight ≤ started then durationOf ops (r.get "duration_s") else none

/-- The durations of the rows that started today, in the order of the rows. -/
def todayDurations (ops : FloatOps) (midnight : ℤ) (rows : List PyDict) : Option (List ℚ) :=
  (rows.mapM (todayDuration ops midnight)).map List.reduceOption

/-- What tells two labels apart: numbers are equal if their values are. -/
def labelIdent (label : PyVal) : PyVal :=
  match PyMap.number? label with
  | some q => .decimal q
  | none => label

/-- Whether a value can be a key of a dictionary. -/
def hashable : PyVal → Bool
  | .list _ | .dict _ => false
  | _ => true

/-- Counters by label. -/
abbrev Buckets := List (PyVal × ℕ)

/-- `value or "unknown"`. -/
def labelOf (name : String) (r : PyDict) : PyVal := (r.get name).orElse (.str "unknown")

/-- The rows counted by an attribute; none if a value cannot be a key. -/
def distribution (buckets : Buckets) (name : String) (rows : List PyDict) : Option Buckets :=
  if rows.all fun r => hashable (labelOf name r) then
    some (Tally.tally labelIdent buckets (rows.map (labelOf name)))
  else none

/-- The durations of today. -/
structure Today where
  total : ℕ
  avgDuration : ℚ
  p50Duration : ℚ
  p95Duration : ℚ
  deriving DecidableEq

/-- The payload of `/api/admin/metrics`. -/
structure Metrics where
  asOf : ℤ
  activeCalls : ℕ
  today : Today
  outcome : Buckets
  transferRate : ℚ
  demoDistribution : Buckets
  engineDistribution : Buckets
  peakConcurrent : ℤ
  deriving DecidableEq

/-- The part of the payload about today, of the sorted durations. -/
def todayOf (ops : FloatOps) (durations : List ℚ) : Today where
  total := durations.length
  avgDuration := roundTo 2 (if durations = [] then 0 else nearest (ops.sum durations / durations.length))
  p50Duration := percentile durations 50
  p95Duration := percentile durations 95

/-- The share of the calls that asked for a transfer. -/
def transferRate (rows : List PyDict) : ℚ :=
  let transferred := rows.countP fun r => (r.get "transfer_requested").truthy
  if rows = [] then 0 else nearest (transferred / rows.length)

/-- The outcomes that are always shown. -/
def outcomeBuckets : Buckets := metricsOutcomeKeys.map fun key => (.str key, 0)

/-- `_aggregate_metrics`; none if it raises. -/
def aggregateMetrics (ops : FloatOps) (now : ℚ) (rows : List PyDict) (activeCalls : ℕ) :
    Option Metrics := do
  let durations ← todayDurations ops (utcMidnight now) rows
  let outcome ← distribution outcomeBuckets "outcome" rows
  let demoDistribution ← distribution [] "scenario" rows
  let engineDistribution ← distribution [] "engine" rows
  let peakConcurrent ← History.peakConcurrent rows
  return { asOf := intOfFloat now, activeCalls
           today := todayOf ops (durations.insertionSort (· ≤ ·))
           outcome, transferRate := roundTo 4 (transferRate rows), demoDistribution, engineDistribution
           peakConcurrent }

/-- A value is the percentile by nearest rank: the least of the values with at least so many of a hundred
of them up to it. -/
def IsNearestRank (values : List ℚ) (pct : ℕ) (v : ℚ) : Prop :=
  IsLeast {v | v ∈ values ∧ pct * values.length ≤ 100 * values.countP (· ≤ v)} v

theorem IsNearestRank.perm {values values' : List ℚ} (h : values.Perm values') {pct : ℕ} {v : ℚ}
    (hv : IsNearestRank values pct v) : IsNearestRank values' pct v := by
  simpa only [IsNearestRank, h.mem_iff, h.countP_eq, h.length_eq] using hv

/-- A higher percentile is not lower. -/
theorem IsNearestRank.mono {values : List ℚ} {pct pct' : ℕ} {v v' : ℚ}
    (hv : IsNearestRank values pct v) (hv' : IsNearestRank values pct' v') (hle : pct ≤ pct') :
    v ≤ v' :=
  hv.2 ⟨hv'.1.1, (Nat.mul_le_mul_right _ hle).trans hv'.1.2⟩

theorem isNearestRank_iff {values : List ℚ} {pct : ℕ} {v : ℚ} :
    IsNearestRank values pct v ↔ IsQuantile values ((pct * values.length + 99) / 100) v := by
  have hrank (count : ℕ) :
      pct * values.length ≤ 100 * count ↔ (pct * values.length + 99) / 100 ≤ count := by
    omega
  simp only [IsNearestRank, IsQuantile, hrank]

/-- The rank in floats is the exact one, if the float of the share is not above it. -/
theorem nearestRank_eq {pct length : ℕ} (hpos : 0 < pct) (hlt : pct < 100) (hlength : 0 < length)
    (hsmall : length < 2 ^ 40) (hpct : nearest (pct / 100) ≤ pct / 100) :
    nearestRank pct length = ((pct * length + 99) / 100 : ℕ) - 1 := by
  generalize hrank : (pct * length + 99) / 100 = rank
  have hlength' : (1 : ℚ) ≤ length := by exact_mod_cast hlength
  have hsmall' : (length : ℚ) < 2 ^ 40 := by exact_mod_cast hsmall
  have hpos' : (1 : ℚ) ≤ pct := by exact_mod_cast hpos
  have hlt' : (pct : ℚ) < 100 := by exact_mod_cast hlt
  -- The share is rounded first, and then its product with the length.
  generalize hshare : nearest (pct / 100) = share at hpct
  have hshare_ge : (pct : ℚ) / 100 - pct / 100 / 2 ^ 53 ≤ share :=
    hshare ▸ Binary64.sub_le_nearest (by linarith)
  have hshare_pos : 1 / 200 ≤ share := by linarith
  have hle : share * length ≤ pct / 100 * length := by gcongr
  have hge : (pct / 100 - pct / 100 / 2 ^ 53) * length ≤ share * length := by gcongr
  have hbound : (pct : ℚ) / 100 * length < 2 ^ 40 := by nlinarith
  have hproduct : 1 / 1000 ≤ share * length := by nlinarith
  -- From above: the product is at most the exact one, which is at most the rank.
  have hupper : nearest (share * length) ≤ rank := by
    have hexact : (pct : ℚ) * length ≤ 100 * rank := by
      have : pct * length ≤ 100 * rank := by omega
      exact_mod_cast this
    have habs : |share * length| = share * length := abs_of_nonneg (by linarith)
    have hrank' : share * length ≤ (rank : ℤ) := by
      push_cast
      linarith
    exact_mod_cast Binary64.nearest_le_intCast hrank' (by rw [habs]; linarith)
  -- From below: it exceeds the rank below by a hundredth, which is more than both roundings lose.
  have hlower : (rank : ℚ) - 1 < nearest (share * length) := by
    have hexact : 100 * (rank : ℚ) ≤ pct * length + 99 := by
      have : 100 * rank ≤ pct * length + 99 := by omega
      exact_mod_cast this
    have hfloat := Binary64.sub_le_nearest hproduct
    linarith
  rw [nearestRank, hshare, sub_left_inj, Int.ceil_eq_iff]
  exact ⟨by exact_mod_cast hlower, by exact_mod_cast hupper⟩

/-- The percentile of sorted values is the one by nearest rank. -/
theorem percentile_isNearestRank {values : List ℚ} (hsorted : values.Pairwise (· ≤ ·))
    (hne : values ≠ []) (hsmall : values.length < 2 ^ 40) {pct : ℕ} (hpos : 0 < pct) (hlt : pct < 100)
    (hpct : nearest (pct / 100) ≤ pct / 100) : IsNearestRank values pct (percentile values pct) := by
  have hlength := List.length_pos_of_ne_nil hne
  have hrank := nearestRank_eq hpos hlt hlength hsmall hpct
  have hmul : pct * values.length ≤ 99 * values.length := Nat.mul_le_mul_right _ (by omega)
  have hmul_pos : 0 < pct * values.length := Nat.mul_pos hpos hlength
  obtain ⟨i, hi⟩ := Nat.exists_eq_succ_of_ne_zero
    (show (pct * values.length + 99) / 100 ≠ 0 by omega)
  have hlt_length : i < values.length := by omega
  have hvalue : percentile values pct = values[i] := by
    obtain ⟨v, vs, rfl⟩ := List.exists_cons_of_ne_nil hne
    have hindex : max 0 (min (nearestRank pct (v :: vs).length) ((v :: vs).length - 1)) = (i : ℤ) := by
      rw [hrank, hi]
      omega
    have hpos' : ¬ (pct : ℚ) ≤ 0 := by exact_mod_cast Nat.not_le.mpr hpos
    have hlt' : ¬ 100 ≤ (pct : ℚ) := by exact_mod_cast Nat.not_le.mpr hlt
    simp only [percentile, if_neg hpos', if_neg hlt', hindex, Int.toNat_natCast]
    rw [List.getD_eq_getElem?_getD, List.getElem?_eq_getElem hlt_length, Option.getD_some]
  rw [isNearestRank_iff, hi, hvalue]
  exact OrderStatistics.isQuantile_getElem hsorted hlt_length

/-- The shares that the dashboard asks for are not rounded up. -/
theorem nearest_shares_le :
    nearest ((50 : ℕ) / 100) ≤ (50 : ℕ) / 100 ∧ nearest ((95 : ℕ) / 100) ≤ (95 : ℕ) / 100 := by
  decide +kernel

section Rows

/-- Reading all rows gives one value for each. -/
theorem length_of_mapM {α β : Type} {f : α → Option β} {xs : List α} {ys : List β}
    (h : xs.mapM f = some ys) : ys.length = xs.length := by
  induction xs generalizing ys with
  | nil =>
    obtain rfl : ys = [] := by simpa using h.symm
    rfl
  | cons x xs ih =>
    simp only [List.mapM_cons, Option.pure_def, Option.bind_eq_bind, Option.bind_eq_some_iff,
      Option.some.injEq] at h
    obtain ⟨y, -, ys, hys, rfl⟩ := h
    rw [List.length_cons, List.length_cons, ih hys]

/-- Reading the rows in another order gives the values in another order. -/
theorem mapM_perm {α β : Type} {f : α → Option β} {xs xs' : List α} (hperm : xs.Perm xs') {ys : List β}
    (h : xs.mapM f = some ys) : ∃ ys', xs'.mapM f = some ys' ∧ ys.Perm ys' := by
  induction hperm generalizing ys with
  | nil => exact ⟨ys, h, .refl _⟩
  | cons x _ ih =>
    simp only [List.mapM_cons, Option.pure_def, Option.bind_eq_bind, Option.bind_eq_some_iff,
      Option.some.injEq] at h ⊢
    obtain ⟨y, hy, ys, hys, rfl⟩ := h
    obtain ⟨ys', hys', hperm⟩ := ih hys
    exact ⟨y :: ys', ⟨y, hy, ys', hys', rfl⟩, hperm.cons y⟩
  | swap x x' xs =>
    simp only [List.mapM_cons, Option.pure_def, Option.bind_eq_bind, Option.bind_eq_some_iff,
      Option.some.injEq] at h ⊢
    obtain ⟨y, hy, -, ⟨y', hy', ys, hys, rfl⟩, rfl⟩ := h
    exact ⟨y' :: y :: ys, ⟨y', hy', y :: ys, ⟨y, hy, ys, hys, rfl⟩, rfl⟩, .swap y' y ys⟩
  | trans _ _ ih ih' =>
    obtain ⟨ys', hys', hperm⟩ := ih h
    obtain ⟨ys'', hys'', hperm'⟩ := ih' hys'
    exact ⟨ys'', hys'', hperm.trans hperm'⟩

end Rows

/-- Floats of a library that reads no text, and adds exactly. -/
def sampleOps : FloatOps := ⟨fun _ => none, List.sum⟩

/-- Two calls, the second of which is from yesterday. -/
def sampleRows : List PyDict :=
  [[("started_at", .int 86400), ("ended_at", .int 86430), ("duration_s", .int 30),
      ("outcome", .str "transferred"), ("transfer_requested", .bool true), ("engine", .str "nova")],
    [("started_at", .int 86000), ("ended_at", .int 86410), ("duration_s", .int 410)]]

/-- What they come to. -/
def sampleMetrics : Metrics where
  asOf := 90000
  activeCalls := 2
  today := ⟨1, 30, 30, 30⟩
  outcome := [(.str "user_requested", 0), (.str "task_completed", 0), (.str "transferred", 1),
    (.str "timeout", 0), (.str "error", 0), (.str "unknown", 1)]
  transferRate := 1 / 2
  demoDistribution := [(.str "unknown", 2)]
  engineDistribution := [(.str "nova", 1), (.str "unknown", 1)]
  peakConcurrent := 2

theorem aggregateMetrics_sampleRows :
    aggregateMetrics sampleOps 90000 sampleRows 2 = some sampleMetrics := by decide +kernel

section Parts

variable {ops : FloatOps} {now : ℚ} {rows rows' : List PyDict} {activeCalls : ℕ} {m : Metrics}

/-- What the parts of a payload are. -/
theorem aggregateMetrics_eq_some_iff :
    aggregateMetrics ops now rows activeCalls = some m ↔
      ∃ durations, todayDurations ops (utcMidnight now) rows = some durations ∧
        m.asOf = intOfFloat now ∧ m.activeCalls = activeCalls ∧
        m.today = todayOf ops (durations.insertionSort (· ≤ ·)) ∧
        distribution outcomeBuckets "outcome" rows = some m.outcome ∧
        m.transferRate = roundTo 4 (transferRate rows) ∧
        distribution [] "scenario" rows = some m.demoDistribution ∧
        distribution [] "engine" rows = some m.engineDistribution ∧
        History.peakConcurrent rows = some m.peakConcurrent := by
  simp only [aggregateMetrics, Option.pure_def, Option.bind_eq_bind, Option.bind_eq_some_iff,
    Option.some.injEq]
  constructor
  · rintro ⟨durations, hdurations, outcome, houtcome, demo, hdemo, engine, hengine, peak, hpeak, rfl⟩
    exact ⟨durations, hdurations, rfl, rfl, rfl, houtcome, rfl, hdemo, hengine, hpeak⟩
  · rintro ⟨durations, hdurations, hasOf, hactive, htoday, houtcome, hrate, hdemo, hengine, hpeak⟩
    refine ⟨durations, hdurations, _, houtcome, _, hdemo, _, hengine, _, hpeak, ?_⟩
    rw [← hasOf, ← hactive, ← htoday, ← hrate]

/-- No more rows have a duration than there are. -/
theorem length_todayDurations_le {midnight : ℤ} {durations : List ℚ}
    (h : todayDurations ops midnight rows = some durations) : durations.length ≤ rows.length := by
  obtain ⟨found, hfound, rfl⟩ := Option.map_eq_some_iff.mp h
  exact (List.reduceOption_length_le found).trans (length_of_mapM hfound).le

/-- Both percentiles are those of the durations of today, by nearest rank; they are 0 if there are none. -/
theorem aggregateMetrics_today (hm : aggregateMetrics ops now rows activeCalls = some m)
    (hsmall : rows.length < 2 ^ 40) :
    ∃ durations, todayDurations ops (utcMidnight now) rows = some durations ∧
      m.today.total = durations.length ∧ m.today.total ≤ rows.length ∧
      (durations = [] → m.today.p50Duration = 0 ∧ m.today.p95Duration = 0) ∧
      (durations ≠ [] → IsNearestRank durations 50 m.today.p50Duration ∧
        IsNearestRank durations 95 m.today.p95Duration ∧
        m.today.p50Duration ≤ m.today.p95Duration) := by
  obtain ⟨durations, hdurations, -, -, htoday, -⟩ := aggregateMetrics_eq_some_iff.mp hm
  have hperm : (durations.insertionSort (· ≤ ·)).Perm durations := List.perm_insertionSort _ _
  have hsorted := List.pairwise_insertionSort (· ≤ ·) durations
  have hlength : m.today.total = durations.length := by rw [htoday, todayOf, hperm.length_eq]
  have hle : m.today.total ≤ rows.length := hlength ▸ length_todayDurations_le hdurations
  refine ⟨durations, hdurations, hlength, hle, ?_, fun hne => ?_⟩
  · rintro rfl
    rw [htoday]
    exact ⟨rfl, rfl⟩
  · have hne' : durations.insertionSort (· ≤ ·) ≠ [] := fun h => hne (by simpa [h] using hperm)
    have hsmall' : (durations.insertionSort (· ≤ ·)).length < 2 ^ 40 := by
      rw [hperm.length_eq, ← hlength]
      omega
    have h50 := (percentile_isNearestRank hsorted hne' hsmall' (by omega) (by omega)
      nearest_shares_le.1).perm hperm
    have h95 := (percentile_isNearestRank hsorted hne' hsmall' (by omega) (by omega)
      nearest_shares_le.2).perm hperm
    rw [htoday]
    exact ⟨h50, h95, h50.mono h95 (by omega)⟩

theorem aggregateMetrics_today_sampleRows :
    ∃ durations, todayDurations sampleOps (utcMidnight 90000) sampleRows = some durations ∧
      sampleMetrics.today.total = durations.length ∧ sampleMetrics.today.total ≤ sampleRows.length ∧
      (durations = [] → sampleMetrics.today.p50Duration = 0 ∧ sampleMetrics.today.p95Duration = 0) ∧
      (durations ≠ [] → IsNearestRank durations 50 sampleMetrics.today.p50Duration ∧
        IsNearestRank durations 95 sampleMetrics.today.p95Duration ∧
        sampleMetrics.today.p50Duration ≤ sampleMetrics.today.p95Duration) :=
  aggregateMetrics_today aggregateMetrics_sampleRows (by decide)

/-- Every row is counted once, under its label, in a distribution. -/
theorem distribution_spec {buckets result : Buckets} {name : String}
    (h : distribution buckets name rows = some result) :
    Tally.total result = Tally.total buckets + rows.length ∧
      (∀ label, Tally.count labelIdent label result = Tally.count labelIdent label buckets +
        rows.countP fun r => labelIdent (labelOf name r) = labelIdent label) ∧
      ((Tally.idents labelIdent buckets).Nodup → (Tally.idents labelIdent result).Nodup) ∧
      ∀ i, i ∈ Tally.idents labelIdent result ↔
        i ∈ Tally.idents labelIdent buckets ∨ ∃ r ∈ rows, labelIdent (labelOf name r) = i := by
  rw [distribution] at h
  split_ifs at h
  obtain rfl := Option.some.inj h
  refine ⟨?_, fun label => ?_, fun hnodup => Tally.nodup_tally hnodup _, fun i => ?_⟩
  · rw [Tally.total_tally, List.length_map]
  · rw [Tally.count_tally, List.countP_map]
    rfl
  · rw [Tally.mem_idents_tally]
    simp only [List.mem_map, exists_exists_and_eq_and]

/-- The share of the calls that asked for a transfer is a share. -/
theorem transferRate_mem (rows : List PyDict) :
    0 ≤ roundTo 4 (transferRate rows) ∧ roundTo 4 (transferRate rows) ≤ 1 := by
  have hmem : 0 ≤ transferRate rows ∧ transferRate rows ≤ 1 := by
    rw [transferRate]
    split_ifs
    · exact ⟨le_rfl, zero_le_one⟩
    · refine Binary64.nearest_mem_unit (by positivity) (div_le_one_of_le₀ ?_ (by positivity))
      exact_mod_cast List.countP_le_length
  exact Binary64.roundTo_mem_unit 4 hmem.1 hmem.2

/-- Every call is counted once in each distribution, under its label, and the outcomes that are always
shown are there; the share of transfers is one. -/
theorem aggregateMetrics_distributions (hm : aggregateMetrics ops now rows activeCalls = some m) :
    (∀ d ∈ [(m.outcome, "outcome"), (m.demoDistribution, "scenario"), (m.engineDistribution, "engine")],
      Tally.total d.1 = rows.length ∧ (Tally.idents labelIdent d.1).Nodup ∧
      ∀ label, Tally.count labelIdent label d.1 =
        rows.countP fun r => labelIdent (labelOf d.2 r) = labelIdent label) ∧
      (∀ i, i ∈ Tally.idents labelIdent m.outcome ↔
        (∃ key ∈ metricsOutcomeKeys, i = .str key) ∨ ∃ r ∈ rows, labelIdent (labelOf "outcome" r) = i) ∧
      0 ≤ m.transferRate ∧ m.transferRate ≤ 1 := by
  obtain ⟨-, -, -, -, -, houtcome, hrate, hdemo, hengine, -⟩ := aggregateMetrics_eq_some_iff.mp hm
  obtain ⟨htotal, hcount, hnodup, hidents⟩ := distribution_spec houtcome
  obtain ⟨htotal', hcount', hnodup', -⟩ := distribution_spec hdemo
  obtain ⟨htotal'', hcount'', hnodup'', -⟩ := distribution_spec hengine
  have hzero (label : PyVal) : Tally.count labelIdent label outcomeBuckets = 0 := by
    simp [outcomeBuckets, metricsOutcomeKeys, Tally.count]
  refine ⟨?_, fun i => ?_, hrate ▸ transferRate_mem rows⟩
  · simp only [List.mem_cons, List.not_mem_nil, or_false]
    rintro d (rfl | rfl | rfl)
    · refine ⟨htotal.trans (Nat.zero_add _), hnodup (by decide +kernel), fun label => ?_⟩
      rw [hcount, hzero, Nat.zero_add]
    · refine ⟨htotal'.trans (Nat.zero_add _), hnodup' List.nodup_nil, fun label => ?_⟩
      rw [hcount', Tally.count, Nat.zero_add]
    · refine ⟨htotal''.trans (Nat.zero_add _), hnodup'' List.nodup_nil, fun label => ?_⟩
      rw [hcount'', Tally.count, Nat.zero_add]
  · rw [hidents]
    refine or_congr_left ?_
    simp [Tally.idents, outcomeBuckets, labelIdent, PyMap.number?, eq_comm]

theorem aggregateMetrics_distributions_sampleRows :
    (∀ d ∈ [(sampleMetrics.outcome, "outcome"), (sampleMetrics.demoDistribution, "scenario"),
        (sampleMetrics.engineDistribution, "engine")],
      Tally.total d.1 = sampleRows.length ∧ (Tally.idents labelIdent d.1).Nodup ∧
      ∀ label, Tally.count labelIdent label d.1 =
        sampleRows.countP fun r => labelIdent (labelOf d.2 r) = labelIdent label) ∧
      (∀ i, i ∈ Tally.idents labelIdent sampleMetrics.outcome ↔
        (∃ key ∈ metricsOutcomeKeys, i = .str key) ∨
          ∃ r ∈ sampleRows, labelIdent (labelOf "outcome" r) = i) ∧
      0 ≤ sampleMetrics.transferRate ∧ sampleMetrics.transferRate ≤ 1 :=
  aggregateMetrics_distributions aggregateMetrics_sampleRows

/-- Counters of the same labels that show the same. -/
def SameCounts (d d' : Buckets) : Prop :=
  ∀ label, Tally.count labelIdent label d = Tally.count labelIdent label d'

theorem distribution_perm {buckets d : Buckets} {name : String}
    (h : distribution buckets name rows = some d) (hperm : rows.Perm rows') :
    ∃ d', distribution buckets name rows' = some d' ∧ SameCounts d' d := by
  rw [distribution] at h ⊢
  split_ifs at h with hhashable
  obtain rfl := Option.some.inj h
  rw [hperm.all_eq] at hhashable
  exact ⟨_, if_pos hhashable, fun label => Tally.count_tally_perm (hperm.symm.map _) label buckets⟩

theorem todayDurations_perm {midnight : ℤ} {durations : List ℚ}
    (h : todayDurations ops midnight rows = some durations) (hperm : rows.Perm rows') :
    ∃ durations', todayDurations ops midnight rows' = some durations' ∧ durations.Perm durations' := by
  obtain ⟨found, hfound, rfl⟩ := Option.map_eq_some_iff.mp h
  obtain ⟨found', hfound', hperm'⟩ := mapM_perm hperm hfound
  exact ⟨found'.reduceOption, by rw [todayDurations, hfound', Option.map_some], hperm'.filterMap id⟩

theorem peakConcurrent_perm {peak : ℤ} (h : History.peakConcurrent rows = some peak)
    (hperm : rows.Perm rows') : History.peakConcurrent rows' = some peak := by
  simp only [History.peakConcurrent, Option.pure_def, Option.bind_eq_bind,
    Option.bind_eq_some_iff] at h ⊢
  obtain ⟨events, hevents, hpeak⟩ := h
  obtain ⟨events', hevents', hperm'⟩ := mapM_perm hperm hevents
  refine ⟨events', hevents', ?_⟩
  have hflatten : events.flatten.Perm events'.flatten := hperm'.flatten
  rw [← hpeak, Sweep.sweep, Sweep.sweep, Sweep.sortEnds_congr hflatten, hflatten.isEmpty_eq]

/-- The order in which the scan returns the rows does not matter. -/
theorem aggregateMetrics_perm (hm : aggregateMetrics ops now rows activeCalls = some m)
    (hperm : rows.Perm rows') :
    ∃ m', aggregateMetrics ops now rows' activeCalls = some m' ∧ m'.today = m.today ∧
      m'.transferRate = m.transferRate ∧ m'.peakConcurrent = m.peakConcurrent ∧
      SameCounts m'.outcome m.outcome ∧ SameCounts m'.demoDistribution m.demoDistribution ∧
      SameCounts m'.engineDistribution m.engineDistribution := by
  obtain ⟨durations, hdurations, -, -, htoday, houtcome, hrate, hdemo, hengine, hpeak⟩ :=
    aggregateMetrics_eq_some_iff.mp hm
  obtain ⟨durations', hdurations', hperm'⟩ := todayDurations_perm hdurations hperm
  obtain ⟨outcome, houtcome', hsame⟩ := distribution_perm houtcome hperm
  obtain ⟨demo, hdemo', hsame'⟩ := distribution_perm hdemo hperm
  obtain ⟨engine, hengine', hsame''⟩ := distribution_perm hengine hperm
  have hrate' : transferRate rows' = transferRate rows := by
    simp only [transferRate, hperm.countP_eq, hperm.length_eq, ← List.isEmpty_iff, hperm.isEmpty_eq]
  have hsort := OrderStatistics.insertionSort_eq_of_perm hperm'.symm
  exact ⟨⟨intOfFloat now, activeCalls, todayOf ops (durations'.insertionSort (· ≤ ·)), outcome,
      roundTo 4 (transferRate rows'), demo, engine, m.peakConcurrent⟩,
    aggregateMetrics_eq_some_iff.mpr ⟨durations', hdurations', rfl, rfl, rfl, houtcome', rfl, hdemo',
      hengine', peakConcurrent_perm hpeak hperm⟩,
    by rw [hsort, htoday], by rw [hrate', hrate], rfl, hsame, hsame', hsame''⟩

theorem aggregateMetrics_perm_sampleRows :
    ∃ m', aggregateMetrics sampleOps 90000 sampleRows.reverse 2 = some m' ∧
      m'.today = sampleMetrics.today ∧ m'.transferRate = sampleMetrics.transferRate ∧
      m'.peakConcurrent = sampleMetrics.peakConcurrent ∧ SameCounts m'.outcome sampleMetrics.outcome ∧
      SameCounts m'.demoDistribution sampleMetrics.demoDistribution ∧
      SameCounts m'.engineDistribution sampleMetrics.engineDistribution :=
  aggregateMetrics_perm aggregateMetrics_sampleRows sampleRows.reverse_perm.symm

end Parts

end Dashboard
