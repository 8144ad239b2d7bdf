import Mathlib.Algebra.Order.Floor.Semiring
import Mathlib.Data.List.Sort
import VoiceAgentPlatform.Lib.Binary64Order
import VoiceAgentPlatform.Lib.OrderStatistics
import VoiceAgentPlatform.Lib.PyVal

/-!
# The latency report

`scripts/latency_report.py`: the records of a latency log, in groups, with statistics of each stage.

* `percentile`: interpolated between the two values around its rank, in floats.
* `stageStats`: the statistics of a stage, for finite values.
* `aggregate`: those of all groups; what `sorted` makes of a list with `NaN` is a parameter.
* `percentile_mono`: a higher percentile is not lower, although floats are rounded.
* `stageStats_ordered`: the statistics are in order, whatever the order of the records.
* `aggregate_spec`: a group has the statistics of its own records, every record has one group, and when
  the report raises.
-/

namespace Pipeline

namespace LatencyReport

open Binary64 (nearest roundTo IsSmallInt lerp)

/-- `STAGES`. -/
def stages : List String := ["e2e_ms", "stt_ms", "llm_ttft_ms", "llm_total_ms", "tts_ttfb_ms"]

/-- The position of a percentile among so many values, in floats. -/
def rankOf (length : ℕ) (p : ℚ) : ℚ := nearest (nearest (p / 100) * (length - 1 : ℕ))

/-- The value at a position of the ordered values. -/
def valueAt (ordered : List ℚ) (rank : ℚ) : ℚ :=
  let lo := ⌊rank⌋₊
  let hi := min (lo + 1) (ordered.length - 1)
  lerp (ordered.getD lo 0) (ordered.getD hi 0) (nearest (rank - lo))

/-- `percentile`; none if it raises. -/
def percentile (values : List ℚ) (p : ℚ) : Option ℚ :=
  if values = [] then none
  else if ¬ (0 ≤ p ∧ p ≤ 100) then none
  else
    let ordered := values.insertionSort (· ≤ ·)
    if ordered.length = 1 then some (ordered.getD 0 0)
    else some (valueAt ordered (rankOf ordered.length p))

/-- The statistics of a stage. -/
structure StageStats where
  count : ℕ
  avg : ℚ
  p50 : ℚ
  p95 : ℚ
  p99 : ℚ
  min : ℚ
  max : ℚ
  deriving DecidableEq

/-- `_stage_stats`, with `sum` the sum of floats. -/
def stageStats (sum : List ℚ → ℚ) (values : List ℚ) : Option StageStats := do
  let p50 ← percentile values 50
  let p95 ← percentile values 95
  let p99 ← percentile values 99
  let min ← values.min?
  let max ← values.max?
  return { count := values.length, avg := roundTo 1 (nearest (sum values / values.length))
           p50 := roundTo 1 p50, p95 := roundTo 1 p95, p99 := roundTo 1 p99
           min := roundTo 1 min, max := roundTo 1 max }

/-! ### Percentiles -/

section Percentiles

variable {ordered : List ℚ} {p p' : ℚ}

theorem rankOf_mono (length : ℕ) (h : p ≤ p') : rankOf length p ≤ rankOf length p' := by
  refine Binary64.nearest_mono (mul_le_mul_of_nonneg_right ?_ (Nat.cast_nonneg _))
  exact Binary64.nearest_mono (div_le_div_of_nonneg_right h (by norm_num))

theorem rankOf_mem {length : ℕ} (hlength : length < 2 ^ 53) (h0 : 0 ≤ p) (h1 : p ≤ 100) :
    0 ≤ rankOf length p ∧ rankOf length p ≤ (length - 1 : ℕ) := by
  have hshare : 0 ≤ nearest (p / 100) ∧ nearest (p / 100) ≤ 1 :=
    Binary64.nearest_mem_unit (by positivity) (by linarith)
  have hcast : nearest ((length - 1 : ℕ) : ℚ) = (length - 1 : ℕ) := by
    have hsmall : |((length - 1 : ℕ) : ℤ)| < 2 ^ 53 := by
      rw [abs_of_nonneg (Int.natCast_nonneg _)]
      omega
    exact_mod_cast Binary64.nearest_intCast hsmall
  refine ⟨Binary64.nearest_nonneg (mul_nonneg hshare.1 (Nat.cast_nonneg _)), ?_⟩
  calc rankOf length p ≤ nearest ((length - 1 : ℕ) : ℚ) :=
        Binary64.nearest_mono (mul_le_of_le_one_left (Nat.cast_nonneg _) hshare.2)
    _ = (length - 1 : ℕ) := hcast

/-- Ordered values grow with the index. -/
theorem getD_mono (hsorted : ordered.Pairwise (· ≤ ·)) {i j : ℕ} (hij : i ≤ j) (hj : j < ordered.length) :
    ordered.getD i 0 ≤ ordered.getD j 0 := by
  have hi : i < ordered.length := hij.trans_lt hj
  rw [List.getD_eq_getElem?_getD, List.getD_eq_getElem?_getD, List.getElem?_eq_getElem hi,
    List.getElem?_eq_getElem hj, Option.getD_some, Option.getD_some]
  rcases hij.eq_or_lt with rfl | hlt
  · exact le_rfl
  · exact List.pairwise_iff_getElem.mp hsorted i j hi hj hlt

theorem isSmallInt_getD (hint : ∀ v ∈ ordered, IsSmallInt v) (i : ℕ) : IsSmallInt (ordered.getD i 0) := by
  rcases Nat.lt_or_ge i ordered.length with hlt | hge
  · rw [List.getD_eq_getElem?_getD, List.getElem?_eq_getElem hlt]
    exact hint _ (List.getElem_mem hlt)
  · rw [List.getD_eq_getElem?_getD, List.getElem?_eq_none hge]
    exact ⟨0, by simp, by norm_num⟩

/-- The place of a position between the two indices around it. -/
theorem frac_mem {rank : ℚ} (h : 0 ≤ rank) :
    0 ≤ nearest (rank - ⌊rank⌋₊) ∧ nearest (rank - ⌊rank⌋₊) ≤ 1 := by
  have hle := Nat.floor_le h
  have hlt := Nat.lt_floor_add_one rank
  exact Binary64.nearest_mem_unit (by linarith) (by linarith)

/-- The index below a position is one of the list. -/
theorem floor_lt_length {rank : ℚ} (hne : ordered ≠ []) (h : rank ≤ (ordered.length - 1 : ℕ)) :
    ⌊rank⌋₊ < ordered.length := by
  have hpos := List.length_pos_of_ne_nil hne
  have hle := Nat.floor_le_floor h
  rw [Nat.floor_natCast] at hle
  omega

/-- The value at a position lies between those around it. -/
theorem valueAt_mem (hsorted : ordered.Pairwise (· ≤ ·)) (hint : ∀ v ∈ ordered, IsSmallInt v)
    (hne : ordered ≠ []) {rank : ℚ} (h0 : 0 ≤ rank) (h1 : rank ≤ (ordered.length - 1 : ℕ)) :
    ordered.getD ⌊rank⌋₊ 0 ≤ valueAt ordered rank ∧
      valueAt ordered rank ≤ ordered.getD (min (⌊rank⌋₊ + 1) (ordered.length - 1)) 0 := by
  have hlo := floor_lt_length hne h1
  have hle : ordered.getD ⌊rank⌋₊ 0 ≤ ordered.getD (min (⌊rank⌋₊ + 1) (ordered.length - 1)) 0 :=
    getD_mono hsorted (by omega) (by omega)
  exact Binary64.lerp_mem (isSmallInt_getD hint _) (isSmallInt_getD hint _) hle (frac_mem h0).1
    (frac_mem h0).2

/-- A value at a later position is not lower. -/
theorem valueAt_mono (hsorted : ordered.Pairwise (· ≤ ·)) (hint : ∀ v ∈ ordered, IsSmallInt v)
    (hne : ordered ≠ []) {rank rank' : ℚ} (h0 : 0 ≤ rank) (h1 : rank' ≤ (ordered.length - 1 : ℕ))
    (h : rank ≤ rank') : valueAt ordered rank ≤ valueAt ordered rank' := by
  have hlo' := floor_lt_length hne h1
  rcases (Nat.floor_le_floor h).eq_or_lt with heq | hlt
  · -- Between the same two indices the later place is nearer to the second.
    have hle : ordered.getD ⌊rank'⌋₊ 0 ≤ ordered.getD (min (⌊rank'⌋₊ + 1) (ordered.length - 1)) 0 :=
      getD_mono hsorted (by omega) (by omega)
    have hfrac : nearest (rank - ⌊rank'⌋₊) ≤ nearest (rank' - ⌊rank'⌋₊) :=
      Binary64.nearest_mono (sub_le_sub_right h _)
    simp only [valueAt, heq]
    exact Binary64.lerp_mono (isSmallInt_getD hint _) (isSmallInt_getD hint _) hle hfrac
  · -- Otherwise a value of the list lies between them.
    calc valueAt ordered rank
        ≤ ordered.getD (min (⌊rank⌋₊ + 1) (ordered.length - 1)) 0 :=
          (valueAt_mem hsorted hint hne h0 (h.trans h1)).2
      _ ≤ ordered.getD ⌊rank'⌋₊ 0 := getD_mono hsorted (by omega) hlo'
      _ ≤ valueAt ordered rank' := (valueAt_mem hsorted hint hne (h0.trans h) h1).1

end Percentiles

section Percentile

variable {values : List ℚ} {p p' : ℚ}

/-- What a percentile of a list is, if the list is not empty. -/
theorem percentile_eq (hne : values ≠ []) (h0 : 0 ≤ p) (h1 : p ≤ 100) :
    percentile values p = some (if values.length = 1 then (values.insertionSort (· ≤ ·)).getD 0 0
      else valueAt (values.insertionSort (· ≤ ·)) (rankOf values.length p)) := by
  rw [percentile, if_neg hne, if_neg (not_not.mpr ⟨h0, h1⟩)]
  simp only [List.length_insertionSort]
  split_ifs <;> rfl

/-- A higher percentile is not lower, and all are values between the least and the greatest. -/
theorem percentile_mono (hne : values ≠ []) (hlength : values.length < 2 ^ 53)
    (hint : ∀ v ∈ values, IsSmallInt v) (h0 : 0 ≤ p) (h : p ≤ p') (h1 : p' ≤ 100) {v v' : ℚ}
    (hv : percentile values p = some v) (hv' : percentile values p' = some v') : v ≤ v' := by
  rw [percentile_eq hne h0 (h.trans h1)] at hv
  rw [percentile_eq hne (h0.trans h) h1] at hv'
  obtain rfl := Option.some.inj hv
  obtain rfl := Option.some.inj hv'
  have hsorted := List.pairwise_insertionSort (· ≤ ·) values
  have hne' : values.insertionSort (· ≤ ·) ≠ [] := by
    rw [← List.length_pos_iff, List.length_insertionSort, List.length_pos_iff]
    exact hne
  split_ifs
  · -- One value is every percentile.
    exact le_rfl
  · refine valueAt_mono hsorted (fun v hv => hint v ((List.mem_insertionSort _).mp hv)) hne'
      (rankOf_mem hlength h0 (h.trans h1)).1 ?_ (rankOf_mono _ h)
    rw [List.length_insertionSort]
    exact (rankOf_mem hlength (h0.trans h) h1).2

/-- A percentile is not below the values if nothing is, nor above them if nothing is. -/
theorem percentile_mem (hne : values ≠ []) (hlength : values.length < 2 ^ 53)
    (hint : ∀ v ∈ values, IsSmallInt v) (h0 : 0 ≤ p) (h1 : p ≤ 100) {v least greatest : ℚ}
    (hv : percentile values p = some v) (hleast : ∀ w ∈ values, least ≤ w)
    (hgreatest : ∀ w ∈ values, w ≤ greatest) : least ≤ v ∧ v ≤ greatest := by
  rw [percentile_eq hne h0 h1] at hv
  obtain rfl := Option.some.inj hv
  have hsorted := List.pairwise_insertionSort (· ≤ ·) values
  have hlen : (values.insertionSort (· ≤ ·)).length = values.length := List.length_insertionSort _ _
  have hpos := List.length_pos_of_ne_nil hne
  have hne' : values.insertionSort (· ≤ ·) ≠ [] := by
    rw [← List.length_pos_iff, hlen]
    exact hpos
  have hmem {i : ℕ} (hi : i < values.length) : (values.insertionSort (· ≤ ·)).getD i 0 ∈ values := by
    have hi' : i < (values.insertionSort (· ≤ ·)).length := hlen ▸ hi
    rw [List.getD_eq_getElem?_getD, List.getElem?_eq_getElem hi', Option.getD_some]
    exact (List.mem_insertionSort _).mp (List.getElem_mem hi')
  split_ifs
  · exact ⟨hleast _ (hmem hpos), hgreatest _ (hmem hpos)⟩
  · have hrank := rankOf_mem hlength h0 h1
    rw [← hlen] at hrank
    have hvalue := valueAt_mem hsorted (fun v hv => hint v ((List.mem_insertionSort _).mp hv)) hne'
      (hlen ▸ hrank.1) hrank.2
    have hfloor := floor_lt_length hne' hrank.2
    rw [hlen] at hvalue hfloor
    exact ⟨(hleast _ (hmem hfloor)).trans hvalue.1, hvalue.2.trans (hgreatest _ (hmem (by omega)))⟩

/-- The order of the values does not matter to a percentile. -/
theorem percentile_perm {values' : List ℚ} (h : values.Perm values') (p : ℚ) :
    percentile values p = percentile values' p := by
  have hsort := OrderStatistics.insertionSort_eq_of_perm h
  simp only [percentile, hsort, ← List.isEmpty_iff, h.isEmpty_eq]

end Percentile

/-- What the statistics of a stage are made of. -/
theorem stageStats_eq_some (sum : List ℚ → ℚ) {values : List ℚ} {p50 p95 p99 least greatest : ℚ}
    (h50 : percentile values 50 = some p50) (h95 : percentile values 95 = some p95)
    (h99 : percentile values 99 = some p99) (hleast : values.min? = some least)
    (hgreatest : values.max? = some greatest) :
    stageStats sum values = some
      { count := values.length, avg := roundTo 1 (nearest (sum values / values.length))
        p50 := roundTo 1 p50, p95 := roundTo 1 p95, p99 := roundTo 1 p99
        min := roundTo 1 least, max := roundTo 1 greatest } := by
  rw [stageStats, h50, h95, h99, hleast, hgreatest]
  rfl

/-- The statistics of a stage are in order, and only the average depends on the order of the values. -/
theorem stageStats_ordered (sum : List ℚ → ℚ) {values : List ℚ} (hne : values ≠ [])
    (hlength : values.length < 2 ^ 53) (hint : ∀ v ∈ values, IsSmallInt v) :
    ∃ stats, stageStats sum values = some stats ∧ stats.count = values.length ∧
      stats.min ≤ stats.p50 ∧ stats.p50 ≤ stats.p95 ∧ stats.p95 ≤ stats.p99 ∧ stats.p99 ≤ stats.max ∧
      ∀ values', values.Perm values' → ∃ avg, stageStats sum values' = some { stats with avg } := by
  have hpercentile (p : ℚ) (h0 : 0 ≤ p) (h1 : p ≤ 100) : ∃ v, percentile values p = some v :=
    ⟨_, percentile_eq hne h0 h1⟩
  obtain ⟨p50, h50⟩ := hpercentile 50 (by norm_num) (by norm_num)
  obtain ⟨p95, h95⟩ := hpercentile 95 (by norm_num) (by norm_num)
  obtain ⟨p99, h99⟩ := hpercentile 99 (by norm_num) (by norm_num)
  obtain ⟨least, hleast⟩ := Option.isSome_iff_exists.mp (List.isSome_min?_of_ne_nil hne)
  obtain ⟨greatest, hgreatest⟩ := Option.isSome_iff_exists.mp (List.isSome_max?_of_ne_nil hne)
  have hmin := List.min?_eq_some_iff.mp hleast
  have hmax := List.max?_eq_some_iff.mp hgreatest
  refine ⟨_, stageStats_eq_some sum h50 h95 h99 hleast hgreatest, rfl, ?_, ?_, ?_, ?_,
    fun values' hperm => ?_⟩
  · exact Binary64.roundTo_mono 1
      (percentile_mem hne hlength hint (by norm_num) (by norm_num) h50 hmin.2 hmax.2).1
  · exact Binary64.roundTo_mono 1
      (percentile_mono hne hlength hint (by norm_num) (by norm_num) (by norm_num) h50 h95)
  · exact Binary64.roundTo_mono 1
      (percentile_mono hne hlength hint (by norm_num) (by norm_num) (by norm_num) h95 h99)
  · exact Binary64.roundTo_mono 1
      (percentile_mem hne hlength hint (by norm_num) (by norm_num) h99 hmin.2 hmax.2).2
  · have hleast' : values'.min? = some least :=
      List.min?_eq_some_iff.mpr ⟨hperm.mem_iff.mp hmin.1, fun v hv => hmin.2 v (hperm.mem_iff.mpr hv)⟩
    have hgreatest' : values'.max? = some greatest :=
      List.max?_eq_some_iff.mpr ⟨hperm.mem_iff.mp hmax.1, fun v hv => hmax.2 v (hperm.mem_iff.mpr hv)⟩
    rw [percentile_perm hperm] at h50 h95 h99
    refine ⟨roundTo 1 (nearest (sum values' / values.length)), ?_⟩
    rw [stageStats_eq_some sum h50 h95 h99 hleast' hgreatest', hperm.length_eq]

theorem stageStats_ordered_three :
    ∃ stats, stageStats List.sum [3, 1, 2] = some stats ∧ stats.count = 3 ∧ stats.min ≤ stats.p50 ∧
      stats.p50 ≤ stats.p95 ∧ stats.p95 ≤ stats.p99 ∧ stats.p99 ≤ stats.max ∧
      ∀ values', [3, 1, 2].Perm values' → ∃ avg, stageStats List.sum values' = some { stats with avg } :=
  have hint : ∀ v ∈ ([3, 1, 2] : List ℚ), IsSmallInt v := by
    simp only [List.mem_cons, List.not_mem_nil, or_false]
    rintro v (rfl | rfl | rfl)
    · exact ⟨3, by norm_num, by norm_num⟩
    · exact ⟨1, by norm_num, by norm_num⟩
    · exact ⟨2, by norm_num, by norm_num⟩
  stageStats_ordered List.sum (by simp) (by decide) hint

/-! ### Groups -/

/-- `GROUP_FIELDS`. -/
def groupFields : List String := ["engine", "scenario"]

/-- What is raised: the `ValueError` of a field that is none to group by, and the `OverflowError` of an
integer that is too large for a float. -/
inductive ReportError where
  | value
  | overflow
  deriving DecidableEq

/-- A float. -/
inductive Sample where
  | finite (q : ℚ)
  | nan
  | infinity (negative : Bool)

/-- `float(val)` raises, since the nearest float would be infinite. -/
def tooLarge : PyVal → Bool
  | .int i => 2 ^ 1024 - 2 ^ 970 ≤ i.natAbs
  | _ => false

/-- What `aggregate` takes from a field of a record: none for what it skips. -/
def stageValue (record : PyDict) (stage : String) : Option Sample :=
  match record.get stage with
  | .int i => some (.finite (nearest i))
  | .float q => some (.finite (nearest q))
  | .nan => some .nan
  | .infinity negative => some (.infinity negative)
  -- Also a boolean, although it is an integer to Python.
  | _ => none

/-- The values of a list without `NaN` and infinities. -/
def finites? : List Sample → Option (List ℚ)
  | [] => some []
  | .finite q :: values => (finites? values).map (q :: ·)
  | _ :: _ => none

/-- `_stage_stats` of any values; with a value that is not finite, all but their number is `special`. -/
def statsOf (sum : List ℚ → ℚ) (special : List Sample → StageStats) (values : List Sample) :
    Option StageStats :=
  match finites? values with
  | some finites => stageStats sum finites
  | none => some { special values with count := values.length }

/-- The label of the group of a record; `str` is `str` of a value that is not a text. -/
def labelOf (str : PyVal → String) (groupBy : Option String) (record : PyDict) : String :=
  match groupBy with
  | none => "all"
  | some field =>
    match record.get field with
    | .none => "unknown"
    | .str s => if s = "" then "unknown" else s
    | raw => str raw

/-- The values of the stages in a group. -/
abbrev StageValues := List (String × List Sample)

/-- The values of a group with those of one record more. -/
def addValues (record : PyDict) (values : StageValues) : StageValues :=
  values.map fun (stage, vs) => (stage, vs ++ (stageValue record stage).toList)

/-- The buckets with one record more. -/
def addRecord (label : String) (record : PyDict) : List (String × StageValues) → List (String × StageValues)
  | [] => [(label, addValues record (stages.map fun stage => (stage, [])))]
  | bucket :: buckets =>
    if bucket.1 = label then (label, addValues record bucket.2) :: buckets
    else bucket :: addRecord label record buckets

/-- The values of all groups. -/
def bucketsOf (str : PyVal → String) (groupBy : Option String) (records : List PyDict) :
    List (String × StageValues) :=
  records.foldl (fun buckets record => addRecord (labelOf str groupBy record) record buckets) []

/-- `aggregate`. -/
def aggregate (sum : List ℚ → ℚ) (special : List Sample → StageStats) (str : PyVal → String)
    (groupBy : Option String) (records : List PyDict) :
    Except ReportError (List (String × List (String × Option StageStats))) :=
  if groupBy.any fun field => field ∉ groupFields then .error .value
  -- The first value that is too large ends the loop over the records.
  else if records.any fun record => stages.any fun stage => tooLarge (record.get stage) then
    .error .overflow
  else
    .ok ((bucketsOf str groupBy records).map fun (label, values) =>
      (label, values.map fun (stage, vs) => (stage, statsOf sum special vs)))

section Groups

variable {label : PyDict → String} {records : List PyDict}

/-- The values of the records of a group. -/
def valuesOf (label : PyDict → String) (records : List PyDict) (l : String) : StageValues :=
  stages.map fun stage =>
    (stage, (records.filter fun record => label record = l).filterMap fun record => stageValue record stage)

/-- One record more is added to its own group, and to no other. -/
theorem valuesOf_append (records : List PyDict) (record : PyDict) (l : String) :
    valuesOf label (records ++ [record]) l =
      if label record = l then addValues record (valuesOf label records l)
      else valuesOf label records l := by
  have hone (stage : String) :
      [record].filterMap (stageValue · stage) = (stageValue record stage).toList := by
    cases hvalue : stageValue record stage <;> simp [hvalue]
  split_ifs with hlabel
  · rw [valuesOf, valuesOf, addValues, List.map_map]
    refine List.map_congr_left fun stage _ => ?_
    rw [List.filter_append, List.filter_singleton, decide_eq_true hlabel, cond_true,
      List.filterMap_append, hone]
    rfl
  · rw [valuesOf, valuesOf]
    refine List.map_congr_left fun stage _ => ?_
    rw [List.filter_append, List.filter_singleton, decide_eq_false hlabel, cond_false, List.append_nil]

/-- A label that no record has. -/
theorem valuesOf_of_not_mem {l : String} (h : ∀ record ∈ records, label record ≠ l) :
    valuesOf label records l = stages.map fun stage => (stage, []) := by
  have hnil : records.filter (fun record => label record = l) = [] :=
    List.filter_eq_nil_iff.mpr fun record hrecord => by simpa using h record hrecord
  rw [valuesOf, hnil]
  rfl

/-- The buckets of some records: one for each label that there is, with the values of its records. -/
structure Grouped (label : PyDict → String) (records : List PyDict)
    (buckets : List (String × StageValues)) : Prop where
  nodup : (buckets.map Prod.fst).Nodup
  values : ∀ bucket ∈ buckets, bucket.2 = valuesOf label records bucket.1
  mem : ∀ l, l ∈ buckets.map Prod.fst ↔ ∃ record ∈ records, label record = l

theorem map_fst_addRecord (l : String) (record : PyDict) (buckets : List (String × StageValues)) :
    (addRecord l record buckets).map Prod.fst =
      if l ∈ buckets.map Prod.fst then buckets.map Prod.fst else buckets.map Prod.fst ++ [l] := by
  induction buckets with
  | nil => rfl
  | cons bucket buckets ih =>
    rw [addRecord]
    by_cases hl : bucket.1 = l
    · rw [if_pos hl, if_pos (hl ▸ List.mem_cons_self), List.map_cons, List.map_cons, hl]
    · rw [if_neg hl, List.map_cons, ih, List.map_cons]
      simp only [List.mem_cons, Ne.symm hl, false_or]
      split_ifs <;> rfl

/-- The bucket of a label is extended, or made, and the others stay. -/
theorem mem_addRecord {l : String} {record : PyDict} {buckets : List (String × StageValues)}
    (hnodup : (buckets.map Prod.fst).Nodup) {bucket : String × StageValues}
    (h : bucket ∈ addRecord l record buckets) :
    (bucket ∈ buckets ∧ bucket.1 ≠ l) ∨
      (∃ old ∈ buckets, old.1 = l ∧ bucket = (l, addValues record old.2)) ∨
      (l ∉ buckets.map Prod.fst ∧
        bucket = (l, addValues record (stages.map fun stage => (stage, [])))) := by
  induction buckets with
  | nil => exact .inr (.inr ⟨List.not_mem_nil, List.mem_singleton.mp h⟩)
  | cons head buckets ih =>
    rw [List.map_cons, List.nodup_cons] at hnodup
    rw [LatencyReport.addRecord] at h
    by_cases hl : head.1 = l
    · rw [if_pos hl, List.mem_cons] at h
      rcases h with rfl | h
      · exact .inr (.inl ⟨head, List.mem_cons_self, hl, rfl⟩)
      · refine .inl ⟨List.mem_cons_of_mem _ h, fun hbucket => hnodup.1 ?_⟩
        exact List.mem_map.mpr ⟨bucket, h, hbucket.trans hl.symm⟩
    · rw [if_neg hl, List.mem_cons] at h
      rcases h with rfl | h
      · exact .inl ⟨List.mem_cons_self, hl⟩
      · rcases ih hnodup.2 h with ⟨hmem, hne⟩ | ⟨old, hold, heq, rfl⟩ | ⟨hnew, rfl⟩
        · exact .inl ⟨List.mem_cons_of_mem _ hmem, hne⟩
        · exact .inr (.inl ⟨old, List.mem_cons_of_mem _ hold, heq, rfl⟩)
        · refine .inr (.inr ⟨?_, rfl⟩)
          rw [List.map_cons, List.mem_cons, not_or]
          exact ⟨Ne.symm hl, hnew⟩

/-- One record more. -/
theorem Grouped.step {buckets : List (String × StageValues)} (h : Grouped label records buckets)
    (record : PyDict) :
    Grouped label (records ++ [record]) (addRecord (label record) record buckets) where
  nodup := by
    rw [map_fst_addRecord]
    split_ifs with hmem
    · exact h.nodup
    · exact List.concat_eq_append ▸ h.nodup.concat hmem
  values bucket hbucket := by
    rw [valuesOf_append]
    -- Another bucket, the bucket of the label, or a new one, which no earlier record belongs to.
    rcases mem_addRecord h.nodup hbucket with ⟨hmem, hne⟩ | ⟨old, hold, heq, rfl⟩ | ⟨hnew, rfl⟩
    · rw [if_neg (Ne.symm hne), h.values bucket hmem]
    · rw [if_pos rfl, h.values old hold, heq]
    · rw [if_pos rfl, valuesOf_of_not_mem]
      exact fun record' hrecord' heq => hnew ((h.mem _).mpr ⟨record', hrecord', heq⟩)
  mem l := by
    have hmem := h.mem l
    simp only [map_fst_addRecord, List.mem_append, List.mem_singleton, or_and_right, exists_or,
      exists_eq_left]
    split_ifs with hlabel
    · rw [hmem]
      refine ⟨.inl, ?_⟩
      rintro (hl | rfl)
      · exact hl
      · exact (h.mem _).mp hlabel
    · rw [List.mem_append, List.mem_singleton, hmem, eq_comm (a := l)]

/-- All records. -/
theorem grouped_bucketsOf (str : PyVal → String) (groupBy : Option String) (records : List PyDict) :
    Grouped (labelOf str groupBy) records (bucketsOf str groupBy records) := by
  have hrun (rest : List PyDict) : ∀ done buckets, Grouped (labelOf str groupBy) done buckets →
      Grouped (labelOf str groupBy) (done ++ rest) (rest.foldl (fun buckets record =>
        addRecord (labelOf str groupBy record) record buckets) buckets) := by
    induction rest with
    | nil => exact fun done buckets h => (List.append_nil done).symm ▸ h
    | cons record rest ih =>
      intro done buckets h
      rw [List.append_cons]
      exact ih (done ++ [record]) _ (h.step record)
  exact hrun records [] [] ⟨List.nodup_nil, nofun, fun l => by simp⟩

section Raises

variable {sum : List ℚ → ℚ} {special : List Sample → StageStats} {str : PyVal → String}
  {groupBy : Option String}

/-- Another field than those to group by is refused. -/
theorem aggregate_value_iff : aggregate sum special str groupBy records = .error .value ↔
    ∃ field, groupBy = some field ∧ field ≠ "engine" ∧ field ≠ "scenario" := by
  have hfield : (groupBy.any fun field => field ∉ groupFields) = true ↔
      ∃ field, groupBy = some field ∧ field ≠ "engine" ∧ field ≠ "scenario" := by
    simp [groupFields, Option.any_eq_true]
  rw [← hfield, aggregate]
  split_ifs with hrefused
  · exact iff_of_true rfl hrefused
  · exact iff_of_false (by simp) hrefused
  · exact iff_of_false (by simp) hrefused

/-- An integer too large for a float is reached if the field is not refused. -/
theorem aggregate_overflow_iff : aggregate sum special str groupBy records = .error .overflow ↔
    (∀ field, groupBy = some field → field = "engine" ∨ field = "scenario") ∧
      ∃ record ∈ records, ∃ stage ∈ stages, tooLarge (record.get stage) = true := by
  have hfields : (∀ field, groupBy = some field → field = "engine" ∨ field = "scenario") ↔
      ¬ (groupBy.any fun field => field ∉ groupFields) = true := by
    simp [groupFields, Option.any_eq_true, or_iff_not_imp_left]
  have hlarge : (∃ record ∈ records, ∃ stage ∈ stages, tooLarge (record.get stage) = true) ↔
      (records.any fun record => stages.any fun stage => tooLarge (record.get stage)) = true := by
    simp only [List.any_eq_true]
  rw [hfields, hlarge, aggregate]
  split_ifs with hrefused hoverflow
  · exact iff_of_false (by simp) fun h => h.1 hrefused
  · exact iff_of_true rfl ⟨hrefused, hoverflow⟩
  · exact iff_of_false (by simp) fun h => hoverflow h.2

end Raises

/-- What the report has of the groups, once nothing is raised. -/
theorem groups_of_ok {sum : List ℚ → ℚ} {special : List Sample → StageStats} {str : PyVal → String}
    {groupBy : Option String} {groups : List (String × List (String × Option StageStats))}
    (h : aggregate sum special str groupBy records = .ok groups) :
    groups = (bucketsOf str groupBy records).map fun (label, values) =>
      (label, values.map fun (stage, vs) => (stage, statsOf sum special vs)) := by
  rw [aggregate] at h
  split_ifs at h
  exact (Except.ok.inj h).symm

/-- A group has the statistics of its own records, every record has one group, and no group is empty. The
report raises for another field than those to group by, and for an integer too large for a float. -/
theorem aggregate_spec (sum : List ℚ → ℚ) (special : List Sample → StageStats) (str : PyVal → String)
    (groupBy : Option String) (records : List PyDict) :
    (aggregate sum special str groupBy records = .error .value ↔
      ∃ field, groupBy = some field ∧ field ≠ "engine" ∧ field ≠ "scenario") ∧
    (aggregate sum special str groupBy records = .error .overflow ↔
      (∀ field, groupBy = some field → field = "engine" ∨ field = "scenario") ∧
        ∃ record ∈ records, ∃ stage ∈ stages, tooLarge (record.get stage) = true) ∧
    ∀ groups, aggregate sum special str groupBy records = .ok groups →
      (groups.map Prod.fst).Nodup ∧
      (∀ l, l ∈ groups.map Prod.fst ↔ ∃ record ∈ records, labelOf str groupBy record = l) ∧
      ∀ group ∈ groups, group.2 = stages.map fun stage =>
        (stage, statsOf sum special
          ((records.filter fun record => labelOf str groupBy record = group.1).filterMap
            fun record => stageValue record stage)) := by
  refine ⟨aggregate_value_iff, aggregate_overflow_iff, fun groups hok => ?_⟩
  have h := grouped_bucketsOf str groupBy records
  obtain rfl := groups_of_ok hok
  simp only [List.map_map]
  refine ⟨h.nodup, h.mem, fun group hgroup => ?_⟩
  obtain ⟨bucket, hbucket, rfl⟩ := List.mem_map.mp hgroup
  simp only [h.values bucket hbucket, valuesOf, List.map_map]
  rfl

end Groups

end LatencyReport

end Pipeline
