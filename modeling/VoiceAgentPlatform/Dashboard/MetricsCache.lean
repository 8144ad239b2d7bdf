import VoiceAgentPlatform.Dashboard.Metrics
import VoiceAgentPlatform.History.ReadPaths
import VoiceAgentPlatform.Lib.TtlCache

/-!
# The dashboard behind its cache

`_collect_metrics` of `bot.py`: requests that run at a time share one scan of the call history, and a
payload is kept for ten seconds.

* `scanRecentHistory`: the scan, which stops after twenty pages.
* `metricsSource`: what `_collect_metrics` makes of a scan, and lays over a payload it has kept.
* `scanRecentHistory_spec`: the calls of the last 24 hours, all of them if the pages are long enough.
* `collectMetrics_scans`: in every run the scans are one at a time, and ten seconds apart.
* `collectMetrics_answer`: what a request is answered is ten seconds old at most.
* `collectMetrics_progress`: no request waits on a lock that nobody releases.
-/

namespace Dashboard

open History (AdminRow Split adminSchema scanTable)
open ItemQuery (passes project)
open KeyedTable
open TtlCache (Cache Event Phase)

/-! ### The scan -/

/-- The attributes that the scan projects. -/
def recentProjection : List String :=
  ["call_id", "started_at", "ended_at", "duration_s", "outcome", "transfer_requested", "scenario",
    "engine"]

/-- The filter of the scan. -/
def recentFilter (now : ℚ) : List ItemQuery.Condition :=
  [⟨"started_at", .ge, .int (intOfFloat now - 86400)⟩]

/-- The most pages that are read. -/
def recentPageCap : ℕ := 20

variable {slot : String ↪ ℕ}

/-- `_scan_recent_history`, with `history` the table unless history is disabled. -/
def scanRecentHistory (history : Option (Table (adminSchema slot))) (split : ℕ → Split) (now : ℚ) :
    List PyDict :=
  match history with
  | none => []
  | some t =>
    (Keyset.readPages (fun pages => scanTable t (recentFilter now) recentProjection none (split pages))
      recentPageCap 0 none).map (PyDict.mapValues Ddb.decimalToNative)

/-- A row as the aggregation reads it. -/
def recentRow (row : AdminRow) : PyDict :=
  PyDict.mapValues Ddb.decimalToNative (project recentProjection row.item)

/-- The calls of the last 24 hours, in the order of the table. -/
def recentRows (t : Table (adminSchema slot)) (now : ℚ) : List PyDict :=
  (t.items.filter fun row => row.startedAt.any fun s => intOfFloat now - 86400 ≤ s).map recentRow

/-- The start of a row is what the filter compares. -/
theorem passes_recentFilter (now : ℚ) (row : AdminRow) :
    passes (recentFilter now) row.item =
      row.startedAt.any fun s => decide (intOfFloat now - 86400 ≤ s) := by
  simp only [passes, recentFilter, List.all_cons, List.all_nil, Bool.and_true, ItemQuery.Condition.holds,
    History.get_item_startedAt]
  cases row.startedAt with
  | none => rfl
  | some s => exact decide_eq_decide.mpr Int.cast_le

/-- The scan returns the first of the calls of the last 24 hours, and all of them if the table splits into
pages that are long enough. -/
theorem scanRecentHistory_spec (t : Table (adminSchema slot)) (split : ℕ → Split) (now : ℚ) :
    scanRecentHistory (some t) split now <+: recentRows t now ∧
      ∀ least, (∀ pages, least ≤ (split pages).size + 1) → t.items.length ≤ recentPageCap * least →
        scanRecentHistory (some t) split now = recentRows t now := by
  have hsorted : t.items.Pairwise fun v w => slot v.callId < slot w.callId := t.sorted
  have hrows : ((t.items.filter fun row => passes (recentFilter now) row.item).map fun row =>
      project recentProjection row.item).map (PyDict.mapValues Ddb.decimalToNative) =
        recentRows t now := by
    simp only [passes_recentFilter, List.map_map, recentRows]
    rfl
  constructor
  · have hprefix := Keyset.readPages_isPrefix (fun _ _ => lt_asymm) hsorted (fun _ _ => rfl)
      (fun pages => scanTable t (recentFilter now) recentProjection none (split pages))
      (fun _ _ => rfl) recentPageCap 0 (Keyset.isPosition_none _ _)
    exact hrows ▸ hprefix.map (PyDict.mapValues Ddb.decimalToNative)
  · intro least hleast hfits
    have hall := Keyset.readPages_of_sized (fun _ _ => lt_asymm) hsorted (fun _ _ => rfl)
      (fun pages => scanTable t (recentFilter now) recentProjection none (split pages))
      (fun _ _ => rfl) hleast recentPageCap 0 (Keyset.isPosition_none _ _) hfits
    exact hrows ▸ congrArg (List.map (PyDict.mapValues Ddb.decimalToNative)) hall

/-! ### The cache -/

/-- What `_collect_metrics` makes of the rows of a scan that started at a time (of none, if the scan
failed) when so many sessions are active, and what it lays over a payload that it has kept. -/
def metricsSource (ops : FloatOps) : TtlCache.Source ℚ (Option (List PyDict)) ℕ Metrics where
  ttl := 10
  make now rows active := aggregateMetrics ops now (rows.getD []) active
  overlay cached now active := { cached with activeCalls := active, asOf := intOfFloat now }

variable (ops : FloatOps)

/-- A server that has just started, after some events. -/
def collectMetrics (es : List (Event ℚ (Option (List PyDict)) ℕ)) : Cache ℚ Metrics :=
  Run.exec (Cache.step (metricsSource ops)) TtlCache.empty es

theorem collectMetrics_append_singleton (es : List (Event ℚ (Option (List PyDict)) ℕ))
    (e : Event ℚ (Option (List PyDict)) ℕ) :
    collectMetrics ops (es ++ [e]) = (collectMetrics ops es).step (metricsSource ops) e := by
  rw [collectMetrics, Run.exec_append]
  rfl

theorem inv_collectMetrics (es : List (Event ℚ (Option (List PyDict)) ℕ)) :
    TtlCache.Inv (metricsSource ops) (collectMetrics ops es) :=
  TtlCache.inv_of_run (by norm_num [metricsSource]) es

/-- One task scans at a time, ten seconds behind every scan whose payload was kept; and these are so far
apart that no window of time holds more of them than it has periods of ten seconds, and one. -/
theorem collectMetrics_scans (es : List (Event ℚ (Option (List PyDict)) ℕ)) :
    (∀ (i j : ℕ) (start start' : ℚ), (collectMetrics ops es).tasks[i]? = some (Phase.filling start) →
      (collectMetrics ops es).tasks[j]? = some (Phase.filling start') → i = j) ∧
    (∀ (i : ℕ) (start : ℚ), (collectMetrics ops es).tasks[i]? = some (Phase.filling start) →
      ∀ fill ∈ (collectMetrics ops es).fills, fill.1 + 10 ≤ start) ∧
    ∀ first last : ℚ, first ≤ last →
      (((collectMetrics ops es).fills.filter fun fill => first ≤ fill.1 ∧ fill.1 ≤ last).length - 1 : ℕ) *
        (10 : ℚ) ≤ last - first := by
  have hinv := inv_collectMetrics ops es
  have httl : (0 : ℚ) ≤ (metricsSource ops).ttl := by norm_num [metricsSource]
  refine ⟨fun i j start start' hi hj => hinv.eq_of_filling hi hj, fun i start hi fill hfill => ?_,
    fun first last hle => ?_⟩
  · exact hinv.behind httl (hinv.expired i start hi) hfill
  · have hwindow := hinv.length_window_le List.filter_sublist
      (fun fill hfill => of_decide_eq_true (List.mem_filter.mp hfill).2) hle
    rwa [nsmul_eq_mul] at hwindow

/-- The answer of an event to a request is the payload of the scan that ends with it, or that of a scan that
started less than ten seconds before, with the time and the number of active sessions as they are. -/
def Serves (e : Event ℚ (Option (List PyDict)) ℕ) (i : ℕ) (answer : Metrics) : Prop :=
  ∃ start rows active kept, aggregateMetrics ops start rows active = some kept ∧
    ((answer = kept ∧ ∃ read : Option (List PyDict), e = .finish i read active ∧ rows = read.getD []) ∨
      ∃ now live, (e = .arrive now live ∨ e = .acquire i now live) ∧ now - start < 10 ∧
        answer = { kept with activeCalls := live, asOf := intOfFloat now })

/-- In every run a request that is answered is served the payload of a scan that is not old. -/
theorem collectMetrics_answer (es : List (Event ℚ (Option (List PyDict)) ℕ))
    (e : Event ℚ (Option (List PyDict)) ℕ) (i : ℕ) (answer : Metrics)
    (hbefore : ∀ answer, (collectMetrics ops es).tasks[i]? ≠ some (Phase.answered answer))
    (hafter : (collectMetrics ops (es ++ [e])).tasks[i]? = some (Phase.answered answer)) :
    Serves ops e i answer := by
  have hinv := inv_collectMetrics ops es
  rw [collectMetrics_append_singleton] at hafter
  obtain ⟨start, kept, hlast, hanswer⟩ := hinv.answer_of_step hbefore hafter
  rcases hanswer with ⟨rfl, read, live, he, hmake⟩ | ⟨now, live, he, rfl, hage⟩
  · exact ⟨start, _, live, answer, hmake, .inl ⟨rfl, read, he, rfl⟩⟩
  · -- The payload that is kept was made by a scan, in this event or in one before it.
    have hinv' := hinv.step (by norm_num [metricsSource]) e
    obtain ⟨read, active, hmake⟩ := hinv'.made _ (List.mem_of_getLast? hlast)
    exact ⟨start, _, active, kept, hmake, .inr ⟨now, live, he, hage, rfl⟩⟩

/-- Two requests: the first scans, the second comes five seconds later. -/
def sampleEvents : List (Event ℚ (Option (List PyDict)) ℕ) :=
  [.arrive 90000 2, .acquire 0 90000 2, .finish 0 (some sampleRows) 2]

/-- What the second request is answered. -/
def sampleAnswer : Metrics := { sampleMetrics with activeCalls := 3, asOf := 90005 }

theorem collectMetrics_answer_sampleEvents : Serves sampleOps (.arrive 90005 3) 1 sampleAnswer :=
  have hnone : (collectMetrics sampleOps sampleEvents).tasks[1]? = none := by decide +kernel
  collectMetrics_answer sampleOps sampleEvents (.arrive 90005 3) 1 sampleAnswer
    (fun _ => by simp [hnone]) (by decide +kernel)

/-- A request that waits can go on: the lock is free, or the task that holds it frees it when its scan
ends, whatever comes of the scan. -/
theorem collectMetrics_progress (es : List (Event ℚ (Option (List PyDict)) ℕ)) (i : ℕ)
    (hwaiting : (collectMetrics ops es).tasks[i]? = some .waiting) :
    ((collectMetrics ops es).holder = none → ∀ now live,
      (collectMetrics ops (es ++ [.acquire i now live])).tasks[i]? ≠ some .waiting) ∧
    ∀ j, (collectMetrics ops es).holder = some j → j ≠ i ∧ ∀ read live,
      (collectMetrics ops (es ++ [.finish j read live])).holder = none ∧
        (collectMetrics ops (es ++ [.finish j read live])).tasks[i]? = some .waiting := by
  obtain ⟨hfree, hheld⟩ := (inv_collectMetrics ops es).progress hwaiting
  simp only [collectMetrics_append_singleton]
  exact ⟨fun h now live => hfree now live h, hheld⟩

theorem collectMetrics_progress_sampleEvents :
    ((collectMetrics sampleOps [.arrive 90000 2]).holder = none → ∀ now live,
      (collectMetrics sampleOps ([.arrive 90000 2] ++ [.acquire 0 now live])).tasks[0]? ≠
        some .waiting) ∧
    ∀ j, (collectMetrics sampleOps [.arrive 90000 2]).holder = some j → j ≠ 0 ∧ ∀ read live,
      (collectMetrics sampleOps ([.arrive 90000 2] ++ [.finish j read live])).holder = none ∧
        (collectMetrics sampleOps ([.arrive 90000 2] ++ [.finish j read live])).tasks[0]? =
          some .waiting :=
  collectMetrics_progress sampleOps [.arrive 90000 2] 0 (by decide +kernel)

end Dashboard
