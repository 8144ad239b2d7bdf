import VoiceAgentPlatform.History.ReadPaths
import VoiceAgentPlatform.Lib.Csv
import VoiceAgentPlatform.Lib.Raising

/-!
# The file of the export

The body of `GET /api/admin/history.csv` of `bot.py`: a header and a row for each call, in chunks.

* `adminExportHistoryCsv`: the response.
* `readRows_adminExportHistoryCsv`: a reader of the file gets the texts that the rows hold.
* `adminExportHistoryCsv_scan`: without a caller these are the first calls of the table that pass the
  filters, and the response says whether there are more.
-/

namespace History

open ItemQuery (passes project)
open KeyedTable

/-- `_ADMIN_CSV_COLUMNS`. -/
def adminCsvColumns : List String :=
  ["call_id", "caller", "started_utc", "duration_s", "outcome", "engine", "scenario", "lang",
    "summary_status", "transfer_requested", "transfer_topic", "turn_count"]

/-- The text that `csv.writer` makes of a value: `str` is what it makes of values that are neither texts
nor integers. -/
def csvText (str : PyVal → String) : PyVal → String
  | .str s => s
  | .int i => toString i
  | .none => ""
  | value => str value

/-- The texts of a row, column by column. -/
def csvCells (str : PyVal → String) (row : PyDict) : List (List Char) :=
  adminCsvColumns.map fun column => (csvText str (PyDict.get row column)).toList

/-- The names of the columns. -/
def csvHeader : List (List Char) := adminCsvColumns.map String.toList

/-- A response that streams a file, with the header that says that rows were left out. -/
structure CsvResponse where
  chunks : List (List Char)
  truncated : Bool

/-- The response of `admin_export_history_csv`. -/
def adminExportHistoryCsv {slot : String ↪ ℕ} (str : PyVal → String)
    (history : Option (Table (adminSchema slot))) (mode : ItemQuery.Unprojected) (split : ℕ → Split)
    (f : AdminFilters) : Except HTTPException CsvResponse := do
  let exported ← adminExportHistory history mode split f
  return { chunks := Csv.writeRow csvHeader :: exported.rows.map fun row => Csv.writeRow (csvCells str row)
           truncated := exported.truncated }

variable {slot : String ↪ ℕ} {str : PyVal → String} {mode : ItemQuery.Unprojected} {split : ℕ → Split}
  {f : AdminFilters} {response : CsvResponse}

/-- A reader of the file gets the names of the columns and the texts of the rows, whatever characters
they hold. -/
theorem readRows_adminExportHistoryCsv {history : Option (Table (adminSchema slot))}
    (h : adminExportHistoryCsv str history mode split f = .ok response) :
    ∃ exported, adminExportHistory history mode split f = .ok exported ∧
      response.truncated = exported.truncated ∧
      Csv.readRows response.chunks.flatten = some (csvHeader :: exported.rows.map (csvCells str)) := by
  obtain ⟨exported, hexported, hresponse⟩ := Raising.ok_of_bind h
  obtain rfl := Except.ok.inj hresponse
  refine ⟨exported, hexported, rfl, ?_⟩
  have hchunks : (Csv.writeRow csvHeader ::
      exported.rows.map fun row => Csv.writeRow (csvCells str row)).flatten =
        Csv.writeRows (csvHeader :: exported.rows.map (csvCells str)) := by
    rw [Csv.writeRows, List.flatMap_cons, List.flatMap_map, List.flatten_cons, List.flatMap]
  rw [hchunks]
  refine Csv.readRows_writeRows fun row hrow => ?_
  rcases List.mem_cons.mp hrow with rfl | hrow
  · exact List.cons_ne_nil _ _
  · obtain ⟨row, -, rfl⟩ := List.mem_map.mp hrow
    exact List.cons_ne_nil _ _

/-- The items of all pages of an export that names no caller. -/
theorem scanHistoryForCsv_scan (t : Table (adminSchema slot)) (mode : ItemQuery.Unprojected)
    (split : ℕ → Split) (hcaller : f.caller.getD "" = "") :
    scanHistoryForCsv t mode split f = .ok
      ((t.items.filter fun row => passes (scanFilter f) row.item).map fun row =>
        project csvProjection row.item) := by
  have hall := Keyset.readPages_storePages (fun _ _ => lt_asymm) (scan_sorted t) (fun _ _ => rfl)
    (fun pages => scanTable t (scanFilter f) csvProjection none (split pages)) (fun _ _ => rfl)
    (t.items.length + 1) 0 (Keyset.isPosition_none _ _) (Nat.lt_succ_self _)
  simp only [scanHistoryForCsv, hcaller, ne_eq, not_true_eq_false, if_false]
  exact congrArg Except.ok hall

/-- The calls of the table that pass the filters of a request. -/
def passing (t : Table (adminSchema slot)) (f : AdminFilters) : List AdminRow :=
  t.items.filter fun row => passes (scanFilter f) row.item

/-- The file of an export that names no caller holds the texts of the first calls that pass the filters,
in the order of the table and none of them twice; it says that calls are left out if there are more. -/
theorem adminExportHistoryCsv_scan (t : Table (adminSchema slot)) (hcaller : f.caller.getD "" = "")
    (h : adminExportHistoryCsv str (some t) mode split f = .ok response) :
    ∃ rows : List PyDict, ((passing t f).take adminCsvMaxRows).map
        (fun row => rowToCsvDict (project csvProjection row.item)) = rows.map some ∧
      Csv.readRows response.chunks.flatten = some (csvHeader :: rows.map (csvCells str)) ∧
      (response.truncated = true ↔ adminCsvMaxRows < (passing t f).length) := by
  obtain ⟨exported, hexported, htruncated, hread⟩ := readRows_adminExportHistoryCsv h
  obtain ⟨-, -, hrest⟩ := Raising.ok_of_bind hexported
  obtain ⟨items, hitems, hrows⟩ := Raising.ok_of_bind hrest
  obtain rfl := Except.ok.inj ((scanHistoryForCsv_scan t mode split hcaller).symm.trans hitems)
  split at hrows
  · cases hrows
  · rename_i read hread'
    obtain rfl := Except.ok.inj hrows
    -- One row more than the file holds is read.
    rw [csvRows_eq_some_iff, ← passing, ← List.map_take, List.map_map] at hread'
    have hlength := congrArg List.length hread'
    rw [List.length_map, List.length_map, List.length_take] at hlength
    refine ⟨read.take adminCsvMaxRows, ?_, hread, ?_⟩
    · have htake := congrArg (List.take adminCsvMaxRows) hread'
      rwa [← List.map_take, ← List.map_take, List.take_take, min_eq_left (Nat.le_succ _)] at htake
    · rw [htruncated, decide_eq_true_eq, ← hlength]
      omega

/-- The filters of a request that names none. -/
def noFilters : AdminFilters := ⟨none, none, none, none, none, none, none⟩

/-- A call whose caller hung up, with a topic that would end a row. -/
def tableOfOneCall : Table (adminSchema stringSlot) where
  items := [⟨"web-1", some "+1", some 86400, [("transfer_topic", .str "bill\r\n\"web-2\",")], by simp⟩]
  sorted := List.pairwise_singleton _ _

theorem adminExportHistoryCsv_scan_one : ∃ response,
    adminExportHistoryCsv (fun _ => "True") (some tableOfOneCall) .missing (fun _ => ⟨0, true⟩) noFilters =
      .ok response ∧
    ∃ rows : List PyDict, ((passing tableOfOneCall noFilters).take adminCsvMaxRows).map
        (fun row => rowToCsvDict (project csvProjection row.item)) = rows.map some ∧
      Csv.readRows response.chunks.flatten =
        some (csvHeader :: rows.map (csvCells fun _ => "True")) ∧
      (response.truncated = true ↔ adminCsvMaxRows < (passing tableOfOneCall noFilters).length) :=
  let exported := adminExportHistoryCsv (fun _ => "True") (some tableOfOneCall) .missing
    (fun _ => ⟨0, true⟩) noFilters
  have hisOk : exported.isOk = true := by decide +kernel
  match hexported : exported with
  | .error _ => by simp [Except.isOk, Except.toBool] at hisOk
  | .ok response => ⟨response, hexported, adminExportHistoryCsv_scan tableOfOneCall rfl hexported⟩

end History
