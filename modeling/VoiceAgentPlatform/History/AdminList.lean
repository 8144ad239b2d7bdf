import VoiceAgentPlatform.History.AdminRow
import VoiceAgentPlatform.History.List
import VoiceAgentPlatform.Lib.Date
import VoiceAgentPlatform.Lib.Keyset

/-!
# Reading all calls

`GET /api/admin/history` and `GET /api/admin/history.csv` of `bot.py`. Both query the index
`caller-started-index` if the request names a caller, and scan the table otherwise.

* `AdminFilters`: the filters of a request; `adminHistoryFilterClause` builds the filter expression.
* `adminListHistory`: the list, page by page.
* `adminExportHistory`: the rows of the CSV file.
-/

namespace History

open Calendar (Date.isoOfTimestamp)
open ItemQuery
open KeyedTable
open Keyset (Page storePage readPages)

/-- The filters of a request. -/
structure AdminFilters where
  caller : Option String
  outcome : Option String
  engine : Option String
  demo : Option String
  scenario : Option String
  startAfter : Option ℤ
  startBefore : Option ℤ

/-- `_ADMIN_LIST_FIELDS`. -/
def adminListFields : List String :=
  ["call_id", "caller", "started_at", "ended_at", "duration_s", "outcome", "engine", "scenario",
    "lang", "summary_status", "transfer_requested", "turn_count"]

/-- `_ADMIN_OUTCOME_VALUES`. -/
def adminOutcomeValues : List String :=
  ["user_requested", "task_completed", "transferred", "timeout", "error", "unknown"]

/-- `_ADMIN_CSV_MAX_ROWS`. -/
def adminCsvMaxRows : ℕ := 5000

/-- The condition that an attribute equals a text, unless the text is missing or empty. -/
def equals (name : String) (text : Option String) : List Condition :=
  match text with
  | none => []
  | some text => if text = "" then [] else [⟨name, .eq, .str text⟩]

/-- `_admin_history_filter_clause`, with its names resolved. -/
def adminHistoryFilterClause (outcome engine scenario : Option String)
    (startAfter startBefore : Option ℤ) (skipStartedAt : Bool) : List Condition :=
  equals "outcome" outcome ++ equals "engine" engine ++ equals "scenario" scenario ++
    if skipStartedAt then []
    else
      (startAfter.toList.map fun n => ⟨"started_at", .ge, .int n⟩) ++
        startBefore.toList.map fun n => ⟨"started_at", .le, .int n⟩

/-- `scenario or demo`. -/
def scenarioFilter (f : AdminFilters) : Option String :=
  match f.scenario with
  | none => f.demo
  | some s => if s = "" then f.demo else some s

/-- The part of the key condition that is about the sort key. -/
def sortCondition (startAfter startBefore : Option ℤ) : SortCondition :=
  match startAfter, startBefore with
  | some m, some n => .between m n
  | some m, none => .ge m
  | none, some n => .le n
  | none, none => .all

/-- `_project_admin_card`: numbers and truth values in `transfer_requested` become truth values. -/
def projectAdminCard (item : PyDict) : PyDict :=
  adminListFields.map fun name =>
    let value := PyDict.get item name
    (name,
      if name = "transfer_requested" then
        match value with
        -- DynamoDB may give a number for a truth value.
        | .int i => .bool (i ≠ 0)
        | .float q => .bool (q ≠ 0)
        | value => value
      else value)

/-- A card in native values. -/
def adminCard (item : PyDict) : PyDict := PyDict.mapValues Ddb.decimalToNative (projectAdminCard item)

/-- The response to a request that the table does not answer. -/
def backendUnavailable : HTTPException := { status := 500, detail := "history backend unavailable" }

/-- The response to an outcome that is none of the known ones. -/
def checkOutcome (outcome : Option String) : Except HTTPException Unit :=
  match outcome with
  | none => .ok ()
  | some o =>
    if o = "" ∨ o ∈ adminOutcomeValues then .ok ()
    else .error { status := 400, detail := "unknown outcome: %", args := [o] }

/-- A position in the index: the keys of an entry. -/
structure IndexKey where
  callId : String
  caller : String
  startedAt : ℤ

/-- The keys of an entry. -/
def IndexEntry.key (entry : IndexEntry) : IndexKey :=
  { callId := entry.callId, caller := entry.caller, startedAt := entry.startedAt }

/-- `_encode_cursor`, for the key of an index entry. -/
def encodeIndexCursor (key : IndexKey) : String :=
  String.ofList (Base64.encode (Json.dumpsObject [("call_id", .inl key.callId),
    ("caller", .inl key.caller), ("started_at", .inr key.startedAt)]).toUTF8.data.toList)

/-- `ExclusiveStartKey` of a query: the position that a decoded cursor names, which is ignored if it
is false and rejected by the index if it is not the key of an entry that the query covers. -/
def indexStart (caller : String) (condition : SortCondition) (key : Option PyVal) :
    Except HTTPException (Option IndexKey) :=
  match key with
  | none => .ok none
  | some key =>
    if key.truthy then
      match key with
      | .dict d =>
        match PyDict.get? d "call_id", PyDict.get? d "caller", PyDict.get? d "started_at" with
        | some (.str callId), some (.str keyCaller), some (.int startedAt) =>
          -- The index refuses a key of another partition, or outside the range of the condition.
          if d.length = 3 ∧ keyCaller = caller ∧ condition.holds startedAt = true then
            .ok (some { callId, caller := keyCaller, startedAt })
          else .error backendUnavailable
        | _, _, _ => .error backendUnavailable
      | _ => .error backendUnavailable
    else .ok none

variable {slot : String ↪ ℕ}

/-- Whether an entry lies behind a position of the index. -/
def behindKey (slot : String ↪ ℕ) (key : IndexKey) (entry : IndexEntry) : Bool :=
  entry.startedAt < key.startedAt ∨
    entry.startedAt = key.startedAt ∧ slot key.callId < slot entry.callId

/-- One page of `table.query` on the index, of at most `limit` entries if there is a limit: the items
that pass the filter, and the key of the last entry evaluated. -/
def queryIndex (t : Table (adminSchema slot)) (caller : String) (condition : SortCondition)
    (filter : List Condition) (projection : List String) (limit : Option ℕ) (split : Split)
    (start : Option IndexKey) : List PyDict × Option IndexKey :=
  let (page, last) := storePage (behindKey slot) IndexEntry.key (queryEntries t caller condition)
    (match limit with
      | none => split.size
      | some limit => min split.size (limit - 1)) split.more start
  ((page.filter fun entry => passes filter entry.item).map fun entry =>
    project projection entry.item, last)

/-- One page of `table.scan`, of at most `limit` rows: the items that pass the filter, and the key of
the last row evaluated. -/
def scanTable (t : Table (adminSchema slot)) (filter : List Condition) (projection : List String)
    (limit : Option ℕ) (split : Split) (start : Option String) : List PyDict × Option String :=
  let (page, last) := storePage (fun key (row : AdminRow) => slot key < slot row.callId)
    AdminRow.callId t.items
    (match limit with
      | none => split.size
      | some limit => min split.size (limit - 1)) split.more start
  ((page.filter fun row => passes filter row.item).map fun row => project projection row.item, last)

/-- The attributes that the index carries. -/
def indexAttributes : List String := ["call_id", "caller", "started_at"]

/-- `r.get("started_at") or 0`. -/
def startedAtOf (card : PyDict) : ℤ :=
  match PyDict.get card "started_at" with
  | .int i => i
  | _ => 0

/-- The rows that pass the filters of a request without caller. -/
def scanFilter (f : AdminFilters) : List Condition :=
  adminHistoryFilterClause f.outcome f.engine (scenarioFilter f) f.startAfter f.startBefore false

/-- The filter expression of a request with caller. -/
def queryFilter (f : AdminFilters) : List Condition :=
  adminHistoryFilterClause f.outcome f.engine (scenarioFilter f) none none true

/-- `admin_list_history`, with `history` the table unless history is disabled, and `mode` what the
index does with the projection. -/
def adminListHistory (history : Option (Table (adminSchema slot))) (mode : Unprojected) (split : Split)
    (f : AdminFilters) (limit : ℤ) (cursor : Option String) :
    Except HTTPException (Page PyDict String) := do
  let limit := effectiveLimit limit
  checkOutcome f.outcome
  match history with
  | none => return ⟨[], none⟩
  | some t =>
    let startKey? ← decodeCursor cursor
    let caller := f.caller.getD ""
    -- The caller decides between a query of the index and a scan.
    if caller ≠ "" then
      let condition := sortCondition f.startAfter f.startBefore
      let start ← indexStart caller condition startKey?
      if condition.refused || !mode.answers indexAttributes adminListFields then
        .error backendUnavailable
      else
        let (items, last) := queryIndex t caller condition (queryFilter f) adminListFields (some limit)
          split start
        return ⟨items.map adminCard, last.map encodeIndexCursor⟩
    else
      let start ← startKey startKey?
      let (items, last) := scanTable t (scanFilter f) adminListFields (some limit) split start
      -- A page of a scan is sorted by itself.
      return ⟨(items.map adminCard).mergeSort fun x y => startedAtOf y ≤ startedAtOf x,
        last.map encodeCursor⟩

/-- The attributes that the export projects. -/
def csvProjection : List String := adminListFields ++ ["transfer_topic"]

/-- `_scan_history_for_csv`: the items of all pages. There are no more pages than rows, and one more
that is empty. -/
def scanHistoryForCsv (t : Table (adminSchema slot)) (mode : Unprojected) (split : ℕ → Split)
    (f : AdminFilters) : Except HTTPException (List PyDict) :=
  let caller := f.caller.getD ""
  if caller ≠ "" then
    let condition := sortCondition f.startAfter f.startBefore
    if condition.refused || !mode.answers indexAttributes csvProjection then .error backendUnavailable
    else
      -- Without a limit the pages are as long as the store makes them.
      .ok (readPages (fun pages => queryIndex t caller condition (queryFilter f) csvProjection none
        (split pages)) (t.items.length + 1) 0 none)
  else
    .ok (readPages (fun pages => scanTable t (scanFilter f) csvProjection none (split pages))
      (t.items.length + 1) 0 none)

/-- `_format_iso_utc`, which raises if the time lies outside the calendar. -/
def formatIsoUtc (epochSeconds : PyVal) : Option String :=
  match epochSeconds with
  | .int ts => if ts = 0 then some "" else Date.isoOfTimestamp ts
  | _ => some ""

/-- The columns of the export that are fields of a card, and what stands for a missing value. -/
def csvDefaults : List (String × PyVal) :=
  [("duration_s", .int 0), ("outcome", .str ""), ("engine", .str ""), ("scenario", .str ""),
    ("lang", .str ""), ("summary_status", .str "")]

/-- `_row_to_csv_dict`. -/
def rowToCsvDict (item : PyDict) : Option PyDict := do
  let native := PyDict.mapValues Ddb.decimalToNative item
  let startedUtc ← formatIsoUtc (PyDict.get native "started_at")
  return [("call_id", (PyDict.get native "call_id").orElse (.str "")),
      ("caller", (PyDict.get native "caller").orElse (.str "")),
      ("started_utc", .str startedUtc)] ++
    (csvDefaults.map fun e => (e.1, (PyDict.get native e.1).orElse e.2)) ++
    [("transfer_requested",
        .str (if (PyDict.get native "transfer_requested").truthy then "true" else "false")),
      ("transfer_topic", (PyDict.get native "transfer_topic").orElse (.str "")),
      ("turn_count", (PyDict.get native "turn_count").orElse (.int 0))]

/-- The rows of the items, if none of them raises. -/
def csvRows : List PyDict → Option (List PyDict)
  | [] => some []
  | item :: items =>
    match rowToCsvDict item with
    | none => none
    | some row => (csvRows items).map (row :: ·)

/-- The rows of a CSV file, and whether rows were left out. -/
structure CsvExport where
  rows : List PyDict
  truncated : Bool

/-- `admin_export_history_csv`. -/
def adminExportHistory (history : Option (Table (adminSchema slot))) (mode : Unprojected)
    (split : ℕ → Split) (f : AdminFilters) : Except HTTPException CsvExport := do
  checkOutcome f.outcome
  match history with
  | none => return ⟨[], false⟩
  | some t =>
    let items ← scanHistoryForCsv t mode split f
    -- One row more than the most is read, to know whether the export is cut.
    match csvRows (items.take (adminCsvMaxRows + 1)) with
    | none => .error backendUnavailable
    | some rows => return ⟨rows.take adminCsvMaxRows, adminCsvMaxRows < rows.length⟩

end History
