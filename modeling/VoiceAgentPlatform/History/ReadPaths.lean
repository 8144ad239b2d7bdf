import VoiceAgentPlatform.History.AdminList

/-!
# The two ways to read the calls of a caller

A request that names a caller is answered from the index, which carries the keys of a row and nothing
else; a request without caller scans the table. Both should find the same rows.

* `mem_of_scanned`, `mem_of_listed`: the cards a client gets that follows the cursors.
* `exportHistory_eq`: the rows of the export.
* `PathsAgree`: the list and the export of a caller show the rows the scan shows.
* `pathsAgree_iff`: this holds exactly for rows that carry nothing but their keys.
-/

namespace History

open ItemQuery
open KeyedTable
open Keyset (Page follow storePage)

variable {slot : String ↪ ℕ}

/-! ### Items and cards -/

/-- The other attributes of an item. -/
theorem get?_keyedItem {name : String} (h : name ∉ indexAttributes) (callId : String)
    (caller : Option String) (startedAt : Option ℤ) (attributes : PyDict) :
    PyDict.get? (keyedItem callId caller startedAt attributes) name =
      PyDict.get? attributes name := by
  simp only [indexAttributes, List.mem_cons, List.not_mem_nil, or_false, not_or] at h
  obtain ⟨hid, hcaller, hstarted⟩ := h
  rw [keyedItem, List.cons_append, List.cons_append, PyDict.get?_cons, if_neg (Ne.symm hid)]
  cases caller <;> cases startedAt <;>
    simp [PyDict.get?_cons, Ne.symm hcaller, Ne.symm hstarted]

theorem get_item {name : String} (h : name ∉ indexAttributes) (row : AdminRow) :
    PyDict.get row.item name = PyDict.get row.attributes name := by
  rw [PyDict.get, PyDict.get, AdminRow.item, get?_keyedItem h]

theorem get_entry_item_of_notMem {name : String} (h : name ∉ indexAttributes) (entry : IndexEntry) :
    PyDict.get entry.item name = .none := by
  rw [PyDict.get, IndexEntry.item, get?_keyedItem h]
  rfl

theorem get?_of_notMem {d : PyDict} {name : String} (h : ∀ e ∈ d, e.1 ≠ name) :
    PyDict.get? d name = none := by
  rw [PyDict.get?, Option.map_eq_none_iff, List.find?_eq_none]
  exact fun e he heq => h e he (by simpa using heq)

theorem get_item_caller (row : AdminRow) :
    PyDict.get? row.item "caller" = row.caller.map PyVal.str := by
  have hnone : PyDict.get? row.attributes "caller" = none :=
    get?_of_notMem fun e he heq => row.notMem_keys e he (by simp [heq])
  rw [AdminRow.item, keyedItem, List.cons_append, List.cons_append, PyDict.get?_cons,
    if_neg (by simp)]
  cases row.caller <;> cases row.startedAt <;> simp [PyDict.get?_cons, hnone]

theorem get_item_startedAt (row : AdminRow) :
    PyDict.get? row.item "started_at" = row.startedAt.map fun s => PyVal.decimal s := by
  have hnone : PyDict.get? row.attributes "started_at" = none :=
    get?_of_notMem fun e he heq => row.notMem_keys e he (by simp [heq])
  rw [AdminRow.item, keyedItem, List.cons_append, List.cons_append, PyDict.get?_cons,
    if_neg (by simp)]
  cases row.caller <;> cases row.startedAt <;> simp [PyDict.get?_cons, hnone]

/-- Items that agree on the attributes of a card have the same card. -/
theorem adminCard_congr {item item' : PyDict}
    (h : ∀ name ∈ adminListFields, PyDict.get item name = PyDict.get item' name) :
    adminCard item = adminCard item' := by
  refine congrArg (PyDict.mapValues Ddb.decimalToNative) (List.map_congr_left fun name hname => ?_)
  rw [h name hname]

/-- The projection of a request does not change the card. -/
theorem adminCard_project {names : List String} (h : ∀ name ∈ adminListFields, name ∈ names)
    (item : PyDict) : adminCard (project names item) = adminCard item :=
  adminCard_congr fun name hname => get_project (h name hname) item

/-- A field of a card. -/
def adminField (name : String) (value : PyVal) : PyVal :=
  Ddb.decimalToNative
    (if name = "transfer_requested" then
      match value with
      | .int i => .bool (i ≠ 0)
      | .float q => .bool (q ≠ 0)
      | value => value
    else value)

theorem get?_map_of_mem {names : List String} {name : String} (h : name ∈ names)
    (g : String → PyVal) : PyDict.get? (names.map fun n => (n, g n)) name = some (g name) := by
  induction names with
  | nil => exact absurd h List.not_mem_nil
  | cons n names ih =>
    rw [List.map_cons, PyDict.get?_cons]
    by_cases hn : n = name
    · rw [if_pos hn, hn]
    · rw [if_neg hn]
      exact ih ((List.mem_cons.mp h).resolve_left fun heq => hn heq.symm)

theorem get_adminCard {name : String} (h : name ∈ adminListFields) (item : PyDict) :
    PyDict.get (adminCard item) name = adminField name (PyDict.get item name) := by
  rw [adminCard, PyDict.get_mapValues rfl, projectAdminCard, PyDict.get, get?_map_of_mem h]
  rfl

/-- A field is missing only if the attribute is. -/
theorem adminField_eq_none_iff {name : String} {value : PyVal} :
    adminField name value = .none ↔ value = .none := by
  have hnative (v : PyVal) : Ddb.decimalToNative v = .none ↔ v = .none := by
    cases v with
    | decimal q =>
      rw [Ddb.decimalToNative, PyVal.mapScalars, Ddb.decimalToNumber]
      split_ifs <;> simp
    | _ => simp [Ddb.decimalToNative, PyVal.mapScalars, Ddb.decimalToNumber]
  unfold adminField
  rw [hnative]
  split_ifs
  · cases value <;> simp
  · rfl

/-! ### The scan -/

/-- The cards a client gets that follows the cursors of the list. -/
def Lists (t : Table (adminSchema slot)) (mode : Unprojected) (split : ℕ → Split) (f : AdminFilters)
    (limit : ℤ) (cards : List PyDict) : Prop :=
  ∃ fuel, follow (fun r => adminListHistory (some t) mode (split r) f limit) fuel none = some cards

theorem Lists.unique {t : Table (adminSchema slot)} {mode : Unprojected} {split : ℕ → Split}
    {f : AdminFilters} {limit : ℤ} {cards cards' : List PyDict}
    (h : Lists t mode split f limit cards) (h' : Lists t mode split f limit cards') :
    cards = cards' := by
  obtain ⟨fuel, h⟩ := h
  obtain ⟨fuel', h'⟩ := h'
  exact Keyset.follow_unique h h'

theorem scan_sorted (t : Table (adminSchema slot)) :
    t.items.Pairwise fun v w => slot v.callId < slot w.callId := t.sorted

/-- What the list makes of a page of the scan. -/
def serveScanned (f : AdminFilters) (page : List AdminRow) : List PyDict :=
  (((page.filter fun row => passes (scanFilter f) row.item).map fun row =>
    project adminListFields row.item).map adminCard).mergeSort
      fun x y => startedAtOf y ≤ startedAtOf x

theorem mem_serveScanned {f : AdminFilters} {page : List AdminRow} {card : PyDict} :
    card ∈ serveScanned f page ↔
      ∃ row ∈ page, passes (scanFilter f) row.item = true ∧ card = adminCard row.item := by
  simp only [serveScanned, List.mem_mergeSort, List.map_map, List.mem_map, List.mem_filter,
    Function.comp_apply, adminCard_project fun _ h => h]
  constructor
  · rintro ⟨row, ⟨hrow, hpasses⟩, rfl⟩
    exact ⟨row, hrow, hpasses, rfl⟩
  · rintro ⟨row, hrow, hpasses, rfl⟩
    exact ⟨row, ⟨hrow, hpasses⟩, rfl⟩

/-- A cursor of the scan is read as the key it encodes. -/
theorem startKey_encodeCursor (start : Option String) :
    ∃ key, decodeCursor (start.map encodeCursor) = .ok key ∧ startKey key = .ok start := by
  cases start with
  | none => exact ⟨none, rfl, rfl⟩
  | some callId => exact ⟨_, decodeCursor_encodeCursor callId, rfl⟩

/-- A client that follows the cursors without naming a caller gets the card of every row that passes
the filters. -/
theorem exists_scanned (t : Table (adminSchema slot)) (mode : Unprojected) (split : ℕ → Split)
    {f : AdminFilters} (hcaller : f.caller.getD "" = "") (houtcome : checkOutcome f.outcome = .ok ())
    (limit : ℤ) :
    ∃ cards, Lists t mode split f limit cards ∧ ∀ card, card ∈ cards ↔
      ∃ row ∈ t, passes (scanFilter f) row.item = true ∧ card = adminCard row.item := by
  -- A request at a position serves the page of the store behind it.
  have hrequest (r : ℕ) (start : Option String)
      (_ : Keyset.IsPosition AdminRow.callId t.items start) :
      adminListHistory (some t) mode (split r) f limit (start.map encodeCursor) =
        .ok ⟨serveScanned f (storePage (fun key (row : AdminRow) => slot key < slot row.callId)
            AdminRow.callId t.items (min (split r).size (effectiveLimit limit - 1)) (split r).more
              start).1,
          (storePage (fun key (row : AdminRow) => slot key < slot row.callId) AdminRow.callId
            t.items (min (split r).size (effectiveLimit limit - 1)) (split r).more start).2.map
              encodeCursor⟩ := by
    obtain ⟨key, hdecode, hstart⟩ := startKey_encodeCursor start
    rw [adminListHistory, houtcome]
    simp only [bind, Except.bind, hdecode, hcaller, hstart, ne_eq, not_true_eq_false, if_false]
    rfl
  obtain ⟨fuel, pages, hpages, hfollow⟩ := Keyset.follow_storePages_from
    (fun _ _ => lt_asymm) (scan_sorted t) (fun _ _ => rfl) (serveScanned f) _ _ hrequest
    (Keyset.isPosition_none _ _)
  refine ⟨_, ⟨fuel, hfollow⟩, fun card => ?_⟩
  -- The pages taken together are the rows of the table.
  have hrows (row : AdminRow) : row ∈ t ↔ ∃ page ∈ pages, row ∈ page := by
    rw [Table.mem_def, show t.items = pages.flatten from hpages.symm, List.mem_flatten]
  simp only [List.mem_flatMap, mem_serveScanned, hrows]
  tauto

/-! ### The index -/

/-- What the list makes of a page of the index. -/
def serveQueried (f : AdminFilters) (page : List IndexEntry) : List PyDict :=
  ((page.filter fun entry => passes (queryFilter f) entry.item).map fun entry =>
    project adminListFields entry.item).map adminCard

theorem mem_serveQueried {f : AdminFilters} {page : List IndexEntry} {card : PyDict} :
    card ∈ serveQueried f page ↔
      ∃ entry ∈ page, passes (queryFilter f) entry.item = true ∧ card = adminCard entry.item := by
  simp only [serveQueried, List.map_map, List.mem_map, List.mem_filter, Function.comp_apply,
    adminCard_project fun _ h => h]
  constructor
  · rintro ⟨entry, ⟨hentry, hpasses⟩, rfl⟩
    exact ⟨entry, hentry, hpasses, rfl⟩
  · rintro ⟨entry, hentry, hpasses, rfl⟩
    exact ⟨entry, ⟨hentry, hpasses⟩, rfl⟩

/-- A cursor of the index is read as the key it encodes. -/
theorem decodeCursor_encodeIndexCursor (key : IndexKey) :
    decodeCursor (some (encodeIndexCursor key)) = .ok (some (.dict [("call_id", .str key.callId),
      ("caller", .str key.caller), ("started_at", .int key.startedAt)])) :=
  decodeCursor_of_value? <| Json.value?_eq_some_iff.mpr <|
    Json.read_dumpsObject ("call_id", .inl key.callId)
      [("caller", .inl key.caller), ("started_at", .inr key.startedAt)]
      (fun _ _ => Json.Reader.allowsLeaf rfl _) (Json.hasRoom_none 1)

/-- A position among the entries of a query is accepted by the index. -/
theorem indexStart_encodeIndexCursor {t : Table (adminSchema slot)} {caller : String}
    {condition : SortCondition} {start : Option IndexKey}
    (hstart : Keyset.IsPosition IndexEntry.key (queryEntries t caller condition) start) :
    ∃ key, decodeCursor (start.map encodeIndexCursor) = .ok key ∧
      indexStart caller condition key = .ok start := by
  cases start with
  | none => exact ⟨none, rfl, rfl⟩
  | some key =>
    obtain ⟨entry, hentry, rfl⟩ := hstart key rfl
    obtain ⟨-, hcaller, hcondition⟩ := mem_queryEntries.mp hentry
    refine ⟨_, decodeCursor_encodeIndexCursor entry.key, ?_⟩
    have hkey : entry.key.caller = caller ∧ condition.holds entry.key.startedAt = true :=
      ⟨hcaller, hcondition⟩
    simp [indexStart, PyVal.truthy, PyDict.get?_cons, hkey.1, hkey.2]
    rw [← hkey.1]

/-- Whether a request that names a caller is answered at all. -/
def Answered (mode : Unprojected) (f : AdminFilters) : Prop :=
  mode = .missing ∧ (sortCondition f.startAfter f.startBefore).refused = false

/-- A request that is not answered lists nothing. -/
theorem not_lists {t : Table (adminSchema slot)} {mode : Unprojected} {split : ℕ → Split}
    {f : AdminFilters} (hcaller : f.caller.getD "" ≠ "") {limit : ℤ} {cards : List PyDict}
    (h : Lists t mode split f limit cards) : Answered mode f := by
  obtain ⟨fuel, hfollow⟩ := h
  by_contra hanswered
  -- What is not answered is refused, by the condition or by the projection.
  have hrefused : ((sortCondition f.startAfter f.startBefore).refused ||
      !mode.answers indexAttributes adminListFields) = true := by
    rw [Bool.or_eq_true]
    by_contra hnot
    push Not at hnot
    refine hanswered ⟨?_, by simpa using hnot.1⟩
    cases mode with
    | refused => exact absurd rfl hnot.2
    | missing => rfl
  have herror : ∃ e, adminListHistory (some t) mode (split 0) f limit none = .error e := by
    cases hout : checkOutcome f.outcome with
    | error e =>
      refine ⟨e, ?_⟩
      rw [adminListHistory, hout]
      rfl
    | ok u =>
      refine ⟨backendUnavailable, ?_⟩
      rw [adminListHistory, hout]
      simp only [bind, Except.bind, decodeCursor, Option.getD_none, if_pos, if_pos hcaller,
        indexStart, hrefused]
  obtain ⟨e, herror⟩ := herror
  cases fuel with
  | zero => cases hfollow
  | succ fuel =>
    rw [follow, herror] at hfollow
    cases hfollow

/-- A client that follows the cursors for a caller gets the cards of the entries of the index, if its
requests are answered. -/
theorem exists_queried (t : Table (adminSchema slot)) {mode : Unprojected} (split : ℕ → Split)
    {f : AdminFilters} {caller : String} (hcaller : f.caller = some caller) (hne : caller ≠ "")
    (houtcome : checkOutcome f.outcome = .ok ()) (hanswered : Answered mode f) (limit : ℤ) :
    ∃ cards, Lists t mode split f limit cards ∧ ∀ card, card ∈ cards ↔
      ∃ entry ∈ queryEntries t caller (sortCondition f.startAfter f.startBefore),
        passes (queryFilter f) entry.item = true ∧ card = adminCard entry.item := by
  obtain ⟨rfl, hrefused⟩ := hanswered
  -- A request at a position serves the page of the store behind it.
  have hrequest (r : ℕ) (start : Option IndexKey) (hstart : Keyset.IsPosition IndexEntry.key
      (queryEntries t caller (sortCondition f.startAfter f.startBefore)) start) :
      adminListHistory (some t) .missing (split r) f limit (start.map encodeIndexCursor) =
        .ok ⟨serveQueried f (storePage (behindKey slot) IndexEntry.key
            (queryEntries t caller (sortCondition f.startAfter f.startBefore))
            (min (split r).size (effectiveLimit limit - 1)) (split r).more start).1,
          (storePage (behindKey slot) IndexEntry.key
            (queryEntries t caller (sortCondition f.startAfter f.startBefore))
            (min (split r).size (effectiveLimit limit - 1)) (split r).more start).2.map
              encodeIndexCursor⟩ := by
    obtain ⟨key, hdecode, hstart⟩ := indexStart_encodeIndexCursor hstart
    have hanswers : Unprojected.missing.answers indexAttributes adminListFields = true := rfl
    rw [adminListHistory, houtcome]
    simp only [bind, Except.bind, hdecode, hcaller, Option.getD_some, if_pos hne, hstart, hrefused,
      hanswers, Bool.not_true, Bool.or_self, Bool.false_eq_true, if_false]
    rfl
  obtain ⟨fuel, pages, hpages, hfollow⟩ := Keyset.follow_storePages_from
    (fun _ _ => NewerEntry.asymm) (queryEntries_sorted t caller _) (fun _ _ => rfl) (serveQueried f)
    _ _ hrequest (Keyset.isPosition_none _ _)
  refine ⟨_, ⟨fuel, hfollow⟩, fun card => ?_⟩
  -- The pages taken together are the entries of the query.
  have hentries (entry : IndexEntry) :
      entry ∈ queryEntries t caller (sortCondition f.startAfter f.startBefore) ↔
        ∃ page ∈ pages, entry ∈ page := by
    rw [show queryEntries t caller (sortCondition f.startAfter f.startBefore) = pages.flatten from
      hpages.symm, List.mem_flatten]
  simp only [List.mem_flatMap, mem_serveQueried, hentries]
  tauto

/-! ### The export -/

theorem length_queryEntries_le (t : Table (adminSchema slot)) (caller : String)
    (condition : SortCondition) : (queryEntries t caller condition).length ≤ t.items.length := by
  rw [queryEntries, List.length_mergeSort]
  exact (List.length_filter_le _ _).trans (List.length_filterMap_le _ _)

/-- The items of all pages of an export that names a caller. -/
theorem scanHistoryForCsv_eq (t : Table (adminSchema slot)) {mode : Unprojected} (split : ℕ → Split)
    {f : AdminFilters} {caller : String} (hcaller : f.caller = some caller) (hne : caller ≠ "")
    (hanswered : Answered mode f) :
    scanHistoryForCsv t mode split f = .ok
      (((queryEntries t caller (sortCondition f.startAfter f.startBefore)).filter fun entry =>
        passes (queryFilter f) entry.item).map fun entry => project csvProjection entry.item) := by
  obtain ⟨rfl, hrefused⟩ := hanswered
  have hanswers : Unprojected.missing.answers indexAttributes csvProjection = true := rfl
  have hall := Keyset.readPages_storePages (fun _ _ => NewerEntry.asymm)
    (queryEntries_sorted t caller (sortCondition f.startAfter f.startBefore)) (fun _ _ => rfl)
    (fun pages => queryIndex t caller (sortCondition f.startAfter f.startBefore) (queryFilter f)
      csvProjection none (split pages)) (fun _ _ => rfl) (t.items.length + 1) 0
    (Keyset.isPosition_none _ _) (Nat.lt_succ_of_le (length_queryEntries_le t caller _))
  simp only [scanHistoryForCsv, hcaller, Option.getD_some, if_pos hne, hrefused, hanswers,
    Bool.not_true, Bool.or_self, Bool.false_eq_true, if_false]
  exact congrArg Except.ok hall

/-- The rows of a list of items. -/
theorem csvRows_eq_some_iff {items rows : List PyDict} :
    csvRows items = some rows ↔ items.map rowToCsvDict = rows.map some := by
  induction items generalizing rows with
  | nil =>
    rw [csvRows, Option.some.injEq, List.map_nil, eq_comm, eq_comm (a := []), List.map_eq_nil_iff]
  | cons item items ih =>
    rw [csvRows, List.map_cons]
    cases hrow : rowToCsvDict item with
    | none =>
      -- A row that cannot be formatted fails the export.
      refine iff_of_false (by simp) ?_
      cases rows <;> simp
    | some row =>
      cases rows with
      | nil => simp
      | cons row' rows =>
        simp only [Option.map_eq_some_iff, List.cons.injEq, List.map_cons, Option.some.injEq, ih]
        constructor
        · rintro ⟨later, hlater, hhead, rfl⟩
          exact ⟨hhead, hlater⟩
        · rintro ⟨hhead, hlater⟩
          exact ⟨rows, hlater, hhead, rfl⟩

/-- Items that agree on the attributes of the export have the same row. -/
theorem rowToCsvDict_congr {item item' : PyDict}
    (h : ∀ name ∈ csvProjection, PyDict.get (PyDict.mapValues Ddb.decimalToNative item) name =
      PyDict.get (PyDict.mapValues Ddb.decimalToNative item') name) :
    rowToCsvDict item = rowToCsvDict item' := by
  have hdefaults : (csvDefaults.map fun e =>
      (e.1, (PyDict.get (PyDict.mapValues Ddb.decimalToNative item) e.1).orElse e.2)) =
      csvDefaults.map fun e =>
        (e.1, (PyDict.get (PyDict.mapValues Ddb.decimalToNative item') e.1).orElse e.2) := by
    refine List.map_congr_left fun e he => ?_
    have hmem : ∀ e ∈ csvDefaults, e.1 ∈ csvProjection := by decide
    rw [h e.1 (hmem e he)]
  rw [rowToCsvDict, rowToCsvDict, hdefaults, h "started_at" (by decide), h "call_id" (by decide),
    h "caller" (by decide), h "transfer_requested" (by decide), h "transfer_topic" (by decide),
    h "turn_count" (by decide)]

/-! ### Rows and entries -/

theorem get_card_caller_iff {row : AdminRow} {caller : String} :
    PyDict.get (adminCard row.item) "caller" = .str caller ↔ row.caller = some caller := by
  rw [get_adminCard (by decide), PyDict.get, get_item_caller]
  cases row.caller <;> simp [adminField, Ddb.decimalToNative, PyVal.mapScalars, Ddb.decimalToNumber]

theorem get_card_startedAt {row : AdminRow} {s : ℤ} (h : row.startedAt = some s) :
    PyDict.get (adminCard row.item) "started_at" = .int s := by
  rw [get_adminCard (by decide), PyDict.get, get_item_startedAt, h]
  simp [adminField, Ddb.decimalToNative, PyVal.mapScalars, Ddb.decimalToNumber]

/-- The item of an entry is that of a row without other attributes. -/
theorem get_entry_item {row : AdminRow} {entry : IndexEntry} (h : row.indexEntry = some entry)
    {name : String} (hname : name ∈ indexAttributes) :
    PyDict.get entry.item name = PyDict.get row.item name := by
  obtain ⟨hid, hcaller, hstarted⟩ := indexEntry_eq_some.mp h
  simp only [indexAttributes, List.mem_cons, List.not_mem_nil, or_false] at hname
  rcases hname with rfl | rfl | rfl
  · exact congrArg PyVal.str hid.symm
  · rw [PyDict.get, PyDict.get, get_item_caller, hcaller]
    rfl
  · rw [PyDict.get, PyDict.get, get_item_startedAt, hstarted]
    rfl

/-- The filter of a query names none of the attributes that the index carries. -/
theorem name_notMem_of_mem_queryFilter {f : AdminFilters} {c : Condition} (h : c ∈ queryFilter f) :
    c.name ∈ adminListFields ∧ c.name ∉ indexAttributes := by
  have hequals {name : String} {text : Option String} (h : c ∈ equals name text) : c.name = name := by
    unfold equals at h
    cases text with
    | none => exact absurd h List.not_mem_nil
    | some text =>
      simp only at h
      split_ifs at h with hempty
      · exact absurd h List.not_mem_nil
      · rw [List.mem_singleton.mp h]
  simp only [queryFilter, adminHistoryFilterClause, if_true, List.append_nil, List.mem_append] at h
  rcases h with (h | h) | h <;> rw [hequals h] <;> decide

/-- An entry passes the filter of a query only if the filter is empty. -/
theorem passes_entry_iff {f : AdminFilters} {entry : IndexEntry} :
    passes (queryFilter f) entry.item = true ↔ queryFilter f = [] := by
  refine ⟨fun h => ?_, fun h => by rw [h]; rfl⟩
  by_contra hne
  obtain ⟨c, hc⟩ := List.exists_mem_of_ne_nil _ hne
  have hholds := List.all_eq_true.mp h c hc
  rw [Condition.holds, IndexEntry.item, get?_keyedItem (name_notMem_of_mem_queryFilter hc).2]
    at hholds
  cases hholds

/-- The conditions on the sort key, one by one. -/
theorem sortCondition_holds_iff {startAfter startBefore : Option ℤ} {s : ℤ} :
    (sortCondition startAfter startBefore).holds s = true ↔
      (∀ m, startAfter = some m → m ≤ s) ∧ ∀ n, startBefore = some n → s ≤ n := by
  cases startAfter <;> cases startBefore <;> simp [sortCondition, SortCondition.holds]

/-- The filter of the scan is that of the query, with the conditions on the sort key. -/
theorem passes_scanFilter_iff {f : AdminFilters} {row : AdminRow} :
    passes (scanFilter f) row.item = true ↔ passes (queryFilter f) row.item = true ∧
      (∀ m, f.startAfter = some m → ∃ s, row.startedAt = some s ∧ m ≤ s) ∧
      ∀ n, f.startBefore = some n → ∃ s, row.startedAt = some s ∧ s ≤ n := by
  have hge (m : ℤ) : (⟨"started_at", .ge, .int m⟩ : Condition).holds row.item = true ↔
      ∃ s, row.startedAt = some s ∧ m ≤ s := by
    rw [Condition.holds, get_item_startedAt]
    cases row.startedAt <;> simp [Comparator.compare]
  have hle (n : ℤ) : (⟨"started_at", .le, .int n⟩ : Condition).holds row.item = true ↔
      ∃ s, row.startedAt = some s ∧ s ≤ n := by
    rw [Condition.holds, get_item_startedAt]
    cases row.startedAt <;> simp [Comparator.compare]
  simp only [scanFilter, queryFilter, adminHistoryFilterClause, passes, if_true, List.append_nil,
    Bool.false_eq_true, if_false, List.all_append, Bool.and_eq_true, List.all_map, List.all_eq_true,
    Option.mem_toList, Function.comp_apply, hge, hle]

/-- The rows of a caller that pass the filters. -/
def matched (t : Table (adminSchema slot)) (f : AdminFilters) (caller : String) : List AdminRow :=
  t.items.filter fun row => row.caller = some caller && passes (scanFilter f) row.item

theorem mem_matched {t : Table (adminSchema slot)} {f : AdminFilters} {caller : String}
    {row : AdminRow} : row ∈ matched t f caller ↔
      row ∈ t ∧ row.caller = some caller ∧ passes (scanFilter f) row.item = true := by
  simp [matched, Table.mem_def]

/-- A row that carries none of the fields of a card but its keys, at a time in the calendar. -/
structure KeysOnly (row : AdminRow) : Prop where
  startedAt : ∃ s, row.startedAt = some s ∧ formatIsoUtc (.int s) ≠ none
  fields : ∀ name ∈ adminListFields, name ∉ indexAttributes → PyDict.get row.attributes name = .none

/-- What a query finds is the entry of a row that passes the filters. -/
theorem mem_matched_of_entry {t : Table (adminSchema slot)} {f : AdminFilters} {caller : String}
    {entry : IndexEntry}
    (hentry : entry ∈ queryEntries t caller (sortCondition f.startAfter f.startBefore))
    (hpasses : passes (queryFilter f) entry.item = true) :
    ∃ row ∈ matched t f caller, row.indexEntry = some entry := by
  obtain ⟨⟨row, hrow, hindex⟩, hcaller, hholds⟩ := mem_queryEntries.mp hentry
  obtain ⟨-, hrowCaller, hstarted⟩ := indexEntry_eq_some.mp hindex
  obtain ⟨hafter, hbefore⟩ := sortCondition_holds_iff.mp hholds
  refine ⟨row, mem_matched.mpr ⟨hrow, by rw [hrowCaller, hcaller], passes_scanFilter_iff.mpr
    ⟨?_, fun m hm => ⟨_, hstarted, hafter m hm⟩, fun n hn => ⟨_, hstarted, hbefore n hn⟩⟩⟩, hindex⟩
  rw [passes_entry_iff.mp hpasses]
  rfl

theorem compare_none (comparator : Comparator) (value : PyVal) :
    comparator.compare .none value = false := by
  cases comparator <;> cases value <;> rfl

/-- A row that passes the filters and carries nothing but its keys is found through its entry, and
nothing is missing in its card. -/
theorem entry_of_keysOnly {t : Table (adminSchema slot)} {f : AdminFilters} {caller : String}
    {row : AdminRow} (hrow : row ∈ matched t f caller) (hkeys : KeysOnly row) :
    ∃ entry ∈ queryEntries t caller (sortCondition f.startAfter f.startBefore),
      row.indexEntry = some entry ∧ passes (queryFilter f) entry.item = true ∧
        adminCard entry.item = adminCard row.item := by
  obtain ⟨hmem, hcaller, hpasses⟩ := mem_matched.mp hrow
  obtain ⟨s, hstarted, -⟩ := hkeys.startedAt
  obtain ⟨hquery, hafter, hbefore⟩ := passes_scanFilter_iff.mp hpasses
  have hindex : row.indexEntry = some ⟨row.callId, caller, s⟩ :=
    indexEntry_eq_some.mpr ⟨rfl, hcaller, hstarted⟩
  have hholds : (sortCondition f.startAfter f.startBefore).holds s = true := by
    refine sortCondition_holds_iff.mpr ⟨fun m hm => ?_, fun n hn => ?_⟩
    · obtain ⟨s', hs', hle⟩ := hafter m hm
      rw [hstarted] at hs'
      exact Option.some.inj hs' ▸ hle
    · obtain ⟨s', hs', hle⟩ := hbefore n hn
      rw [hstarted] at hs'
      exact Option.some.inj hs' ▸ hle
  -- A condition of the filter would need an attribute that the row lacks.
  have hempty : queryFilter f = [] := by
    by_contra hne
    obtain ⟨c, hc⟩ := List.exists_mem_of_ne_nil _ hne
    obtain ⟨hname, hcarried⟩ := name_notMem_of_mem_queryFilter hc
    have hholds := List.all_eq_true.mp hquery c hc
    have hlacks := hkeys.fields c.name hname hcarried
    rw [Condition.holds, AdminRow.item, get?_keyedItem hcarried] at hholds
    rw [PyDict.get] at hlacks
    cases hget : PyDict.get? row.attributes c.name with
    | none =>
      rw [hget] at hholds
      cases hholds
    | some value =>
      rw [hget] at hholds hlacks
      obtain rfl : value = .none := hlacks
      simp only [compare_none] at hholds
      cases hholds
  refine ⟨_, mem_queryEntries.mpr ⟨⟨row, hmem, hindex⟩, rfl, hholds⟩, hindex,
    passes_entry_iff.mpr hempty, adminCard_congr fun name hname => ?_⟩
  by_cases hcarried : name ∈ indexAttributes
  · exact get_entry_item hindex hcarried
  · rw [get_entry_item_of_notMem hcarried, get_item hcarried, hkeys.fields name hname hcarried]

/-- Reading a card again changes none of its fields. -/
theorem decimalToNative_get_card {row : AdminRow} {entry : IndexEntry}
    (hindex : row.indexEntry = some entry) (hcard : adminCard entry.item = adminCard row.item)
    {name : String} (hname : name ∈ csvProjection) :
    Ddb.decimalToNative (PyDict.get (adminCard row.item) name) =
      Ddb.decimalToNative (PyDict.get entry.item name) := by
  obtain ⟨hid, hcaller, hstarted⟩ := indexEntry_eq_some.mp hindex
  by_cases hcarried : name ∈ indexAttributes
  · simp only [indexAttributes, List.mem_cons, List.not_mem_nil, or_false] at hcarried
    rcases hcarried with rfl | rfl | rfl
    · rw [← hcard, get_adminCard (by decide)]
      rfl
    · rw [get_card_caller_iff.mpr hcaller, get_entry_item hindex (by decide), PyDict.get,
        get_item_caller, hcaller]
      rfl
    · rw [get_card_startedAt hstarted, get_entry_item hindex (by decide), PyDict.get,
        get_item_startedAt, hstarted]
      simp [Ddb.decimalToNative, PyVal.mapScalars, Ddb.decimalToNumber]
  · rw [get_entry_item_of_notMem hcarried]
    by_cases hfield : name ∈ adminListFields
    · rw [← hcard, get_adminCard hfield, get_entry_item_of_notMem hcarried,
        adminField_eq_none_iff.mpr rfl]
    · -- The only other column is not a field of a card.
      have hnone : PyDict.get? (adminCard row.item) name = none := by
        refine get?_of_notMem fun e he heq => hfield ?_
        simp only [adminCard, PyDict.mapValues, projectAdminCard, List.map_map, List.mem_map] at he
        obtain ⟨field, hmem, rfl⟩ := he
        exact heq ▸ hmem
      rw [PyDict.get, hnone]
      rfl

/-- The row of the export for an entry is that of the card. -/
theorem rowToCsvDict_entry {row : AdminRow} {entry : IndexEntry}
    (hindex : row.indexEntry = some entry) (hcard : adminCard entry.item = adminCard row.item) :
    rowToCsvDict (project csvProjection entry.item) = rowToCsvDict (adminCard row.item) := by
  refine rowToCsvDict_congr fun name hname => ?_
  rw [PyDict.get_mapValues rfl, PyDict.get_mapValues rfl, get_project hname,
    decimalToNative_get_card hindex hcard hname]

/-- A card has a row of the export if its time lies in the calendar. -/
theorem rowToCsvDict_card_isSome_iff {row : AdminRow} {s : ℤ} (hstarted : row.startedAt = some s) :
    rowToCsvDict (adminCard row.item) ≠ none ↔ formatIsoUtc (.int s) ≠ none := by
  have hnative : PyDict.get (PyDict.mapValues Ddb.decimalToNative (adminCard row.item))
      "started_at" = .int s := by
    rw [PyDict.get_mapValues rfl, get_card_startedAt hstarted]
    rfl
  rw [rowToCsvDict, hnative]
  cases formatIsoUtc (.int s) <;> simp

/-- The row of the export shows the call. -/
theorem get_rowToCsvDict {item csv : PyDict} (h : rowToCsvDict item = some csv) :
    PyDict.get csv "call_id" =
      (PyDict.get (PyDict.mapValues Ddb.decimalToNative item) "call_id").orElse (.str "") := by
  rw [rowToCsvDict] at h
  obtain ⟨startedUtc, -, h⟩ := Option.bind_eq_some_iff.mp h
  obtain rfl := Option.some.inj h
  rfl

/-- The row of an entry shows its call. -/
theorem get_rowToCsvDict_entry {entry : IndexEntry} {csv : PyDict}
    (h : rowToCsvDict (project csvProjection entry.item) = some csv) :
    PyDict.get csv "call_id" = .str entry.callId := by
  have hid : PyDict.get entry.item "call_id" = .str entry.callId := rfl
  rw [get_rowToCsvDict h, PyDict.get_mapValues rfl, get_project (by decide), hid]
  by_cases hempty : entry.callId = ""
  · rw [hempty]
    rfl
  · simp [Ddb.decimalToNative, PyVal.mapScalars, Ddb.decimalToNumber, PyVal.orElse, PyVal.truthy,
      hempty]

theorem exists_map_some {α β : Type} {f : α → Option β} {xs : List α} (h : ∀ x ∈ xs, f x ≠ none) :
    ∃ ys : List β, xs.map f = ys.map some := by
  induction xs with
  | nil => exact ⟨[], rfl⟩
  | cons x xs ih =>
    obtain ⟨hx, hxs⟩ := List.forall_mem_cons.mp h
    obtain ⟨y, hy⟩ := Option.ne_none_iff_exists'.mp hx
    obtain ⟨ys, hys⟩ := ih hxs
    exact ⟨y :: ys, by rw [List.map_cons, List.map_cons, hy, hys]⟩

/-! ### Agreement -/

/-- The list and the export for a caller show the rows of that caller that the list without caller
shows, each with the same fields. A card has no `transfer_topic`. -/
def PathsAgree (t : Table (adminSchema slot)) (mode : Unprojected)
    (scanSplit listSplit csvSplit : ℕ → Split) (f : AdminFilters) (caller : String)
    (scanLimit limit : ℤ) : Prop :=
  ∃ scanned listed exported,
    Lists t mode scanSplit { f with caller := none } scanLimit scanned ∧
    Lists t mode listSplit f limit listed ∧
    adminExportHistory (some t) mode csvSplit f = .ok exported ∧
    (∀ card, card ∈ listed ↔ card ∈ scanned ∧ PyDict.get card "caller" = .str caller) ∧
    ∀ csv, csv ∈ exported.rows.map some ↔
      ∃ card ∈ scanned, PyDict.get card "caller" = .str caller ∧ rowToCsvDict card = csv

section Agree

variable {t : Table (adminSchema slot)} {mode : Unprojected} {scanSplit listSplit csvSplit : ℕ → Split}
  {f : AdminFilters} {caller : String} {scanLimit limit : ℤ}

/-- The cards that the list without caller shows for the caller are those of the rows that match. -/
theorem mem_scanned_iff {scanned : List PyDict} (houtcome : checkOutcome f.outcome = .ok ())
    (h : Lists t mode scanSplit { f with caller := none } scanLimit scanned) {card : PyDict} :
    card ∈ scanned ∧ PyDict.get card "caller" = .str caller ↔
      ∃ row ∈ matched t f caller, card = adminCard row.item := by
  have hcaller : ({ f with caller := none } : AdminFilters).caller.getD "" = "" := rfl
  obtain ⟨scanned', h', hmem⟩ := exists_scanned t mode scanSplit hcaller houtcome scanLimit
  obtain rfl := h.unique h'
  rw [hmem]
  constructor
  · rintro ⟨⟨row, hrow, hpasses, rfl⟩, hcaller⟩
    exact ⟨row, mem_matched.mpr ⟨hrow, get_card_caller_iff.mp hcaller, hpasses⟩, rfl⟩
  · rintro ⟨row, hrow, rfl⟩
    obtain ⟨hrow, hcaller, hpasses⟩ := mem_matched.mp hrow
    exact ⟨⟨row, hrow, hpasses, rfl⟩, get_card_caller_iff.mpr hcaller⟩

/-- The entries that the export reads. -/
def csvEntries (t : Table (adminSchema slot)) (f : AdminFilters) (caller : String) :
    List IndexEntry :=
  (queryEntries t caller (sortCondition f.startAfter f.startBefore)).filter fun entry =>
    passes (queryFilter f) entry.item

theorem mem_csvEntries {entry : IndexEntry} : entry ∈ csvEntries t f caller ↔
    entry ∈ queryEntries t caller (sortCondition f.startAfter f.startBefore) ∧
      passes (queryFilter f) entry.item = true := by
  rw [csvEntries, List.mem_filter]

theorem nodup_callId_csvEntries (t : Table (adminSchema slot)) (f : AdminFilters) (caller : String) :
    ((csvEntries t f caller).map IndexEntry.callId).Nodup := by
  refine List.pairwise_map.mpr (((queryEntries_distinct t caller _).filter _).imp ?_)
  exact fun hslot hid => hslot (congrArg slot hid)

/-- There are no more entries than rows that match. -/
theorem length_csvEntries_le (t : Table (adminSchema slot)) (f : AdminFilters) (caller : String) :
    (csvEntries t f caller).length ≤ (matched t f caller).length := by
  have hsubset : (csvEntries t f caller).map IndexEntry.callId ⊆
      (matched t f caller).map AdminRow.callId := by
    intro callId hid
    obtain ⟨entry, hentry, rfl⟩ := List.mem_map.mp hid
    obtain ⟨hentry, hpasses⟩ := mem_csvEntries.mp hentry
    obtain ⟨row, hrow, hindex⟩ := mem_matched_of_entry hentry hpasses
    exact List.mem_map.mpr ⟨row, hrow, (indexEntry_eq_some.mp hindex).1⟩
  simpa using ((nodup_callId_csvEntries t f caller).subperm hsubset).length_le

/-- If all rows that match carry nothing but their keys, an entry has the card of its row. -/
theorem exists_row_of_entry (h : ∀ row ∈ matched t f caller, KeysOnly row) {entry : IndexEntry}
    (hentry : entry ∈ csvEntries t f caller) : ∃ row ∈ matched t f caller,
      row.indexEntry = some entry ∧ adminCard entry.item = adminCard row.item := by
  obtain ⟨hmem, hpasses⟩ := mem_csvEntries.mp hentry
  obtain ⟨row, hrow, hindex⟩ := mem_matched_of_entry hmem hpasses
  obtain ⟨entry', -, hindex', -, hcard⟩ := entry_of_keysOnly hrow (h row hrow)
  obtain rfl := Option.some.inj (hindex'.symm.trans hindex)
  exact ⟨row, hrow, hindex, hcard⟩

/-- There are as many if all rows that match carry nothing but their keys. -/
theorem le_length_csvEntries (h : ∀ row ∈ matched t f caller, KeysOnly row) :
    (matched t f caller).length ≤ (csvEntries t f caller).length := by
  have hnodup : ((matched t f caller).map AdminRow.callId).Nodup :=
    (List.filter_sublist.map AdminRow.callId).nodup t.nodup_keys
  have hsubset : (matched t f caller).map AdminRow.callId ⊆
      (csvEntries t f caller).map IndexEntry.callId := by
    intro callId hid
    obtain ⟨row, hrow, rfl⟩ := List.mem_map.mp hid
    obtain ⟨entry, hentry, hindex, hpasses, -⟩ := entry_of_keysOnly hrow (h row hrow)
    exact List.mem_map.mpr
      ⟨entry, mem_csvEntries.mpr ⟨hentry, hpasses⟩, (indexEntry_eq_some.mp hindex).1.symm⟩
  simpa using (hnodup.subperm hsubset).length_le

/-- The rows that an export computes: one more than it may show, to see whether it shows all. -/
def csvItems (t : Table (adminSchema slot)) (f : AdminFilters) (caller : String) : List PyDict :=
  ((csvEntries t f caller).take (adminCsvMaxRows + 1)).map fun entry =>
    project csvProjection entry.item

/-- An export shows the first rows that it computes. -/
theorem export_eq_ok_iff (hcaller : f.caller = some caller) (hne : caller ≠ "")
    (houtcome : checkOutcome f.outcome = .ok ()) (hanswered : Answered mode f)
    {exported : CsvExport} :
    adminExportHistory (some t) mode csvSplit f = .ok exported ↔
      ∃ rows : List PyDict, (csvItems t f caller).map rowToCsvDict = rows.map some ∧
        exported = ⟨rows.take adminCsvMaxRows, adminCsvMaxRows < rows.length⟩ := by
  have hitems : scanHistoryForCsv t mode csvSplit f = .ok ((csvEntries t f caller).map fun entry =>
      project csvProjection entry.item) := scanHistoryForCsv_eq t csvSplit hcaller hne hanswered
  have htake : ((csvEntries t f caller).map fun entry => project csvProjection entry.item).take
      (adminCsvMaxRows + 1) = csvItems t f caller := List.map_take.symm
  rw [adminExportHistory, houtcome]
  simp only [bind, Except.bind, hitems, htake, ← csvRows_eq_some_iff]
  cases csvRows (csvItems t f caller) with
  | none => simp
  | some rows => simp [pure, Except.pure, eq_comm]

/-- Where the paths agree, every row that matches carries nothing but its keys. -/
theorem PathsAgree.keysOnly (hcaller : f.caller = some caller) (hne : caller ≠ "")
    (houtcome : checkOutcome f.outcome = .ok ())
    (h : PathsAgree t mode scanSplit listSplit csvSplit f caller scanLimit limit) {row : AdminRow}
    (hrow : row ∈ matched t f caller) : KeysOnly row := by
  obtain ⟨scanned, listed, exported, hscanned, hlisted, -, hcards, hcsv⟩ := h
  have hanswered : Answered mode f := not_lists (by rwa [hcaller]) hlisted
  obtain ⟨listed', hlisted', hmem⟩ :=
    exists_queried t listSplit hcaller hne houtcome hanswered limit
  obtain rfl := hlisted.unique hlisted'
  have hcard := (mem_scanned_iff houtcome hscanned).mpr ⟨row, hrow, rfl⟩
  obtain ⟨entry, hentry, hpasses, heq⟩ := (hmem _).mp ((hcards _).mpr hcard)
  -- The entry is that of the row, since it shows the same call.
  obtain ⟨row', hrow', hindex⟩ := mem_matched_of_entry hentry hpasses
  have hid : row.callId = entry.callId := by
    have hget := congrArg (fun card => PyDict.get card "call_id") heq
    simp only [get_adminCard (show "call_id" ∈ adminListFields by decide)] at hget
    exact PyVal.str.inj hget
  have hsame : row' = row := Table.eq_of_key_eq (mem_matched.mp hrow').1 (mem_matched.mp hrow).1
    ((indexEntry_eq_some.mp hindex).1.trans hid.symm)
  subst hsame
  have hstarted := (indexEntry_eq_some.mp hindex).2.2
  refine ⟨⟨_, hstarted, (rowToCsvDict_card_isSome_iff hstarted).mp fun hnone => ?_⟩,
    fun name hname hcarried => ?_⟩
  · obtain ⟨_, -, hsome⟩ := List.mem_map.mp ((hcsv none).mpr ⟨_, hcard.1, hcard.2, hnone⟩)
    cases hsome
  · have hget := congrArg (fun card => PyDict.get card name) heq
    simp only [get_adminCard hname, get_item hcarried, get_entry_item_of_notMem hcarried] at hget
    exact adminField_eq_none_iff.mp (hget.trans (adminField_eq_none_iff.mpr rfl))

/-- Where the paths agree, no row is left out. -/
theorem PathsAgree.length_le (hcaller : f.caller = some caller) (hne : caller ≠ "")
    (houtcome : checkOutcome f.outcome = .ok ())
    (h : PathsAgree t mode scanSplit listSplit csvSplit f caller scanLimit limit) :
    (matched t f caller).length ≤ adminCsvMaxRows := by
  have hkeys : ∀ row ∈ matched t f caller, KeysOnly row := fun _ hrow =>
    h.keysOnly hcaller hne houtcome hrow
  obtain ⟨scanned, listed, exported, hscanned, hlisted, hexported, -, hcsv⟩ := h
  have hanswered : Answered mode f := not_lists (by rwa [hcaller]) hlisted
  obtain ⟨rows, hrows, rfl⟩ := (export_eq_ok_iff hcaller hne houtcome hanswered).mp hexported
  by_contra hmany
  push Not at hmany
  have hcomputed : rows.length = adminCsvMaxRows + 1 := by
    have hlength := congrArg List.length hrows
    have hle := le_length_csvEntries hkeys
    simp only [csvItems, List.length_map, List.length_take] at hlength
    omega
  have hnodup : rows.Nodup := by
    refine List.Nodup.of_map (fun csv => some (PyDict.get csv "call_id")) ?_
    have hcalls : rows.map (fun csv => some (PyDict.get csv "call_id")) =
        ((csvEntries t f caller).take (adminCsvMaxRows + 1)).map fun entry =>
          some (PyVal.str entry.callId) := by
      have hoption : rows.map (fun csv => some (PyDict.get csv "call_id")) =
          (rows.map some).map (Option.map fun csv => PyDict.get csv "call_id") := by
        rw [List.map_map]
        rfl
      rw [hoption, ← hrows, csvItems, List.map_map, List.map_map]
      refine List.map_congr_left fun entry hentry => ?_
      have hmem : rowToCsvDict (project csvProjection entry.item) ∈ rows.map some := by
        rw [← hrows]
        exact List.mem_map_of_mem (List.mem_map_of_mem hentry)
      obtain ⟨csv, -, hcsvRow⟩ := List.mem_map.mp hmem
      simp only [Function.comp_apply, ← hcsvRow, Option.map_some]
      rw [get_rowToCsvDict_entry hcsvRow.symm]
    rw [hcalls]
    have hids := (List.take_sublist (adminCsvMaxRows + 1) _).nodup
      (nodup_callId_csvEntries t f caller)
    rw [← List.map_take] at hids
    have hinjective : Function.Injective fun callId => some (PyVal.str callId) :=
      fun _ _ h => PyVal.str.inj (Option.some.inj h)
    have hdistinct := hids.map hinjective
    rw [List.map_map] at hdistinct
    exact hdistinct
  -- The row that was computed in excess would have to be shown.
  have hsubset : rows ⊆ rows.take adminCsvMaxRows := by
    intro csv hmem
    have hitem : some csv ∈ (csvItems t f caller).map rowToCsvDict := by
      rw [hrows]
      exact List.mem_map_of_mem hmem
    obtain ⟨_, hitem, hcsvRow⟩ := List.mem_map.mp hitem
    obtain ⟨entry, hentry, rfl⟩ := List.mem_map.mp hitem
    obtain ⟨row, hrow, hindex, hcard⟩ := exists_row_of_entry hkeys (List.mem_of_mem_take hentry)
    obtain ⟨hscan, hshown⟩ := (mem_scanned_iff houtcome hscanned).mpr ⟨row, hrow, rfl⟩
    rw [rowToCsvDict_entry hindex hcard] at hcsvRow
    obtain ⟨_, hmem, heq⟩ := List.mem_map.mp ((hcsv _).mpr ⟨_, hscan, hshown, hcsvRow⟩)
    exact Option.some.inj heq ▸ hmem
  have hle := (hnodup.subperm hsubset).length_le
  rw [List.length_take, hcomputed] at hle
  omega

/-- The list and the export for a caller show the same rows as the list without caller exactly if the
index answers at all and the rows of the caller that pass the filters carry nothing but their keys
and are no more than an export shows. -/
theorem pathsAgree_iff (hcaller : f.caller = some caller) (hne : caller ≠ "")
    (houtcome : checkOutcome f.outcome = .ok ()) :
    PathsAgree t mode scanSplit listSplit csvSplit f caller scanLimit limit ↔
      Answered mode f ∧ (∀ row ∈ matched t f caller, KeysOnly row) ∧
        (matched t f caller).length ≤ adminCsvMaxRows := by
  constructor
  · intro h
    refine ⟨?_, fun row hrow => h.keysOnly hcaller hne houtcome hrow,
      h.length_le hcaller hne houtcome⟩
    obtain ⟨scanned, listed, exported, -, hlisted, -⟩ := h
    exact not_lists (by rwa [hcaller]) hlisted
  · rintro ⟨hanswered, hkeys, hlength⟩
    have hnone : ({ f with caller := none } : AdminFilters).caller.getD "" = "" := rfl
    obtain ⟨scanned, hscanned, -⟩ := exists_scanned t mode scanSplit hnone houtcome scanLimit
    obtain ⟨listed, hlisted, hmem⟩ :=
      exists_queried t listSplit hcaller hne houtcome hanswered limit
    -- A row that carries nothing but its keys can be rendered as CSV.
    obtain ⟨rows, hrows⟩ : ∃ rows : List PyDict,
        (csvItems t f caller).map rowToCsvDict = rows.map some := by
      refine exists_map_some fun item hitem => ?_
      obtain ⟨entry, hentry, rfl⟩ := List.mem_map.mp hitem
      obtain ⟨row, hrow, hindex, hcard⟩ := exists_row_of_entry hkeys (List.mem_of_mem_take hentry)
      obtain ⟨s, hstarted, hformat⟩ := (hkeys row hrow).startedAt
      rw [rowToCsvDict_entry hindex hcard]
      exact (rowToCsvDict_card_isSome_iff hstarted).mpr hformat
    -- No row is cut off, so the export shows all of them.
    have hall : csvItems t f caller =
        (csvEntries t f caller).map fun entry => project csvProjection entry.item := by
      rw [csvItems, List.take_of_length_le]
      have := length_csvEntries_le t f caller
      omega
    have htake : rows.take adminCsvMaxRows = rows := by
      have hcount := congrArg List.length hrows
      have := length_csvEntries_le t f caller
      rw [hall] at hcount
      simp only [List.length_map] at hcount
      exact List.take_of_length_le (by omega)
    refine ⟨scanned, listed, _, hscanned, hlisted,
      (export_eq_ok_iff hcaller hne houtcome hanswered).mpr ⟨rows, hrows, rfl⟩, fun card => ?_,
      fun csv => ?_⟩
    -- The cards of the list against those of the scan, and then the rows of the export.
    · rw [hmem, mem_scanned_iff houtcome hscanned]
      constructor
      · rintro ⟨entry, hentry, hpasses, rfl⟩
        obtain ⟨row, hrow, -, hcard⟩ :=
          exists_row_of_entry hkeys (mem_csvEntries.mpr ⟨hentry, hpasses⟩)
        exact ⟨row, hrow, hcard⟩
      · rintro ⟨row, hrow, rfl⟩
        obtain ⟨entry, hentry, -, hpasses, hcard⟩ := entry_of_keysOnly hrow (hkeys row hrow)
        exact ⟨entry, hentry, hpasses, hcard.symm⟩
    · simp only [htake]
      rw [← hrows, hall, List.map_map]
      constructor
      · intro hmem
        obtain ⟨entry, hentry, rfl⟩ := List.mem_map.mp hmem
        obtain ⟨row, hrow, hindex, hcard⟩ := exists_row_of_entry hkeys hentry
        obtain ⟨hscan, hshown⟩ := (mem_scanned_iff houtcome hscanned).mpr ⟨row, hrow, rfl⟩
        exact ⟨_, hscan, hshown, (rowToCsvDict_entry hindex hcard).symm⟩
      · rintro ⟨card, hscan, hshown, rfl⟩
        obtain ⟨row, hrow, rfl⟩ := (mem_scanned_iff houtcome hscanned).mp ⟨hscan, hshown⟩
        obtain ⟨entry, hentry, hindex, hpasses, hcard⟩ := entry_of_keysOnly hrow (hkeys row hrow)
        exact List.mem_map.mpr ⟨entry, mem_csvEntries.mpr ⟨hentry, hpasses⟩,
          rowToCsvDict_entry hindex hcard⟩

end Agree

/-- A request for the calls of one caller. -/
def sampleFilters : AdminFilters :=
  { caller := some "+1", outcome := none, engine := none, demo := none, scenario := none
    startAfter := none, startBefore := none }

/-- A call as the recorder writes it: with its engine, for one. -/
def sampleCalls : Table (adminSchema stringSlot) :=
  Table.empty.put ⟨"a", some "+1", some 100, [("engine", .str "nova-sonic")], by decide⟩

/-- The condition for the list of that caller. -/
theorem pathsAgree_iff_sample :
    PathsAgree sampleCalls .missing (fun _ => ⟨9, true⟩) (fun _ => ⟨0, true⟩) (fun _ => ⟨0, false⟩)
        sampleFilters "+1" 50 50 ↔
      Answered .missing sampleFilters ∧ (∀ row ∈ matched sampleCalls sampleFilters "+1", KeysOnly row) ∧
        (matched sampleCalls sampleFilters "+1").length ≤ adminCsvMaxRows :=
  pathsAgree_iff rfl (by decide) rfl

/-- A list for its caller does not show the engine of the call, whatever the index does. -/
theorem sampleCalls_disagree : ¬ ∃ mode : Unprojected,
    PathsAgree sampleCalls mode (fun _ => ⟨9, false⟩) (fun _ => ⟨9, false⟩) (fun _ => ⟨9, false⟩)
      sampleFilters "+1" 50 50 := by
  rintro ⟨mode, h⟩
  have hrow : ⟨"a", some "+1", some 100, [("engine", .str "nova-sonic")], by decide⟩ ∈
      matched sampleCalls sampleFilters "+1" :=
    mem_matched.mpr ⟨Table.mem_put.mpr (Or.inl rfl), rfl, rfl⟩
  have hfields := (h.keysOnly rfl (by decide) rfl hrow).fields "engine" (by decide) (by decide)
  cases hfields

end History
