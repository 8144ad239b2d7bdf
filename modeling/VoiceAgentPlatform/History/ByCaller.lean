import VoiceAgentPlatform.History.ReadPaths
import VoiceAgentPlatform.History.Recorder
import VoiceAgentPlatform.Lib.Framing

/-!
# The calls of one caller

`GET /api/history/by-caller` of `bot.py`: a page of the index gives the calls, newest first, and batch
reads of the table give their rows, in any order and as many at a time as the table likes.

* `BatchReads`: what the table makes of batch reads; `batchGet` is the loop that repeats them.
* `listHistoryByCaller`: a request.
* `listHistoryByCaller_follow`: a client that follows the cursors gets the card of each call of the
  caller once, newest first.
-/

namespace History

open ItemQuery (SortCondition)
open KeyedTable
open Keyset (Page follow storePage)

/-! ### Cards -/

/-- `_LIST_FIELDS`. -/
def listFields : List String :=
  ["call_id", "caller", "started_at", "ended_at", "duration_s", "turn_count", "summary_status"]

/-- `_project_card`, of an item with any attributes. -/
def projectListCard (item : PyDict) : PyDict :=
  (listFields.map fun name => (name, PyDict.get item name)) ++
    match (PyDict.get item "summary").orElse (.dict []) with
    | .dict summary =>
      if (PyDict.get summary "intent").truthy then [("intent", PyDict.get summary "intent")] else []
    | _ => []

/-- A card in native values. -/
def listCard (item : PyDict) : PyDict := PyDict.mapValues Ddb.decimalToNative (projectListCard item)

/-- A card names the call of its row. -/
theorem callId_listCard (row : AdminRow) :
    PyDict.get (listCard row.item) "call_id" = .str row.callId := by
  rw [listCard, PyDict.get_mapValues rfl]
  rfl

/-- `int(x.get("started_at") or 0)`, of an item as the table returns it. -/
def itemStartedAt (item : PyDict) : ℤ :=
  match PyDict.get item "started_at" with
  | .decimal q => truncate q
  | .int i => i
  | _ => 0

/-! ### Batch reads -/

variable {slot : String ↪ ℕ}

/-- What the table makes of batch reads: which of the keys of a read it serves, and in which order, and
which it returns as unprocessed. A read that serves none of its keys is an error. -/
structure BatchReads where
  served : ℕ → List String → List String
  unprocessed : ℕ → List String → List String
  perm : ∀ read keys, (served read keys ++ unprocessed read keys).Perm keys
  progress : ∀ read keys, keys ≠ [] → served read keys ≠ []

theorem BatchReads.length_unprocessed_lt (reads : BatchReads) (read : ℕ) {keys : List String}
    (h : keys ≠ []) : (reads.unprocessed read keys).length < keys.length := by
  have hlength := (reads.perm read keys).length_eq
  have hpos := List.length_pos_of_ne_nil (reads.progress read keys h)
  rw [List.length_append] at hlength
  omega

/-- `_batch_get`, from some read on: the items of the keys, of which the table may leave some to the next
read. -/
def batchGet (t : Table (adminSchema slot)) (reads : BatchReads) (read : ℕ) (keys : List String) :
    List PyDict :=
  if keys = [] then []
  else
    (reads.served read keys).filterMap (fun callId => (t.get? callId).map AdminRow.item) ++
      batchGet t reads (read + 1) (reads.unprocessed read keys)
termination_by keys.length
decreasing_by exact reads.length_unprocessed_lt read ‹_›

/-! ### Requests -/

/-- `list_history_by_caller`, with `history` the table unless history is disabled, and `reads` for each
batch. -/
def listHistoryByCaller (history : Option (Table (adminSchema slot))) (reads : ℕ → BatchReads)
    (split : Split) (caller : String) (limit : ℤ) (cursor : Option String) :
    Except HTTPException (Page PyDict String) := do
  let limit := effectiveLimit limit
  if caller = "" then .error { status := 400, detail := "caller is required" }
  else
    match history with
    | none => return ⟨[], none⟩
    | some t =>
      let startKey? ← decodeCursor cursor
      let start ← indexStart caller .all startKey?
      let (page, last) := storePage (behindKey slot) IndexEntry.key (queryEntries t caller .all)
        (min split.size (limit - 1)) split.more start
      let keys := page.map IndexEntry.callId
      let items := (Framing.slices 100 keys).zipIdx.flatMap fun batch =>
        batchGet t (reads batch.2) 0 batch.1
      -- Batch reads do not keep the order of the keys.
      let items := items.mergeSort fun x y => itemStartedAt y ≤ itemStartedAt x
      return ⟨items.map listCard, last.map encodeIndexCursor⟩

/-! ### The rows of a page -/

/-- However the table serves the reads, the loop gives the items of the keys. -/
theorem batchGet_perm (t : Table (adminSchema slot)) (reads : BatchReads) (read : ℕ) (keys : List String) :
    (batchGet t reads read keys).Perm
      (keys.filterMap fun callId => (t.get? callId).map AdminRow.item) := by
  -- By the number of keys, of which every read serves one at least.
  induction hn : keys.length using Nat.strongRecOn generalizing read keys with
  | _ n ih =>
  rw [batchGet]
  split_ifs with hkeys
  · rw [hkeys, List.filterMap_nil]
  · have hrest := ih _ (hn ▸ reads.length_unprocessed_lt read hkeys) (read + 1) _ rfl
    refine (hrest.append_left _).trans ?_
    rw [← List.filterMap_append]
    exact (reads.perm read keys).filterMap _

/-- The items of the keys of a page, in batches. -/
theorem flatMap_batchGet_perm (t : Table (adminSchema slot)) (reads : ℕ → BatchReads) (n : ℕ)
    (batches : List (List String)) :
    ((batches.zipIdx n).flatMap fun batch => batchGet t (reads batch.2) 0 batch.1).Perm
      (batches.flatten.filterMap fun callId => (t.get? callId).map AdminRow.item) := by
  induction batches generalizing n with
  | nil => rfl
  | cons batch batches ih =>
    rw [List.zipIdx_cons, List.flatMap_cons, List.flatten_cons, List.filterMap_append]
    exact (batchGet_perm t (reads n) 0 batch).append (ih (n + 1))

/-- The row of an entry of the index. -/
def rowOfEntry (t : Table (adminSchema slot)) (entry : IndexEntry) : Option AdminRow := t.get? entry.callId

/-- The items of a page of entries. -/
def pageItems (t : Table (adminSchema slot)) (page : List IndexEntry) : List PyDict :=
  page.filterMap fun entry => (rowOfEntry t entry).map AdminRow.item

/-- What a request makes of a page: the cards of its rows, newest first. -/
def ServesCards (t : Table (adminSchema slot)) (page : List IndexEntry) (cards : List PyDict) : Prop :=
  ∃ items : List PyDict, items.Perm (pageItems t page) ∧
    (items.Pairwise fun x y => itemStartedAt y ≤ itemStartedAt x) ∧ cards = items.map listCard

theorem pairwise_newestFirst (items : List PyDict) :
    (items.mergeSort fun x y => itemStartedAt y ≤ itemStartedAt x).Pairwise
      fun x y => itemStartedAt y ≤ itemStartedAt x := by
  refine (List.pairwise_mergeSort (fun x y z hxy hyz => ?_) (fun x y => ?_) items).imp fun h => ?_
  · simp only [decide_eq_true_eq] at hxy hyz ⊢
    omega
  · simp only [Bool.or_eq_true, decide_eq_true_eq]
    omega
  · simpa using h

theorem listHistoryByCaller_eq (t : Table (adminSchema slot)) (reads : ℕ → BatchReads) (split : Split)
    {caller : String} (hne : caller ≠ "") (limit : ℤ) {start : Option IndexKey}
    (hstart : Keyset.IsPosition IndexEntry.key (queryEntries t caller .all) start) :
    ∃ cards, ServesCards t (storePage (behindKey slot) IndexEntry.key (queryEntries t caller .all)
          (min split.size (effectiveLimit limit - 1)) split.more start).1 cards ∧
      listHistoryByCaller (some t) reads split caller limit (start.map encodeIndexCursor) =
        .ok ⟨cards, (storePage (behindKey slot) IndexEntry.key (queryEntries t caller .all)
          (min split.size (effectiveLimit limit - 1)) split.more start).2.map encodeIndexCursor⟩ := by
  obtain ⟨key, hdecode, hindex⟩ := indexStart_encodeIndexCursor hstart
  rw [listHistoryByCaller]
  simp only [if_neg hne, bind, Except.bind, hdecode, hindex]
  refine ⟨_, ⟨_, ?_, ?_, rfl⟩, rfl⟩
  · refine (List.mergeSort_perm _ _).trans ((flatMap_batchGet_perm t reads 0 _).trans ?_)
    rw [Framing.flatten_slices (by decide), List.filterMap_map]
    rfl
  · exact pairwise_newestFirst _

/-- An entry is of a row, which the table has under the key of the entry. -/
theorem exists_rowOfEntry {t : Table (adminSchema slot)} {entry : IndexEntry}
    (h : ∃ row ∈ t, row.indexEntry = some entry) :
    ∃ row ∈ t, row.indexEntry = some entry ∧ rowOfEntry t entry = some row := by
  obtain ⟨row, hrow, hentry⟩ := h
  refine ⟨row, hrow, hentry, ?_⟩
  rw [rowOfEntry, ← (indexEntry_eq_some.mp hentry).1]
  exact Table.get?_key_iff.mpr hrow

theorem itemStartedAt_item {row : AdminRow} {startedAt : ℤ} (h : row.startedAt = some startedAt) :
    itemStartedAt row.item = startedAt := by
  rw [itemStartedAt, PyDict.get, get_item_startedAt, h]
  show truncate (startedAt : ℚ) = startedAt
  rw [truncate, Rat.num_intCast, Rat.den_intCast]
  exact Int.tdiv_one startedAt

theorem mem_pageItems {t : Table (adminSchema slot)} {page : List IndexEntry}
    (hpage : ∀ entry ∈ page, ∃ row ∈ t, row.indexEntry = some entry) {item : PyDict}
    (h : item ∈ pageItems t page) : ∃ entry ∈ page, itemStartedAt item = entry.startedAt := by
  obtain ⟨entry, hentry, hitem⟩ := List.mem_filterMap.mp h
  obtain ⟨row, -, hindex, hrow⟩ := exists_rowOfEntry (hpage entry hentry)
  rw [hrow] at hitem
  obtain rfl : row.item = item := Option.some.inj hitem
  exact ⟨entry, hentry, itemStartedAt_item (indexEntry_eq_some.mp hindex).2.2⟩

/-- Pages of entries in their order are answered with items in that order. -/
theorem exists_items_of_served {t : Table (adminSchema slot)} {pages : List (List IndexEntry)}
    {answers : List (List PyDict)} (h : List.Forall₂ (ServesCards t) pages answers)
    (hpages : ∀ entry ∈ pages.flatten, ∃ row ∈ t, row.indexEntry = some entry)
    (hsorted : pages.flatten.Pairwise fun v w => w.startedAt ≤ v.startedAt) :
    ∃ items : List PyDict, answers.flatten = items.map listCard ∧
      items.Perm (pageItems t pages.flatten) ∧
      items.Pairwise fun x y => itemStartedAt y ≤ itemStartedAt x := by
  induction h with
  | nil => exact ⟨[], rfl, List.Perm.refl [], List.Pairwise.nil⟩
  | @cons page cards pages answers hcards hanswers ih =>
    rw [List.flatten_cons] at hpages hsorted
    obtain ⟨-, hsorted', hcross⟩ := List.pairwise_append.mp hsorted
    have hpage : ∀ entry ∈ page, ∃ row ∈ t, row.indexEntry = some entry :=
      fun entry hentry => hpages entry (List.mem_append_left _ hentry)
    have hlater : ∀ entry ∈ pages.flatten, ∃ row ∈ t, row.indexEntry = some entry :=
      fun entry hentry => hpages entry (List.mem_append_right _ hentry)
    obtain ⟨items, hitems, hperm, hpairwise⟩ := ih hlater hsorted'
    obtain ⟨first, hfirst, hnewest, rfl⟩ := hcards
    refine ⟨first ++ items, ?_, ?_, List.pairwise_append.mpr ⟨hnewest, hpairwise, fun x hx y hy => ?_⟩⟩
    · rw [List.flatten_cons, hitems, List.map_append]
    · rw [List.flatten_cons, pageItems, List.filterMap_append]
      exact hfirst.append hperm
    · -- Rows of different pages are in the order of their entries.
      obtain ⟨entry, hentry, hstarted⟩ := mem_pageItems hpage (hfirst.mem_iff.mp hx)
      obtain ⟨entry', hentry', hstarted'⟩ := mem_pageItems hlater (hperm.mem_iff.mp hy)
      rw [hstarted, hstarted']
      exact hcross entry hentry entry' hentry'

/-- The rows that the index has for a caller. -/
def callerRows (t : Table (adminSchema slot)) (caller : String) : List AdminRow :=
  t.items.filter fun row => row.caller = some caller && row.startedAt.isSome

theorem pageItems_queryEntries_perm (t : Table (adminSchema slot)) (caller : String) :
    (pageItems t (queryEntries t caller .all)).Perm ((callerRows t caller).map AdminRow.item) := by
  have hsublist (rows : List AdminRow) (hrows : ∀ row ∈ rows, row ∈ t) :
      pageItems t ((rows.filterMap AdminRow.indexEntry).filter fun entry =>
          entry.caller = caller && SortCondition.all.holds entry.startedAt) =
        (rows.filter fun row => row.caller = some caller && row.startedAt.isSome).map AdminRow.item := by
    induction rows with
    | nil => rfl
    | cons row rows ih =>
      have hrow := hrows row List.mem_cons_self
      have ih' := ih fun row hrow => hrows row (List.mem_cons_of_mem _ hrow)
      cases hentry : row.indexEntry with
      | none =>
        -- A row that lacks the caller or the start is not in the index.
        have hnot : (row.caller = some caller && row.startedAt.isSome) = false := by
          unfold AdminRow.indexEntry at hentry
          cases hcaller : row.caller <;> cases hstarted : row.startedAt <;> simp_all
        rw [List.filterMap_cons_none hentry, ih', List.filter_cons_of_neg (by rw [hnot]; decide)]
      | some entry =>
        obtain ⟨hid, hcaller, hstarted⟩ := indexEntry_eq_some.mp hentry
        have hget : rowOfEntry t entry = some row := by
          rw [rowOfEntry, ← hid]
          exact Table.get?_key_iff.mpr hrow
        rw [List.filterMap_cons_some hentry]
        by_cases heq : entry.caller = caller
        · rw [List.filter_cons_of_pos (by simp [heq, SortCondition.holds]),
            List.filter_cons_of_pos (by simp [hcaller, heq, hstarted]), List.map_cons, ← ih', pageItems,
            List.filterMap_cons_some (by rw [hget]; rfl)]
          rfl
        · rw [List.filter_cons_of_neg (by simp [heq]),
            List.filter_cons_of_neg (by simp [hcaller, heq]), ih']
  refine ((List.mergeSort_perm _ _).filterMap _).trans ?_
  rw [callerRows, ← hsublist t.items fun row hrow => hrow]
  exact List.Perm.refl _

/-- A client that follows the cursors gets the card of each call of the caller that the index has, once
each and newest first, whatever the limit, however the index cuts its pages, and however the table serves
the batch reads. -/
theorem listHistoryByCaller_follow (t : Table (adminSchema slot)) (reads : ℕ → ℕ → BatchReads)
    (split : ℕ → Split) {caller : String} (hne : caller ≠ "") (limit : ℤ) :
    ∃ (fuel : ℕ) (items : List PyDict),
      follow (fun r => listHistoryByCaller (some t) (reads r) (split r) caller limit) fuel none =
          some (items.map listCard) ∧
        items.Perm ((callerRows t caller).map AdminRow.item) ∧
        ((items.map listCard).map fun card => PyDict.get card "call_id").Perm
          ((callerRows t caller).map fun row => PyVal.str row.callId) ∧
        items.Pairwise fun x y => itemStartedAt y ≤ itemStartedAt x := by
  obtain ⟨fuel, pages, answers, hpages, hanswers, hfollow⟩ := Keyset.follow_served
    (fun _ _ => NewerEntry.asymm) (queryEntries_sorted t caller .all) (fun _ _ => rfl) (ServesCards t)
    (fun r => min (split r).size (effectiveLimit limit - 1)) (fun r => (split r).more)
    (fun r start hstart => listHistoryByCaller_eq t (reads r) (split r) hne limit hstart)
    (Keyset.isPosition_none _ _)
  -- The pages are the index, so what is served of them is the caller's rows.
  have hall : pages.flatten = queryEntries t caller .all := hpages
  have hentries : ∀ entry ∈ pages.flatten, ∃ row ∈ t, row.indexEntry = some entry := by
    intro entry hentry
    rw [hall] at hentry
    exact (mem_queryEntries.mp hentry).1
  have hsorted : pages.flatten.Pairwise fun v w => w.startedAt ≤ v.startedAt := by
    rw [hall]
    refine (queryEntries_sorted t caller .all).imp fun {v w} hnewer => ?_
    unfold NewerEntry at hnewer
    omega
  obtain ⟨items, hitems, hperm, hpairwise⟩ := exists_items_of_served hanswers hentries hsorted
  rw [hall] at hperm
  rw [hitems] at hfollow
  have hrows := hperm.trans (pageItems_queryEntries_perm t caller)
  refine ⟨fuel, items, hfollow, hrows, ?_, hpairwise⟩
  have hids : (((callerRows t caller).map AdminRow.item).map listCard).map
      (fun card => PyDict.get card "call_id") = (callerRows t caller).map fun row => .str row.callId := by
    rw [List.map_map, List.map_map]
    exact List.map_congr_left fun row _ => callId_listCard row
  rw [← hids]
  exact (hrows.map listCard).map _

/-- A table that serves one key at a time. -/
def oneByOne : BatchReads where
  served _ keys := keys.take 1
  unprocessed _ keys := keys.drop 1
  perm _ keys := by rw [List.take_append_drop]
  progress _ keys h := by
    cases keys with
    | nil => exact absurd rfl h
    | cons key keys => simp

/-- Two calls of a caller, and one of another. -/
def tableOfThreeCalls : Table (adminSchema stringSlot) where
  items := [⟨"a", some "+1", some 5, [("turn_count", .decimal 2)], by simp⟩,
    ⟨"b", some "+2", some 6, [], by simp⟩, ⟨"c", some "+1", some 7, [], by simp⟩]
  sorted := by decide +kernel

theorem listHistoryByCaller_follow_three :
    ∃ (fuel : ℕ) (items : List PyDict),
      follow (fun _ => listHistoryByCaller (some tableOfThreeCalls) (fun _ => oneByOne) ⟨0, true⟩ "+1" 1)
          fuel none = some (items.map listCard) ∧
        items.Perm ((callerRows tableOfThreeCalls "+1").map AdminRow.item) ∧
        ((items.map listCard).map fun card => PyDict.get card "call_id").Perm
          ((callerRows tableOfThreeCalls "+1").map fun row => PyVal.str row.callId) ∧
        items.Pairwise fun x y => itemStartedAt y ≤ itemStartedAt x :=
  listHistoryByCaller_follow tableOfThreeCalls (fun _ _ => oneByOne) (fun _ => ⟨0, true⟩) (by decide) 1

end History
