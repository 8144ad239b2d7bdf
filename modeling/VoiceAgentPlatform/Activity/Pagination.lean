import VoiceAgentPlatform.Activity.ActivityStore

/-!
# Following the cursors of the activity log

What a client gets that asks for a window of the activity log and follows the cursors until there is
none: every row of the window that passes the filters, once, newest first.

* `queryDay_eq`: a day is read completely, however the table splits it into pages.
* `NewestFirst`: the order of the rows, by day and by sort key.
* `takeDays_eq`: a request is a page of the rows behind its cursor.
* `mem_dayRangeDesc`: the days of a window; `windowBounds_iso` and `dayRangeDesc_iso` say which windows
  of dates are admitted.
* `Shows`: an item of the answer has the data of its row.
* `follow_query`: the client gets every row of the window.
-/

namespace Activity

open Calendar
open History (Split)
open Keyset (pageOf follow pageOf_append_singleton pageOf_append_of_full pageOf_of_not_full)

/-- A day is read completely, however the table splits it into pages. -/
theorem queryDay_eq (t : ActivityTable) (split : ℕ → Split) (day : String) :
    queryDay t split day = t.partition day := by
  have hread (pages : ℕ) (start : Option String) :
      queryPage (t.partition day) (split pages) start =
        (((Keyset.storePage (fun key row => row.tsId < key) ActivityRow.tsId (t.partition day)
            (split pages).size (split pages).more start).1.filter fun _ => true).map id,
          (Keyset.storePage (fun key row => row.tsId < key) ActivityRow.tsId (t.partition day)
            (split pages).size (split pages).more start).2) := by
    rw [List.filter_true, List.map_id]
    rfl
  have hall := Keyset.readPages_storePages (fun _ _ => lt_asymm) (t.sorted day) (fun _ _ => rfl) _ hread _ 0
    (Keyset.isPosition_none _ _) (Nat.lt_succ_self _)
  rw [List.filter_true, List.map_id] at hall
  exact hall

/-- The order of the rows: a row is followed by rows of older days, and on its day by lesser keys. -/
def NewestFirst (v w : ActivityRow) : Prop := w.day < v.day ∨ w.day = v.day ∧ w.tsId < v.tsId

instance : DecidableRel NewestFirst := fun v w =>
  inferInstanceAs (Decidable (w.day < v.day ∨ w.day = v.day ∧ w.tsId < v.tsId))

theorem NewestFirst.asymm {v w : ActivityRow} (h : NewestFirst v w) : ¬ NewestFirst w v := by
  rintro (hday | ⟨hday, hkey⟩) <;> rcases h with hday' | ⟨hday', hkey'⟩
  · exact lt_asymm hday hday'
  · exact absurd hday (by simp [hday'])
  · exact absurd hday' (by simp [hday])
  · exact lt_asymm hkey hkey'

/-- Whether a row lies behind the position of a cursor. -/
def isBehind (cur : Option (String × String)) (row : ActivityRow) : Bool :=
  match cur with
  | none => true
  | some (day, tsId) => row.day < day ∨ row.day = day ∧ row.tsId < tsId

/-- No row of a day newer than the cursor's lies behind it. -/
theorem isBehind_of_newer {cur : Option (String × String)} {row : ActivityRow} {day : String}
    (hday : row.day = day) (h : (cur.any fun c => c.1 < day) = true) : isBehind cur row = false := by
  rcases cur with _ | ⟨curDay, curTsId⟩
  · cases h
  · have hlt : curDay < day := of_decide_eq_true h
    simp [isBehind, hday, lt_asymm hlt, ne_of_gt hlt]

/-- On the other days a row lies behind the cursor if it was not sent before. -/
theorem not_alreadySent_eq {cur : Option (String × String)} {row : ActivityRow} {day : String}
    (hday : row.day = day) (h : ¬ (cur.any fun c => c.1 < day) = true) :
    (!alreadySent cur day row) = isBehind cur row := by
  rcases cur with _ | ⟨curDay, curTsId⟩
  · rfl
  · have hle : day ≤ curDay := not_lt.mp fun hlt => h (decide_eq_true hlt)
    rcases hle.lt_or_eq with hlt | rfl
    · simp [alreadySent, isBehind, hday, hlt, ne_of_lt hlt]
    · have hkey : (!decide (curTsId ≤ row.tsId)) = decide (row.tsId < curTsId) := by
        rw [← decide_not]
        exact decide_eq_decide.mpr not_le
      have hnewer : ¬ day < day := lt_irrefl day
      simp only [alreadySent, isBehind, hday, hnewer, hkey, decide_true, Bool.true_and, false_or,
        true_and]

/-- All rows of the days older than the cursor's lie behind it. -/
theorem isBehind_of_older {cur : Option (String × String)} {row : ActivityRow} {day : String}
    (hday : row.day < day) (h : (cur.any fun c => c.1 = day) = true) : isBehind cur row = true := by
  rcases cur with _ | ⟨curDay, curTsId⟩
  · rfl
  · have hsame : curDay = day := by simpa using h
    simp [isBehind, hsame, hday]

/-- The rows of some days behind a cursor that pass the filters. -/
def wantedRows (t : ActivityTable) (q : ActivityQuery) (days : List String)
    (cur : Option (String × String)) : List ActivityRow :=
  days.flatMap fun day => (t.partition day).filter fun row => isBehind cur row && wanted q row

theorem wantedRows_congr {t : ActivityTable} {q : ActivityQuery} {days : List String}
    {cur cur' : Option (String × String)}
    (h : ∀ day ∈ days, ∀ row ∈ t.partition day, isBehind cur row = isBehind cur' row) :
    wantedRows t q days cur = wantedRows t q days cur' := by
  refine List.flatMap_congr fun day hday => List.filter_congr fun row hrow => ?_
  rw [h day hday row hrow]

/-- The loop over the rows of a day, after the rows in `done` were collected. -/
theorem takeRows_eq (q : ActivityQuery) (cur : Option (String × String)) {day : String}
    {rows done : List ActivityRow} (hday : ∀ row ∈ rows, row.day = day)
    (hdone : done.length < effectiveLimit q.limit) :
    takeRows q cur day rows (done.map fromDdbRow) =
      let found := done ++ rows.filter fun row => !alreadySent cur day row && wanted q row
      if effectiveLimit q.limit ≤ found.length then
        .inl (pageOf (effectiveLimit q.limit) (fun row => encodeCursor row.day row.tsId) fromDdbRow
          found)
      else .inr (found.map fromDdbRow) := by
  induction rows generalizing done with
  | nil =>
    rw [List.filter_nil, List.append_nil, takeRows]
    exact (if_neg (by omega)).symm
  | cons row rows ih =>
    obtain ⟨hrow, hrows⟩ := List.forall_mem_cons.mp hday
    rw [takeRows]
    -- A row is skipped because it was sent, kept because it is wanted, or dropped.
    by_cases hsent : alreadySent cur day row = true
    · rw [if_pos hsent, ih hrows hdone, List.filter_cons_of_neg (by simp [hsent])]
    rw [if_neg hsent]
    by_cases hwanted : wanted q row = true
    · rw [if_neg (by simp [hwanted]), List.filter_cons_of_pos (by simp [hsent, hwanted])]
      have hfound : done ++ row :: rows.filter (fun row => !alreadySent cur day row && wanted q row) =
          (done ++ [row]) ++ rows.filter fun row => !alreadySent cur day row && wanted q row := by
        rw [List.append_assoc]
        rfl
      simp only [hfound]
      have hmap : done.map fromDdbRow ++ [fromDdbRow row] = (done ++ [row]).map fromDdbRow := by
        rw [List.map_append]
        rfl
      have hlength : (done ++ [row]).length = done.length + 1 := by simp
      simp only [hmap, List.length_map, hlength]
      -- The row that fills the page ends the walk; its key is the cursor.
      by_cases hfull : effectiveLimit q.limit ≤ done.length + 1
      · have hexact : done.length + 1 = effectiveLimit q.limit := by omega
        rw [if_pos hfull, if_pos (by rw [List.length_append, hlength]; omega),
          pageOf_append_of_full (by rwa [hlength]), pageOf_append_singleton hexact, hrow]
      · rw [if_neg hfull, ih hrows (by omega)]
    · rw [if_pos (by simpa using hwanted), ih hrows hdone,
        List.filter_cons_of_neg (by simp [hwanted])]

/-- The loop over the days of the window, after the rows in `done` were collected: a page of these
rows and of those behind the cursor. -/
theorem takeDays_eq (t : ActivityTable) (split : String → ℕ → Split) (q : ActivityQuery)
    {days : List String} (hdays : days.Pairwise fun x y => y < x) (cur : Option (String × String))
    {done : List ActivityRow} (hdone : done.length < effectiveLimit q.limit) :
    takeDays t split q days cur (done.map fromDdbRow) =
      pageOf (effectiveLimit q.limit) (fun row => encodeCursor row.day row.tsId) fromDdbRow
        (done ++ wantedRows t q days cur) := by
  induction days generalizing cur done with
  | nil =>
    rw [wantedRows, List.flatMap_nil, List.append_nil, pageOf_of_not_full (by omega)]
    rfl
  | cons day days ih =>
    obtain ⟨holder, hdays⟩ := List.pairwise_cons.mp hdays
    have hcons : wantedRows t q (day :: days) cur =
        ((t.partition day).filter fun row => isBehind cur row && wanted q row) ++
          wantedRows t q days cur := rfl
    rw [takeDays, hcons]
    by_cases hskip : (cur.any fun c => c.1 < day) = true
    · -- No row of a day newer than the cursor's lies behind it.
      have hnone : ((t.partition day).filter fun row => isBehind cur row && wanted q row) = [] := by
        refine List.filter_eq_nil_iff.mpr fun row hrow => ?_
        rw [isBehind_of_newer (t.day_eq day row hrow) hskip, Bool.false_and]
        decide
      rw [if_pos hskip, ih hdays cur hdone, hnone, List.nil_append]
    · have hsent : ((t.partition day).filter fun row => !alreadySent cur day row && wanted q row) =
          (t.partition day).filter fun row => isBehind cur row && wanted q row := by
        refine List.filter_congr fun row hrow => ?_
        rw [not_alreadySent_eq (t.day_eq day row hrow) hskip]
      rw [if_neg hskip, queryDay_eq, takeRows_eq q cur (t.day_eq day) hdone, hsent]
      by_cases hfull : effectiveLimit q.limit ≤
          (done ++ (t.partition day).filter fun row => isBehind cur row && wanted q row).length
      · simp only [if_pos hfull]
        rw [← List.append_assoc, pageOf_append_of_full hfull]
      · simp only [if_neg hfull]
        rw [ih hdays _ (by omega), List.append_assoc]
        congr 2
        split_ifs with hsame
        · -- Behind the cursor's own day, the cursor leaves out no row.
          refine congrArg (_ ++ ·) (wantedRows_congr fun day' hday' row hrow => ?_)
          rw [isBehind_of_older (t.day_eq day' row hrow ▸ holder day' hday') hsame]
          rfl
        · rfl

/-- One day of the loop of `_day_range_desc`. -/
theorem dayLoop_cases {start : Date} {guard : ℕ} {cur : Date} {days : List Date}
    (h : dayLoop start (guard + 1) cur = .ok days) :
    (cur < start ∧ days = []) ∨
      ∃ prev rest, start ≤ cur ∧ prev.ordinal + 1 = cur.ordinal ∧ dayLoop start guard prev = .ok rest ∧
        days = cur :: rest := by
  rw [dayLoop] at h
  split_ifs at h with hle
  · right
    -- There is no day before the first, where the code overflows.
    cases hpred : cur.pred with
    | none =>
      rw [minusDays, hpred] at h
      cases h
    | some prev =>
      have hprev : minusDays cur 1 = .ok prev := by
        rw [minusDays, hpred]
        rfl
      simp only [hprev, bind, Except.bind] at h
      cases hrest : dayLoop start guard prev with
      | error e =>
        rw [hrest] at h
        cases h
      | ok rest =>
        rw [hrest] at h
        cases h
        exact ⟨prev, rest, hle, Date.ordinal_pred hpred, hrest, rfl⟩
  · cases h
    exact Or.inl ⟨not_le.mp hle, rfl⟩

theorem dayLoop_pairwise {start : Date} {guard : ℕ} {cur : Date} {days : List Date}
    (h : dayLoop start guard cur = .ok days) :
    days.Pairwise (fun x y => y < x) ∧ ∀ c ∈ days, start ≤ c ∧ c ≤ cur := by
  induction guard generalizing cur days with
  | zero =>
    cases h
    exact ⟨List.Pairwise.nil, fun _ hc => absurd hc List.not_mem_nil⟩
  | succ guard ih =>
    rcases dayLoop_cases h with ⟨-, rfl⟩ | ⟨prev, rest, hle, hprev, hrest, rfl⟩
    · exact ⟨List.Pairwise.nil, fun _ hc => absurd hc List.not_mem_nil⟩
    · obtain ⟨hpairwise, hmem⟩ := ih hrest
      have hlt : prev < cur := Date.lt_iff_ordinal_lt.mpr (by omega)
      refine ⟨List.pairwise_cons.mpr ⟨fun c hc => (hmem c hc).2.trans_lt hlt, hpairwise⟩, ?_⟩
      refine List.forall_mem_cons.mpr ⟨⟨hle, le_rfl⟩, fun c hc => ?_⟩
      exact ⟨(hmem c hc).1, (hmem c hc).2.trans hlt.le⟩

/-- The loop reaches every day if it may append enough. -/
theorem mem_dayLoop {start : Date} {guard : ℕ} {cur : Date} {days : List Date}
    (h : dayLoop start guard cur = .ok days) (hguard : cur.ordinal < start.ordinal + guard) {c : Date}
    (hstart : start ≤ c) (hcur : c ≤ cur) : c ∈ days := by
  induction guard generalizing cur days with
  | zero =>
    have hlt : cur < start := Date.lt_iff_ordinal_lt.mpr hguard
    exact absurd (hstart.trans hcur) (not_le.mpr hlt)
  | succ guard ih =>
    rcases dayLoop_cases h with ⟨hlt, rfl⟩ | ⟨prev, rest, hle, hprev, hrest, rfl⟩
    · exact absurd (hstart.trans hcur) (not_le.mpr hlt)
    · rcases hcur.eq_or_lt with rfl | hlt
      · exact List.mem_cons_self
      · have hordinal := Date.lt_iff_ordinal_lt.mp hlt
        have hle : c ≤ prev := Date.le_iff_ordinal_le.mpr (by omega)
        exact List.mem_cons_of_mem _ (ih hrest (by omega) hle)

/-- The days between two dates, if the request is admitted and they are at most 366. -/
theorem mem_dayRangeDesc {dFrom dTo : String} {first last : Date} {days : List Date}
    (hfirst : parseDay dFrom = .ok first) (hlast : parseDay dTo = .ok last)
    (hdays : dayRangeDesc dFrom dTo = .ok days) (hwindow : last.ordinal < first.ordinal + 366)
    (c : Date) : c ∈ days ↔ first ≤ c ∧ c ≤ last := by
  rw [dayRangeDesc, hfirst, hlast] at hdays
  change dayLoop first 366 last = .ok days at hdays
  exact ⟨fun hc => (dayLoop_pairwise hdays).2 c hc,
    fun hc => mem_dayLoop hdays hwindow hc.1 hc.2⟩

theorem dayRangeDesc_pairwise {dFrom dTo : String} {days : List Date}
    (hdays : dayRangeDesc dFrom dTo = .ok days) :
    (days.map Date.iso).Pairwise fun x y => y < x := by
  rw [dayRangeDesc] at hdays
  cases hfirst : parseDay dFrom with
  | error e =>
    rw [hfirst] at hdays
    cases hdays
  | ok first =>
    cases hlast : parseDay dTo with
    | error e =>
      rw [hfirst, hlast] at hdays
      cases hdays
    | ok last =>
      rw [hfirst, hlast] at hdays
      exact List.pairwise_map.mpr
        ((dayLoop_pairwise hdays).1.imp fun hlt => Date.iso_lt_iso_iff.mpr hlt)

/-- The text of a date has no bar. -/
theorem bar_notMem_iso (d : Date) : '|' ∉ d.iso.toList := by
  have hdigits (w n : ℕ) : '|' ∉ Date.digits w n := by
    intro h
    obtain ⟨k, hk, heq⟩ := Date.exists_of_mem_digits h
    exact (digitChar_spec hk).2.2.2.2.2.1 heq.symm
  simp [Date.iso, hdigits]

/-- Reading the cursor of a row gives its day and its sort key. -/
theorem parseCursor_encodeCursor {day : String} (hday : '|' ∉ day.toList) (tsId : String) :
    parseCursor (some (encodeCursor day tsId)) = some (day, tsId) := by
  have hne : ∀ c ∈ day.toList, decide (c ≠ '|') = true := by
    intro c hc
    refine decide_eq_true ?_
    rintro rfl
    exact hday hc
  have hbar : '|' ∈ day.toList ++ '|' :: tsId.toList := by simp
  have htake : (day.toList ++ '|' :: tsId.toList).takeWhile (· ≠ '|') = day.toList := by
    rw [List.takeWhile_append_of_pos hne]
    simp
  have hdrop : (day.toList ++ '|' :: tsId.toList).dropWhile (· ≠ '|') = '|' :: tsId.toList := by
    rw [List.dropWhile_append_of_pos hne]
    simp
  rw [parseCursor, encodeCursor, Option.getD_some, String.toList_ofList]
  simp only [if_pos hbar, htake, hdrop, List.tail_cons, String.ofList_toList]

/-- A request whose days are admitted is a page of the rows behind its cursor. -/
theorem query_eq (t : ActivityTable) (split : String → ℕ → Split) {today : Date} {q : ActivityQuery}
    {dFrom dTo : String} {days : List Date} (hbounds : windowBounds today q = .ok (dFrom, dTo))
    (hdays : dayRangeDesc dFrom dTo = .ok days) (cursor : Option String) :
    query t split today q cursor = .ok
      (pageOf (effectiveLimit q.limit) (fun row => encodeCursor row.day row.tsId) fromDdbRow
        (wantedRows t q (days.map Date.iso) (parseCursor cursor))) := by
  have hlimit : ([] : List ActivityRow).length < effectiveLimit q.limit := by
    unfold effectiveLimit
    exact Int.lt_toNat.mpr (by simp)
  rw [query, hbounds]
  simp only [bind, Except.bind, hdays]
  exact congrArg Except.ok
    (takeDays_eq t split q (dayRangeDesc_pairwise hdays) (parseCursor cursor) hlimit)

/-- The rows of a window that pass the filters, newest first. -/
theorem wantedRows_pairwise (t : ActivityTable) (q : ActivityQuery) {days : List String}
    (hdays : days.Pairwise fun x y => y < x) (cur : Option (String × String)) :
    (wantedRows t q days cur).Pairwise NewestFirst := by
  refine List.pairwise_flatMap.mpr ⟨fun day _ => ?_, hdays.imp_of_mem fun _ _ hlt => ?_⟩
  · refine List.Pairwise.imp_of_mem ?_ ((t.sorted day).filter _)
    intro v w hv hw hlt
    have hv := t.day_eq day v (List.mem_filter.mp hv).1
    have hw := t.day_eq day w (List.mem_filter.mp hw).1
    exact Or.inr ⟨hw.trans hv.symm, hlt⟩
  · intro v hv w hw
    have hv := t.day_eq _ v (List.mem_filter.mp hv).1
    have hw := t.day_eq _ w (List.mem_filter.mp hw).1
    exact Or.inl (by rwa [hv, hw])

/-- The rows behind a row are those that follow it. -/
theorem filter_wantedRows (t : ActivityTable) (q : ActivityQuery) (days : List String)
    (v : ActivityRow) :
    ((wantedRows t q days none).filter fun row => NewestFirst v row) =
      wantedRows t q days (some (v.day, v.tsId)) := by
  rw [wantedRows, wantedRows, List.filter_flatMap]
  refine List.flatMap_congr fun day _ => ?_
  rw [List.filter_filter]
  rfl

/-- The window that two dates name. -/
theorem windowBounds_iso (today : Date) {q : ActivityQuery} {first last : Date}
    (hfrom : q.dayFrom = some first.iso) (hto : q.dayTo = some last.iso) (hle : first ≤ last) :
    windowBounds today q = .ok (first.iso, last.iso) := by
  have hne (d : Date) : d.iso ≠ "" := by
    intro h
    have hlist := congrArg String.toList h
    rw [Date.iso, String.toList_ofList] at hlist
    cases hlist
  have horder : ¬ last.iso < first.iso := fun hlt =>
    absurd (Date.iso_lt_iso_iff.mp hlt) (not_lt.mpr hle)
  rw [windowBounds, hfrom, hto]
  simp only [PyText.orDefault, if_neg (hne last), if_neg (hne first), bind, Except.bind,
    if_neg horder]
  rfl

/-- Windows that begin behind the first day of the calendar are admitted. -/
theorem dayRangeDesc_iso {first : Date} (hfirst : 1 < first.ordinal) (last : Date) :
    ∃ days, dayRangeDesc first.iso last.iso = .ok days := by
  have hloop (guard : ℕ) (cur : Date) : ∃ days, dayLoop first guard cur = .ok days := by
    induction guard generalizing cur with
    | zero => exact ⟨[], rfl⟩
    | succ guard ih =>
      by_cases hle : first ≤ cur
      · cases hpred : cur.pred with
        | none =>
          -- The first day has the ordinal one, which is before the range.
          have hordinal := Date.ordinal_of_pred_eq_none hpred
          have := Date.le_iff_ordinal_le.mp hle
          omega
        | some prev =>
          have hprev : minusDays cur 1 = .ok prev := by
            rw [minusDays, hpred]
            rfl
          obtain ⟨rest, hrest⟩ := ih prev
          refine ⟨cur :: rest, ?_⟩
          rw [dayLoop, if_pos hle]
          simp only [hprev, hrest, bind, Except.bind]
          rfl
      · exact ⟨[], by rw [dayLoop, if_neg hle]⟩
  obtain ⟨days, hdays⟩ := hloop 366 last
  refine ⟨days, ?_⟩
  rw [dayRangeDesc, parseDay_iso, parseDay_iso]
  exact hdays

instance : Membership ActivityRow ActivityTable := ⟨fun t row => row ∈ t.partition row.day⟩

/-- An item shows a row: its day, its sort key and all its attributes, decimals as numbers, and nothing
else. -/
structure Shows (row : ActivityRow) (item : PyDict) : Prop where
  day : PyDict.get? item "day" = some (.str row.day)
  tsId : PyDict.get? item "ts_id" = some (.str row.tsId)
  attributes : ∀ key, key ≠ "day" → key ≠ "ts_id" →
    Option.Rel Ddb.Native (PyDict.get? row.attributes key) (PyDict.get? item key)

theorem shows_fromDdbRow (row : ActivityRow) : Shows row (fromDdbRow row) where
  day := PyDict.get?_mapValues Ddb.fromDdb row.item "day"
  tsId := PyDict.get?_mapValues Ddb.fromDdb row.item "ts_id"
  attributes key hday htsId := by
    -- Behind the two keys are the attributes.
    have hitem : PyDict.get? row.item key = PyDict.get? row.attributes key := by
      rw [ActivityRow.item, PyDict.get?_cons, if_neg hday.symm, PyDict.get?_cons, if_neg htsId.symm]
    rw [fromDdbRow, PyDict.get?_mapValues, hitem]
    cases PyDict.get? row.attributes key with
    | none => exact Option.Rel.none
    | some v => exact Option.Rel.some (Ddb.native_fromDdb v)

/-- A client that follows the cursors is shown every row of the window that passes the filters, once,
newest first, if the code admits the window and it has at most 366 days. -/
theorem follow_query (t : ActivityTable) (split : ℕ → String → ℕ → Split) (today : ℕ → Date)
    (q : ActivityQuery) {dFrom dTo : String} {first last : Date} {days : List Date}
    (hbounds : ∀ r, windowBounds (today r) q = .ok (dFrom, dTo))
    (hfirst : parseDay dFrom = .ok first) (hlast : parseDay dTo = .ok last)
    (hdays : dayRangeDesc dFrom dTo = .ok days) (hwindow : last.ordinal < first.ordinal + 366) :
    ∃ rows : List ActivityRow, rows.Pairwise NewestFirst ∧
      (∀ row, row ∈ rows ↔
        row ∈ t ∧ (∃ day, first ≤ day ∧ day ≤ last ∧ row.day = day.iso) ∧ wanted q row = true) ∧
      ∃ fuel items, follow (fun r => query t (split r) (today r) q) fuel none = some items ∧
        List.Forall₂ Shows rows items := by
  refine ⟨wantedRows t q (days.map Date.iso) none,
    wantedRows_pairwise t q (dayRangeDesc_pairwise hdays) none, fun row => ?_, _, _,
    Keyset.follow_eq ?_ (fun _ _ => NewestFirst.asymm)
      (wantedRows_pairwise t q (dayRangeDesc_pairwise hdays) none)
      (query_eq t (split 0) (hbounds 0) hdays none) (fun r v hv => ?_) (Nat.lt_succ_self _),
    List.forall₂_map_right_iff.mpr (List.forall₂_same.mpr fun row _ => shows_fromDdbRow row)⟩
  · simp only [wantedRows, List.mem_flatMap, List.mem_map, List.mem_filter, isBehind, Bool.true_and]
    constructor
    · rintro ⟨_, ⟨day, hday, rfl⟩, hrow, hwanted⟩
      obtain ⟨hle, hge⟩ := (mem_dayRangeDesc hfirst hlast hdays hwindow day).mp hday
      have heq := t.day_eq day.iso row hrow
      exact ⟨show row ∈ t.partition row.day by rwa [heq], ⟨day, hle, hge, heq⟩, hwanted⟩
    · rintro ⟨hrow, ⟨day, hle, hge, heq⟩, hwanted⟩
      have hday := (mem_dayRangeDesc hfirst hlast hdays hwindow day).mpr ⟨hle, hge⟩
      have hrow : row ∈ t.partition row.day := hrow
      exact ⟨day.iso, ⟨day, hday, rfl⟩, by rwa [heq] at hrow, hwanted⟩
  · unfold effectiveLimit
    omega
  · -- A cursor that was returned names a row of one of the days.
    obtain ⟨_, hday, hrow⟩ := List.mem_flatMap.mp hv
    obtain ⟨day, -, rfl⟩ := List.mem_map.mp hday
    have heq := t.day_eq day.iso v (List.mem_filter.mp hrow).1
    have hbar : '|' ∉ v.day.toList := by
      rw [heq]
      exact bar_notMem_iso day
    rw [query_eq t (split r) (hbounds r) hdays, parseCursor_encodeCursor hbar, filter_wantedRows]

/-- Rows on the first and the last day of a window of three days. -/
def sampleTable : ActivityTable where
  partition day :=
    if day = "2024-03-02" then [⟨day, "9#b", [("actor", .str "ana")]⟩, ⟨day, "8#a", []⟩]
    else if day = "2024-02-29" then [⟨day, "7#c", [("actor", .str "ana")]⟩]
    else []
  day_eq day row hrow := by
    split_ifs at hrow with hlast hfirst
    · rcases List.mem_pair.mp hrow with rfl | rfl <;> rfl
    · obtain rfl := List.mem_singleton.mp hrow
      rfl
    · exact absurd hrow List.not_mem_nil
  sorted day := by
    split_ifs
    · exact List.pairwise_pair.mpr (show "8#a" < "9#b" by decide +kernel)
    · exact List.pairwise_singleton _ _
    · exact List.Pairwise.nil

/-- The last of February and the second of March of a leap year. -/
def sampleFirst : Date := ⟨2024, 2, 29, by decide⟩

@[inherit_doc sampleFirst]
def sampleLast : Date := ⟨2024, 3, 2, by decide⟩

/-- A client that follows the cursors of one user's rows, one row a page. -/
theorem follow_query_sample :
    let q : ActivityQuery := ⟨some "2024-02-29", some "2024-03-02", some "ana", none, 1⟩
    ∃ rows : List ActivityRow, rows.Pairwise NewestFirst ∧
      (∀ row, row ∈ rows ↔ row ∈ sampleTable ∧
        (∃ day, sampleFirst ≤ day ∧ day ≤ sampleLast ∧ row.day = day.iso) ∧ wanted q row = true) ∧
      ∃ fuel items, follow (fun _ => query sampleTable (fun _ _ => ⟨0, true⟩) sampleLast q) fuel none =
          some items ∧ List.Forall₂ Shows rows items := by
  intro q
  have hafter : 1 < sampleFirst.ordinal := by decide +kernel
  obtain ⟨days, hdays⟩ := dayRangeDesc_iso hafter sampleLast
  have hfrom : q.dayFrom = some sampleFirst.iso := by decide +kernel
  have hto : q.dayTo = some sampleLast.iso := by decide +kernel
  have hbounds := windowBounds_iso sampleLast hfrom hto (by decide +kernel)
  exact follow_query sampleTable (fun _ _ _ => ⟨0, true⟩) (fun _ => sampleLast) q
    (fun _ => hbounds) (parseDay_iso sampleFirst) (parseDay_iso sampleLast) hdays (by decide +kernel)

end Activity
