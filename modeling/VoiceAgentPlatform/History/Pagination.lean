import VoiceAgentPlatform.History.List

/-!
# Following the cursors of the history list

What a client gets that starts without a cursor and follows `next_cursor` until it is null. The
cursor is the key behind the pages a request has scanned, while the rows of those pages are cut at
the limit, so what is cut off is never listed.

* `scanPages`, `pageGroup`: the table in groups of five scan pages, one for each request.
* `ListedCompletely`: the walk ends and lists every row of the user exactly once and no other row.
* `listedCompletely_iff`: this holds exactly when no group has more rows of the user than the limit.
-/

namespace History

open KeyedTable

variable {slot : String ↪ ℕ}

/-- What is left behind a resume key, nothing if there is none. -/
def remaining (t : Table (historySchema slot)) : Option String → List HistoryRow
  | none => []
  | some key => t.after (some key)

/-- A page and what is left behind its resume key make up what was left before it, and a page with a
resume key is not empty. -/
theorem scanPage_spec (t : Table (historySchema slot)) {limit : ℕ} (hlimit : 0 < limit)
    (split : Split) (start : Option String) :
    t.after start =
        (scanPage t limit split start).1 ++ remaining t (scanPage t limit split start).2 ∧
      ((scanPage t limit split start).2 ≠ none → (scanPage t limit split start).1 ≠ []) := by
  have hrest := List.take_append_drop (min (split.size + 1) limit) (t.after start)
  have hempty : (t.after start).take (min (split.size + 1) limit) = [] → t.after start = [] := by
    intro h
    rcases List.take_eq_nil_iff.mp h with h | h
    · omega
    · exact h
  simp only [scanPage]
  generalize (t.after start).take (min (split.size + 1) limit) = page at hrest hempty
  cases hlast : page.getLast? with
  | none =>
    obtain rfl := List.getLast?_eq_none_iff.mp hlast
    simp [remaining, hempty rfl]
  | some row =>
    -- The last row of the page is the resume key, behind which the rest begins.
    have hafter : t.after (some row.callId) = (t.after start).drop (min (split.size + 1) limit) :=
      Table.after_getLast hrest.symm hlast
    have hne : page ≠ [] := by
      rintro rfl
      cases hlast
    refine ⟨?_, fun _ => hne⟩
    split_ifs with hmore
    · simp only [Option.map_some, remaining, hafter]
      exact hrest.symm
    · -- Without more rows the page is all that was left.
      have hlength : page.length = (t.after start).length := by
        have := congrArg List.length hrest
        rw [List.length_append] at this
        omega
      have hdrop : (t.after start).drop (min (split.size + 1) limit) = [] := by
        have := congrArg List.length hrest
        rw [List.length_append] at this
        exact List.length_eq_zero_iff.mp (by omega)
      rw [hdrop] at hrest
      exact hrest.symm

/-- Up to `n` pages of a scan, the first of them at `start`. -/
def scanPages (t : Table (historySchema slot)) (limit : ℕ) (split : ℕ → Split) :
    ℕ → ℕ → Option String → List HistoryRow × Option String
  | 0, _, start => ([], start)
  | n + 1, pages, start =>
    match scanPage t limit (split pages) start with
    | (page, none) => (page, none)
    | (page, some key) =>
      let (rows, last) := scanPages t limit split n (pages + 1) (some key)
      (page ++ rows, last)

/-- The rows of the user. -/
def rowsOf (username : String) (rows : List HistoryRow) : List HistoryRow :=
  rows.filter fun row => row.webUser = some username

@[simp] theorem rowsOf_append (username : String) (rows rows' : List HistoryRow) :
    rowsOf username (rows ++ rows') = rowsOf username rows ++ rowsOf username rows' :=
  List.filter_append ..

/-- The loop of a request collects the user's rows of a window that starts at the request's position
and is not empty if there is a resume key. -/
theorem scanLoop_window (t : Table (historySchema slot)) (username : String) {pageLimit : ℕ}
    (hlimit : 0 < pageLimit) (target : ℕ) (split : ℕ → Split) (fuel pages : ℕ)
    (aggregated : List HistoryRow) (start : Option String) :
    ∃ window,
      t.after start = window ++ remaining t
          (scanLoop t username pageLimit target split (fuel + 1) pages aggregated start).2 ∧
        (scanLoop t username pageLimit target split (fuel + 1) pages aggregated start).1 =
          aggregated ++ rowsOf username window ∧
        ((scanLoop t username pageLimit target split (fuel + 1) pages aggregated start).2 ≠ none →
          window ≠ []) := by
  induction fuel generalizing pages aggregated start with
  | zero =>
    obtain ⟨hrest, hne⟩ := scanPage_spec t hlimit (split pages) start
    refine ⟨(scanPage t pageLimit (split pages) start).1, ?_⟩
    simp only [scanLoop]
    split
    · simp_all [remaining, rowsOf]
    · simp_all [rowsOf]
  | succ fuel ih =>
    obtain ⟨hrest, hne⟩ := scanPage_spec t hlimit (split pages) start
    rw [scanLoop]
    cases hpage : scanPage t pageLimit (split pages) start with
    | mk page last =>
    rw [hpage] at hrest hne
    cases last with
    | none => exact ⟨page, hrest, rfl, hne⟩
    | some key =>
      simp only
      split_ifs
      · exact ⟨page, hrest, rfl, hne⟩
      · exact ⟨page, hrest, rfl, hne⟩
      · -- The page is put in front of the window of the remaining pages.
        obtain ⟨window, hwindow, hrows, -⟩ := ih (pages + 1) (aggregated ++ rowsOf username page)
          (some key)
        refine ⟨page ++ window, ?_, ?_, fun _ =>
          List.append_ne_nil_of_left_ne_nil (hne (Option.some_ne_none key)) _⟩
        · rw [List.append_assoc]
          exact hrest.trans (congrArg (page ++ ·) hwindow)
        · rw [rowsOf_append, ← List.append_assoc]
          exact hrows

/-- As long as the rows stay below the target, the loop reads all the pages it may read; where it
stops early, it has found as many rows as the target, and so would all the pages. -/
theorem scanLoop_eq_or (t : Table (historySchema slot)) (username : String)
    (pageLimit target : ℕ) (split : ℕ → Split) (fuel pages : ℕ) (hpages : pages + fuel = 5)
    (aggregated : List HistoryRow) (start : Option String) :
    let result := scanLoop t username pageLimit target split fuel pages aggregated start
    let group := scanPages t pageLimit split fuel pages start
    result = (aggregated ++ rowsOf username group.1, group.2) ∨
      target ≤ result.1.length ∧ target ≤ (aggregated ++ rowsOf username group.1).length := by
  induction fuel generalizing pages aggregated start with
  | zero => simp [scanLoop, scanPages, rowsOf]
  | succ fuel ih =>
    simp only [scanLoop, scanPages]
    cases hpage : scanPage t pageLimit (split pages) start with
    | mk page last =>
    cases last with
    | none => exact Or.inl rfl
    | some key =>
      simp only
      -- The loop has enough, has read its five pages, or goes on.
      split_ifs with htarget hfive
      · right
        simp only [rowsOf, List.length_append, List.filter_append] at htarget ⊢
        omega
      · obtain rfl : fuel = 0 := by omega
        left
        simp [scanPages, rowsOf]
      · have := ih (pages + 1) (by omega) (aggregated ++ rowsOf username page) (some key)
        simpa [rowsOf] using this

/-- The size of a page of `list_history`. -/
def pageLimit (limit : ℤ) : ℕ := min (max (effectiveLimit limit * 4) 50) 200

theorem effectiveLimit_pos (limit : ℤ) : 0 < effectiveLimit limit := by
  unfold effectiveLimit
  split_ifs with h <;> omega

theorem pageLimit_pos (limit : ℤ) : 0 < pageLimit limit := by
  unfold pageLimit
  omega

/-- The `r`-th group of five successive pages, the first of which starts at `start`. -/
def pageGroup (t : Table (historySchema slot)) (limit : ℤ) :
    ℕ → (ℕ → ℕ → Split) → Option String → List HistoryRow
  | 0, split, start => (scanPages t (pageLimit limit) (split 0) 5 0 start).1
  | r + 1, split, start =>
    match (scanPages t (pageLimit limit) (split 0) 5 0 start).2 with
    | none => []
    | some key => pageGroup t limit r (fun r => split (r + 1)) (some key)

/-- Newest first: `aggregated.sort(key=…, reverse=True)`. -/
def newestFirst (rows : List HistoryRow) : List HistoryRow :=
  rows.mergeSort fun x y => y.startedAt.getD 0 ≤ x.startedAt.getD 0

/-- A request whose cursor is absent or was returned by an earlier request. -/
theorem listHistory_cursor (t : Table (historySchema slot)) (split : ℕ → Split) (username : String)
    (limit : ℤ) (start : Option String) :
    listHistory (some t) split username limit (start.map encodeCursor) =
      let result := scanLoop t username (pageLimit limit) (effectiveLimit limit * 4) split 5 0 []
        start
      .ok ⟨((newestFirst result.1).take (effectiveLimit limit)).map projectCard,
        result.2.map encodeCursor⟩ := by
  -- A cursor that was given out is read back.
  have hstart : (decodeCursor (start.map encodeCursor)).bind startKey = .ok start := by
    cases start with
    | none => rfl
    | some key =>
      rw [Option.map_some, decodeCursor_encodeCursor]
      rfl
  cases hkey : decodeCursor (start.map encodeCursor) with
  | error e =>
    rw [hkey] at hstart
    cases hstart
  | ok key =>
    rw [hkey] at hstart
    change startKey key = .ok start at hstart
    rw [listHistory]
    simp only [hkey, bind, Except.bind, hstart]
    rfl

theorem perm_newestFirst (rows : List HistoryRow) : (newestFirst rows).Perm rows :=
  List.mergeSort_perm ..

/-- The cards of a request whose loop found `rows`. -/
def cardsOf (limit : ℤ) (rows : List HistoryRow) : List Card :=
  ((newestFirst rows).take (effectiveLimit limit)).map projectCard

theorem length_cardsOf (limit : ℤ) (rows : List HistoryRow) :
    (cardsOf limit rows).length = min (effectiveLimit limit) rows.length := by
  rw [cardsOf, List.length_map, List.length_take, (perm_newestFirst rows).length_eq]

/-- Nothing is cut off if the rows fit the limit. -/
theorem cardsOf_perm {limit : ℤ} {rows : List HistoryRow}
    (h : rows.length ≤ effectiveLimit limit) : (cardsOf limit rows).Perm (rows.map projectCard) := by
  rw [cardsOf, List.take_of_length_le (by rwa [(perm_newestFirst rows).length_eq])]
  exact (perm_newestFirst rows).map projectCard

/-- A request lists no row twice. -/
theorem cardsOf_subperm (limit : ℤ) (rows : List HistoryRow) :
    (cardsOf limit rows).Subperm (rows.map projectCard) :=
  ((List.take_sublist _ _).map projectCard).subperm.trans
    ((perm_newestFirst rows).map projectCard).subperm

section Follow

variable (t : Table (historySchema slot)) (username : String) (limit : ℤ)

/-- The loop of one request at a position. -/
def request (split : ℕ → Split) (start : Option String) : List HistoryRow × Option String :=
  scanLoop t username (pageLimit limit) (effectiveLimit limit * 4) split 5 0 [] start

/-- One request of a client, and the requests that follow it. -/
theorem followCursors_succ (fuel : ℕ) (split : ℕ → ℕ → Split) (start : Option String) :
    followCursors (some t) username limit (fuel + 1) split (start.map encodeCursor) =
      match (request t username limit (split 0) start).2 with
      | none => some (cardsOf limit (request t username limit (split 0) start).1)
      | some key =>
        (followCursors (some t) username limit fuel (fun r => split (r + 1))
            ((some key).map encodeCursor)).map
          (cardsOf limit (request t username limit (split 0) start).1 ++ ·) := by
  rw [followCursors, listHistory_cursor]
  cases hkey : (request t username limit (split 0) start).2 with
  | none =>
    rw [request] at hkey
    simp only [hkey]
    rfl
  | some key =>
    rw [request] at hkey
    simp only [hkey]
    rfl

/-- A request finds the rows of the user in a window that starts at its position. -/
theorem request_window (split : ℕ → Split) (start : Option String) :
    ∃ window, t.after start = window ++ remaining t (request t username limit split start).2 ∧
      (request t username limit split start).1 = rowsOf username window ∧
        ((request t username limit split start).2 ≠ none → window ≠ []) :=
  scanLoop_window t username (pageLimit_pos limit) _ split 4 0 [] start

/-- Following the cursors comes to an end. -/
theorem followCursors_terminates (split : ℕ → ℕ → Split) (start : Option String) :
    ∃ fuel cards,
      followCursors (some t) username limit fuel split (start.map encodeCursor) = some cards := by
  induction hn : (t.after start).length using Nat.strong_induction_on generalizing split start with
  | _ n ih =>
  obtain ⟨window, hwindow, -, hne⟩ := request_window t username limit (split 0) start
  cases hkey : (request t username limit (split 0) start).2 with
  | none => exact ⟨1, _, by rw [followCursors_succ, hkey]⟩
  | some key =>
    rw [hkey] at hwindow hne
    -- Behind the cursor there are fewer rows.
    have hshorter : (t.after (some key)).length < n := by
      have hlength := congrArg List.length hwindow
      have hpos := List.length_pos_of_ne_nil (hne (Option.some_ne_none key))
      rw [List.length_append] at hlength
      simp only [remaining] at hlength
      omega
    obtain ⟨fuel, cards, hfollow⟩ := ih _ hshorter (fun r => split (r + 1)) (some key) rfl
    exact ⟨fuel + 1, _, by rw [followCursors_succ, hkey]; simp only [hfollow]; rfl⟩

variable {t username limit}

/-- A client never gets a row twice and never a row of another user. -/
theorem followCursors_subperm {fuel : ℕ} {split : ℕ → ℕ → Split} {start : Option String}
    {cards : List Card}
    (h : followCursors (some t) username limit fuel split (start.map encodeCursor) = some cards) :
    cards.Subperm ((rowsOf username (t.after start)).map projectCard) := by
  induction fuel generalizing split start cards with
  | zero => cases h
  | succ fuel ih =>
    obtain ⟨window, hwindow, hrows, -⟩ :=
      request_window t username limit (split 0) start
    rw [followCursors_succ] at h
    -- The page shows rows of its window, and the rest those behind it.
    rw [hwindow, rowsOf_append, List.map_append, ← hrows]
    cases hkey : (request t username limit (split 0) start).2 with
    | none =>
      rw [hkey] at h
      obtain rfl := Option.some.inj h
      exact (cardsOf_subperm _ _).trans (List.sublist_append_left _ _).subperm
    | some key =>
      rw [hkey] at h
      obtain ⟨rest, hrest, rfl⟩ := Option.map_eq_some_iff.mp h
      exact (cardsOf_subperm _ _).append (ih hrest)

/-- While its rows fit the limit, a request reads a whole group of pages. -/
theorem request_eq_group {split : ℕ → ℕ → Split} {start : Option String}
    (h : (request t username limit (split 0) start).1.length ≤ effectiveLimit limit) :
    request t username limit (split 0) start =
      (rowsOf username (pageGroup t limit 0 split start),
        (scanPages t (pageLimit limit) (split 0) 5 0 start).2) := by
  have hpos := effectiveLimit_pos limit
  rcases scanLoop_eq_or t username (pageLimit limit) (effectiveLimit limit * 4) (split 0) 5 0 rfl []
    start with heq | ⟨htarget, -⟩
  · exact heq
  · rw [request] at h
    omega

/-- Where the rows of a request exceed the limit, so do those of the group of pages. -/
theorem lt_group_of_lt_request {split : ℕ → ℕ → Split} {start : Option String}
    (h : effectiveLimit limit < (request t username limit (split 0) start).1.length) :
    effectiveLimit limit < (rowsOf username (pageGroup t limit 0 split start)).length := by
  have hpos := effectiveLimit_pos limit
  rcases scanLoop_eq_or t username (pageLimit limit) (effectiveLimit limit * 4) (split 0) 5 0 rfl []
    start with heq | ⟨-, htarget⟩
  · rw [request, heq] at h
    exact h
  · rw [List.nil_append] at htarget
    exact lt_of_lt_of_le (by omega) htarget

/-- What a client gets from a position on is complete exactly when no group of pages from there on
has more rows of the user than the limit. -/
theorem followCursors_perm_iff {fuel : ℕ} {split : ℕ → ℕ → Split} (start : Option String)
    {cards : List Card}
    (h : followCursors (some t) username limit fuel split (start.map encodeCursor) = some cards) :
    cards.Perm ((rowsOf username (t.after start)).map projectCard) ↔
      ∀ r, (rowsOf username (pageGroup t limit r split start)).length ≤ effectiveLimit limit := by
  induction fuel generalizing split start cards with
  | zero => cases h
  | succ fuel ih =>
    obtain ⟨window, hwindow, hrows, -⟩ :=
      request_window t username limit (split 0) start
    rw [followCursors_succ] at h
    rw [hwindow, rowsOf_append, List.map_append, ← hrows]
    by_cases hfit : (request t username limit (split 0) start).1.length ≤ effectiveLimit limit
    · have hgroup := request_eq_group hfit
      have hfirst : (rowsOf username (pageGroup t limit 0 split start)).length ≤
          effectiveLimit limit := by
        rwa [hgroup] at hfit
      have hkeys : (scanPages t (pageLimit limit) (split 0) 5 0 start).2 =
          (request t username limit (split 0) start).2 := (congrArg Prod.snd hgroup).symm
      cases hkey : (request t username limit (split 0) start).2 with
      | none =>
        rw [hkey] at h hkeys
        obtain rfl := Option.some.inj h
        refine iff_of_true (by simpa [remaining, rowsOf] using cardsOf_perm hfit) fun r => ?_
        cases r with
        | zero => exact hfirst
        | succ r => simp [pageGroup, hkeys, rowsOf]
      | some key =>
        rw [hkey] at h hkeys
        obtain ⟨rest, hrest, rfl⟩ := Option.map_eq_some_iff.mp h
        have hlater (r : ℕ) : pageGroup t limit (r + 1) split start =
            pageGroup t limit r (fun r => split (r + 1)) (some key) := by
          rw [pageGroup, hkeys]
        rw [((cardsOf_perm hfit).append_right rest).congr_left, List.perm_append_left_iff]
        simp only [remaining, ih (some key) hrest, ← hlater]
        constructor
        · intro hrest r
          cases r with
          | zero => exact hfirst
          | succ r => exact hrest r
        · exact fun hall r => hall (r + 1)
    · push Not at hfit
      refine iff_of_false (fun hperm => ?_)
        fun hall => absurd (hall 0) (by simpa using lt_group_of_lt_request hfit)
      -- The rows that are cut off are missing in the count.
      have hlength := hperm.length_eq
      cases hkey : (request t username limit (split 0) start).2 with
      | none =>
        rw [hkey] at h
        obtain rfl := Option.some.inj h
        simp only [length_cardsOf, List.length_append, List.length_map] at hlength
        omega
      | some key =>
        rw [hkey] at h hlength
        obtain ⟨rest, hrest, rfl⟩ := Option.map_eq_some_iff.mp h
        have hle := (followCursors_subperm hrest).length_le
        simp only [length_cardsOf, List.length_append, List.length_map, remaining] at hlength hle
        omega

end Follow

/-- Following the cursors from the beginning ends, and the cards are those of the user's rows, each
exactly once and under the id of its call. -/
def ListedCompletely (t : Table (historySchema slot)) (username : String) (limit : ℤ)
    (split : ℕ → ℕ → Split) : Prop :=
  ∃ fuel cards, followCursors (some t) username limit fuel split none = some cards ∧
    cards.Perm ((rowsOf username t.items).map projectCard) ∧
      (cards.map Card.callId).Perm ((rowsOf username t.items).map HistoryRow.callId)

/-- The list is complete exactly when no five successive pages of the scan, counted from its
beginning, hold more rows of the user than the limit. -/
theorem listedCompletely_iff (t : Table (historySchema slot)) (username : String) (limit : ℤ)
    (split : ℕ → ℕ → Split) :
    ListedCompletely t username limit split ↔
      ∀ r, (rowsOf username (pageGroup t limit r split none)).length ≤ effectiveLimit limit := by
  constructor
  · rintro ⟨fuel, cards, hfollow, hperm, -⟩
    exact (followCursors_perm_iff none hfollow).mp hperm
  · intro hgroups
    obtain ⟨fuel, cards, hfollow⟩ := followCursors_terminates t username limit split none
    have hperm := (followCursors_perm_iff none hfollow).mpr hgroups
    have hids := hperm.map Card.callId
    rw [List.map_map] at hids
    exact ⟨fuel, cards, hfollow, hperm, hids⟩

/-- Two calls of one user. -/
def twoCalls : Table (historySchema stringSlot) :=
  (Table.empty.put { bareRow "a" with startedAt := some 1, webUser := some "ana" }).put
    { bareRow "b" with startedAt := some 2, webUser := some "ana" }

/-- With the limit 1 and both calls on one page of the scan, only one of them is ever listed. -/
theorem twoCalls_oneListed : ¬ ListedCompletely twoCalls "ana" 1 fun _ _ => ⟨1, false⟩ := by
  rintro ⟨fuel, cards, hfollow, hperm, -⟩
  have hgroup := (followCursors_perm_iff none hfollow).mp hperm 0
  revert hgroup
  decide +kernel

end History
