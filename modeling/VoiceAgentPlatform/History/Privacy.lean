import VoiceAgentPlatform.History.HeadlessRows
import VoiceAgentPlatform.History.Pagination
import VoiceAgentPlatform.Users.Auth

/-!
# Whose calls a session reads

A call is attributed by the username of the ws-token that opened it, and `GET /api/history` and
`GET /api/history/{call_id}` compare that username with the session's. All guest sessions share the
username `guest`, which an account can have as well; and the cursor of the list is the key behind
the rows that the request has scanned, whoever they belong to.

* `Principal`: who opens calls and reads the history, and the username of its sessions.
* `CallLog`: the history table with the principal of each call.
* `Private`: what a session reads is its principal's.
* `private_iff`: this holds exactly when nobody else's call carries the username and all rows from
  the fifth of the table's scan on are the principal's.
-/

namespace History

open KeyedTable Users

variable {slot : String ↪ ℕ}

/-- Who opens calls: an account, or a session of a guest link. -/
inductive Principal where
  | account (username : String)
  | guest (link : ℕ)
  deriving DecidableEq

/-- The claims of the principal's session cookie. A guest link may choose a scenario. -/
def Principal.cookie (scenario : PyVal) : Principal → Claims
  | account username => { sub := some username, ws := false, guest := false, scenario := .none }
  | guest _ => { sub := some "guest", ws := false, guest := true, scenario }

/-- The username of the principal's sessions. -/
def Principal.username : Principal → String
  | account username => username
  | guest _ => "guest"

/-- The user that `require_user` finds behind a principal's cookie has the principal's username. -/
theorem username_requireUser {p : Principal} {scenario : PyVal} {t : UserTable slot}
    {user : SessionUser}
    (h : runAlone (requireUser (some (p.cookie scenario))) () t = .ok user) :
    user.username = p.username := by
  cases p with
  | guest link =>
    simp only [requireUser, Principal.cookie, Option.getD_some] at h
    rw [if_neg (by decide)] at h
    obtain rfl := Except.ok.inj h
    rfl
  | account username =>
    by_cases hname : username = ""
    · simp [requireUser, Principal.cookie, hname] at h
    · cases hrow : t.get? username with
      | none => simp [requireUser, Principal.cookie, Users.get, getRaw, hname, hrow] at h
      | some row =>
        have hkey : row.username = username := (Table.get?_eq_some_iff.mp hrow).2
        -- The user of the cookie is the one whose row is read.
        have hview : runAlone (if (safeView row).disabled = true then Async.Prog.raise notAuthenticated
            else Async.Prog.done { toUserView := safeView row, scenario := none }) () t =
              .ok user := by
          simpa [requireUser, Principal.cookie, Users.get, getRaw, hname, hrow] using h
        split_ifs at hview
        · cases hview
        · obtain rfl := Except.ok.inj hview
          exact hkey

/-- The `web_user` that the ws-token of a call stands for; a phone call has none. -/
def webUserOf : Option Principal → String
  | none => ""
  | some p => p.username

/-- The history table and who opened the call of each row: the rows with an outcome carry the
username of the call's principal. -/
structure CallLog (slot : String ↪ ℕ) where
  table : Table (historySchema slot)
  principal : String → Option Principal
  attributed : ∀ row ∈ table,
    row.webUser = none ∨ row.webUser = some (webUserOf (principal row.callId))

namespace CallLog

/-- The log before the first call. -/
def empty : CallLog slot := ⟨∅, fun _ => none, fun _ h => absurd h (Table.notMem_empty _)⟩

/-- Write the outcome row of a call that `principal` opened. -/
def outcome (log : CallLog slot) (callId : String) (principal : Option Principal) (ttlDays : ℤ)
    (now : ℚ) (callMeta : CallMeta) : CallLog slot where
  table := log.table.put (outcomeRow callId ttlDays now
    { callMeta with webUser := some (webUserOf principal) })
  principal id := if id = callId then principal else log.principal id
  attributed := by
    intro row hrow
    -- The row that is written names the principal that opened the call, the others are as they were.
    rcases Table.mem_put.mp hrow with rfl | ⟨hrow, hne⟩
    · right
      have hid : ∀ c, (outcomeRow callId ttlDays now c).callId = callId := fun _ => rfl
      rw [hid, if_pos rfl]
      simp only [outcomeRow, PyText.orDefault]
      split_ifs with hempty
      · rw [hempty]
      · rfl
    · rw [if_neg (show row.callId ≠ callId from hne)]
      exact log.attributed row hrow

/-- Update the row of a call with its turns or its summary. -/
def update (log : CallLog slot) (callId : String) (u : HistoryUpdate) : CallLog slot where
  table := log.table.upsert callId u
  principal := log.principal
  attributed := by
    intro row hrow
    rcases Table.mem_put.mp hrow with rfl | ⟨hrow, -⟩
    · -- No update sets the user.
      have hset (row : HistoryRow) : (u.set row).webUser = row.webUser := by cases u <;> rfl
      cases hget : log.table.get? callId with
      | none => exact Or.inl (hset _)
      | some row =>
        obtain ⟨hmem, hkey⟩ := Table.get?_eq_some_iff.mp hget
        have := log.attributed row hmem
        simpa [historySchema, hset] using this
    · exact log.attributed row hrow

end CallLog

/-- A row in native values: `_decimal_to_native(item)`. -/
def nativeRow (row : HistoryRow) : HistoryRow :=
  { row with
    turns := row.turns.map (List.map Ddb.decimalToNative)
    summary := row.summary.map Ddb.decimalToNative }

/-- The response 404 of `get_history_item`. -/
def notFound : HTTPException := { status := 404, detail := "not found" }

/-- `get_history_item`, with `history` the table unless history is disabled. -/
def getHistoryItem (history : Option (Table (historySchema slot))) (user : SessionUser)
    (callId : String) : Except HTTPException HistoryRow :=
  match history with
  | none => .error notFound
  | some t =>
    match t.get? callId with
    | none => .error notFound
    | some row =>
      -- Another user is told what a missing row is told.
      if user.role ≠ "admin" ∧ row.webUser ≠ some user.username then .error notFound
      else .ok (nativeRow row)

/-- A session of the principal that is not an administrator's. -/
structure IsSession (p : Principal) (user : SessionUser) : Prop where
  username : user.username = p.username
  role : user.role ≠ "admin"

/-- The rows of the calls that the principal opened. There is no log while history is disabled. -/
def Own (log : Option (CallLog slot)) (p : Principal) (row : HistoryRow) : Prop :=
  ∃ l ∈ log, row ∈ l.table ∧ l.principal row.callId = some p

/-- What the sessions of the principal read is of calls that it opened: every card, the key in every
cursor, and every row. -/
structure Private (log : Option (CallLog slot)) (p : Principal) : Prop where
  card : ∀ split user limit cursor response, IsSession p user →
    listHistory (log.map CallLog.table) split user.username limit cursor = .ok response →
      ∀ card ∈ response.items, ∃ row, Own log p row ∧ card = projectCard row
  cursor : ∀ split user limit cursor response, IsSession p user →
    listHistory (log.map CallLog.table) split user.username limit cursor = .ok response →
      ∀ next, response.nextCursor = some next → ∃ row, Own log p row ∧ next = encodeCursor row.callId
  item : ∀ user callId response, IsSession p user →
    getHistoryItem (log.map CallLog.table) user callId = .ok response →
      ∃ row, Own log p row ∧ response = nativeRow row

/-- Nobody else's call carries the principal's username, and the principal opened the calls of all
rows of the scan but the first four. -/
structure Unshared (log : CallLog slot) (p : Principal) : Prop where
  username : ∀ row ∈ log.table, row.webUser = some p.username → log.principal row.callId = some p
  behind : ∀ row ∈ log.table.items.drop 4, log.principal row.callId = some p

/-- A page that has a resume key ends with the row of that key. -/
theorem scanPage_key {t : Table (historySchema slot)} {limit : ℕ} {split : Split}
    {start : Option String} {page : List HistoryRow} {key : String}
    (h : scanPage t limit split start = (page, some key)) :
    ∃ row, page.getLast? = some row ∧ row.callId = key := by
  simp only [scanPage, Prod.mk.injEq] at h
  obtain ⟨rfl, hkey⟩ := h
  split_ifs at hkey
  exact Option.map_eq_some_iff.mp hkey

/-- The resume key of a loop is that of the last row it has scanned, and by then it has read all the
pages it may read or found as many rows of the user as the target. -/
theorem scanLoop_key (t : Table (historySchema slot)) (username : String) {pageLimit : ℕ}
    (hlimit : 0 < pageLimit) (target : ℕ) (split : ℕ → Split) (fuel pages : ℕ)
    (hpages : pages + (fuel + 1) = 5) (aggregated : List HistoryRow) (start : Option String)
    {key : String}
    (h : (scanLoop t username pageLimit target split (fuel + 1) pages aggregated start).2 =
      some key) :
    ∃ window row, t.after start = window ++ t.after (some key) ∧
      window.getLast? = some row ∧ row.callId = key ∧
        (fuel + 1 ≤ window.length ∨ target ≤ (aggregated ++ rowsOf username window).length) := by
  induction fuel generalizing pages aggregated start with
  | zero =>
    obtain ⟨hrest, hne⟩ := scanPage_spec t hlimit (split pages) start
    cases hpage : scanPage t pageLimit (split pages) start with
    | mk page last =>
    cases last with
    | none => simp [scanLoop, hpage] at h
    | some k =>
      rw [hpage] at hrest hne
      -- The fifth page is the last one, whatever it holds.
      have hk : k = key := by
        simp only [scanLoop, hpage] at h
        split_ifs at h <;> exact Option.some.inj h
      subst hk
      obtain ⟨row, hlast, hkey⟩ := scanPage_key hpage
      refine ⟨page, row, hrest, hlast, hkey, Or.inl ?_⟩
      exact List.length_pos_of_ne_nil (hne (Option.some_ne_none k))
  | succ fuel ih =>
    obtain ⟨hrest, hne⟩ := scanPage_spec t hlimit (split pages) start
    rw [scanLoop] at h
    cases hpage : scanPage t pageLimit (split pages) start with
    | mk page last =>
    rw [hpage] at hrest hne h
    cases last with
    | none => cases h
    | some k =>
      obtain ⟨row, hlast, hkey⟩ := scanPage_key hpage
      have hpos : 0 < page.length := List.length_pos_of_ne_nil (hne (Option.some_ne_none k))
      simp only at h
      split_ifs at h with htarget hfive
      · obtain rfl := Option.some.inj h
        exact ⟨page, row, hrest, hlast, hkey, Or.inr htarget.2⟩
      · omega
      · obtain ⟨window, row', hwindow, hlast', hkey', hread⟩ :=
          ih (pages + 1) (by omega) (aggregated ++ rowsOf username page) (some k) h
        refine ⟨page ++ window, row', ?_, ?_, hkey', ?_⟩
        · rw [List.append_assoc, ← hwindow]
          exact hrest
        · rw [List.getLast?_append, hlast', Option.some_or]
        · rw [rowsOf_append, ← List.append_assoc, List.length_append]
          exact hread.imp (fun hlength => by omega) id

/-- The last row of a stretch of the scan has the other rows of the stretch before it. -/
theorem mem_drop_of_getLast {items window rest : List HistoryRow} {row : HistoryRow} {n : ℕ}
    (hsuffix : window ++ rest <:+ items) (hlast : window.getLast? = some row)
    (hlength : n + 1 ≤ window.length) : row ∈ items.drop n := by
  obtain ⟨front, rfl⟩ := hsuffix
  obtain ⟨window, rfl⟩ := List.getLast?_eq_some_iff.mp hlast
  rw [List.length_append, List.length_singleton] at hlength
  have hdrop : n ≤ (front ++ window).length := by
    rw [List.length_append]
    omega
  rw [List.append_assoc, List.singleton_append, ← List.append_assoc,
    List.drop_append_of_le_length hdrop]
  exact List.mem_append_right _ List.mem_cons_self

/-- A request that is answered starts the loop at the position of its cursor. -/
theorem listHistory_ok {t : Table (historySchema slot)} {split : ℕ → Split} {username : String}
    {limit : ℤ} {cursor : Option String} {response : ListResponse}
    (h : listHistory (some t) split username limit cursor = .ok response) :
    ∃ start, response = ⟨cardsOf limit (request t username limit split start).1,
      (request t username limit split start).2.map encodeCursor⟩ := by
  rw [listHistory] at h
  cases hkey : decodeCursor cursor with
  | error e =>
    rw [hkey] at h
    cases h
  | ok key =>
    -- The cursor was read; what follows cannot fail.
    simp only [hkey, bind, Except.bind] at h
    cases hstart : startKey key with
    | error e =>
      rw [hstart] at h
      cases h
    | ok start =>
      rw [hstart] at h
      exact ⟨start, (Except.ok.inj h).symm⟩

section

variable {log : CallLog slot} {p : Principal}

/-- The rows that a request finds are the principal's, if nobody else's call carries the username. -/
theorem Unshared.own_of_mem_rowsOf (h : Unshared log p) {window rest : List HistoryRow}
    (hsuffix : window ++ rest <:+ log.table.items) {row : HistoryRow}
    (hrow : row ∈ rowsOf p.username window) : Own (some log) p row := by
  obtain ⟨hwindow, huser⟩ := List.mem_filter.mp hrow
  have hmem : row ∈ log.table := hsuffix.subset (List.mem_append_left _ hwindow)
  exact ⟨log, rfl, hmem, h.username row hmem (by simpa using huser)⟩

/-- Where all rows of a stretch are the user's, so is its last one. -/
theorem mem_rowsOf_of_getLast {username : String} {window : List HistoryRow} {row : HistoryRow}
    (hlast : window.getLast? = some row) (hall : window.length ≤ (rowsOf username window).length) :
    row ∈ rowsOf username window := by
  have hself : rowsOf username window = window :=
    List.filter_sublist.eq_of_length_le hall
  rw [hself]
  exact List.mem_of_getLast? hlast

/-- The resume key of a request is of a row of the principal: either four rows precede it, or all
rows up to it are the user's. -/
theorem Unshared.own_of_key (h : Unshared log p) {split : ℕ → Split} {limit : ℤ}
    {start : Option String} {key : String}
    (hkey : (request log.table p.username limit split start).2 = some key) :
    ∃ row, Own (some log) p row ∧ row.callId = key := by
  obtain ⟨window, row, hwindow, hlast, hid, hread⟩ :=
    scanLoop_key log.table p.username (pageLimit_pos limit) _ split 4 0 rfl [] start hkey
  have hsuffix := hwindow ▸ log.table.after_suffix start
  refine ⟨row, ?_, hid⟩
  by_cases hfive : 5 ≤ window.length
  · have hdrop := mem_drop_of_getLast hsuffix hlast hfive
    exact ⟨log, rfl, List.mem_of_mem_drop hdrop, h.behind row hdrop⟩
  · have htarget := hread.resolve_left hfive
    have hpos := effectiveLimit_pos limit
    rw [List.nil_append] at htarget
    exact h.own_of_mem_rowsOf hsuffix (mem_rowsOf_of_getLast hlast (by omega))

/-- While nobody else's call carries the username and the later rows are the principal's, its
sessions read nothing else. -/
theorem private_of_unshared (h : Unshared log p) : Private (some log) p where
  card split user limit cursor response hsession hlist card hcard := by
    rw [Option.map_some, hsession.username] at hlist
    obtain ⟨start, rfl⟩ := listHistory_ok hlist
    obtain ⟨window, hwindow, hrows, -⟩ := request_window log.table p.username limit split start
    have hmem := (cardsOf_subperm limit _).subset hcard
    obtain ⟨row, hrow, rfl⟩ := List.mem_map.mp hmem
    rw [hrows] at hrow
    exact ⟨row, h.own_of_mem_rowsOf (hwindow ▸ log.table.after_suffix start) hrow, rfl⟩
  cursor split user limit cursor response hsession hlist next hnext := by
    rw [Option.map_some, hsession.username] at hlist
    obtain ⟨start, rfl⟩ := listHistory_ok hlist
    obtain ⟨key, hkey, rfl⟩ := Option.map_eq_some_iff.mp hnext
    obtain ⟨row, hown, rfl⟩ := h.own_of_key hkey
    exact ⟨row, hown, rfl⟩
  item user callId response hsession hitem := by
    simp only [getHistoryItem, Option.map_some] at hitem
    cases hrow : log.table.get? callId with
    | none =>
      rw [hrow] at hitem
      cases hitem
    | some row =>
      rw [hrow] at hitem
      simp only at hitem
      split_ifs at hitem with hforbidden
      obtain rfl := Except.ok.inj hitem
      -- The row of another user is forbidden.
      have huser : row.webUser = some user.username := by
        by_contra hother
        exact hforbidden ⟨hsession.role, hother⟩
      rw [hsession.username] at huser
      obtain ⟨hmem, -⟩ := Table.get?_eq_some_iff.mp hrow
      exact ⟨row, ⟨log, rfl, hmem, h.username row hmem huser⟩, rfl⟩

/-- A session of the principal. -/
def Principal.session (p : Principal) : SessionUser :=
  { username := p.username, role := "user", createdAt := none, disabled := false, scenario := none }

theorem Principal.isSession_session (p : Principal) : IsSession p p.session :=
  ⟨rfl, show ("user" : String) ≠ "admin" by decide⟩

/-- A page of one row. -/
def oneRow : Split := ⟨0, true⟩

theorem scanPage_oneRow {t : Table (historySchema slot)} {limit : ℕ} (hlimit : 0 < limit)
    {start : Option String} {row : HistoryRow} {rest : List HistoryRow}
    (h : t.after start = row :: rest) :
    scanPage t limit oneRow start = ([row], some row.callId) ∧
      t.after (some row.callId) = rest := by
  have hmin : min (0 + 1) limit = 1 := by omega
  refine ⟨by simp [scanPage, oneRow, h, hmin], ?_⟩
  exact @Table.after_getLast _ _ _ _ _ _ [row] _ _ h rfl

/-- A loop that gets one row a page and stays below its target ends at the last row of the pages it
may read. -/
theorem scanLoop_oneRow (t : Table (historySchema slot)) (username : String) {pageLimit : ℕ}
    (hlimit : 0 < pageLimit) {target : ℕ} (fuel pages : ℕ) (hpages : pages + (fuel + 1) = 5)
    {aggregated : List HistoryRow} (htarget : aggregated.length + (fuel + 1) < target)
    {start : Option String} {window rest : List HistoryRow} {row : HistoryRow}
    (hwindow : window.length = fuel) (h : t.after start = window ++ row :: rest) :
    (scanLoop t username pageLimit target (fun _ => oneRow) (fuel + 1) pages aggregated start).2 =
      some row.callId := by
  induction fuel generalizing pages aggregated start window with
  | zero =>
    obtain rfl := List.length_eq_zero_iff.mp hwindow
    obtain ⟨hpage, -⟩ := scanPage_oneRow hlimit h
    simp only [scanLoop, hpage]
    split_ifs <;> rfl
  | succ fuel ih =>
    cases window with
    | nil => cases hwindow
    | cons first window =>
      obtain ⟨hpage, hafter⟩ := scanPage_oneRow hlimit h
      -- Pages of one row do not fill the target.
      have hlength : (aggregated ++ rowsOf username [first]).length + (fuel + 1) < target := by
        have := List.length_filter_le (fun row : HistoryRow => row.webUser = some username) [first]
        rw [List.length_append, rowsOf]
        rw [List.length_singleton] at this
        omega
      rw [scanLoop, hpage]
      simp only
      rw [if_neg, if_neg (by omega)]
      · exact ih (pages + 1) (by omega) hlength (by simpa using hwindow) hafter
      · rintro ⟨-, hreached⟩
        rw [rowsOf] at hlength
        omega

/-- Different rows have different cursors. -/
theorem encodeCursor_injective : Function.Injective encodeCursor := by
  intro callId callId' h
  have hkey := decodeCursor_encodeCursor callId
  rw [h, decodeCursor_encodeCursor] at hkey
  simpa using hkey.symm

/-- Some request ends its pages at any row that has four rows before it, and its cursor names that
row. -/
theorem exists_request_at {t : Table (historySchema slot)} {username : String} {row : HistoryRow}
    (hrow : row ∈ t.items.drop 4) :
    ∃ cursor response, listHistory (some t) (fun _ => oneRow) username 200 cursor = .ok response ∧
      response.nextCursor = some (encodeCursor row.callId) := by
  obtain ⟨before, rest, hdrop⟩ := List.append_of_mem hrow
  -- The four rows before it are the first four pages, and the cursor is the key before those.
  obtain ⟨front, window, hitems, hwindow⟩ : ∃ front window,
      t.items = front ++ (window ++ row :: rest) ∧ window.length = 4 := by
    have hsplit : t.items = (t.items.take 4 ++ before) ++ row :: rest := by
      rw [List.append_assoc, ← hdrop, List.take_append_drop]
    have hfour : 4 ≤ (t.items.take 4 ++ before).length := by
      have hpos := List.length_pos_of_mem hrow
      rw [List.length_drop] at hpos
      rw [List.length_append, List.length_take]
      omega
    refine ⟨(t.items.take 4 ++ before).take ((t.items.take 4 ++ before).length - 4),
      (t.items.take 4 ++ before).drop ((t.items.take 4 ++ before).length - 4), ?_, ?_⟩
    · rw [← List.append_assoc, List.take_append_drop]
      exact hsplit
    · rw [List.length_drop]
      omega
  obtain ⟨start, hstart⟩ : ∃ start, t.after start = window ++ row :: rest := by
    cases hlast : front.getLast? with
    | none =>
      obtain rfl := List.getLast?_eq_none_iff.mp hlast
      exact ⟨none, hitems⟩
    | some last => exact ⟨some last.callId, @Table.after_getLast _ _ _ _ _ none _ _ _ hitems hlast⟩
  refine ⟨start.map encodeCursor, _, listHistory_cursor t _ username 200 start, ?_⟩
  rw [Option.map_eq_some_iff]
  refine ⟨row.callId, ?_, rfl⟩
  exact scanLoop_oneRow t username (pageLimit_pos 200) 4 0 rfl (by decide) hwindow hstart

/-- Where the sessions of the principal read nothing else, nobody else's call carries the username
and the later rows are the principal's. -/
theorem unshared_of_private (h : Private (some log) p) : Unshared log p where
  username row hrow huser := by
    have hget : log.table.get? row.callId = some row := Table.get?_eq_some_iff.mpr ⟨hrow, rfl⟩
    -- The session of the user can read the row, so it is its own.
    have hitem : getHistoryItem (some log.table) p.session row.callId = .ok (nativeRow row) := by
      simp only [getHistoryItem, hget]
      rw [if_neg (fun hother => hother.2 huser)]
    obtain ⟨row', ⟨l, hl, hmem, hown⟩, hnative⟩ := h.item _ _ _ p.isSession_session hitem
    obtain rfl := Option.some.inj hl
    have hid : (nativeRow row).callId = (nativeRow row').callId := by rw [hnative]
    rw [show row.callId = row'.callId from hid]
    exact hown
  behind row hrow := by
    -- Some request stops at the row, and tells its id in the cursor.
    obtain ⟨cursor, response, hlist, hnext⟩ := @exists_request_at _ _ p.username _ hrow
    obtain ⟨row', ⟨l, hl, hmem, hown⟩, hcursor⟩ :=
      h.cursor _ p.session _ _ _ p.isSession_session hlist _ hnext
    obtain rfl := Option.some.inj hl
    rw [encodeCursor_injective hcursor]
    exact hown

end

/-- The history is private to a principal exactly when history is disabled, or nobody else's call
carries the username and all rows of the scan but the first four are the principal's. -/
theorem private_iff (log : Option (CallLog slot)) (p : Principal) :
    Private log p ↔ ∀ l ∈ log, Unshared l p := by
  cases log with
  | none =>
    -- Without a table there is nothing to see.
    refine iff_of_true ⟨?_, ?_, ?_⟩ (by simp)
    · intro split user limit cursor response _ hlist
      obtain rfl := Except.ok.inj hlist
      exact fun card hcard => absurd hcard List.not_mem_nil
    · intro split user limit cursor response _ hlist
      obtain rfl := Except.ok.inj hlist
      exact nofun
    · exact fun _ _ _ _ => nofun
  | some log =>
    constructor
    · rintro h l hl
      obtain rfl := Option.some.inj hl
      exact unshared_of_private h
    · exact fun h => private_of_unshared (h log rfl)

/-- A call over a guest link. -/
def guestCall : CallLog stringSlot :=
  CallLog.empty.outcome "web-1" (some (.guest 0)) 90 0 (attach sampleMeta 0 0).callMeta

/-- An account with the name of the guests can be created, and it reads the guests' calls. -/
theorem guestCall_readByAccount :
    runAlone (create sampleBcrypt "guest" (.str "pw") (.str "user") "s:" 0) ()
        (∅ : UserTable stringSlot) =
      .ok { username := "guest", role := "user", createdAt := some 0, disabled := false } ∧
    ¬ Private (some guestCall) (.account "guest") := by
  refine ⟨rfl, fun h => ?_⟩
  obtain ⟨row, ⟨l, hl, hmem, hown⟩, -⟩ := h.item _ "web-1" _ (Principal.isSession_session _) rfl
  obtain rfl := Option.some.inj hl
  have hguest : guestCall.principal row.callId ≠ some (.account "guest") := by
    show (if row.callId = "web-1" then some (Principal.guest 0) else none) ≠ _
    split_ifs <;> simp
  exact hguest hown

end History
