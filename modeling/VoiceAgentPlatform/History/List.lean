import Mathlib.Data.List.Sort
import VoiceAgentPlatform.Ddb
import VoiceAgentPlatform.History.Row
import VoiceAgentPlatform.Http
import VoiceAgentPlatform.Lib.Base64
import VoiceAgentPlatform.Lib.JsonText

/-!
# Listing a user's calls

`GET /api/history` of `bot.py`: a request scans up to five pages of the history table, sorts the rows
of the user that it found, cuts them at the limit and returns the scan's own resume key as a cursor.

* `encodeCursor`, `decodeCursor`: the cursor; `decodeCursor_encodeCursor` is its round trip.
* `scanPage`: one page of a scan; how the table splits into pages is the table's choice.
* `scanLoop`, `listHistory`: a request.
* `followCursors`: a client that follows `next_cursor` until it is null.
-/

namespace History

open KeyedTable

/-- `_encode_cursor`, for the key of a row. -/
def encodeCursor (callId : String) : String :=
  String.ofList (Base64.encode (Json.dumps [("call_id", callId)]).toUTF8.data.toList)

/-- The detail of a response to a cursor that cannot be decoded. -/
def invalidCursor : HTTPException := { status := 400, detail := "invalid cursor" }

/-- `_decode_cursor`, of cursors of any size. -/
def decodeCursor (cursor : Option String) : Except HTTPException (Option PyVal) :=
  let text := cursor.getD ""
  if text = "" then .ok none
  -- A text that is not ASCII is refused before it is decoded.
  else if text.toList.any fun c => 128 ≤ c.toNat then .error invalidCursor
  else
    match Base64.decode text.toList with
    | none => .error invalidCursor
    | some bytes =>
      match String.fromUTF8? bytes.toByteArray with
      | none => .error invalidCursor
      | some payload =>
        match Json.value? Json.replacement payload with
        | none => .error invalidCursor
        | some key => .ok (some key)

/-- Reading the cursor that encodes a JSON text gives the value of the text. -/
theorem decodeCursor_of_value? {payload : String} {key : PyVal}
    (hvalue : Json.value? Json.replacement payload = some key) :
    decodeCursor (some (String.ofList (Base64.encode payload.toUTF8.data.toList))) =
      .ok (some key) := by
  have htext : (String.ofList (Base64.encode payload.toUTF8.data.toList)).toList =
      Base64.encode payload.toUTF8.data.toList := String.toList_ofList
  have hbytes : payload.toUTF8.data.toList.toByteArray = payload.toUTF8 := ByteArray.ext (by simp)
  have hutf8 := Json.fromUTF8?_toUTF8 payload
  have hne : String.ofList (Base64.encode payload.toUTF8.data.toList) ≠ "" := by
    -- The empty text holds no bytes, and no bytes are no JSON.
    intro h
    have hdecode := Base64.decode_encode payload.toUTF8.data.toList
    rw [← htext, h] at hdecode
    rw [← Option.some.inj hdecode] at hbytes
    rw [← hbytes, show String.fromUTF8? [].toByteArray = some "" from Json.fromUTF8?_toUTF8 ""] at hutf8
    obtain rfl := Option.some.inj hutf8
    cases hvalue
  have hascii : ¬ (Base64.encode payload.toUTF8.data.toList).any fun c => 128 ≤ c.toNat := by
    intro h
    obtain ⟨c, hc, hlarge⟩ := List.any_eq_true.mp h
    exact absurd (Base64.ascii_of_mem_encode hc) (by simpa using hlarge)
  simp only [decodeCursor, Option.getD_some, if_neg hne, htext, if_neg hascii,
    Base64.decode_encode, hbytes, hutf8, hvalue]

/-- Reading a cursor gives the key that was written. -/
theorem decodeCursor_encodeCursor (callId : String) :
    decodeCursor (some (encodeCursor callId)) = .ok (some (.dict [("call_id", .str callId)])) :=
  decodeCursor_of_value? (Json.value?_eq_some_iff.mpr
    (Json.read_dumps_singleton "call_id" callId (Json.hasRoom_none 1)))

/-- The parameters of a scan request's page, as the table chooses them: how many of the items it
evaluates, and whether it names a resume key although nothing is left. -/
structure Split where
  size : ℕ
  more : Bool

variable {slot : String ↪ ℕ}

/-- One page of a scan: a nonempty prefix of what is left, of at most `limit` items, and the key of
the last item evaluated. -/
def scanPage (t : Table (historySchema slot)) (limit : ℕ) (split : Split) (start : Option String) :
    List HistoryRow × Option String :=
  let rest := t.after start
  let page := rest.take (min (split.size + 1) limit)
  (page,
    if page.length < rest.length ∨ split.more then page.getLast?.map HistoryRow.callId else none)

/-- A row in the list: `_project_card`. -/
structure Card where
  callId : String
  caller : Option String
  startedAt : Option ℤ
  endedAt : Option ℤ
  durationS : Option ℤ
  turnCount : Option ℤ
  summaryStatus : Option String
  intent : Option PyVal

/-- `_project_card`, in native values. -/
def projectCard (row : HistoryRow) : Card :=
  { callId := row.callId
    caller := row.caller
    startedAt := row.startedAt
    endedAt := row.endedAt
    durationS := row.durationS
    turnCount := row.turnCount
    summaryStatus := row.summaryStatus
    intent :=
      -- The intent is read of a summary that is a map.
      match (row.summary.getD .none).orElse (.dict []) with
      | .dict summary =>
        if (PyDict.get summary "intent").truthy then
          some (Ddb.decimalToNative (PyDict.get summary "intent"))
        else none
      | _ => none }

/-- The response of `list_history`. -/
structure ListResponse where
  items : List Card
  nextCursor : Option String

/-- The `while` loop of `list_history`, of which `fuel` more pages can be read. -/
def scanLoop (t : Table (historySchema slot)) (username : String) (pageLimit target : ℕ)
    (split : ℕ → Split) :
    ℕ → ℕ → List HistoryRow → Option String → List HistoryRow × Option String
  | 0, _, aggregated, lastKey => (aggregated, lastKey)
  | fuel + 1, pages, aggregated, lastKey =>
    let (page, lastKey) := scanPage t pageLimit (split pages) lastKey
    -- The table is scanned for all users, and the rows of this one are kept.
    let aggregated := aggregated ++ page.filter fun row => row.webUser = some username
    let pages := pages + 1
    match lastKey with
    | none => (aggregated, none)
    | some key =>
      -- At least three pages, at most five.
      if 3 ≤ pages ∧ target ≤ aggregated.length then (aggregated, some key)
      else if 5 ≤ pages then (aggregated, some key)
      else scanLoop t username pageLimit target split fuel pages aggregated (some key)

/-- `ExclusiveStartKey`: the position that a decoded cursor names, which is ignored if it is false
and rejected by the table if it is not the key of a row. -/
def startKey (key : Option PyVal) : Except HTTPException (Option String) :=
  match key with
  | none => .ok none
  | some key =>
    if key.truthy then
      match key with
      -- The table takes a key of exactly its own attribute.
      | .dict [("call_id", .str callId)] => .ok (some callId)
      | _ => .error { status := 500, detail := "history backend unavailable" }
    else .ok none

/-- The limit that `list_history` applies. -/
def effectiveLimit (limit : ℤ) : ℕ := if limit ≤ 0 ∨ 200 < limit then 50 else limit.toNat

/-- `list_history`, with `history` the table unless history is disabled. -/
def listHistory (history : Option (Table (historySchema slot))) (split : ℕ → Split)
    (username : String) (limit : ℤ) (cursor : Option String) :
    Except HTTPException ListResponse := do
  let limit := effectiveLimit limit
  match history with
  | none => return ⟨[], none⟩
  | some t =>
    let start ← startKey (← decodeCursor cursor)
    let pageLimit := min (max (limit * 4) 50) 200
    let (aggregated, lastKey) := scanLoop t username pageLimit (limit * 4) split 5 0 [] start
    -- The rows are sorted and cut after the scan, so those that are cut are not on a later page.
    let sorted := aggregated.mergeSort fun x y => y.startedAt.getD 0 ≤ x.startedAt.getD 0
    return ⟨(sorted.take limit).map projectCard, lastKey.map encodeCursor⟩

/-- The cards a client gets by following the cursors, if the last cursor is reached within `fuel`
requests. Page `p` of request `r` is split by `split r p`. -/
def followCursors (history : Option (Table (historySchema slot))) (username : String) (limit : ℤ) :
    ℕ → (ℕ → ℕ → Split) → Option String → Option (List Card)
  | 0, _, _ => none
  | fuel + 1, split, cursor =>
    match listHistory history (split 0) username limit cursor with
    | .error _ => none
    | .ok response =>
      match response.nextCursor with
      | none => some response.items
      | some cursor =>
        (followCursors history username limit fuel (fun r => split (r + 1)) (some cursor)).map
          (response.items ++ ·)

end History
