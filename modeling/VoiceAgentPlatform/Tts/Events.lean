import VoiceAgentPlatform.Tts.MiniMax

/-!
# The events of a MiniMax stream

What the reader of a stream should do, event by event, and when it does so.

* `eventOutcome`: what the JSON object of an event says; `handleData_of_wellTyped` and
  `handleData_of_not_wellTyped` compare the code with it.
* `play`: the frames of a list of outcomes, up to the first that ends the stream.
* `readChunks_eq`: the reader plays the complete blocks of the stream, wherever it is cut into chunks.
* `body`, `reference`: a body of events, and the frames that they call for.
-/

namespace Tts

/-! ### What an event says -/

/-- An entry of an object, or the default if there is none. -/
def entry (value : PyVal) (key : String) (default : PyVal) : PyVal :=
  match value with
  | .dict d => (PyDict.get? d key).getD default
  | _ => default

/-- The status code of an event; an event without one has code zero. -/
def statusCode (value : PyDict) : PyVal := entry (PyDict.get value "base_resp") "status_code" (.int 0)

/-- The message that goes with a status code, or the whole event. -/
def statusMessage (value : PyDict) : PyVal :=
  entry (PyDict.get value "base_resp") "status_msg" (.dict value)

/-- What the audio of an event says: text in hexadecimal that stands for at least one byte. -/
def audioOutcome (audio : PyVal) : Outcome :=
  match audio with
  | .str s =>
    match hexBytes? s.toList with
    | some (b :: bs) => .audio (b :: bs)
    | _ => .skip
  | _ => .skip

/-- What an event says: a status code other than zero is an error, a summary and an event without
valid audio are skipped. -/
def eventOutcome (value : PyDict) : Outcome :=
  if notZero (statusCode value) then .error (statusMessage value)
  else if (PyDict.get? value "extra_info").isSome then .skip
  else audioOutcome (entry (PyDict.get value "data") "audio" .none)

/-- A value of which the code takes entries: an object, or something that counts as none. -/
def ObjectLike (value : PyVal) : Prop := value.truthy = true → ∃ d, value = .dict d

/-- Of an event that is neither an error nor a summary, the audio is looked at. -/
def LooksAtAudio (value : PyDict) : Prop :=
  notZero (statusCode value) = false ∧ PyDict.get? value "extra_info" = none

/-- The values of an event that the code looks at have the types that it expects. -/
structure WellTyped (value : PyDict) : Prop where
  base : ObjectLike (PyDict.get value "base_resp")
  data : LooksAtAudio value → ObjectLike (PyDict.get value "data")
  audio : LooksAtAudio value → (entry (PyDict.get value "data") "audio" .none).truthy = true →
    ∃ s, entry (PyDict.get value "data") "audio" .none = .str s

theorem getKey_of_objectLike {value : PyVal} (h : ObjectLike value) (key : String) (default : PyVal) :
    getKey (value.orElse (.dict [])) key default = .ok (entry value key default) := by
  unfold PyVal.orElse
  split_ifs with htruthy
  · obtain ⟨d, rfl⟩ := h htruthy
    rfl
  · -- only the empty dictionary counts as none
    cases value with
    | dict d =>
      cases d with
      | nil => rfl
      | cons e d => exact absurd rfl htruthy
    | _ => rfl

theorem getKey_of_not_objectLike {value : PyVal} (h : ¬ ObjectLike value) (key : String)
    (default : PyVal) : ∃ e, getKey (value.orElse (.dict [])) key default = .error e := by
  obtain ⟨htruthy, hdict⟩ := Classical.not_imp.mp h
  rw [PyVal.orElse, if_pos htruthy]
  cases value with
  | dict d => exact absurd ⟨d, rfl⟩ hdict
  | _ => exact ⟨_, rfl⟩

theorem objectLike_dict (d : PyDict) : ObjectLike (.dict d) := fun _ => ⟨d, rfl⟩

theorem handleAudio_of_str {audio : PyVal} (h : audio.truthy = true → ∃ s, audio = .str s) :
    handleAudio audio = .ok (audioOutcome audio) := by
  unfold handleAudio PyVal.orElse
  by_cases htruthy : audio.truthy = true
  · obtain ⟨s, rfl⟩ := h htruthy
    simp only [htruthy, if_true, Bool.not_true, Bool.false_eq_true, if_false, fromHex, audioOutcome]
    rcases hexBytes? s.toList with _ | _ | ⟨b, bs⟩ <;> rfl
  · rw [if_neg htruthy]
    cases audio with
    | str s =>
      obtain rfl : s = "" := by simpa [PyVal.truthy] using htruthy
      rfl
    | _ => rfl

theorem handleAudio_of_not_str {audio : PyVal} (htruthy : audio.truthy = true)
    (h : ∀ s, audio ≠ .str s) : ∃ e, handleAudio audio = .error e := by
  unfold handleAudio PyVal.orElse
  simp only [htruthy, if_true, Bool.not_true, Bool.false_eq_true, if_false]
  cases audio with
  | str s => exact absurd rfl (h s)
  | _ => exact ⟨_, rfl⟩

/-- What the code makes of an object, entry by entry. -/
theorem handleData_dict (value : PyDict) :
    handleData (.dict value) = (do
      let base := (PyDict.get value "base_resp").orElse (.dict [])
      if notZero (← getKey base "status_code" (.int 0)) then
        return .error (← getKey base "status_msg" (.dict value))
      if (PyDict.get? value "extra_info").isSome then
        return .skip
      handleAudio (← getKey ((PyDict.get value "data").orElse (.dict [])) "audio" .none)) := by
  unfold handleData
  rw [getKey_of_objectLike (objectLike_dict value), getKey_of_objectLike (objectLike_dict value)]
  rfl

/-- Of an event whose values have the expected types, the code does what the event says. -/
theorem handleData_of_wellTyped {value : PyDict} (h : WellTyped value) :
    handleData (.dict value) = .ok (eventOutcome value) := by
  rw [handleData_dict, eventOutcome]
  simp only [getKey_of_objectLike h.base]
  change (if notZero (statusCode value) = true then _ else _) = _
  split_ifs with hcode hsummary
  · rfl
  · rfl
  · have hlooks : LooksAtAudio value := ⟨by simpa using hcode, by simpa using hsummary⟩
    rw [getKey_of_objectLike (h.data hlooks)]
    exact handleAudio_of_str (h.audio hlooks)

/-- Of any other event, the code fails. -/
theorem handleData_of_not_wellTyped {value : PyDict} (h : ¬ WellTyped value) :
    ∃ e, handleData (.dict value) = .error e := by
  rw [handleData_dict]
  by_cases hbase : ObjectLike (PyDict.get value "base_resp")
  · simp only [getKey_of_objectLike hbase]
    change ∃ e, (if notZero (statusCode value) = true then _ else _) = _
    split_ifs with hcode hsummary
    · refine absurd ⟨hbase, fun hlooks => ?_, fun hlooks => ?_⟩ h
      · exact absurd hcode (by rw [hlooks.1]; exact Bool.false_ne_true)
      · exact absurd hcode (by rw [hlooks.1]; exact Bool.false_ne_true)
    · refine absurd ⟨hbase, fun hlooks => ?_, fun hlooks => ?_⟩ h
      · exact absurd hsummary (by rw [hlooks.2]; exact Bool.false_ne_true)
      · exact absurd hsummary (by rw [hlooks.2]; exact Bool.false_ne_true)
    · by_cases hdata : ObjectLike (PyDict.get value "data")
      · rw [getKey_of_objectLike hdata]
        -- What is left is audio that is not a string.
        by_contra hnone
        refine h ⟨hbase, fun _ => hdata, fun _ htruthy => ?_⟩
        by_contra hstr
        exact hnone (handleAudio_of_not_str htruthy (not_exists.mp hstr))
      · obtain ⟨e, he⟩ := getKey_of_not_objectLike hdata "audio" .none
        rw [he]
        exact ⟨e, rfl⟩
  · obtain ⟨e, he⟩ := getKey_of_not_objectLike hbase "status_code" (.int 0)
    simp only [he]
    exact ⟨e, rfl⟩

/-! ### The reader plays the complete blocks -/

theorem marker_ne_nil : marker ≠ [] := List.cons_ne_nil _ _

theorem blocks_nil : Marker.blocks marker ([] : Bytes) = [] := by decide

theorem marker_unbordered : Marker.Unbordered marker := by
  have h : ∀ k < 5, 0 < k → ¬ marker.drop k <+: marker := by decide
  exact fun k hpos hlt => h k hlt hpos

section

variable (str : PyVal → String) (service : Service) (contextId : String)

/-- The frames of a list of outcomes up to the first that ends the stream, and whether none does. -/
def play : List (Except String Outcome) → List Frame × Bool
  | [] => ([], true)
  | .error e :: _ => ([failureFrame e], false)
  | .ok .skip :: outcomes => play outcomes
  | .ok (.error message) :: _ => ([errorFrame str message], false)
  | .ok (.audio pcm) :: outcomes =>
    let later := play outcomes
    (audioFrames service contextId pcm ++ later.1, later.2)

theorem play_append (a b : List (Except String Outcome)) :
    play str service contextId (a ++ b) =
      if (play str service contextId a).2 then
        ((play str service contextId a).1 ++ (play str service contextId b).1,
          (play str service contextId b).2)
      else play str service contextId a := by
  induction a with
  | nil => rfl
  | cons outcome a ih =>
    rcases outcome with e | _ | pcm | message
    · rfl
    · exact ih
    · rw [List.cons_append, play, play]
      simp only [ih]
      split_ifs with hmore
      · rw [List.append_assoc]
      · rfl
    · rfl

variable [Json.Python]

/-- The walk over a buffer plays the complete blocks of it. -/
theorem walkBuffer_eq (fuel : ℕ) (buffer : Bytes) :
    walkBuffer str service contextId fuel buffer =
      ((play str service contextId ((Marker.walk marker fuel buffer).1.map processBlock)).1,
        if (play str service contextId ((Marker.walk marker fuel buffer).1.map processBlock)).2
        then some (Marker.walk marker fuel buffer).2 else none) := by
  induction fuel generalizing buffer with
  | zero => rfl
  | succ fuel ih =>
    rw [walkBuffer, Marker.walk, Marker.nextBlock, Marker.held]
    cases hstart : Marker.find marker buffer with
    | none => rfl
    | some start =>
      simp only [show marker.length = 5 from rfl]
      cases hnext : Marker.find marker (buffer.drop (start + 5)) with
      | none => rfl
      | some n =>
        simp only [List.map_cons]
        -- A block that raises or has an error ends the walk.
        rcases processBlock ((buffer.drop start).take (5 + n)) with e | _ | pcm | message
        · rfl
        · rw [ih, play]
        · rw [ih, play]
        · rfl

/-- The reader plays the complete blocks of what it holds and of what is still to come. -/
theorem readChunks_eq (buffer : Bytes) (chunks : List Bytes)
    (hbuffer : Marker.nextBlock marker buffer = none) :
    readChunks str service contextId buffer chunks =
      play str service contextId
        ((Marker.blocks marker (buffer ++ chunks.flatten)).map processBlock) := by
  induction chunks generalizing buffer with
  | nil =>
    rw [List.flatten_nil, List.append_nil, Marker.blocks_of_nextBlock_eq_none hbuffer]
    rfl
  | cons raw chunks ih =>
    rw [readChunks, List.flatten_cons]
    split_ifs with hraw
    · rw [hraw, List.nil_append]
      exact ih buffer hbuffer
    · -- The length of the buffer is enough fuel for it.
      have hfuel : (buffer ++ raw).length < (buffer ++ raw).length + 1 := Nat.lt_succ_self _
      rw [← List.append_assoc, Marker.blocks_append marker_ne_nil _ _ hfuel, List.map_append, play_append,
        walkBuffer_eq]
      have hrest := ih _ (Marker.nextBlock_walk marker_ne_nil hfuel)
      split_ifs with hmore
      · simp only [hrest]
      · simp only [Prod.ext_iff, true_and]
        simpa using hmore

/-! ### A body of events -/

/-- An event of a stream: a JSON text, white space included, that is an object, whatever its size. -/
structure SseEvent where
  text : String
  value : PyDict
  isObject : Json.value? Json.Python.standIn text = some (.dict value)

/-- No limit of the parser is hit by the text of an event. -/
def SseEvent.WithinLimits (event : SseEvent) : Prop := Json.loads event.text = .ok (.dict event.value)

/-- The bytes of the JSON text. -/
def SseEvent.bytes (event : SseEvent) : Bytes := event.text.toUTF8.data.toList

/-- The body of a response: every event behind its `data:`. -/
def body (events : List SseEvent) : Bytes := events.flatMap fun event => marker ++ event.bytes

/-- The frames that the events call for, one after the other. -/
def reference (events : List SseEvent) : List Frame :=
  (play str service contextId (events.map fun event => .ok (eventOutcome event.value))).1

/-- The blocks that the reader finds in an event, which depend on whether another one follows. -/
def cutBlocks (event : SseEvent) (last : Bool) : List Bytes :=
  Marker.blocks marker (marker ++ (event.bytes ++ if last then [] else marker))

/-- The text of an event does not contain the marker. -/
def SseEvent.Uncut (event : SseEvent) : Prop := Marker.find marker event.bytes = none

/-- The text of an event is what the reader looks at. -/
theorem fromUTF8?_event (event : SseEvent) :
    String.fromUTF8? ((marker ++ event.bytes).drop 5).toByteArray = some event.text := by
  have hdrop : (marker ++ event.bytes).drop 5 = event.bytes := List.drop_left' rfl
  have hbytes : event.bytes.toByteArray = event.text.toUTF8 := ByteArray.ext (by simp [SseEvent.bytes])
  rw [hdrop, hbytes, Json.fromUTF8?_toUTF8]

/-- An event within the limits of the parser. -/
theorem processBlock_event {event : SseEvent} (h : event.WithinLimits) :
    processBlock (marker ++ event.bytes) = handleData (.dict event.value) := by
  unfold processBlock
  simp only [fromUTF8?_event, show Json.loads event.text = .ok (.dict event.value) from h]

/-- The code fails on any other event. -/
theorem processBlock_of_not_withinLimits {event : SseEvent} (h : ¬ event.WithinLimits) :
    ∃ e, processBlock (marker ++ event.bytes) = .error e := by
  unfold processBlock
  simp only [fromUTF8?_event]
  rcases Json.loads_cutOff event.text with hloads | ⟨e, hloads, he⟩
  · exact absurd (hloads.trans (Json.value?_eq_some_iff.mp event.isObject)) h
  · rw [hloads]
    cases e with
    | decode => exact absurd rfl he
    | digits n => exact ⟨_, rfl⟩
    | recursion what => exact ⟨_, rfl⟩

/-- The blocks of a body are those of its first event and those of the others. -/
theorem blocks_body_cons (event : SseEvent) (events : List SseEvent) :
    Marker.blocks marker (body (event :: events)) =
      cutBlocks event events.isEmpty ++ Marker.blocks marker (body events) := by
  cases events with
  | nil => simp [body, cutBlocks, blocks_nil]
  | cons next events =>
    have hbody : body (event :: next :: events) =
        marker ++ (event.bytes ++ (marker ++ (next.bytes ++ body events))) := by
      simp [body]
    have hrest : body (next :: events) = marker ++ (next.bytes ++ body events) := by
      simp [body]
    rw [hbody, hrest, Marker.blocks_marker_append marker_ne_nil marker_unbordered]
    rfl

/-- An event without the marker in it is one block, once another one follows. -/
theorem cutBlocks_of_uncut {event : SseEvent} (h : event.Uncut) :
    cutBlocks event false = [marker ++ event.bytes] := by
  have hblock := Marker.nextBlock_of_notFound marker_unbordered h []
  rw [List.append_nil] at hblock
  unfold cutBlocks
  have hnone : Marker.blocks marker marker = [] := by decide
  rw [if_neg Bool.false_ne_true, Marker.blocks_of_nextBlock marker_ne_nil hblock, hnone]

/-- The last event is not read at all. -/
theorem cutBlocks_last {event : SseEvent} (h : event.Uncut) : cutBlocks event true = [] := by
  unfold cutBlocks
  rw [if_pos rfl, List.append_nil]
  exact Marker.blocks_of_nextBlock_eq_none (Marker.nextBlock_last h)

end

end Tts
