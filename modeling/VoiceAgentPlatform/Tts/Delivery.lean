import VoiceAgentPlatform.Lib.Framing
import VoiceAgentPlatform.Tts.Events

/-!
# What the reader of a MiniMax stream loses

The reader holds back the last block of a stream, and takes every `data:` for the beginning of an
event, also inside a JSON string. It fails on an event that is too large for the parser.

* `Delivered`: the bodies of which nothing is lost.
* `runTts_eq_reference_iff`: on them the frames are those that the events call for, and on no others.
-/

namespace Tts

section

variable (str : PyVal → String) (service : Service) (contextId : String)

/-! ### Audio -/

/-- The slices of a payload are the payload. -/
theorem flatten_slices {size : ℕ} (hsize : 0 < size) (pcm : Bytes) : (slices size pcm).flatten = pcm :=
  Framing.flatten_slices hsize pcm

/-- How much audio the frames hold. -/
def pcmLength (frames : List Frame) : ℕ :=
  (frames.map fun frame => match frame with
    | .audio audio _ _ _ => audio.length
    | .error _ => 0).sum

theorem pcmLength_append (a b : List Frame) : pcmLength (a ++ b) = pcmLength a + pcmLength b := by
  simp [pcmLength]

theorem pcmLength_audioFrames (pcm : Bytes) :
    pcmLength (audioFrames service contextId pcm) = pcm.length := by
  have hsize : 0 < (if service.chunkSize = 0 then 960 else service.chunkSize) := by
    split_ifs with h
    · decide
    · exact Nat.pos_of_ne_zero h
  have hflatten := congrArg List.length (flatten_slices hsize pcm)
  rw [List.length_flatten] at hflatten
  rw [audioFrames, pcmLength, List.map_map, ← hflatten]
  rfl

/-- Audio is not empty. -/
theorem pcm_pos_of_eventOutcome {value : PyDict} {pcm : Bytes} (h : eventOutcome value = .audio pcm) :
    0 < pcm.length := by
  unfold eventOutcome at h
  split_ifs at h
  unfold audioOutcome at h
  split at h
  · split at h
    · obtain rfl := Outcome.audio.inj h
      exact Nat.succ_pos _
    · cases h
  · cases h

/-! ### What is delivered -/

variable [Json.Python]

/-- The event ends the stream with an error. -/
def SseEvent.Stops (event : SseEvent) : Prop := ∃ message, eventOutcome event.value = .error message

/-- The event calls for no frame. -/
def SseEvent.Silent (event : SseEvent) : Prop := eventOutcome event.value = .skip

/-- The frames of a body do not depend on where it is cut into chunks. -/
theorem readChunks_body {events : List SseEvent} {chunks : List Bytes}
    (hbody : chunks.flatten = body events) :
    readChunks str service contextId [] chunks =
      play str service contextId ((Marker.blocks marker (body events)).map processBlock) := by
  rw [readChunks_eq str service contextId [] chunks (by decide), List.nil_append, hbody]

/-- The bodies of which nothing is lost. Up to the first error, an event is read as it was written, or
it calls for no frame and the blocks that it is cut into do not either. -/
def Delivered : List SseEvent → Prop
  | [] => True
  | event :: events =>
    (event.Uncut ∧ events ≠ [] ∧ event.WithinLimits ∧ WellTyped event.value ∧
        (event.Stops ∨ Delivered events)) ∨
      (event.Silent ∧ (∀ block ∈ cutBlocks event events.isEmpty, processBlock block = .ok .skip) ∧
        Delivered events)

/-- Up to the first error, an event that is cut is no error, and its blocks are no audio and no error. -/
def Readable : List SseEvent → Prop
  | [] => True
  | event :: events =>
    (event.Uncut ∨ (¬ event.Stops ∧ ∀ block ∈ cutBlocks event events.isEmpty,
      processBlock block = .ok .skip ∨ ∃ e, processBlock block = .error e)) ∧
      (event.Stops ∨ Readable events)

/-- What the reader plays of a body. -/
def played (events : List SseEvent) : List Frame :=
  (play str service contextId ((Marker.blocks marker (body events)).map processBlock)).1

theorem played_nil : played str service contextId [] = [] := by
  rw [played, show body [] = [] from rfl, blocks_nil]
  rfl

theorem played_cons (event : SseEvent) (events : List SseEvent) :
    played str service contextId (event :: events) =
      if (play str service contextId ((cutBlocks event events.isEmpty).map processBlock)).2 then
        (play str service contextId ((cutBlocks event events.isEmpty).map processBlock)).1 ++
          played str service contextId events
      else (play str service contextId ((cutBlocks event events.isEmpty).map processBlock)).1 := by
  unfold played
  rw [blocks_body_cons, List.map_append, play_append]
  split_ifs with hmore
  · rfl
  · rfl

/-- Blocks that call for nothing. -/
theorem play_skips {blocks : List Bytes} (h : ∀ block ∈ blocks, processBlock block = .ok .skip) :
    play str service contextId (blocks.map processBlock) = ([], true) := by
  induction blocks with
  | nil => rfl
  | cons block blocks ih =>
    rw [List.map_cons, h block List.mem_cons_self, play]
    exact ih fun block hmem => h block (List.mem_cons_of_mem _ hmem)

/-- Blocks that call for nothing, as far as the reader does not fail. -/
theorem play_skips_or_fails {blocks : List Bytes}
    (h : ∀ block ∈ blocks, processBlock block = .ok .skip ∨ ∃ e, processBlock block = .error e) :
    (∀ block ∈ blocks, processBlock block = .ok .skip) ∨
      ∃ e, play str service contextId (blocks.map processBlock) = ([failureFrame e], false) := by
  induction blocks with
  | nil => exact Or.inl fun _ hmem => absurd hmem List.not_mem_nil
  | cons block blocks ih =>
    rcases h block List.mem_cons_self with hskip | ⟨e, he⟩
    · rcases ih fun block hmem => h block (List.mem_cons_of_mem _ hmem) with hskips | ⟨e, he⟩
      · exact Or.inl (List.forall_mem_cons.mpr ⟨hskip, hskips⟩)
      · refine Or.inr ⟨e, ?_⟩
        rw [List.map_cons, hskip, play]
        exact he
    · refine Or.inr ⟨e, ?_⟩
      rw [List.map_cons, he, play]

/-- An event that is read as it was written. -/
theorem map_processBlock_uncut {event : SseEvent} (huncut : event.Uncut) (hlimits : event.WithinLimits) :
    (cutBlocks event false).map processBlock = [handleData (.dict event.value)] := by
  rw [cutBlocks_of_uncut huncut, List.map_singleton, processBlock_event hlimits]

theorem reference_cons (event : SseEvent) (events : List SseEvent) :
    reference str service contextId (event :: events) =
      match eventOutcome event.value with
      | .skip => reference str service contextId events
      | .audio pcm => audioFrames service contextId pcm ++ reference str service contextId events
      | .error message => [errorFrame str message] := by
  unfold reference
  rw [List.map_cons]
  cases eventOutcome event.value with
  | skip => rfl
  | audio pcm => rfl
  | error message => rfl

theorem reference_of_silent {event : SseEvent} (h : event.Silent) (events : List SseEvent) :
    reference str service contextId (event :: events) = reference str service contextId events := by
  rw [reference_cons, show eventOutcome event.value = .skip from h]

/-- If nothing is lost, the frames are those that the events call for. -/
theorem played_of_delivered {events : List SseEvent} (h : Delivered events) :
    played str service contextId events = reference str service contextId events := by
  induction events with
  | nil => exact played_nil str service contextId
  | cons event events ih =>
    rw [played_cons]
    rcases h with ⟨huncut, hne, hlimits, htyped, hrest⟩ | ⟨hsilent, hskips, hrest⟩
    · -- The event is not cut, so its data is read.
      have hlast : events.isEmpty = false := by simpa using hne
      rw [hlast, map_processBlock_uncut huncut hlimits, handleData_of_wellTyped htyped, reference_cons]
      cases houtcome : eventOutcome event.value with
      | error message => rfl
      | skip =>
        have hdelivered := hrest.resolve_left fun ⟨message, hm⟩ => by rw [houtcome] at hm; cases hm
        exact ih hdelivered
      | audio pcm =>
        have hdelivered := hrest.resolve_left fun ⟨message, hm⟩ => by rw [houtcome] at hm; cases hm
        simp [play, ih hdelivered]
    · rw [play_skips str service contextId hskips, reference_of_silent str service contextId hsilent]
      exact ih hrest

/-! ### What is lost shows -/

/-- The frame of an exception is none of those that events call for. -/
theorem failureFrame_notMem_reference (e : String) (events : List SseEvent) :
    failureFrame e ∉ reference str service contextId events := by
  induction events with
  | nil => exact List.not_mem_nil
  | cons event events ih =>
    rw [reference_cons]
    cases eventOutcome event.value with
    | skip => exact ih
    | audio pcm =>
      rw [List.mem_append, not_or]
      refine ⟨fun hmem => ?_, ih⟩
      obtain ⟨audio, -, haudio⟩ := List.mem_map.mp hmem
      cases haudio
    | error message =>
      intro hmem
      have htext := Frame.error.inj (List.mem_singleton.mp hmem)
      -- the texts differ in the letter behind `MiniMax `
      have hletter := congrArg (fun text : String => text.toList[8]?) htext
      simp at hletter

/-- What the reader makes of the first event of a body: it fails, it passes the event over, or it does
what the event says. -/
theorem played_cases {event : SseEvent} {events : List SseEvent} (h : Readable (event :: events)) :
    (∃ e, played str service contextId (event :: events) = [failureFrame e]) ∨
      (played str service contextId (event :: events) = played str service contextId events ∧
        (∀ block ∈ cutBlocks event events.isEmpty, processBlock block = .ok .skip) ∧
        (event.Stops → events = [])) ∨
      (event.Uncut ∧ events ≠ [] ∧ event.WithinLimits ∧ WellTyped event.value ∧
        played str service contextId (event :: events) =
          match eventOutcome event.value with
          | .skip => played str service contextId events
          | .audio pcm => audioFrames service contextId pcm ++ played str service contextId events
          | .error message => [errorFrame str message]) := by
  have hplayed := played_cons str service contextId event events
  rcases h.1 with huncut | ⟨hstops, hquiet⟩
  · by_cases hne : events = []
    · -- the last event is held back
      subst hne
      have hblocks : cutBlocks event ([] : List SseEvent).isEmpty = [] := cutBlocks_last huncut
      rw [hblocks] at hplayed ⊢
      exact Or.inr (Or.inl ⟨hplayed, fun _ hmem => absurd hmem List.not_mem_nil, fun _ => rfl⟩)
    · have hlast : events.isEmpty = false := by simpa using hne
      rw [hlast] at hplayed
      -- An event that is too large and one with values of other types are failed on.
      by_cases hlimits : event.WithinLimits
      · rw [map_processBlock_uncut huncut hlimits] at hplayed
        by_cases htyped : WellTyped event.value
        · refine Or.inr (Or.inr ⟨huncut, hne, hlimits, htyped, ?_⟩)
          rw [hplayed, handleData_of_wellTyped htyped]
          cases eventOutcome event.value with
          | skip => rfl
          | audio pcm => simp [play]
          | error message => rfl
        · obtain ⟨e, he⟩ := handleData_of_not_wellTyped htyped
          rw [he] at hplayed
          exact Or.inl ⟨e, hplayed⟩
      · obtain ⟨e, he⟩ := processBlock_of_not_withinLimits hlimits
        rw [cutBlocks_of_uncut huncut, List.map_singleton, he] at hplayed
        exact Or.inl ⟨e, hplayed⟩
  · rcases play_skips_or_fails str service contextId hquiet with hskips | ⟨e, he⟩
    · rw [play_skips str service contextId hskips] at hplayed
      exact Or.inr (Or.inl ⟨hplayed, hskips, fun h => absurd h hstops⟩)
    · rw [he] at hplayed
      exact Or.inl ⟨e, hplayed⟩

theorem not_stops_of_eventOutcome {event : SseEvent} {outcome : Outcome}
    (h : eventOutcome event.value = outcome) (hne : ∀ message, outcome ≠ .error message) :
    ¬ event.Stops := by
  rintro ⟨message, hmessage⟩
  exact hne message (h.symm.trans hmessage)

/-- The reader never plays more audio than there is up to the first error. -/
theorem pcmLength_played_le {events : List SseEvent} (h : Readable events) :
    pcmLength (played str service contextId events) ≤
      pcmLength (reference str service contextId events) := by
  induction events with
  | nil =>
    rw [played_nil]
    exact Nat.zero_le _
  | cons event events ih =>
    rw [reference_cons]
    -- The reader fails, loses the event or reads it.
    rcases played_cases str service contextId h with
      ⟨e, hfails⟩ | ⟨hlost, -, hlast⟩ | ⟨-, -, -, -, hread⟩
    · rw [hfails]
      exact Nat.zero_le _
    · rw [hlost]
      cases houtcome : eventOutcome event.value with
      | skip => exact ih (h.2.resolve_left (not_stops_of_eventOutcome houtcome (by simp)))
      | audio pcm =>
        simp only [pcmLength_append]
        have := ih (h.2.resolve_left (not_stops_of_eventOutcome houtcome (by simp)))
        omega
      | error message =>
        rw [hlast ⟨message, houtcome⟩, played_nil]
        exact Nat.zero_le _
    · rw [hread]
      cases houtcome : eventOutcome event.value with
      | skip =>
        exact ih (h.2.resolve_left (not_stops_of_eventOutcome houtcome (by simp)))
      | audio pcm =>
        simp only [pcmLength_append]
        have := ih (h.2.resolve_left (not_stops_of_eventOutcome houtcome (by simp)))
        omega
      | error message => exact Nat.le_refl _

/-- If the frames are those that the events call for, nothing is lost. -/
theorem delivered_of_played {events : List SseEvent} (h : Readable events)
    (heq : played str service contextId events = reference str service contextId events) :
    Delivered events := by
  induction events with
  | nil => exact True.intro
  | cons event events ih =>
    rcases played_cases str service contextId h with
      ⟨e, hfails⟩ | ⟨hlost, hskips, hlast⟩ | ⟨huncut, hne, hlimits, htyped, hread⟩
    · refine absurd ?_ (failureFrame_notMem_reference str service contextId e (event :: events))
      rw [← heq, hfails]
      exact List.mem_singleton_self _
    · rw [hlost, reference_cons] at heq
      cases houtcome : eventOutcome event.value with
      | skip =>
        have hrest := h.2.resolve_left (not_stops_of_eventOutcome houtcome (by simp))
        rw [houtcome] at heq
        exact Or.inr ⟨houtcome, hskips, ih hrest heq⟩
      | audio pcm =>
        -- the audio of the event is missing, and nothing makes up for it
        have hrest := h.2.resolve_left (not_stops_of_eventOutcome houtcome (by simp))
        have hle := pcmLength_played_le str service contextId hrest
        have hpos := pcm_pos_of_eventOutcome houtcome
        rw [houtcome] at heq
        have hlength := congrArg pcmLength heq
        rw [pcmLength_append, pcmLength_audioFrames] at hlength
        omega
      | error message =>
        rw [hlast ⟨message, houtcome⟩, played_nil, houtcome] at heq
        cases heq
    · rw [hread, reference_cons] at heq
      refine Or.inl ⟨huncut, hne, hlimits, htyped, ?_⟩
      cases houtcome : eventOutcome event.value with
      | error message => exact Or.inl ⟨message, houtcome⟩
      | skip =>
        have hrest := h.2.resolve_left (not_stops_of_eventOutcome houtcome (by simp))
        rw [houtcome] at heq
        exact Or.inr (ih hrest heq)
      | audio pcm =>
        have hrest := h.2.resolve_left (not_stops_of_eventOutcome houtcome (by simp))
        rw [houtcome] at heq
        exact Or.inr (ih hrest (List.append_cancel_left heq))

/-- The reader gives the frames that the events of a body call for, wherever the body is cut into
chunks, if the body is one of which nothing is lost; and only then, if it is readable. -/
theorem runTts_reference (post : Request → Reply) (text : String) (events : List SseEvent)
    (chunks : List Bytes) (answer : Except String String)
    (hpost : post (request service text) = .response 200 answer chunks none)
    (hbody : chunks.flatten = body events) :
    (Delivered events →
      runTts str service contextId post text = reference str service contextId events) ∧
    (Readable events →
      (runTts str service contextId post text = reference str service contextId events ↔
        Delivered events)) := by
  -- How the body is cut into chunks does not matter.
  have hrun : runTts str service contextId post text = played str service contextId events := by
    unfold runTts
    simp only [hpost, ne_eq, not_true_eq_false, if_false]
    rw [readChunks_body str service contextId hbody]
    rfl
  rw [hrun]
  exact ⟨played_of_delivered str service contextId, fun hreadable =>
    ⟨delivered_of_played str service contextId hreadable, played_of_delivered str service contextId⟩⟩

end

/-! ### Samples -/

/-- A service for the samples. -/
def sampleService : Service where
  apiKey := "key"
  groupId := ""
  baseUrl := "https://api.minimax.chat/v1/t2a_v2?GroupId="
  model := .str "speech-02-turbo"
  voice := .str "Calm_Woman"
  speed := .float 1
  volume := .float 1
  pitch := .int 0
  emotion := .none
  languageBoost := .none
  audioBitrate := 128000
  audioFormat := "pcm"
  audioChannel := 1
  audioSampleRate := 24000
  sampleRate := 24000

/-- `str` of text. -/
def sampleStr : PyVal → String
  | .str s => s
  | _ => ""

/-- An event with two bytes of audio. -/
def audioEvent : @SseEvent Json.samplePython :=
  letI := Json.samplePython
  { text := "\x7b\"data\":\x7b\"audio\":\"00ff\"\x7d,\"base_resp\":\x7b\"status_code\":0\x7d\x7d\n\n"
    value := [("data", .dict [("audio", .str "00ff")]), ("base_resp", .dict [("status_code", .int 0)])]
    isObject := by decide +kernel }

/-- A summary. -/
def summaryEvent : @SseEvent Json.samplePython :=
  letI := Json.samplePython
  { text := "\x7b\"extra_info\":\x7b\x7d\x7d\n\n"
    value := [("extra_info", .dict [])]
    isObject := by decide +kernel }

/-- The answer to a key that is not valid. -/
def refusedEvent : @SseEvent Json.samplePython :=
  letI := Json.samplePython
  { text := "\x7b\"base_resp\":\x7b\"status_code\":1004,\"status_msg\":\"login fail\"\x7d\x7d\n\n"
    value := [("base_resp", .dict [("status_code", .int 1004), ("status_msg", .str "login fail")])]
    isObject := by decide +kernel }

/-- A body of which nothing is lost, cut within the first marker and within a JSON value. -/
theorem runTts_reference_sample :
    letI := Json.samplePython
    let events := [audioEvent, summaryEvent]
    let chunks := [(body events).take 3, ((body events).drop 3).take 20, (body events).drop 23]
    runTts sampleStr sampleService "context" (fun _ => .response 200 (.ok "") chunks none) "hello" =
      reference sampleStr sampleService "context" events := by
  let _ := Json.samplePython
  have hbody : [(body [audioEvent, summaryEvent]).take 3,
      ((body [audioEvent, summaryEvent]).drop 3).take 20,
      (body [audioEvent, summaryEvent]).drop 23].flatten = body [audioEvent, summaryEvent] := by
    decide +kernel
  refine (runTts_reference sampleStr sampleService "context" _ "hello" _ _ (.ok "") rfl hbody).1 ?_
  refine Or.inl ⟨show Marker.find marker audioEvent.bytes = none by decide +kernel,
    List.cons_ne_nil _ _, show Json.loads audioEvent.text = .ok (.dict audioEvent.value) by
      decide +kernel, ⟨?_, ?_, ?_⟩, Or.inr ?_⟩
  · exact fun _ => ⟨_, rfl⟩
  · exact fun _ _ => ⟨_, rfl⟩
  · exact fun _ _ => ⟨_, rfl⟩
  · refine Or.inr ⟨rfl, ?_, True.intro⟩
    have hblocks : cutBlocks summaryEvent true = [] :=
      cutBlocks_last (show Marker.find marker summaryEvent.bytes = none by decide +kernel)
    intro block hmem
    rw [show ([] : List SseEvent).isEmpty = true from rfl, hblocks] at hmem
    exact absurd hmem List.not_mem_nil

/-- The only event of a body is an error, and no frame reports it. -/
theorem refusedEvent_lost :
    letI := Json.samplePython
    let post : Request → Reply := fun _ => .response 200 (.ok "") [body [refusedEvent]] none
    runTts sampleStr sampleService "context" post "hello" = [] ∧
      reference sampleStr sampleService "context" [refusedEvent] =
        [.error "MiniMax error: login fail"] := by
  decide +kernel

end Tts
