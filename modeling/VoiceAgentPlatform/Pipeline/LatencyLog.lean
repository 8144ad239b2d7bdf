import VoiceAgentPlatform.Lib.JsonLines
import VoiceAgentPlatform.Lib.Trimming
import VoiceAgentPlatform.Pipeline.LatencyObserver

/-!
# The latency log

`latency_log.py` appends each record as a line of JSON, and `scripts/latency_report.py` reads the lines
back.

* `LatencyRecord.line`: the text of a record; `resolvePath`, `write`: the log after a record.
* `parseJsonl`: the records of a log.
* `parseJsonl_writes`: whatever calls write to a log, the report reads the records that they wrote.
-/

namespace Pipeline

open Json (Member)

/-! ### Writing -/

/-- A field that may be missing. -/
def optionalMember (key : String) : Option (String ⊕ ℤ) → Member
  | none => Json.nullMember key
  | some leaf => Json.leafMember (key, leaf)

/-- The field `tokens`. -/
def tokensMember : Option (ℕ × ℕ × ℕ) → Member
  | none => Json.nullMember "tokens"
  | some (prompt, completion, total) =>
    Json.objectMember "tokens"
      [Json.leafMember ("prompt", .inr prompt), Json.leafMember ("completion", .inr completion),
        Json.leafMember ("total", .inr total)]

/-- The fields of `_build_record`, of a turn that was recorded at a date. -/
def LatencyRecord.members (date : String) (r : LatencyRecord) : List Member :=
  [optionalMember "ts" (some (.inl date)),
    optionalMember "call_id" (r.context.callId.map .inl),
    optionalMember "turn_id" (some (.inr r.turnId)),
    optionalMember "engine" (r.context.engine.map .inl),
    optionalMember "scenario" (r.context.scenario.map .inl),
    optionalMember "lang" (r.context.lang.map .inl),
    optionalMember "e2e_ms" (r.e2eMs.map .inr),
    optionalMember "stt_ms" (r.sttMs.map .inr),
    optionalMember "llm_ttft_ms" (r.llmTtftMs.map .inr),
    optionalMember "llm_total_ms" (r.llmTotalMs.map .inr),
    optionalMember "tts_ttfb_ms" (r.ttsTtfbMs.map .inr),
    optionalMember "svc_llm_ttfb_ms" (r.svc.llmTtfbMs.map .inr),
    optionalMember "svc_tts_ttfb_ms" (r.svc.ttsTtfbMs.map .inr),
    tokensMember r.svc.tokens,
    optionalMember "tts_chars" (r.svc.ttsChars.map fun n => .inr n)]

/-- The record as a dictionary. -/
def LatencyRecord.dict (date : String) (r : LatencyRecord) : PyDict := Json.objectValue (r.members date)

/-- `json.dumps(record, ensure_ascii=False)`. -/
def LatencyRecord.line (date : String) (r : LatencyRecord) : List Char := Json.objectText (r.members date)

/-- `DEFAULT_LATENCY_LOG_PATH`. -/
def defaultLatencyLogPath : String := "/var/log/voicebot-latency.jsonl"

/-- `_resolve_path`, of the environment variable; none if writing is disabled. -/
def resolvePath (raw : Option String) : Option String :=
  match raw with
  | none => some defaultLatencyLogPath
  | some raw => if PyText.strip raw = "" then none else some (PyText.strip raw)

/-- `write`, on the file at the path that the variable resolves to. -/
def write (raw : Option String) (file : List Char) (date : String) (r : LatencyRecord) : List Char :=
  match resolvePath raw with
  | none => file
  | some _ => file ++ (r.line date ++ ['\n'])

/-! ### Reading -/

/-- What `parse_jsonl` makes of a line: none if the line is skipped. A line that is nested too deeply or has
an integer with too many digits, which would end the report, is read as it stands. -/
def parseLine (line : List Char) : Option PyDict :=
  let line := PyText.strip (String.ofList line)
  if line = "" then none
  else
    match Json.value? Json.replacement line with
    | some (.dict record) => some record
    | _ => none

/-- `parse_jsonl`, of the lines of a file. -/
def parseJsonl (file : List Char) : List PyDict := (Json.fileLines file).filterMap parseLine

/-! ### The round trip -/

theorem key_optionalMember (key : String) (leaf : Option (String ⊕ ℤ)) :
    (optionalMember key leaf).key = key := by cases leaf <;> rfl

theorem key_tokensMember (tokens : Option (ℕ × ℕ × ℕ)) : (tokensMember tokens).key = "tokens" := by
  cases tokens <;> rfl

theorem readWith_optionalMember {r : Json.Reader} (hr : r.maxDigits = none) (key : String)
    (leaf : Option (String ⊕ ℤ)) :
    (optionalMember key leaf).ReadWith r 1 0 := by
  cases leaf with
  | none => exact Json.readWith_nullMember key
  | some leaf => exact Json.readWith_leafMember (Json.Reader.allowsLeaf hr leaf)

theorem readWith_tokensMember {r : Json.Reader} (hr : r.maxDigits = none)
    (tokens : Option (ℕ × ℕ × ℕ)) : (tokensMember tokens).ReadWith r 5 1 := by
  cases tokens with
  | none => exact (Json.readWith_nullMember "tokens").mono (by omega) (by omega)
  | some tokens =>
    obtain ⟨prompt, completion, total⟩ := tokens
    refine Json.readWith_objectMember "tokens" _ _ (fun m hm => ?_) (by simp [Json.leafMember])
    simp only [List.mem_cons, List.not_mem_nil, or_false] at hm
    rcases hm with rfl | rfl | rfl <;> exact Json.readWith_leafMember (Json.Reader.allowsLeaf hr _)

theorem printable_optionalMember (key : String) (leaf : Option (String ⊕ ℤ)) :
    Json.Printable (optionalMember key leaf).text := by
  cases leaf with
  | none => exact Json.printable_nullMember key
  | some leaf => exact Json.printable_leafMember (key, leaf)

theorem printable_tokensMember (tokens : Option (ℕ × ℕ × ℕ)) :
    Json.Printable (tokensMember tokens).text := by
  cases tokens with
  | none => exact Json.printable_nullMember "tokens"
  | some tokens =>
    refine Json.printable_objectText fun m hm => ?_
    simp only [List.mem_cons, List.not_mem_nil, or_false] at hm
    rcases hm with rfl | rfl | rfl <;> exact Json.printable_leafMember _

/-- A fact about the members of a record is one about each kind of them. -/
theorem forall_mem_members {P : Member → Prop} (hoptional : ∀ key leaf, P (optionalMember key leaf))
    (htokens : ∀ tokens, P (tokensMember tokens)) (date : String) (r : LatencyRecord) :
    ∀ m ∈ r.members date, P m := by
  intro m hm
  simp only [LatencyRecord.members, List.mem_cons, List.not_mem_nil, or_false] at hm
  rcases hm with rfl | rfl | rfl | rfl | rfl | rfl | rfl | rfl | rfl | rfl | rfl | rfl | rfl | rfl | rfl
  case inr.inr.inr.inr.inr.inr.inr.inr.inr.inr.inr.inr.inr.inl => exact htokens _
  all_goals exact hoptional _ _

/-- The text of a record is read back. -/
theorem value?_line (date : String) (r : LatencyRecord) :
    Json.value? Json.replacement (String.ofList (r.line date)) = some (.dict (r.dict date)) := by
  have hread : ∀ m ∈ r.members date, m.ReadWith ⟨Json.replacement, none⟩ 5 1 :=
    forall_mem_members
      (fun key leaf => (readWith_optionalMember rfl key leaf).mono (by omega) (by omega))
      (readWith_tokensMember rfl) date r
  have hkeys : ((r.members date).map Member.key).Nodup := by
    simp only [LatencyRecord.members, List.map_cons, List.map_nil, key_optionalMember, key_tokensMember]
    decide
  exact Json.value?_eq_some_iff.mpr (Json.read_objectText _ _ hread hkeys (Json.hasRoom_none 2))

/-- A record is on one line. -/
theorem printable_line (date : String) (r : LatencyRecord) : Json.Printable (r.line date) :=
  Json.printable_objectText
    (forall_mem_members printable_optionalMember printable_tokensMember date r)

/-- The line of a record is read as the record. -/
theorem parseLine_line (date : String) (r : LatencyRecord) :
    parseLine (r.line date) = some (r.dict date) := by
  have htrim : Trimming.trimBoth PyText.isSpace (r.line date) = r.line date := by
    refine Trimming.trimBoth_eq_self (fun c hc => ?_) fun c hc => ?_
    · obtain rfl : '{' = c := Option.some.inj hc
      decide
    · rw [LatencyRecord.line, Json.objectText, ← List.cons_append, List.getLast?_concat] at hc
      obtain rfl : '}' = c := Option.some.inj hc
      decide
  have hstrip : PyText.strip (String.ofList (r.line date)) = String.ofList (r.line date) := by
    rw [PyText.strip_eq, String.toList_ofList, htrim]
  have hne : String.ofList (r.line date) ≠ "" := by
    intro h
    have := congrArg String.toList h
    rw [String.toList_ofList] at this
    cases this
  simp only [parseLine, hstrip, if_neg hne, value?_line]

/-- The records of all calls, with their dates, in the order in which they are written. -/
def writes (raw : Option String) (file : List Char) (records : List (String × LatencyRecord)) :
    List Char := records.foldl (fun file r => write raw file r.1 r.2) file

theorem writes_eq {raw : Option String} (h : resolvePath raw ≠ none) (file : List Char)
    (records : List (String × LatencyRecord)) :
    writes raw file records = file ++ (records.map fun r => r.2.line r.1).flatMap (· ++ ['\n']) := by
  obtain ⟨path, hpath⟩ := Option.ne_none_iff_exists'.mp h
  induction records generalizing file with
  | nil => exact (List.append_nil file).symm
  | cons r records ih =>
    have hwrite : write raw file r.1 r.2 = file ++ (r.2.line r.1 ++ ['\n']) := by rw [write, hpath]
    rw [writes, List.foldl_cons, ← writes, ih, hwrite, List.map_cons, List.flatMap_cons,
      List.append_assoc]

/-- Whatever records are written to a log, the report reads them in the order of the writes, behind those
that were there, whatever texts they hold. -/
theorem parseJsonl_writes (raw : Option String) (file : List Char) (hfile : Json.Complete file)
    (records : List (String × LatencyRecord)) :
    parseJsonl (writes raw file records) =
      parseJsonl file ++
        (if resolvePath raw = none then [] else records.map fun r => r.2.dict r.1) := by
  split_ifs with hpath
  · have hunchanged : writes raw file records = file := by
      induction records with
      | nil => rfl
      | cons r records ih =>
        have hwrite : write raw file r.1 r.2 = file := by rw [write, hpath]
        rw [writes, List.foldl_cons, hwrite, ← writes, ih]
    rw [hunchanged, List.append_nil]
  · have hprintable : ∀ line ∈ records.map fun r => r.2.line r.1, Json.Printable line := by
      intro line hline
      obtain ⟨r, -, rfl⟩ := List.mem_map.mp hline
      exact printable_line r.1 r.2
    have hread : (records.map fun r => r.2.line r.1).filterMap parseLine =
        records.map fun r => r.2.dict r.1 := by
      clear hprintable
      induction records with
      | nil => rfl
      | cons r records ih =>
        rw [List.map_cons, List.filterMap_cons_some (parseLine_line r.1 r.2), ih, List.map_cons]
    rw [writes_eq hpath, parseJsonl, Json.fileLines_append hfile hprintable, List.filterMap_append, hread]
    rfl

/-- A turn of a call whose id has a line feed and a quotation mark in it. -/
def sampleRecord : LatencyRecord :=
  { context := { callId := some "a\n\"b", engine := some "nova-sonic", scenario := none, lang := some "en" }
    turnId := 1
    ts := fun _ => none
    svc := ⟨none, none, some (3, 4, 7), none⟩ }

theorem parseJsonl_writes_sampleRecord :
    parseJsonl (writes (some "latency.jsonl") [] [("2026-01-01", sampleRecord), ("", sampleRecord)]) =
      [sampleRecord.dict "2026-01-01", sampleRecord.dict ""] := by
  have hpath : resolvePath (some "latency.jsonl") ≠ none := by decide
  have h := parseJsonl_writes (some "latency.jsonl") [] (.inl rfl)
    [("2026-01-01", sampleRecord), ("", sampleRecord)]
  rw [if_neg hpath] at h
  exact h

end Pipeline
