import VoiceAgentPlatform.Demos.StoredDemo
import VoiceAgentPlatform.Lib.Raising

/-!
# Editing a demo

`PATCH /api/admin/demos/{id}` of `bot.py`: the body is validated field by field, merged onto the demo
in the cache, written as a whole, and the cache is rescanned. The audit log and the rendering of the
response are left out.

* `DemoPatchBody`: the body; an omitted field differs from one that is null.
* `validateFillerPatch`, `validateAsrFilterPatch`, `validateEngineVoicePatch`: the validators.
* `changesOf`: the edits that a body asks for.
* `Validated`: what is known of a body that validation accepts.
* `patchDemo`: validation and merge; `patchDemo_eq_applyAll` says that the merge is these edits.
* `adminDemoPatch`: the route.
-/

namespace Demos

open Async KeyedTable Edit Raising

/-- The keys of `LANGUAGES`. -/
def languages : List String :=
  ["zh-HK", "zh-CN", "en-US", "ja-JP", "en-SG", "en-GB", "en-AU", "en-IN", "fr-FR", "it-IT", "de-DE",
    "es-US", "pt-BR"]

/-- The keys of `ENGINES`. -/
def engines : List String := ["pipeline", "nova-sonic"]

/-- The keys of `TTS_PROVIDERS`. -/
def ttsProviders : List String := ["minimax", "polly"]

/-- The keys of `MODELS`. -/
def models : List String :=
  ["nova-2-lite", "nova-lite", "nova-micro", "claude-haiku-4.5", "claude-sonnet-4.5",
    "claude-sonnet-4.6"]

/-- `DEFAULT_PROVIDER`. -/
def defaultProvider : String := "minimax"

/-- `DEFAULT_MINIMAX_VOICE`. -/
def defaultMinimaxVoice : String := "Cantonese_GentleLady"

/-- `NOVA_SONIC_VOICE_ALIASES.get(v, v)`. -/
def novaSonicVoice (v : String) : String :=
  if v = "marie" then "ambre" else if v = "sofia" then "lupe" else if v = "ana" then "carolina"
  else v

/-- What validation looks up elsewhere: the ids of the tool registry and the voices of a provider. -/
structure Registries where
  tools : List String
  voicesFor : String → List String

/-- A dictionary of texts by language. -/
abbrev LangMap := List (String × String)

/-- A language map as a value. -/
def langDict (texts : LangMap) : PyDict := texts.map fun e => (e.1, .str e.2)

/-- `DemoPatchBody`: an omitted field is `none`, an explicit null is `some none`. -/
structure DemoPatchBody where
  tools : Option (Option (List String)) := none
  mcpServers : Option (Option (List String)) := none
  localized : Option (Option (List (String × LangMap))) := none
  filler : Option (Option PyDict) := none
  asrFilter : Option (Option PyDict) := none
  overwrite : Bool := false
  label : Option (Option String) := none
  lang : Option (Option String) := none
  tags : Option (Option (List String)) := none
  system : Option (Option LangMap) := none
  greeting : Option (Option LangMap) := none
  kbIntro : Option (Option LangMap) := none
  kbAck : Option (Option LangMap) := none
  kbBody : Option (Option (String ⊕ LangMap)) := none
  engine : Option (Option String) := none
  provider : Option (Option String) := none
  voice : Option (Option String) := none
  model : Option (Option String) := none
  id : Option (Option String) := none

/-- A rejected body. -/
def invalid {α : Type} (detail : String) (args : List String := []) : Except HTTPException α :=
  .error { status := 400, detail, args }

/-- Reject a body that does not meet a condition. -/
def require (condition : Prop) [Decidable condition] (detail : String) (args : List String := []) :
    Except HTTPException Unit :=
  if condition then .ok () else invalid detail args

/-- `sorted(texts)`. -/
def sorted (texts : List String) : List String := texts.mergeSort fun s t => s ≤ t

/-- The cleaned entry of one optional sub-key. -/
def subKey (d : PyDict) (key : String) (check : PyVal → Except HTTPException PyVal) :
    Except HTTPException PyDict :=
  match d.get? key with
  | none => .ok []
  | some v => (check v).map fun v => [(key, v)]

/-- A sub-key that must be a boolean. -/
def checkBool (detail : String) : PyVal → Except HTTPException PyVal
  | .bool b => .ok (.bool b)
  | _ => invalid detail

/-- A sub-key that must be an integer of at least `low`. -/
def checkInt (low : ℤ) (detail : String) : PyVal → Except HTTPException PyVal
  | .int i => if i < low then invalid detail else .ok (.int i)
  | _ => invalid detail

/-- A sub-key that must be a number in `0..1`; it is stored as a float. -/
def checkUnit (detail : String) : PyVal → Except HTTPException PyVal
  | .int i => if 0 ≤ i ∧ i ≤ 1 then .ok (.float i) else invalid detail
  | .float q => if 0 ≤ q ∧ q ≤ 1 then .ok (.float q) else invalid detail
  | _ => invalid detail

/-- The phrases of a filler, stripped and without blanks. -/
def cleanPhrases : List PyVal → Except HTTPException (List String)
  | [] => .ok []
  | .str item :: items =>
    let s := PyText.strip item
    if s = "" then cleanPhrases items
    else if 40 < s.length then invalid "filler.phrases item too long (max 40 chars)"
    else (cleanPhrases items).map (s :: ·)
  | _ :: _ => invalid "filler.phrases items must be strings"

/-- The phrases sub-key of a filler. -/
def checkPhrases : PyVal → Except HTTPException PyVal
  | .list items =>
    if 20 < items.length then invalid "filler.phrases: at most 20 items"
    else (cleanPhrases items).map strList
  | _ => invalid "filler.phrases must be a list"

/-- `_validate_filler_patch`. -/
def validateFillerPatch (f : PyDict) : Except HTTPException PyDict := do
  let enabled ← subKey f "enabled" (checkBool "filler.enabled must be bool")
  let timeout ← subKey f "timeout_ms" (checkInt 1 "filler.timeout_ms must be int > 0")
  let probability ← subKey f "probability"
    (checkUnit "filler.probability must be a number in 0..1")
  let phrases ← subKey f "phrases" checkPhrases
  return enabled ++ timeout ++ probability ++ phrases

/-- `_validate_asr_filter_patch`. -/
def validateAsrFilterPatch (d : PyDict) : Except HTTPException PyDict := do
  let enabled ← subKey d "enabled" (checkBool "asr_filter.enabled must be bool")
  let confidence ← subKey d "min_confidence"
    (checkUnit "asr_filter.min_confidence must be a number in 0..1")
  let chars ← subKey d "max_chars" (checkInt 0 "asr_filter.max_chars must be int >= 0")
  let words ← subKey d "max_words" (checkInt 0 "asr_filter.max_words must be int >= 0")
  return enabled ++ confidence ++ chars ++ words

/-- `_resolve_minimax_voice(v)[0]`, for a call without a language. -/
def resolveMinimaxVoice (reg : Registries) (v : String) : String :=
  if (reg.voicesFor "minimax").contains v then v else defaultMinimaxVoice

/-- `_voice_in_provider_table`. -/
def voiceInProviderTable (reg : Registries) (v provider : String) : Bool :=
  if provider = "minimax" then resolveMinimaxVoice reg v = v
  else if provider = "polly" then (reg.voicesFor "polly").contains v
  else false

/-- An optional text as a value. -/
def strOrNone : Option String → PyVal
  | none => .none
  | some s => .str s

/-- A field that must be null or one of `allowed`. -/
def checkOneOf (allowed : List String) (detail : String) :
    Option (Option String) → Except HTTPException Unit
  | some (some v) => if allowed.contains v then .ok () else invalid detail (v :: sorted allowed)
  | _ => .ok ()

/-- Whether a value is the text `s`. -/
def isText (v : PyVal) (s : String) : Bool :=
  match v with
  | .str t => t = s
  | _ => false

/-- `_validate_engine_voice_patch`: on success the fields of the body are taken as they are. -/
def validateEngineVoicePatch (reg : Registries) (body : DemoPatchBody)
    (demoEngine demoProvider : PyVal) : Except HTTPException Unit := do
  checkOneOf engines "unknown engine: % (allowed: %)" body.engine
  checkOneOf ttsProviders "unknown provider: % (allowed: %)" body.provider
  -- The engine and the provider that hold after the merge; null clears them.
  let effEngine : PyVal := (body.engine.map strOrNone).getD demoEngine
  let effProvider : PyVal :=
    match (body.provider.map strOrNone).getD demoProvider with
    | .none => .str defaultProvider
    | v => v
  match body.voice with
  | some (some v) =>
    if isText effEngine "nova-sonic" then
      if (reg.voicesFor "nova-sonic").contains (novaSonicVoice v) then pure ()
      else invalid "voice % is not a Nova Sonic voice" [v]
    else if isText effEngine "pipeline" then
      match effProvider with
      | .str provider =>
        if voiceInProviderTable reg v provider then pure ()
        else invalid "voice % does not resolve in provider %'s table" [v, provider]
      | _ => invalid "voice % does not resolve in provider %'s table" [v]
    else if (reg.voicesFor "nova-sonic").contains (novaSonicVoice v) ||
        ttsProviders.any (voiceInProviderTable reg v) then pure ()
    else invalid "voice % does not resolve in any engine's voice table" [v]
  | _ => pure ()
  checkOneOf models "invalid model: % (allowed: %)" body.model

/-- `SERVER_ID_RE.match`: a final line feed is not looked at. -/
def isServerId (s : String) : Bool :=
  let cs := s.toList
  let cs := if cs.getLast? = some '\n' then cs.dropLast else cs
  let slug (c : Char) : Bool := ('a' ≤ c && c ≤ 'z') || ('0' ≤ c && c ≤ '9')
  match cs with
  | [] => false
  | c :: rest => slug c && 1 ≤ rest.length && rest.length ≤ 62 &&
      rest.all fun c => slug c || c = '-'

/-- The keys of a language map. -/
def checkLanguages : LangMap → Except HTTPException Unit
  | [] => .ok ()
  | e :: texts => if languages.contains e.1 then checkLanguages texts
    else invalid "unknown language: %" [e.1]

/-- `_localized_field_whitelist`. -/
def localizedFields : List String := ["system", "greeting", "kb_intro", "kb_ack"]

/-- A per-language field. -/
def checkPerLang (name : String) : Option (Option LangMap) → Except HTTPException Unit
  | none => .ok ()
  | some none => invalid (name ++ " must be a \x7blang: text\x7d object")
  | some (some texts) => checkLanguages texts

/-- The localized write-back: allowed fields with non-empty maps of known languages. -/
def checkLocalized : List (String × LangMap) → Except HTTPException Unit
  | [] => .ok ()
  | (field, texts) :: rest => do
    if localizedFields.contains field then
      if texts.isEmpty then
        invalid "localized[%] must be a non-empty \x7blang: text\x7d object" [field]
      else do
        checkLanguages texts
        checkLocalized rest
    else
      invalid "field not allowed for localized write-back: %; allowed: %"
        (field :: sorted localizedFields)

/-- The fields of which a body has to include one. -/
def contentKeys : List String :=
  ["tools", "mcp_servers", "localized", "filler", "asr_filter", "label", "lang", "tags", "system",
    "greeting", "kb_intro", "kb_ack", "kb_body", "engine", "provider", "voice", "model"]

/-- The fields a body sets, of those in `contentKeys`. -/
def DemoPatchBody.fields (body : DemoPatchBody) : List String :=
  ([ ("tools", body.tools.isSome), ("mcp_servers", body.mcpServers.isSome),
      ("localized", body.localized.isSome), ("filler", body.filler.isSome),
      ("asr_filter", body.asrFilter.isSome), ("label", body.label.isSome),
      ("lang", body.lang.isSome), ("tags", body.tags.isSome), ("system", body.system.isSome),
      ("greeting", body.greeting.isSome), ("kb_intro", body.kbIntro.isSome),
      ("kb_ack", body.kbAck.isSome), ("kb_body", body.kbBody.isSome),
      ("engine", body.engine.isSome), ("provider", body.provider.isSome),
      ("voice", body.voice.isSome), ("model", body.model.isSome) ].filter Prod.snd).map Prod.fst

/-- The knowledge base body as a value. -/
def kbValue : String ⊕ LangMap → PyVal
  | .inl text => .str text
  | .inr texts => .dict (langDict texts)

/-- A field that is replaced by its value; a null that validation rejects changes nothing. -/
def replaced {α : Type} (key : String) (f : α → PyVal) : Option (Option α) → List Edit
  | some (some v) => [.assign key (f v)]
  | _ => []

/-- A field that is replaced by its value, or cleared by null. -/
def replacedOrCleared {α : Type} (key : String) (f : Option α → PyVal) :
    Option (Option α) → List Edit
  | some v => [.assign key (f v)]
  | none => []

/-- A block whose cleaned entries are merged into the block of the demo. -/
def mergedBlock (key : String) (clean : Option PyDict) : List Edit :=
  match clean with
  | some entries => [.merge key entries]
  | none => []

/-- The edits of a body before the localized ones, in the order of the code. -/
def directEdits (body : DemoPatchBody) (filler asrFilter : Option PyDict) : List Edit :=
  replaced "label" .str body.label ++ replaced "lang" .str body.lang ++
    replaced "tags" strList body.tags ++
    replaced "system" (fun m => .dict (langDict m)) body.system ++
    replaced "greeting" (fun m => .dict (langDict m)) body.greeting ++
    replaced "kb_intro" (fun m => .dict (langDict m)) body.kbIntro ++
    replaced "kb_ack" (fun m => .dict (langDict m)) body.kbAck ++
    replaced "kb_body" kbValue body.kbBody ++
    replacedOrCleared "tool_ids" (fun ids => strList (ids.getD [])) body.tools ++
    replacedOrCleared "mcp_servers" (fun ids => strList (ids.getD [])) body.mcpServers ++
    mergedBlock "filler" filler ++ mergedBlock "asr_filter" asrFilter ++
    replacedOrCleared "engine" strOrNone body.engine ++
    replacedOrCleared "provider" strOrNone body.provider ++
    replacedOrCleared "voice" strOrNone body.voice ++
    replacedOrCleared "model" strOrNone body.model

/-- The localized edits of a body: each language is set in the map of its field. -/
def localizedEdits (body : DemoPatchBody) : List Edit :=
  (body.localized.join.getD []).map fun e => .merge e.1 (langDict e.2)

/-- The conflict guard: without `overwrite` no text that exists is replaced by a localized one. -/
def checkConflicts (merged : PyDict) (overwrite : Bool) :
    List (String × LangMap) → Except HTTPException Unit
  | [] => .ok ()
  | (field, texts) :: rest =>
    match texts.find? fun e => ((dictOf (merged.get? field)).get? e.1).isSome && !overwrite with
    | some e => invalid "%[%] already exists; set overwrite=true to replace it" [field, e.1]
    | none => checkConflicts merged overwrite rest

/-- The tool ids of a body are in the registry. -/
def checkTools (reg : Registries) (tools : Option (Option (List String))) :
    Except HTTPException Unit :=
  let unknown := (tools.join.getD []).filter fun t => !reg.tools.contains t
  if unknown.isEmpty then .ok () else invalid "unknown tool ids: %" (sorted unknown)

/-- The MCP server ids of a body are well formed. -/
def checkServers (servers : Option (Option (List String))) : Except HTTPException Unit :=
  let bad := (servers.join.getD []).filter fun m => !isServerId m
  if bad.isEmpty then .ok () else invalid "invalid mcp server ids: %" (sorted bad)

/-- A field that may be omitted but not null. -/
def checkPresent {α : Type} (detail : String) (check : α → Except HTTPException Unit) :
    Option (Option α) → Except HTTPException Unit
  | none => .ok ()
  | some none => invalid detail
  | some (some v) => check v

/-- The cleaned block of a body, if it has one. -/
def cleaned (validate : PyDict → Except HTTPException PyDict) (block : Option (Option PyDict)) :
    Except HTTPException (Option PyDict) :=
  match block.join with
  | none => .ok none
  | some d => (validate d).map some

/-- The engine, provider, voice and model of a body, if it sets one of them. -/
def checkEngineVoice (reg : Registries) (demo : PyDict) (body : DemoPatchBody) :
    Except HTTPException Unit :=
  if body.engine.isSome || body.provider.isSome || body.voice.isSome || body.model.isSome then
    validateEngineVoicePatch reg body (demo.get "engine") (demo.get "provider")
  else .ok ()

/-- Validation of a body, all of it before the write; the cleaned filler and ASR filter. -/
def validatePatch (reg : Registries) (demoId : String) (demo : PyDict) (body : DemoPatchBody) :
    Except HTTPException (Option PyDict × Option PyDict) := do
  require (body.id = none ∨ body.id = some (some demoId))
    "id is not editable (it is the demo's primary key)"
  require (body.fields ≠ []) "body must include at least one of: %" [", ".intercalate contentKeys]
  checkTools reg body.tools
  checkServers body.mcpServers
  checkPresent "label must be a non-empty string"
    (fun label => if PyText.strip label = "" then invalid "label must be a non-empty string"
      else .ok ()) body.label
  checkPresent "unknown language: None"
    (fun lang => if languages.contains lang then .ok () else invalid "unknown language: %" [lang])
    body.lang
  checkPresent "tags must be a list of strings" (fun _ => .ok ()) body.tags
  checkPerLang "system" body.system
  checkPerLang "greeting" body.greeting
  checkPerLang "kb_intro" body.kbIntro
  checkPerLang "kb_ack" body.kbAck
  checkPresent "kb_body must be a string or a \x7blang: text\x7d object"
    (fun kb => match kb with
      | .inl _ => .ok ()
      | .inr texts => checkLanguages texts) body.kbBody
  -- The blocks are cleaned here and merged later.
  let filler ← cleaned validateFillerPatch body.filler
  let asrFilter ← cleaned validateAsrFilterPatch body.asrFilter
  checkEngineVoice reg demo body
  checkLocalized (body.localized.join.getD [])
  return (filler, asrFilter)

/-- The demo a body is merged onto: a copy without the loader's `_dir` and with its id pinned. -/
def mergeBase (demoId : String) (demo : PyDict) : PyDict :=
  PyDict.set (demo.filter fun e => e.1 ≠ "_dir") "id" (.str demoId)

/-- Validation and merge: the demo to write. -/
def patchDemo (reg : Registries) (demoId : String) (demo : PyDict) (body : DemoPatchBody) :
    Except HTTPException PyDict := do
  let (filler, asrFilter) ← validatePatch reg demoId demo body
  let merged := applyAll (mergeBase demoId demo) (directEdits body filler asrFilter)
  checkConflicts merged body.overwrite (body.localized.join.getD [])
  return applyAll merged (localizedEdits body)

variable {slot : String ↪ ℕ}

/-- `admin_demo_patch`: the refreshed demo of which the response is made. -/
def adminDemoPatch (reg : Registries) (demoId : String) (body : DemoPatchBody) :
    DemoProg slot PyDict := do
  let m : DemoMemory ← MonadState.get
  match get m demoId with
  | none => throw (.http { status := 404, detail := "demo not found: %", args := [demoId] })
  | some demo =>
    -- An empty dict is falsy.
    if demo.isEmpty then
      throw (.http { status := 404, detail := "demo not found: %", args := [demoId] })
    else
      match patchDemo reg demoId demo body with
      | .error e => throw (.http e)
      | .ok merged => do
        -- Nothing is awaited between the read of the cache and the write.
        put merged
        let _ ← rescan
        let m : DemoMemory ← MonadState.get
        match get m demoId with
        | some refreshed => return refreshed
        | none =>
          throw (.http
            { status := 500, detail := "demo % disappeared after rescan", args := [demoId] })

/-- The cleaned block of a body, none where validation rejects it. -/
def cleanedBlock (validate : PyDict → Except HTTPException PyDict) (block : Option (Option PyDict)) :
    Option PyDict :=
  match cleaned validate block with
  | .ok clean => clean
  | .error _ => none

/-- The edits that a body asks for. -/
def changesOf (body : DemoPatchBody) : List Edit :=
  directEdits body (cleanedBlock validateFillerPatch body.filler)
      (cleanedBlock validateAsrFilterPatch body.asrFilter) ++ localizedEdits body

theorem ne_null_of_checkPresent {α : Type} {detail : String} {check : α → Except HTTPException Unit}
    {field : Option (Option α)} {u : Unit} (h : checkPresent detail check field = .ok u) :
    field ≠ some none := by
  rintro rfl
  cases h

theorem ne_null_of_checkPerLang {name : String} {field : Option (Option LangMap)} {u : Unit}
    (h : checkPerLang name field = .ok u) : field ≠ some none := by
  rintro rfl
  cases h

/-- What is known of a body that validation accepts with these blocks. -/
structure Validated (body : DemoPatchBody) (filler asrFilter : Option PyDict) : Prop where
  label : body.label ≠ some none
  lang : body.lang ≠ some none
  tags : body.tags ≠ some none
  system : body.system ≠ some none
  greeting : body.greeting ≠ some none
  kbIntro : body.kbIntro ≠ some none
  kbAck : body.kbAck ≠ some none
  kbBody : body.kbBody ≠ some none
  filler : cleaned validateFillerPatch body.filler = .ok filler
  asrFilter : cleaned validateAsrFilterPatch body.asrFilter = .ok asrFilter
  localized : checkLocalized (body.localized.join.getD []) = .ok ()

theorem validated_of_validatePatch {reg : Registries} {demoId : String} {demo : PyDict}
    {body : DemoPatchBody} {filler asrFilter : Option PyDict}
    (h : validatePatch reg demoId demo body = .ok (filler, asrFilter)) :
    Validated body filler asrFilter := by
  unfold validatePatch at h
  -- The id, the fields, the tools and the MCP servers come first.
  iterate 4 obtain ⟨-, -, h⟩ := ok_of_bind h
  obtain ⟨_, hlabel, h⟩ := ok_of_bind h
  obtain ⟨_, hlang, h⟩ := ok_of_bind h
  obtain ⟨_, htags, h⟩ := ok_of_bind h
  obtain ⟨_, hsystem, h⟩ := ok_of_bind h
  obtain ⟨_, hgreeting, h⟩ := ok_of_bind h
  obtain ⟨_, hkbIntro, h⟩ := ok_of_bind h
  obtain ⟨_, hkbAck, h⟩ := ok_of_bind h
  obtain ⟨_, hkbBody, h⟩ := ok_of_bind h
  obtain ⟨filler', hfiller, h⟩ := ok_of_bind h
  obtain ⟨asrFilter', hasrFilter, h⟩ := ok_of_bind h
  obtain ⟨-, -, h⟩ := ok_of_bind h
  obtain ⟨_, hlocalized, h⟩ := ok_of_bind h
  obtain ⟨rfl, rfl⟩ := Prod.mk.inj (Except.ok.inj h)
  exact ⟨ne_null_of_checkPresent hlabel, ne_null_of_checkPresent hlang,
    ne_null_of_checkPresent htags, ne_null_of_checkPerLang hsystem,
    ne_null_of_checkPerLang hgreeting, ne_null_of_checkPerLang hkbIntro,
    ne_null_of_checkPerLang hkbAck, ne_null_of_checkPresent hkbBody, hfiller, hasrFilter, hlocalized⟩

theorem cleanedBlock_of_cleaned {validate : PyDict → Except HTTPException PyDict}
    {block : Option (Option PyDict)} {clean : Option PyDict} (h : cleaned validate block = .ok clean) :
    cleanedBlock validate block = clean := by
  rw [cleanedBlock, h]

/-- The demo that an accepted body makes is the base with the body's edits. -/
theorem patchDemo_eq_applyAll {reg : Registries} {demoId : String} {demo merged : PyDict}
    {body : DemoPatchBody} (h : patchDemo reg demoId demo body = .ok merged) :
    merged = applyAll (mergeBase demoId demo) (changesOf body) := by
  obtain ⟨⟨filler, asrFilter⟩, hvalid, h⟩ := ok_of_bind h
  obtain ⟨-, -, h⟩ := ok_of_bind h
  have hvalidated := validated_of_validatePatch hvalid
  obtain rfl := Except.ok.inj h
  rw [changesOf, cleanedBlock_of_cleaned hvalidated.filler,
    cleanedBlock_of_cleaned hvalidated.asrFilter]
  exact (applyAll_append _ _ _).symm

end Demos
