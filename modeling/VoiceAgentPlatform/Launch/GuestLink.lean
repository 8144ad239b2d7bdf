import VoiceAgentPlatform.Config.LaunchDefaults

/-!
# Guest links and the call they start

The launch configuration of a guest link is validated when the link is minted. The call is started by
`/ws` with the fields of the link, and the runtime web configuration fills in the others. The voice
registry is a parameter that does not change. The history, the audit log and the demo of a call are
left out.

* `validateLaunchConfig`: the validation; missing fields count as module constants.
* `wsEndpoint`, `buildNovaSonicPipeline`, `buildPipeline`: the session that `/ws` runs.
* `AsChosen`: the session serves its language and speaks with the voice that was validated.
* `FillsAlike`: the configuration fills in what validation assumed.
* `guestLink_iff`: the two are the same for every configuration that the API can reach.
-/

namespace Launch

open Demos Config

/-- `DEFAULT_ENGINE`. -/
def defaultEngine : String := "nova-sonic"

/-- `DEFAULT_LANG`. -/
def defaultLang : String := "en-US"

/-- `DEFAULT_POLLY_VOICE`. -/
def defaultPollyVoice : String := "Zhiyu"

/-- `DEFAULT_NOVA_SONIC_VOICE`. -/
def defaultNovaSonicVoice : String := "tiffany"

/-- `DEFAULT_MINIMAX_VOICE_BY_LANG`. -/
def defaultMinimaxVoiceByLang (lang : String) : Option String :=
  if lang = "en-SG" then some "mm_singlish_female_5_ivc_v3" else none

/-- The fields of a launch configuration, each of which may be absent. -/
structure LaunchConfig where
  lang : Option String := none
  engine : Option String := none
  voice : Option String := none
  provider : Option String := none
  deriving DecidableEq

/-- An optional field that has to be one of `table`. -/
def checkOptional (table : List String) (detail : String) : Option String → Except HTTPException Unit
  | none => .ok ()
  | some v => require (v ∈ table) detail [v]

/-- The check of the language against the engine, if both are given. -/
def checkEngineServes (lang engine : Option String) : Except HTTPException Unit :=
  match lang, engine with
  | some lang, some engine =>
    require (engine ∈ ((languageInfo? lang).map LanguageEntry.engines).getD [])
      "engine % not available for language %" [engine, lang]
  | _, _ => .ok ()

/-- The check of the voice against the engine and the provider, which default to constants. -/
def checkVoice (reg : Registries) (q : LaunchConfig) : Except HTTPException Unit :=
  match q.voice with
  | none => .ok ()
  | some voice =>
    -- An omitted engine or provider is taken as the default of the code, not of the configuration.
    if q.engine.getD defaultEngine = "nova-sonic" then
      require (novaSonicVoice voice ∈ reg.voicesFor "nova-sonic") "invalid nova-sonic voice: %" [voice]
    else
      require (voiceInProviderTable reg voice (q.provider.getD defaultProvider) = true)
        "invalid pipeline voice: %" [voice]

/-- `_validate_launch_config`: the fields that are given are returned as they are. -/
def validateLaunchConfig (reg : Registries) (q : LaunchConfig) :
    Except HTTPException LaunchConfig := do
  checkOptional engines "invalid engine: %" q.engine
  checkOptional ttsProviders "invalid provider: %" q.provider
  checkOptional languages "invalid lang: %" q.lang
  checkEngineServes q.lang q.engine
  checkVoice reg q
  return q

/-- `value in voices`. -/
def isVoice (voices : List String) : PyVal → Bool
  | .str v => voices.contains v
  | _ => false

/-- `_resolve_minimax_voice(voice, lang)[0]`. -/
def resolveMinimaxVoiceFor (reg : Registries) (voice lang : PyVal) : String :=
  let voices := reg.voicesFor "minimax"
  if isVoice voices voice then shown voice
  else match defaultMinimaxVoiceByLang (shown lang) with
    | some v => if voices.contains v then v else defaultMinimaxVoice
    | none => defaultMinimaxVoice

/-- `_resolve_polly_voice(voice)[0]`. -/
def resolvePollyVoice (reg : Registries) (voice : PyVal) : String :=
  if isVoice (reg.voicesFor "polly") voice then shown voice else defaultPollyVoice

/-- A voice: the table it is from, and its id there. -/
structure Voice where
  table : String
  id : String
  deriving DecidableEq

/-- The part of `_build_tts` that picks the voice. -/
def buildTts (reg : Registries) (provider : String) (voice lang : PyVal) : Voice :=
  if provider = "polly" then ⟨"polly", resolvePollyVoice reg voice⟩
  else ⟨"minimax", resolveMinimaxVoiceFor reg voice lang⟩

/-- What a call runs: the engine, the language it was started for, the language of its speech
recognition, if it has one, and the voice. -/
structure Session where
  engine : String
  lang : PyVal
  stt : Option String
  voice : Voice

/-- The recognition language of a pipeline, which is that of the default language where a language is
unknown or has none. -/
def pipelineStt (lang : PyVal) : Option String :=
  let default := (languageInfo? defaultLang).bind LanguageEntry.stt
  match lang with
  | .str lang =>
    match (languageInfo? lang).bind LanguageEntry.stt with
    | some stt => some stt
    | none => default
  | _ => default

/-- The choices of `_build_pipeline`. -/
def buildPipeline (reg : Registries) (lang voice provider : PyVal) : Session :=
  let provider := if isVoice ttsProviders provider then shown provider else defaultProvider
  { engine := "pipeline", lang, stt := pipelineStt lang, voice := buildTts reg provider voice lang }

/-- The choices of `_build_nova_sonic_pipeline`. -/
def buildNovaSonicPipeline (reg : Registries) (lang : PyVal) (voice : String) : Session :=
  let voice := novaSonicVoice voice
  let voice := if voice ∈ reg.voicesFor "nova-sonic" then voice else defaultNovaSonicVoice
  { engine := "nova-sonic", lang, stt := none, voice := ⟨"nova-sonic", voice⟩ }

/-- `web_defaults.get(key, default)`. -/
def webDefault (web : PyMap.View) (key default : String) : PyVal := (web.1 key).getD (.str default)

/-- `qp.get(key, default)`. -/
def param (field : Option String) (default : PyVal) : PyVal := (field.map .str).getD default

/-- The engine of a call. -/
def wsEngine (web : PyMap.View) (q : LaunchConfig) : PyVal :=
  param q.engine (webDefault web "engine" defaultEngine)

/-- The language of a call. -/
def wsLang (web : PyMap.View) (q : LaunchConfig) : PyVal :=
  param q.lang (webDefault web "lang" defaultLang)

/-- The provider of a call. -/
def wsProvider (web : PyMap.View) (q : LaunchConfig) : PyVal :=
  param q.provider (webDefault web "provider" defaultProvider)

/-- The voice of a pipeline call that names none. -/
def wsDefaultVoice (web : PyMap.View) (provider : PyVal) : PyVal :=
  let stored := (web.1 "voice").getD .none
  if stored.truthy then stored
  else .str (if isText provider "polly" then defaultPollyVoice else defaultMinimaxVoice)

/-- The part of `ws_endpoint` that starts the call, for a query with the fields `q`. -/
def wsEndpoint (reg : Registries) (web : PyMap.View) (q : LaunchConfig) : Session :=
  if isText (wsEngine web q) "nova-sonic" then
    let voice := novaSonicVoice (q.voice.getD defaultNovaSonicVoice)
    let voice := if voice ∈ reg.voicesFor "nova-sonic" then voice else defaultNovaSonicVoice
    buildNovaSonicPipeline reg (wsLang web q) voice
  else
    let provider := wsProvider web q
    buildPipeline reg (wsLang web q) (param q.voice (wsDefaultVoice web provider)) provider

/-- The table that a voice is validated against. -/
def validatedTable (q : LaunchConfig) : String :=
  if q.engine.getD defaultEngine = "nova-sonic" then "nova-sonic" else q.provider.getD defaultProvider

/-- The id that a voice is validated as. -/
def validatedId (q : LaunchConfig) (voice : String) : String :=
  if q.engine.getD defaultEngine = "nova-sonic" then novaSonicVoice voice else voice

/-- The session runs an engine that serves its language, and if a voice was chosen it speaks with that
voice, of the table that the choice was validated against. -/
structure AsChosen (reg : Registries) (web : PyMap.View) (q : LaunchConfig) : Prop where
  engine : ∃ lang, (wsEndpoint reg web q).lang = .str lang ∧
    serves (wsEndpoint reg web q).engine lang = true
  voice : ∀ voice, q.voice = some voice →
    (wsEndpoint reg web q).voice = ⟨validatedTable q, validatedId q voice⟩

/-- The configuration fills in fields that go with the given ones: a language or an engine that goes
with the given engine or language, and, if a voice is given, the engine and the provider that
validation assumed. A default voice that is not in the registry must not be replaced by that of the
language. -/
structure FillsAlike (reg : Registries) (web : PyMap.View) (q : LaunchConfig) : Prop where
  lang : ∀ engine lang, q.engine = some engine → q.lang = none → web.1 "lang" = some (.str lang) →
    serves engine lang = true
  engine : ∀ engine lang, q.lang = some lang → q.engine = none →
    web.1 "engine" = some (.str engine) → serves engine lang = true
  sameEngine : q.voice ≠ none → q.engine = none → web.1 "engine" = some (.str "nova-sonic")
  sameProvider : q.voice ≠ none → q.engine = some "pipeline" → q.provider = none →
    web.1 "provider" = some (.str "minimax")
  sameDefault : ∀ voice, q.voice = some voice → q.engine = some "pipeline" →
    q.provider.getD defaultProvider = "minimax" → voice ∉ reg.voicesFor "minimax" →
    ∀ v, defaultMinimaxVoiceByLang (shown (wsLang web q)) = some v → v ∉ reg.voicesFor "minimax"

/-! ### The web configurations that the API reaches -/

/-- The engine of the web segment serves its language, and the provider is known. -/
def WebReady (web : PyMap.View) : Prop :=
  Launchable web ∧ ∃ provider ∈ ttsProviders, web.1 "provider" = some (.str provider)

theorem webReady_of_stored {request : PutRequest} {current : PyMap} {updates : PyDict}
    (h : Stored request current updates) (hcurrent : WebReady current.view) :
    WebReady (updatedView updates current.view) := by
  obtain ⟨hlaunchable, provider, hproviders, hprovider⟩ := hcurrent
  refine ⟨h.launchable hlaunchable, ?_⟩
  obtain ⟨-, -, hvalid⟩ := Raising.ok_of_bind h.valid
  iterate 2 obtain ⟨-, -, hvalid⟩ := Raising.ok_of_bind hvalid
  obtain ⟨⟨⟩, hcheck, -⟩ := Raising.ok_of_bind hvalid
  obtain ⟨provider', hproviders', hprovider'⟩ :=
    get?_updateFields_known request.nodup_updates hcheck hprovider hproviders
  exact ⟨provider', hproviders', (h.get?_updatedView (by decide)).trans hprovider'⟩

/-- A configuration whose web getter returns a segment that is ready. -/
def ReadyState [Json.Python] (fallback : Fallback) (b : ConfigState) : Prop :=
  ∃ web, Shows fallback b .web web ∧ WebReady web

theorem readyState_put [Json.Python] {fallback : Fallback} {b : ConfigState} (request : PutRequest)
    (h : ReadyState fallback b) : ReadyState fallback (Config.put fallback b request) := by
  obtain ⟨web, hweb, hready⟩ := h
  rw [shows_iff] at hweb
  rcases putSegment_cases fallback b request with ⟨e, b', hrun, hview⟩ |
    ⟨result, b', current, updates, hrun, hcurrent, hstored, hsegment, hother⟩
  · have hput : Config.put fallback b request = b' := by rw [Config.put, Raising.exitState, hrun]
    exact ⟨web, shows_iff.mpr (by rw [hput, hview, hweb]), hready⟩
  · have hput : Config.put fallback b request = b' := by rw [Config.put, Raising.exitState, hrun]
    by_cases hs : Segment.web = request.segment
    · rw [← hs] at hcurrent hsegment
      rw [hweb] at hcurrent
      obtain rfl := Except.ok.inj hcurrent
      exact ⟨_, shows_iff.mpr (hput ▸ hsegment), webReady_of_stored hstored hready⟩
    · exact ⟨web, shows_iff.mpr (by rw [hput, hother _ hs, hweb]), hready⟩

/-- Every configuration that the API reaches from the defaults of the repository is ready. -/
theorem readyState_exec [Json.Python] (minimaxModel : String) (phone : PyDict)
    (hphone : (phone.map Prod.fst).Nodup) (requests : List PutRequest) :
    ReadyState (envFallback minimaxModel phone hphone)
      (Run.exec (Config.put (envFallback minimaxModel phone hphone)) noConfig requests) := by
  refine Run.exec_invariant (I := ReadyState (envFallback minimaxModel phone hphone))
    (fun b request => readyState_put request) ?_ requests
  exact ⟨_, shows_iff.mpr rfl, ⟨"nova-sonic", "en-US", rfl, by simp [engines], rfl,
    by simp [languages], by decide⟩, "minimax", by simp [ttsProviders], rfl⟩

/-! ### When the session is the one that was validated -/

/-- What an accepted configuration has passed. -/
structure Accepted (reg : Registries) (q : LaunchConfig) : Prop where
  engine : ∀ engine, q.engine = some engine → engine ∈ engines
  provider : ∀ provider, q.provider = some provider → provider ∈ ttsProviders
  lang : ∀ lang, q.lang = some lang → lang ∈ languages
  serves : ∀ engine lang, q.engine = some engine → q.lang = some lang → serves engine lang = true
  nova : ∀ voice, q.voice = some voice → q.engine.getD defaultEngine = "nova-sonic" →
    novaSonicVoice voice ∈ reg.voicesFor "nova-sonic"
  pipeline : ∀ voice, q.voice = some voice → q.engine.getD defaultEngine ≠ "nova-sonic" →
    voiceInProviderTable reg voice (q.provider.getD defaultProvider) = true

theorem require_ok {condition : Prop} [Decidable condition] {detail : String} {args : List String}
    (h : require condition detail args = .ok ()) : condition := by
  unfold require at h
  split_ifs at h with hcondition
  · exact hcondition
  · cases h

theorem mem_of_checkOptional {table : List String} {detail v : String} {field : Option String}
    (h : checkOptional table detail field = .ok ()) (hfield : field = some v) : v ∈ table := by
  subst hfield
  exact require_ok h

/-- The engines that the table lists for a language serve it. -/
theorem serves_of_listed {engine lang : String} (hengine : engine ∈ engines) (hlang : lang ∈ languages)
    (h : engine ∈ ((languageInfo? lang).map LanguageEntry.engines).getD []) :
    serves engine lang = true := by
  have hall : engines.all fun engine => languages.all fun lang =>
      !(((languageInfo? lang).map LanguageEntry.engines).getD []).contains engine ||
        serves engine lang := by decide
  have hone := List.all_eq_true.mp (List.all_eq_true.mp hall engine hengine) lang hlang
  simpa [h] using hone

theorem accepted_of_validateLaunchConfig {reg : Registries} {q clean : LaunchConfig}
    (h : validateLaunchConfig reg q = .ok clean) : clean = q ∧ Accepted reg q := by
  obtain ⟨⟨⟩, hengine, h⟩ := Raising.ok_of_bind h
  obtain ⟨⟨⟩, hprovider, h⟩ := Raising.ok_of_bind h
  obtain ⟨⟨⟩, hlang, h⟩ := Raising.ok_of_bind h
  obtain ⟨⟨⟩, hserves, h⟩ := Raising.ok_of_bind h
  obtain ⟨⟨⟩, hvoice, h⟩ := Raising.ok_of_bind h
  refine ⟨(Except.ok.inj h).symm, ?_⟩
  -- Each check that has passed is a field.
  constructor
  · exact fun engine hq => mem_of_checkOptional hengine hq
  · exact fun provider hq => mem_of_checkOptional hprovider hq
  · exact fun lang hq => mem_of_checkOptional hlang hq
  · intro engine lang he hl
    rw [he, hl] at hserves
    exact serves_of_listed (mem_of_checkOptional hengine he) (mem_of_checkOptional hlang hl)
      (require_ok hserves)
  · intro voice hv he
    rw [checkVoice, hv] at hvoice
    simp only [if_pos he] at hvoice
    exact require_ok hvoice
  · intro voice hv he
    rw [checkVoice, hv] at hvoice
    simp only [if_neg he] at hvoice
    exact require_ok hvoice

/-- The fields that the web segment fills in. -/
theorem params_of_webReady {web : PyMap.View} (h : WebReady web) (q : LaunchConfig) :
    ∃ engine lang provider, web.1 "engine" = some (.str engine) ∧ engine ∈ engines ∧
      web.1 "lang" = some (.str lang) ∧ serves engine lang = true ∧
      web.1 "provider" = some (.str provider) ∧ provider ∈ ttsProviders ∧
      wsEngine web q = .str (q.engine.getD engine) ∧ wsLang web q = .str (q.lang.getD lang) ∧
      wsProvider web q = .str (q.provider.getD provider) := by
  obtain ⟨⟨engine, lang, hengine, hengines, hlang, -, hserves⟩, provider, hproviders, hprovider⟩ := h
  refine ⟨engine, lang, provider, hengine, hengines, hlang, hserves, hprovider, hproviders, ?_, ?_, ?_⟩
  · rw [wsEngine, param, webDefault, hengine]
    cases q.engine <;> rfl
  · rw [wsLang, param, webDefault, hlang]
    cases q.lang <;> rfl
  · rw [wsProvider, param, webDefault, hprovider]
    cases q.provider <;> rfl

/-- A call with a known engine runs it, in the language it was started for. -/
theorem wsEndpoint_engine (reg : Registries) {web : PyMap.View} {q : LaunchConfig} {engine : String}
    (h : wsEngine web q = .str engine) (hengine : engine ∈ engines) :
    (wsEndpoint reg web q).engine = engine ∧ (wsEndpoint reg web q).lang = wsLang web q := by
  have hcases : engine = "pipeline" ∨ engine = "nova-sonic" := by simpa [engines] using hengine
  rw [wsEndpoint, h]
  rcases hcases with rfl | rfl <;> exact ⟨rfl, rfl⟩

/-- The voice of a Nova Sonic call. -/
theorem wsEndpoint_nova {reg : Registries} {web : PyMap.View} {q : LaunchConfig} {voice : String}
    (h : wsEngine web q = .str "nova-sonic") (hq : q.voice = some voice)
    (hvoice : novaSonicVoice voice ∈ reg.voicesFor "nova-sonic") :
    (wsEndpoint reg web q).voice = ⟨"nova-sonic", novaSonicVoice voice⟩ := by
  -- No alias is an alias itself.
  have htwice : novaSonicVoice (novaSonicVoice voice) = novaSonicVoice voice := by
    unfold novaSonicVoice
    split_ifs <;> simp_all
  rw [wsEndpoint, h, hq]
  simp [isText, hvoice, buildNovaSonicPipeline, htwice]

/-- The voice of a pipeline call. -/
theorem wsEndpoint_pipeline {reg : Registries} {web : PyMap.View} {q : LaunchConfig}
    {voice provider : String} (h : wsEngine web q = .str "pipeline") (hq : q.voice = some voice)
    (hprovider : wsProvider web q = .str provider) (hproviders : provider ∈ ttsProviders) :
    (wsEndpoint reg web q).voice = buildTts reg provider (.str voice) (wsLang web q) := by
  rw [wsEndpoint, h, hq, hprovider]
  simp [isText, buildPipeline, isVoice, hproviders, shown, param]

theorem buildTts_table (reg : Registries) {provider : String} (h : provider ∈ ttsProviders)
    (voice lang : PyVal) : (buildTts reg provider voice lang).table = provider := by
  have hcases : provider = "minimax" ∨ provider = "polly" := by simpa [ttsProviders] using h
  rcases hcases with rfl | rfl <;> rfl

/-- A voice that passed the check of its provider is the one that is used, unless it is the default
voice, which is not in the registry, and the language has another default that is. -/
theorem buildTts_id_iff {reg : Registries} {provider voice : String} (lang : PyVal)
    (h : provider ∈ ttsProviders) (hvoice : voiceInProviderTable reg voice provider = true) :
    (buildTts reg provider (.str voice) lang).id = voice ↔
      (provider = "minimax" → voice ∉ reg.voicesFor "minimax" →
        ∀ v, defaultMinimaxVoiceByLang (shown lang) = some v → v ∉ reg.voicesFor "minimax") := by
  have hcases : provider = "minimax" ∨ provider = "polly" := by simpa [ttsProviders] using h
  rcases hcases with rfl | rfl
  · by_cases hmem : voice ∈ reg.voicesFor "minimax"
    · simp [buildTts, resolveMinimaxVoiceFor, isVoice, shown, hmem]
    · -- Only the default voice passes the check without being in the registry.
      have hdefault : voice = defaultMinimaxVoice := by
        simpa [voiceInProviderTable, resolveMinimaxVoice, hmem, eq_comm] using hvoice
      simp only [buildTts, resolveMinimaxVoiceFor, isVoice, hmem, List.contains_iff_mem,
        if_neg (show ¬ "minimax" = "polly" by decide), if_false]
      cases hlang : defaultMinimaxVoiceByLang (shown lang) with
      | none => simp [hdefault]
      | some v =>
        have hne : v ≠ defaultMinimaxVoice := by
          rw [defaultMinimaxVoiceByLang] at hlang
          split_ifs at hlang
          rw [← Option.some.inj hlang]
          decide
        by_cases hv : v ∈ reg.voicesFor "minimax"
        · simp [hv, hdefault, hne]
        · simp [hv, hdefault]
  · have hmem : voice ∈ reg.voicesFor "polly" := by
      simpa [voiceInProviderTable] using hvoice
    simp [buildTts, resolvePollyVoice, isVoice, shown, hmem]

variable {reg : Registries} {web : PyMap.View} {q : LaunchConfig}

/-- What the configuration fills in goes together with what is given. -/
theorem serves_iff (hq : Accepted reg q) (hweb : WebReady web) :
    (∃ lang, (wsEndpoint reg web q).lang = .str lang ∧
        serves (wsEndpoint reg web q).engine lang = true) ↔
      (∀ engine lang, q.engine = some engine → q.lang = none → web.1 "lang" = some (.str lang) →
        serves engine lang = true) ∧
      ∀ engine lang, q.lang = some lang → q.engine = none → web.1 "engine" = some (.str engine) →
        serves engine lang = true := by
  obtain ⟨engine, lang, provider, hengine, hengines, hlang, hserves, -, -, hwsEngine, hwsLang, -⟩ :=
    params_of_webReady hweb q
  -- The engine that runs is the one given, or the one configured.
  have hknown : q.engine.getD engine ∈ engines := by
    cases he : q.engine with
    | none => exact hengines
    | some e => exact hq.engine e he
  obtain ⟨hrun, hrunLang⟩ := wsEndpoint_engine reg hwsEngine hknown
  rw [hrun, hrunLang, hwsLang, hengine, hlang]
  simp only [PyVal.str.injEq, exists_eq_left', Option.some.injEq]
  cases he : q.engine with
  | none =>
    cases hl : q.lang with
    | none => simpa using hserves
    | some l => simp
  | some e =>
    cases hl : q.lang with
    | none => simp
    | some l => simpa using hq.serves e l he hl

/-- A Nova Sonic call that validation took for one speaks with the voice that was chosen. -/
theorem voice_nova (hq : Accepted reg q) {voice : String} (hv : q.voice = some voice)
    (he : q.engine.getD defaultEngine = "nova-sonic") (h : wsEngine web q = .str "nova-sonic") :
    (wsEndpoint reg web q).voice = ⟨validatedTable q, validatedId q voice⟩ := by
  rw [wsEndpoint_nova h hv (hq.nova voice hv he), validatedTable, validatedId, if_pos he, if_pos he]

/-- A pipeline call for which validation took the provider `table` speaks with the voice that was
chosen exactly if it runs with this provider and the voice is not replaced. -/
theorem voice_pipeline (hq : Accepted reg q) {voice provider : String} (hv : q.voice = some voice)
    (he : q.engine = some "pipeline") (h : wsEngine web q = .str "pipeline")
    (hprovider : wsProvider web q = .str provider) (hproviders : provider ∈ ttsProviders) :
    (wsEndpoint reg web q).voice = ⟨validatedTable q, validatedId q voice⟩ ↔
      provider = q.provider.getD defaultProvider ∧
        (q.provider.getD defaultProvider = "minimax" → voice ∉ reg.voicesFor "minimax" →
          ∀ v, defaultMinimaxVoiceByLang (shown (wsLang web q)) = some v →
            v ∉ reg.voicesFor "minimax") := by
  have hne : ¬ q.engine.getD defaultEngine = "nova-sonic" := by
    rw [he]
    decide
  have htable := buildTts_table reg hproviders (.str voice) (wsLang web q)
  rw [wsEndpoint_pipeline h hv hprovider hproviders, validatedTable, validatedId, if_neg hne,
    if_neg hne]
  constructor
  · intro hvoice
    -- The voice of another provider is not the one that was validated.
    have hsame : provider = q.provider.getD defaultProvider :=
      htable.symm.trans (congrArg Voice.table hvoice)
    have hcheck := hq.pipeline voice hv hne
    rw [← hsame] at hcheck ⊢
    exact ⟨rfl, (buildTts_id_iff _ hproviders hcheck).mp (congrArg Voice.id hvoice)⟩
  · rintro ⟨rfl, hdefault⟩
    have hid := (buildTts_id_iff (wsLang web q) hproviders (hq.pipeline voice hv hne)).mpr hdefault
    calc buildTts reg (q.provider.getD defaultProvider) (.str voice) (wsLang web q)
        = ⟨(buildTts reg (q.provider.getD defaultProvider) (.str voice) (wsLang web q)).table,
            (buildTts reg (q.provider.getD defaultProvider) (.str voice) (wsLang web q)).id⟩ := rfl
      _ = ⟨q.provider.getD defaultProvider, voice⟩ := by rw [htable, hid]

/-- The voice of a session is the one that was chosen exactly if the configuration fills in what
validation assumed. -/
theorem voice_iff (hq : Accepted reg q) (hweb : WebReady web) {voice : String}
    (hv : q.voice = some voice) :
    (wsEndpoint reg web q).voice = ⟨validatedTable q, validatedId q voice⟩ ↔
      (q.engine = none → web.1 "engine" = some (.str "nova-sonic")) ∧
      (q.engine = some "pipeline" → q.provider = none →
        web.1 "provider" = some (.str "minimax")) ∧
      (q.engine = some "pipeline" → q.provider.getD defaultProvider = "minimax" →
        voice ∉ reg.voicesFor "minimax" →
        ∀ v, defaultMinimaxVoiceByLang (shown (wsLang web q)) = some v →
          v ∉ reg.voicesFor "minimax") := by
  obtain ⟨engine, lang, provider, hengine, hengines, -, -, hprovider, hproviders, hwsEngine, -,
    hwsProvider⟩ := params_of_webReady hweb q
  rw [hengine, hprovider]
  have hcases {e : String} (he : e ∈ engines) : e = "pipeline" ∨ e = "nova-sonic" := by
    simpa [engines] using he
  have hknown : q.provider.getD provider ∈ ttsProviders := by
    cases hp : q.provider with
    | none => exact hproviders
    | some p => exact hq.provider p hp
  cases he : q.engine with
  | none =>
    rw [he] at hwsEngine
    rcases hcases hengines with rfl | rfl
    · -- Validation took the call for a Nova Sonic call, and it runs a pipeline.
      refine iff_of_false (fun hvoice => ?_) (by simp)
      have htable := congrArg Voice.table hvoice
      rw [wsEndpoint_pipeline hwsEngine hv hwsProvider hknown, buildTts_table reg hknown, validatedTable,
        he] at htable
      have hnova : q.provider.getD provider = "nova-sonic" := htable
      rw [hnova] at hknown
      simp [ttsProviders] at hknown
    · exact iff_of_true (voice_nova hq hv (by rw [he]; rfl) hwsEngine) (by simp)
  | some e =>
    rw [he] at hwsEngine
    rcases hcases (hq.engine e he) with rfl | rfl
    · rw [voice_pipeline hq hv he hwsEngine hwsProvider hknown]
      have hfill : q.provider.getD provider = q.provider.getD defaultProvider ↔
          (q.provider = none → provider = "minimax") := by
        cases q.provider with
        | none => simp [defaultProvider]
        | some p => simp
      rw [hfill]
      simp
    · exact iff_of_true (voice_nova hq hv (by rw [he]; rfl) hwsEngine) (by simp)

theorem asChosen_iff (hq : Accepted reg q) (hweb : WebReady web) :
    AsChosen reg web q ↔ FillsAlike reg web q := by
  constructor
  · rintro ⟨hserves, hvoice⟩
    -- The language first, and then the voice if there is one.
    obtain ⟨hlang, hengine⟩ := (serves_iff hq hweb).mp hserves
    cases hv : q.voice with
    | none =>
      exact ⟨hlang, hengine, fun h => absurd hv h, fun h => absurd hv h,
        fun voice h => by rw [hv] at h; cases h⟩
    | some voice =>
      obtain ⟨hsame, hprovider, hdefault⟩ := (voice_iff hq hweb hv).mp (hvoice voice hv)
      refine ⟨hlang, hengine, fun _ => hsame, fun _ => hprovider, fun voice' h => ?_⟩
      rw [hv] at h
      obtain rfl := Option.some.inj h
      exact hdefault
  · rintro ⟨hlang, hengine, hsame, hprovider, hdefault⟩
    refine ⟨(serves_iff hq hweb).mpr ⟨hlang, hengine⟩, fun voice hv => ?_⟩
    have hne : q.voice ≠ none := by simp [hv]
    exact (voice_iff hq hweb hv).mpr ⟨hsame hne, hprovider hne, hdefault voice hv⟩

/-- For every accepted configuration of a link and every web configuration that the API reaches, the
session is the one that was validated exactly if the configuration fills in what validation
assumed. -/
theorem guestLink_iff [Json.Python] (reg : Registries) (minimaxModel : String) (phone : PyDict)
    (hphone : (phone.map Prod.fst).Nodup) (requests : List PutRequest) (web : PyMap.View)
    (q clean : LaunchConfig)
    (hweb : Shows (envFallback minimaxModel phone hphone)
      (Run.exec (Config.put (envFallback minimaxModel phone hphone)) noConfig requests) .web web)
    (h : validateLaunchConfig reg q = .ok clean) :
    AsChosen reg web clean ↔ FillsAlike reg web clean := by
  obtain ⟨rfl, hq⟩ := accepted_of_validateLaunchConfig h
  obtain ⟨web', hweb', hready⟩ := readyState_exec minimaxModel phone hphone requests
  rw [shows_iff] at hweb hweb'
  rw [hweb] at hweb'
  obtain rfl := Except.ok.inj hweb'
  exact asChosen_iff hq hready

/-- A registry with one voice in each table, and two for Nova Sonic. -/
def sampleRegistry : Registries where
  tools := []
  voicesFor provider :=
    if provider = "minimax" then ["Cantonese_GentleLady"]
    else if provider = "polly" then ["Zhiyu"]
    else ["tiffany", "matthew"]

/-- A request that makes the pipeline the engine of web calls. -/
def toPipeline : PutRequest :=
  { segment := .web, body := { engine := some (some "pipeline") }, scenarios := ["default"]
    readAt := "", writtenAt := "" }

/-- The web segment after this request. -/
def pipelineWeb : PyMap.View :=
  ((runtimeFallback.base .web).updateFields [("engine", .str "pipeline")]).view

theorem shows_pipelineWeb [Json.Python] :
    Shows runtimeFallback (Run.exec (Config.put runtimeFallback) noConfig [toPipeline]) .web
      pipelineWeb := by
  rw [shows_iff]
  rfl

/-- A link that names a voice of Nova Sonic and nothing else. -/
def matthewLink : LaunchConfig := { voice := some "matthew" }

/-- The voice of the link is replaced by a Cantonese one when the configuration runs a pipeline. -/
theorem matthewLink_replaced :
    letI := Json.samplePython
    validateLaunchConfig sampleRegistry matthewLink = .ok matthewLink ∧
      Shows runtimeFallback (Run.exec (Config.put runtimeFallback) noConfig [toPipeline]) .web
        pipelineWeb ∧
      (wsEndpoint sampleRegistry pipelineWeb matthewLink).voice =
        ⟨"minimax", "Cantonese_GentleLady"⟩ ∧
      ¬ AsChosen sampleRegistry pipelineWeb matthewLink := by
  let _ := Json.samplePython
  refine ⟨by rfl, shows_pipelineWeb, by rfl, fun h => ?_⟩
  have hvoice := h.voice "matthew" rfl
  have hid := congrArg Voice.table hvoice
  exact absurd hid (by decide)

/-- The same link under the configuration that the repository starts with. -/
theorem matthewLink_kept :
    AsChosen sampleRegistry (runtimeFallback.base .web).view matthewLink := by
  let _ := Json.samplePython
  refine (guestLink_iff sampleRegistry "speech-2.8-turbo" runtimeFallback.phone
    runtimeFallback.phone_nodup [] _ matthewLink matthewLink (shows_iff.mpr rfl) (by rfl)).mpr ?_
  constructor
  · rintro _ _ ⟨⟩
  · rintro _ _ ⟨⟩
  · exact fun _ _ => rfl
  · rintro _ ⟨⟩
  · rintro _ _ ⟨⟩

end Launch
