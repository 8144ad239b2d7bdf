import VoiceAgentPlatform.Talk.Selection

/-!
# The launch parameters of the Talk page

The page is opened with a launch query, which is layered over the persisted selection before that is
reconciled, and again over the parameters that come out of it.

* `seedPrevFromLaunch`, `launchParamsFromSelection`, `mergeDemoFirst`: as the source has them.
* `engineOf`, `langOf`, `providerOf`: what a launch comes down to.
* `shownVoice_eq_iff`, `lang_eq_iff`: when what a launch gives is what is shown.
* `coherent_iff`: when a call is started with what is shown.
-/

namespace Talk

/-! ### The code -/

/-- A launch query: `LAUNCH_QUERY_KEYS`. -/
structure LaunchQuery where
  scenario : Option String := none
  lang : Option String := none
  engine : Option String := none
  voice : Option String := none
  provider : Option String := none
  model : Option String := none
  minimaxModel : Option String := none
  deriving DecidableEq

/-- `if (c.f) p.f = c.f`. -/
def layer (value : Option String) (prev : Option PyVal) : Option PyVal :=
  match truthy value with
  | some s => some (.str s)
  | none => prev

/-- `seedPrevFromLaunch`. -/
def seedPrevFromLaunch (persisted : PrevSelection) (c : LaunchQuery) : PrevSelection :=
  let p := { persisted with
    engine := layer c.engine persisted.engine
    lang := layer c.lang persisted.lang
    provider := layer c.provider persisted.provider
    model := layer c.model persisted.model }
  -- `p.engine` is the engine of the launch, if there is one.
  if asText p.engine = some "nova-sonic" then { p with novaVoice := layer c.voice p.novaVoice }
  else { p with voice := layer c.voice p.voice }

/-- `launchParamsFromSelection`. -/
def launchParamsFromSelection (sel : Selection) (baseCfg : LaunchQuery) : LaunchQuery :=
  let p := { baseCfg with engine := sel.engine, lang := sel.lang }
  if sel.engine = some "nova-sonic" then
    { p with voice := sel.novaVoice, provider := none, model := none, minimaxModel := none }
  else { p with provider := sel.provider, voice := sel.voice, model := truthy (some sel.model) }

/-- `{ ...a, ...stripEmpty(b) }`, for one key. -/
def override (a b : Option String) : Option String := (truthy b).or a

/-- `mergeDemoFirst`. -/
def mergeDemoFirst (sessionParams demoCfg : LaunchQuery) : LaunchQuery where
  scenario := override sessionParams.scenario demoCfg.scenario
  lang := override sessionParams.lang demoCfg.lang
  engine := override sessionParams.engine demoCfg.engine
  voice := override sessionParams.voice demoCfg.voice
  provider := override sessionParams.provider demoCfg.provider
  model := override sessionParams.model demoCfg.model
  minimaxModel := override sessionParams.minimaxModel demoCfg.minimaxModel

/-- The selection that the page shows for a launch. -/
def seeded (config : TalkConfig) (persisted : PrevSelection) (cfg : LaunchQuery) : Selection :=
  reconcileSelection (seedPrevFromLaunch persisted cfg) config

/-- The parameters with which the call is started. -/
def started (config : TalkConfig) (persisted : PrevSelection) (cfg : LaunchQuery) : LaunchQuery :=
  mergeDemoFirst (launchParamsFromSelection (seeded config persisted cfg) {}) cfg

/-! ### What is to hold -/

/-- The voice that is shown: the Nova voice with the Nova engine. -/
def Selection.shownVoice (sel : Selection) : Option String :=
  if sel.engine = some "nova-sonic" then sel.novaVoice else sel.voice

/-- The voices of an engine, and with another engine than Nova those of the provider. -/
def voicesOf (config : TalkConfig) (p : LaunchQuery) : List String :=
  if p.engine = some "nova-sonic" then config.novaSonicVoices
  else voicesForProvLang config p.provider p.lang

/-- The parameters fit together, and are what is shown. -/
structure Coherent (config : TalkConfig) (sel : Selection) (p : LaunchQuery) : Prop where
  served : ∃ l ∈ langsForEngine config p.engine, p.lang = some l
  voiced : ∃ v ∈ voicesOf config p, p.voice = some v
  engine_eq : p.engine = sel.engine
  lang_eq : p.lang = sel.lang
  voice_eq : p.voice = sel.shownVoice

/-- The values of a launch are taken from the lists of the configuration. -/
structure LaunchQuery.From (config : TalkConfig) (cfg : LaunchQuery) : Prop where
  engine : ∀ e, cfg.engine = some e → e ∈ config.engines
  lang : ∀ l, cfg.lang = some l → l ∈ config.languages.map Language.id
  provider : ∀ p, cfg.provider = some p → p ∈ config.providers
  voice : ∀ v, cfg.voice = some v → v ∈ config.novaSonicVoices ∨
    ∃ p ∈ config.providers, v ∈ (config.voicesByProvider p).map ProviderVoice.id

/-- The text that is given, or else the one that was persisted. -/
def preferred (given : Option String) (persisted : Option PyVal) : Option String :=
  (truthy given).or (asText persisted)

/-- The engine, the language and the provider that a launch comes down to: of what is preferred, the
default and the first of the list, the first that the list has. -/
def engineOf (config : TalkConfig) (persisted : PrevSelection) (cfg : LaunchQuery) : Option String :=
  pick config.engines (preferred cfg.engine persisted.engine) config.defaultEngine

def langOf (config : TalkConfig) (persisted : PrevSelection) (cfg : LaunchQuery) : Option String :=
  pick (langsForEngine config (engineOf config persisted cfg)) (preferred cfg.lang persisted.lang)
    config.defaultLanguage

def providerOf (config : TalkConfig) (persisted : PrevSelection) (cfg : LaunchQuery) : Option String :=
  pick config.providers (preferred cfg.provider persisted.provider) config.defaultProvider

/-- The voice is the one that the page comes down to. With an engine that is only the default, or that
is not configured, the voice of the launch was put in the place of the other kind. -/
def VoiceFits (config : TalkConfig) (persisted : PrevSelection) (cfg : LaunchQuery) (v : String) : Prop :=
  let voices := voicesForProvLang config (providerOf config persisted cfg) (langOf config persisted cfg)
  let routedToNova := preferred cfg.engine persisted.engine = some "nova-sonic"
  if engineOf config persisted cfg = some "nova-sonic" then
    if routedToNova then v ∈ config.novaSonicVoices
    else pick config.novaSonicVoices (asText persisted.novaVoice) config.defaultNovaSonicVoice = some v
  else if routedToNova then
    pick voices (asText persisted.voice)
      (truthy (config.defaultVoices (keyText (providerOf config persisted cfg)))) = some v
  else v ∈ voices

/-- A language that the launch gives is served by its engine, and a voice that it gives is a voice of it. -/
structure Fits (config : TalkConfig) (persisted : PrevSelection) (cfg : LaunchQuery) : Prop where
  lang : ∀ l, truthy cfg.lang = some l → l ∈ langsForEngine config (engineOf config persisted cfg)
  voice : ∀ v, truthy cfg.voice = some v → VoiceFits config persisted cfg v

/-! ### The selection of a launch -/

theorem asText_layer (value : Option String) (prev : Option PyVal) :
    asText (layer value prev) = preferred value prev := by
  rw [layer, preferred]
  cases truthy value with
  | none => rfl
  | some s => rfl

section Seeded

variable (config : TalkConfig) (persisted : PrevSelection) (cfg : LaunchQuery)

theorem seedPrevFromLaunch_engine :
    (seedPrevFromLaunch persisted cfg).engine = layer cfg.engine persisted.engine := by
  rw [seedPrevFromLaunch]
  split_ifs <;> rfl

theorem seedPrevFromLaunch_lang :
    (seedPrevFromLaunch persisted cfg).lang = layer cfg.lang persisted.lang := by
  rw [seedPrevFromLaunch]
  split_ifs <;> rfl

theorem seedPrevFromLaunch_provider :
    (seedPrevFromLaunch persisted cfg).provider = layer cfg.provider persisted.provider := by
  rw [seedPrevFromLaunch]
  split_ifs <;> rfl

/-- Where the voice of a launch is put. -/
theorem seedPrevFromLaunch_voices :
    ((seedPrevFromLaunch persisted cfg).novaVoice, (seedPrevFromLaunch persisted cfg).voice) =
      if preferred cfg.engine persisted.engine = some "nova-sonic" then
        (layer cfg.voice persisted.novaVoice, persisted.voice)
      else (persisted.novaVoice, layer cfg.voice persisted.voice) := by
  rw [← asText_layer, seedPrevFromLaunch]
  split_ifs <;> rfl

theorem seeded_engine : (seeded config persisted cfg).engine = engineOf config persisted cfg := by
  rw [seeded, reconcileSelection, engineOf, seedPrevFromLaunch_engine, asText_layer]

theorem seeded_lang : (seeded config persisted cfg).lang = langOf config persisted cfg := by
  rw [seeded, reconcileSelection, langOf, engineOf, seedPrevFromLaunch_engine, seedPrevFromLaunch_lang,
    asText_layer, asText_layer]

theorem seeded_provider : (seeded config persisted cfg).provider = providerOf config persisted cfg := by
  rw [seeded, reconcileSelection, providerOf, seedPrevFromLaunch_provider, asText_layer]

end Seeded

theorem preferred_of_given {value : Option String} {s : String} (h : truthy value = some s)
    (prev : Option PyVal) : preferred value prev = some s := by
  rw [preferred, h, Option.some_or]

theorem seeded_novaVoice (config : TalkConfig) (persisted : PrevSelection) (cfg : LaunchQuery) :
    (seeded config persisted cfg).novaVoice = pick config.novaSonicVoices
      (if preferred cfg.engine persisted.engine = some "nova-sonic" then
        preferred cfg.voice persisted.novaVoice else asText persisted.novaVoice)
      config.defaultNovaSonicVoice := by
  have hvoices := congrArg Prod.fst (seedPrevFromLaunch_voices persisted cfg)
  rw [seeded, reconcileSelection]
  simp only at hvoices ⊢
  rw [hvoices]
  split_ifs
  · rw [asText_layer]
  · rfl

theorem seeded_voice (config : TalkConfig) (persisted : PrevSelection) (cfg : LaunchQuery) :
    (seeded config persisted cfg).voice =
      pick (voicesForProvLang config (providerOf config persisted cfg) (langOf config persisted cfg))
      (if preferred cfg.engine persisted.engine = some "nova-sonic" then asText persisted.voice
        else preferred cfg.voice persisted.voice)
      (truthy (config.defaultVoices (keyText (providerOf config persisted cfg)))) := by
  have hvoices := congrArg Prod.snd (seedPrevFromLaunch_voices persisted cfg)
  rw [← seeded_lang, ← seeded_provider, seeded, reconcileSelection]
  simp only at hvoices ⊢
  rw [hvoices]
  split_ifs
  · rfl
  · rw [asText_layer]

section Full

variable {config : TalkConfig} (hc : config.Full) (persisted : PrevSelection) (cfg : LaunchQuery)

include hc

theorem voices_ne_nil :
    voicesForProvLang config (providerOf config persisted cfg) (langOf config persisted cfg) ≠ [] := by
  obtain ⟨p, hp, hprovider⟩ := exists_mem_pick hc.providers
    (preferred cfg.provider persisted.provider) config.defaultProvider
  rw [providerOf, hprovider]
  exact voicesForProvLang_ne_nil (hc.voices p hp) _

/-- The voice of a launch is shown exactly if it fits. -/
theorem shownVoice_eq_iff {v : String} (hv : truthy cfg.voice = some v) :
    (seeded config persisted cfg).shownVoice = some v ↔ VoiceFits config persisted cfg v := by
  rw [Selection.shownVoice, seeded_engine, seeded_novaVoice, seeded_voice, VoiceFits,
    preferred_of_given hv, preferred_of_given hv]
  split_ifs
  · exact pick_eq_self_iff hc.novaSonicVoices _
  · exact Iff.rfl
  · exact Iff.rfl
  · exact pick_eq_self_iff (voices_ne_nil hc persisted cfg) _

/-- The language of a launch is shown exactly if its engine serves it. -/
theorem lang_eq_iff {l : String} (hl : truthy cfg.lang = some l) :
    (seeded config persisted cfg).lang = some l ↔
      l ∈ langsForEngine config (engineOf config persisted cfg) := by
  obtain ⟨e, he, hengine⟩ := exists_mem_pick hc.engines
    (preferred cfg.engine persisted.engine) config.defaultEngine
  have hlangs : langsForEngine config (engineOf config persisted cfg) ≠ [] := by
    rw [engineOf, hengine]
    exact hc.langs e he
  rw [seeded_lang, langOf, preferred_of_given hl]
  exact pick_eq_self_iff hlangs _

end Full

/-! ### The parameters of a launch -/

theorem truthy_eq_some_iff {value : Option String} {s : String} :
    truthy value = some s ↔ value = some s ∧ s ≠ "" := by
  rw [truthy, Option.filter_eq_some_iff, decide_eq_true_eq]

theorem override_eq_self_iff {a b : Option String} :
    override a b = a ↔ ∀ s, truthy b = some s → a = some s := by
  rw [override]
  cases truthy b with
  | none => simp
  | some s => simp [eq_comm]

section Started

variable {config : TalkConfig} (persisted : PrevSelection) {cfg : LaunchQuery} (hcfg : cfg.From config)

theorem started_lang (config : TalkConfig) (cfg : LaunchQuery) :
    (started config persisted cfg).lang = override (seeded config persisted cfg).lang cfg.lang := by
  rw [started, launchParamsFromSelection]
  split_ifs <;> rfl

theorem started_voice (config : TalkConfig) (cfg : LaunchQuery) :
    (started config persisted cfg).voice =
      override (seeded config persisted cfg).shownVoice cfg.voice := by
  rw [started, launchParamsFromSelection, Selection.shownVoice]
  split_ifs <;> rfl

include hcfg

/-- The engine is that of the selection, since a launch gives engines of the configuration only. -/
theorem started_engine : (started config persisted cfg).engine = (seeded config persisted cfg).engine := by
  have hoverride : (started config persisted cfg).engine =
      override (seeded config persisted cfg).engine cfg.engine := by
    rw [started, launchParamsFromSelection]
    split_ifs <;> rfl
  rw [hoverride, override_eq_self_iff]
  intro e he
  rw [seeded_engine, engineOf, preferred_of_given he]
  exact pick_of_mem (hcfg.engine e (truthy_eq_some_iff.mp he).1) _

/-- So is the provider, with another engine than Nova. -/
theorem started_provider (hengine : (seeded config persisted cfg).engine ≠ some "nova-sonic") :
    (started config persisted cfg).provider = (seeded config persisted cfg).provider := by
  have hoverride : (started config persisted cfg).provider =
      override (seeded config persisted cfg).provider cfg.provider := by
    rw [started, launchParamsFromSelection, if_neg hengine]
    rfl
  rw [hoverride, override_eq_self_iff]
  intro p hp
  rw [seeded_provider, providerOf, preferred_of_given hp]
  exact pick_of_mem (hcfg.provider p (truthy_eq_some_iff.mp hp).1) _

end Started

/-- The shown voice of a valid selection is one of the voices of its engine. -/
theorem Selection.Valid.shownVoice {config : TalkConfig} {sel : Selection} (h : sel.Valid config) :
    ∃ v ∈ (if sel.engine = some "nova-sonic" then config.novaSonicVoices
      else voicesForProvLang config sel.provider sel.lang), sel.shownVoice = some v := by
  rw [Selection.shownVoice]
  split_ifs
  · exact h.novaVoice
  · exact h.voice

/-- A call is started with what the page shows, and with parameters that fit together, exactly if the
language and the voice of the launch fit. -/
theorem coherent_iff {config : TalkConfig} (hc : config.Full) (persisted : PrevSelection)
    {cfg : LaunchQuery} (hcfg : cfg.From config) :
    Coherent config (seeded config persisted cfg) (started config persisted cfg) ↔
      Fits config persisted cfg := by
  have hvalid : (seeded config persisted cfg).Valid config := reconcileSelection_valid hc _
  constructor
  · intro h
    refine ⟨fun l hl => ?_, fun v hv => ?_⟩
    · -- What the launch gives overrides, so it has to be what is shown.
      have hlang := h.lang_eq
      rw [started_lang, override_eq_self_iff] at hlang
      exact (lang_eq_iff hc persisted cfg hl).mp (hlang l hl)
    · have hvoice := h.voice_eq
      rw [started_voice, override_eq_self_iff] at hvoice
      exact (shownVoice_eq_iff hc persisted cfg hv).mp (hvoice v hv)
  · intro h
    have hengine := started_engine persisted hcfg
    have hlang : (started config persisted cfg).lang = (seeded config persisted cfg).lang := by
      rw [started_lang, override_eq_self_iff]
      exact fun l hl => (lang_eq_iff hc persisted cfg hl).mpr (h.lang l hl)
    have hvoice : (started config persisted cfg).voice = (seeded config persisted cfg).shownVoice := by
      rw [started_voice, override_eq_self_iff]
      exact fun v hv => (shownVoice_eq_iff hc persisted cfg hv).mpr (h.voice v hv)
    -- The voices of the parameters are those of the selection, provider included.
    have hvoices : voicesOf config (started config persisted cfg) =
        if (seeded config persisted cfg).engine = some "nova-sonic" then config.novaSonicVoices
        else voicesForProvLang config (seeded config persisted cfg).provider
          (seeded config persisted cfg).lang := by
      rw [voicesOf, hengine, hlang]
      split_ifs with hnova
      · rfl
      · rw [started_provider persisted hcfg hnova]
    refine ⟨?_, ?_, hengine, hlang, hvoice⟩
    · rw [hengine, hlang]
      exact hvalid.lang
    · rw [hvoices, hvoice]
      exact hvalid.shownVoice

def novaInChinese : LaunchQuery := { engine := some "nova-sonic", lang := some "zh-CN" }

theorem novaInChinese_from : novaInChinese.From twoEngines where
  engine e he := by cases he; decide
  lang l hl := by cases hl; decide
  provider p hp := by cases hp
  voice v hv := by cases hv

/-- Nova and Chinese: English is shown, and Chinese is sent. -/
theorem novaInChinese_incoherent : twoEngines.Full ∧ novaInChinese.From twoEngines ∧
    ¬ Coherent twoEngines (seeded twoEngines {} novaInChinese) (started twoEngines {} novaInChinese) :=
  ⟨twoEngines_full, novaInChinese_from, fun h => absurd h.lang_eq (by decide)⟩

theorem english_from :
    LaunchQuery.From twoEngines { engine := some "nova-sonic", lang := some "en-US" } where
  engine e he := by cases he; decide
  lang l hl := by cases hl; decide
  provider p hp := by cases hp
  voice v hv := by cases hv

theorem coherent_iff_english :
    Coherent twoEngines (seeded twoEngines {} { engine := some "nova-sonic", lang := some "en-US" })
      (started twoEngines {} { engine := some "nova-sonic", lang := some "en-US" }) := by
  refine (coherent_iff twoEngines_full {} english_from).mpr ⟨fun l hl => ?_, fun v hv => ?_⟩
  · obtain rfl : "en-US" = l := Option.some.inj (truthy_eq_some_iff.mp hl).1
    decide
  · cases (truthy_eq_some_iff.mp hv).1

end Talk
