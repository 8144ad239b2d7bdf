import VoiceAgentPlatform.Lib.PyVal

/-!
# The selection of the Talk page

A selection, which may be stale, is reconciled with the configuration field by field: a field that is not
in its list becomes the default if that is in the list, and the first of the list otherwise.

* `langsForEngine`, `voicesForProvLang`, `reconcileSelection`: as the source has them.
* `pick`: what every field has in common; it returns a member of a list that is not empty.
* `reconcileSelection_valid`: every field of the result is in its list.
* `reconcileSelection_toPrev`: a selection whose fields are in their lists is kept.
* `reconcileSelection_retraction`: reconciling is a retraction onto the valid selections.
-/

namespace Talk

/-! ### The code -/

/-- A language of the configuration, with the engines that serve it. -/
structure Language where
  id : String
  engines : List String

/-- A voice of a provider. -/
structure ProviderVoice where
  id : String
  language : Option String

/-- What the page reads of `/api/config`; the lists of the engines, the providers, the models and the Nova
voices are those of the ids. -/
structure TalkConfig where
  engines : List String
  languages : List Language
  providers : List String
  voicesByProvider : String → List ProviderVoice
  novaSonicVoices : List String
  models : List String
  defaultEngine : Option String
  defaultLanguage : Option String
  defaultProvider : Option String
  defaultVoices : String → Option String
  defaultNovaSonicVoice : Option String

/-- A selection as it was persisted, with any values. -/
structure PrevSelection where
  engine : Option PyVal := none
  lang : Option PyVal := none
  provider : Option PyVal := none
  voice : Option PyVal := none
  novaVoice : Option PyVal := none
  model : Option PyVal := none

/-- A reconciled selection; `none` is `undefined`. -/
structure Selection where
  engine : Option String
  lang : Option String
  provider : Option String
  voice : Option String
  novaVoice : Option String
  model : String
  deriving DecidableEq

/-- `o[key]` for a key that may be undefined. -/
def keyText (key : Option String) : String := key.getD "undefined"

/-- `langsForEngine`, by the ids of the languages. -/
def langsForEngine (config : TalkConfig) (engine : Option String) : List String :=
  (config.languages.filter fun l => engine.any (· ∈ l.engines)).map Language.id

/-- `voicesForProvLang`, by the ids of the voices. -/
def voicesForProvLang (config : TalkConfig) (provider lang : Option String) : List String :=
  let all := config.voicesByProvider (keyText provider)
  let exact := all.filter fun v => v.language = lang
  (if exact ≠ [] then exact else all).map ProviderVoice.id

/-- The text of a value, if it is one. -/
def asText : Option PyVal → Option String
  | some (.str s) => some s
  | _ => none

/-- `list.includes(value)`. -/
def includes (list : List String) (value : Option String) : Bool := value.any (· ∈ list)

/-- The value if the list has it, otherwise the default if the list has that, otherwise the first. -/
def pick (list : List String) (value default : Option String) : Option String :=
  if includes list value then value else if includes list default then default else list.head?

/-- A text that is not empty. -/
def truthy (value : Option String) : Option String := value.filter (· ≠ "")

/-- `reconcileSelection`. -/
def reconcileSelection (prev : PrevSelection) (c : TalkConfig) : Selection :=
  let engine := pick c.engines (asText prev.engine) c.defaultEngine
  let lang := pick (langsForEngine c engine) (asText prev.lang) c.defaultLanguage
  let provider := pick c.providers (asText prev.provider) c.defaultProvider
  let voice := pick (voicesForProvLang c provider lang) (asText prev.voice)
    (truthy (c.defaultVoices (keyText provider)))
  let novaVoice := pick c.novaSonicVoices (asText prev.novaVoice) c.defaultNovaSonicVoice
  let model := if includes c.models (asText prev.model) then (asText prev.model).getD "" else ""
  { engine, lang, provider, voice, novaVoice, model }

/-- A selection as the previous one of the next reconciliation. -/
def Selection.toPrev (sel : Selection) : PrevSelection where
  engine := sel.engine.map .str
  lang := sel.lang.map .str
  provider := sel.provider.map .str
  voice := sel.voice.map .str
  novaVoice := sel.novaVoice.map .str
  model := some (.str sel.model)

@[simp] theorem asText_str (s : String) : asText (some (.str s)) = some s := rfl

@[simp] theorem asText_map_str (value : Option String) : asText (value.map .str) = value := by
  cases value with
  | none => rfl
  | some s => rfl

/-! ### Picking from a list -/

theorem includes_some {list : List String} {s : String} : includes list (some s) = true ↔ s ∈ list := by
  rw [includes, Option.any_some, decide_eq_true_eq]

theorem exists_of_includes {list : List String} {value : Option String} (h : includes list value = true) :
    ∃ s ∈ list, value = some s := by
  cases value with
  | none => cases h
  | some s => exact ⟨s, includes_some.mp h, rfl⟩

/-- A list that is not empty is picked from. -/
theorem exists_mem_pick {list : List String} (hlist : list ≠ []) (value default : Option String) :
    ∃ s ∈ list, pick list value default = some s := by
  rw [pick]
  split_ifs with hvalue hdefault
  · exact exists_of_includes hvalue
  · exact exists_of_includes hdefault
  · obtain ⟨s, rest, rfl⟩ := List.exists_cons_of_ne_nil hlist
    exact ⟨s, List.mem_cons_self, rfl⟩

/-- What the list has is kept. -/
theorem pick_of_mem {list : List String} {s : String} (h : s ∈ list) (default : Option String) :
    pick list (some s) default = some s := by
  rw [pick, if_pos (includes_some.mpr h)]

/-- A given value is picked exactly if the list has it. -/
theorem pick_eq_self_iff {list : List String} (hlist : list ≠ []) {s : String} (default : Option String) :
    pick list (some s) default = some s ↔ s ∈ list := by
  refine ⟨fun h => ?_, fun h => pick_of_mem h default⟩
  obtain ⟨t, ht, heq⟩ := exists_mem_pick hlist (some s) default
  rw [h] at heq
  exact Option.some.inj heq ▸ ht

/-! ### Validity -/

/-- The lists of a configuration are not empty, and every engine serves a language. -/
structure TalkConfig.Full (c : TalkConfig) : Prop where
  engines : c.engines ≠ []
  providers : c.providers ≠ []
  voices : ∀ p ∈ c.providers, c.voicesByProvider p ≠ []
  novaSonicVoices : c.novaSonicVoices ≠ []
  langs : ∀ e ∈ c.engines, langsForEngine c (some e) ≠ []

/-- Every field of a selection is in its list. -/
structure Selection.Valid (c : TalkConfig) (sel : Selection) : Prop where
  engine : ∃ e ∈ c.engines, sel.engine = some e
  lang : ∃ l ∈ langsForEngine c sel.engine, sel.lang = some l
  provider : ∃ p ∈ c.providers, sel.provider = some p
  voice : ∃ v ∈ voicesForProvLang c sel.provider sel.lang, sel.voice = some v
  novaVoice : ∃ v ∈ c.novaSonicVoices, sel.novaVoice = some v
  model : sel.model = "" ∨ sel.model ∈ c.models

theorem voicesForProvLang_ne_nil {c : TalkConfig} {provider : String}
    (h : c.voicesByProvider provider ≠ []) (lang : Option String) :
    voicesForProvLang c (some provider) lang ≠ [] := by
  rw [voicesForProvLang, Ne, List.map_eq_nil_iff]
  split_ifs with hexact
  · exact hexact
  · exact h

/-- What is reconciled is valid, whatever it was before. -/
theorem reconcileSelection_valid {c : TalkConfig} (hc : c.Full) (prev : PrevSelection) :
    (reconcileSelection prev c).Valid c := by
  obtain ⟨e, he, hengine⟩ := exists_mem_pick hc.engines (asText prev.engine) c.defaultEngine
  obtain ⟨p, hp, hprovider⟩ := exists_mem_pick hc.providers (asText prev.provider) c.defaultProvider
  -- The lists that depend on the engine and the provider are not empty either.
  have hlangs := hc.langs e he
  have hvoices := voicesForProvLang_ne_nil (hc.voices p hp)
  refine ⟨⟨e, he, hengine⟩, ?_, ⟨p, hp, hprovider⟩, ?_, exists_mem_pick hc.novaSonicVoices _ _, ?_⟩
  · simp only [reconcileSelection, hengine]
    exact exists_mem_pick hlangs _ _
  · simp only [reconcileSelection, hprovider]
    exact exists_mem_pick (hvoices _) _ _
  · simp only [reconcileSelection]
    split_ifs with hmodel
    · obtain ⟨m, hm, heq⟩ := exists_of_includes hmodel
      rw [heq]
      exact Or.inr hm
    · exact Or.inl rfl

/-- A valid selection is returned as it was. -/
theorem reconcileSelection_toPrev {c : TalkConfig} {sel : Selection} (h : sel.Valid c) :
    reconcileSelection sel.toPrev c = sel := by
  obtain ⟨engine, lang, provider, voice, novaVoice, model⟩ := sel
  obtain ⟨⟨e, he, rfl⟩, ⟨l, hl, rfl⟩, ⟨p, hp, rfl⟩, ⟨v, hv, rfl⟩, ⟨n, hn, rfl⟩, hmodel⟩ := h
  dsimp only at hl hv hmodel
  -- Each field is kept, so the list of the next one is that of the selection.
  have hkept : (if includes c.models (some model) then model else "") = model := by
    rcases hmodel with hempty | hmem
    · obtain rfl : model = "" := hempty
      exact ite_self ""
    · exact if_pos (includes_some.mpr hmem)
  simp only [reconcileSelection, Selection.toPrev, asText_map_str, pick_of_mem he, pick_of_mem hl,
    pick_of_mem hp, pick_of_mem hv, pick_of_mem hn, asText_str, Option.getD_some]
  exact congrArg (Selection.mk (some e) (some l) (some p) (some v) (some n)) hkept

/-- Reconciling is a retraction onto the valid selections. -/
theorem reconcileSelection_retraction {c : TalkConfig} (hc : c.Full) :
    (∀ prev, (reconcileSelection prev c).Valid c) ∧
      (∀ sel : Selection, sel.Valid c → reconcileSelection sel.toPrev c = sel) ∧
      ∀ prev, reconcileSelection (reconcileSelection prev c).toPrev c = reconcileSelection prev c := by
  have hvalid (prev : PrevSelection) := reconcileSelection_valid hc prev
  refine ⟨hvalid, fun sel hsel => reconcileSelection_toPrev hsel, fun prev => ?_⟩
  exact reconcileSelection_toPrev (hvalid prev)

/-- Two engines; Chinese is only served by the pipeline. -/
def twoEngines : TalkConfig where
  engines := ["pipeline", "nova-sonic"]
  languages := [⟨"zh-CN", ["pipeline"]⟩, ⟨"en-US", ["pipeline", "nova-sonic"]⟩]
  providers := ["polly"]
  voicesByProvider _ := [⟨"Zhiyu", some "zh-CN"⟩, ⟨"Joanna", some "en-US"⟩]
  novaSonicVoices := ["tiffany"]
  models := []
  defaultEngine := some "pipeline"
  defaultLanguage := some "zh-CN"
  defaultProvider := some "polly"
  defaultVoices _ := some "Zhiyu"
  defaultNovaSonicVoice := some "tiffany"

theorem twoEngines_full : twoEngines.Full where
  engines := by decide
  providers := by decide
  voices _ _ := by simp [twoEngines]
  novaSonicVoices := by decide
  langs := by decide

/-- A stale selection: Chinese is not served by Nova. -/
theorem reconcileSelection_retraction_stale :
    let prev : PrevSelection := { engine := some (.str "nova-sonic"), lang := some (.str "zh-CN") }
    (reconcileSelection prev twoEngines).Valid twoEngines ∧
      reconcileSelection (reconcileSelection prev twoEngines).toPrev twoEngines =
        reconcileSelection prev twoEngines :=
  ⟨(reconcileSelection_retraction twoEngines_full).1 _,
    (reconcileSelection_retraction twoEngines_full).2.2 _⟩

end Talk
