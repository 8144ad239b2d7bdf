import VoiceAgentPlatform.Demos.PatchFrame

/-!
# The engine, the provider and the voice of a demo

Requests on one demo, one after the other, each of them alone with the table. A request is validated
against a mixture of its body and the demo, and the voice is looked at only if the body has one.

* `InTables`: the voice of a triple is in the table that its engine and its provider select.
* `DemoState`, `patchAlone`: the cache and the table, and what a request makes of them.
* `VoiceFollows`: the request keeps the voice in the table of the engine and the provider.
* `triples_always_iff`: the triple stays consistent exactly as long as every request does this.
-/

namespace Demos

open Async KeyedTable Edit Raising

/-- A voice is in the table of the provider, for null that of the default one. -/
def InProvider (voices : String → List String) (provider : PyVal) (v : String) : Prop :=
  match provider with
  | .none => v ∈ voices defaultProvider
  | .str p => p ∈ ttsProviders ∧ v ∈ voices p
  | _ => False

/-- The voice is null, or it is in the table of the engine: that of Nova Sonic, where aliases count,
that of the provider for a pipeline, and any of them for an engine that is not set. -/
def InTables (voices : String → List String) (engine provider voice : PyVal) : Prop :=
  match voice with
  | .none => True
  | .str v =>
    if isText engine "nova-sonic" then novaSonicVoice v ∈ voices "nova-sonic"
    else if isText engine "pipeline" then InProvider voices provider v
    else novaSonicVoice v ∈ voices "nova-sonic" ∨ ∃ p ∈ ttsProviders, v ∈ voices p
  | _ => False

instance (voices : String → List String) (v : String) :
    (provider : PyVal) → Decidable (InProvider voices provider v)
  | .none => inferInstanceAs (Decidable (v ∈ voices defaultProvider))
  | .str p => inferInstanceAs (Decidable (p ∈ ttsProviders ∧ v ∈ voices p))
  | .bool _ | .int _ | .float _ | .decimal _ | .nan | .infinity _ | .list _ | .dict _ => isFalse id

instance (voices : String → List String) (engine provider : PyVal) :
    (voice : PyVal) → Decidable (InTables voices engine provider voice)
  | .none => isTrue trivial
  | .str v =>
    inferInstanceAs (Decidable (if isText engine "nova-sonic" then _ else
      if isText engine "pipeline" then InProvider voices provider v else _))
  | .bool _ | .int _ | .float _ | .decimal _ | .nan | .infinity _ | .list _ | .dict _ => isFalse id

/-- The triple of a demo is consistent. -/
def Consistent (voices : String → List String) (demo : PyDict) : Prop :=
  InTables voices (demo.get "engine") (demo.get "provider") (demo.get "voice")

/-- The value of a field after a body that may have it. -/
def patched (field : Option (Option String)) (old : PyVal) : PyVal := (field.map strOrNone).getD old

/-! ### The merged demo -/

/-- A key of the triple that is assigned. -/
theorem get_of_assigned {field : Option (Option String)} {key : String} {demo merged : PyDict}
    (h : Assigned field strOrNone key demo merged) :
    merged.get key = patched field (demo.get key) := by
  rw [PyDict.get, h, patched]
  cases field with
  | none => rfl
  | some v => rfl

/-- The triple of a merged demo. -/
theorem triple_of_patchDemo {reg : Registries} {demoId : String} {demo merged : PyDict}
    {body : DemoPatchBody} (h : patchDemo reg demoId demo body = .ok merged) :
    merged.get "engine" = patched body.engine (demo.get "engine") ∧
      merged.get "provider" = patched body.provider (demo.get "provider") ∧
      merged.get "voice" = patched body.voice (demo.get "voice") := by
  have hframe := patchFrame_of_patchDemo h
  have hbase {k : String} (hid : k ≠ "id") (hdir : k ≠ "_dir") :
      (mergeBase demoId demo).get k = demo.get k := by
    rw [PyDict.get, get?_mergeBase hid hdir]
    rfl
  refine ⟨?_, ?_, ?_⟩
  · rw [get_of_assigned hframe.engine, hbase (by decide) (by decide)]
  · rw [get_of_assigned hframe.provider, hbase (by decide) (by decide)]
  · rw [get_of_assigned hframe.voice, hbase (by decide) (by decide)]

/-! ### What validation ensures -/

/-- A voice that passes the check of a provider is in its table, or it is the default voice. -/
theorem mem_of_voiceInProviderTable {reg : Registries} {v provider : String}
    (h : voiceInProviderTable reg v provider = true) (hv : v ≠ defaultMinimaxVoice) :
    provider ∈ ttsProviders ∧ v ∈ reg.voicesFor provider := by
  unfold voiceInProviderTable at h
  split_ifs at h with hminimax hpolly
  · subst hminimax
    rw [decide_eq_true_eq, resolveMinimaxVoice] at h
    split_ifs at h with hmem
    · exact ⟨by simp [ttsProviders], List.contains_iff_mem.mp hmem⟩
    · exact absurd h.symm hv
  · subst hpolly
    exact ⟨by simp [ttsProviders], List.contains_iff_mem.mp h⟩

/-- A voice that an accepted body sets is in the tables of the merged demo, unless it is the default
voice. -/
theorem inTables_of_validate {reg : Registries} {body : DemoPatchBody} {engine provider : PyVal}
    {v : String} (h : validateEngineVoicePatch reg body engine provider = .ok ())
    (hbody : body.voice = some (some v)) (hv : v ≠ defaultMinimaxVoice) :
    InTables reg.voicesFor (patched body.engine engine) (patched body.provider provider) (.str v) := by
  obtain ⟨⟨⟩, -, h⟩ := ok_of_bind h
  obtain ⟨⟨⟩, -, h⟩ := ok_of_bind h
  simp only [hbody] at h
  change (if isText (patched body.engine engine) "nova-sonic" = true then _ else _) = _ at h
  show if isText (patched body.engine engine) "nova-sonic" = true then _ else _
  -- The engine after the merge selects the table, as in the definition.
  by_cases hnova : isText (patched body.engine engine) "nova-sonic" = true
  · rw [if_pos hnova] at h ⊢
    split_ifs at h with hmem
    · exact List.contains_iff_mem.mp hmem
    · cases h
  · rw [if_neg hnova] at h ⊢
    change (if isText (patched body.engine engine) "pipeline" = true then _ else _) = _ at h
    by_cases hpipeline : isText (patched body.engine engine) "pipeline" = true
    · rw [if_pos hpipeline] at h ⊢
      simp only [show (body.provider.map strOrNone).getD provider = patched body.provider provider
        from rfl] at h
      cases hprovider : patched body.provider provider with
      | none =>
        simp only [hprovider] at h
        split_ifs at h with htable
        · exact (mem_of_voiceInProviderTable htable hv).2
        · cases h
      | str p =>
        simp only [hprovider] at h
        split_ifs at h with htable
        · exact mem_of_voiceInProviderTable htable hv
        · cases h
      | _ =>
        simp only [hprovider] at h
        cases h
    · rw [if_neg hpipeline] at h ⊢
      -- Without an engine every table will do.
      split_ifs at h with hany
      · rcases Bool.or_eq_true_iff.mp hany with hmem | hmem
        · exact Or.inl (List.contains_iff_mem.mp hmem)
        · obtain ⟨p, -, htable⟩ := List.any_eq_true.mp hmem
          exact Or.inr ⟨p, mem_of_voiceInProviderTable htable hv⟩
      · cases h

/-! ### Requests one after the other -/

variable {slot : String ↪ ℕ}

/-- The cache and the table. -/
structure DemoState (slot : String ↪ ℕ) where
  memory : DemoMemory
  table : DemoTable slot

/-- A request, with the ids of the tool registry when it is handled. -/
structure EditRequest where
  tools : List String
  body : DemoPatchBody

/-- The registries that a request meets, for voices that do not change. -/
def EditRequest.registries (voices : String → List String) (request : EditRequest) : Registries :=
  { tools := request.tools, voicesFor := voices }

/-- What `admin_demo_patch` leaves when no other request interferes. -/
def patchAlone (voices : String → List String) (demoId : String) (s : DemoState slot)
    (request : EditRequest) : DemoState slot :=
  let out := execAlone (adminDemoPatch (request.registries voices) demoId request.body : DemoProg slot _)
    s.memory s.table
  { memory := out.2.1, table := out.2.2 }

/-- The demo that a request finds. -/
def DemoState.demo? (s : DemoState slot) (demoId : String) : Option PyDict := get s.memory demoId

/-- A request that is rejected leaves everything, and one that is accepted serves and stores the merged
demo. -/
theorem patchAlone_cases (voices : String → List String) (demoId : String) (s : DemoState slot)
    (request : EditRequest) :
    (patchAlone voices demoId s request = s ∧
      ∀ demo merged, s.demo? demoId = some demo → demo ≠ [] →
        patchDemo (request.registries voices) demoId demo request.body ≠ .ok merged) ∨
    ∃ demo merged, s.demo? demoId = some demo ∧ demo ≠ [] ∧
      patchDemo (request.registries voices) demoId demo request.body = .ok merged ∧
      (patchAlone voices demoId s request).demo? demoId = some (deserialize (serialize merged)) ∧
      (patchAlone voices demoId s request).table.get? demoId = some (serialize merged) := by
  unfold patchAlone adminDemoPatch DemoState.demo?
  simp only [Prog.get_eq, Prog.bind_eq, Prog.bind_read, Prog.bind_done, execAlone_read]
  cases hget : get s.memory demoId with
  | none => exact Or.inl ⟨rfl, fun _ _ hdemo => by cases hdemo⟩
  | some demo =>
    have hid : demoId ≠ "" := by
      rintro rfl
      cases hget
    by_cases hempty : demo = []
    · subst hempty
      refine Or.inl ⟨rfl, ?_⟩
      rintro _ _ ⟨⟩ hne
      exact absurd rfl hne
    · have hisEmpty : demo.isEmpty = false := by simpa using hempty
      simp only [hisEmpty, Bool.false_eq_true, if_false]
      cases hpatch : patchDemo (request.registries voices) demoId demo request.body with
      | error e =>
        refine Or.inl ⟨rfl, ?_⟩
        rintro _ merged ⟨⟩ _
        rw [hpatch]
        intro heq
        cases heq
      | ok merged =>
        have hmerged := get_id_of_patchDemo hpatch
        have hkey := get_id_serialize hmerged
        have htruthy : (merged.get "id").truthy = true := by
          rw [hmerged]
          simpa [PyVal.truthy] using hid
        -- The rescan finds the demo that the put has just stored.
        have htable : ((s.table.put (serialize merged)).items.find? fun item =>
            itemId item = demoId) = some (serialize merged) := by
          have hput : (s.table.put (serialize merged)).get? demoId = some (serialize merged) := by
            rw [Table.get?_put]
            exact if_pos (by show demoId = itemId _; rw [itemId, hkey])
          exact hput
        have hcache : (loadItems (s.table.put (serialize merged)).items).get? demoId =
            some (deserialize (serialize merged)) := by
          rw [get?_loadItems _ hid, htable]
          rfl
        refine Or.inr ⟨demo, merged, rfl, hempty, hpatch, ?_, ?_⟩
        · simp [put, hkey, htruthy, rescan, get, hid, hcache]
        · simp [put, hkey, htruthy, rescan, get, hid, hcache]
          exact htable

/-- What validation looks at of a value: whether it is null, and its text. -/
def kind : PyVal → Option (Option String)
  | .none => some none
  | .str s => some (some s)
  | _ => none

theorem isText_eq_kind (w : PyVal) (s : String) : isText w s = decide (kind w = some (some s)) := by
  cases w <;> simp [isText, kind]

theorem inProvider_congr {voices : String → List String} {p p' : PyVal} (hp : kind p = kind p')
    (v : String) : InProvider voices p v ↔ InProvider voices p' v := by
  cases p <;> cases p' <;> first
    | rfl
    | (cases hp; rfl)
    | cases hp

/-- Only what validation looks at matters. -/
theorem inTables_congr {voices : String → List String} {e e' p p' v v' : PyVal} (he : kind e = kind e')
    (hp : kind p = kind p') (hv : kind v = kind v') :
    InTables voices e p v ↔ InTables voices e' p' v' := by
  have htext (s : String) : isText e s = isText e' s := by
    rw [isText_eq_kind, isText_eq_kind, he]
  unfold InTables
  cases v <;> cases v' <;> first
    | rfl
    | (cases hv; simp only [htext, inProvider_congr hp])
    | cases hv

/-- Storing a demo and reading it keeps what validation looks at. -/
theorem kind_fromDdb (v : PyVal) : kind (Ddb.fromDdb (Ddb.itemValue v)) = kind v := by
  rw [Ddb.itemValue_eq]
  cases v with
  | int i => simp [PyVal.mapScalars, Ddb.numberToDecimal, Ddb.fromDdb, Ddb.decimalToNumber, kind]
  | float q | decimal q =>
    simp only [PyVal.mapScalars, Ddb.numberToDecimal, Ddb.fromDdb, Ddb.decimalToNumber]
    split_ifs <;> rfl
  | list xs => simp [PyVal.mapScalars, Ddb.fromDdb, kind]
  | dict d => simp [PyVal.mapScalars, Ddb.fromDdb, kind]
  | _ => rfl

theorem consistent_deserialize_serialize (voices : String → List String) (demo : PyDict) :
    Consistent voices (deserialize (serialize demo)) ↔ Consistent voices demo := by
  have hkind {key : String} (hnormalize : ∀ raw : PyDict,
      (normalizeDemoDict raw none).get key = raw.get key) :
      kind ((deserialize (serialize demo)).get key) = kind (demo.get key) := by
    rw [deserialize, hnormalize, PyDict.get_mapValues rfl, serialize, PyDict.get_mapValues rfl,
      hnormalize, kind_fromDdb]
  exact inTables_congr (hkind fun _ => rfl) (hkind fun _ => rfl) (hkind fun _ => rfl)

/-- The demo that is served and the one that is stored are consistent. -/
structure TripleConsistent (voices : String → List String) (demoId : String) (s : DemoState slot) :
    Prop where
  served : ∀ demo, s.demo? demoId = some demo → Consistent voices demo
  stored : ∀ item, s.table.get? demoId = some item → Consistent voices (deserialize item)

/-- The condition on a request that is accepted for `demo`. If it changes the engine or the provider
and does not name a voice, the voice of the demo is null or in the tables of the merged engine and
provider; and if it sets the default voice of MiniMax, this one is there. -/
structure KeepsVoice (voices : String → List String) (demo : PyDict) (body : DemoPatchBody) :
    Prop where
  unnamed : body.voice = none → body.engine.isSome ∨ body.provider.isSome →
    InTables voices (patched body.engine (demo.get "engine"))
      (patched body.provider (demo.get "provider")) (demo.get "voice")
  default : body.voice = some (some defaultMinimaxVoice) →
    InTables voices (patched body.engine (demo.get "engine"))
      (patched body.provider (demo.get "provider")) (.str defaultMinimaxVoice)

/-- A request that is accepted keeps the voice. -/
def VoiceFollows (voices : String → List String) (demoId : String) (s : DemoState slot)
    (request : EditRequest) : Prop :=
  ∀ demo merged, s.demo? demoId = some demo → demo ≠ [] →
    patchDemo (request.registries voices) demoId demo request.body = .ok merged →
      KeepsVoice voices demo request.body

/-- The engine, the provider and the voice of an accepted body have passed their check. -/
theorem checkEngineVoice_of_patchDemo {reg : Registries} {demoId : String} {demo merged : PyDict}
    {body : DemoPatchBody} (h : patchDemo reg demoId demo body = .ok merged) :
    checkEngineVoice reg demo body = .ok () := by
  obtain ⟨blocks, hvalid, -⟩ := ok_of_bind h
  unfold validatePatch at hvalid
  -- Twelve checks and the two blocks come before it.
  iterate 14 obtain ⟨_, -, hvalid⟩ := ok_of_bind hvalid
  obtain ⟨_, hcheck, -⟩ := ok_of_bind hvalid
  exact hcheck

/-- The merged demo is consistent exactly if the request keeps the voice. -/
theorem consistent_merged_iff {voices : String → List String} {request : EditRequest}
    {demoId : String} {demo merged : PyDict} (hdemo : Consistent voices demo)
    (h : patchDemo (request.registries voices) demoId demo request.body = .ok merged) :
    Consistent voices merged ↔ KeepsVoice voices demo request.body := by
  have hcheck := checkEngineVoice_of_patchDemo h
  obtain ⟨hengine, hprovider, hvoice⟩ := triple_of_patchDemo h
  rw [Consistent, hengine, hprovider, hvoice]
  constructor
  · intro hmerged
    refine ⟨fun hnone _ => ?_, fun hdefault => ?_⟩
    · rwa [hnone] at hmerged
    · rwa [hdefault] at hmerged
  · intro hkeeps
    match hbody : request.body.voice with
    | none =>
      by_cases hnamed : request.body.engine.isSome ∨ request.body.provider.isSome
      · exact hkeeps.unnamed hbody hnamed
      · -- The request leaves the triple as it is.
        obtain ⟨hnoEngine, hnoProvider⟩ := not_or.mp hnamed
        rw [Option.not_isSome_iff_eq_none] at hnoEngine hnoProvider
        rw [hnoEngine, hnoProvider]
        exact hdemo
    | some none => exact trivial
    | some (some v) =>
      by_cases hv : v = defaultMinimaxVoice
      · subst hv
        exact hkeeps.default hbody
      · rw [checkEngineVoice, hbody] at hcheck
        simp only [Option.isSome_some, Bool.or_true, Bool.true_or, if_true] at hcheck
        exact inTables_of_validate hcheck hbody hv

/-- A request that keeps the voice keeps the demo consistent. -/
theorem tripleConsistent_patchAlone {voices : String → List String} {demoId : String}
    {s : DemoState slot} {request : EditRequest} (hs : TripleConsistent voices demoId s)
    (h : VoiceFollows voices demoId s request) :
    TripleConsistent voices demoId (patchAlone voices demoId s request) := by
  rcases patchAlone_cases voices demoId s request with
    ⟨hsame, -⟩ | ⟨demo, merged, hfound, hne, hpatch, hserved, hstored⟩
  · rwa [hsame]
  · -- What is served and what is stored come from the merged demo.
    have hmerged : Consistent voices (deserialize (serialize merged)) := by
      rw [consistent_deserialize_serialize, consistent_merged_iff (hs.served demo hfound) hpatch]
      exact h demo merged hfound hne hpatch
    constructor
    · intro demo' hdemo'
      obtain rfl := Option.some.inj (hserved.symm.trans hdemo')
      exact hmerged
    · intro item hitem
      obtain rfl := Option.some.inj (hstored.symm.trans hitem)
      exact hmerged

/-- A request that does not keep the voice leaves the demo inconsistent. -/
theorem not_tripleConsistent_patchAlone {voices : String → List String} {demoId : String}
    {s : DemoState slot} {request : EditRequest} (hs : TripleConsistent voices demoId s)
    (h : ¬ VoiceFollows voices demoId s request) :
    ¬ TripleConsistent voices demoId (patchAlone voices demoId s request) := by
  intro hafter
  refine h fun demo merged hfound hne hpatch => ?_
  rcases patchAlone_cases voices demoId s request with
    ⟨-, hrejected⟩ | ⟨demo', merged', hfound', -, hpatch', hserved, -⟩
  · exact absurd hpatch (hrejected demo merged hfound hne)
  · obtain rfl := Option.some.inj (hfound.symm.trans hfound')
    obtain rfl := Except.ok.inj (hpatch.symm.trans hpatch')
    have hmerged := hafter.served _ hserved
    rwa [consistent_deserialize_serialize, consistent_merged_iff (hs.served _ hfound) hpatch]
      at hmerged

/-- In every run of requests from a consistent demo, the demo that is served and the one that is
stored stay consistent exactly as long as every accepted request keeps the voice: one that changes the
engine or the provider without a voice leaves the voice in their table, and the default voice of
MiniMax is set only where the registry has it. -/
theorem triples_always_iff (voices : String → List String) (demoId : String) (s : DemoState slot)
    (hs : TripleConsistent voices demoId s) (requests : List EditRequest) :
    Run.Always (patchAlone voices demoId) (TripleConsistent voices demoId) s requests ↔
      Run.Guarded (patchAlone voices demoId) (VoiceFollows voices demoId) s requests :=
  Run.always_iff_guarded (fun _ h => h) (fun _ _ => tripleConsistent_patchAlone)
    (fun _ _ => not_tripleConsistent_patchAlone) hs requests

/-- A registry with one voice of each of MiniMax and Nova Sonic. -/
def twoVoices (table : String) : List String :=
  if table = "minimax" then ["Cantonese_GentleLady"]
  else if table = "nova-sonic" then ["matthew"] else []

/-- A demo of a pipeline with a voice of MiniMax. -/
def pipelineItem : PyDict :=
  [("id", .str "a"), ("engine", .str "pipeline"), ("voice", .str "Cantonese_GentleLady")]

/-- A table with this demo, and the cache that a scan of it leaves. -/
def pipelineState : DemoState stringSlot where
  memory := ⟨loadItems [pipelineItem], []⟩
  table := (∅ : DemoTable stringSlot).put pipelineItem

/-- A request that sets the engine to Nova Sonic. -/
def novaRequest (voice : Option (Option String)) : EditRequest where
  tools := []
  body := { engine := some (some "nova-sonic"), voice }

theorem tripleConsistent_pipelineState : TripleConsistent twoVoices "a" pipelineState where
  served demo hdemo := by
    have hget : pipelineState.demo? "a" = some (deserialize pipelineItem) := rfl
    obtain rfl := Option.some.inj (hget.symm.trans hdemo)
    show InTables _ _ _ _
    decide +kernel
  stored item hitem := by
    have hget : pipelineState.table.get? "a" = some pipelineItem := rfl
    obtain rfl := Option.some.inj (hget.symm.trans hitem)
    show InTables _ _ _ _
    decide +kernel

/-- A change of the engine together with the voice keeps the triple consistent. -/
theorem triples_always_bothNamed :
    Run.Always (patchAlone twoVoices "a") (TripleConsistent twoVoices "a") pipelineState
      [novaRequest (some (some "matthew"))] := by
  refine (triples_always_iff twoVoices "a" pipelineState tripleConsistent_pipelineState _).mpr
    ⟨fun demo merged _ _ _ => ⟨fun hnone => ?_, fun hdefault => ?_⟩, trivial⟩
  · cases hnone
  · exact absurd hdefault (by decide)

/-- A change of the engine alone is accepted and keeps the voice of MiniMax. -/
theorem engineAlone_keepsVoice :
    TripleConsistent twoVoices "a" pipelineState ∧
      ¬ Run.Always (patchAlone twoVoices "a") (TripleConsistent twoVoices "a") pipelineState
        [novaRequest none] := by
  refine ⟨tripleConsistent_pipelineState, fun h => ?_⟩
  have hlast : TripleConsistent twoVoices "a"
      (patchAlone twoVoices "a" pipelineState (novaRequest none)) := h.last
  obtain ⟨merged, hpatch⟩ : ∃ merged, patchDemo ((novaRequest none).registries twoVoices) "a"
      (deserialize pipelineItem) (novaRequest none).body = .ok merged := ⟨_, rfl⟩
  rcases patchAlone_cases twoVoices "a" pipelineState (novaRequest none) with
    ⟨-, hrejected⟩ | ⟨demo, merged', hfound, -, hpatch', hserved, -⟩
  · exact hrejected _ _ rfl (List.cons_ne_nil _ _) hpatch
  · obtain rfl := Option.some.inj ((show pipelineState.demo? "a" = _ from rfl).symm.trans hfound)
    -- The engine is the new one, and the voice is that of the old one.
    have hmerged := hlast.served _ hserved
    rw [consistent_deserialize_serialize, Consistent, (triple_of_patchDemo hpatch').1,
      (triple_of_patchDemo hpatch').2.1, (triple_of_patchDemo hpatch').2.2] at hmerged
    revert hmerged
    decide +kernel

end Demos
