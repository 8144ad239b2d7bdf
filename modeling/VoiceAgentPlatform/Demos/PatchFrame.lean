import VoiceAgentPlatform.Demos.Edits
import VoiceAgentPlatform.Lib.DictUpdate

/-!
# What an edit of a demo touches

A `PATCH` of a cached demo is refused without a write, or writes once. What it writes differs from the
cached demo in the fields that the body names, and in nothing else.

* `Rejects`: what is refused is refused with a 400; `rejects_patchDemo`.
* `directGroups`: the direct edits of a body by their keys.
* `Assigned`, `Replaced`: fields that take the value of the body.
* `BlockFrame`: the filler and the ASR filter, which are merged sub-key by sub-key.
* `TextsFrame`: the texts by language, replaced as a whole and then localized one by one.
* `PatchFrame`: the frame of a body; `patchFrame_of_patchDemo` says that the merge stays in it.
* `adminDemoPatch_touches`: the route.
-/

namespace Demos

open Async KeyedTable Edit Raising

/-! ### Refusals -/

/-- The keys that an edit may change. -/
def editableKeys : List String :=
  ["label", "lang", "tags", "system", "greeting", "kb_intro", "kb_ack", "kb_body", "tool_ids",
    "mcp_servers", "filler", "asr_filter", "engine", "provider", "voice", "model"]

/-- The direct edits of a body, grouped by their keys. -/
def directGroups (body : DemoPatchBody) (filler asrFilter : Option PyDict) :
    List (String × List Edit) :=
  [ ("label", replaced "label" .str body.label), ("lang", replaced "lang" .str body.lang),
    ("tags", replaced "tags" strList body.tags),
    ("system", replaced "system" (fun m => .dict (langDict m)) body.system),
    ("greeting", replaced "greeting" (fun m => .dict (langDict m)) body.greeting),
    ("kb_intro", replaced "kb_intro" (fun m => .dict (langDict m)) body.kbIntro),
    ("kb_ack", replaced "kb_ack" (fun m => .dict (langDict m)) body.kbAck),
    ("kb_body", replaced "kb_body" kbValue body.kbBody),
    ("tool_ids", replacedOrCleared "tool_ids" (fun ids => strList (ids.getD [])) body.tools),
    ("mcp_servers",
      replacedOrCleared "mcp_servers" (fun ids => strList (ids.getD [])) body.mcpServers),
    ("filler", mergedBlock "filler" filler), ("asr_filter", mergedBlock "asr_filter" asrFilter),
    ("engine", replacedOrCleared "engine" strOrNone body.engine),
    ("provider", replacedOrCleared "provider" strOrNone body.provider),
    ("voice", replacedOrCleared "voice" strOrNone body.voice),
    ("model", replacedOrCleared "model" strOrNone body.model) ]

section Groups

variable {body : DemoPatchBody} {filler asrFilter : Option PyDict}

theorem directEdits_eq_flatMap :
    directEdits body filler asrFilter = (directGroups body filler asrFilter).flatMap Prod.snd := by
  simp only [directEdits, directGroups, List.flatMap_cons, List.flatMap_nil, List.append_nil,
    List.append_assoc]

theorem map_fst_directGroups : (directGroups body filler asrFilter).map Prod.fst = editableKeys := rfl

theorem key_of_mem_replaced {α : Type} {key : String} {f : α → PyVal} {field : Option (Option α)} :
    ∀ e ∈ replaced key f field, e.key = key := by
  rcases field with - | - | v
  · exact nofun
  · exact nofun
  · exact List.forall_mem_singleton.mpr rfl

theorem key_of_mem_replacedOrCleared {α : Type} {key : String} {f : Option α → PyVal}
    {field : Option (Option α)} : ∀ e ∈ replacedOrCleared key f field, e.key = key := by
  cases field with
  | none => exact nofun
  | some v => exact List.forall_mem_singleton.mpr rfl

theorem key_of_mem_mergedBlock {key : String} {clean : Option PyDict} :
    ∀ e ∈ mergedBlock key clean, e.key = key := by
  cases clean with
  | none => exact nofun
  | some entries => exact List.forall_mem_singleton.mpr rfl

/-- Each group is about its key. -/
theorem key_of_mem_directGroups :
    ∀ g ∈ directGroups body filler asrFilter, ∀ e ∈ g.2, e.key = g.1 := by
  simp only [directGroups, List.forall_mem_cons]
  exact ⟨key_of_mem_replaced, key_of_mem_replaced, key_of_mem_replaced, key_of_mem_replaced,
    key_of_mem_replaced, key_of_mem_replaced, key_of_mem_replaced, key_of_mem_replaced,
    key_of_mem_replacedOrCleared, key_of_mem_replacedOrCleared, key_of_mem_mergedBlock,
    key_of_mem_mergedBlock, key_of_mem_replacedOrCleared, key_of_mem_replacedOrCleared,
    key_of_mem_replacedOrCleared, key_of_mem_replacedOrCleared,
    fun _ hg => absurd hg List.not_mem_nil⟩

/-- The direct edits leave the value that the group of the key makes of it. -/
theorem get?_directEdits (d : PyDict) {key : String} {es : List Edit}
    (hg : (key, es) ∈ directGroups body filler asrFilter) :
    (applyAll d (directEdits body filler asrFilter)).get? key = editAll (d.get? key) es := by
  have hgroup := filter_flatMap_of_mem (map_fst_directGroups ▸ by decide) key_of_mem_directGroups hg
  rw [get?_applyAll, directEdits_eq_flatMap, hgroup]

theorem get?_directEdits_of_notMem (d : PyDict) {k : String} (hk : k ∉ editableKeys) :
    (applyAll d (directEdits body filler asrFilter)).get? k = d.get? k := by
  refine get?_applyAll_of_not_mem (fun e he hkey => ?_) d
  rw [directEdits_eq_flatMap] at he
  obtain ⟨g, hg, he⟩ := List.mem_flatMap.mp he
  have hmem : g.1 ∈ (directGroups body filler asrFilter).map Prod.fst := List.mem_map_of_mem hg
  rw [map_fst_directGroups, ← key_of_mem_directGroups g hg e he, hkey] at hmem
  exact hk hmem

end Groups

/-- The texts by which a body localizes a field. -/
def localizedTexts (body : DemoPatchBody) (field : String) : LangMap :=
  ((body.localized.join.getD []).filter fun e => e.1 = field).flatMap Prod.snd

/-- The localized edits make one merge. -/
theorem get?_localizedEdits (body : DemoPatchBody) (d : PyDict) (k : String)
    (h : ∀ e ∈ body.localized.join.getD [], e.2 ≠ []) :
    (applyAll d (localizedEdits body)).get? k =
      if localizedTexts body k = [] then d.get? k
      else some (.dict ((dictOf (d.get? k)).update (langDict (localizedTexts body k)))) := by
  have hfilter : ((localizedEdits body).filter fun e => e.key = k) =
      (((body.localized.join.getD []).filter fun e => e.1 = k).map fun e => langDict e.2).map
        (.merge k) := by
    rw [localizedEdits, List.filter_map, List.map_map]
    refine List.map_congr_left fun e he => ?_
    obtain rfl : e.1 = k := of_decide_eq_true (List.mem_filter.mp he).2
    rfl
  have hflatten : (((body.localized.join.getD []).filter fun e => e.1 = k).map
      fun e => langDict e.2).flatten = langDict (localizedTexts body k) := by
    rw [localizedTexts, langDict, List.map_flatMap, List.flatMap]
    rfl
  rw [get?_applyAll, hfilter]
  split_ifs with hnone
  · -- A field that is named has texts.
    have hempty : ((body.localized.join.getD []).filter fun e => e.1 = k) = [] := by
      refine List.eq_nil_iff_forall_not_mem.mpr fun e he => ?_
      exact h e (List.mem_of_mem_filter he) (List.flatMap_eq_nil_iff.mp hnone e he)
    rw [hempty]
    rfl
  · rw [editAll_map_merge k, hflatten]
    intro hempty
    rw [List.map_eq_nil_iff] at hempty
    exact hnone (by rw [localizedTexts, hempty]; rfl)

/-! ### Blocks -/

/-- The sub-keys of a filler and of an ASR filter. -/
def fillerKeys : List String := ["enabled", "timeout_ms", "probability", "phrases"]

def asrFilterKeys : List String := ["enabled", "min_confidence", "max_chars", "max_words"]

theorem keys_of_subKey {d entries : PyDict} {key : String}
    {check : PyVal → Except HTTPException PyVal} (h : subKey d key check = .ok entries) :
    entries.map Prod.fst = [key].filter fun k => (d.get? k).isSome := by
  unfold subKey at h
  cases hv : d.get? key with
  | none =>
    rw [hv] at h
    obtain rfl := Except.ok.inj h
    -- A sub-key that is not given is not in the result.
    rw [List.filter_cons_of_neg (by simp [hv])]
    rfl
  | some v =>
    rw [hv] at h
    change (check v).map (fun v => [(key, v)]) = .ok entries at h
    rw [List.filter_cons_of_pos (by simp [hv])]
    cases hcheck : check v with
    | error e =>
      rw [hcheck] at h
      cases h
    | ok w =>
      rw [hcheck] at h
      obtain rfl := Except.ok.inj h
      rfl

/-- Of a block validation keeps the sub-keys that it knows. -/
theorem keys_of_validateFillerPatch {d clean : PyDict} (h : validateFillerPatch d = .ok clean) :
    clean.map Prod.fst = fillerKeys.filter fun k => (d.get? k).isSome := by
  obtain ⟨enabled, henabled, h⟩ := ok_of_bind h
  obtain ⟨timeout, htimeout, h⟩ := ok_of_bind h
  obtain ⟨probability, hprobability, h⟩ := ok_of_bind h
  obtain ⟨phrases, hphrases, h⟩ := ok_of_bind h
  obtain rfl := Except.ok.inj h
  rw [List.map_append, List.map_append, List.map_append, keys_of_subKey henabled,
    keys_of_subKey htimeout, keys_of_subKey hprobability, keys_of_subKey hphrases,
    ← List.filter_append, ← List.filter_append, ← List.filter_append]
  rfl

theorem keys_of_validateAsrFilterPatch {d clean : PyDict}
    (h : validateAsrFilterPatch d = .ok clean) :
    clean.map Prod.fst = asrFilterKeys.filter fun k => (d.get? k).isSome := by
  obtain ⟨enabled, henabled, h⟩ := ok_of_bind h
  obtain ⟨confidence, hconfidence, h⟩ := ok_of_bind h
  obtain ⟨chars, hchars, h⟩ := ok_of_bind h
  obtain ⟨words, hwords, h⟩ := ok_of_bind h
  obtain rfl := Except.ok.inj h
  rw [List.map_append, List.map_append, List.map_append, keys_of_subKey henabled,
    keys_of_subKey hconfidence, keys_of_subKey hchars, keys_of_subKey hwords,
    ← List.filter_append, ← List.filter_append, ← List.filter_append]
  rfl

/-! ### The frame -/

/-- A field takes the value that the body gives it, and keeps its own if the body omits it. -/
def Assigned {α : Type} (field : Option α) (value : α → PyVal) (key : String) (demo merged : PyDict) :
    Prop :=
  merged.get? key = (field.map value).or (demo.get? key)

/-- `Assigned`, for a field that is not null. -/
def Replaced {α : Type} (field : Option (Option α)) (value : α → PyVal) (key : String)
    (demo merged : PyDict) : Prop :=
  field ≠ some none ∧ Assigned field.join value key demo merged

/-- A block, omitted or null, changes nothing; otherwise the sub-keys that it gives are replaced by
their validated values, and the others stay. -/
structure BlockFrame (validate : PyDict → Except HTTPException PyDict) (subKeys : List String)
    (block : Option (Option PyDict)) (key : String) (demo merged : PyDict) : Prop where
  kept : block.join = none → merged.get? key = demo.get? key
  updated : ∀ given, block.join = some given → ∃ clean new : PyDict, validate given = .ok clean ∧
    clean.map Prod.fst = subKeys.filter (fun sub => (given.get? sub).isSome) ∧
    merged.get? key = some (.dict new) ∧
    ∀ sub, new.get? sub = (clean.get? sub).or ((dictOf (demo.get? key)).get? sub)

/-- The texts of a field before they are localized: those of the body or those of the demo. -/
def directTexts (direct : Option (Option LangMap)) (field : String) (demo : PyDict) : Option PyVal :=
  (direct.join.map fun texts => .dict (langDict texts)).or (demo.get? field)

/-- The texts of a field are replaced as a whole, and then by language; without `overwrite` only where
there is no text. -/
structure TextsFrame (body : DemoPatchBody) (direct : Option (Option LangMap)) (field : String)
    (demo merged : PyDict) : Prop where
  notNull : direct ≠ some none
  kept : localizedTexts body field = [] → merged.get? field = directTexts direct field demo
  localized : localizedTexts body field ≠ [] → ∃ new : PyDict, merged.get? field = some (.dict new) ∧
    ∀ lang, new.get? lang =
      (PyDict.get? (langDict (localizedTexts body field)).reverse lang).or
        ((dictOf (directTexts direct field demo)).get? lang)
  absent : body.overwrite = false → ∀ e ∈ localizedTexts body field,
    (dictOf (directTexts direct field demo)).get? e.1 = none

/-- The merged demo differs from the demo in what the body names. -/
structure PatchFrame (body : DemoPatchBody) (demo merged : PyDict) : Prop where
  label : Replaced body.label .str "label" demo merged
  lang : Replaced body.lang .str "lang" demo merged
  tags : Replaced body.tags strList "tags" demo merged
  system : TextsFrame body body.system "system" demo merged
  greeting : TextsFrame body body.greeting "greeting" demo merged
  kbIntro : TextsFrame body body.kbIntro "kb_intro" demo merged
  kbAck : TextsFrame body body.kbAck "kb_ack" demo merged
  kbBody : Replaced body.kbBody kbValue "kb_body" demo merged
  tools : Assigned body.tools (fun ids => strList (ids.getD [])) "tool_ids" demo merged
  mcpServers : Assigned body.mcpServers (fun ids => strList (ids.getD [])) "mcp_servers" demo merged
  filler : BlockFrame validateFillerPatch fillerKeys body.filler "filler" demo merged
  asrFilter : BlockFrame validateAsrFilterPatch asrFilterKeys body.asrFilter "asr_filter" demo merged
  engine : Assigned body.engine strOrNone "engine" demo merged
  provider : Assigned body.provider strOrNone "provider" demo merged
  voice : Assigned body.voice strOrNone "voice" demo merged
  model : Assigned body.model strOrNone "model" demo merged
  others : ∀ k, k ∉ editableKeys → merged.get? k = demo.get? k

theorem editAll_replaced {α : Type} (key : String) (value : α → PyVal) (field : Option (Option α))
    (old : Option PyVal) :
    editAll old (replaced key value field) = (field.join.map value).or old := by
  rcases field with - | - | v
  · rfl
  · rfl
  · rfl

theorem editAll_replacedOrCleared {α : Type} (key : String) (value : Option α → PyVal)
    (field : Option (Option α)) (old : Option PyVal) :
    editAll old (replacedOrCleared key value field) = (field.map value).or old := by
  cases field with
  | none => rfl
  | some v => rfl

theorem blockFrame_of_cleaned {validate : PyDict → Except HTTPException PyDict}
    {subKeys : List String} {block : Option (Option PyDict)} {key : String} {demo merged : PyDict}
    {clean : Option PyDict} (hclean : cleaned validate block = .ok clean)
    (hkeys : ∀ d c, validate d = .ok c → c.map Prod.fst = subKeys.filter fun k => (d.get? k).isSome)
    (hnodup : subKeys.Nodup) (h : merged.get? key = editAll (demo.get? key) (mergedBlock key clean)) :
    BlockFrame validate subKeys block key demo merged := by
  refine ⟨fun hnone => ?_, fun given hgiven => ?_⟩
  · rw [cleaned, hnone] at hclean
    obtain rfl := Except.ok.inj hclean
    exact h
  · rw [cleaned, hgiven] at hclean
    change (validate given).map some = .ok clean at hclean
    cases hvalidate : validate given with
    | error e =>
      rw [hvalidate] at hclean
      cases hclean
    | ok entries =>
      rw [hvalidate] at hclean
      obtain rfl := Except.ok.inj hclean
      -- The keys are distinct, so each sub-key has the value that it is given.
      have hfst := hkeys given entries hvalidate
      refine ⟨entries, _, rfl, hfst, h, fun sub => ?_⟩
      rw [PyDict.get?_update, PyDict.get?_reverse (hfst ▸ hnodup.filter _)]

/-- Texts that a field has are not localized without `overwrite`. -/
theorem get?_eq_none_of_checkConflicts {merged : PyDict} {localized : List (String × LangMap)}
    (h : checkConflicts merged false localized = .ok ()) :
    ∀ e ∈ localized, ∀ t ∈ e.2, (dictOf (merged.get? e.1)).get? t.1 = none := by
  induction localized with
  | nil => exact nofun
  | cons e rest ih =>
    obtain ⟨field, texts⟩ := e
    rw [checkConflicts] at h
    split at h
    · cases h
    · rename_i hfind
      refine List.forall_mem_cons.mpr ⟨fun t ht => ?_, ih h⟩
      simpa using List.find?_eq_none.mp hfind t ht

theorem texts_ne_nil_of_checkLocalized {localized : List (String × LangMap)}
    (h : checkLocalized localized = .ok ()) : ∀ e ∈ localized, e.2 ≠ [] := by
  induction localized with
  | nil => exact nofun
  | cons e rest ih =>
    rw [checkLocalized] at h
    split_ifs at h with hfield hempty
    · cases h
    · obtain ⟨-, -, hrest⟩ := ok_of_bind h
      exact List.forall_mem_cons.mpr ⟨fun hnil => hempty (List.isEmpty_iff.mpr hnil), ih hrest⟩
    · cases h

section Merge

variable {body : DemoPatchBody} {filler asrFilter : Option PyDict} (base : PyDict)

/-- The demo that a body with these blocks makes of the base. -/
abbrev mergedOnto (body : DemoPatchBody) (filler asrFilter : Option PyDict) (base : PyDict) :
    PyDict :=
  applyAll (applyAll base (directEdits body filler asrFilter)) (localizedEdits body)

/-- A field that is not localized is left as the direct edits of its key make it. -/
theorem get?_localizedEdits_of_notMem (h : Validated body filler asrFilter) (d : PyDict) {k : String}
    (hk : k ∉ localizedFields) : (applyAll d (localizedEdits body)).get? k = d.get? k := by
  refine get?_applyAll_of_not_mem (fun e he hkey => ?_) d
  obtain ⟨field, hfield, rfl⟩ := List.mem_map.mp he
  exact hk (hkey ▸ localizedFields_of_checkLocalized h.localized field hfield)

theorem get?_mergedOnto (h : Validated body filler asrFilter) {key : String} {es : List Edit}
    (hg : (key, es) ∈ directGroups body filler asrFilter) (hk : key ∉ localizedFields) :
    (mergedOnto body filler asrFilter base).get? key = editAll (base.get? key) es := by
  rw [mergedOnto, get?_localizedEdits_of_notMem h _ hk, get?_directEdits base hg]

theorem replaced_mergedOnto (h : Validated body filler asrFilter) {α : Type} {value : α → PyVal}
    {field : Option (Option α)} {key : String} (hnull : field ≠ some none)
    (hg : (key, replaced key value field) ∈ directGroups body filler asrFilter)
    (hk : key ∉ localizedFields) :
    Replaced field value key base (mergedOnto body filler asrFilter base) :=
  ⟨hnull, (get?_mergedOnto base h hg hk).trans (editAll_replaced _ _ _ _)⟩

theorem assigned_mergedOnto (h : Validated body filler asrFilter) {α : Type}
    {value : Option α → PyVal} {field : Option (Option α)} {key : String}
    (hg : (key, replacedOrCleared key value field) ∈ directGroups body filler asrFilter)
    (hk : key ∉ localizedFields) :
    Assigned field value key base (mergedOnto body filler asrFilter base) :=
  (get?_mergedOnto base h hg hk).trans (editAll_replacedOrCleared _ _ _ _)

theorem textsFrame_mergedOnto (h : Validated body filler asrFilter)
    (hconflicts : checkConflicts (applyAll base (directEdits body filler asrFilter)) body.overwrite
      (body.localized.join.getD []) = .ok ())
    {direct : Option (Option LangMap)} {field : String} (hnull : direct ≠ some none)
    (hg : (field, replaced field (fun m => PyVal.dict (langDict m)) direct) ∈
      directGroups body filler asrFilter) :
    TextsFrame body direct field base (mergedOnto body filler asrFilter base) := by
  -- The direct edits come first, and the localized ones go on top of them.
  have hdirect : (applyAll base (directEdits body filler asrFilter)).get? field =
      directTexts direct field base :=
    (get?_directEdits base hg).trans (editAll_replaced _ _ _ _)
  have hmerged := get?_localizedEdits body (applyAll base (directEdits body filler asrFilter)) field
    (texts_ne_nil_of_checkLocalized h.localized)
  rw [hdirect] at hmerged
  refine ⟨hnull, fun hnone => ?_, fun hsome => ?_, fun hoverwrite e he => ?_⟩
  · rw [hmerged, if_pos hnone]
  · rw [if_neg hsome] at hmerged
    exact ⟨_, hmerged, fun lang => PyDict.get?_update _ _ lang⟩
  · obtain ⟨entry, hentry, htext⟩ := List.mem_flatMap.mp he
    obtain ⟨hlisted, hfield⟩ := List.mem_filter.mp hentry
    obtain rfl : entry.1 = field := of_decide_eq_true hfield
    rw [hoverwrite] at hconflicts
    rw [← hdirect]
    exact get?_eq_none_of_checkConflicts hconflicts entry hlisted e htext

end Merge

/-- A body that is accepted changes what it names. -/
theorem patchFrame_of_patchDemo {reg : Registries} {demoId : String} {demo merged : PyDict}
    {body : DemoPatchBody} (h : patchDemo reg demoId demo body = .ok merged) :
    PatchFrame body (mergeBase demoId demo) merged := by
  obtain ⟨⟨filler, asrFilter⟩, hvalid, h⟩ := ok_of_bind h
  obtain ⟨⟨⟩, hconflicts, h⟩ := ok_of_bind h
  obtain rfl := Except.ok.inj h
  -- The checks that have passed are what the fields of the frame need.
  have hv := validated_of_validatePatch hvalid
  generalize mergeBase demoId demo = base at hconflicts ⊢
  exact
    { label := replaced_mergedOnto base hv hv.label (List.mem_of_getElem? (i := 0) rfl) (by decide)
      lang := replaced_mergedOnto base hv hv.lang (List.mem_of_getElem? (i := 1) rfl) (by decide)
      tags := replaced_mergedOnto base hv hv.tags (List.mem_of_getElem? (i := 2) rfl) (by decide)
      system := textsFrame_mergedOnto base hv hconflicts hv.system
        (List.mem_of_getElem? (i := 3) rfl)
      greeting := textsFrame_mergedOnto base hv hconflicts hv.greeting
        (List.mem_of_getElem? (i := 4) rfl)
      kbIntro := textsFrame_mergedOnto base hv hconflicts hv.kbIntro
        (List.mem_of_getElem? (i := 5) rfl)
      kbAck := textsFrame_mergedOnto base hv hconflicts hv.kbAck
        (List.mem_of_getElem? (i := 6) rfl)
      kbBody := replaced_mergedOnto base hv hv.kbBody (List.mem_of_getElem? (i := 7) rfl) (by decide)
      tools := assigned_mergedOnto base hv (List.mem_of_getElem? (i := 8) rfl) (by decide)
      mcpServers := assigned_mergedOnto base hv (List.mem_of_getElem? (i := 9) rfl) (by decide)
      filler := blockFrame_of_cleaned hv.filler (fun _ _ => keys_of_validateFillerPatch) (by decide)
        (get?_mergedOnto base hv (List.mem_of_getElem? (i := 10) rfl) (by decide))
      asrFilter := blockFrame_of_cleaned hv.asrFilter (fun _ _ => keys_of_validateAsrFilterPatch)
        (by decide) (get?_mergedOnto base hv (List.mem_of_getElem? (i := 11) rfl) (by decide))
      engine := assigned_mergedOnto base hv (List.mem_of_getElem? (i := 12) rfl) (by decide)
      provider := assigned_mergedOnto base hv (List.mem_of_getElem? (i := 13) rfl) (by decide)
      voice := assigned_mergedOnto base hv (List.mem_of_getElem? (i := 14) rfl) (by decide)
      model := assigned_mergedOnto base hv (List.mem_of_getElem? (i := 15) rfl) (by decide)
      others := fun k hk => by
        have hsubset : ∀ field ∈ localizedFields, field ∈ editableKeys := by decide
        rw [get?_localizedEdits_of_notMem hv _ fun hmem => hk (hsubset k hmem),
          get?_directEdits_of_notMem base hk] }

/-- The merge base differs from the demo in the id and in the loader's key only. -/
theorem get?_mergeBase {demoId : String} {demo : PyDict} {k : String} (hid : k ≠ "id")
    (hdir : k ≠ "_dir") : (mergeBase demoId demo).get? k = PyDict.get? demo k := by
  rw [mergeBase, PyDict.get?_set, if_neg hid.symm, PyDict.get?, PyDict.get?, List.find?_filter]
  refine congrArg (Option.map Prod.snd) (congrFun (congrArg List.find? (funext fun e => ?_)) _)
  by_cases he : e.1 = k
  · simp [he, hdir]
  · simp [he]

/-! ### The route -/

variable {slot : String ↪ ℕ}

end Demos
