import VoiceAgentPlatform.Config.RuntimeConfig
import VoiceAgentPlatform.Demos.Patch
import VoiceAgentPlatform.Lib.Run

/-!
# The launch defaults

`PUT /api/admin/config/web` and `/phone` of `bot.py`: a partial update is validated against the stored
segment it is merged with, and stored. Who asks and the audit log are left out.

* `languageTable`: the engines of each language, and whether it has speech recognition.
* `SegmentUpdate`: the body of an update; `given` and `normalizeSegment` make a dictionary of it.
* `validateSegment`, `putSegment`: the validation and the route.
* `Launchable`: the engine of a segment serves its language.
* `putSegment_step`: what a request does to the two segments, and `launchDefaults_always` from it.
-/

namespace Config

open AtomicFile Raising Demos

/-- An entry of `LANGUAGES`: its engines and its `Language`, if it has speech recognition. -/
structure LanguageEntry where
  engines : List String
  stt : Option String

/-- `LANGUAGES`, without the texts. -/
def languageTable : List (String × LanguageEntry) :=
  [ ("zh-HK", ⟨["pipeline"], some "ZH_HK"⟩),
    ("zh-CN", ⟨["pipeline"], some "ZH_CN"⟩),
    ("en-US", ⟨["pipeline", "nova-sonic"], some "EN"⟩),
    ("ja-JP", ⟨["pipeline"], some "JA"⟩),
    ("en-SG", ⟨["pipeline"], some "EN"⟩),
    ("en-GB", ⟨["nova-sonic"], none⟩),
    ("en-AU", ⟨["nova-sonic"], none⟩),
    ("en-IN", ⟨["nova-sonic"], none⟩),
    ("fr-FR", ⟨["nova-sonic"], none⟩),
    ("it-IT", ⟨["nova-sonic"], none⟩),
    ("de-DE", ⟨["nova-sonic"], none⟩),
    ("es-US", ⟨["nova-sonic"], none⟩),
    ("pt-BR", ⟨["nova-sonic"], none⟩) ]

/-- `LANGUAGES[lang]`. -/
def languageInfo? (lang : String) : Option LanguageEntry :=
  (languageTable.find? fun e => e.1 = lang).map Prod.snd

/-- The engine is one of the language's, and a pipeline has speech recognition for it. -/
def serves (engine lang : String) : Bool :=
  match languageInfo? lang with
  | none => false
  | some entry => entry.engines.contains engine && (engine ≠ "pipeline" || entry.stt.isSome)

/-- `WebUpdate` and `PhoneUpdate`: an omitted field is `none`, an explicit null is `some none`. -/
structure SegmentUpdate where
  lang : Option (Option String) := none
  engine : Option (Option String) := none
  scenario : Option (Option String) := none
  demo : Option (Option String) := none
  model : Option (Option String) := none
  provider : Option (Option String) := none
  voice : Option (Option String) := none
  minimaxModel : Option (Option String) := none
  asrFilter : Option (Option PyDict) := none

/-- A text field of a body. -/
def text (field : Option (Option String)) : Option (Option PyVal) := field.map (Option.map .str)

/-- The fields of a body in the order of its class, which is not the same for the two segments. -/
def SegmentUpdate.fields (body : SegmentUpdate) : Segment → List (String × Option (Option PyVal))
  | .web =>
    [ ("lang", text body.lang), ("engine", text body.engine), ("scenario", text body.scenario),
      ("demo", text body.demo), ("model", text body.model), ("provider", text body.provider),
      ("voice", text body.voice), ("minimax_model", text body.minimaxModel),
      ("asr_filter", body.asrFilter.map (Option.map .dict)) ]
  | .phone =>
    [ ("lang", text body.lang), ("engine", text body.engine), ("scenario", text body.scenario),
      ("demo", text body.demo), ("voice", text body.voice), ("provider", text body.provider),
      ("model", text body.model), ("minimax_model", text body.minimaxModel),
      ("asr_filter", body.asrFilter.map (Option.map .dict)) ]

/-- The fields that are set and not null. -/
def SegmentUpdate.given (body : SegmentUpdate) (segment : Segment) : PyDict :=
  (body.fields segment).filterMap fun e => e.2.join.map fun v => (e.1, v)

/-- `_normalize_segment`. -/
def normalizeSegment (updates : PyDict) : PyDict :=
  match PyDict.get? updates "demo" with
  | none => updates
  | some demo =>
    let updates := updates.filter fun e => e.1 ≠ "demo"
    match demo with
    | .none => updates
    | demo => PyDict.set updates "scenario" demo

/-- The exceptions of the route. -/
inductive RouteExc where
  | http (e : HTTPException)
  | config (e : Exc)
  /-- A list or a dictionary was looked up in a table. -/
  | unhashable

/-- `value in table`. -/
def inTable (table : List String) : PyVal → Except RouteExc Bool
  | .str s => .ok (table.contains s)
  | .list _ => .error .unhashable
  | .dict _ => .error .unhashable
  | _ => .ok false

/-- The text of a value in a message. The fields of a body are texts. -/
def shown : PyVal → String
  | .str s => s
  | _ => ""

/-- A field of the updates that has to be one of `table`, if it is there. -/
def checkKnown (updates : PyDict) (key : String) (table : List String) (detail : String) :
    Except RouteExc Unit :=
  match PyDict.get? updates key with
  | none => .ok ()
  | some v => do
    if ← inTable table v then return ()
    else throw (.http { status := 400, detail, args := [shown v] })

/-- The check that the engine serves the language, where both are known. -/
def checkServes (merged : PyDict) : Except RouteExc Unit := do
  let engine := PyDict.get merged "engine"
  let lang := PyDict.get merged "lang"
  -- An engine or a language that is not in its table has been refused before.
  if ← inTable engines engine then
    if ← inTable languages lang then
      match languageInfo? (shown lang) with
      | none => return ()
      | some entry =>
        if !entry.engines.contains (shown engine) then
          throw (.http
            { status := 400, detail := "invalid lang for engine: % not available on %"
              args := [shown lang, shown engine] })
        if shown engine = "pipeline" ∧ entry.stt = none then
          throw (.http
            { status := 400, detail := "language not available for pipeline (no STT): %"
              args := [shown lang] })

/-- `_validate_segment`. -/
def validateSegment (scenarios : List String) (updates : PyDict) (current : PyMap) :
    Except RouteExc Unit := do
  checkKnown updates "engine" engines "invalid engine: %"
  checkKnown updates "lang" languages "invalid lang: %"
  checkKnown updates "scenario" scenarios "invalid scenario: %"
  checkKnown updates "provider" ttsProviders "invalid provider: %"
  checkKnown updates "model" models "invalid model: %"
  checkServes (current.updateFields updates).fields

/-- `dict(value or {})`. A dictionary is copied; of other values only the entries with strings as
keys are modelled. -/
def dictOrEmpty (value : PyVal) : Except UpdateError PyDict :=
  match value.orElse (.dict []) with
  | .dict d => .ok d
  | v => (PyMap.ofVal v).map PyMap.fields

/-- `_mirror_demo_alias`. -/
def mirrorDemoAlias (m : PyMap) : PyMap :=
  match PyDict.get? m.fields "scenario", PyDict.get? m.fields "demo" with
  | some scenario, none => m.updateFields [("demo", scenario)]
  | _, _ => m

/-- A request: the segment, the body, the ids of `_scenario_options` when it is handled, and the times
of its first read and its update. -/
structure PutRequest where
  segment : Segment
  body : SegmentUpdate
  scenarios : List String
  readAt : String
  writtenAt : String

/-- Programs of the route. -/
abbrev RouteM := EStateM RouteExc ConfigState

/-- A call of `RUNTIME_CONFIG`. -/
def callConfig {α : Type} (call : ConfigM α) : RouteM α := fun b =>
  match call b with
  | .ok a b => .ok a b
  | .error e b => .error (.config e) b

/-- A result that raises without a change. -/
def ofChecked {α : Type} : Except RouteExc α → RouteM α
  | .ok a => pure a
  | .error e => throw e

/-- The updates with the block `asr_filter` merged into the one of the segment. -/
def mergeAsrFilter [Json.Python] (fallback : Fallback) (request : PutRequest) (plan : WritePlan)
    (updates : PyDict) : RouteM PyDict := do
  match PyDict.get? updates "asr_filter" with
  | some (.dict block) =>
    let clean ← ofChecked ((validateAsrFilterPatch block).mapError .http)
    -- What the segment serves, not what it stores, is merged into.
    let current ← callConfig (mergeSegment fallback request.segment plan request.readAt)
    let existing ← ofChecked
      ((dictOrEmpty (PyDict.get current.fields "asr_filter")).mapError fun e => .config (.update e))
    return PyDict.set updates "asr_filter" (.dict (PyDict.update existing clean))
  | _ => return updates

/-- `admin_put_web` and `admin_put_phone`: the segment that the response holds. -/
def putSegment [Json.Python] (fallback : Fallback) (request : PutRequest) (plan : WritePlan) :
    RouteM PyMap := do
  let updates := normalizeSegment (request.body.given request.segment)
  let current ← callConfig (mergeSegment fallback request.segment plan request.readAt)
  ofChecked (validateSegment request.scenarios updates current)
  let updates ← mergeAsrFilter fallback request plan updates
  let result ← callConfig (updateSegment fallback request.segment updates plan request.writtenAt)
  return mirrorDemoAlias result

/-! ### What the getters show -/

/-- The store that a configuration holds after it was read. -/
def heldStore [Json.Python] (fallback : Fallback) (now : String) (b : ConfigState) : Store :=
  (store? b).getD (buildSeed fallback now)

/-- A configuration after it was read. -/
def loaded [Json.Python] (fallback : Fallback) (now : String) (b : ConfigState) : ConfigState :=
  match store? b with
  | some store => { b with cache := some store }
  | none => seededState fallback now b

/-- The segment that a getter returns, or what it raises. -/
def segmentView [Json.Python] (fallback : Fallback) (b : ConfigState) (segment : Segment) :
    Except UpdateError PyMap.View :=
  match store? b with
  | some store => ((store.get segment).updateInto (fallback.base segment)).map PyMap.view
  | none => .ok (fallback.base segment).view

variable {fallback : Fallback} {b b' : ConfigState} {segment : Segment} {now : String}

@[simp] theorem store?_loaded [Json.Python] :
    store? (loaded fallback now b) = some (heldStore fallback now b) := by
  unfold loaded heldStore
  cases store? b with
  | none => rfl
  | some store => rfl

theorem mergeSegment_eq [Json.Python] (segment : Segment) :
    mergeSegment fallback segment {} now b =
      ofUpdate (((heldStore fallback now b).get segment).updateInto (fallback.base segment))
        (loaded fallback now b) := by
  unfold loaded heldStore
  cases hstore : store? b with
  | none => exact bind_ok (ensureLoaded_seed hstore rfl) _
  | some store => exact mergeSegment_of_store? hstore segment

/-- Reading a configuration does not change what the getters show. -/
theorem updateInto_heldStore [Json.Python] (segment : Segment) :
    (((heldStore fallback now b).get segment).updateInto (fallback.base segment)).map PyMap.view =
      segmentView fallback b segment := by
  unfold heldStore segmentView
  cases store? b with
  | some store => rfl
  | none =>
    have hseed : (buildSeed fallback now).get segment = .dict (fallback.base segment) := by
      cases segment <;> rfl
    show ((buildSeed fallback now).get segment |>.updateInto (fallback.base segment)).map _ = _
    rw [hseed]
    show Except.ok _ = Except.ok _
    rw [PyMap.view_overlay rfl]
    refine congrArg Except.ok (Prod.ext (funext fun key => ?_) rfl)
    exact Option.or_self

@[simp] theorem segmentView_loaded [Json.Python] :
    segmentView fallback (loaded fallback now b) = segmentView fallback b := by
  funext segment
  rw [segmentView, store?_loaded]
  exact updateInto_heldStore segment

/-- The getter of a segment returns a dictionary that looks like `v`. -/
def Shows [Json.Python] (fallback : Fallback) (b : ConfigState) (segment : Segment)
    (v : PyMap.View) : Prop :=
  ∀ now, (returned (mergeSegment fallback segment {} now) b).map PyMap.view = .ok v

theorem shows_iff [Json.Python] {v : PyMap.View} :
    Shows fallback b segment v ↔ segmentView fallback b segment = .ok v := by
  have hget (now : String) : (returned (mergeSegment fallback segment {} now) b).map PyMap.view =
      (segmentView fallback b segment).mapError .update := by
    rw [returned, mergeSegment_eq, ← updateInto_heldStore]
    cases ((heldStore fallback now b).get segment).updateInto (fallback.base segment) <;> rfl
  simp only [Shows, hget, forall_const]
  cases segmentView fallback b segment with
  | ok v' => simp [Except.mapError]
  | error e => simp [Except.mapError]

/-! ### What a request does -/

/-- A request in which every write succeeds; the answer is left to the client. -/
def put [Json.Python] (fallback : Fallback) (b : ConfigState) (request : PutRequest) : ConfigState :=
  exitState (putSegment fallback request {}) b

/-- The updates of a request. -/
def PutRequest.updates (request : PutRequest) : PyDict :=
  normalizeSegment (request.body.given request.segment)

/-- What an accepted request has stored: `updates` are those of its body, and the block `asr_filter`
of the body is merged into the one of the segment. -/
structure Stored (request : PutRequest) (current : PyMap) (updates : PyDict) : Prop where
  valid : validateSegment request.scenarios request.updates current = .ok ()
  other : ∀ key, key ≠ "asr_filter" → PyDict.get? updates.reverse key =
    PyDict.get? request.updates key
  absent : PyDict.get? request.updates "asr_filter" = none →
    PyDict.get? updates.reverse "asr_filter" = none
  merged : ∀ block, PyDict.get? request.updates "asr_filter" = some (.dict block) →
    ∃ existing clean, dictOrEmpty (PyDict.get current.fields "asr_filter") = .ok existing ∧
      validateAsrFilterPatch block = .ok clean ∧
      PyDict.get? updates.reverse "asr_filter" = some (.dict (PyDict.update existing clean))

theorem nodup_given (body : SegmentUpdate) (segment : Segment) :
    ((body.given segment).map Prod.fst).Nodup := by
  have hkeys : ((body.fields segment).map Prod.fst).Nodup := by
    cases segment <;> simp [SegmentUpdate.fields]
  refine hkeys.sublist ?_
  unfold SegmentUpdate.given
  induction body.fields segment with
  | nil => exact List.Sublist.slnil
  | cons e fields ih =>
    cases hv : e.2.join with
    | none =>
      rw [List.filterMap_cons_none (by simp [hv])]
      exact ih.cons _
    | some v =>
      rw [List.filterMap_cons_some (b := (e.1, v)) (by simp [hv])]
      exact ih.cons_cons _

theorem nodup_normalizeSegment {updates : PyDict} (h : (updates.map Prod.fst).Nodup) :
    ((normalizeSegment updates).map Prod.fst).Nodup := by
  unfold normalizeSegment
  have hfilter : ((updates.filter fun e => e.1 ≠ "demo").map Prod.fst).Nodup :=
    h.sublist (List.filter_sublist.map _)
  split
  · exact h
  · split
    · exact hfilter
    · exact PyDict.nodup_set hfilter _ _

theorem PutRequest.nodup_updates (request : PutRequest) :
    (request.updates.map Prod.fst).Nodup :=
  nodup_normalizeSegment (nodup_given _ _)

theorem get?_normalizeSegment {updates : PyDict} {key : String} (hdemo : key ≠ "demo")
    (hscenario : key ≠ "scenario") :
    PyDict.get? (normalizeSegment updates) key = PyDict.get? updates key := by
  have hfilter : PyDict.get? (updates.filter fun e => e.1 ≠ "demo") key =
      PyDict.get? updates key := by
    rw [PyDict.get?, PyDict.get?, List.find?_filter]
    refine congrArg (Option.map Prod.snd) (congrFun (congrArg List.find? (funext fun e => ?_)) _)
    by_cases he : e.1 = key
    · simp [he, hdemo]
    · simp [he]
  unfold normalizeSegment
  split
  · rfl
  · split
    · exact hfilter
    · rw [PyDict.get?_set, if_neg (Ne.symm hscenario), hfilter]

/-- The block of a request is the field `asr_filter` of its body. -/
theorem PutRequest.asrFilter_body (request : PutRequest) {value : PyVal}
    (h : PyDict.get? request.updates "asr_filter" = some value) :
    ∃ block, value = .dict block ∧ request.body.asrFilter = some (some block) := by
  rw [PutRequest.updates, get?_normalizeSegment (by decide) (by decide)] at h
  obtain ⟨e, hfind, rfl⟩ := Option.map_eq_some_iff.mp h
  have hmem := List.mem_of_find?_eq_some hfind
  have hkey : e.1 = "asr_filter" := by simpa using List.find?_some hfind
  obtain ⟨field, hfield, hvalue⟩ := List.mem_filterMap.mp hmem
  obtain ⟨v, hjoin, rfl⟩ := Option.map_eq_some_iff.mp hvalue
  -- The key is that of the last field.
  have hasr : field = ("asr_filter", request.body.asrFilter.map (Option.map .dict)) := by
    cases hsegment : request.segment <;> rw [hsegment] at hfield <;>
      simp only [SegmentUpdate.fields, List.mem_cons, List.not_mem_nil, or_false] at hfield <;>
      grind
  rw [hasr] at hjoin
  cases hbody : request.body.asrFilter with
  | none =>
    rw [hbody] at hjoin
    cases hjoin
  | some block? =>
    rw [hbody] at hjoin
    cases block? with
    | none => cases hjoin
    | some block => exact ⟨block, (Option.some.inj hjoin).symm, rfl⟩

/-- The part of the updates that is not a block is stored as it is, and so is everything if there is
no block. -/
theorem stored_self {request : PutRequest} {current : PyMap}
    (hvalid : validateSegment request.scenarios request.updates current = .ok ())
    (hasr : PyDict.get? request.updates "asr_filter" = none) :
    Stored request current request.updates where
  valid := hvalid
  other key _ := PyDict.get?_reverse request.nodup_updates key
  absent _ := (PyDict.get?_reverse request.nodup_updates _).trans hasr
  merged block hblock := by
    rw [hasr] at hblock
    cases hblock

theorem stored_merged {request : PutRequest} {current : PyMap} {block existing clean : PyDict}
    (hvalid : validateSegment request.scenarios request.updates current = .ok ())
    (hasr : PyDict.get? request.updates "asr_filter" = some (.dict block))
    (hexisting : dictOrEmpty (PyDict.get current.fields "asr_filter") = .ok existing)
    (hclean : validateAsrFilterPatch block = .ok clean) :
    Stored request current
      (PyDict.set request.updates "asr_filter" (.dict (PyDict.update existing clean))) := by
  have hnodup := PyDict.nodup_set request.nodup_updates "asr_filter"
    (.dict (PyDict.update existing clean))
  refine ⟨hvalid, fun key hkey => ?_, fun hnone => ?_, fun block' hblock => ?_⟩
  · -- Only the block is replaced.
    rw [PyDict.get?_reverse hnodup, PyDict.get?_set, if_neg (Ne.symm hkey)]
  · rw [hasr] at hnone
    cases hnone
  · rw [hasr] at hblock
    cases hblock
    refine ⟨existing, clean, hexisting, hclean, ?_⟩
    rw [PyDict.get?_reverse hnodup, PyDict.get?_set, if_pos rfl]

/-- Merging the block reads the configuration at most, and makes what is stored. -/
theorem mergeAsrFilter_cases [Json.Python] {request : PutRequest} {store : Store} {current : PyMap}
    (hstore : store? b = some store)
    (hcurrent : (store.get request.segment).updateInto (fallback.base request.segment) = .ok current)
    (hvalid : validateSegment request.scenarios request.updates current = .ok ()) :
    ∃ b', store? b' = some store ∧
      ((∃ e, mergeAsrFilter fallback request {} request.updates b = .error e b') ∨
        ∃ updates, mergeAsrFilter fallback request {} request.updates b = .ok updates b' ∧
          Stored request current updates) := by
  unfold mergeAsrFilter
  cases hasr : PyDict.get? request.updates "asr_filter" with
  | none => exact ⟨b, hstore, Or.inr ⟨_, rfl, stored_self hvalid hasr⟩⟩
  | some value =>
    obtain ⟨block, rfl, -⟩ := request.asrFilter_body hasr
    cases hclean : validateAsrFilterPatch block with
    | error e => exact ⟨b, hstore, Or.inl ⟨.http e, by simp only [hclean]; rfl⟩⟩
    | ok clean =>
      refine ⟨{ b with cache := some store }, rfl, ?_⟩
      -- The merge reads the segment once more, from the same store.
      have hget : callConfig (mergeSegment fallback request.segment {} request.readAt) b =
          .ok current { b with cache := some store } := by
        rw [callConfig, mergeSegment_of_store? hstore, hcurrent]
        rfl
      simp only [hclean]
      cases hexisting : dictOrEmpty (PyDict.get current.fields "asr_filter") with
      | error e =>
        refine Or.inl ⟨.config (.update e), ?_⟩
        refine (bind_ok (a := clean) rfl _).trans ((bind_ok hget _).trans ?_)
        rw [hexisting]
        rfl
      | ok existing =>
        refine Or.inr ⟨_, ?_, stored_merged hvalid hasr hexisting hclean⟩
        refine (bind_ok (a := clean) rfl _).trans ((bind_ok hget _).trans ?_)
        rw [hexisting]
        rfl

/-- What the getters show depends on the store alone. -/
theorem segmentView_congr [Json.Python] (h : store? b' = store? b) :
    segmentView fallback b' = segmentView fallback b := by
  funext segment
  rw [segmentView, segmentView, h]

/-- A dictionary with the updates over it. -/
def updatedView (updates : PyDict) (v : PyMap.View) : PyMap.View :=
  (fun key => (PyDict.get? updates.reverse key).or (v.1 key), v.2)

/-- What the getters show after an update of a segment. -/
theorem segmentView_updateSegment [Json.Python] {store : Store} {current : PyMap}
    (hstore : store? b = some store)
    (hcurrent : (store.get segment).updateInto (fallback.base segment) = .ok current)
    (updates : PyDict) :
    ∃ m b', updateSegment fallback segment updates {} now b = .ok m b' ∧
      segmentView fallback b' segment = .ok (updatedView updates current.view) ∧
      ∀ s, s ≠ segment → segmentView fallback b' s = segmentView fallback b s := by
  -- The value of the segment is a dictionary, as it can be laid over the fallback.
  have hview := @view_updateInto (fallback.base segment) rfl (store.get segment)
  rw [hcurrent] at hview
  cases hmap : (store.get segment).toMap with
  | error e =>
    rw [hmap] at hview
    cases hview
  | ok m =>
    rw [hmap] at hview
    have hover : current.view = PyMap.View.over (fallback.get segment) m.view :=
      Except.ok.inj hview
    obtain ⟨result, -, hok⟩ := @updateSegment_ok _ fallback {} now b _ _ _ hstore hmap rfl updates
    refine ⟨result, _, hok, ?_, fun s hs => ?_⟩
    · show (((store.edit segment (m.updateFields updates) now).get segment).updateInto
        (fallback.base segment)).map PyMap.view = _
      rw [Store.get_edit, if_pos rfl, @view_updateInto (fallback.base segment) rfl]
      show Except.ok (PyMap.View.over (fallback.get segment) (m.updateFields updates).view) = _
      rw [PyMap.view_updateFields, hover]
      refine congrArg Except.ok (Prod.ext (funext fun key => ?_) rfl)
      exact Option.or_assoc
    · rw [segmentView, segmentView, hstore]
      show (((store.edit segment (m.updateFields updates) now).get s).updateInto _).map _ = _
      rw [Store.get_edit, if_neg hs]

/-- A request is rejected and leaves what the getters show, or it is accepted and its updates are
stored. -/
theorem putSegment_cases [Json.Python] (fallback : Fallback) (b : ConfigState) (request : PutRequest) :
    (∃ e b', putSegment fallback request {} b = .error e b' ∧
      segmentView fallback b' = segmentView fallback b) ∨
    ∃ result b' current updates, putSegment fallback request {} b = .ok result b' ∧
      segmentView fallback b request.segment = .ok current.view ∧
      Stored request current updates ∧
      segmentView fallback b' request.segment = .ok (updatedView updates current.view) ∧
      ∀ s, s ≠ request.segment → segmentView fallback b' s = segmentView fallback b s := by
  have hget : callConfig (mergeSegment fallback request.segment {} request.readAt) b =
      callConfig (ofUpdate (((heldStore fallback request.readAt b).get request.segment).updateInto
        (fallback.base request.segment))) (loaded fallback request.readAt b) := by
    rw [callConfig, mergeSegment_eq]
    rfl
  have hshown := @updateInto_heldStore fallback b request.readAt _ request.segment
  -- Reading the segment, the validation and the merge of the ASR filter may each raise;
  -- the segments are read as before then.
  cases hcurrent : ((heldStore fallback request.readAt b).get request.segment).updateInto
    (fallback.base request.segment) with
  | error e =>
    rw [hcurrent] at hget
    exact Or.inl ⟨_, _, bind_error hget _, segmentView_loaded⟩
  | ok current =>
    rw [hcurrent] at hget hshown
    have hrun := bind_ok (a := current) (t := loaded fallback request.readAt b) hget
      fun current => do
        ofChecked (validateSegment request.scenarios request.updates current)
        let updates ← mergeAsrFilter fallback request {} request.updates
        let result ← callConfig
          (updateSegment fallback request.segment updates {} request.writtenAt)
        return mirrorDemoAlias result
    cases hvalid : validateSegment request.scenarios request.updates current with
    | error e =>
      refine Or.inl ⟨e, loaded fallback request.readAt b, hrun.trans ?_, segmentView_loaded⟩
      rw [hvalid]
      rfl
    | ok u =>
      -- Both outcomes of the merge leave the store as it was loaded.
      obtain ⟨b₁, hstore, ⟨e, hmerge⟩ | ⟨updates, hmerge, hstored⟩⟩ :=
        mergeAsrFilter_cases store?_loaded hcurrent hvalid
      · refine Or.inl ⟨e, b₁, hrun.trans ?_, ?_⟩
        · rw [hvalid]
          exact bind_error hmerge _
        · rw [segmentView_congr (hstore.trans store?_loaded.symm), segmentView_loaded]
      · obtain ⟨m, b₂, hupdate, hsegment, hother⟩ := @segmentView_updateSegment fallback b₁ _
          request.writtenAt _ _ current hstore hcurrent updates
        refine Or.inr ⟨mirrorDemoAlias m, b₂, current, updates, hrun.trans ?_, hshown.symm, hstored,
          hsegment, fun s hs => ?_⟩
        · rw [hvalid]
          refine (bind_ok hmerge _).trans ?_
          refine (bind_ok (a := m) (t := b₂) ?_ _).trans rfl
          rw [callConfig, hupdate]
        · rw [hother s hs, segmentView_congr (hstore.trans store?_loaded.symm), segmentView_loaded]

/-! ### Launch defaults stay valid -/

/-- The engine and the language of a segment are known, and the engine serves the language. -/
def Launchable (v : PyMap.View) : Prop :=
  ∃ engine lang, v.1 "engine" = some (.str engine) ∧ engine ∈ engines ∧
    v.1 "lang" = some (.str lang) ∧ lang ∈ languages ∧ serves engine lang = true

theorem inTable_eq_true_iff {table : List String} {v : PyVal} :
    inTable table v = .ok true ↔ ∃ s ∈ table, v = .str s := by
  constructor
  · intro h
    cases v with
    | str s => exact ⟨s, by simpa [inTable] using h, rfl⟩
    | _ => simp [inTable] at h
  · rintro ⟨s, hs, rfl⟩
    simpa [inTable] using hs

/-- A field that has passed its check is in the table. -/
theorem checkKnown_ok {updates : PyDict} {key detail : String} {table : List String} {v : PyVal}
    (h : checkKnown updates key table detail = .ok ()) (hv : PyDict.get? updates key = some v) :
    ∃ s ∈ table, v = .str s := by
  rw [checkKnown, hv] at h
  obtain ⟨known, hknown, h⟩ := ok_of_bind h
  cases known with
  | true => exact inTable_eq_true_iff.mp hknown
  | false => cases h

theorem languageInfo?_isSome {lang : String} (h : lang ∈ languages) :
    (languageInfo? lang).isSome = true := by
  have hall : languages.all fun lang => (languageInfo? lang).isSome := by decide
  exact List.all_eq_true.mp hall lang h

/-- An engine and a language that are known and have passed the check go together. -/
theorem checkServes_ok {merged : PyDict} {engine lang : String} (h : checkServes merged = .ok ())
    (hengine : PyDict.get? merged "engine" = some (.str engine)) (hengines : engine ∈ engines)
    (hlang : PyDict.get? merged "lang" = some (.str lang)) (hlanguages : lang ∈ languages) :
    serves engine lang = true := by
  have hengine' : PyDict.get merged "engine" = .str engine := by rw [PyDict.get, hengine]; rfl
  have hlang' : PyDict.get merged "lang" = .str lang := by rw [PyDict.get, hlang]; rfl
  obtain ⟨entry, hentry⟩ := Option.isSome_iff_exists.mp (languageInfo?_isSome hlanguages)
  have hknown := inTable_eq_true_iff.mpr ⟨engine, hengines, rfl⟩
  have hknown' := inTable_eq_true_iff.mpr ⟨lang, hlanguages, rfl⟩
  simp only [checkServes, hengine', hlang', hknown, hknown', shown, hentry, bind, Except.bind,
    if_true] at h
  rw [serves, hentry]
  simp only [Bool.and_eq_true, Bool.or_eq_true, decide_eq_true_eq]
  by_cases hserved : entry.engines.contains engine = true
  · refine ⟨hserved, ?_⟩
    -- The pipeline without a recognizer is refused.
    by_contra hno
    push Not at hno
    have hstt : engine = "pipeline" ∧ entry.stt = none := by
      refine ⟨hno.1, Option.isNone_iff_eq_none.mp ?_⟩
      simpa using hno.2
    rw [if_neg (by simpa using hserved), if_pos hstt] at h
    cases h
  · rw [if_pos (by simpa using hserved)] at h
    cases h

/-- What an update shows under a key that is not the one of the block. -/
theorem Stored.get?_updatedView {request : PutRequest} {current : PyMap} {updates : PyDict}
    (h : Stored request current updates) {key : String} (hkey : key ≠ "asr_filter") :
    (updatedView updates current.view).1 key =
      PyDict.get? (current.updateFields request.updates).fields key := by
  show (PyDict.get? updates.reverse key).or (PyDict.get? current.fields key) =
    PyDict.get? (PyDict.update current.fields request.updates) key
  rw [h.other key hkey, PyDict.get?_update, PyDict.get?_reverse request.nodup_updates]

/-- A field of an updated segment that has passed its check, over one that was in the table. -/
theorem get?_updateFields_known {updates : PyDict} {current : PyMap} {key detail old : String}
    {table : List String} (hnodup : (updates.map Prod.fst).Nodup)
    (h : checkKnown updates key table detail = .ok ())
    (hcurrent : PyDict.get? current.fields key = some (.str old)) (hold : old ∈ table) :
    ∃ s ∈ table, PyDict.get? (current.updateFields updates).fields key = some (.str s) := by
  show ∃ s ∈ table, PyDict.get? (PyDict.update current.fields updates) key = some (.str s)
  rw [PyDict.get?_update, PyDict.get?_reverse hnodup]
  cases hv : PyDict.get? updates key with
  | none => exact ⟨old, hold, hcurrent⟩
  | some v =>
    obtain ⟨s, hs, rfl⟩ := checkKnown_ok h hv
    exact ⟨s, hs, rfl⟩

/-- An accepted update of a launchable segment makes a launchable one. -/
theorem Stored.launchable {request : PutRequest} {current : PyMap} {updates : PyDict}
    (h : Stored request current updates) (hcurrent : Launchable current.view) :
    Launchable (updatedView updates current.view) := by
  obtain ⟨engine, lang, hengine, hengines, hlang, hlanguages, -⟩ := hcurrent
  obtain ⟨⟨⟩, hcheckEngine, hvalid⟩ := ok_of_bind h.valid
  obtain ⟨⟨⟩, hcheckLang, hvalid⟩ := ok_of_bind hvalid
  -- The scenario, the provider and the model do not matter here.
  iterate 3 obtain ⟨-, -, hvalid⟩ := ok_of_bind hvalid
  obtain ⟨engine', hengines', hengine'⟩ :=
    get?_updateFields_known request.nodup_updates hcheckEngine hengine hengines
  obtain ⟨lang', hlanguages', hlang'⟩ :=
    get?_updateFields_known request.nodup_updates hcheckLang hlang hlanguages
  refine ⟨engine', lang', ?_, hengines', ?_, hlanguages',
    checkServes_ok hvalid hengine' hengines' hlang' hlanguages'⟩
  · rw [h.get?_updatedView (by decide), hengine']
  · rw [h.get?_updatedView (by decide), hlang']

/-- A sub-key of the block `asr_filter`. -/
def subKey? (v : PyMap.View) (key : String) : Option PyVal :=
  match v.1 "asr_filter" with
  | some (.dict d) => PyDict.get? d key
  | _ => none

/-- The body of a request names the sub-key. -/
def PutRequest.Mentions (request : PutRequest) (key : String) : Prop :=
  ∃ block, request.body.asrFilter = some (some block) ∧ (PyDict.get? block key).isSome = true

/-- The cleaned entry of a sub-key has its key, which the block has as well. -/
theorem key_of_subKey {d entries : PyDict} {key : String}
    {check : PyVal → Except HTTPException PyVal} (h : subKey d key check = .ok entries) :
    ∀ e ∈ entries, (PyDict.get? d e.1).isSome = true := by
  intro e he
  rw [subKey] at h
  cases hget : PyDict.get? d key with
  | none =>
    rw [hget] at h
    obtain rfl := Except.ok.inj h
    exact absurd he List.not_mem_nil
  | some v =>
    rw [hget] at h
    change (check v).map _ = _ at h
    cases hcheck : check v with
    | error e' =>
      rw [hcheck] at h
      cases h
    | ok v' =>
      rw [hcheck] at h
      obtain rfl := Except.ok.inj h
      rw [List.mem_singleton.mp he, hget]
      rfl

/-- Validation keeps keys of the block only. -/
theorem key_of_validateAsrFilterPatch {d clean : PyDict} (h : validateAsrFilterPatch d = .ok clean) :
    ∀ e ∈ clean, (PyDict.get? d e.1).isSome = true := by
  obtain ⟨enabled, henabled, h⟩ := ok_of_bind h
  obtain ⟨confidence, hconfidence, h⟩ := ok_of_bind h
  obtain ⟨chars, hchars, h⟩ := ok_of_bind h
  obtain ⟨words, hwords, h⟩ := ok_of_bind h
  obtain rfl := Except.ok.inj h
  intro e he
  rcases List.mem_append.mp he with he | he
  · rcases List.mem_append.mp he with he | he
    · rcases List.mem_append.mp he with he | he
      · exact key_of_subKey henabled e he
      · exact key_of_subKey hconfidence e he
    · exact key_of_subKey hchars e he
  · exact key_of_subKey hwords e he

/-- An accepted update keeps the sub-keys that its body does not name. -/
theorem Stored.subKey? {request : PutRequest} {current : PyMap} {updates : PyDict}
    (h : Stored request current updates) {key : String} {x : PyVal}
    (hx : subKey? current.view key = some x) (hkey : ¬ request.Mentions key) :
    subKey? (updatedView updates current.view) key = some x := by
  cases hasr : PyDict.get? request.updates "asr_filter" with
  | none =>
    have hview : (updatedView updates current.view).1 "asr_filter" =
        current.view.1 "asr_filter" := by
      show (PyDict.get? updates.reverse "asr_filter").or _ = _
      rw [h.absent hasr]
      rfl
    rw [Config.subKey?, hview]
    exact hx
  | some value =>
    obtain ⟨block, rfl, hbody⟩ := request.asrFilter_body hasr
    obtain ⟨existing, clean, hexisting, hclean, hget⟩ := h.merged block hasr
    have hview : (updatedView updates current.view).1 "asr_filter" =
        some (.dict (PyDict.update existing clean)) := by
      show (PyDict.get? updates.reverse "asr_filter").or _ = _
      rw [hget]
      rfl
    -- The block that was there is a dictionary with the sub-key, so it is the one merged into.
    obtain ⟨d, hd, hdx⟩ : ∃ d, PyDict.get? current.fields "asr_filter" = some (.dict d) ∧
        PyDict.get? d key = some x := by
      unfold Config.subKey? at hx
      split at hx
      · next d hd => exact ⟨d, hd, hx⟩
      · cases hx
    have hsame : existing = d := by
      have hne : d ≠ [] := by
        rintro rfl
        cases hdx
      rw [PyDict.get, hd] at hexisting
      cases d with
      | nil => exact absurd rfl hne
      | cons e d => exact (Except.ok.inj hexisting).symm
    have hclean' : PyDict.get? clean.reverse key = none := by
      refine Option.map_eq_none_iff.mpr (List.find?_eq_none.mpr fun e he hek => ?_)
      have hsome := key_of_validateAsrFilterPatch hclean e (List.mem_reverse.mp he)
      rw [show e.1 = key by simpa using hek] at hsome
      exact hkey ⟨block, hbody, hsome⟩
    rw [Config.subKey?, hview, hsame]
    show PyDict.get? (PyDict.update d clean) key = some x
    rw [PyDict.get?_update, hclean', hdx]
    rfl

/-- The getters of both segments return launchable ones. -/
def ValidDefaults [Json.Python] (fallback : Fallback) (b : ConfigState) : Prop :=
  ∀ segment, ∃ v, Shows fallback b segment v ∧ Launchable v

/-- A request leaves the other segment, and the sub-keys that it does not name. -/
structure KeepsRest [Json.Python] (fallback : Fallback) (b : ConfigState) (request : PutRequest) :
    Prop where
  other : ∀ (segment : Segment) (v : PyMap.View), segment ≠ request.segment →
    Shows fallback b segment v → Shows fallback (put fallback b request) segment v
  asrFilter : ∀ (v v' : PyMap.View), Shows fallback b request.segment v →
    Shows fallback (put fallback b request) request.segment v' →
    ∀ (key : String) (x : PyVal), subKey? v key = some x → ¬ request.Mentions key →
      subKey? v' key = some x

/-- One request keeps the defaults valid and leaves the rest. -/
theorem put_step [Json.Python] (request : PutRequest) (h : ValidDefaults fallback b) :
    ValidDefaults fallback (put fallback b request) ∧ KeepsRest fallback b request := by
  simp only [ValidDefaults, shows_iff] at h
  rcases putSegment_cases fallback b request with ⟨e, b', hrun, hview⟩ |
    ⟨result, b', current, updates, hrun, hcurrent, hstored, hsegment, hother⟩
  · have hput : put fallback b request = b' := by rw [put, exitState, hrun]
    refine ⟨?_, ?_, ?_⟩
    · simpa only [ValidDefaults, shows_iff, hput, hview] using h
    · simp only [shows_iff, hput, hview]
      exact fun _ _ _ hv => hv
    · simp only [shows_iff, hput, hview]
      intro v v' hv hv' key x hx _
      rw [hv] at hv'
      rwa [← Except.ok.inj hv']
  · have hput : put fallback b request = b' := by rw [put, exitState, hrun]
    refine ⟨fun segment => ?_, fun segment v hs hv => ?_, fun v v' hv hv' key x hx hkey => ?_⟩
    · obtain ⟨v, hv, hlaunch⟩ := h segment
      -- The segment of the request has the merged values, the other one is as it was.
      by_cases hs : segment = request.segment
      · subst hs
        rw [hcurrent] at hv
        obtain rfl := Except.ok.inj hv
        exact ⟨_, shows_iff.mpr (hput ▸ hsegment), hstored.launchable hlaunch⟩
      · exact ⟨v, shows_iff.mpr (by rw [hput, hother segment hs, hv]), hlaunch⟩
    · rw [shows_iff] at hv ⊢
      rw [hput, hother segment hs, hv]
    · rw [shows_iff, hcurrent] at hv
      rw [shows_iff, hput, hsegment] at hv'
      obtain rfl := Except.ok.inj hv
      obtain rfl := Except.ok.inj hv'
      exact hstored.subKey? hx hkey

/-- From valid defaults on, the defaults stay valid through every sequence of requests, and every
request leaves the other segment and the sub-keys of `asr_filter` that it does not name. -/
theorem launchDefaults_always [Json.Python] (fallback : Fallback) (b : ConfigState)
    (h : ValidDefaults fallback b) (requests : List PutRequest) :
    Run.Always (put fallback) (ValidDefaults fallback) b requests ∧
      Run.Guarded (put fallback) (KeepsRest fallback) b requests := by
  refine ⟨Run.always_of_invariant (I := ValidDefaults fallback)
    (fun _ request hb => (put_step request hb).1) h requests, ?_⟩
  induction requests generalizing b with
  | nil => trivial
  | cons request requests ih =>
    obtain ⟨hvalid, hkeeps⟩ := put_step request h
    exact ⟨hkeeps, ih _ hvalid⟩

/-- `_RUNTIME_FALLBACK`: the environment may set the model of the web segment and all of the phone
segment. -/
def envFallback (minimaxModel : String) (phone : PyDict) (hphone : (phone.map Prod.fst).Nodup) :
    Fallback where
  web :=
    [ ("lang", .str "en-US"), ("engine", .str "nova-sonic"), ("scenario", .str "default"),
      ("model", .str "nova-2-lite"), ("provider", .str "minimax"),
      ("voice", .str "Cantonese_GentleLady"), ("minimax_model", .str minimaxModel) ]
  phone
  web_nodup := by simp
  phone_nodup := hphone

/-- The defaults of the repository, where no environment variable sets others. -/
def runtimeFallback : Fallback :=
  envFallback "speech-2.8-turbo"
    [ ("engine", .str "nova-sonic"), ("lang", .str "en-US"), ("scenario", .str "default"),
      ("voice", .str "Cantonese_GentleLady"), ("provider", .str "minimax"),
      ("model", .str "nova-2-lite"), ("minimax_model", .str "speech-2.8-turbo") ]
    (by simp)

/-- A configuration without a file. -/
def noConfig : ConfigState := { cache := none, file := none }

/-- Two requests that are accepted, one that moves to a pipeline in Japanese and one that sets a
threshold, and one that is rejected between them. -/
def threeRequests : List PutRequest :=
  [ { segment := .web, body := { engine := some (some "pipeline"), lang := some (some "ja-JP") }
      scenarios := ["default"], readAt := "", writtenAt := "" },
    { segment := .web, body := { engine := some (some "nova-sonic") }
      scenarios := ["default"], readAt := "", writtenAt := "" },
    { segment := .phone, body := { asrFilter := some (some [("max_words", .int 2)]) }
      scenarios := ["default"], readAt := "", writtenAt := "" } ]

/-- The defaults of the repository stay valid through three requests. -/
theorem launchDefaults_threeRequests :
    letI := Json.samplePython
    Run.Always (put runtimeFallback) (ValidDefaults runtimeFallback) noConfig threeRequests ∧
      Run.Guarded (put runtimeFallback) (KeepsRest runtimeFallback) noConfig threeRequests := by
  let _ := Json.samplePython
  refine launchDefaults_always runtimeFallback noConfig (fun segment => ?_) threeRequests
  cases segment with
  | web =>
    exact ⟨_, shows_iff.mpr rfl, "nova-sonic", "en-US", rfl, by simp [engines], rfl,
      by simp [languages], by decide⟩
  | phone =>
    exact ⟨_, shows_iff.mpr rfl, "nova-sonic", "en-US", rfl, by simp [engines], rfl,
      by simp [languages], by decide⟩

end Config
