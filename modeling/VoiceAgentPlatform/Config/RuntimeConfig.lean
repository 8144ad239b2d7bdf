import VoiceAgentPlatform.Lib.AtomicFile
import VoiceAgentPlatform.Lib.DictUpdate
import VoiceAgentPlatform.Lib.Json
import VoiceAgentPlatform.Lib.Raising

/-!
# The runtime configuration

`runtime_config.py`: the web and the phone defaults, kept in memory and in a JSON file, over a
fallback for each. The values of a segment are used as the file has them.

* `readStore?`: the part of `_load_or_seed` that reads the file.
* `ensureLoaded`, `mergeSegment`, `updateSegment`: the methods of `RuntimeConfig`.
-/

namespace Config

open AtomicFile Raising

/-- The two segments. -/
inductive Segment where
  | web
  | phone
  deriving DecidableEq

/-- The value under a segment's key: as it was read from JSON, or as an update has made it. -/
inductive SegmentValue where
  | json (value : PyVal)
  | dict (m : PyMap)

/-- The content of the configuration: the segments, and the entries under other keys. -/
structure Store where
  web : SegmentValue
  phone : SegmentValue
  rest : PyDict

/-- `store[segment]`. -/
def Store.get (store : Store) : Segment → SegmentValue
  | .web => store.web
  | .phone => store.phone

/-- `store[segment] = value`. -/
def Store.set (store : Store) (segment : Segment) (value : SegmentValue) : Store :=
  match segment with
  | .web => { store with web := value }
  | .phone => { store with phone := value }

@[simp] theorem Store.get_set (store : Store) (segment segment' : Segment) (value : SegmentValue) :
    (store.set segment value).get segment' =
      if segment' = segment then value else store.get segment' := by
  cases segment <;> cases segment' <;> rfl

@[simp] theorem Store.set_get (store : Store) (segment : Segment) :
    store.set segment (store.get segment) = store := by
  cases segment <;> rfl

@[simp] theorem Store.rest_set (store : Store) (segment : Segment) (value : SegmentValue) :
    (store.set segment value).rest = store.rest := by
  cases segment <;> rfl

/-- The check of `_load_or_seed` on the value in the file. -/
def usable? : PyVal → Option Store
  | .dict d =>
    match PyDict.get? d "web", PyDict.get? d "phone" with
    | some web, some phone =>
      some { web := .json web, phone := .json phone
             rest := d.filter fun e => e.1 ≠ "web" ∧ e.1 ≠ "phone" }
    | _, _ => none
  | _ => none

/-- The store that a file holds, unless it is to be seeded again. -/
def readStore? [Json.Python] : FileText Store → Option Store
  | .bytes b => (Json.loadBytes b).bind usable?
  | .dumped store => some store

/-- The dictionaries under the configuration. -/
structure Fallback where
  web : PyDict
  phone : PyDict
  web_nodup : (web.map Prod.fst).Nodup
  phone_nodup : (phone.map Prod.fst).Nodup

def Fallback.get (fallback : Fallback) : Segment → PyDict
  | .web => fallback.web
  | .phone => fallback.phone

theorem Fallback.nodup (fallback : Fallback) (segment : Segment) :
    ((fallback.get segment).map Prod.fst).Nodup := by
  cases segment with
  | web => exact fallback.web_nodup
  | phone => exact fallback.phone_nodup

/-- `dict(self._fallback[segment])`. -/
def Fallback.base (fallback : Fallback) (segment : Segment) : PyMap :=
  ⟨fallback.get segment, [], fallback.nodup segment⟩

/-- `_SCHEMA_VERSION` and the time of a write. -/
def metaEntry (now : String) : PyVal := .dict [("version", .int 1), ("updated_at", .str now)]

/-- `_build_seed`. -/
def buildSeed (fallback : Fallback) (now : String) : Store where
  web := .dict (fallback.base .web)
  phone := .dict (fallback.base .phone)
  rest := [("_meta", metaEntry now)]

/-- What a call raises: an error of a write, or of using a value as a dictionary. -/
inductive Exc where
  | write (s : WriteStep)
  | update (e : UpdateError)
  deriving DecidableEq

/-- The state of a `RuntimeConfig`. -/
abbrev ConfigState := Backed Store

/-- Programs over a configuration. -/
abbrev ConfigM := FileM Store Exc

/-- How the writes of a call go: that of the seed and that of an update. -/
structure WritePlan where
  seed : Option WriteStep := none
  update : Option WriteStep := none

/-- Write the seed. -/
def seedFile (fallback : Fallback) (plan : WritePlan) (now : String) : ConfigM Store := do
  let seed := buildSeed fallback now
  writeAtomic plan.seed .write seed
  return seed

/-- `_load_or_seed`. -/
def loadOrSeed [Json.Python] (fallback : Fallback) (plan : WritePlan) (now : String) : ConfigM Store := do
  match (← get).file with
  | none => seedFile fallback plan now
  | some text =>
    match readStore? text with
    | some store => return store
    | none => seedFile fallback plan now

/-- `self._cache = store`. -/
def setCache (store : Store) : ConfigM Unit := modify fun b => { b with cache := some store }

/-- `_ensure_loaded`. -/
def ensureLoaded [Json.Python] (fallback : Fallback) (plan : WritePlan) (now : String) :
    ConfigM Store := do
  match (← get).cache with
  | some store => return store
  | none =>
    let store ← loadOrSeed fallback plan now
    setCache store
    return store

/-- `merged.update(value)`. -/
def SegmentValue.updateInto (m : PyMap) : SegmentValue → Except UpdateError PyMap
  | .json value => m.updateWith value
  | .dict m' => .ok (m.overlay m')

/-- `dict(value)`. -/
def SegmentValue.toMap : SegmentValue → Except UpdateError PyMap
  | .json value => PyMap.ofVal value
  | .dict m => .ok m

/-- What the readers of a segment see depends on its dictionary. -/
theorem view_updateInto {base : PyMap} (hbase : base.others = []) (value : SegmentValue) :
    (value.updateInto base).map PyMap.view =
      (value.toMap.map PyMap.view).map (PyMap.View.over base.fields) := by
  cases value with
  | json v => exact PyMap.view_updateWith hbase v
  | dict m => exact congrArg Except.ok (PyMap.view_overlay hbase m)

/-- Raise what using a value as a dictionary raises. -/
def ofUpdate {α : Type} : Except UpdateError α → ConfigM α
  | .ok a => pure a
  | .error e => throw (.update e)

/-- `_merge_segment`, which is `get_web_defaults` and `get_phone_defaults`. -/
def mergeSegment [Json.Python] (fallback : Fallback) (segment : Segment) (plan : WritePlan)
    (now : String) : ConfigM PyMap := do
  let store ← ensureLoaded fallback plan now
  ofUpdate ((store.get segment).updateInto (fallback.base segment))

/-- The assignments of an update to the store: the segment and the time of the write. -/
def Store.edit (store : Store) (segment : Segment) (current : PyMap) (now : String) : Store :=
  { store.set segment (.dict current) with rest := store.rest.set "_meta" (metaEntry now) }

@[simp] theorem Store.get_edit (store : Store) (segment segment' : Segment) (current : PyMap)
    (now : String) :
    (store.edit segment current now).get segment' =
      if segment' = segment then .dict current else store.get segment' := by
  rw [← Store.get_set]
  cases segment <;> cases segment' <;> rfl

/-- `_update_segment`, which is `update_web` and `update_phone`. The store is the one in memory, so
the assignments to it are seen by every reader, before the write and without it. -/
def updateSegment [Json.Python] (fallback : Fallback) (segment : Segment) (updates : PyDict)
    (plan : WritePlan) (now : String) : ConfigM PyMap := do
  let store ← ensureLoaded fallback plan now
  let current ← ofUpdate (store.get segment).toMap
  let current := current.updateFields updates
  let store := store.edit segment current now
  -- The cache is the dictionary that was edited, so it has the edit before the write.
  setCache store
  writeAtomic plan.update .write store
  setCache store
  ofUpdate ((SegmentValue.dict current).updateInto (fallback.base segment))

/-! ### What loading does -/

/-- The store that a configuration holds or will read, unless it is to be seeded. -/
def store? [Json.Python] (b : ConfigState) : Option Store :=
  match b.cache with
  | some store => some store
  | none => b.file.bind readStore?

/-- The state after a seed was written. -/
def seededState (fallback : Fallback) (now : String) (b : ConfigState) : ConfigState :=
  { b with cache := some (buildSeed fallback now), file := some (.dumped (buildSeed fallback now)) }

section

variable [Json.Python] {fallback : Fallback} {plan : WritePlan} {now : String} {b : ConfigState}

theorem loadOrSeed_of_store? {store : Store} (h : b.file.bind readStore? = some store) :
    loadOrSeed fallback plan now b = .ok store b := by
  change (match b.file with
    | none => seedFile fallback plan now
    | some text =>
      match readStore? text with
      | some store => (pure store : ConfigM Store)
      | none => seedFile fallback plan now) b = _
  obtain ⟨text, hfile, hstore⟩ := Option.bind_eq_some_iff.mp h
  rw [hfile]
  simp only [hstore]
  rfl

theorem loadOrSeed_of_none (h : b.file.bind readStore? = none) :
    loadOrSeed fallback plan now b = seedFile fallback plan now b := by
  change (match b.file with
    | none => seedFile fallback plan now
    | some text =>
      match readStore? text with
      | some store => (pure store : ConfigM Store)
      | none => seedFile fallback plan now) b = _
  cases hfile : b.file with
  | none => rfl
  | some text =>
    rw [hfile, Option.bind_some] at h
    simp only [h]

/-- A configuration without a value in memory loads it. -/
theorem ensureLoaded_of_not_cached (h : b.cache = none) :
    ensureLoaded fallback plan now b =
      (loadOrSeed fallback plan now >>= fun store => setCache store >>= fun _ => pure store) b := by
  change (match b.cache with
    | some store => (pure store : ConfigM Store)
    | none => loadOrSeed fallback plan now >>= fun store => setCache store >>= fun _ => pure store)
      b = _
  rw [h]

/-- Loading a configuration that holds a store or whose file does. -/
theorem ensureLoaded_of_store? {store : Store} (h : store? b = some store) :
    ensureLoaded fallback plan now b = .ok store { b with cache := some store } := by
  cases hcache : b.cache with
  | some store' =>
    rw [store?, hcache] at h
    obtain rfl := Option.some.inj h
    -- What is cached is returned as it is.
    change (match b.cache with
      | some store => (pure store : ConfigM Store)
      | none => loadOrSeed fallback plan now >>= fun store => setCache store >>= fun _ => pure store)
        b = _
    rw [hcache]
    show EStateM.Result.ok store' b = _
    rw [← hcache]
  | none =>
    rw [store?, hcache] at h
    rw [ensureLoaded_of_not_cached hcache, bind_ok (loadOrSeed_of_store? h)]
    rfl

/-- Loading a configuration that is to be seeded. -/
theorem ensureLoaded_seed (h : store? b = none) (hplan : plan.seed = none) :
    ensureLoaded fallback plan now b = .ok (buildSeed fallback now) (seededState fallback now b) := by
  cases hcache : b.cache with
  | some store =>
    rw [store?, hcache] at h
    cases h
  | none =>
    rw [store?, hcache] at h
    have hseed : loadOrSeed fallback plan now b = .ok (buildSeed fallback now)
        { b with file := some (.dumped (buildSeed fallback now)) } := by
      rw [loadOrSeed_of_none h, seedFile, hplan]
      rfl
    rw [ensureLoaded_of_not_cached hcache, bind_ok hseed]
    rfl

/-- Loading a configuration that cannot be seeded. -/
theorem ensureLoaded_seedFails {s : WriteStep} (h : store? b = none) (hplan : plan.seed = some s) :
    ensureLoaded fallback plan now b = .error (.write s) b := by
  cases hcache : b.cache with
  | some store =>
    rw [store?, hcache] at h
    cases h
  | none =>
    rw [store?, hcache] at h
    rw [ensureLoaded_of_not_cached hcache]
    refine bind_error ?_ _
    rw [loadOrSeed_of_none h, seedFile, hplan]
    exact bind_error (writeAtomic_some s Exc.write _ b) _

/-- A getter of a configuration that holds a store or whose file does. -/
theorem mergeSegment_of_store? {store : Store} (h : store? b = some store) (segment : Segment) :
    mergeSegment fallback segment plan now b =
      ofUpdate ((store.get segment).updateInto (fallback.base segment))
        { b with cache := some store } :=
  bind_ok (ensureLoaded_of_store? h) _

/-- An update of a store whose segment is no dictionary and makes none raises and changes nothing. -/
theorem updateSegment_toMap_error {store : Store} {segment : Segment} {e : UpdateError}
    (h : store? b = some store) (hmap : (store.get segment).toMap = .error e) (updates : PyDict) :
    updateSegment fallback segment updates plan now b =
      .error (.update e) { b with cache := some store } := by
  rw [updateSegment, bind_ok (ensureLoaded_of_store? h)]
  refine bind_error ?_ _
  rw [hmap]
  rfl

/-- An update whose write succeeds. -/
theorem updateSegment_ok {store : Store} {segment : Segment} {current : PyMap}
    (h : store? b = some store) (hmap : (store.get segment).toMap = .ok current)
    (hplan : plan.update = none) (updates : PyDict) :
    ∃ m, (SegmentValue.dict (current.updateFields updates)).updateInto
          (fallback.base segment) = .ok m ∧
      updateSegment fallback segment updates plan now b =
        .ok m { b with
          cache := some (store.edit segment (current.updateFields updates) now)
          file := some (.dumped (store.edit segment (current.updateFields updates) now)) } := by
  refine ⟨_, rfl, ?_⟩
  rw [updateSegment, bind_ok (ensureLoaded_of_store? h), hmap, hplan]
  rfl

/-- An update whose write fails raises, with the value in memory edited and the file as it was. -/
theorem updateSegment_write_error {store : Store} {segment : Segment} {current : PyMap}
    {s : WriteStep} (h : store? b = some store) (hmap : (store.get segment).toMap = .ok current)
    (hplan : plan.update = some s) (updates : PyDict) :
    updateSegment fallback segment updates plan now b =
      .error (.write s) { b with
        cache := some (store.edit segment (current.updateFields updates) now) } := by
  rw [updateSegment, bind_ok (ensureLoaded_of_store? h), hmap, hplan]
  exact bind_error (writeAtomic_some s Exc.write _ _) _

/-- An update of a configuration that cannot be seeded raises and changes nothing. -/
theorem updateSegment_seedFails {s : WriteStep} (h : store? b = none) (hplan : plan.seed = some s)
    (segment : Segment) (updates : PyDict) :
    updateSegment fallback segment updates plan now b = .error (.write s) b :=
  bind_error (ensureLoaded_seedFails h hplan) _

/-- An update of a configuration that is seeded first whose own write fails. -/
theorem updateSegment_seeded_error {s : WriteStep} (h : store? b = none) (hseed : plan.seed = none)
    (hplan : plan.update = some s) (segment : Segment) (updates : PyDict) :
    ∃ b', updateSegment fallback segment updates plan now b = .error (.write s) b' ∧
      b'.file = some (.dumped (buildSeed fallback now)) := by
  have hmap : ((buildSeed fallback now).get segment).toMap = .ok (fallback.base segment) := by
    cases segment <;> rfl
  refine ⟨{ seededState fallback now b with
    cache := some ((buildSeed fallback now).edit segment
      ((fallback.base segment).updateFields updates) now) }, ?_, rfl⟩
  rw [updateSegment, bind_ok (ensureLoaded_seed h hseed), hmap, hplan]
  exact bind_error (writeAtomic_some s Exc.write _ _) _

end

end Config
