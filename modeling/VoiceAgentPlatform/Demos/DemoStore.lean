import VoiceAgentPlatform.Demos.Demo
import VoiceAgentPlatform.Http
import VoiceAgentPlatform.Lib.KeyedTable
import VoiceAgentPlatform.Lib.Ordered

/-!
# The demo store

`demo_store.py`: demos in a table, served from a cache in memory that `rescan` replaces as a whole.
Warnings and counts that are only logged are left out.

* `demoSchema`: the table, keyed by demo id.
* `DemoMemory`: the cache and the reasons why items were skipped.
* `get`, `rescan`, `put`: the methods of `DemoStore`.
* `loadItems`: the cache that a scan leaves; `get?_loadItems` says what it serves.
-/

namespace Demos

open Async KeyedTable

/-- The partition key of an item. -/
def itemId (item : PyDict) : String :=
  match item.get "id" with
  | .str id => id
  | _ => ""

/-- The demo table; it is never updated in place. `slot` is the table's own order. -/
def demoSchema (slot : String ↪ ℕ) : Schema String PyDict Empty where
  key := itemId
  slot
  update u := u.elim
  key_update u := u.elim

/-- The demo table. -/
abbrev DemoTable (slot : String ↪ ℕ) := Table (demoSchema slot)

/-- An entry of `last_skipped`. -/
structure Skipped where
  id : String
  reason : String

/-- The attributes of `DemoStore` that change. -/
structure DemoMemory where
  cache : OrderedMap String PyDict
  lastSkipped : List Skipped

/-- What a request can raise. -/
inductive Exc where
  | http (e : HTTPException)
  | valueError (message : String)
  | service (f : Fault)

/-- Programs over the demo table and the cache. -/
abbrev DemoProg (slot : String ↪ ℕ) := Prog (service (demoSchema slot)) DemoMemory Exc

/-- `DemoStore.get`, with an empty demo as good as none. -/
def get (m : DemoMemory) (demoId : String) : Option PyDict :=
  if demoId = "" then none else m.cache.get? demoId

/-- `_deserialize`. -/
def deserialize (item : PyDict) : PyDict :=
  normalizeDemoDict (item.mapValues Ddb.fromDdb) none

/-- The item that `put` writes for a demo. -/
def serialize (demo : PyDict) : PyDict :=
  (normalizeDemoDict demo none).mapValues Ddb.itemValue

/-- The loop of `rescan` at one item. -/
def loadItem (acc : OrderedMap String PyDict × List Skipped) (item : PyDict) :
    OrderedMap String PyDict × List Skipped :=
  let demo := deserialize item
  match demo.get "id" with
  | .str id =>
    if id = "" then (acc.1, acc.2 ++ [⟨"?", "item missing id"⟩])
    else if acc.1.has id then (acc.1, acc.2 ++ [⟨id, "duplicate id " ++ id⟩])
    else (acc.1.set id demo, acc.2)
  -- The table admits no other keys than strings.
  | _ => (acc.1, acc.2 ++ [⟨"?", "item missing id"⟩])

/-- The cache that a scan of `items` leaves. -/
def loadItems (items : List PyDict) : OrderedMap String PyDict := (items.foldl loadItem (∅, [])).1

/-- The items that a scan skips. -/
def skippedItems (items : List PyDict) : List Skipped := (items.foldl loadItem (∅, [])).2

variable {slot : String ↪ ℕ}

/-- Why a scan failed; a code other than that of a missing table stands for type and message of the
exception. -/
def scanFailure (table : String) : Fault → String
  | .service code =>
    if code = "ResourceNotFoundException" then "table '" ++ table ++ "' missing"
    else "scan failed: " ++ code
  | .conditionalCheckFailed => "scan failed: "

/-- `DEMOS_TABLE`. -/
def demosTable : String := "genaiic-voicebot-demos"

/-- `rescan`: the number of demos in the cache. -/
def rescan : DemoProg slot ℕ := do
  modify fun m => { m with lastSkipped := [] }
  .await (Op.scan : Op String PyDict Empty) fun
    -- A scan that fails leaves the cache as it is.
    | .error f => do
      modify fun m => { m with lastSkipped := m.lastSkipped ++ [⟨"*", scanFailure demosTable f⟩] }
      let m : DemoMemory ← MonadState.get
      return m.cache.keys.length
    | .ok items => do
      modify fun m =>
        { cache := loadItems items, lastSkipped := m.lastSkipped ++ skippedItems items }
      return (loadItems items).keys.length

/-- `put`. -/
def put (demo : PyDict) : DemoProg slot Unit :=
  if (demo.get "id").truthy then
    match (serialize demo).get "id" with
    | .str _ =>
      .await (Op.putItem (serialize demo) : Op String PyDict Empty) fun
        | .ok _ => pure ()
        | .error f => throw (.service f)
    -- The table rejects an item whose key is not a string.
    | _ => throw (.service (.service "ValidationException"))
  else throw (.valueError "demo_dict must be a dict with a non-empty 'id'")

/-- Reading an item keeps an id that is a string. -/
theorem get_id_deserialize (item : PyDict) :
    (deserialize item).get "id" = Ddb.fromDdb (item.get "id") := by
  rw [deserialize, get_id_normalizeDemoDict]
  exact PyDict.get_mapValues rfl item "id"

/-- Reading an item keeps its key. -/
theorem get_id_deserialize_of_itemId {item : PyDict} {id : String} (hid : id ≠ "")
    (h : itemId item = id) : (deserialize item).get "id" = .str id := by
  rw [get_id_deserialize]
  unfold itemId at h
  split at h
  · rename_i hitem
    rw [hitem, ← h]
    rfl
  · exact absurd h.symm hid

theorem get_id_serialize {demo : PyDict} {demoId : String} (h : demo.get "id" = .str demoId) :
    (serialize demo).get "id" = .str demoId := by
  rw [serialize, PyDict.get_mapValues rfl, get_id_normalizeDemoDict, h]
  rfl

/-- One item of a scan: the first item with a key that is not empty is kept. -/
theorem get?_loadItem (acc : OrderedMap String PyDict × List Skipped) (item : PyDict) {id : String}
    (hid : id ≠ "") :
    (loadItem acc item).1.get? id =
      (acc.1.get? id).or (if itemId item = id then some (deserialize item) else none) := by
  -- An item with another key leaves the entry, and the right side does so too.
  have hother (h : itemId item ≠ id) (hkeep : (loadItem acc item).1.get? id = acc.1.get? id) :
      (loadItem acc item).1.get? id =
        (acc.1.get? id).or (if itemId item = id then some (deserialize item) else none) := by
    rw [hkeep, if_neg h, Option.or_none]
  have hget := get_id_deserialize item
  cases hitem : item.get "id" with
  | str s =>
    have hdemo : (deserialize item).get "id" = .str s := by
      rw [hget, hitem]
      rfl
    have hkey : itemId item = s := by rw [itemId, hitem]
    simp only [loadItem, hdemo, hkey]
    split_ifs with hempty hsid hhas hsid hsid
    · exact absurd (hsid.symm.trans hempty) hid
    · rw [Option.or_none]
    · subst hsid
      obtain ⟨demo, hdemo⟩ := Option.isSome_iff_exists.mp hhas
      rw [hdemo]
      rfl
    · rw [Option.or_none]
    · subst hsid
      rw [OrderedMap.get?_set_self, Option.not_isSome_iff_eq_none.mp hhas]
      rfl
    · rw [OrderedMap.get?_set_of_ne _ _ (Ne.symm hsid), Option.or_none]
  -- A key that is no text is read as no id and skipped.
  | decimal q =>
    refine hother (by simpa [itemId, hitem] using Ne.symm hid) ?_
    rw [hitem] at hget
    simp only [loadItem, hget, Ddb.fromDdb, PyVal.mapScalars, Ddb.decimalToNumber]
    split_ifs <;> rfl
  | _ =>
    refine hother (by simpa [itemId, hitem] using Ne.symm hid) ?_
    rw [hitem] at hget
    simp only [loadItem, hget, Ddb.fromDdb, PyVal.mapScalars, Ddb.decimalToNumber]

/-- The cache serves, under each id that is not empty, the item with this key. -/
theorem get?_loadItems (items : List PyDict) {id : String} (hid : id ≠ "") :
    (loadItems items).get? id = (items.find? fun item => itemId item = id).map deserialize := by
  have hfold : ∀ acc : OrderedMap String PyDict × List Skipped,
      (items.foldl loadItem acc).1.get? id =
        (acc.1.get? id).or ((items.find? fun item => itemId item = id).map deserialize) := by
    induction items with
    | nil => exact fun acc => (Option.or_none).symm
    | cons item items ih =>
      intro acc
      rw [List.foldl_cons, ih, get?_loadItem acc item hid, Option.or_assoc]
      by_cases hkey : itemId item = id
      · rw [if_pos hkey, List.find?_cons_of_pos (by simpa using hkey)]
        rfl
      · rw [if_neg hkey, List.find?_cons_of_neg (by simpa using hkey), Option.none_or]
  exact hfold (∅, [])

end Demos
