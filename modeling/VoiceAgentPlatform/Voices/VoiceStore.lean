import Mathlib.Algebra.Ring.Nat
import Mathlib.Data.Int.Notation
import VoiceAgentPlatform.Ddb
import VoiceAgentPlatform.Lib.KeyedTable
import VoiceAgentPlatform.Lib.Ordered

/-!
# The voice store

`voice_store.py`: voices in a table with a composite key, served from a cache in memory that `rescan`
replaces as a whole. Warnings that are only logged are left out.

* `voiceSchema`: the table, keyed by provider and voice id.
* `VoiceMemory`: the cache, the live flag and the reasons why items were skipped.
* `get`, `rescan`, `put`, `delete`: the methods of `VoiceStore`.
* `loadItems`: the cache that a scan leaves; `get?_loadItems` says what it serves.
-/

namespace Voices

open Async KeyedTable

/-- A string attribute, empty if it is no string. -/
def strAttr (item : PyDict) (key : String) : String :=
  match item.get key with
  | .str s => s
  | _ => ""

/-- The composite key of an item. -/
def itemKey (item : PyDict) : String × String := (strAttr item "provider", strAttr item "voice_id")

/-- The voice table; it is never updated in place. `slot` is the table's own order. -/
def voiceSchema (slot : String × String ↪ ℕ) : Schema (String × String) PyDict Empty where
  key := itemKey
  slot
  update u := u.elim
  key_update u := u.elim

/-- The voice table. -/
abbrev VoiceTable (slot : String × String ↪ ℕ) := Table (voiceSchema slot)

/-- An entry of `last_skipped`. -/
structure Skipped where
  id : String
  reason : String

/-- The voices by provider and voice id. -/
abbrev VoiceCache := OrderedMap String (OrderedMap String PyDict)

/-- The attributes of `VoiceStore` that change. -/
structure VoiceMemory where
  cache : VoiceCache
  live : Bool
  lastSkipped : List Skipped

/-- What a call of the store can raise. -/
inductive Exc where
  | valueError (message : String)
  | service (f : Fault)

/-- Programs over the voice table and the cache. -/
abbrev VoiceProg (slot : String × String ↪ ℕ) := Prog (service (voiceSchema slot)) VoiceMemory Exc

/-- `VOICE_PROVIDERS`. -/
def voiceProviders : List String := ["minimax", "polly", "nova-sonic"]

/-- The cache without voices. -/
def emptyCache : VoiceCache := voiceProviders.foldl (fun cache p => cache.set p ∅) ∅

/-- The voice under a provider and a voice id. -/
def lookup (cache : VoiceCache) (provider voiceId : String) : Option PyDict :=
  (cache.get? provider).bind fun voices => voices.get? voiceId

/-- `VoiceStore.get`. -/
def get (m : VoiceMemory) (provider voiceId : String) : Option PyDict :=
  if provider = "" ∨ voiceId = "" then none else lookup m.cache provider voiceId

/-- The attributes of an item, without its key columns: the third result of `_split_item`. -/
def itemAttrs (item : PyDict) : PyDict :=
  (item.mapValues Ddb.fromDdb).filter fun e => e.1 ≠ "provider" ∧ e.1 ≠ "voice_id"

/-- The loop of `rescan` at one item. -/
def loadItem (acc : VoiceCache × List Skipped) (item : PyDict) : VoiceCache × List Skipped :=
  let (provider, voiceId) := itemKey item
  if provider = "" ∨ voiceId = "" then
    (acc.1, acc.2 ++ [⟨"?", "item missing provider/voice_id"⟩])
  else
    let voices := (acc.1.get? provider).getD ∅
    (acc.1.set provider (voices.set voiceId (itemAttrs item)), acc.2)

/-- The cache that a scan of `items` leaves. -/
def loadItems (items : List PyDict) : VoiceCache := (items.foldl loadItem (emptyCache, [])).1

/-- The items that a scan skips. -/
def skippedItems (items : List PyDict) : List Skipped :=
  (items.foldl loadItem (emptyCache, [])).2

/-- The number of voices in a cache. -/
def total (cache : VoiceCache) : ℕ := (cache.values.map fun voices => voices.keys.length).sum

variable {slot : String × String ↪ ℕ}

/-- `VOICES_TABLE`. -/
def voicesTable : String := "genaiic-voicebot-voices"

/-- `rescan`: the number of voices in the cache, or `-1` if the table is missing. A code other than
that of a missing table stands for type and message of the exception. -/
def rescan : VoiceProg slot ℤ := do
  modify fun m => { m with lastSkipped := [] }
  .await (Op.scan : Op (String × String) PyDict Empty) fun
    | .error f =>
      -- A table that is missing takes the store out of use; the cache stays.
      if f = .service "ResourceNotFoundException" then do
        modify fun m =>
          { m with
            live := false
            lastSkipped := m.lastSkipped ++ [⟨"*", "table '" ++ voicesTable ++ "' missing"⟩] }
        return -1
      else do
        let reason := match f with
          | .service code => "scan failed: " ++ code
          | .conditionalCheckFailed => "scan failed: "
        modify fun m => { m with lastSkipped := m.lastSkipped ++ [⟨"*", reason⟩] }
        let m : VoiceMemory ← MonadState.get
        return total m.cache
    | .ok items => do
      modify fun m =>
        { cache := loadItems items, live := true, lastSkipped := m.lastSkipped ++ skippedItems items }
      return total (loadItems items)

/-- The item that `put` writes: the key columns win over attributes of the same name. -/
def voiceItem (provider voiceId : String) (attrs : PyDict) : PyDict :=
  PyDict.mapValues Ddb.itemValue
    (PyDict.update [("provider", .str provider), ("voice_id", .str voiceId)]
      (attrs.filter fun e => e.1 ≠ "provider" ∧ e.1 ≠ "voice_id"))

/-- `put`. -/
def put (provider voiceId : String) (attrs : PyDict) : VoiceProg slot Unit :=
  if provider = "" ∨ voiceId = "" then
    throw (.valueError "put requires non-empty provider and voice_id")
  else
    .await (Op.putItem (voiceItem provider voiceId attrs) : Op (String × String) PyDict Empty) fun
      | .ok _ => pure ()
      | .error f => throw (.service f)

/-- `delete`. -/
def delete (provider voiceId : String) : VoiceProg slot Unit :=
  if provider = "" ∨ voiceId = "" then
    throw (.valueError "delete requires non-empty provider and voice_id")
  else
    .await (Op.deleteItem (provider, voiceId) : Op (String × String) PyDict Empty) fun
      | .ok _ => pure ()
      | .error f => throw (.service f)

@[simp] theorem lookup_emptyCache (provider voiceId : String) :
    lookup emptyCache provider voiceId = none := by
  simp only [lookup, emptyCache, voiceProviders, List.foldl_cons, List.foldl_nil,
    OrderedMap.get?_set]
  split_ifs <;> rfl

/-- One item of a scan: the last item with a key that is not empty is kept. -/
theorem lookup_loadItem (acc : VoiceCache × List Skipped) (item : PyDict) {provider voiceId : String}
    (hprovider : provider ≠ "") (hvoice : voiceId ≠ "") :
    lookup (loadItem acc item).1 provider voiceId =
      if itemKey item = (provider, voiceId) then some (itemAttrs item)
      else lookup acc.1 provider voiceId := by
  rcases hkey : itemKey item with ⟨p, v⟩
  simp only [loadItem, hkey, Prod.mk.injEq]
  -- An item without a provider or a voice is skipped, and is not looked up.
  by_cases hempty : p = "" ∨ v = ""
  · rw [if_pos hempty, if_neg]
    rintro ⟨rfl, rfl⟩
    rcases hempty with rfl | rfl
    · exact hprovider rfl
    · exact hvoice rfl
  · rw [if_neg hempty]
    simp only [lookup, OrderedMap.get?_set]
    by_cases hp : provider = p
    · subst hp
      rw [if_pos rfl, Option.bind_some, OrderedMap.get?_set]
      by_cases hv : voiceId = v
      · rw [if_pos hv, if_pos ⟨rfl, hv.symm⟩]
      · rw [if_neg hv, if_neg fun h => hv h.2.symm]
        cases acc.1.get? provider <;> rfl
    · rw [if_neg hp, if_neg fun h => hp h.1.symm]

/-- The cache serves, under each key that is not empty, the item with this key. -/
theorem lookup_loadItems {items : List PyDict} (hnodup : (items.map itemKey).Nodup)
    {provider voiceId : String} (hprovider : provider ≠ "") (hvoice : voiceId ≠ "") :
    lookup (loadItems items) provider voiceId =
      (items.find? fun item => itemKey item = (provider, voiceId)).map itemAttrs := by
  have hfold : ∀ acc : VoiceCache × List Skipped,
      lookup (items.foldl loadItem acc).1 provider voiceId =
        ((items.find? fun item => itemKey item = (provider, voiceId)).map itemAttrs).or
          (lookup acc.1 provider voiceId) := by
    induction items with
    | nil => exact fun acc => rfl
    | cons item items ih =>
      intro acc
      obtain ⟨hnotMem, hnodup⟩ := List.nodup_cons.mp hnodup
      rw [List.foldl_cons, ih hnodup, lookup_loadItem acc item hprovider hvoice]
      by_cases hkey : itemKey item = (provider, voiceId)
      · -- No later item has this key.
        have hnone : (items.find? fun item => itemKey item = (provider, voiceId)) = none := by
          refine List.find?_eq_none.mpr fun item' hitem' => ?_
          simp only [decide_eq_true_eq]
          exact fun hkey' => hnotMem (hkey.trans hkey'.symm ▸ List.mem_map_of_mem hitem')
        rw [if_pos hkey, hnone, List.find?_cons_of_pos (by simpa using hkey)]
        rfl
      · rw [if_neg hkey, List.find?_cons_of_neg (by simpa using hkey)]
  rw [loadItems, hfold, lookup_emptyCache, Option.or_none]

end Voices
