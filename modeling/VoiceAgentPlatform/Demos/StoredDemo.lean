import VoiceAgentPlatform.Demos.DemoStore
import VoiceAgentPlatform.Lib.DictEdit

/-!
# Editing a stored demo

What becomes of the item of a demo when it is read, edited and written again. Storing normalises the
demo and turns its numbers into decimals, so two demos count as the same if they are stored as the
same item.

* `editItem`: read an item, apply edits, write the demo.
* `Carries`: applying the edits to an item once more would not change it.
* `carries_editItem`: an item carries the edits that were just made.
* `Carries.editItem`: it still carries them after edits of other keys.
-/

namespace Demos

open Edit

/-- The keys of a canonical demo. -/
def demoKeys : List String := (demoFields none).map Prod.fst

/-- The normalised value of a key. -/
def normalizeValue (key : String) (value : PyVal) : PyVal :=
  if key = "tool_ids" then strList (normalizeToolIds value none)
  else if key = "mcp_servers" then strList (normalizeMcpServers value)
  else if key = "filler" ∨ key = "asr_filter" then dictOrNone value
  else if key = "tags" then listOrEmpty value
  else value

/-- A demo that has all the canonical keys. -/
def Complete (d : PyDict) : Prop := ∀ k ∈ demoKeys, (d.get? k).isSome = true

/-- In a complete demo every field is normalised by itself. -/
theorem field_eq {d : PyDict} (h : Complete d) :
    ∀ f ∈ demoFields none, f.2 d = normalizeValue f.1 (d.get f.1) := by
  have hkb : d.get? "kb_body" = some (d.get "kb_body") := by
    obtain ⟨v, hv⟩ := Option.isSome_iff_exists.mp (h "kb_body" (by decide))
    rw [PyDict.get, hv]
    rfl
  have htools : d.get? "tool_ids" = some (d.get "tool_ids") := by
    obtain ⟨v, hv⟩ := Option.isSome_iff_exists.mp (h "tool_ids" (by decide))
    rw [PyDict.get, hv]
    rfl
  simp [demoFields, normalizeValue, hkb, htools]

theorem nodup_demoKeys : demoKeys.Nodup := by decide

/-- Looking up in a table with distinct keys. -/
theorem get?_map_of_mem {β : Type} {l : List (String × β)} (hl : (l.map Prod.fst).Nodup)
    (g : String × β → PyVal) {f : String × β} (hf : f ∈ l) :
    PyDict.get? (l.map fun f => (f.1, g f)) f.1 = some (g f) := by
  induction l with
  | nil => cases hf
  | cons a l ih =>
    obtain ⟨hnotMem, hl⟩ := List.nodup_cons.mp hl
    rw [List.map_cons, PyDict.get?_cons]
    rcases List.mem_cons.mp hf with rfl | hf
    · rw [if_pos rfl]
    · rw [if_neg, ih hl hf]
      exact fun heq => hnotMem (heq ▸ List.mem_map_of_mem hf)

/-- The value of a canonical key. -/
theorem get?_normalizeDemoDict (raw : PyDict) {f : String × (PyDict → PyVal)}
    (hf : f ∈ demoFields none) : (normalizeDemoDict raw none).get? f.1 = some (f.2 raw) :=
  get?_map_of_mem nodup_demoKeys (fun f => f.2 raw) hf

theorem complete_normalizeDemoDict (raw : PyDict) : Complete (normalizeDemoDict raw none) := by
  intro k hk
  obtain ⟨f, hf, rfl⟩ := List.mem_map.mp hk
  rw [get?_normalizeDemoDict raw hf]
  rfl

theorem complete_applyAll {d : PyDict} (h : Complete d) (es : List Edit) :
    Complete (applyAll d es) := by
  induction es generalizing d with
  | nil => exact h
  | cons e es ih =>
    refine ih fun k hk => ?_
    rw [get?_apply]
    split_ifs
    · rfl
    · exact h k hk

/-- What is stored under a key. -/
def storedValue (key : String) (value : PyVal) : PyVal := Ddb.itemValue (normalizeValue key value)

/-- Complete demos are stored as the same item if each value is stored as the same. -/
theorem serialize_eq_iff {d d' : PyDict} (h : Complete d) (h' : Complete d') :
    serialize d = serialize d' ↔
      ∀ k ∈ demoKeys, storedValue k (d.get k) = storedValue k (d'.get k) := by
  have hserialize (d : PyDict) :
      serialize d = (demoFields none).map fun f => (f.1, Ddb.itemValue (f.2 d)) := by
    rw [serialize, normalizeDemoDict, PyDict.mapValues, List.map_map]
    rfl
  rw [hserialize, hserialize, List.map_inj_left, demoKeys, List.forall_mem_map]
  refine forall₂_congr fun f hf => ?_
  rw [field_eq h f hf, field_eq h' f hf, Prod.mk.injEq]
  exact and_iff_right rfl

@[simp] theorem itemValue_dict (d : PyDict) :
    Ddb.itemValue (.dict d) = .dict (d.mapValues Ddb.itemValue) := by
  rw [Ddb.itemValue_eq, PyVal.mapScalars, PyVal.mapScalarsEntries_eq_map, PyDict.mapValues]
  simp only [Ddb.itemValue_eq]

@[simp] theorem itemValue_strList (xs : List String) :
    Ddb.itemValue (strList xs) = strList xs := by
  rw [Ddb.itemValue_eq, strList, PyVal.mapScalars, PyVal.mapScalarsList_eq_map, List.map_map]
  rfl

@[simp] theorem fromDdb_strList (xs : List String) : Ddb.fromDdb (strList xs) = strList xs := by
  rw [Ddb.fromDdb, strList, PyVal.mapScalars, PyVal.mapScalarsList_eq_map, List.map_map]
  rfl

theorem nonemptyStrings_nonemptyStrings (xs : List PyVal) :
    nonemptyStrings ((nonemptyStrings xs).map .str) = nonemptyStrings xs := by
  induction xs with
  | nil => rfl
  | cons x xs ih =>
    cases x with
    | str s =>
      by_cases hs : s = ""
      · simpa [nonemptyStrings, hs] using ih
      · simpa [nonemptyStrings, hs] using ih
    | _ => simpa [nonemptyStrings] using ih

theorem normalizeToolIds_normalizeToolIds (v : PyVal) :
    normalizeToolIds (strList (normalizeToolIds v none)) none = normalizeToolIds v none := by
  cases v with
  | list xs => exact nonemptyStrings_nonemptyStrings xs
  | _ => rfl

theorem normalizeMcpServers_normalizeMcpServers (v : PyVal) :
    normalizeMcpServers (strList (normalizeMcpServers v)) = normalizeMcpServers v := by
  cases v with
  | list xs => exact nonemptyStrings_nonemptyStrings xs
  | _ => rfl

/-- Reading what is stored under a key and storing it again changes nothing. -/
theorem storedValue_fromDdb (k : String) (v : PyVal) :
    storedValue k (normalizeValue k (Ddb.fromDdb (storedValue k v))) = storedValue k v := by
  have hround := Ddb.itemValue_fromDdb v
  unfold storedValue normalizeValue
  split_ifs
  · simp only [itemValue_strList, fromDdb_strList, normalizeToolIds_normalizeToolIds]
  · simp only [itemValue_strList, fromDdb_strList, normalizeMcpServers_normalizeMcpServers]
  · -- A dictionary stays one; anything else was stored as `None`.
    cases v with
    | dict d =>
      rw [dictOrNone, itemValue_dict] at *
      exact hround
    | _ => rfl
  · cases v with
    | list xs => exact hround
    | _ => rfl
  · exact hround

/-- The value of a canonical key. -/
theorem get_normalizeDemoDict {raw : PyDict} (h : Complete raw) {k : String} (hk : k ∈ demoKeys) :
    (normalizeDemoDict raw none).get k = normalizeValue k (raw.get k) := by
  obtain ⟨f, hf, rfl⟩ := List.mem_map.mp hk
  rw [PyDict.get, get?_normalizeDemoDict raw hf, Option.getD_some, field_eq h f hf]

theorem complete_mapValues {d : PyDict} (h : Complete d) (f : PyVal → PyVal) :
    Complete (d.mapValues f) := by
  intro k hk
  rw [PyDict.get?_mapValues, Option.isSome_map]
  exact h k hk

/-- A demo that was stored and read is stored as the same item. -/
theorem serialize_deserialize_serialize {d : PyDict} (h : Complete d) :
    serialize (deserialize (serialize d)) = serialize d := by
  refine (serialize_eq_iff (complete_normalizeDemoDict _) h).mpr fun k hk => ?_
  have hitem : Complete ((serialize d).mapValues Ddb.fromDdb) :=
    complete_mapValues (complete_mapValues (complete_normalizeDemoDict d) _) _
  rw [get_normalizeDemoDict hitem hk, PyDict.get_mapValues rfl, serialize,
    PyDict.get_mapValues rfl, get_normalizeDemoDict h hk]
  exact storedValue_fromDdb k (d.get k)

/-- Keys whose dictionaries can be merged into. -/
def MergeKey (k : String) : Prop :=
  k ∉ ["tool_ids", "mcp_servers", "tags"]

theorem normalizeValue_dict {k : String} (hk : MergeKey k) (d : PyDict) :
    normalizeValue k (.dict d) = .dict d := by
  simp only [MergeKey, List.mem_cons, List.not_mem_nil, or_false, not_or] at hk
  unfold normalizeValue
  rw [if_neg hk.1, if_neg hk.2.1]
  split_ifs
  · rfl
  · exact absurd ‹_› hk.2.2
  · rfl

theorem dictOf_normalizeValue {k : String} (hk : MergeKey k) (v : PyVal) :
    dictOf (some (normalizeValue k v)) = dictOf (some v) := by
  simp only [MergeKey, List.mem_cons, List.not_mem_nil, or_false, not_or] at hk
  unfold normalizeValue
  rw [if_neg hk.1, if_neg hk.2.1]
  split_ifs
  · cases v <;> rfl
  · exact absurd ‹_› hk.2.2
  · rfl

theorem dictOf_itemValue (v : PyVal) :
    dictOf (some (Ddb.itemValue v)) = (dictOf (some v)).mapValues Ddb.itemValue := by
  cases v with
  | dict d => rw [itemValue_dict]; rfl
  | _ => rfl

/-- The dictionary that is stored under a key. -/
theorem dictOf_storedValue {k : String} (hk : MergeKey k) (v : PyVal) :
    dictOf (some (storedValue k v)) = (dictOf (some v)).mapValues Ddb.itemValue := by
  rw [storedValue, dictOf_itemValue, dictOf_normalizeValue hk]

/-- Edits whose merges are into dictionaries. -/
def Mergeable (es : List Edit) : Prop := ∀ k entries, Edit.merge k entries ∈ es → MergeKey k

/-- Edits do the same to values that are stored as the same. -/
theorem storedValue_editAll {k : String} {es : List Edit} (hes : Mergeable es)
    (hkey : ∀ e ∈ es, e.key = k) {v w : Option PyVal}
    (h : storedValue k (v.getD .none) = storedValue k (w.getD .none)) :
    storedValue k ((editAll v es).getD .none) = storedValue k ((editAll w es).getD .none) := by
  induction es generalizing v w with
  | nil => exact h
  | cons e es ih =>
    obtain ⟨hfirst, hrest⟩ := List.forall_mem_cons.mp hkey
    refine ih (fun k' entries hmem => hes k' entries (List.mem_cons_of_mem _ hmem)) hrest ?_
    cases e with
    | assign k' a => rfl
    | merge k' entries =>
      obtain rfl : k' = k := hfirst
      have hk := hes k' entries List.mem_cons_self
      -- The entries that are merged into are stored alike.
      have hdict : (dictOf v).mapValues Ddb.itemValue = (dictOf w).mapValues Ddb.itemValue := by
        have hget (u : Option PyVal) : dictOf u = dictOf (some (u.getD .none)) := by
          cases u <;> rfl
        rw [hget v, hget w, ← dictOf_storedValue hk, ← dictOf_storedValue hk, h]
      simp only [Edit.value, Option.getD_some, storedValue, normalizeValue_dict hk, itemValue_dict,
        PyDict.mapValues_update, hdict]

theorem serialize_applyAll {d d' : PyDict} (hd : Complete d) (hd' : Complete d') {es : List Edit}
    (hes : Mergeable es) (h : serialize d = serialize d') :
    serialize (applyAll d es) = serialize (applyAll d' es) := by
  refine (serialize_eq_iff (complete_applyAll hd es) (complete_applyAll hd' es)).mpr fun k hk => ?_
  have hvalue := (serialize_eq_iff hd hd').mp h k hk
  rw [PyDict.get, get?_applyAll, PyDict.get, get?_applyAll]
  refine storedValue_editAll (fun k' entries hmem => ?_) (fun e he => ?_) hvalue
  · exact hes k' entries (List.mem_of_mem_filter hmem)
  · simpa using (List.mem_filter.mp he).2

/-- Edits of a complete demo may be repeated. -/
theorem serialize_applyAll_applyAll {d : PyDict} (hd : Complete d) (es : List Edit) :
    serialize (applyAll (applyAll d es) es) = serialize (applyAll d es) := by
  have hcomplete := complete_applyAll hd es
  refine (serialize_eq_iff (complete_applyAll hcomplete es) hcomplete).mpr fun k _ => ?_
  simp only [PyDict.get, get?_applyAll, editAll_editAll]

/-- Lists of edits without a common key. -/
def DisjointEdits (es es' : List Edit) : Prop := ∀ e ∈ es, ∀ e' ∈ es', e.key ≠ e'.key

/-- Edits of different keys may be swapped. -/
theorem serialize_applyAll_comm {d : PyDict} (hd : Complete d) {es es' : List Edit}
    (h : DisjointEdits es es') :
    serialize (applyAll (applyAll d es) es') = serialize (applyAll (applyAll d es') es) := by
  refine (serialize_eq_iff (complete_applyAll (complete_applyAll hd es) es')
    (complete_applyAll (complete_applyAll hd es') es)).mpr fun k _ => ?_
  simp only [PyDict.get]
  by_cases hk : ∃ e ∈ es, e.key = k
  · obtain ⟨e, he, rfl⟩ := hk
    have hother : ∀ e' ∈ es', e'.key ≠ e.key := fun e' he' => (h e he e' he').symm
    rw [get?_applyAll_of_not_mem hother, get?_applyAll _ es, get?_applyAll _ es,
      get?_applyAll_of_not_mem hother]
  · have hother : ∀ e ∈ es, e.key ≠ k := fun e he hkey => hk ⟨e, he, hkey⟩
    rw [get?_applyAll_of_not_mem hother, get?_applyAll _ es', get?_applyAll _ es',
      get?_applyAll_of_not_mem hother]

/-- Read an item, apply edits and write the demo. -/
def editItem (es : List Edit) (item : PyDict) : PyDict :=
  serialize (applyAll (deserialize item) es)

/-- The item carries the edits: making them once more would not change it. -/
def Carries (es : List Edit) (item : PyDict) : Prop := editItem es item = item

/-- An item carries the edits that were just made. -/
theorem carries_editItem {es : List Edit} (hes : Mergeable es) (item : PyDict) :
    Carries es (editItem es item) := by
  have hdemo : Complete (deserialize item) := complete_normalizeDemoDict _
  have hedited := complete_applyAll hdemo es
  calc editItem es (editItem es item)
      = serialize (applyAll (applyAll (deserialize item) es) es) :=
        serialize_applyAll (complete_normalizeDemoDict _) hedited hes
          (serialize_deserialize_serialize hedited)
    _ = editItem es item := serialize_applyAll_applyAll hdemo es

/-- An item still carries edits after edits of other keys. -/
theorem Carries.editItem {es es' : List Edit} {item : PyDict} (h : Carries es item)
    (hes : Mergeable es) (hes' : Mergeable es') (hdisjoint : DisjointEdits es es') :
    Carries es (editItem es' item) := by
  have hdemo : Complete (deserialize item) := complete_normalizeDemoDict _
  have hother := complete_applyAll hdemo es'
  have hedited := complete_applyAll hdemo es
  -- Editing leaves the item, so the edited demo is stored like the demo itself.
  have hsame : serialize (applyAll (deserialize item) es) = serialize (deserialize item) := by
    have hitem : serialize (applyAll (deserialize item) es) = item := h
    conv_rhs => rw [← hitem]
    exact (serialize_deserialize_serialize hedited).symm
  calc Demos.editItem es (Demos.editItem es' item)
      = serialize (applyAll (applyAll (deserialize item) es') es) :=
        serialize_applyAll (complete_normalizeDemoDict _) hother hes
          (serialize_deserialize_serialize hother)
    _ = serialize (applyAll (applyAll (deserialize item) es) es') :=
        (serialize_applyAll_comm hdemo hdisjoint).symm
    _ = Demos.editItem es' item := serialize_applyAll hedited hdemo hes' hsame

end Demos
