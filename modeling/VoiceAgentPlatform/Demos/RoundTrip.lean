import VoiceAgentPlatform.Demos.Migration
import VoiceAgentPlatform.Demos.StoredDemo
import VoiceAgentPlatform.Lib.PyNumbers

/-!
# What comes back of a stored demo

A demo that is put into the table and read again passes two normalisations and two conversions of its
numbers. A float with an integral notation comes back as the integer of this notation, which is equal
to the float only if the nearest double has that value.

* `normalizeDemoDict_normalizeDemoDict`: a canonical demo is left as it is.
* `deserialize_serialize`: the demo that is read for a demo that was stored.
* `ExactNumbers`: the demos whose floats have the values of their notations.
* `storage_iff`: what the store serves is equal to what was put for exactly these demos.
-/

namespace Demos

open Async KeyedTable

variable {slot : String ↪ ℕ}

/-! ### Normalising twice -/

theorem ne_empty_of_mem_nonemptyStrings {xs : List PyVal} {s : String} (h : s ∈ nonemptyStrings xs) :
    s ≠ "" := by
  obtain ⟨x, -, hx⟩ := List.mem_filterMap.mp h
  split at hx
  · split_ifs at hx with hempty
    obtain rfl := Option.some.inj hx
    exact hempty
  · exact absurd hx nofun

theorem nonemptyStrings_map_str {ys : List String} (h : ∀ s ∈ ys, s ≠ "") :
    nonemptyStrings (ys.map .str) = ys := by
  rw [nonemptyStrings, List.filterMap_map]
  refine (List.filterMap_congr fun s hs => ?_).trans List.filterMap_some
  exact if_neg (h s hs)

/-- The tool ids of a canonical demo are not empty, and in the registry if there is one. -/
theorem mem_normalizeToolIds {v : PyVal} {registry : Option (List String)} {s : String}
    (h : s ∈ normalizeToolIds v registry) : s ≠ "" ∧ ∀ ids, registry = some ids → s ∈ ids := by
  rw [normalizeToolIds.eq_def] at h
  split at h
  · split at h
    · exact ⟨ne_empty_of_mem_nonemptyStrings h, nofun⟩
    · obtain ⟨hs, hmem⟩ := List.mem_filter.mp h
      refine ⟨ne_empty_of_mem_nonemptyStrings hs, fun ids' hids => ?_⟩
      obtain rfl := Option.some.inj hids
      exact List.contains_iff_mem.mp hmem
  · exact absurd h List.not_mem_nil

/-- Tool ids that were cleaned are all kept, also when they are read without a registry. -/
theorem normalizeToolIds_strList (v : PyVal) {registry registry' : Option (List String)}
    (h : registry' = none ∨ registry' = registry) :
    normalizeToolIds (strList (normalizeToolIds v registry)) registry' =
      normalizeToolIds v registry := by
  have hstrings := nonemptyStrings_map_str fun s (hs : s ∈ normalizeToolIds v registry) =>
    (mem_normalizeToolIds hs).1
  match registry' with
  | none => exact hstrings
  | some ids =>
    have hregistry := (h.resolve_left nofun).symm
    show (nonemptyStrings _).filter _ = _
    rw [hstrings, List.filter_eq_self]
    intro s hs
    exact List.contains_iff_mem.mpr ((mem_normalizeToolIds hs).2 ids hregistry)

theorem dictOrNone_dictOrNone (v : PyVal) : dictOrNone (dictOrNone v) = dictOrNone v := by
  cases v <;> rfl

theorem listOrEmpty_listOrEmpty (v : PyVal) : listOrEmpty (listOrEmpty v) = listOrEmpty v := by
  cases v <;> rfl

/-- A canonical demo is left as it is. -/
theorem normalizeDemoDict_normalizeDemoDict (raw : PyDict) {registry registry' : Option (List String)}
    (h : registry' = none ∨ registry' = registry) :
    normalizeDemoDict (normalizeDemoDict raw registry) registry' = normalizeDemoDict raw registry := by
  have htools (v : PyVal) := normalizeToolIds_strList v h
  simp [normalizeDemoDict, demoFields, PyDict.get, PyDict.get?, htools,
    normalizeMcpServers_normalizeMcpServers, dictOrNone_dictOrNone, listOrEmpty_listOrEmpty]

/-! ### Storing and reading -/

/-- What the table makes of a scalar, as it is read. -/
def returned (v : PyVal) : PyVal := Ddb.decimalToNumber (Ddb.numberToDecimal v)

theorem fromDdb_itemValue (v : PyVal) : Ddb.fromDdb (Ddb.itemValue v) = v.mapScalars returned := by
  rw [Ddb.fromDdb, Ddb.itemValue_eq,
    PyVal.mapScalars_mapScalars fun _ => Ddb.isScalar_numberToDecimal]
  rfl

/-- A value that is normalised for its key is so when it comes back. -/
theorem normalizeValue_returned (k : String) (v : PyVal) :
    normalizeValue k (Ddb.fromDdb (Ddb.itemValue (normalizeValue k v))) =
      Ddb.fromDdb (Ddb.itemValue (normalizeValue k v)) := by
  unfold normalizeValue
  split_ifs
  · rw [itemValue_strList, fromDdb_strList, normalizeToolIds_normalizeToolIds]
  · rw [itemValue_strList, fromDdb_strList, normalizeMcpServers_normalizeMcpServers]
  · -- A dictionary comes back as one.
    cases v with
    | dict d =>
      rw [dictOrNone, fromDdb_itemValue, PyVal.mapScalars]
      rfl
    | _ => rfl
  · cases v with
    | list xs =>
      rw [listOrEmpty, fromDdb_itemValue, PyVal.mapScalars]
      rfl
    | _ => rfl
  · rfl

/-- The demo that is read for a demo that was stored: its canonical form, with the numbers that the
table returns. -/
theorem deserialize_serialize (d : PyDict) :
    deserialize (serialize d) = (normalizeDemoDict d none).mapValues (PyVal.mapScalars returned) := by
  have hcanonical := complete_normalizeDemoDict d
  have hitem : (serialize d).mapValues Ddb.fromDdb =
      (normalizeDemoDict d none).mapValues (PyVal.mapScalars returned) := by
    rw [serialize, PyDict.mapValues, PyDict.mapValues, PyDict.mapValues, List.map_map]
    refine List.map_congr_left fun e _ => ?_
    rw [Function.comp_apply, fromDdb_itemValue]
  rw [deserialize, hitem]
  have hcomplete := complete_mapValues hcanonical (PyVal.mapScalars returned)
  conv_rhs => rw [normalizeDemoDict, PyDict.mapValues, List.map_map]
  refine List.map_congr_left fun f hf => Prod.ext rfl ?_
  -- Each field of the canonical demo is normalised, and stays so.
  have hkey : f.1 ∈ demoKeys := List.mem_map_of_mem hf
  have hvalue : f.2 d = normalizeValue f.1 ((normalizeDemoDict d none).get f.1) := by
    rw [← get_normalizeDemoDict hcanonical hkey,
      normalizeDemoDict_normalizeDemoDict d (Or.inl rfl), PyDict.get, get?_normalizeDemoDict d hf]
    rfl
  have hget : (normalizeDemoDict d none).get f.1 = f.2 d := by
    rw [PyDict.get, get?_normalizeDemoDict d hf]
    rfl
  show f.2 ((normalizeDemoDict d none).mapValues (PyVal.mapScalars returned)) =
    PyVal.mapScalars returned (f.2 d)
  rw [field_eq hcomplete f hf, PyDict.get_mapValues rfl, hget, ← fromDdb_itemValue, hvalue]
  exact normalizeValue_returned f.1 _

/-! ### Equality up to the types of numbers -/

/-- Every float in a field of the demo, at any depth, has the value of its decimal notation, if that
is integral. -/
def ExactNumbers (d : PyDict) : Prop :=
  ∀ f ∈ demoFields none, (f.2 d).allScalars PyVal.isExactInteger = true

instance (d : PyDict) : Decidable (ExactNumbers d) :=
  inferInstanceAs (Decidable (∀ f ∈ demoFields none, _))

/-- What comes back of a scalar is equal to it, if it is no float with another value. -/
theorem numericValue_returned_iff {v : PyVal} (hjson : v.isJsonScalar = true) :
    PyVal.numericValue (returned v) = PyVal.numericValue v ↔ v.isExactInteger = true := by
  cases v with
  | float q =>
    simp only [returned, Ddb.numberToDecimal, Ddb.decimalToNumber, PyVal.isExactInteger]
    split_ifs with hq
    · -- An integral notation is read as an integer.
      rw [PyVal.numericValue, PyVal.numericValue, PyVal.decimal.injEq, (Rat.den_eq_one_iff q).mp hq]
      simp [hq, eq_comm]
    · simp [hq]
  | int i => simp [returned, Ddb.numberToDecimal, Ddb.decimalToNumber, PyVal.isExactInteger]
  | none => exact iff_of_true rfl rfl
  | bool _ => exact iff_of_true rfl rfl
  | str _ => exact iff_of_true rfl rfl
  | _ => cases hjson

/-- A test of the scalars of a demo is one of those of its fields. -/
theorem allScalars_normalizeDemoDict (p : PyVal → Bool) (d : PyDict) :
    (PyVal.dict (normalizeDemoDict d none)).allScalars p = true ↔
      ∀ f ∈ demoFields none, (f.2 d).allScalars p = true := by
  rw [PyVal.allScalars_dict, normalizeDemoDict, List.all_map, List.all_eq_true]
  rfl

theorem alike_deserialize_serialize_iff {d : PyDict}
    (hjson : (PyVal.dict (normalizeDemoDict d none)).jsonLike = true) :
    (PyVal.dict (deserialize (serialize d))).alike (.dict (normalizeDemoDict d none)) ↔
      ExactNumbers d := by
  have hreturned : PyVal.dict (deserialize (serialize d)) =
      (PyVal.dict (normalizeDemoDict d none)).mapScalars returned := by
    rw [deserialize_serialize, PyVal.mapScalars, PyVal.mapScalarsEntries_eq_map]
    rfl
  have hscalar (v : PyVal) (hv : v.isScalar = true) : (returned v).isScalar = true :=
    Ddb.isScalar_decimalToNumber (Ddb.isScalar_numberToDecimal hv)
  have hfields := PyVal.mapScalars_eq_iff (f := PyVal.numericValue ∘ returned)
    (fun v _ hv => numericValue_returned_iff hv) hjson
  rw [PyVal.alike, hreturned, PyVal.mapScalars_mapScalars hscalar, hfields,
    allScalars_normalizeDemoDict, ExactNumbers]

/-! ### The store -/

section Runs

variable {σ : Type} {oracle : Oracle σ String PyDict Empty} {s : σ} {m : DemoMemory}
  {t : DemoTable slot}

/-- A demo that was put is in the table. -/
theorem get?_of_put {d : PyDict} (hput : (execUnder oracle (put d) s m t).result = .ok ()) :
    ∃ id, id ≠ "" ∧ stringId d = some id ∧
      (execUnder oracle (put d) s m t).table.get? id = some (serialize d) := by
  by_cases htruthy : (d.get "id").truthy = true
  · cases hid : stringId d with
    | none =>
      obtain ⟨e, hraise⟩ : ∃ e, (put _ : DemoProg slot Unit) = .raise e := put_eq_raise hid
      rw [hraise] at hput
      cases hput
    | some id =>
      have hne : id ≠ "" := by
        rw [stringId_eq_some_iff.mp hid] at htruthy
        simpa [PyVal.truthy] using htruthy
      refine ⟨id, hne, rfl, ?_⟩
      rw [put_eq_await hid htruthy] at hput ⊢
      -- A put that returns has reached the table.
      rcases horacle : oracle s (writeOf d) with ⟨code | code, s'⟩
      · rw [execUnder_complete horacle]
        exact (Table.get?_put t (serialize d) id).trans (if_pos (key_serialize hid).symm)
      · rw [execUnder_fault horacle] at hput
        cases hput
  · rw [put, if_neg htruthy] at hput
    cases hput

/-- The cache after a scan that completed. -/
theorem cache_of_rescan (hscan : (oracle s .scan).1 = none) :
    (execUnder oracle rescan s m t).memory.cache = loadItems t.items := by
  have horacle : oracle s .scan = (none, (oracle s .scan).2) := Prod.ext hscan rfl
  rw [rescan]
  simp only [Prog.modify_eq, Prog.bind_eq, Prog.bind_read, Prog.bind_write, Prog.bind_done,
    execUnder_read, execUnder_write, execUnder_complete horacle]
  rfl

/-- A demo whose item is in the table is served as it is read. -/
theorem get_of_rescan {d : PyDict} {id : String} (hne : id ≠ "")
    (hitem : t.get? id = some (serialize d)) (hscan : (oracle s .scan).1 = none) :
    get (execUnder oracle rescan s m t).memory id = some (deserialize (serialize d)) := by
  rw [get, if_neg hne, cache_of_rescan hscan, get?_loadItems _ hne]
  exact congrArg (Option.map deserialize) hitem

end Runs

/-- The cache serves a demo that is equal to the expected one. -/
def Serves (m : DemoMemory) (id : String) (expected : PyDict) : Prop :=
  ∃ served, get m id = some served ∧ (PyVal.dict served).alike (.dict expected)

/-- A demo that was stored is served as it is in its canonical form, if its numbers are exact. -/
theorem serves_iff {σ : Type} {oracle : Oracle σ String PyDict Empty} {s : σ} {m : DemoMemory}
    {t : DemoTable slot} {d : PyDict} {id : String}
    (hjson : (PyVal.dict (normalizeDemoDict d none)).jsonLike = true) (hne : id ≠ "")
    (hitem : t.get? id = some (serialize d)) (hscan : (oracle s .scan).1 = none) :
    Serves (execUnder oracle rescan s m t).memory id (normalizeDemoDict d none) ↔
      ExactNumbers d := by
  rw [← alike_deserialize_serialize_iff hjson, Serves, get_of_rescan hne hitem hscan]
  constructor
  · rintro ⟨served, hserved, halike⟩
    obtain rfl := Option.some.inj hserved
    exact halike
  · exact fun halike => ⟨_, rfl, halike⟩

/-! ### Values of JSON -/

theorem allScalars_get? {p : PyVal → Bool} {d : PyDict} (h : (PyVal.dict d).allScalars p = true)
    {key : String} {v : PyVal} (hv : d.get? key = some v) : v.allScalars p = true := by
  rw [PyVal.allScalars_dict, List.all_eq_true] at h
  exact h _ (PyDict.mem_of_get? hv)

theorem allScalars_get {p : PyVal → Bool} {d : PyDict} (h : (PyVal.dict d).allScalars p = true)
    (hnone : p .none = true) (key : String) : (d.get key).allScalars p = true := by
  match hv : d.get? key with
  | none =>
    rw [PyDict.get, hv]
    exact hnone
  | some v =>
    rw [PyDict.get, hv]
    exact allScalars_get? h hv

theorem allScalars_strList {p : PyVal → Bool} (hstr : ∀ s, p (.str s) = true) (xs : List String) :
    (strList xs).allScalars p = true := by
  rw [strList, PyVal.allScalars_list, List.all_map, List.all_eq_true]
  exact fun s _ => hstr s

/-- What holds of all scalars of a demo, `None` and strings included, holds of those of its fields. -/
theorem allScalars_fields {p : PyVal → Bool} (hnone : p .none = true) (hstr : ∀ s, p (.str s) = true)
    {d : PyDict} (h : (PyVal.dict d).allScalars p = true) :
    ∀ f ∈ demoFields none, (f.2 d).allScalars p = true := by
  -- The fields are taken from the demo, or they are empty.
  have hget (key : String) := allScalars_get h hnone key
  have hdict (v : PyVal) (hv : v.allScalars p = true) : (dictOrNone v).allScalars p = true := by
    match v with
    | .dict entries => exact hv
    | .none | .bool _ | .int _ | .float _ | .nan | .infinity _ | .decimal _ | .str _ | .list _ =>
      exact hnone
  have hlist (v : PyVal) (hv : v.allScalars p = true) : (listOrEmpty v).allScalars p = true := by
    match v with
    | .list xs => exact hv
    | .none | .bool _ | .int _ | .float _ | .nan | .infinity _ | .decimal _ | .str _ | .dict _ => rfl
  have hkb : ((d.get? "kb_body").getD (.str "")).allScalars p = true := by
    match hv : d.get? "kb_body" with
    | none => exact hstr ""
    | some v => exact allScalars_get? h hv
  simp only [demoFields, List.forall_mem_cons, List.not_mem_nil, false_imp_iff, implies_true,
    and_true]
  exact ⟨hget _, hget _, hget _, hget _, hget _, hget _, hget _, hget _, hget _, hget _, hget _, hkb,
    allScalars_strList hstr _, allScalars_strList hstr _, hdict _ (hget _), hdict _ (hget _),
    hlist _ (hget _)⟩

theorem jsonLike_normalizeDemoDict {d : PyDict} (h : (PyVal.dict d).jsonLike = true) :
    (PyVal.dict (normalizeDemoDict d none)).jsonLike = true :=
  (allScalars_normalizeDemoDict PyVal.isJsonScalar d).mpr (allScalars_fields rfl (fun _ => rfl) h)

/-- The numbers of a demo are exact if its integral floats are below `2 ^ 53`. -/
theorem exactNumbers_of_isSmallInteger {d : PyDict}
    (h : (PyVal.dict d).allScalars PyVal.isSmallInteger = true) : ExactNumbers d := by
  refine allScalars_fields rfl (fun _ => rfl) ?_
  exact PyVal.allScalars_imp (fun v => PyVal.isExactInteger_of_isSmallInteger) h

/-! ### Demos on disk -/

/-- The loader's dictionary without the directory. -/
def withoutDir (d : PyDict) : PyDict := d.filter fun e => e.1 ≠ "_dir"

/-- Every demo of the loader is a canonical one with its directory. -/
theorem exists_dir_of_loaderCache {env : LoaderEnv} {dirs : List DemoDir} {cache demos : List PyDict}
    (h : loaderCache env dirs cache = .ok demos) {d : PyDict} (hd : d ∈ demos) :
    d ∈ cache ∨ ∃ dir, loadOne env dir = some d := by
  induction dirs generalizing cache with
  | nil =>
    obtain rfl := Except.ok.inj h
    exact Or.inl hd
  | cons dir rest ih =>
    rw [loaderCache] at h
    split at h
    · exact ih h
    · rename_i demo hdemo
      -- The demo is hashable, and kept unless its id is known.
      split_ifs at h with hhash hany
      · exact ih h
      · rcases ih h with hcache | hloaded
        · rcases List.mem_append.mp hcache with hcache | hlast
          · exact Or.inl hcache
          · rw [List.mem_singleton.mp hlast]
            exact Or.inr ⟨dir, hdemo⟩
        · exact Or.inr hloaded

theorem mem_of_sortById {demos sorted : List PyDict} (h : sortById demos = .ok sorted) {d : PyDict}
    (hd : d ∈ sorted) : d ∈ demos := by
  rw [sortById] at h
  split_ifs at h
  · obtain rfl := Except.ok.inj h
    exact List.mem_mergeSort.mp hd
  · obtain rfl := Except.ok.inj h
    exact hd

theorem set_dir (raw : PyDict) (registry : Option (List String)) (path : PyVal) :
    (normalizeDemoDict raw registry).set "_dir" path =
      normalizeDemoDict raw registry ++ [("_dir", path)] :=
  if_neg (by simp [normalizeDemoDict, demoFields])

theorem withoutDir_set_dir (raw : PyDict) (registry : Option (List String)) (path : PyVal) :
    withoutDir ((normalizeDemoDict raw registry).set "_dir" path) = normalizeDemoDict raw registry := by
  have hkeys : ∀ e ∈ normalizeDemoDict raw registry, e.1 ≠ "_dir" := by
    simp [normalizeDemoDict, demoFields]
  rw [set_dir, withoutDir, List.filter_append, List.filter_eq_self.mpr (by simpa using hkeys)]
  exact List.append_nil _

/-- The directory is none of the fields of a demo. -/
theorem normalizeDemoDict_set_dir (raw : PyDict) (registry : Option (List String)) (path : PyVal) :
    normalizeDemoDict ((normalizeDemoDict raw registry).set "_dir" path) none =
      normalizeDemoDict raw registry := by
  rw [set_dir]
  have hagain : normalizeDemoDict (normalizeDemoDict raw registry) none =
      normalizeDemoDict raw registry := normalizeDemoDict_normalizeDemoDict raw (Or.inl rfl)
  conv_rhs => rw [← hagain]
  simp [normalizeDemoDict, demoFields, PyDict.get, PyDict.get?]

/-- Without its directory a demo on disk is what the store would make of it. -/
theorem normalizeDemoDict_of_diskDemos {env : LoaderEnv} {dirs : List DemoDir} {d : PyDict}
    (hd : d ∈ diskDemos env dirs) : normalizeDemoDict d none = withoutDir d := by
  rw [diskDemos] at hd
  split at hd
  · rename_i demos hdemos
    obtain ⟨cache, hcache, hsort⟩ := Raising.ok_of_bind hdemos
    obtain ⟨_, -, hsort⟩ := Raising.ok_of_bind hsort
    have hmem := mem_of_sortById hsort (List.mem_filter.mp hd).1
    -- The demo was read from a directory, where it was normalized.
    obtain ⟨dir, hdir⟩ := (exists_dir_of_loaderCache hcache hmem).resolve_left List.not_mem_nil
    rw [loadOne] at hdir
    split at hdir
    · rename_i manifest hmanifest
      split_ifs at hdir with hvalid
      obtain rfl := Option.some.inj hdir
      rw [manifestDemo, normalizeDemoDict_set_dir, withoutDir_set_dir]
    · cases hdir
  · exact absurd hd List.not_mem_nil

theorem ne_empty_of_diskDemos {env : LoaderEnv} {dirs : List DemoDir} {d : PyDict}
    (hd : d ∈ diskDemos env dirs) {id : String} (hid : stringId d = some id) : id ≠ "" := by
  rw [diskDemos] at hd
  split at hd
  · rename_i demos hdemos
    have htruthy := (listed_loaderDemos hdemos).truthy d (List.mem_filter.mp hd).1
    rw [stringId_eq_some_iff.mp hid] at htruthy
    simpa [PyVal.truthy] using htruthy
  · exact absurd hd List.not_mem_nil

/-- What a run has written is in the table. -/
theorem get?_of_migrated {env : LoaderEnv} {dirs : List DemoDir} {overwrite : Bool}
    {outcomes : List (Option String)} {t : DemoTable slot} {d : PyDict}
    (hwritten : writeOf d ∈ (runMigration env dirs overwrite outcomes t).rest.2) {id : String}
    (hid : stringId d = some id) :
    (runMigration env dirs overwrite outcomes t).table.get? id = some (serialize d) := by
  rcases migration_outcome env dirs overwrite outcomes t with ⟨htable, hwrites, -⟩ | ⟨-, -, hnone, -⟩
  · rw [hwrites] at hwritten
    obtain ⟨d', hd', hsame⟩ := List.mem_map.mp hwritten
    obtain hserialize : serialize d' = serialize d := Op.putItem.inj hsame
    -- The ids are distinct, so no later put replaces the demo.
    have hnodup : (((untilFault outcomes.tail (attempted env dirs overwrite outcomes t)).map
        serialize).map (demoSchema slot).key).Nodup := by
      rw [List.map_map]
      refine (nodup_keys_diskDemos env dirs).sublist (List.Sublist.map _ ?_)
      exact (untilFault_sublist _ _).trans List.filter_sublist
    have hget := Table.get?_putAll_of_mem (t := t) hnodup (List.mem_map_of_mem hd')
    have hkey : (demoSchema slot).key (serialize d') = id :=
      (congrArg itemId hserialize).trans (key_serialize hid)
    rw [htable, ← hkey, hget, hserialize]
  · rw [hnone] at hwritten
    exact absurd hwritten List.not_mem_nil

/-- What the store serves for a demo that was put, and for one that was migrated from disk; and
normalising is idempotent. -/
theorem storage_iff (slot : String ↪ ℕ) (env : LoaderEnv) (dirs : List DemoDir) :
    (∀ (σ : Type) (oracle : Oracle σ String PyDict Empty) (s : σ) (m : DemoMemory)
        (t : DemoTable slot) (d : PyDict), (PyVal.dict d).jsonLike = true →
      let stored := execUnder oracle (put d) s m t
      let scanned := execUnder oracle rescan stored.rest stored.memory stored.table
      stored.result = .ok () → (oracle stored.rest .scan).1 = none →
        ∃ id, stringId d = some id ∧
          (Serves scanned.memory id (normalizeDemoDict d none) ↔ ExactNumbers d)) ∧
    (∀ (d : PyDict) (registry : Option (List String)),
      normalizeDemoDict (normalizeDemoDict d registry) registry = normalizeDemoDict d registry) ∧
    (∀ (overwrite : Bool) (outcomes : List (Option String)) (t : DemoTable slot) (d : PyDict),
      d ∈ diskDemos env dirs → (PyVal.dict d).jsonLike = true →
      let run := runMigration env dirs overwrite outcomes t
      writeOf d ∈ run.rest.2 →
        ∀ (σ : Type) (oracle : Oracle σ String PyDict Empty) (s : σ) (m : DemoMemory),
          (oracle s .scan).1 = none →
          ∃ id, stringId d = some id ∧
            (Serves (execUnder oracle rescan s m run.table).memory id (withoutDir d) ↔
              ExactNumbers d)) := by
  refine ⟨?_, fun d _ => normalizeDemoDict_normalizeDemoDict d (Or.inr rfl), ?_⟩
  · intro σ oracle s m t d hjson stored scanned hput hscan
    obtain ⟨id, hne, hid, hitem⟩ := get?_of_put hput
    exact ⟨id, hid, serves_iff (jsonLike_normalizeDemoDict hjson) hne hitem hscan⟩
  · intro overwrite outcomes t d hd hjson run hwritten σ oracle s m hscan
    obtain ⟨id, hid⟩ := exists_stringId_of_mem_diskDemos hd
    refine ⟨id, hid, ?_⟩
    -- What the loader has read is normalized already.
    rw [← normalizeDemoDict_of_diskDemos hd]
    exact serves_iff (jsonLike_normalizeDemoDict hjson) (ne_empty_of_diskDemos hd hid)
      (get?_of_migrated hwritten hid) hscan

/-- A demo whose filler waits for `1e23` milliseconds. -/
def patientDemo : PyDict :=
  [("id", .str "shop"), ("filler", .dict [("timeout_ms", .float (10 ^ 23))])]

/-- The store serves `10 ** 23` milliseconds instead, which is another number than `1e23`. -/
theorem patientDemo_changed :
    ¬ ∀ (slot : String ↪ ℕ) (σ : Type) (oracle : Oracle σ String PyDict Empty) (s : σ)
        (m : DemoMemory) (t : DemoTable slot) (d : PyDict), (PyVal.dict d).jsonLike = true →
      let stored := execUnder oracle (put d) s m t
      let scanned := execUnder oracle rescan stored.rest stored.memory stored.table
      stored.result = .ok () → (oracle stored.rest .scan).1 = none →
        ∃ id, stringId d = some id ∧ Serves scanned.memory id (normalizeDemoDict d none) := by
  intro hall
  have hjson : (PyVal.dict patientDemo).jsonLike = true := rfl
  have hput : (execUnder byOutcomes (put patientDemo) [] newStore
      (∅ : DemoTable stringSlot)).result = .ok () := by
    rw [put_eq_await (rfl : stringId patientDemo = some "shop") rfl]
    rfl
  have hscan : (byOutcomes (execUnder byOutcomes (put patientDemo) [] newStore
      (∅ : DemoTable stringSlot)).rest (.scan : Op String PyDict Empty)).1 = none := by
    rw [put_eq_await (rfl : stringId patientDemo = some "shop") rfl]
    rfl
  obtain ⟨id, hid, hserves⟩ :=
    hall stringSlot _ byOutcomes [] newStore ∅ patientDemo hjson hput hscan
  obtain ⟨id', hne, hid', hitem⟩ := get?_of_put hput
  obtain rfl := Option.some.inj (hid.symm.trans hid')
  have hexact := (serves_iff (jsonLike_normalizeDemoDict hjson) hne hitem hscan).mp hserves
  have hfiller := hexact ("filler", fun raw => dictOrNone (raw.get "filler")) (by simp [demoFields])
  -- The number would have to be exact.
  have hfloat : (PyVal.float (10 ^ 23)).isExactInteger = true := by
    rw [← Bool.and_true (PyVal.isExactInteger _)]
    exact hfiller
  rw [PyVal.isExactInteger, Binary64.nearest_1e23] at hfloat
  exact absurd hfloat (by norm_num)

end Demos
