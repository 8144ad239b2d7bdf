import VoiceAgentPlatform.Demos.DemoLoader
import VoiceAgentPlatform.Lib.Raising

/-!
# Migrating the demos on disk

`migrate_demos_to_ddb.py`: the demos on disk are written into the table, except those whose ids are in
the table already. Which ids these are is read from the cache after a `rescan`, which keeps the cache
as it is when the scan fails. Lines that are only printed are left out.

* `migrate`: the script; `runMigration`: a run of it, with an outcome for each operation.
* `diskDemos`, `attempted`: the demos on disk, and those of them that a run tries to write.
* `migration_outcome`: the table after a run, and what was written.
* `keepsItems_iff`, `writesNothing_iff`: when a run leaves all items alone, and when a second run
  writes nothing.
-/

namespace Demos

open Async KeyedTable Raising

variable {slot : String ↪ ℕ}

/-! ### The script -/

/-- What the script can raise. -/
inductive MigrationExc where
  | typeError
  | store (e : Exc)

/-- Programs of the script. -/
abbrev MigrationProg (slot : String ↪ ℕ) :=
  Prog (service (demoSchema slot)) DemoMemory MigrationExc

/-- A computation of the script that may raise a `TypeError`. -/
def pureCall {α : Type} (x : Except TypeError α) : MigrationProg slot α :=
  Prog.ofExcept (x.mapError fun _ => .typeError)

/-- The reasons why demos were skipped. -/
structure SkippedDemo where
  id : PyVal
  reason : String

/-- What the script returns. -/
structure MigrationSummary where
  migrated : List PyVal
  overwritten : List PyVal
  skipped : List SkippedDemo
  total : ℕ

/-- `demo_id in existing_ids`. -/
def idIn (existing : List PyVal) (id : PyVal) : Bool := existing.any fun e => e.same id

/-- The loop over the demos. -/
def migrateDemos (existing : List PyVal) (overwrite : Bool) :
    List PyDict → MigrationSummary → MigrationProg slot MigrationSummary
  | [], summary => pure summary
  | demo :: rest, summary => do
    let id := demo.get "id"
    if !id.truthy then
      migrateDemos existing overwrite rest
        { summary with skipped := summary.skipped ++ [⟨.str "?", "demo missing id"⟩] }
    else if idIn existing id && !overwrite then
      migrateDemos existing overwrite rest
        { summary with skipped := summary.skipped ++ [⟨id, "exists"⟩] }
    else
      -- The first write that fails ends the loop.
      (put demo).mapError .store
      migrateDemos existing overwrite rest
        (if idIn existing id then { summary with overwritten := summary.overwritten ++ [id] }
        else { summary with migrated := summary.migrated ++ [id] })

/-- `migrate`, with the demos that the loader gives. -/
def migrate (env : LoaderEnv) (dirs : List DemoDir) (overwrite : Bool) :
    MigrationProg slot MigrationSummary := do
  let demos ← pureCall (loaderDemos env dirs)
  let _ ← rescan.mapError .store
  let m : DemoMemory ← MonadState.get
  let existing ← pureCall (summaries m.cache.values)
  migrateDemos (existing.map Summary.id) overwrite demos
    { migrated := [], overwritten := [], skipped := [], total := demos.length }

/-- A `DemoStore` that was just made. -/
def newStore : DemoMemory := { cache := ∅, lastSkipped := [] }

/-- A run of the script on a table, where the operations have the given outcomes. The writes that
complete are listed. -/
def runMigration (env : LoaderEnv) (dirs : List DemoDir) (overwrite : Bool)
    (outcomes : List (Option String)) (t : DemoTable slot) :
    Outcome (demoSchema slot) (List (Option String) × List (Op String PyDict Empty)) DemoMemory
      MigrationExc MigrationSummary :=
  execUnder (recording byOutcomes) (migrate env dirs overwrite) (outcomes, []) newStore t

/-! ### The demos on disk -/

/-- The demos that the loader gives have ids, which are distinct, and either all of them are strings
or none. -/
structure Listed (demos : List PyDict) : Prop where
  truthy : ∀ d ∈ demos, (d.get "id").truthy = true
  distinct : demos.Pairwise fun d d' => ∀ id, stringId d = some id → stringId d' ≠ some id
  uniform : (∀ d ∈ demos, (stringId d).isSome) ∨ ∀ d ∈ demos, stringId d = none

theorem truthy_loadOne {env : LoaderEnv} {dir : DemoDir} {demo : PyDict}
    (h : loadOne env dir = some demo) : (demo.get "id").truthy = true := by
  rw [loadOne] at h
  split at h
  · rename_i manifest hmanifest
    split_ifs at h with hvalid
    obtain rfl := Option.some.inj h
    have hother {d : PyDict} {key : String} {value : PyVal} (hkey : key ≠ "id") :
        (d.set key value).get "id" = d.get "id" := by
      rw [PyDict.get, PyDict.get?_set, if_neg hkey, PyDict.get]
    rw [hother (by decide), manifestDemo, get_id_normalizeDemoDict, hother (by decide)]
    simp only [validManifest, requiredFields, List.all_cons, Bool.and_eq_true] at hvalid
    exact hvalid.1.1.1
  · cases h

theorem stringId_eq_some_iff {d : PyDict} {id : String} :
    stringId d = some id ↔ d.get "id" = .str id := by
  rw [stringId]
  split
  · rename_i s hs
    rw [hs]
    simp
  · rename_i hs
    exact iff_of_false nofun (hs id)

/-- What holds of the cache of the loader. -/
theorem loaderCache_spec {env : LoaderEnv} {dirs : List DemoDir} {cache demos : List PyDict}
    (h : loaderCache env dirs cache = .ok demos)
    (htruthy : ∀ d ∈ cache, (d.get "id").truthy = true)
    (hdistinct : cache.Pairwise fun d d' => ∀ id, stringId d = some id → stringId d' ≠ some id) :
    (∀ d ∈ demos, (d.get "id").truthy = true) ∧
      demos.Pairwise fun d d' => ∀ id, stringId d = some id → stringId d' ≠ some id := by
  induction dirs generalizing cache with
  | nil =>
    obtain rfl := Except.ok.inj h
    exact ⟨htruthy, hdistinct⟩
  | cons dir rest ih =>
    rw [loaderCache] at h
    split at h
    · exact ih h htruthy hdistinct
    · rename_i demo hdemo
      split_ifs at h with hhash hany
      · exact ih h htruthy hdistinct
      · refine ih h (fun d hd => ?_) (List.pairwise_append.mpr ⟨hdistinct, List.pairwise_singleton _ _, ?_⟩)
        · rcases List.mem_append.mp hd with hd | hd
          · exact htruthy d hd
          · rw [List.mem_singleton.mp hd]
            exact truthy_loadOne hdemo
        · -- The id is not that of a demo in the cache.
          intro d hd d' hd' id hid hid'
          obtain rfl := List.mem_singleton.mp hd'
          rw [stringId_eq_some_iff] at hid hid'
          simp only [List.any_eq_true, not_exists, not_and, Bool.not_eq_true] at hany
          have hsame := hany d hd
          rw [hid, hid', (PyVal.same_iff _ _).mpr rfl] at hsame
          exact absurd hsame nofun

theorem listed_sortById {demos sorted : List PyDict} (h : sortById demos = .ok sorted)
    (htruthy : ∀ d ∈ demos, (d.get "id").truthy = true)
    (hdistinct : demos.Pairwise fun d d' => ∀ id, stringId d = some id → stringId d' ≠ some id) :
    Listed sorted := by
  rw [sortById] at h
  split_ifs at h with hall hnone
  · obtain rfl := Except.ok.inj h
    have hperm := List.mergeSort_perm demos fun d d' => (stringId d).getD "" ≤ (stringId d').getD ""
    refine ⟨fun d hd => htruthy d (hperm.mem_iff.mp hd), ?_, Or.inl fun d hd => ?_⟩
    · exact (hperm.pairwise_iff fun hdd' id hid hid' => hdd' id hid' hid).mpr hdistinct
    · exact List.all_eq_true.mp hall d (hperm.mem_iff.mp hd)
  · obtain rfl := Except.ok.inj h
    exact ⟨htruthy, hdistinct, Or.inr fun d hd => by simpa using List.all_eq_true.mp hnone d hd⟩

theorem listed_loaderDemos {env : LoaderEnv} {dirs : List DemoDir} {demos : List PyDict}
    (h : loaderDemos env dirs = .ok demos) : Listed demos := by
  obtain ⟨cache, hcache, h⟩ := ok_of_bind h
  obtain ⟨_, -, h⟩ := ok_of_bind h
  obtain ⟨htruthy, hdistinct⟩ := loaderCache_spec hcache (fun _ hd => absurd hd List.not_mem_nil)
    List.Pairwise.nil
  exact listed_sortById h htruthy hdistinct

/-! ### A run -/

/-- The demos that a run tries to write. -/
def writable (existing : List PyVal) (overwrite : Bool) (demos : List PyDict) : List PyDict :=
  demos.filter fun d => (stringId d).isSome && (overwrite || !idIn existing (d.get "id"))

/-- The write of a demo. -/
def writeOf (demo : PyDict) : Op String PyDict Empty := .putItem (serialize demo)

section Outcomes

variable {outcomes : List (Option String)} {writes : List (Op String PyDict Empty)} {m : DemoMemory}
  {t : DemoTable slot}

/-- A put of a demo with an id that is a string. -/
theorem put_eq_await {demo : PyDict} {id : String} (hid : stringId demo = some id)
    (htruthy : (demo.get "id").truthy = true) :
    (put demo : DemoProg slot Unit) =
      .await (writeOf demo) fun
        | .ok _ => pure ()
        | .error f => throw (.service f) := by
  have hget := get_id_serialize (stringId_eq_some_iff.mp hid)
  rw [put, if_pos htruthy, hget]
  rfl

theorem put_run_ok {demo : PyDict} {id : String} (hid : stringId demo = some id)
    (htruthy : (demo.get "id").truthy = true) (houtcome : outcomes.head?.join = none) :
    execUnder (recording byOutcomes) (put demo) (outcomes, writes) m t =
      { result := .ok (), rest := (outcomes.tail, writes ++ [writeOf demo]), memory := m,
        table := t.put (serialize demo) } := by
  rw [put_eq_await hid htruthy, execUnder_complete (recording_complete houtcome _)]
  rfl

theorem put_run_fault {demo : PyDict} {id : String} (hid : stringId demo = some id)
    (htruthy : (demo.get "id").truthy = true) (code : String) :
    execUnder (recording byOutcomes) (put demo) (some code :: outcomes, writes) m t =
      { result := .error (.service (.service code)), rest := (outcomes, writes), memory := m,
        table := t } := by
  rw [put_eq_await hid htruthy, execUnder_fault (recording_fault _ code)]
  rfl

/-- A demo whose id is no string is not written. -/
theorem put_eq_raise {demo : PyDict} (hid : stringId demo = none) :
    ∃ e, (put demo : DemoProg slot Unit) = .raise e := by
  rw [put]
  split_ifs with htruthy
  · -- Its key would be no string either.
    split
    · rename_i id hkey
      rw [serialize, PyDict.get_mapValues rfl, get_id_normalizeDemoDict] at hkey
      rw [stringId_eq_some_iff.mpr (Ddb.eq_str_of_itemValue hkey)] at hid
      cases hid
    · exact ⟨_, rfl⟩
  · exact ⟨_, rfl⟩

/-- The loop over demos whose ids are strings. -/
theorem migrateDemos_outcome (existing : List PyVal) (overwrite : Bool) {demos : List PyDict}
    (htruthy : ∀ d ∈ demos, (d.get "id").truthy = true) (hstring : ∀ d ∈ demos, (stringId d).isSome)
    (summary : MigrationSummary) (outcomes : List (Option String))
    (writes : List (Op String PyDict Empty)) (m : DemoMemory) (t : DemoTable slot) :
    ∃ result rest,
      execUnder (recording byOutcomes) (migrateDemos existing overwrite demos summary)
          (outcomes, writes) m t =
        { result
          rest := (rest, writes ++
            (untilFault outcomes (writable existing overwrite demos)).map writeOf)
          memory := m
          table := t.putAll
            ((untilFault outcomes (writable existing overwrite demos)).map serialize) } ∧
        ((∃ s, result = .ok s) ↔ untilFault outcomes (writable existing overwrite demos) =
          writable existing overwrite demos) := by
  induction demos generalizing summary outcomes writes t with
  | nil =>
    have hnil : untilFault outcomes (writable existing overwrite []) = [] := untilFault_nil outcomes
    refine ⟨.ok summary, outcomes, ?_, iff_of_true ⟨summary, rfl⟩ hnil⟩
    rw [hnil, List.map_nil, List.append_nil]
    rfl
  | cons d rest ih =>
    obtain ⟨hd, hrest⟩ := List.forall_mem_cons.mp htruthy
    obtain ⟨hdstring, hreststring⟩ := List.forall_mem_cons.mp hstring
    obtain ⟨id, hid⟩ := Option.isSome_iff_exists.mp hdstring
    rw [migrateDemos, if_neg (by simp [hd])]
    -- A demo is skipped, or its put takes the next outcome.
    by_cases hskip : (idIn existing (d.get "id") && !overwrite) = true
    · rw [if_pos hskip]
      have hwritable : writable existing overwrite (d :: rest) = writable existing overwrite rest :=
        List.filter_cons_of_neg (by
          rw [Bool.and_eq_true, Bool.not_eq_true'] at hskip
          simp [hskip.1, hskip.2])
      rw [hwritable]
      exact ih hrest hreststring _ outcomes writes t
    · rw [if_neg hskip]
      have hwritable : writable existing overwrite (d :: rest) =
          d :: writable existing overwrite rest :=
        List.filter_cons_of_pos (by
          rw [Bool.and_eq_true, Bool.not_eq_true', not_and, Bool.not_eq_false] at hskip
          rw [hdstring, Bool.true_and, Bool.or_eq_true, Bool.not_eq_true']
          by_cases hexists : idIn existing (d.get "id") = true
          · exact Or.inl (hskip hexists)
          · exact Or.inr (Bool.not_eq_true _ ▸ hexists))
      rw [hwritable, Prog.bind_eq, execUnder_bind, execUnder_mapError]
      match hhead : outcomes.head?.join with
      | none =>
        rw [put_run_ok hid hd hhead, untilFault_cons hhead]
        obtain ⟨result, rest', hrun, hresult⟩ := ih hrest hreststring _ outcomes.tail
          (writes ++ [writeOf d]) (t.put (serialize d))
        refine ⟨result, rest', hrun.trans ?_, ?_⟩
        · rw [List.map_cons, List.append_assoc]
          rfl
        · rw [hresult, List.cons.injEq, eq_self, true_and]
      | some code =>
        -- The first put that fails ends the loop.
        obtain ⟨os, rfl⟩ := exists_of_head?_join hhead
        rw [put_run_fault hid hd code, untilFault_fault]
        refine ⟨.error (.store (.service (.service code))), os, ?_, iff_of_false ?_ nofun⟩
        · rw [List.map_nil, List.append_nil]
          rfl
        · rintro ⟨s, hs⟩
          exact absurd hs nofun

end Outcomes

/-! ### The ids that are in the table -/

/-- A demo in the cache has its key as its id. -/
theorem id_of_get?_loadItems {items : List PyDict} {id : String} {demo : PyDict}
    (h : (loadItems items).get? id = some demo) : id ≠ "" ∧ demo.get "id" = .str id := by
  -- By induction on the items, for any cache so far.
  have hfold : ∀ acc : OrderedMap String PyDict × List Skipped,
      (∀ id demo, acc.1.get? id = some demo → id ≠ "" ∧ demo.get "id" = .str id) →
      ∀ id demo, (items.foldl loadItem acc).1.get? id = some demo → id ≠ "" ∧ demo.get "id" = .str id := by
    clear h
    induction items with
    | nil => exact fun acc hacc => hacc
    | cons item items ih =>
      intro acc hacc
      refine ih _ fun id demo hget => ?_
      rw [loadItem] at hget
      split at hget
      · rename_i s hs
        split_ifs at hget with hempty hhas
        · exact hacc id demo hget
        · exact hacc id demo hget
        · rw [OrderedMap.get?_set] at hget
          split_ifs at hget with hkey
          · obtain rfl := Option.some.inj hget
            rw [hkey]
            exact ⟨hempty, hs⟩
          · exact hacc id demo hget
      · exact hacc id demo hget
  exact hfold (∅, []) (fun _ _ hnone => by cases hnone) id demo h

/-- The entries of `list` have the ids of the demos. -/
theorem map_id_summaries {demos : List PyDict} {entries : List Summary}
    (h : summaries demos = .ok entries) : entries.map Summary.id = demos.map fun d => d.get "id" := by
  induction demos generalizing entries with
  | nil =>
    obtain rfl := Except.ok.inj h
    rfl
  | cons d demos ih =>
    rw [summaries, List.mapM_cons] at h
    obtain ⟨entry, hentry, h⟩ := ok_of_bind h
    obtain ⟨rest, hrest, h⟩ := ok_of_bind h
    obtain ⟨kbChars, -, hentry⟩ := ok_of_bind hentry
    obtain rfl := Except.ok.inj h
    obtain rfl := Except.ok.inj hentry
    rw [List.map_cons, List.map_cons, ih hrest]

/-- The ids of the cache after a scan are those of the table. -/
theorem idIn_loadItems {t : DemoTable slot} {id : String} (hid : id ≠ "") :
    idIn ((loadItems t.items).values.map fun d => d.get "id") (.str id) = true ↔
      ∃ item ∈ t, itemId item = id := by
  simp only [idIn, List.any_map, List.any_eq_true, Function.comp_apply, PyVal.same_iff]
  constructor
  · rintro ⟨demo, hdemo, hsame⟩
    obtain ⟨⟨key, _⟩, hentry, rfl⟩ := List.mem_map.mp hdemo
    have hget := OrderedMap.mem_entries_iff.mp hentry
    obtain ⟨hkey, hdemoId⟩ := id_of_get?_loadItems hget
    obtain rfl : key = id := PyVal.str.inj (hdemoId.symm.trans hsame)
    rw [get?_loadItems _ hkey] at hget
    obtain ⟨item, hitem, -⟩ := Option.map_eq_some_iff.mp hget
    exact ⟨item, List.mem_of_find?_eq_some hitem, by simpa using List.find?_some hitem⟩
  · rintro ⟨item, hitem, hkey⟩
    -- Of the items with the id one is in the cache.
    have hsome : (t.items.find? fun i => itemId i = id).isSome :=
      List.find?_isSome.mpr ⟨item, hitem, by simpa using hkey⟩
    obtain ⟨found, hfound⟩ := Option.isSome_iff_exists.mp hsome
    have hget : (loadItems t.items).get? id = some (deserialize found) := by
      rw [get?_loadItems _ hid, hfound, Option.map_some]
    refine ⟨deserialize found, ?_, (id_of_get?_loadItems hget).2⟩
    exact List.mem_map_of_mem (OrderedMap.mem_entries_iff.mpr hget)

/-! ### Whole runs -/

/-- The ids of demos, all of which are strings or none. -/
theorem loop_outcome {demos : List PyDict} (h : Listed demos) {existing : List PyVal}
    (hexisting : ∀ e ∈ existing, ∃ s, e = .str s) (overwrite : Bool) (summary : MigrationSummary)
    (outcomes : List (Option String)) (m : DemoMemory) (t : DemoTable slot) :
    ∃ result rest,
      execUnder (recording byOutcomes) (migrateDemos existing overwrite demos summary)
          (outcomes, []) m t =
        { result
          rest := (rest, (untilFault outcomes (writable existing overwrite demos)).map writeOf)
          memory := m
          table := t.putAll
            ((untilFault outcomes (writable existing overwrite demos)).map serialize) } ∧
        ((∃ s, result = .ok s) → (∀ d ∈ demos, (stringId d).isSome) ∧
          untilFault outcomes (writable existing overwrite demos) =
            writable existing overwrite demos) := by
  rcases h.uniform with hstring | hnone
  · obtain ⟨result, rest, hrun, hresult⟩ := migrateDemos_outcome existing overwrite h.truthy hstring
      summary outcomes [] m t
    exact ⟨result, rest, hrun, fun hok => ⟨hstring, hresult.mp hok⟩⟩
  · -- The table refuses the first demo.
    have hwritable : writable existing overwrite demos = [] :=
      List.filter_eq_nil_iff.mpr fun d hd => by rw [hnone d hd]; exact nofun
    rw [hwritable, untilFault_nil]
    match demos with
    | [] => exact ⟨.ok summary, outcomes, rfl, fun _ => ⟨nofun, rfl⟩⟩
    | d :: rest =>
      have hid := hnone d List.mem_cons_self
      have hnot : idIn existing (d.get "id") = false := by
        refine List.any_eq_false.mpr fun e he hsame => ?_
        obtain ⟨s, rfl⟩ := hexisting e he
        have hstr := stringId_eq_some_iff.mpr ((PyVal.same_iff _ _).mp hsame).symm
        exact absurd (hid.symm.trans hstr) nofun
      obtain ⟨e, hput⟩ : ∃ e, (put _ : DemoProg slot Unit) = .raise e := put_eq_raise hid
      refine ⟨.error (.store e), outcomes, ?_, fun ⟨s, hs⟩ => absurd hs nofun⟩
      rw [migrateDemos, if_neg (by simp [h.truthy d List.mem_cons_self]), hnot, Bool.false_and,
        if_neg nofun, Prog.bind_eq, execUnder_bind, execUnder_mapError, hput]
      rfl

/-- The demos on disk with ids that a table can have as keys; none, if the loader raises. -/
def diskDemos (env : LoaderEnv) (dirs : List DemoDir) : List PyDict :=
  match loaderDemos env dirs with
  | .ok demos => demos.filter fun d => (stringId d).isSome
  | .error _ => []

/-- The table has an item with the id of the demo. -/
def hasDemo (t : DemoTable slot) (demo : PyDict) : Bool :=
  t.items.any fun item => stringId demo = some (itemId item)

/-- The demos that a run tries to write: those whose ids it has not seen in the table. -/
def attempted (env : LoaderEnv) (dirs : List DemoDir) (overwrite : Bool)
    (outcomes : List (Option String)) (t : DemoTable slot) : List PyDict :=
  (diskDemos env dirs).filter fun d => overwrite || outcomes.head?.join.isSome || !hasDemo t d

/-- The cache with which a new store comes out of its first scan. -/
def firstCache (outcomes : List (Option String)) (t : DemoTable slot) : OrderedMap String PyDict :=
  if outcomes.head?.join.isSome then ∅ else loadItems t.items

/-- A scan that fails leaves the cache empty, as it was. -/
theorem rescan_run (outcomes : List (Option String)) (t : DemoTable slot) :
    ∃ n lastSkipped, execUnder (recording byOutcomes) rescan (outcomes, []) newStore t =
      { result := .ok n, rest := (outcomes.tail, [])
        memory := { cache := firstCache outcomes t, lastSkipped }, table := t } := by
  -- The scan has the first outcome that is left.
  have hscan (f : Except Fault (List PyDict) → DemoProg slot ℕ) (m : DemoMemory) :
      execUnder (recording byOutcomes) (.await (Op.scan : Op String PyDict Empty) f) (outcomes, []) m t =
        execUnder (recording byOutcomes)
          (f (outcomes.head?.join.elim (.ok t.items) fun code => .error (.service code)))
          (outcomes.tail, []) m t := by
    cases hhead : outcomes.head?.join with
    | none =>
      rw [execUnder_complete (recording_complete hhead _)]
      rfl
    | some code =>
      obtain ⟨rest, rfl⟩ := exists_of_head?_join hhead
      rw [execUnder_fault (recording_fault _ code)]
      rfl
  rw [rescan]
  simp only [Prog.modify_eq, Prog.bind_eq, Prog.bind_read, Prog.bind_write, Prog.bind_done,
    execUnder_read, execUnder_write, hscan]
  cases hhead : outcomes.head?.join with
  | none =>
    refine ⟨(loadItems t.items).keys.length, [] ++ skippedItems t.items, ?_⟩
    rw [firstCache, hhead]
    rfl
  | some code =>
    refine ⟨0, [] ++ [⟨"*", scanFailure demosTable (.service code)⟩], ?_⟩
    rw [firstCache, hhead]
    rfl

/-- The ids of the cache are strings. -/
theorem id_of_mem_firstCache {outcomes : List (Option String)} {t : DemoTable slot} {demo : PyDict}
    (h : demo ∈ (firstCache outcomes t).values) : ∃ id, demo.get "id" = .str id := by
  rw [firstCache] at h
  split_ifs at h
  · exact absurd h List.not_mem_nil
  · obtain ⟨⟨id, demo⟩, hentry, rfl⟩ := List.mem_map.mp h
    exact ⟨id, (id_of_get?_loadItems (OrderedMap.mem_entries_iff.mp hentry)).2⟩

/-- The ids that a run has seen are those of the table, if the scan completed. -/
theorem writable_firstCache {demos : List PyDict} (h : Listed demos) {overwrite : Bool}
    {outcomes : List (Option String)} {t : DemoTable slot} :
    writable ((firstCache outcomes t).values.map fun d => d.get "id") overwrite demos =
      (demos.filter fun d => (stringId d).isSome).filter fun d =>
        overwrite || outcomes.head?.join.isSome || !hasDemo t d := by
  rw [writable, List.filter_filter]
  refine List.filter_congr fun d hd => ?_
  match hid : stringId d with
  | none => simp
  | some id =>
    have hget := stringId_eq_some_iff.mp hid
    have hne : id ≠ "" := by
      have htruthy := h.truthy d hd
      rw [hget] at htruthy
      simpa [PyVal.truthy] using htruthy
    -- After a failed scan the cache is empty, and nothing is known.
    have hseen : idIn ((firstCache outcomes t).values.map fun d => d.get "id") (d.get "id") =
        (!outcomes.head?.join.isSome && hasDemo t d) := by
      rw [firstCache, hget]
      match outcomes.head?.join with
      | some code => rfl
      | none =>
        rw [Bool.eq_iff_iff, if_neg nofun, idIn_loadItems hne]
        simp only [Option.isSome_none, Bool.not_false, Bool.true_and, hasDemo, List.any_eq_true,
          decide_eq_true_eq, hid, Option.some.injEq, @eq_comm _ id]
        rfl
    rw [hseen]
    simp [Bool.or_assoc]

/-- What a run leaves and writes: the demos that it tries to write, until a write fails; or nothing,
if the loader or the listing of the table raises. -/
theorem migration_outcome (env : LoaderEnv) (dirs : List DemoDir) (overwrite : Bool)
    (outcomes : List (Option String)) (t : DemoTable slot) :
    let run := runMigration env dirs overwrite outcomes t
    let written := untilFault outcomes.tail (attempted env dirs overwrite outcomes t)
    (run.table = t.putAll (written.map serialize) ∧ run.rest.2 = written.map writeOf ∧
        ((∃ s, run.result = .ok s) → written = attempted env dirs overwrite outcomes t)) ∨
      (outcomes.head?.join = none ∧ run.table = t ∧ run.rest.2 = [] ∧ ∀ s, run.result ≠ .ok s) := by
  intro run written
  match hloader : loaderDemos env dirs with
  | .error e =>
    -- Nothing is read or written.
    have hrun : run =
        { result := .error .typeError
          rest := (outcomes, [])
          memory := newStore
          table := t } := by
      show execUnder _ (migrate env dirs overwrite) _ _ _ = _
      rw [migrate, hloader]
      rfl
    have hwritten : written = [] := by
      have hnone : attempted env dirs overwrite outcomes t = [] := by
        rw [attempted, diskDemos, hloader]
        rfl
      show untilFault _ (attempted env dirs overwrite outcomes t) = []
      rw [hnone, untilFault_nil]
    rw [hrun, hwritten]
    exact Or.inl ⟨rfl, rfl, fun ⟨s, hs⟩ => absurd hs nofun⟩
  | .ok demos =>
    have hlisted := listed_loaderDemos hloader
    obtain ⟨n, lastSkipped, hrescan⟩ := rescan_run outcomes t
    have hrun : run = execUnder (recording byOutcomes)
        ((pureCall (summaries (firstCache outcomes t).values)).bind fun existing =>
          migrateDemos (existing.map Summary.id) overwrite demos
            { migrated := [], overwritten := [], skipped := [], total := demos.length })
        (outcomes.tail, []) { cache := firstCache outcomes t, lastSkipped } t := by
      show execUnder _ (migrate env dirs overwrite) _ _ _ = _
      rw [migrate, hloader]
      show execUnder _ ((rescan.mapError MigrationExc.store).bind _) _ _ _ = _
      rw [execUnder_bind, execUnder_mapError, hrescan]
      rfl
    cases hsummaries : summaries (firstCache outcomes t).values with
    | error e =>
      -- Only a table that was scanned can hold what `list` cannot count.
      have hscanned : outcomes.head?.join = none := by
        cases hhead : outcomes.head?.join with
        | none => rfl
        | some code =>
          rw [firstCache, hhead] at hsummaries
          cases hsummaries
      rw [hrun, hsummaries]
      exact Or.inr ⟨hscanned, rfl, rfl, nofun⟩
    | ok existing =>
      have hids := map_id_summaries hsummaries
      have hexisting : ∀ e ∈ existing.map Summary.id, ∃ s, e = .str s := by
        rw [hids]
        intro e he
        obtain ⟨demo, hdemo, rfl⟩ := List.mem_map.mp he
        exact id_of_mem_firstCache hdemo
      obtain ⟨result, rest, hloop, hresult⟩ := loop_outcome hlisted hexisting overwrite
        { migrated := [], overwritten := [], skipped := [], total := demos.length } outcomes.tail
        { cache := firstCache outcomes t, lastSkipped } t
      have hwritable : writable (existing.map Summary.id) overwrite demos =
          attempted env dirs overwrite outcomes t := by
        rw [attempted, diskDemos, hloader, hids]
        exact writable_firstCache hlisted
      rw [hsummaries] at hrun
      rw [hwritable] at hloop hresult
      rw [hrun.trans hloop]
      exact Or.inl ⟨rfl, rfl, fun hok => (hresult hok).2⟩

/-! ### Items that were in the table -/

theorem exists_stringId_of_mem_diskDemos {env : LoaderEnv} {dirs : List DemoDir} {d : PyDict}
    (h : d ∈ diskDemos env dirs) : ∃ id, stringId d = some id := by
  rw [diskDemos] at h
  split at h
  · exact Option.isSome_iff_exists.mp (List.mem_filter.mp h).2
  · exact absurd h List.not_mem_nil

/-- A demo is stored under its id. -/
theorem key_serialize {d : PyDict} {id : String} (h : stringId d = some id) :
    itemId (serialize d) = id := by
  rw [itemId, get_id_serialize (stringId_eq_some_iff.mp h)]

theorem key_serialize_eq_iff {env : LoaderEnv} {dirs : List DemoDir} {d : PyDict}
    (h : d ∈ diskDemos env dirs) {id : String} :
    itemId (serialize d) = id ↔ stringId d = some id := by
  obtain ⟨id', hid⟩ := exists_stringId_of_mem_diskDemos h
  rw [key_serialize hid, hid, Option.some.injEq]

/-- No two demos on disk are stored under one id. -/
theorem nodup_keys_diskDemos (env : LoaderEnv) (dirs : List DemoDir) :
    ((diskDemos env dirs).map fun d => itemId (serialize d)).Nodup := by
  rw [List.Nodup, List.pairwise_map]
  have hdistinct : (diskDemos env dirs).Pairwise fun d d' =>
      ∀ id, stringId d = some id → stringId d' ≠ some id := by
    rw [diskDemos]
    split
    · rename_i demos hdemos
      exact (listed_loaderDemos hdemos).distinct.filter _
    · exact List.Pairwise.nil
  refine hdistinct.imp_of_mem fun {d d'} hd hd' hne hkey => ?_
  obtain ⟨id, hid⟩ := exists_stringId_of_mem_diskDemos hd
  exact hne id hid ((key_serialize_eq_iff hd').mp (hkey.symm.trans (key_serialize hid)))

theorem hasDemo_iff {t : DemoTable slot} {d : PyDict} :
    hasDemo t d = true ↔ ∃ item ∈ t, stringId d = some (itemId item) := by
  rw [hasDemo, List.any_eq_true]
  simp only [decide_eq_true_eq, Table.mem_def]

/-- Whether a run that does not overwrite leaves all items as they were: the listing of the table
completed, or each item that is written over is written as it was. -/
def KeepsWhen (env : LoaderEnv) (dirs : List DemoDir) (outcomes : List (Option String))
    (t : DemoTable slot) : Prop :=
  outcomes.head?.join = none ∨
    ∀ d ∈ untilFault outcomes.tail (diskDemos env dirs), ∀ item ∈ t,
      stringId d = some (itemId item) → item = serialize d

theorem keepsItems_iff (env : LoaderEnv) (dirs : List DemoDir) (outcomes : List (Option String))
    (t : DemoTable slot) :
    (∀ item ∈ t, item ∈ (runMigration env dirs false outcomes t).table) ↔
      KeepsWhen env dirs outcomes t := by
  have houtcome := migration_outcome env dirs false outcomes t
  rw [KeepsWhen]
  match hhead : outcomes.head?.join with
  | none =>
    refine iff_of_true (fun item hitem => ?_) (Or.inl rfl)
    rcases houtcome with ⟨htable, -⟩ | ⟨-, htable, -⟩
    · -- Nothing that is written has the id of an item.
      rw [htable, ← Table.get?_key_iff, Table.get?_putAll_of_notMem, Table.get?_key_iff]
      · exact hitem
      · rw [List.map_map]
        intro hkey
        obtain ⟨d, hd, hdkey⟩ := List.mem_map.mp hkey
        have hattempted := (untilFault_sublist _ _).subset hd
        rw [attempted, hhead, List.mem_filter] at hattempted
        obtain ⟨hdisk, hnot⟩ := hattempted
        have hhas := hasDemo_iff.mpr ⟨item, hitem, (key_serialize_eq_iff hdisk).mp hdkey⟩
        rw [hhas] at hnot
        exact absurd hnot nofun
    · rw [htable]
      exact hitem
  | some code =>
    have hattempted : attempted env dirs false outcomes t = diskDemos env dirs := by
      rw [attempted, hhead]
      exact List.filter_eq_self.mpr fun _ _ => rfl
    rcases houtcome with ⟨htable, -⟩ | ⟨hnone, -⟩
    · rw [hattempted] at htable
      rw [htable]
      have hnodup : (((untilFault outcomes.tail (diskDemos env dirs)).map serialize).map
          (demoSchema slot).key).Nodup := by
        rw [List.map_map]
        exact (nodup_keys_diskDemos env dirs).sublist ((untilFault_sublist _ _).map _)
      constructor
      · intro hkept
        refine Or.inr fun d hd item hitem hid => ?_
        have hget := Table.get?_putAll_of_mem (t := t) hnodup (List.mem_map_of_mem hd)
        have hkey : itemId (serialize d) = itemId item := key_serialize hid
        exact Table.eq_of_key_eq (hkept item hitem) (Table.get?_eq_some_iff.mp hget).1 hkey.symm
      · rintro (hnone | hsame) item hitem
        · exact absurd hnone nofun
        · by_cases hkey : (demoSchema slot).key item ∈
              ((untilFault outcomes.tail (diskDemos env dirs)).map serialize).map (demoSchema slot).key
          · rw [List.map_map] at hkey
            obtain ⟨d, hd, hdkey⟩ := List.mem_map.mp hkey
            have hid := (key_serialize_eq_iff ((untilFault_sublist _ _).subset hd)).mp hdkey
            rw [hsame d hd item hitem hid]
            exact (Table.get?_eq_some_iff.mp
              (Table.get?_putAll_of_mem hnodup (List.mem_map_of_mem hd))).1
          · rw [← Table.get?_key_iff, Table.get?_putAll_of_notMem hkey, Table.get?_key_iff]
            exact hitem
    · exact absurd (hhead.symm.trans hnone) nofun

/-! ### A second run -/

theorem hasDemo_iff_isSome {t : DemoTable slot} {d : PyDict} {id : String} (hid : stringId d = some id) :
    hasDemo t d = true ↔ (t.get? id).isSome := by
  rw [hasDemo_iff, hid, Option.isSome_iff_exists]
  constructor
  · rintro ⟨item, hitem, hkey⟩
    exact ⟨item, Table.get?_eq_some_iff.mpr ⟨hitem, (Option.some.inj hkey).symm⟩⟩
  · rintro ⟨item, hget⟩
    obtain ⟨hitem, hkey⟩ := Table.get?_eq_some_iff.mp hget
    exact ⟨item, hitem, congrArg some hkey.symm⟩

/-- After a run that completed, the table has all demos on disk. -/
theorem hasDemo_of_completed {env : LoaderEnv} {dirs : List DemoDir} {outcomes : List (Option String)}
    {t : DemoTable slot} {s : MigrationSummary}
    (hdone : (runMigration env dirs false outcomes t).result = .ok s) {d : PyDict}
    (hd : d ∈ diskDemos env dirs) :
    hasDemo (runMigration env dirs false outcomes t).table d = true := by
  obtain ⟨id, hid⟩ := exists_stringId_of_mem_diskDemos hd
  rcases migration_outcome env dirs false outcomes t with ⟨htable, -, hall⟩ | ⟨-, -, -, hraised⟩
  · rw [hasDemo_iff_isSome hid, htable, hall ⟨s, hdone⟩, Table.isSome_get?_putAll,
      ← hasDemo_iff_isSome hid]
    by_cases hhas : hasDemo t d = true
    · exact Or.inr hhas
    · -- It was written in this run.
      have hattempted : d ∈ attempted env dirs false outcomes t :=
        List.mem_filter.mpr ⟨hd, by simp [hhas]⟩
      left
      rw [← key_serialize hid]
      exact List.mem_map_of_mem (List.mem_map_of_mem hattempted)
  · exact absurd hdone (hraised s)

/-- Whether a run after a completed one writes nothing: the listing of the table completes, or the
first write fails, or there is nothing on disk. -/
def QuietWhen (env : LoaderEnv) (dirs : List DemoDir) (outcomes : List (Option String)) : Prop :=
  outcomes.head?.join = none ∨ untilFault outcomes.tail (diskDemos env dirs) = []

theorem writesNothing_iff (env : LoaderEnv) (dirs : List DemoDir) (outcomes : List (Option String))
    {t : DemoTable slot} (hall : ∀ d ∈ diskDemos env dirs, hasDemo t d = true) :
    (runMigration env dirs false outcomes t).rest.2 = [] ↔ QuietWhen env dirs outcomes := by
  have houtcome := migration_outcome env dirs false outcomes t
  rw [QuietWhen]
  match hhead : outcomes.head?.join with
  | none =>
    refine iff_of_true ?_ (Or.inl rfl)
    -- Every demo is there already.
    have hattempted : attempted env dirs false outcomes t = [] := by
      rw [attempted, hhead]
      exact List.filter_eq_nil_iff.mpr fun d hd => by simp [hall d hd]
    rw [hattempted, untilFault_nil] at houtcome
    rcases houtcome with ⟨-, hwrites, -⟩ | ⟨-, -, hwrites, -⟩
    · exact hwrites
    · exact hwrites
  | some code =>
    have hattempted : attempted env dirs false outcomes t = diskDemos env dirs := by
      rw [attempted, hhead]
      exact List.filter_eq_self.mpr fun _ _ => rfl
    rw [hattempted] at houtcome
    rcases houtcome with ⟨-, hwrites, -⟩ | ⟨hnone, -⟩
    · rw [hwrites, List.map_eq_nil_iff]
      exact (or_iff_right nofun).symm
    · exact absurd (hhead.symm.trans hnone) nofun

/-- What a run keeps, and what a run after a completed one writes. -/
theorem migration_iff (env : LoaderEnv) (dirs : List DemoDir) (outcomes outcomes' : List (Option String))
    (t : DemoTable slot) :
    let first := runMigration env dirs false outcomes t
    let second := runMigration env dirs false outcomes' first.table
    ((∀ item ∈ t, item ∈ first.table) ↔ KeepsWhen env dirs outcomes t) ∧
      ((∃ s, first.result = .ok s) → (second.rest.2 = [] ↔ QuietWhen env dirs outcomes')) := by
  intro first second
  refine ⟨keepsItems_iff env dirs outcomes t, ?_⟩
  rintro ⟨s, hdone⟩
  exact writesNothing_iff env dirs outcomes' fun d hd => hasDemo_of_completed hdone hd

/-- A manifest without a knowledge base. -/
def shopManifest : PyDict :=
  [("id", .str "shop"), ("label", .str "Shop"), ("lang", .str "en"),
    ("system", .dict [("en", .str "You sell shoes.")]),
    ("greeting", .dict [("en", .str "Hello!")])]

/-- The directory of the manifest. -/
def shopDir : DemoDir where
  path := "data/shop"
  manifest := some (.dict shopManifest)
  readText _ := none

/-- An item with the same id and other texts. -/
def shopItem : PyDict := [("id", .str "shop"), ("label", .str "Shoes and boots")]

/-- When the listing fails, an item that was in the table is written over. -/
theorem shop_overwritten :
    ¬ ∀ (slot : String ↪ ℕ) (env : LoaderEnv) (dirs : List DemoDir)
      (outcomes outcomes' : List (Option String)) (t : DemoTable slot),
      let first := runMigration env dirs false outcomes t
      let second := runMigration env dirs false outcomes' first.table
      (∀ item ∈ t, item ∈ first.table) ∧
        ((∃ s, first.result = .ok s) → second.rest.2 = []) := by
  intro hall
  let env : LoaderEnv := { pyStr := fun _ => "", registry := none }
  let t : DemoTable stringSlot := Table.put ∅ shopItem
  have hmem : shopItem ∈ t := Table.mem_put.mpr (Or.inl rfl)
  have hkept := (hall stringSlot env [shopDir] [some "ThrottlingException"] [] t).1
  rcases (keepsItems_iff env [shopDir] _ t).mp hkept with hnone | hsame
  · exact absurd hnone nofun
  · -- The scan failed, so the demo on disk counts as new and takes the place of the item.
    let demo := (manifestDemo env shopDir shopManifest).set "_dir" (.str "data/shop")
    have hload : loadOne env shopDir = some demo := by
      have hvalid : validManifest shopManifest = true := by decide +kernel
      show (if validManifest shopManifest then some demo else none) = some demo
      rw [if_pos hvalid]
    have hdemos : loaderDemos env [shopDir] = .ok [demo] := by
      have hcache : loaderCache env [shopDir] [] = .ok [demo] := by
        rw [loaderCache, hload]
        rfl
      have hsort : sortById [demo] = .ok [demo] := by
        rw [sortById, List.mergeSort_singleton]
        rfl
      rw [loaderDemos, hcache]
      exact hsort
    have hdisk : diskDemos env [shopDir] = [demo] := by
      rw [diskDemos, hdemos]
      rfl
    rw [hdisk] at hsame
    have hitem := hsame demo List.mem_cons_self shopItem hmem rfl
    have hlabel := congrArg (fun d => PyDict.get d "label") hitem
    exact absurd (PyVal.str.inj hlabel) (by decide)

end Demos
