import VoiceAgentPlatform.Demos.DemoStore
import VoiceAgentPlatform.Lib.CachedTable
import VoiceAgentPlatform.Voices.VoiceStore

/-!
# The caches of the demo and the voice store

Requests that write to the demo or the voice table, each followed by a rescan as in the admin routes,
and rescans on their own, in any interleaving. Rescans page through the table concurrently and each
replaces the whole cache, so an older one can arrive after a newer one.

* `DemoCall`, `VoiceCall`: the requests.
* `DemosReflected`, `VoicesReflected`: the cache is the normalised content of the table and serves it.
* `caches_reflect_tables`: in runs in which no rescan brings an outdated content after a rescan that
  was issued since the latest write, this holds whenever no operation is in flight and the rescan
  issued last has succeeded.
-/

namespace StoreCaches

open Async KeyedTable CachedTable

/-- A request to the demo store. -/
inductive DemoCall where
  | put (demo : PyDict)
  | rescan

/-- A request to the voice store. -/
inductive VoiceCall where
  | put (provider voiceId : String) (attrs : PyDict)
  | delete (provider voiceId : String)
  | rescan

section Demos

variable {slot : String ↪ ℕ}

/-- Each write is followed by a rescan, as in the admin routes. -/
def DemoCall.run : DemoCall → Demos.DemoProg slot ℕ
  | put demo => do
    Demos.put demo
    Demos.rescan
  | rescan => Demos.rescan

/-- The demo table, the cache and the requests. -/
abbrev DemoPool (slot : String ↪ ℕ) :=
  Pool (service (Demos.demoSchema slot)) DemoCall Demos.DemoMemory Demos.Exc ℕ

/-- The cache is what a scan of the table would leave, and it serves under each id the item of the
table. -/
structure DemosReflected (m : Demos.DemoMemory) (t : Demos.DemoTable slot) : Prop where
  cache : m.cache = Demos.loadItems t.items
  served : ∀ id, id ≠ "" → Demos.get m id = (t.get? id).map Demos.deserialize

theorem demosReflected_of_cache_eq {m : Demos.DemoMemory} {t : Demos.DemoTable slot}
    (h : m.cache = Demos.loadItems t.items) : DemosReflected m t where
  cache := h
  served id hid := by
    rw [Demos.get, if_neg hid, h]
    exact Demos.get?_loadItems t.items hid

theorem refreshing_demoRescan :
    Refreshing Demos.DemoMemory.cache Demos.loadItems (Demos.rescan : Demos.DemoProg slot ℕ) := by
  intro m reply
  cases reply with
  | error f => exact ⟨⟨fun _ => rfl, nofun⟩, fun _ _ => trivial⟩
  | ok items => exact ⟨⟨fun _ => rfl, nofun⟩, fun _ => trivial⟩

/-- The requests of the demo store follow the pattern of a cache refreshed by scans. -/
theorem refreshes_demoCall :
    Refreshes Demos.DemoMemory.cache Demos.loadItems
      (DemoCall.run : DemoCall → Demos.DemoProg slot ℕ) where
  start r m := by
    cases r with
    | rescan => rfl
    | put demo =>
      simp only [DemoCall.run, Demos.put]
      split_ifs
      · split <;> rfl
      · rfl
  program r := by
    cases r with
    | rescan => exact refreshing_demoRescan
    | put demo =>
      simp only [DemoCall.run, Demos.put]
      split_ifs
      · split
        · intro reply
          cases reply with
          -- A write that fails is not followed by a scan.
          | error f => exact ⟨⟨fun _ => rfl, nofun⟩, trivial⟩
          | ok _ => exact ⟨⟨fun _ => rfl, fun _ _ _ => ⟨_, rfl⟩⟩, refreshing_demoRescan⟩
        · trivial
      · trivial

end Demos

section Voices

variable {slot : String × String ↪ ℕ}

/-- Each write is followed by a rescan, as in the admin routes. -/
def VoiceCall.run : VoiceCall → Voices.VoiceProg slot ℤ
  | put provider voiceId attrs => do
    Voices.put provider voiceId attrs
    Voices.rescan
  | delete provider voiceId => do
    Voices.delete provider voiceId
    Voices.rescan
  | rescan => Voices.rescan

/-- The voice table, the cache and the requests. -/
abbrev VoicePool (slot : String × String ↪ ℕ) :=
  Pool (service (Voices.voiceSchema slot)) VoiceCall Voices.VoiceMemory Voices.Exc ℤ

/-- The cache is what a scan of the table would leave, and it serves under each key the item of the
table. -/
structure VoicesReflected (m : Voices.VoiceMemory) (t : Voices.VoiceTable slot) : Prop where
  cache : m.cache = Voices.loadItems t.items
  served : ∀ provider voiceId, provider ≠ "" → voiceId ≠ "" →
    Voices.get m provider voiceId = (t.get? (provider, voiceId)).map Voices.itemAttrs

theorem voicesReflected_of_cache_eq {m : Voices.VoiceMemory} {t : Voices.VoiceTable slot}
    (h : m.cache = Voices.loadItems t.items) : VoicesReflected m t where
  cache := h
  served provider voiceId hprovider hvoice := by
    rw [Voices.get, if_neg (not_or.mpr ⟨hprovider, hvoice⟩), h]
    exact Voices.lookup_loadItems t.nodup_keys hprovider hvoice

theorem refreshing_voiceRescan :
    Refreshing Voices.VoiceMemory.cache Voices.loadItems
      (Voices.rescan : Voices.VoiceProg slot ℤ) := by
  intro m reply
  cases reply with
  | error f =>
    by_cases hmissing : f = .service "ResourceNotFoundException"
    · subst hmissing
      exact ⟨⟨fun _ => rfl, nofun⟩, fun _ => trivial⟩
    · simp only [if_neg hmissing]
      exact ⟨⟨fun _ => rfl, nofun⟩, fun _ _ => trivial⟩
  | ok items => exact ⟨⟨fun _ => rfl, nofun⟩, fun _ => trivial⟩

/-- The requests of the voice store follow the pattern of a cache refreshed by scans. -/
theorem refreshes_voiceCall :
    Refreshes Voices.VoiceMemory.cache Voices.loadItems
      (VoiceCall.run : VoiceCall → Voices.VoiceProg slot ℤ) where
  start r m := by
    cases r with
    | rescan => rfl
    | put provider voiceId attrs =>
      simp only [VoiceCall.run, Voices.put]
      split_ifs <;> rfl
    | delete provider voiceId =>
      simp only [VoiceCall.run, Voices.delete]
      split_ifs <;> rfl
  program r := by
    cases r with
    | rescan => exact refreshing_voiceRescan
    | put provider voiceId attrs =>
      simp only [VoiceCall.run, Voices.put]
      split_ifs
      · trivial
      · intro reply
        cases reply with
        -- A write that fails is not followed by a scan.
        | error f => exact ⟨⟨fun _ => rfl, nofun⟩, trivial⟩
        | ok _ => exact ⟨⟨fun _ => rfl, fun _ _ _ => ⟨_, rfl⟩⟩, refreshing_voiceRescan⟩
    | delete provider voiceId =>
      simp only [VoiceCall.run, Voices.delete]
      split_ifs
      · trivial
      · intro reply
        cases reply with
        | error f => exact ⟨⟨fun _ => rfl, nofun⟩, trivial⟩
        | ok _ => exact ⟨⟨fun _ => rfl, fun _ _ _ => ⟨_, rfl⟩⟩, refreshing_voiceRescan⟩

end Voices

/-- A place for every pair of strings. -/
def pairSlot : String × String ↪ ℕ :=
  (stringSlot.prodMap stringSlot).trans Nat.pairEquiv.toEmbedding

variable {slot : String ↪ ℕ} {slot' : String × String ↪ ℕ}

/-- No operation on the table is in flight and the rescan issued last has succeeded. -/
def Settled {K V U : Type} [DecidableEq K] {sch : Schema K V U} {μ ε ρ α : Type}
    (s : Pool (service sch) ρ μ ε α) : Prop :=
  Quiescent s ∧ (watch s.history).succeeded = true

/-- In a run in which no rescan brings an outdated content after a rescan issued since the latest
write, the caches reflect the tables whenever no operation is in flight and the rescan issued last has
succeeded. -/
theorem caches_reflect_tables {demos : Demos.DemoTable slot} {voices : Voices.VoiceTable slot'}
    {m : Demos.DemoMemory} {m' : Voices.VoiceMemory}
    {es : List (Event (service (Demos.demoSchema slot)) DemoCall)}
    {es' : List (Event (service (Voices.voiceSchema slot')) VoiceCall)}
    (hdemos : Run.Guarded (Pool.step DemoCall.run) (InOrder Demos.loadItems)
      (Pool.start demos m : DemoPool slot) es)
    (hvoices : Run.Guarded (Pool.step VoiceCall.run) (InOrder Voices.loadItems)
      (Pool.start voices m' : VoicePool slot') es') :
    Run.Always (Pool.step DemoCall.run)
        (fun s : DemoPool slot => Settled s → DemosReflected s.memory s.store)
        (Pool.start demos m) es ∧
      Run.Always (Pool.step VoiceCall.run)
        (fun s : VoicePool slot' => Settled s → VoicesReflected s.memory s.store)
        (Pool.start voices m') es' := by
  constructor
  · refine (cache_eq_content refreshes_demoCall demos m hdemos).mono ?_
    exact fun s h hsettled => demosReflected_of_cache_eq (h hsettled.1 hsettled.2)
  · refine (cache_eq_content refreshes_voiceCall voices m' hvoices).mono ?_
    exact fun s h hsettled => voicesReflected_of_cache_eq (h hsettled.1 hsettled.2)

/-- A demo and a voice are stored, each by one request. -/
theorem caches_reflect_tables_onePut :
    Run.Always (Pool.step DemoCall.run)
        (fun s : DemoPool stringSlot => Settled s → DemosReflected s.memory s.store)
        (Pool.start ∅ ⟨∅, []⟩)
        [.spawn (.put [("id", .str "a")]), .perform 0 .ok, .resume 0, .perform 0 .ok, .resume 0] ∧
      Run.Always (Pool.step VoiceCall.run)
        (fun s : VoicePool pairSlot => Settled s → VoicesReflected s.memory s.store)
        (Pool.start ∅ ⟨Voices.emptyCache, false, []⟩)
        [.spawn (.put "polly" "Zhiyu" []), .perform 0 .ok, .resume 0, .perform 0 .ok, .resume 0] :=
  caches_reflect_tables
    ⟨inOrder_of_not_installed rfl, inOrder_of_not_installed rfl, inOrder_of_not_installed rfl,
      inOrder_of_not_installed rfl, inOrder_of_not_installed rfl, trivial⟩
    ⟨inOrder_of_not_installed rfl, inOrder_of_not_installed rfl, inOrder_of_not_installed rfl,
      inOrder_of_not_installed rfl, inOrder_of_not_installed rfl, trivial⟩

/-- A rescan reads the empty table and arrives after a demo was stored and its rescan has completed:
the demo is in the table and is not served. -/
theorem lateRescan_hidesDemo :
    ¬ Run.Always (Pool.step DemoCall.run)
      (fun s : DemoPool stringSlot => Settled s → DemosReflected s.memory s.store)
      (Pool.start ∅ ⟨∅, []⟩)
      [.spawn .rescan, .perform 0 .ok, .spawn (.put [("id", .str "a")]), .perform 1 .ok, .resume 1,
        .perform 1 .ok, .resume 1, .resume 0] := by
  intro h
  have hquiet : Quiescent (Run.exec (Pool.step DemoCall.run)
      (Pool.start ∅ ⟨∅, []⟩ : DemoPool stringSlot)
      [.spawn .rescan, .perform 0 .ok, .spawn (.put [("id", .str "a")]), .perform 1 .ok, .resume 1,
        .perform 1 .ok, .resume 1, .resume 0]) := by
    intro task htask
    rcases List.mem_cons.mp htask with rfl | htask
    · exact ⟨_, rfl⟩
    · rw [List.mem_singleton.mp htask]
      exact ⟨_, rfl⟩
  -- The scan that began before the put is installed behind it.
  have hserved := (h.last ⟨hquiet, rfl⟩).served "a" (by decide)
  have hmissing := congrArg Option.isSome hserved
  revert hmissing
  decide +kernel

end StoreCaches
