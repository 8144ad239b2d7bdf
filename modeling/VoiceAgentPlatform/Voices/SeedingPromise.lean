import VoiceAgentPlatform.StoreCaches
import VoiceAgentPlatform.Voices.Resolution

/-!
# What seeding promises

Starts of the process and requests of administrators, one after another, over one live table, where
the writes of each of them may fail from some number on. A table that was seeded and then emptied is
to be left empty by later starts, and a seeding that was cut short is to be completed by the next
start. Seeding looks at nothing but whether the cache has a voice, so it can keep neither.

* `Vacant`: a table in which a scan finds no voice.
* `seedIfEmpty_outcome`: what `seed_if_empty` returns and leaves.
* `World`, `World.step`: the table, the memory and what has happened to the table so far.
* `World.Promise`, `World.Harmless`: what a start is to do, and the states in which it does.
* `promise_always_iff`: over whole runs; `constants_return` is a run in which the constants come back.
-/

namespace Voices

open Async KeyedTable

variable {slot : String × String ↪ ℕ}

/-! ### A seeding -/

/-- The item is a voice of a provider. -/
def IsVoice (item : PyDict) : Prop := (itemKey item).1 ∈ voiceProviders ∧ (itemKey item).2 ≠ ""

/-- A table without voices of the providers. -/
def Vacant (t : VoiceTable slot) : Prop := ∀ item ∈ t, ¬ IsVoice item

/-- The item of a constant. -/
def constantItem (e : String × String × PyDict) : PyDict := voiceItem e.1 e.2.1 e.2.2

/-- The key of a constant. -/
def constantKey (e : String × String × PyDict) : String × String := (e.1, e.2.1)

instance (item : PyDict) : Decidable (IsVoice item) :=
  inferInstanceAs (Decidable (_ ∧ _))

instance (t : VoiceTable slot) : Decidable (Vacant t) :=
  inferInstanceAs (Decidable (∀ item ∈ t.items, ¬ IsVoice item))

/-- The table has a row under the key. -/
def Has (t : VoiceTable slot) (key : String × String) : Prop := (t.get? key).isSome

/-- The budget suffices for all constants. -/
def Suffices (budget : Option ℕ) : Prop := ∀ n, budget = some n → constantEntries.length ≤ n

/-- The constants that a seeding with the budget reaches. -/
def reachedBy (budget : Option ℕ) : List (String × String × PyDict) :=
  constantEntries.take (budget.getD constantEntries.length)

theorem reachedBy_of_suffices {budget : Option ℕ} (h : Suffices budget) :
    reachedBy budget = constantEntries := by
  match budget with
  | none => exact List.take_length
  | some n => exact List.take_of_length_le (h n rfl)

/-- Only without a write does a seeding reach nothing. -/
theorem reachedBy_eq_nil_iff {budget : Option ℕ} : reachedBy budget = [] ↔ budget = some 0 := by
  match budget with
  | none => exact iff_of_false (by decide +kernel) nofun
  | some 0 => exact iff_of_true rfl rfl
  | some (n + 1) => exact iff_of_false nofun nofun

theorem constantEntries_named : ∀ e ∈ constantEntries, e.1 ∈ voiceProviders ∧ e.2.1 ≠ "" := by
  decide +kernel

theorem constant_ne_empty {e : String × String × PyDict} (he : e ∈ constantEntries) :
    e.1 ≠ "" ∧ e.2.1 ≠ "" := by
  obtain ⟨hprovider, hvoice⟩ := constantEntries_named e he
  exact ⟨fun hempty => absurd (hempty ▸ hprovider) (by decide), hvoice⟩

theorem constantEntries_ne_nil : constantEntries.length ≠ 0 := by
  decide +kernel

@[simp] theorem itemKey_constantItem (e : String × String × PyDict) :
    itemKey (constantItem e) = constantKey e := itemKey_voiceItem e.1 e.2.1 e.2.2

theorem has_put (t : VoiceTable slot) (item : PyDict) (key : String × String) :
    Has (t.put item) key ↔ key = itemKey item ∨ Has t key := by
  have hsingle := Table.isSome_get?_putAll t [item] key
  rw [List.map_singleton, List.mem_singleton] at hsingle
  exact hsingle

/-- The cache of a scan has a voice exactly if the table has one. -/
theorem anyVoice_loadItems (t : VoiceTable slot) :
    anyVoice (loadItems t.items) = false ↔ Vacant t := by
  simp only [anyVoice, List.any_eq_false, Bool.not_eq_true', Bool.not_eq_false, List.isEmpty_iff]
  constructor
  · rintro hempty item hitem ⟨hprovider, hvoice⟩
    -- The item is found under its key, in the voices of its provider.
    have hknown : (itemKey item).1 ≠ "" := fun h => absurd (h ▸ hprovider) (by decide)
    have hfound := lookup_loadItems t.nodup_keys hknown hvoice
    have hsome : (t.items.find? fun i => itemKey i = itemKey item).isSome :=
      List.find?_isSome.mpr ⟨item, hitem, by simp⟩
    rw [lookup] at hfound
    have hnone := hempty _ hprovider
    cases hvoices : (loadItems t.items).get? (itemKey item).1 with
    | none =>
      rw [hvoices] at hfound
      rw [Option.isSome_iff_exists] at hsome
      obtain ⟨i, hi⟩ := hsome
      rw [hi] at hfound
      cases hfound
    | some voices =>
      rw [hvoices] at hfound hnone
      obtain ⟨i, hi⟩ := Option.isSome_iff_exists.mp hsome
      rw [hi, Option.bind_some, Option.map_some] at hfound
      have hentry := OrderedMap.mem_entries_iff.mpr hfound
      rw [Option.getD_some] at hnone
      rw [hnone] at hentry
      exact absurd hentry List.not_mem_nil
  · intro hvacant provider hprovider
    refine List.eq_nil_iff_forall_not_mem.mpr fun e he => ?_
    cases hvoices : (loadItems t.items).get? provider with
    | none => rw [hvoices] at he; exact absurd he List.not_mem_nil
    | some voices =>
      rw [hvoices] at he
      have hlookup : lookup (loadItems t.items) provider e.1 = some e.2 := by
        rw [lookup, hvoices]
        exact OrderedMap.mem_entries_iff.mp he
      obtain ⟨item, hitem, hkey, hvoice, -⟩ := exists_of_lookup_loadItems hlookup
      exact hvacant item hitem (by rw [IsVoice, hkey]; exact ⟨hprovider, hvoice⟩)

/-- The puts of a seeding: as many as the budget has. -/
theorem execWithin_seedPuts (code : String) {entries : List (String × String × PyDict)}
    (hentries : ∀ e ∈ entries, e.1 ∈ voiceProviders ∧ e.2.1 ≠ "") (budget : Option ℕ)
    (m : VoiceMemory) (t : VoiceTable slot) :
    ∃ result budget', execUnder (withBudget code) (seedPuts entries) budget m t =
      { result, rest := budget', memory := m,
        table := t.putAll ((entries.take (budget.getD entries.length)).map constantItem) } ∧
      (result = .ok () ↔ ∀ n, budget = some n → entries.length ≤ n) := by
  induction entries generalizing budget t with
  | nil =>
    refine ⟨.ok (), budget, ?_, iff_of_true rfl fun n _ => Nat.zero_le n⟩
    rw [List.take_nil]
    rfl
  | cons e rest ih =>
    obtain ⟨hprovider, hvoice⟩ := hentries e List.mem_cons_self
    have hnamed : ¬ (e.1 = "" ∨ e.2.1 = "") := by
      rintro (h | h)
      · exact absurd (h ▸ hprovider) (by decide)
      · exact hvoice h
    have hput : (seedPuts (e :: rest) : VoiceProg slot Unit) =
        (put e.1 e.2.1 e.2.2).bind fun _ => seedPuts rest := rfl
    rw [hput, execUnder_bind, put, if_neg hnamed]
    by_cases hzero : budget = some 0
    -- The budget is used up: the put fails, and the rest is not tried.
    · subst hzero
      rw [execWithin_zero rfl]
      refine ⟨_, some 0, rfl, iff_of_false (fun hok => by cases hok) fun h => ?_⟩
      exact absurd (h 0 rfl) (Nat.not_succ_le_zero _)
    · rw [execWithin_complete rfl hzero]
      obtain ⟨result, budget', hrest, hresult⟩ :=
        ih (fun e' he' => hentries e' (List.mem_cons_of_mem e he')) (budget.map Nat.pred)
          (t.put (constantItem e))
      refine ⟨result, budget', ?_, hresult.trans ?_⟩
      · refine hrest.trans ?_
        rcases budget with _ | _ | n
        · rfl
        · exact absurd rfl hzero
        · rfl
      · rcases budget with _ | _ | n
        · simp
        · exact absurd rfl hzero
        · simp

section Outcomes

variable {code : String} {budget : Option ℕ} {m : VoiceMemory} {t : VoiceTable slot}

/-- The memory after a scan. -/
def scanned (t : VoiceTable slot) : VoiceMemory :=
  { cache := loadItems t.items, live := true, lastSkipped := skippedItems t.items }

theorem rescan_outcome (budget : Option ℕ) (m : VoiceMemory) (t : VoiceTable slot) :
    execUnder (withBudget code) rescan budget m t =
      { result := .ok (total (loadItems t.items)), rest := budget, memory := scanned t,
        table := t } := by
  simp only [rescan, Prog.modify_eq, Prog.bind_eq, Prog.bind_read, Prog.bind_write, Prog.bind_done,
    execUnder_read, execUnder_write, execWithin_scan, Prog.pure_eq, execUnder_done, List.nil_append]
  rfl

/-- A seeding of a table with a voice changes nothing. -/
theorem seedIfEmpty_outcome_of_not_vacant (h : ¬ Vacant t) :
    execUnder (withBudget code) (seedIfEmpty constantEntries) budget m t =
      { result := .ok 0, rest := budget, memory := scanned t, table := t } := by
  have hany : anyVoice (scanned t).cache = true := by
    rw [← Bool.not_eq_false]
    exact fun hfalse => h ((anyVoice_loadItems t).mp hfalse)
  rw [seedIfEmpty, Prog.bind_eq, execUnder_bind, rescan_outcome]
  simp only [Prog.bind_eq, Prog.get_eq, Prog.bind_read, Prog.bind_done, execUnder_read]
  rw [if_neg (by simp [scanned]), if_pos hany]
  rfl

/-- A seeding of a table without voices puts as many constants as the budget has, and returns their
number if it has put them all. -/
theorem seedIfEmpty_outcome_of_vacant (code : String) (budget : Option ℕ) (m : VoiceMemory)
    (h : Vacant t) :
    (execUnder (withBudget code) (seedIfEmpty constantEntries) budget m t).table =
        t.putAll ((reachedBy budget).map constantItem) ∧
      (Suffices budget →
        (execUnder (withBudget code) (seedIfEmpty constantEntries) budget m t).result =
          .ok constantEntries.length ∧
        (execUnder (withBudget code) (seedIfEmpty constantEntries) budget m t).memory =
          scanned (t.putAll ((reachedBy budget).map constantItem))) ∧
      (¬ Suffices budget → ∃ e,
        (execUnder (withBudget code) (seedIfEmpty constantEntries) budget m t).result =
          .error e) := by
  have hany : ¬ anyVoice (scanned t).cache = true := by
    rw [Bool.not_eq_true]
    exact (anyVoice_loadItems t).mpr h
  -- Nothing is found, so the constants are put.
  have hrun : execUnder (withBudget code) (seedIfEmpty constantEntries) budget m t =
      execUnder (withBudget code) ((seedPuts constantEntries).bind fun _ =>
        rescan.bind fun _ => .done constantEntries.length) budget (scanned t) t := by
    rw [seedIfEmpty, Prog.bind_eq, execUnder_bind, rescan_outcome]
    simp only [Prog.bind_eq, Prog.get_eq, Prog.bind_read, Prog.bind_done, execUnder_read]
    rw [if_neg (by simp [scanned]), if_neg hany, if_pos constantEntries_ne_nil]
    rfl
  obtain ⟨result, budget', hputs, hresult⟩ :=
    execWithin_seedPuts code constantEntries_named budget (scanned t) t
  rw [hrun, execUnder_bind, hputs]
  match result with
  | .ok () =>
    dsimp only
    rw [execUnder_bind, rescan_outcome]
    exact ⟨rfl, fun _ => ⟨rfl, rfl⟩, fun hshort => absurd (hresult.mp rfl) hshort⟩
  | .error e =>
    exact ⟨rfl, fun henough => absurd (hresult.mpr henough) nofun, fun _ => ⟨e, rfl⟩⟩

end Outcomes

/-! ### Requests of administrators -/

/-- The key that a request is about. -/
def Request.target : Request → String × String
  | boot => ("", "")
  | create body =>
    ((provider? (body.get "provider")).getD "",
      match ((body.get "id").orElse (body.get "voice_id")).orElse (.str "") with
      | .str s => PyText.strip s
      | _ => "")
  | update provider voiceId _ => (provider, voiceId)
  | delete provider voiceId => (provider, voiceId)

section Effects

variable {code : String} {budget : Option ℕ} {m : VoiceMemory} {t : VoiceTable slot} {py : PyTexts}

theorem leaves_put (provider voiceId : String) (attrs : PyDict) :
    (execUnder (withBudget code) (put provider voiceId attrs) budget m t).Leaves t
      (t.put (voiceItem provider voiceId attrs)) := by
  rw [put]
  split_ifs with hempty
  · rfl
  · by_cases hzero : budget = some 0
    · rw [hzero, execWithin_zero rfl]
      rfl
    · rw [execWithin_complete rfl hzero]
      rfl

theorem leaves_delete (provider voiceId : String) :
    (execUnder (withBudget code) (delete provider voiceId) budget m t).Leaves t
      (t.delete (provider, voiceId)) := by
  rw [delete]
  split_ifs with hempty
  · rfl
  · by_cases hzero : budget = some 0
    · rw [hzero, execWithin_zero rfl]
      rfl
    · rw [execWithin_complete rfl hzero]
      rfl

theorem leaves_store (provider voiceId : String) (attrs : PyDict) :
    (execUnder (withBudget code) (store provider voiceId attrs) budget m t).Leaves t
      (t.put (voiceItem provider voiceId attrs)) := by
  refine leaves_bind_total (leaves_mapError (leaves_put provider voiceId attrs)) fun _ budget m => ?_
  rw [Prog.bind_eq, execUnder_bind, call, execUnder_mapError, rescan_outcome]
  exact ⟨_, rfl, rfl⟩

theorem leaves_checkProvider (provider : String) :
    (execUnder (withBudget code) (checkProvider py provider) budget m t).Leaves t t := by
  rw [checkProvider]
  split_ifs <;> rfl

theorem leaves_requireVoice (provider voiceId : String) :
    (execUnder (withBudget code) (requireVoice provider voiceId) budget m t).Leaves t t := by
  rw [requireVoice]
  simp only [Prog.bind_eq, Prog.get_eq, Prog.bind_read, Prog.bind_done, execUnder_read]
  split <;> rfl

/-- Storing what was validated. -/
theorem leaves_validated (code : String) (t : VoiceTable slot) (provider voiceId : String)
    (x : Except RouteExc PyDict) :
    ∃ item, itemKey item = (provider, voiceId) ∧
      ∀ (budget : Option ℕ) (m : VoiceMemory),
        (execUnder (withBudget code) ((Prog.ofExcept x).bind (store provider voiceId)) budget m
          t).Leaves t (t.put item) := by
  match x with
  | .ok attrs =>
    refine ⟨voiceItem provider voiceId attrs, itemKey_voiceItem provider voiceId attrs, ?_⟩
    exact fun budget m => leaves_store provider voiceId attrs
  | .error e =>
    exact ⟨voiceItem provider voiceId [], itemKey_voiceItem provider voiceId [], fun _ _ => rfl⟩

/-- A creation that succeeds puts an item under its key. -/
theorem leaves_create (code : String) (budget : Option ℕ) (m : VoiceMemory) (t : VoiceTable slot)
    (py : PyTexts) (body : PyDict) :
    ∃ item, itemKey item = (Request.create body).target ∧
      (execUnder (withBudget code) (adminVoicesCreate py body) budget m t).Leaves t (t.put item) := by
  obtain ⟨item, hkey, hleaves⟩ := leaves_validated code t
    (Request.create body).target.1 (Request.create body).target.2
    ((validateVoiceBody py (body.get "provider") body).mapError .http)
  refine ⟨item, hkey, ?_⟩
  rw [adminVoicesCreate]
  simp only [Request.target] at hleaves
  dsimp only
  split
  · rename_i s hid
    rw [hid] at hleaves
    exact hleaves budget m
  · rfl

/-- An update that succeeds puts an item under its key. -/
theorem leaves_update (code : String) (budget : Option ℕ) (m : VoiceMemory) (t : VoiceTable slot)
    (py : PyTexts) (provider voiceId : String) (body : PyDict) :
    ∃ item, itemKey item = (provider, voiceId) ∧
      (execUnder (withBudget code) (adminVoicesUpdate py provider voiceId body) budget m t).Leaves t
        (t.put item) := by
  by_cases hprovider : provider ∈ voiceProviders
  · have hcheck : (checkProvider py provider : RouteProg slot Unit) = .done () := if_pos hprovider
    -- A voice that is not there is not updated.
    match hvoice : get m provider voiceId with
    | some existing =>
      obtain ⟨item, hkey, hleaves⟩ := leaves_validated code t provider voiceId
        ((validateVoiceBody py (.str provider) (mergedBody existing body voiceId)).mapError .http)
      refine ⟨item, hkey, ?_⟩
      rw [adminVoicesUpdate, hcheck, requireVoice]
      simp only [Prog.bind_eq, Prog.bind_done, Prog.get_eq, Prog.bind_read, execUnder_read, hvoice]
      exact hleaves budget m
    | none =>
      refine ⟨voiceItem provider voiceId [], itemKey_voiceItem provider voiceId [], ?_⟩
      rw [adminVoicesUpdate, hcheck, requireVoice]
      simp only [Prog.bind_eq, Prog.bind_done, Prog.get_eq, Prog.bind_read, execUnder_read, hvoice]
      rfl
  · have hcheck : (checkProvider py provider : RouteProg slot Unit) = .raise _ := if_neg hprovider
    refine ⟨voiceItem provider voiceId [], itemKey_voiceItem provider voiceId [], ?_⟩
    rw [adminVoicesUpdate, hcheck]
    rfl

/-- A deletion that succeeds deletes the item under its key. -/
theorem leaves_adminVoicesDelete (provider voiceId : String) :
    (execUnder (withBudget code) (adminVoicesDelete py provider voiceId) budget m t).Leaves t
      (t.delete (provider, voiceId)) := by
  refine leaves_bind (leaves_checkProvider provider) fun _ _ _ => ?_
  refine leaves_bind (leaves_requireVoice provider voiceId) fun _ _ _ => ?_
  refine leaves_bind_total (leaves_mapError (leaves_delete provider voiceId)) fun _ budget m => ?_
  rw [Prog.bind_eq, execUnder_bind, call, execUnder_mapError, rescan_outcome]
  exact ⟨_, rfl, rfl⟩

end Effects

/-! ### Runs -/

/-- The table, the memory of the process and what has happened so far: whether a start has seeded the
table, whether an administrator has deleted every voice since; whether the last seeding was cut short,
and the keys that it reached; the keys that administrators have stored and deleted. -/
structure World (slot : String × String ↪ ℕ) where
  table : VoiceTable slot
  memory : VoiceMemory
  seeded : Bool
  emptied : Bool
  pending : Bool
  reached : List (String × String)
  stored : List (String × String)
  deleted : List (String × String)

/-- A request, and how many of its writes complete. -/
structure Act where
  request : Request
  budget : Option ℕ

/-- A table to which nothing has happened yet. -/
def World.start (t : VoiceTable slot) : World slot where
  table := t
  memory := newStore
  seeded := false
  emptied := false
  pending := false
  reached := []
  stored := []
  deleted := []

section World

variable (code : String) (py : PyTexts)

/-- What a seeding makes of the history. -/
def World.noteSeeding (w : World slot) (budget : Option ℕ) : Except Exc ℕ → World slot
  | .ok written => { w with seeded := w.seeded || decide (written ≠ 0), pending := false }
  | .error _ =>
    { w with
      pending := true
      reached := (reachedBy budget).map constantKey }

/-- What a request that succeeded makes of the history. -/
def World.noteRequest (w : World slot) (request : Request) : World slot :=
  match request with
  | .boot => w
  | .create _ | .update _ _ _ => { w with stored := request.target :: w.stored }
  | .delete _ _ =>
    { w with
      deleted := request.target :: w.deleted
      emptied := w.emptied || (w.seeded && decide (Vacant w.table)) }

/-- One request, from its beginning to its end. -/
def World.step (w : World slot) (a : Act) : World slot :=
  let outcome := execUnder (withBudget code) (a.request.run py) a.budget w.memory w.table
  let w' := { w with table := outcome.table, memory := outcome.memory }
  match a.request with
  | .boot =>
    w'.noteSeeding a.budget
      (execUnder (withBudget code) (seedIfEmpty constantEntries) a.budget newStore w.table).result
  | request =>
    match outcome.result with
    | .ok _ => w'.noteRequest request
    | .error _ => w'

/-- What a start is to do: if the table was seeded and then emptied, it leaves the table alone; and if
a seeding was cut short and this start is not, every constant is in the table then, or an
administrator has deleted it. -/
def World.Promise (w : World slot) (a : Act) : Prop :=
  match a.request with
  | .boot =>
    (w.emptied = true → (w.step code py a).table = w.table) ∧
    (w.pending = true → (w.step code py a).pending = false →
      ∀ e ∈ constantEntries, Has (w.step code py a).table (constantKey e) ∨ constantKey e ∈ w.deleted)
  | _ => True

end World

/-- The states in which a start does what it is to do: a table that was seeded and then emptied has a
voice again, or no write of the start completes; and after a seeding that was cut short there is no
voice left, or administrators have stored or deleted every constant that it did not reach. -/
def World.Harmless (w : World slot) (a : Act) : Prop :=
  match a.request with
  | .boot =>
    (w.emptied = true → Vacant w.table → a.budget = some 0) ∧
    (w.pending = true → ¬ Vacant w.table →
      ∀ e ∈ constantEntries, constantKey e ∈ w.reached ++ w.stored ++ w.deleted)
  | _ => True

section Steps

variable {code : String} {py : PyTexts}

/-- A start leaves what its seeding leaves. -/
theorem boot_outcome (code : String) (py : PyTexts) (budget : Option ℕ) (m : VoiceMemory)
    (t : VoiceTable slot) :
    (execUnder (withBudget code) (Request.run py .boot) budget m t).table =
        (execUnder (withBudget code) (seedIfEmpty constantEntries) budget newStore t).table ∧
      (execUnder (withBudget code) (Request.run py .boot) budget m t).memory =
        (execUnder (withBudget code) (seedIfEmpty constantEntries) budget newStore t).memory := by
  have hboot : execUnder (withBudget code) (boot constantEntries) budget m t =
      execUnder (withBudget code) (((seedIfEmpty constantEntries).bind fun _ => .done ()).tryCatch
        fun _ => .done ()) budget newStore t := rfl
  rw [Request.run, Prog.bind_eq, execUnder_bind, call, execUnder_mapError, hboot,
    execUnder_tryCatch, execUnder_bind]
  match execUnder (withBudget code) (seedIfEmpty constantEntries) budget newStore t with
  | { result := .ok n, rest := _, memory := _, table := _ } => exact ⟨rfl, rfl⟩
  | { result := .error e, rest := _, memory := _, table := _ } => exact ⟨rfl, rfl⟩

variable {w : World slot} {budget : Option ℕ}

/-- A start that finds a voice. -/
theorem step_boot_of_not_vacant (h : ¬ Vacant w.table) :
    w.step code py ⟨.boot, budget⟩ = { w with memory := scanned w.table, pending := false } := by
  obtain ⟨htable, hmemory⟩ := boot_outcome code py budget w.memory w.table
  rw [seedIfEmpty_outcome_of_not_vacant h] at htable hmemory
  simp only [World.step, seedIfEmpty_outcome_of_not_vacant h, World.noteSeeding, htable, hmemory]
  simp

/-- A start that finds no voice and reaches every constant. -/
theorem step_boot_of_suffices (code : String) (py : PyTexts) (h : Vacant w.table)
    (hbudget : Suffices budget) :
    w.step code py ⟨.boot, budget⟩ =
      { w with
        table := w.table.putAll ((reachedBy budget).map constantItem)
        memory := scanned (w.table.putAll ((reachedBy budget).map constantItem))
        seeded := true, pending := false } := by
  obtain ⟨htable, hmemory⟩ := boot_outcome code py budget w.memory w.table
  obtain ⟨hputs, hok, -⟩ := seedIfEmpty_outcome_of_vacant code budget newStore h
  obtain ⟨hresult, hscanned⟩ := hok hbudget
  simp only [World.step, hresult, World.noteSeeding, htable, hputs, hmemory, hscanned,
    constantEntries_ne_nil, ne_eq, not_false_eq_true, decide_true, Bool.or_true]

/-- A start that finds no voice and does not reach every constant. -/
theorem step_boot_of_not_suffices (code : String) (py : PyTexts) (h : Vacant w.table)
    (hbudget : ¬ Suffices budget) :
    ∃ memory, w.step code py ⟨.boot, budget⟩ =
      { w with
        table := w.table.putAll ((reachedBy budget).map constantItem)
        memory, pending := true, reached := (reachedBy budget).map constantKey } := by
  obtain ⟨htable, -⟩ := boot_outcome code py budget w.memory w.table
  obtain ⟨hputs, -, herror⟩ := seedIfEmpty_outcome_of_vacant code budget newStore h
  obtain ⟨e, he⟩ := herror hbudget
  refine ⟨(execUnder (withBudget code) (Request.run py .boot) budget w.memory w.table).memory, ?_⟩
  simp only [World.step, he, World.noteSeeding, htable, hputs]

theorem not_has_of_vacant {t : VoiceTable slot} (h : Vacant t) {e : String × String × PyDict}
    (he : e ∈ constantEntries) : ¬ Has t (constantKey e) := by
  intro hhas
  obtain ⟨item, hitem⟩ := Option.isSome_iff_exists.mp hhas
  obtain ⟨hmem, hkey⟩ := Table.get?_eq_some_iff.mp hitem
  have hkey : itemKey item = constantKey e := hkey
  exact h item hmem (by rw [IsVoice, hkey]; exact constantEntries_named e he)

/-- Puts add the keys of the constants and remove none. -/
theorem has_putAll_constants {t : VoiceTable slot} {entries : List (String × String × PyDict)}
    {key : String × String} :
    Has (t.putAll (entries.map constantItem)) key ↔ key ∈ entries.map constantKey ∨ Has t key := by
  have hkeys : (entries.map constantItem).map itemKey = entries.map constantKey := by
    rw [List.map_map]
    exact List.map_congr_left fun e _ => itemKey_constantItem e
  rw [← hkeys]
  exact Table.isSome_get?_putAll t (entries.map constantItem) key

theorem has_delete {t : VoiceTable slot} {key key' : String × String} :
    Has (t.delete key) key' ↔ key' ≠ key ∧ Has t key' := by
  rw [Has, Table.get?_delete]
  split_ifs with heq
  · exact iff_of_false (fun hsome => by cases hsome) fun h => h.1 heq
  · exact (and_iff_right heq).symm

/-- The history agrees with the table: what administrators stored is there, unless they deleted it;
and as long as a seeding is cut short, so is what it reached, and no other constant. -/
structure Traced (w : World slot) : Prop where
  stored : ∀ key ∈ w.stored, Has w.table key ∨ key ∈ w.deleted
  reached : w.pending = true → ∀ key ∈ w.reached, Has w.table key ∨ key ∈ w.deleted
  constants : w.pending = true → ∀ e ∈ constantEntries, Has w.table (constantKey e) →
    constantKey e ∈ w.reached ∨ constantKey e ∈ w.stored

theorem traced_start (t : VoiceTable slot) : Traced (World.start t) where
  stored _ h := absurd h List.not_mem_nil
  reached h := absurd h nofun
  constants h := absurd h nofun

/-- The memory plays no part in the history. -/
theorem Traced.setMemory (h : Traced w) (memory : VoiceMemory) : Traced { w with memory } :=
  ⟨h.stored, h.reached, h.constants⟩

/-- An item that an administrator stored. -/
theorem Traced.put (h : Traced w) (item : PyDict) :
    Traced { w with table := w.table.put item, stored := itemKey item :: w.stored } where
  stored key hkey := by
    rw [has_put]
    rcases List.mem_cons.mp hkey with hkey | hkey
    · exact Or.inl (Or.inl hkey)
    · exact (h.stored key hkey).imp_left Or.inr
  reached hpending key hkey := by
    rw [has_put]
    exact (h.reached hpending key hkey).imp_left Or.inr
  constants hpending e he hhas := by
    rw [has_put] at hhas
    rcases hhas with hkey | hhas
    · exact Or.inr (hkey ▸ List.mem_cons_self)
    · exact (h.constants hpending e he hhas).imp_right (List.mem_cons_of_mem _)

/-- An item that an administrator deleted. -/
theorem Traced.delete (h : Traced w) (key : String × String) (emptied : Bool) :
    Traced { w with table := w.table.delete key, deleted := key :: w.deleted, emptied } := by
  have hkept {key' : String × String} (hkey' : Has w.table key' ∨ key' ∈ w.deleted) :
      Has (w.table.delete key) key' ∨ key' ∈ key :: w.deleted := by
    rw [has_delete, List.mem_cons]
    by_cases heq : key' = key
    · exact Or.inr (Or.inl heq)
    · exact hkey'.imp (⟨heq, ·⟩) Or.inr
  exact
    { stored := fun key' hkey' => hkept (h.stored key' hkey')
      reached := fun hpending key' hkey' => hkept (h.reached hpending key' hkey')
      constants := fun hpending e he hhas => h.constants hpending e he (has_delete.mp hhas).2 }

/-- Every start keeps to the history. -/
theorem Traced.boot (h : Traced w) : Traced (w.step code py ⟨.boot, budget⟩) := by
  by_cases hvacant : Vacant w.table
  · have hmore {entries : List (String × String × PyDict)} {key : String × String}
        (hkey : Has w.table key ∨ key ∈ w.deleted) :
        Has (w.table.putAll (entries.map constantItem)) key ∨ key ∈ w.deleted :=
      hkey.imp_left fun hhas => has_putAll_constants.mpr (Or.inr hhas)
    by_cases hbudget : Suffices budget
    · rw [step_boot_of_suffices code py hvacant hbudget]
      exact ⟨fun key hkey => hmore (h.stored key hkey), nofun, nofun⟩
    · obtain ⟨memory, hstep⟩ := step_boot_of_not_suffices code py hvacant hbudget
      rw [hstep]
      refine ⟨fun key hkey => hmore (h.stored key hkey), fun _ key hkey => ?_, fun _ e he hhas => ?_⟩
      · exact Or.inl (has_putAll_constants.mpr (Or.inl hkey))
      · -- No constant was in the table before.
        exact Or.inl ((has_putAll_constants.mp hhas).resolve_right (not_has_of_vacant hvacant he))
  · rw [step_boot_of_not_vacant hvacant]
    exact ⟨h.stored, nofun, nofun⟩

/-- What a request leaves. -/
theorem step_of_ok {request : Request} (hboot : request ≠ .boot) {response : PyDict}
    (h : (execUnder (withBudget code) (request.run py) budget w.memory w.table).result =
      .ok response) :
    w.step code py ⟨request, budget⟩ =
      World.noteRequest
        { w with
          table := (execUnder (withBudget code) (request.run py) budget w.memory w.table).table
          memory := (execUnder (withBudget code) (request.run py) budget w.memory w.table).memory }
        request := by
  match request with
  | .boot => exact absurd rfl hboot
  | .create _ | .update _ _ _ | .delete _ _ => simp only [World.step, h]

theorem step_of_error {request : Request} (hboot : request ≠ .boot) {e : RouteExc}
    (h : (execUnder (withBudget code) (request.run py) budget w.memory w.table).result = .error e) :
    w.step code py ⟨request, budget⟩ =
      { w with
        table := (execUnder (withBudget code) (request.run py) budget w.memory w.table).table
        memory := (execUnder (withBudget code) (request.run py) budget w.memory w.table).memory } := by
  match request with
  | .boot => exact absurd rfl hboot
  | .create _ | .update _ _ _ | .delete _ _ => simp only [World.step, h]

/-- A request whose program leaves a table keeps to the history, if the history does there. -/
theorem Traced.request (h : Traced w) {request : Request} (hboot : request ≠ .boot)
    {t' : VoiceTable slot}
    (hleaves : (execUnder (withBudget code) (request.run py) budget w.memory w.table).Leaves
      w.table t')
    (hnoted : ∀ memory, Traced (World.noteRequest { w with table := t', memory } request)) :
    Traced (w.step code py ⟨request, budget⟩) := by
  rw [Outcome.Leaves] at hleaves
  cases hresult : (execUnder (withBudget code) (request.run py) budget w.memory w.table).result with
  | ok response =>
    rw [hresult] at hleaves
    obtain rfl := hleaves
    rw [step_of_ok hboot hresult]
    exact hnoted _
  | error e =>
    rw [hresult] at hleaves
    rw [step_of_error hboot hresult, hleaves]
    exact h.setMemory _

/-- Every request keeps to the history. -/
theorem Traced.step (h : Traced w) (a : Act) : Traced (w.step code py a) := by
  obtain ⟨request, budget⟩ := a
  match request with
  | .boot => exact h.boot
  | .create body =>
    obtain ⟨item, hkey, hleaves⟩ := leaves_create code budget w.memory w.table py body
    refine h.request nofun hleaves fun memory => ?_
    have hput := (h.put item).setMemory memory
    rwa [hkey] at hput
  | .update provider voiceId body =>
    obtain ⟨item, hkey, hleaves⟩ := leaves_update code budget w.memory w.table py
      provider voiceId body
    refine h.request nofun hleaves fun memory => ?_
    have hput := (h.put item).setMemory memory
    rwa [hkey] at hput
  | .delete provider voiceId =>
    refine h.request nofun (leaves_adminVoicesDelete provider voiceId) fun memory => ?_
    exact (h.delete (provider, voiceId) _).setMemory memory

/-- A start that finds no voice leaves the table alone only if none of its writes completes. -/
theorem table_step_boot_eq_iff (h : Vacant w.table) :
    (w.step code py ⟨.boot, budget⟩).table = w.table ↔ budget = some 0 := by
  have htable : (w.step code py ⟨.boot, budget⟩).table =
      w.table.putAll ((reachedBy budget).map constantItem) := by
    by_cases hbudget : Suffices budget
    · rw [step_boot_of_suffices code py h hbudget]
    · obtain ⟨memory, hstep⟩ := step_boot_of_not_suffices code py h hbudget
      rw [hstep]
  rw [htable, ← reachedBy_eq_nil_iff]
  constructor
  · intro hsame
    by_contra hne
    obtain ⟨e, he⟩ := List.exists_mem_of_ne_nil _ hne
    refine not_has_of_vacant h (List.mem_of_mem_take he) ?_
    rw [← hsame]
    exact has_putAll_constants.mpr (Or.inl (List.mem_map_of_mem he))
  · intro hnil
    rw [hnil]
    rfl

/-- What a start is to do, it does exactly in the harmless states. -/
theorem promise_iff (h : Traced w) (a : Act) : w.Promise code py a ↔ w.Harmless a := by
  obtain ⟨request, budget⟩ := a
  match request with
  | .create _ | .update _ _ _ | .delete _ _ => exact Iff.rfl
  | .boot =>
    simp only [World.Promise, World.Harmless, List.mem_append]
    by_cases hvacant : Vacant w.table
    · -- The start seeds the table, as far as it gets.
      refine and_congr (imp_congr_right fun hemptied => ?_)
        (iff_of_true ?_ fun _ hvoice => absurd hvacant hvoice)
      · rw [table_step_boot_eq_iff hvacant]
        exact ⟨fun hzero _ => hzero, fun hzero => hzero hvacant⟩
      · intro _ hdone e he
        by_cases hbudget : Suffices budget
        · rw [step_boot_of_suffices code py hvacant hbudget, reachedBy_of_suffices hbudget]
          exact Or.inl (has_putAll_constants.mpr (Or.inl (List.mem_map_of_mem he)))
        · obtain ⟨memory, hstep⟩ :=
            step_boot_of_not_suffices code py hvacant hbudget
          rw [hstep] at hdone
          exact absurd hdone nofun
    · -- The start leaves the table alone.
      rw [step_boot_of_not_vacant hvacant]
      refine and_congr (iff_of_true (fun _ => rfl) fun _ hnone => absurd hnone hvacant)
        (imp_congr_right fun hpending => ?_)
      simp only [forall_const, hvacant, not_false_eq_true]
      refine forall₂_congr fun e he => ?_
      constructor
      · rintro (hhas | hdeleted)
        · exact Or.inl (h.constants hpending e he hhas)
        · exact Or.inr hdeleted
      · rintro ((hreached | hstored) | hdeleted)
        · exact h.reached hpending _ hreached
        · exact h.stored _ hstored
        · exact Or.inr hdeleted

/-- For every table to begin with and every sequence of starts and requests, each with the number of
writes that complete: every start does what it is to do if and only if every start meets a harmless
state. -/
theorem promise_always_iff (t : VoiceTable slot) (acts : List Act) :
    Run.Guarded (World.step code py) (World.Promise code py) (World.start t) acts ↔
      Run.Guarded (World.step code py) World.Harmless (World.start t) acts := by
  constructor
  · exact Run.Guarded.mono (I := Traced) (fun w a h _ => h.step a)
      (fun w a h hpromise => (promise_iff h a).mp hpromise) (traced_start t)
  · exact Run.Guarded.mono (I := Traced) (fun w a h _ => h.step a)
      (fun w a h hharmless => (promise_iff h a).mpr hharmless) (traced_start t)

end Steps

/-! ### A table that is emptied and seeded again -/

/-- The deletion of a constant. -/
def deletion (e : String × String × PyDict) : Act := ⟨.delete e.1 e.2.1, none⟩

/-- A start, the deletion of every voice, and a start. -/
def everyVoiceDeleted : List Act :=
  ⟨.boot, none⟩ :: constantEntries.map deletion ++ [⟨.boot, none⟩]

section Emptied

variable {code : String} {py : PyTexts}

/-- The cache that a scan left has the voices of the table. -/
theorem get_scanned {e : String × String × PyDict} (he : e ∈ constantEntries) (t : VoiceTable slot) :
    get (scanned t) e.1 e.2.1 = (t.get? (constantKey e)).map itemAttrs := by
  obtain ⟨hknown, hvoice⟩ := constant_ne_empty he
  rw [get, if_neg (not_or.mpr ⟨hknown, hvoice⟩)]
  exact lookup_loadItems t.nodup_keys hknown hvoice

theorem checkProvider_of_constant {e : String × String × PyDict} (he : e ∈ constantEntries) :
    (checkProvider py e.1 : RouteProg slot Unit) = .done () :=
  if_pos (constantEntries_named e he).1

theorem delete_outcome {provider voiceId : String} (hprovider : provider ≠ "") (hvoice : voiceId ≠ "")
    (m : VoiceMemory) (t : VoiceTable slot) :
    execUnder (withBudget code) (delete provider voiceId) none m t =
      { result := .ok (), rest := none, memory := m, table := t.delete (provider, voiceId) } := by
  rw [delete, if_neg (not_or.mpr ⟨hprovider, hvoice⟩),
    execWithin_complete rfl (Option.some_ne_none 0).symm]
  rfl

/-- The deletion of a voice of the table. -/
theorem step_deletion {w : World slot} {e : String × String × PyDict} (he : e ∈ constantEntries)
    (hmemory : w.memory = scanned w.table) (h : Has w.table (constantKey e)) :
    w.step code py (deletion e) =
      { w with
        table := w.table.delete (constantKey e)
        memory := scanned (w.table.delete (constantKey e))
        deleted := constantKey e :: w.deleted
        emptied := w.emptied || (w.seeded && decide (Vacant (w.table.delete (constantKey e)))) } := by
  obtain ⟨hknown, hvoice⟩ := constant_ne_empty he
  obtain ⟨item, hitem⟩ := Option.isSome_iff_exists.mp h
  -- The voice is in the cache, so the deletion is not refused.
  have hattrs : get (scanned w.table) e.1 e.2.1 = some (itemAttrs item) := by
    rw [get_scanned he, hitem, Option.map_some]
  have hrun : execUnder (withBudget code) (adminVoicesDelete py e.1 e.2.1) none (scanned w.table)
        w.table =
      { result := .ok [("deleted", .str (e.1 ++ "/" ++ e.2.1))], rest := none,
        memory := scanned (w.table.delete (constantKey e))
        table := w.table.delete (constantKey e) } := by
    rw [adminVoicesDelete, checkProvider_of_constant he, requireVoice]
    simp only [Prog.bind_eq, Prog.bind_done, Prog.get_eq, Prog.bind_read, execUnder_read, hattrs,
      Prog.pure_eq]
    rw [execUnder_bind, call, execUnder_mapError, delete_outcome hknown hvoice]
    dsimp only [Except.mapError]
    rw [execUnder_bind, call, execUnder_mapError, rescan_outcome]
    rfl
  simp only [World.step, deletion, Request.run, hmemory, hrun]
  rfl

/-- The deletion of a voice that is not there is answered with status 404. -/
theorem step_deletion_of_not_has {w : World slot} {e : String × String × PyDict}
    (he : e ∈ constantEntries) (hmemory : w.memory = scanned w.table)
    (h : ¬ Has w.table (constantKey e)) : w.step code py (deletion e) = w := by
  have hattrs : get (scanned w.table) e.1 e.2.1 = none := by
    rw [get_scanned he, Option.not_isSome_iff_eq_none.mp h, Option.map_none]
  have hrun : ∃ detail, execUnder (withBudget code) (adminVoicesDelete py e.1 e.2.1) none
        (scanned w.table) w.table =
      { result := .error (.http detail), rest := none, memory := scanned w.table,
        table := w.table } := by
    rw [adminVoicesDelete, checkProvider_of_constant he, requireVoice]
    simp only [Prog.bind_eq, Prog.bind_done, Prog.get_eq, Prog.bind_read, execUnder_read, hattrs]
    exact ⟨_, rfl⟩
  obtain ⟨detail, hrun⟩ := hrun
  simp only [World.step, deletion, Request.run, hmemory, hrun]
  rw [← hmemory]

theorem vacant_of_not_has {t : VoiceTable slot} (h : ∀ key, ¬ Has t key) : Vacant t := by
  intro item hitem _
  have hfound : t.get? (itemKey item) = some item := Table.get?_eq_some_iff.mpr ⟨hitem, rfl⟩
  exact h (itemKey item) (by rw [Has, hfound]; rfl)

/-- Deleting all voices of a seeded table, one by one, empties it. -/
theorem exec_deletions (code : String) (py : PyTexts) (entries : List (String × String × PyDict))
    {w : World slot} (hentries : ∀ e ∈ entries, e ∈ constantEntries)
    (hmemory : w.memory = scanned w.table) (hseeded : w.seeded = true)
    (htable : ∀ key, Has w.table key → key ∈ entries.map constantKey)
    (hemptied : (∀ key, ¬ Has w.table key) → w.emptied = true) :
    Vacant (Run.exec (World.step code py) w (entries.map deletion)).table ∧
      (Run.exec (World.step code py) w (entries.map deletion)).emptied = true := by
  induction entries generalizing w with
  | nil =>
    have hnone : ∀ key, ¬ Has w.table key := fun key hkey => absurd (htable key hkey) List.not_mem_nil
    exact ⟨vacant_of_not_has hnone, hemptied hnone⟩
  | cons e rest ih =>
    rw [List.map_cons, Run.exec_cons]
    have hothers {key : String × String} (hhas : Has w.table key) (hne : key ≠ constantKey e) :
        key ∈ rest.map constantKey :=
      (List.mem_cons.mp (htable key hhas)).resolve_left hne
    have hrest : ∀ e' ∈ rest, e' ∈ constantEntries := fun e' he' =>
      hentries e' (List.mem_cons_of_mem e he')
    by_cases hhas : Has w.table (constantKey e)
    · rw [step_deletion (hentries e List.mem_cons_self) hmemory hhas]
      refine ih hrest rfl hseeded (fun key hkey => ?_) fun hnone => ?_
      · obtain ⟨hne, hkey⟩ := has_delete.mp hkey
        exact hothers hkey hne
      · -- The last voice is gone.
        simp [hseeded, vacant_of_not_has hnone]
    · rw [step_deletion_of_not_has (hentries e List.mem_cons_self) hmemory hhas]
      exact ih hrest hmemory hseeded
        (fun key hkey => hothers hkey fun heq => hhas (heq ▸ hkey)) hemptied

end Emptied

/-- Texts of strings. -/
def plainTexts : PyTexts where
  str
    | .str s => s
    | _ => ""
  repr
    | .str s => "'" ++ s ++ "'"
    | _ => ""

/-- After a start, the deletion of every voice by an administrator, and another start, the constants
are back. -/
theorem constants_return :
    ¬ Run.Guarded (World.step "InternalServerError" plainTexts)
      (World.Promise "InternalServerError" plainTexts) (World.start (∅ : VoiceTable StoreCaches.pairSlot))
      everyVoiceDeleted := by
  intro h
  have hlast := Run.guarded_iff_split.mp h (⟨.boot, none⟩ :: constantEntries.map deletion)
    ⟨.boot, none⟩ [] rfl
  have hstart : Vacant (World.start (∅ : VoiceTable StoreCaches.pairSlot)).table := fun item hitem =>
    absurd hitem (Table.notMem_empty item)
  have hsuffices : Suffices none := fun _ => nofun
  have hboot := step_boot_of_suffices "InternalServerError" plainTexts hstart hsuffices
  have hall : reachedBy none = constantEntries := reachedBy_of_suffices hsuffices
  rw [Run.exec_cons, hboot, hall] at hlast
  have hseeded (key : String × String) :
      Has (Table.putAll (∅ : VoiceTable StoreCaches.pairSlot) (constantEntries.map constantItem)) key ↔
        key ∈ constantEntries.map constantKey :=
    has_putAll_constants.trans (or_iff_left nofun)
  have hsome : ¬ ∀ key,
      ¬ Has (Table.putAll (∅ : VoiceTable StoreCaches.pairSlot) (constantEntries.map constantItem)) key := by
    obtain ⟨e, he⟩ := List.exists_mem_of_length_pos (Nat.pos_of_ne_zero constantEntries_ne_nil)
    exact fun hnone => hnone _ ((hseeded _).mpr (List.mem_map_of_mem he))
  -- After every constant is deleted, the table is as it was before the first boot.
  obtain ⟨hvacant, hemptied⟩ := exec_deletions "InternalServerError" plainTexts constantEntries
    (w := { World.start (∅ : VoiceTable StoreCaches.pairSlot) with
      table := Table.putAll ∅ (constantEntries.map constantItem)
      memory := scanned (Table.putAll ∅ (constantEntries.map constantItem))
      seeded := true })
    (fun _ he => he) rfl rfl (fun key => (hseeded key).mp) (fun hnone => absurd hnone hsome)
  exact absurd ((table_step_boot_eq_iff hvacant).mp (hlast.1 hemptied)) nofun

end Voices
