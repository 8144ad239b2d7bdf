import VoiceAgentPlatform.Config.Loading
import VoiceAgentPlatform.Mcp.Calls

/-!
# Writes of the configurations that fail

`RuntimeConfig` and `McpConfig` edit the store in memory and write it afterwards. When the write
fails, the call raises and the file is as it was, but the edit stays in memory, where every reader
sees it and the next write takes it along.

* `Config.Unchanged`, `Mcp.Unchanged`: a call that raised has left no trace.
* `updateSegment_unchanged_iff`, `upsert_unchanged_iff`, `delete_unchanged_iff`: when this holds.
* `failedWrites_iff`: the three together.
-/

namespace Config

open AtomicFile Raising

variable {fallback : Fallback} {segment : Segment} {updates : PyDict} {b b' : ConfigState}

/-- The segments of two stores are the same dictionaries. -/
def SameSegments (store store' : Store) : Prop :=
  ∀ s, (store'.get s).toMap.map PyMap.view = (store.get s).toMap.map PyMap.view

/-- Two dictionaries that look the same, or two values that make none. -/
theorem SameSegments.ok {store store' : Store} (h : SameSegments store store') {s : Segment}
    {m : PyMap} (hm : (store.get s).toMap = .ok m) :
    ∃ m', (store'.get s).toMap = .ok m' ∧ m'.view = m.view := by
  have hs := h s
  rw [hm] at hs
  cases hm' : (store'.get s).toMap with
  | error e =>
    rw [hm'] at hs
    cases hs
  | ok m' =>
    rw [hm'] at hs
    exact ⟨m', rfl, Except.ok.inj hs⟩

/-- The edit of an update that repeats the fields is not seen. -/
theorem sameSegments_edit {store : Store} {current current' : PyMap}
    (hmap : (store.get segment).toMap = .ok current) (hview : current'.view = current.view)
    (now : String) : SameSegments store (store.edit segment current' now) := by
  intro s
  rw [Store.get_edit]
  split_ifs with hs
  · rw [hs, hmap]
    exact congrArg Except.ok hview
  · rfl

variable [Json.Python]

/-- The dictionary of a segment in a file. -/
def segmentIn (file : Option (FileText Store)) (segment : Segment) :
    Option (Except UpdateError PyMap.View) :=
  (file.bind readStore?).map fun store => (store.get segment).toMap.map PyMap.view

/-- The updates are of another segment, or of other fields. -/
def SomethingElse (segment : Segment) (updates : PyDict) (segment' : Segment) (updates' : PyDict) :
    Prop :=
  segment' = segment → ∀ e ∈ updates', PyDict.get? updates e.1 = none

/-- In `b'` the getters return what they return in `b`, the file is the same, and an update of
something else that succeeds leaves the same segments in the file. -/
structure Unchanged (fallback : Fallback) (segment : Segment) (updates : PyDict)
    (b b' : ConfigState) : Prop where
  getters : ∀ segment now,
    (returned (mergeSegment fallback segment {} now) b').map PyMap.view =
      (returned (mergeSegment fallback segment {} now) b).map PyMap.view
  file : b'.file = b.file
  later : ∀ segment' updates' now m c, SomethingElse segment updates segment' updates' →
    updateSegment fallback segment' updates' {} now b = .ok m c →
      ∃ m' c', updateSegment fallback segment' updates' {} now b' = .ok m' c' ∧
        ∀ s, segmentIn c'.file s = segmentIn c.file s

/-- What `update_web` and `update_phone` leave when they raise. -/
def FailsCleanly (fallback : Fallback) (segment : Segment) (updates : PyDict) (plan : WritePlan)
    (now : String) (b : ConfigState) : Prop :=
  ∀ e b', updateSegment fallback segment updates plan now b = .error e b' →
    Unchanged fallback segment updates b b'

/-- No write fails after the store was edited: the last write succeeds, or there is nothing to read
and the first write fails, or the segment is no dictionary, or the update repeats its fields. -/
def NoEditLost (segment : Segment) (updates : PyDict) (plan : WritePlan) (b : ConfigState) : Prop :=
  plan.update = none ∨
    match store? b with
    | none => plan.seed ≠ none
    | some store => ∀ current, (store.get segment).toMap = .ok current →
        (current.updateFields updates).view = current.view

theorem Unchanged.refl : Unchanged fallback segment updates b b where
  getters _ _ := rfl
  file := rfl
  later _ _ _ m c _ h := ⟨m, c, h, fun _ => rfl⟩

/-- A getter that reads a store. -/
theorem returned_mergeSegment {store : Store} (h : store? b = some store) (s : Segment)
    (now : String) :
    (returned (mergeSegment fallback s {} now) b).map PyMap.view =
      match ((store.get s).toMap.map PyMap.view).map (PyMap.View.over (fallback.get s)) with
      | .ok v => .ok v
      | .error e => .error (.update e) := by
  have hview := @view_updateInto (fallback.base s) rfl (store.get s)
  rw [show fallback.get s = (fallback.base s).fields from rfl, ← hview, returned,
    mergeSegment_of_store? h]
  cases (store.get s).updateInto (fallback.base s) with
  | ok m => rfl
  | error e => rfl

/-- A configuration with the same file and the same segments in memory is not told apart. -/
theorem unchanged_of_sameSegments {store store' : Store} (h : store? b = some store)
    (h' : store? b' = some store') (hfile : b'.file = b.file) (hsame : SameSegments store store') :
    Unchanged fallback segment updates b b' where
  getters s now := by rw [returned_mergeSegment h, returned_mergeSegment h', hsame s]
  file := hfile
  later s updates' now m c _ hupdate := by
    cases hmap : (store.get s).toMap with
    | error e =>
      rw [updateSegment_toMap_error h hmap] at hupdate
      cases hupdate
    | ok current =>
      obtain ⟨current', hmap', hview⟩ := hsame.ok hmap
      obtain ⟨m₁, -, hok⟩ := @updateSegment_ok _ fallback {} now _ _ _ _ h hmap rfl updates'
      obtain ⟨m₂, -, hok'⟩ := @updateSegment_ok _ fallback {} now _ _ _ _ h' hmap' rfl updates'
      rw [hok] at hupdate
      cases hupdate
      refine ⟨m₂, _, hok', fun s' => ?_⟩
      simp only [segmentIn, Option.bind_some, readStore?, Option.map_some, Store.get_edit]
      split_ifs
      · -- The updated dictionaries still look the same.
        show some (Except.ok _) = some (Except.ok _)
        rw [PyMap.view_updateFields, PyMap.view_updateFields, hview]
      · rw [hsame s']

/-- An update fails cleanly if no edit is lost. -/
theorem failsCleanly_of_noEditLost {plan : WritePlan} (now : String)
    (h : NoEditLost segment updates plan b) :
    FailsCleanly fallback segment updates plan now b := by
  intro e b' hupdate
  cases hstore : store? b with
  | none =>
    cases hseed : plan.seed with
    | some s =>
      rw [updateSegment_seedFails hstore hseed] at hupdate
      cases hupdate
      exact Unchanged.refl
    | none =>
      rw [NoEditLost, hstore] at h
      have hplan := h.resolve_right (not_not.mpr hseed)
      -- Both writes succeed, so the update does not raise.
      have hmap : ((buildSeed fallback now).get segment).toMap = .ok (fallback.base segment) := by
        cases segment <;> rfl
      rw [updateSegment, bind_ok (ensureLoaded_seed hstore hseed), hmap, hplan] at hupdate
      cases hupdate
  | some store =>
    cases hmap : (store.get segment).toMap with
    | error e' =>
      rw [updateSegment_toMap_error hstore hmap] at hupdate
      cases hupdate
      exact unchanged_of_sameSegments hstore rfl rfl fun _ => rfl
    | ok current =>
      cases hplan : plan.update with
      | none =>
        obtain ⟨m, -, hok⟩ := @updateSegment_ok _ fallback _ now _ _ _ _ hstore hmap hplan updates
        rw [hok] at hupdate
        cases hupdate
      | some s =>
        rw [updateSegment_write_error hstore hmap hplan] at hupdate
        cases hupdate
        rw [NoEditLost, hplan, hstore] at h
        have hview := h.resolve_left (Option.some_ne_none s) current hmap
        exact unchanged_of_sameSegments hstore rfl rfl (sameSegments_edit hmap hview now)

/-- If an update fails cleanly no edit is lost. -/
theorem noEditLost_of_failsCleanly {plan : WritePlan} {now : String}
    (h : FailsCleanly fallback segment updates plan now b) :
    NoEditLost segment updates plan b := by
  cases hplan : plan.update with
  | none => exact Or.inl hplan
  | some s =>
    right
    cases hstore : store? b with
    | none =>
      intro hseed
      obtain ⟨b', hupdate, hfile⟩ := @updateSegment_seeded_error _ fallback _ now _ _ hstore hseed hplan
        segment updates
      -- The seed is in the file now, which could not be read before.
      have hbefore := (h _ _ hupdate).file.symm.trans hfile
      rw [store?] at hstore
      cases hcache : b.cache with
      | some store =>
        rw [hcache] at hstore
        cases hstore
      | none =>
        rw [hcache, hbefore] at hstore
        cases hstore
    | some store =>
      intro current hmap
      -- A later update without fields writes the dictionary that is in memory.
      obtain ⟨m, -, hok⟩ := @updateSegment_ok _ fallback {} now _ _ _ _ hstore hmap rfl []
      have hunchanged := h _ _ (updateSegment_write_error hstore hmap hplan updates)
      obtain ⟨m', c', hlater, hsame⟩ := hunchanged.later segment [] now m _
        (fun _ e he => absurd he List.not_mem_nil) hok
      have hmap' : ((store.edit segment (current.updateFields updates) now).get segment).toMap =
          .ok (current.updateFields updates) := by
        rw [Store.get_edit, if_pos rfl]
        rfl
      obtain ⟨m'', -, hok'⟩ := @updateSegment_ok _ fallback {} now
        { b with cache := some (store.edit segment (current.updateFields updates) now) } _ _ _ rfl
        hmap' rfl []
      rw [hok'] at hlater
      cases hlater
      have hview := hsame segment
      simp only [segmentIn, Option.bind_some, readStore?, Option.map_some, Store.get_edit,
        if_true, Option.some.injEq] at hview
      exact Except.ok.inj hview

/-- An update that raises leaves no trace exactly when no edit is lost. -/
theorem updateSegment_unchanged_iff (fallback : Fallback) (segment : Segment) (updates : PyDict)
    (plan : WritePlan) (now : String) (b : ConfigState) :
    FailsCleanly fallback segment updates plan now b ↔ NoEditLost segment updates plan b :=
  ⟨noEditLost_of_failsCleanly, failsCleanly_of_noEditLost now⟩

end Config

namespace Mcp

open AtomicFile Raising

variable {lib : UrlLib} {b b' : McpState} {body : PyVal} {fault : Option WriteStep} {now id : String}

theorem returned_ofExcept {α : Type} (x : Except Exc α) (b : McpState) :
    returned (ofExcept x) b = x := by
  cases x <;> rfl

/-- Storing a server with another id keeps two registries apart that differ in one server. -/
theorem eq_of_putServer_eq {s s' : Server} (hid : s'.id ≠ s.id) {servers : List PyDict}
    (h : putServer s' (putServer s servers) = putServer s' servers) :
    putServer s servers = servers := by
  have hdict (s : Server) : s.toDict.get "id" = .str s.id := rfl
  -- The servers have different ids, so each is put in its own place.
  have hne : s.toDict.get "id" ≠ .str s'.id := by
    rw [hdict]
    exact fun heq => hid (PyVal.str.inj heq).symm
  induction servers with
  | nil =>
    rw [putServer, putServer, putServer, if_neg hne, putServer] at h
    -- It would have been appended.
    exact absurd (congrArg List.length h) (by simp)
  | cons x xs ih =>
    by_cases hx : x.get "id" = .str s.id
    · have hx' : x.get "id" ≠ .str s'.id := by
        rw [hx]
        exact fun heq => hid (PyVal.str.inj heq).symm
      rw [putServer, if_pos hx, putServer, if_neg hne, putServer, if_neg hx'] at h
      rw [putServer, if_pos hx, (List.cons.inj h).1]
    · rw [putServer, if_neg hx] at h ⊢
      by_cases hx' : x.get "id" = .str s'.id
      · rw [putServer, if_pos hx', putServer, if_pos hx'] at h
        rw [(List.cons.inj h).2]
      · rw [putServer, if_neg hx', putServer, if_neg hx'] at h
        rw [ih (List.cons.inj h).2]

/-- There is a valid server with another id. -/
theorem exists_plain (lib : UrlLib) (id : String) :
    ∃ id', id' ≠ id ∧ ∀ servers, resolved lib servers (plainBody id') = .ok (plainServer id') := by
  -- One of two ids is not the given one.
  obtain ⟨id', hvalid, hne⟩ : ∃ id', Demos.isServerId id' = true ∧ id' ≠ id := by
    by_cases h : "aa" = id
    · exact ⟨"ab", by decide +kernel, fun h' => absurd (h.trans h'.symm) (by decide)⟩
    · exact ⟨"aa", by decide +kernel, h⟩
  refine ⟨id', hne, fun servers => ?_⟩
  rw [resolved, validateServer_plainBody lib hvalid]
  rfl

variable [Json.Python]

/-- The servers that a file holds. -/
def serversIn (file : Option (FileText Registry)) : List PyDict := (readRegistry file).servers

/-- In `b'` the getters return what they return in `b`, the file is the same, and a call about another
server that succeeds returns the same and leaves the same servers in the file. -/
structure Unchanged (lib : UrlLib) (id : PyVal) (b b' : McpState) : Prop where
  list : returned listServers b' = returned listServers b
  get : ∀ id', returned (get id') b' = returned (get id') b
  file : b'.file = b.file
  laterUpsert : ∀ body now server c, bodyId body ≠ id → upsert lib body none now b = .ok server c →
    ∃ c', upsert lib body none now b' = .ok server c' ∧ serversIn c'.file = serversIn c.file
  laterDelete : ∀ id' now r c, .str id' ≠ id → delete id' none now b = .ok r c →
    ∃ c', delete id' none now b' = .ok r c' ∧ serversIn c'.file = serversIn c.file

/-- What `upsert` leaves when it raises. -/
def UpsertFailsCleanly (lib : UrlLib) (body : PyVal) (fault : Option WriteStep) (now : String)
    (b : McpState) : Prop :=
  ∀ e b', upsert lib body fault now b = .error e b' → Unchanged lib (bodyId body) b b'

/-- What `delete` leaves when it raises. -/
def DeleteFailsCleanly (lib : UrlLib) (id : String) (fault : Option WriteStep) (now : String)
    (b : McpState) : Prop :=
  ∀ e b', delete id fault now b = .error e b' → Unchanged lib (.str id) b b'

theorem returned_listServers (b : McpState) :
    returned listServers b = (registryOf b).servers.mapM copyServer := by
  rw [listServers, returned_bind_ok (ensureLoaded_eq b), returned_ofExcept]

/-- What `get` returns depends on the server that it finds. -/
theorem returned_get (id : String) (b : McpState) :
    returned (get id) b =
      match findServer (registryOf b).servers id with
      | none => .ok none
      | some s => (copyServer s).map some := by
  rw [get, returned_bind_ok (ensureLoaded_eq b)]
  cases findServer (registryOf b).servers id with
  | none => rfl
  | some s =>
    cases hcopy : copyServer s with
    | error e =>
      simp only [hcopy]
      rfl
    | ok copy =>
      simp only [hcopy]
      rfl

/-- A configuration with the same file and the same servers in memory is not told apart. -/
theorem unchanged_of_sameServers {id : PyVal}
    (h : (registryOf b').servers = (registryOf b).servers) (hfile : b'.file = b.file) :
    Unchanged lib id b b' where
  list := by rw [returned_listServers, returned_listServers, h]
  get id' := by rw [returned_get, returned_get, h]
  file := hfile
  laterUpsert body now server c _ hupsert := by
    cases hresolved : resolved lib (registryOf b).servers body with
    | error e =>
      obtain ⟨cache, herror, -⟩ := @upsert_resolve_error _ _ _ none now _ _ hresolved
      rw [herror] at hupsert
      cases hupsert
    | ok server' =>
      rw [upsert_ok hresolved] at hupsert
      cases hupsert
      rw [← h] at hresolved
      refine ⟨_, upsert_ok hresolved, ?_⟩
      show putServer server (registryOf b').servers = putServer server (registryOf b).servers
      rw [h]
  laterDelete id' now r c _ hdelete := by
    -- A server that is not there is not deleted, and nothing is written.
    by_cases heq : (registryOf b).servers.filter (fun s => s.get "id" ≠ .str id') =
        (registryOf b).servers
    · rw [delete_eq_of_eq heq] at hdelete
      cases hdelete
      exact ⟨_, delete_eq_of_eq (by rw [h]; exact heq), by rw [hfile]⟩
    · rw [delete_eq_of_ne heq, bind_ok (persist_none b _ now)] at hdelete
      cases hdelete
      refine ⟨_, (delete_eq_of_ne (by rw [h]; exact heq)).trans (bind_ok (persist_none b' _ now) _), ?_⟩
      show (registryOf b').servers.filter _ = (registryOf b).servers.filter _
      rw [h]

/-- An upsert that raises leaves no trace exactly when it raises before the write, or what it stores is
already there. -/
theorem upsert_unchanged_iff (lib : UrlLib) (body : PyVal) (fault : Option WriteStep) (now : String)
    (b : McpState) :
    UpsertFailsCleanly lib body fault now b ↔
      fault = none ∨ ∀ server, resolved lib (registryOf b).servers body = .ok server →
        putServer server (registryOf b).servers = (registryOf b).servers := by
  constructor
  · intro h
    cases fault with
    | none => exact Or.inl rfl
    | some s =>
      right
      intro server hresolved
      have hunchanged := h _ _ (upsert_write_error hresolved)
      -- A later upsert of another server writes the servers that are in memory.
      obtain ⟨id', hne, hother⟩ := exists_plain lib server.id
      have hbody : bodyId (plainBody id') ≠ bodyId body := by
        obtain ⟨normalized, hvalid, hserver⟩ := exists_valid_of_resolved hresolved
        obtain ⟨d, rfl, hd⟩ := id_of_validateServer hvalid
        show PyVal.str id' ≠ PyDict.get d "id"
        rw [hd, ← hserver]
        exact fun heq => hne (PyVal.str.inj heq)
      obtain ⟨c', hlater, hsame⟩ := hunchanged.laterUpsert (plainBody id') now _ _ hbody
        (upsert_ok (hother _))
      rw [upsert_ok (hother _)] at hlater
      cases hlater
      exact eq_of_putServer_eq hne hsame
  · intro h e b' hupsert
    cases hresolved : resolved lib (registryOf b).servers body with
    | error e' =>
      obtain ⟨cache, herror, hcache⟩ := @upsert_resolve_error _ _ _ fault now _ _ hresolved
      rw [herror] at hupsert
      cases hupsert
      refine unchanged_of_sameServers ?_ rfl
      rcases hcache with rfl | rfl <;> rfl
    | ok server =>
      cases fault with
      | none =>
        rw [upsert_ok hresolved] at hupsert
        cases hupsert
      | some s =>
        rw [upsert_write_error hresolved] at hupsert
        cases hupsert
        exact unchanged_of_sameServers
          (h.resolve_left (Option.some_ne_none s) server hresolved) rfl

/-- A deletion that raises leaves no trace exactly when there is nothing to delete. -/
theorem delete_unchanged_iff (lib : UrlLib) (id : String) (fault : Option WriteStep) (now : String)
    (b : McpState) :
    DeleteFailsCleanly lib id fault now b ↔
      fault = none ∨ findServer (registryOf b).servers id = none := by
  have hfind : findServer (registryOf b).servers id = none ↔
      (registryOf b).servers.filter (fun s => s.get "id" ≠ .str id) = (registryOf b).servers := by
    rw [findServer, List.find?_eq_none, List.filter_eq_self]
    simp
  constructor
  · intro h
    cases fault with
    | none => exact Or.inl rfl
    | some s =>
      right
      by_contra hfound
      have hdelete := (@delete_eq_of_ne _ (some s) now _ _ (mt hfind.mpr hfound)).trans
        (bind_error (persist_some b _ s now) _)
      -- The server was found before, and the edit that stays in memory has lost it.
      have hget := (h _ _ hdelete).get id
      obtain ⟨server, hserver⟩ := Option.ne_none_iff_exists'.mp hfound
      rw [returned_get, returned_get, hserver] at hget
      have hgone : findServer ((registryOf b).servers.filter fun s => s.get "id" ≠ .str id) id =
          none := by
        rw [findServer, List.find?_eq_none]
        intro s hs
        simpa using (List.mem_filter.mp hs).2
      have hafter : (registryOf { b with cache := some (edited b ((registryOf b).servers.filter
          fun s => s.get "id" ≠ .str id) now) }).servers =
            (registryOf b).servers.filter fun s => s.get "id" ≠ .str id := rfl
      rw [hafter, hgone] at hget
      cases hcopy : copyServer server with
      | error e =>
        simp only [hcopy] at hget
        cases hget
      | ok copy =>
        simp only [hcopy] at hget
        cases hget
  · intro h e b' hdelete
    by_cases hnone : findServer (registryOf b).servers id = none
    · rw [delete_eq_of_eq (hfind.mp hnone)] at hdelete
      cases hdelete
    · obtain rfl := h.resolve_right hnone
      rw [delete_eq_of_ne (mt hfind.mpr hnone), bind_ok (persist_none b _ now)] at hdelete
      cases hdelete

end Mcp

namespace Config

open AtomicFile

/-- The calls of both configurations leave no trace when they raise exactly when no edit is lost: the
write succeeds, or the call raises before it has changed anything, or it changes nothing. -/
theorem failedWrites_iff [Json.Python] (fallback : Fallback) (segment : Segment) (updates : PyDict)
    (plan : WritePlan) (now : String) (b : ConfigState) (body : PyVal) (fault : Option WriteStep)
    (lib : Mcp.UrlLib) (m : Mcp.McpState) (id : String) :
    (FailsCleanly fallback segment updates plan now b ↔ NoEditLost segment updates plan b) ∧
    (Mcp.UpsertFailsCleanly lib body fault now m ↔
      fault = none ∨ ∀ server, Mcp.resolved lib (Mcp.registryOf m).servers body = .ok server →
        Mcp.putServer server (Mcp.registryOf m).servers = (Mcp.registryOf m).servers) ∧
    (Mcp.DeleteFailsCleanly lib id fault now m ↔
      fault = none ∨ Mcp.findServer (Mcp.registryOf m).servers id = none) :=
  ⟨updateSegment_unchanged_iff fallback segment updates plan now b,
    Mcp.upsert_unchanged_iff lib body fault now m, Mcp.delete_unchanged_iff lib id fault now m⟩

/-- A language that could not be saved is the default from then on. -/
theorem failedUpdate_staysInMemory :
    ¬ ∃ _ : Json.Python,
      FailsCleanly sampleFallback .web [("lang", .str "zh-HK")] { update := some .fsync } "t1"
        (seededState sampleFallback "t0" { cache := none, file := none }) := by
  rintro ⟨_, h⟩
  rw [updateSegment_unchanged_iff] at h
  rcases h with h | h
  · cases h
  · have hview := h (sampleFallback.base .web) rfl
    have hlang := congrFun (congrArg Prod.fst hview) "lang"
    rw [PyMap.view_updateFields] at hlang
    have : some (PyVal.str "zh-HK") = some (PyVal.str "en-US") := hlang
    simp at this

end Config
