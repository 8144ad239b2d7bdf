import VoiceAgentPlatform.Demos.Patch

/-!
# Concurrent edits of a demo

Any number of `PATCH` requests on one demo whose bodies change different fields, interleaved at every
await. A request writes the whole item, merged from the cache as it found it, so it also writes back
whatever the cache held of the fields it does not name.

* `EditsKept`: the stored item carries the changes of every request that answered 200.
* `Traced`: the pool together with what each request found in the cache when it arrived.
* `BaseCurrent`: what a request found in the cache is still what is stored when its put takes effect.
* `edits_kept`: in runs all of whose puts meet this the edits are kept, however the rescans end.
-/

namespace Demos

open Async KeyedTable Edit Raising

/-- A request to edit the demo, with the registries it meets. -/
structure PatchRequest where
  registries : Registries
  body : DemoPatchBody

variable {slot : String ↪ ℕ}

/-- The demo table, the cache and the requests on one demo. -/
abbrev PatchPool (slot : String ↪ ℕ) :=
  Pool (service (demoSchema slot)) PatchRequest DemoMemory Exc PyDict

/-- The route, for requests on the demo `demoId`. -/
def servePatch (demoId : String) (r : PatchRequest) : DemoProg slot PyDict :=
  adminDemoPatch r.registries demoId r.body

/-- The stored item carries the changes of every request that answered 200. -/
def EditsKept (demoId : String) (s : PatchPool slot) : Prop :=
  ∀ task ∈ s.tasks, ∀ refreshed, task.stage = .finished (.ok refreshed) →
    ∃ item, s.store.get? demoId = some item ∧ Carries (changesOf task.request.body) item

/-- The pool, and for each task the demo that its request found in the cache when it arrived. -/
structure Traced (slot : String ↪ ℕ) where
  pool : PatchPool slot
  found : List (Option PyDict)

/-- One event of the pool. -/
def Traced.step (demoId : String) (s : Traced slot)
    (e : Event (service (demoSchema slot)) PatchRequest) : Traced slot where
  pool := s.pool.step (servePatch demoId) e
  -- The route reads the cache in the step in which the request arrives.
  found := s.found ++ (Pool.spawned e).map fun _ => get s.pool.memory demoId

@[simp] theorem Traced.pool_step (demoId : String) (s : Traced slot)
    (e : Event (service (demoSchema slot)) PatchRequest) :
    (s.step demoId e).pool = s.pool.step (servePatch demoId) e := rfl

/-- When the put of a request takes effect, the demo stored at that moment is the one the request
found in the cache when it arrived. -/
def BaseCurrent (demoId : String) (s : Traced slot)
    (e : Event (service (demoSchema slot)) PatchRequest) : Prop :=
  ∀ i request v flight k, e = .perform i .ok →
    s.pool.tasks[i]? =
      some { request, stage := .waiting (Op.putItem v : Op String PyDict Empty) flight k } →
    s.found[i]? = some ((s.pool.store.get? demoId).map deserialize)

/-- Requests that change different fields of the demo. -/
def DifferentFields (r r' : PatchRequest) : Prop :=
  DisjointEdits (changesOf r.body) (changesOf r'.body)

/-- What validation ensures of the changes of a body: they merge into dictionaries and leave the id
alone. -/
structure Accepted (es : List Edit) : Prop where
  mergeable : Mergeable es
  keepsId : ∀ e ∈ es, e.key ≠ "id"

theorem Accepted.append {es es' : List Edit} (h : Accepted es) (h' : Accepted es') :
    Accepted (es ++ es') where
  mergeable k entries hmem := (List.mem_append.mp hmem).elim (h.mergeable k entries)
    (h'.mergeable k entries)
  keepsId := List.forall_mem_append.mpr ⟨h.keepsId, h'.keepsId⟩

theorem accepted_replaced {α : Type} {key : String} (hkey : key ≠ "id") (f : α → PyVal)
    (v : Option (Option α)) : Accepted (replaced key f v) := by
  rcases v with - | - | v
  · exact ⟨nofun, nofun⟩
  · exact ⟨nofun, nofun⟩
  · refine ⟨fun k entries hmem => ?_, List.forall_mem_singleton.mpr hkey⟩
    cases List.mem_singleton.mp hmem

theorem accepted_replacedOrCleared {α : Type} {key : String} (hkey : key ≠ "id")
    (f : Option α → PyVal) (v : Option (Option α)) : Accepted (replacedOrCleared key f v) := by
  rcases v with - | v
  · exact ⟨nofun, nofun⟩
  · refine ⟨fun k entries hmem => ?_, List.forall_mem_singleton.mpr hkey⟩
    cases List.mem_singleton.mp hmem

theorem accepted_merge {key : String} (hkey : key ≠ "id") (hmerge : MergeKey key)
    (entries : PyDict) : Accepted [.merge key entries] := by
  refine ⟨fun k entries' hmem => ?_, List.forall_mem_singleton.mpr hkey⟩
  obtain ⟨rfl, -⟩ := Edit.merge.inj (List.mem_singleton.mp hmem)
  exact hmerge

theorem accepted_mergedBlock {key : String} (hkey : key ≠ "id") (hmerge : MergeKey key)
    (clean : Option PyDict) : Accepted (mergedBlock key clean) := by
  cases clean with
  | none => exact ⟨nofun, nofun⟩
  | some entries => exact accepted_merge hkey hmerge entries

/-- The direct edits of every body are as validation ensures. -/
theorem accepted_directEdits (body : DemoPatchBody) (filler asrFilter : Option PyDict) :
    Accepted (directEdits body filler asrFilter) := by
  unfold directEdits
  repeat' apply Accepted.append
  all_goals first
    | exact accepted_replaced (by decide) _ _
    | exact accepted_replacedOrCleared (by decide) _ _
    | exact accepted_mergedBlock (by decide) (by unfold MergeKey; decide) _

theorem localizedFields_of_checkLocalized {localized : List (String × LangMap)}
    (h : checkLocalized localized = .ok ()) : ∀ e ∈ localized, e.1 ∈ localizedFields := by
  induction localized with
  | nil => exact nofun
  | cons e rest ih =>
    rw [checkLocalized] at h
    split_ifs at h with hfield hempty
    · cases h
    · obtain ⟨-, -, hrest⟩ := ok_of_bind h
      exact List.forall_mem_cons.mpr ⟨List.contains_iff_mem.mp hfield, ih hrest⟩
    · cases h

/-- The changes of a body that passes validation. -/
theorem accepted_changesOf {reg : Registries} {demoId : String} {demo merged : PyDict}
    {body : DemoPatchBody} (h : patchDemo reg demoId demo body = .ok merged) :
    Accepted (changesOf body) := by
  obtain ⟨blocks, hvalid, -⟩ := ok_of_bind h
  have hlocalized := localizedFields_of_checkLocalized (validated_of_validatePatch hvalid).localized
  refine (accepted_directEdits body _ _).append ⟨fun k entries hmem => ?_, fun e he => ?_⟩
  · obtain ⟨field, hfield, heq⟩ := List.mem_map.mp hmem
    obtain ⟨rfl, -⟩ := Edit.merge.inj heq
    have hall : ∀ k ∈ localizedFields, k ∉ ["tool_ids", "mcp_servers", "tags"] := by decide
    exact hall _ (hlocalized field hfield)
  · obtain ⟨field, hfield, rfl⟩ := List.mem_map.mp he
    have hall : ∀ k ∈ localizedFields, k ≠ "id" := by decide
    exact hall _ (hlocalized field hfield)

/-- What remains of a request only scans the table. -/
def Rescans (p : DemoProg slot PyDict) : Prop :=
  p.Meets (fun _ _ => True) (fun op => op = (Op.scan : Op String PyDict Empty)) fun _ => True

/-- The put of the request has not taken effect; `found` is what it found in the cache. -/
inductive Unwritten (demoId : String) (r : PatchRequest) (found : Option PyDict) :
    Stage (service (demoSchema slot)) DemoMemory Exc PyDict → Prop where
  | refused (e : Exc) : Unwritten demoId r found (.finished (.error e))
  | putting {demo merged k} (flight) (hid : demoId ≠ "") (hfound : found = some demo)
      (hpatch : patchDemo r.registries demoId demo r.body = .ok merged)
      (hok : Rescans (k (.ok ()))) (herror : ∀ f, ∃ e, k (.error f) = .raise e) :
      Unwritten demoId r found (.waiting (Op.putItem (serialize merged)) flight k)
  | notStored {v f k e} (h : k (.error f) = .raise e) :
      Unwritten demoId r found (.applied (Op.putItem v) (.error f) k)

/-- The put of the request has taken effect. -/
def Rescanning : Stage (service (demoSchema slot)) DemoMemory Exc PyDict → Prop
  | .waiting op _ k => Rescans (.await op k)
  | .applied _ reply k => Rescans (k reply)
  | .finished _ => True

theorem rescanning_settle {p : DemoProg slot PyDict} (h : Rescans p) (m : DemoMemory) :
    Rescanning (p.settle m).2 := by
  induction p generalizing m with
  | done a => trivial
  | raise e => trivial
  | read k ih => exact ih m (h m) m
  | write m' k ih => exact ih h m'
  | await op k => exact h

/-- Edits that leave the id alone keep the key of the item. -/
theorem itemId_editItem {es : List Edit} (hes : Accepted es) {item : PyDict} {id : String}
    (hid : id ≠ "") (h : itemId item = id) : itemId (editItem es item) = id := by
  have hedited : (applyAll (deserialize item) es).get "id" = .str id := by
    rw [PyDict.get, get?_applyAll_of_not_mem hes.keepsId]
    exact get_id_deserialize_of_itemId hid h
  have hstored : (editItem es item).get "id" = .str id := by
    rw [editItem, serialize, PyDict.get_mapValues rfl, get_id_normalizeDemoDict, hedited]
    rfl
  rw [itemId, hstored]

/-- A stored demo is its own merge base. -/
theorem mergeBase_deserialize {item : PyDict} {id : String} (hid : id ≠ "")
    (h : itemId item = id) : mergeBase id (deserialize item) = deserialize item := by
  have hget := get_id_deserialize_of_itemId hid h
  rw [deserialize, get_id_normalizeDemoDict] at hget
  simp [mergeBase, deserialize, normalizeDemoDict, demoFields, PyDict.set, hget]

/-- The merged demo keeps the id. -/
theorem get_id_of_patchDemo {reg : Registries} {demoId : String} {demo merged : PyDict}
    {body : DemoPatchBody} (h : patchDemo reg demoId demo body = .ok merged) :
    merged.get "id" = .str demoId := by
  rw [patchDemo_eq_applyAll h, PyDict.get,
    get?_applyAll_of_not_mem (accepted_changesOf h).keepsId, mergeBase, PyDict.get?_set, if_pos rfl,
    Option.getD_some]

/-- What a request does when it arrives: it is refused, or it awaits its only write. -/
theorem settle_adminDemoPatch (reg : Registries) (demoId : String) (body : DemoPatchBody)
    (m : DemoMemory) :
    (∃ e, (adminDemoPatch reg demoId body : DemoProg slot PyDict).settle m =
          (m, .finished (.error (.http e))) ∧
        (e.status = 404 ∧ (get m demoId).getD [] = [] ∨
          ∃ demo, get m demoId = some demo ∧ patchDemo reg demoId demo body = .error e)) ∨
      ∃ demo merged k, get m demoId = some demo ∧ patchDemo reg demoId demo body = .ok merged ∧
        (adminDemoPatch reg demoId body : DemoProg slot PyDict).settle m =
          (m, .waiting (Op.putItem (serialize merged)) ⟨[], none⟩ k) ∧
        (∀ reply, Rescans (k reply)) ∧ ∀ f, ∃ e, k (.error f) = .raise e := by
  simp only [adminDemoPatch, Prog.get_eq, Prog.bind_eq, Prog.bind_read, settle_read,
    Prog.bind_done]
  cases hget : get m demoId with
  | none => exact Or.inl ⟨_, rfl, Or.inl ⟨rfl, rfl⟩⟩
  | some demo =>
    have hid : demoId ≠ "" := by
      rintro rfl
      cases hget
    dsimp only
    split_ifs with hempty
    · exact Or.inl ⟨_, rfl, Or.inl ⟨rfl, List.isEmpty_iff.mp hempty⟩⟩
    · cases hpatch : patchDemo reg demoId demo body with
      | error e => exact Or.inl ⟨e, rfl, Or.inr ⟨demo, rfl, hpatch⟩⟩
      | ok merged =>
        have hmerged := get_id_of_patchDemo hpatch
        have htruthy : (merged.get "id").truthy = true := by
          simpa [hmerged, PyVal.truthy] using hid
        simp only [put, if_pos htruthy, get_id_serialize hmerged]
        refine Or.inr ⟨demo, merged, _, rfl, hpatch, rfl, fun reply => ?_, fun f => ⟨_, rfl⟩⟩
        cases reply with
        | error f => trivial
        | ok _ =>
          refine fun _ => ⟨rfl, fun reply _ => ?_⟩
          -- After the rescan, whether it fails or not, the cache is read.
          cases reply with
          | error f =>
            intro _ _ m''
            dsimp only
            split <;> trivial
          | ok items =>
            intro _ m''
            dsimp only
            split <;> trivial

/-- A request that arrives has not written anything. -/
theorem unwritten_settle (demoId : String) (r : PatchRequest) (m : DemoMemory) :
    Unwritten demoId r (get m demoId) ((servePatch demoId r : DemoProg slot PyDict).settle m).2 := by
  rw [servePatch]
  obtain ⟨e, hsettle, -⟩ | ⟨demo, merged, k, hget, hpatch, hsettle, hrescans, hraises⟩ :=
    settle_adminDemoPatch r.registries demoId r.body m
  · rw [hsettle]
    exact .refused _
  · have hid : demoId ≠ "" := by
      rintro rfl
      cases hget
    rw [hsettle]
    exact .putting _ hid hget hpatch (hrescans _) hraises

/-- What is known of a request: its put has not taken effect, or the stored item carries its
changes. -/
def Served (demoId : String) (t : DemoTable slot) (r : PatchRequest) (found : Option PyDict)
    (stage : Stage (service (demoSchema slot)) DemoMemory Exc PyDict) : Prop :=
  Unwritten demoId r found stage ∨
    Rescanning stage ∧ Accepted (changesOf r.body) ∧
      ∃ item, t.get? demoId = some item ∧ Carries (changesOf r.body) item

/-- Every request is served over the table. -/
structure AllServed (demoId : String) (s : Traced slot) : Prop where
  length_eq : s.found.length = s.pool.tasks.length
  served : ∀ (j : ℕ) (task : Task (service (demoSchema slot)) PatchRequest DemoMemory Exc PyDict),
    s.pool.tasks[j]? = some task → ∃ found,
      s.found[j]? = some found ∧ Served demoId s.pool.store task.request found task.stage

/-- The put of a request that takes effect writes the request's changes, merged onto the item that is
stored at that moment. -/
theorem putItem_eq_editItem {demoId : String} {s : Traced slot} (h : AllServed demoId s) {i : ℕ}
    {request v flight k}
    (htask : s.pool.tasks[i]? =
      some { request, stage := .waiting (Op.putItem v : Op String PyDict Empty) flight k })
    (hbase : BaseCurrent demoId s (.perform i .ok)) :
    Accepted (changesOf request.body) ∧ demoId ≠ "" ∧
      ∃ item, s.pool.store.get? demoId = some item ∧ v = editItem (changesOf request.body) item := by
  obtain ⟨found, hfound, hunwritten | ⟨hrescans, -⟩⟩ := h.served i _ htask
  · cases hunwritten with
    | @putting demo merged _ _ hid hdemo hpatch hok herror =>
      refine ⟨accepted_changesOf hpatch, hid, ?_⟩
      -- The demo that was merged is the one that is stored.
      have hstored := hbase i _ _ _ _ rfl htask
      rw [hfound, hdemo] at hstored
      obtain ⟨item, hitem, rfl⟩ := Option.map_eq_some_iff.mp (Option.some.inj hstored).symm
      have hkey : itemId item = demoId := (Table.get?_eq_some_iff.mp hitem).2
      refine ⟨item, hitem, ?_⟩
      rw [patchDemo_eq_applyAll hpatch, mergeBase_deserialize hid hkey, editItem]
  · cases hrescans.1

/-- Only a put that takes effect changes the table. -/
theorem store_perform {demoId : String} {s : Traced slot} (h : AllServed demoId s) {i : ℕ}
    {request op flight k}
    (htask : s.pool.tasks[i]? = some { request, stage := .waiting op flight k }) (choice : Choice) :
    (perform op flight choice s.pool.store).1 = s.pool.store ∨
      choice = .ok ∧ ∃ v, op = .putItem v := by
  obtain ⟨found, hfound, hunwritten | ⟨hrescans, -⟩⟩ := h.served i _ htask
  · cases hunwritten with
    | putting =>
      cases choice with
      | page n => exact Or.inl rfl
      | fault code => exact Or.inl rfl
      | ok => exact Or.inr ⟨rfl, _, rfl⟩
  · obtain rfl : op = Op.scan := hrescans.1
    cases choice <;> exact Or.inl rfl

/-- The table after an event: as it was, or with the changes of the request whose put takes effect,
merged onto the stored item. -/
theorem store_step {demoId : String} {s : Traced slot} (h : AllServed demoId s)
    (e : Event (service (demoSchema slot)) PatchRequest) (hbase : BaseCurrent demoId s e) :
    (s.step demoId e).pool.store = s.pool.store ∨
      ∃ i op flight k request item, e = .perform i .ok ∧
        s.pool.tasks[i]? = some { request, stage := .waiting op flight k } ∧
        Accepted (changesOf request.body) ∧ demoId ≠ "" ∧ s.pool.store.get? demoId = some item ∧
        op = .putItem (editItem (changesOf request.body) item) ∧
        (s.step demoId e).pool.store =
          s.pool.store.put (editItem (changesOf request.body) item) := by
  -- Only an operation at work changes the table, and only a put does.
  by_cases hperforms : ∃ request op flight choice, s.pool.Performs e request op flight choice
  · obtain ⟨request, op, flight, choice, hperforms⟩ := hperforms
    have hstore : (s.step demoId e).pool.store = _ := Pool.store_of_performs hperforms
    obtain ⟨i, k, rfl, htask⟩ := hperforms
    rw [hstore]
    obtain hsame | ⟨rfl, v, rfl⟩ := store_perform h htask choice
    · exact Or.inl hsame
    · obtain ⟨haccepted, hid, item, hitem, rfl⟩ := putItem_eq_editItem h htask hbase
      exact Or.inr ⟨i, _, flight, k, request, item, rfl, htask, haccepted, hid, hitem, rfl, rfl⟩
  · refine Or.inl (Pool.store_of_not_performs fun request op flight choice hp => ?_)
    exact hperforms ⟨request, op, flight, choice, hp⟩

/-- The edited item takes the place of the item. -/
theorem get?_put_editItem {t : DemoTable slot} {demoId : String} (hid : demoId ≠ "")
    {es : List Edit} (hes : Accepted es) {item : PyDict} (hitem : t.get? demoId = some item) :
    (t.put (editItem es item)).get? demoId = some (editItem es item) := by
  have hkey : itemId (editItem es item) = demoId :=
    itemId_editItem hes hid (Table.get?_eq_some_iff.mp hitem).2
  rw [Table.get?_put]
  exact if_pos hkey.symm

/-- A request stays served while another one changes other fields. -/
theorem Served.put {demoId : String} (hid : demoId ≠ "") {t : DemoTable slot} {item : PyDict}
    (hitem : t.get? demoId = some item) {r r' : PatchRequest} (haccepted : Accepted (changesOf r'.body))
    (hfields : DifferentFields r r') {found stage} (h : Served demoId t r found stage) :
    Served demoId (t.put (editItem (changesOf r'.body) item)) r found stage := by
  refine h.imp id ?_
  rintro ⟨hrescans, hchanges, item', hitem', hcarries⟩
  obtain rfl : item' = item := Option.some.inj (hitem'.symm.trans hitem)
  refine ⟨hrescans, hchanges, _, get?_put_editItem hid haccepted hitem, ?_⟩
  exact hcarries.editItem hchanges.mergeable haccepted.mergeable hfields

theorem differentFields_symm {r r' : PatchRequest} (h : DifferentFields r r') :
    DifferentFields r' r :=
  fun e he e' he' => (h e' he' e he).symm

/-- The requests of different tasks change different fields. -/
theorem differentFields_of_ne {s : PatchPool slot}
    (h : (s.tasks.map Task.request).Pairwise DifferentFields) {i j : ℕ}
    {task task' : Task (service (demoSchema slot)) PatchRequest DemoMemory Exc PyDict}
    (hi : s.tasks[i]? = some task) (hj : s.tasks[j]? = some task') (hij : i ≠ j) :
    DifferentFields task.request task'.request := by
  obtain ⟨hi', rfl⟩ := List.getElem?_eq_some_iff.mp hi
  obtain ⟨hj', rfl⟩ := List.getElem?_eq_some_iff.mp hj
  have hall := List.pairwise_iff_getElem.mp (List.pairwise_map.mp h)
  rcases lt_or_gt_of_ne hij with hlt | hlt
  · exact hall i j hi' hj' hlt
  · exact differentFields_symm (hall j i hj' hi' hlt)

/-- A request whose operation takes effect stays served. -/
theorem Served.landed {demoId : String} {s : Traced slot} (h : AllServed demoId s) {i : ℕ}
    {request found op flight k} {choice : Choice} {reply : Except Fault op.Reply}
    (hserved : Served demoId s.pool.store request found (.waiting op flight k))
    (htask : s.pool.tasks[i]? = some { request, stage := .waiting op flight k })
    (hbase : BaseCurrent demoId s (.perform i choice))
    (hperform : (perform op flight choice s.pool.store).2 = .inr reply) :
    Served demoId (perform op flight choice s.pool.store).1 request found
      (.applied op reply k) := by
  obtain hunwritten | ⟨hrescans, hcarries⟩ := hserved
  · cases hunwritten with
    | @putting demo merged _ _ hid hdemo hpatch hok herror =>
      -- Only a put that completes changes the table.
      cases choice with
      | page n => cases hperform
      | fault code =>
        obtain ⟨exc, hraise⟩ := herror (.service code)
        cases hperform
        exact Or.inl (.notStored hraise)
      | ok =>
        cases hperform
        obtain ⟨haccepted, -, item, hitem, hmerged⟩ := putItem_eq_editItem h htask hbase
        rw [hmerged]
        refine Or.inr ⟨hok, haccepted, _, get?_put_editItem hid haccepted hitem, ?_⟩
        exact carries_editItem haccepted.mergeable item
  · -- Behind the put there are only scans.
    have hsame : (perform op flight choice s.pool.store).1 = s.pool.store := by
      obtain rfl : op = Op.scan := hrescans.1
      cases choice <;> rfl
    rw [hsame]
    exact Or.inr ⟨hrescans.2 reply trivial, hcarries⟩

/-- Every event keeps the requests served. -/
theorem AllServed.step {demoId : String} {s : Traced slot} (h : AllServed demoId s)
    (e : Event (service (demoSchema slot)) PatchRequest) (hbase : BaseCurrent demoId s e)
    (hfields : (s.pool.tasks.map Task.request).Pairwise DifferentFields) :
    AllServed demoId (s.step demoId e) where
  length_eq := by
    have hrequests : (s.step demoId e).pool.tasks.map Task.request = _ :=
      Pool.map_request_step s.pool e
    simpa [Traced.step, h.length_eq, eq_comm] using congrArg List.length hrequests
  served j task htask := by
    have hfound {found : Option PyDict} (hj : s.found[j]? = some found) :
        (s.step demoId e).found[j]? = some found :=
      (List.getElem?_append_left (List.getElem?_eq_some_iff.mp hj).1).trans hj
    have hstore := store_step h e hbase
    cases Pool.taskStep_of_getElem? htask with
    | kept htask' hidle =>
      obtain ⟨found, hj, hserved⟩ := h.served j task htask'
      refine ⟨found, hfound hj, ?_⟩
      obtain hsame | ⟨i, op, flight, k, request, item, rfl, hi, haccepted, hid, hitem, rfl, hput⟩ :=
        hstore
      · rwa [hsame]
      · have hother : j ≠ i := by
          rintro rfl
          exact hidle request _ flight .ok k rfl (Option.some.inj (htask'.symm.trans hi))
        have hdifferent := differentFields_of_ne hfields htask' hi hother
        rw [hput]
        exact hserved.put hid hitem haccepted hdifferent
    | @spawned request he hj =>
      subst he hj
      refine ⟨get s.pool.memory demoId, ?_, Or.inl (unwritten_settle demoId request s.pool.memory)⟩
      change (s.found ++ [get s.pool.memory demoId])[s.pool.tasks.length]? = _
      rw [← h.length_eq, List.getElem?_concat_length]
    | @flying request op flight choice k flight' he htask' hperform =>
      obtain ⟨found, hj, hserved⟩ := h.served j _ htask'
      refine ⟨found, hfound hj, ?_⟩
      have hsame : (s.step demoId e).pool.store = s.pool.store := by
        obtain hsame | ⟨i, op', flight', k', request', item, hi, hi', -, -, -, hop, -⟩ := hstore
        · exact hsame
        · -- A put that takes effect does not stay in flight.
          obtain ⟨rfl, rfl⟩ := Event.perform.inj (he.symm.trans hi)
          cases Option.some.inj (htask'.symm.trans hi')
          cases hperform
      rw [hsame]
      refine hserved.imp (fun hunwritten => ?_) id
      cases hunwritten with
      | putting _ hid hdemo hpatch hok herror => exact .putting _ hid hdemo hpatch hok herror
    | @landed request op flight choice k reply he htask' hperform =>
      subst he
      obtain ⟨found, hj, hserved⟩ := h.served j _ htask'
      refine ⟨found, hfound hj, ?_⟩
      rw [Traced.pool_step, Pool.store_of_performs ⟨j, k, rfl, htask'⟩]
      exact hserved.landed h htask' hbase hperform
    | @resumed request op reply k he htask' =>
      subst he
      obtain ⟨found, hj, hserved⟩ := h.served j _ htask'
      refine ⟨found, hfound hj, ?_⟩
      rw [Traced.pool_step, Pool.store_resume]
      obtain hunwritten | ⟨hrescans, hcarries⟩ := hserved
      · cases hunwritten with
        | notStored hk =>
          rw [hk]
          exact Or.inl (.refused _)
      · exact Or.inr ⟨rescanning_settle hrescans s.pool.memory, hcarries⟩

theorem allServed_start (demoId : String) (t : DemoTable slot) (m : DemoMemory) :
    AllServed demoId ⟨Pool.start t m, []⟩ where
  length_eq := rfl
  served j task h := by cases h

/-- A request that answered 200 has stored its changes. -/
theorem AllServed.editsKept {demoId : String} {s : Traced slot} (h : AllServed demoId s) :
    EditsKept demoId s.pool := by
  intro task htask refreshed hfinished
  obtain ⟨j, hj⟩ := List.mem_iff_getElem?.mp htask
  obtain ⟨found, -, hunwritten | ⟨-, -, hcarries⟩⟩ := h.served j task hj
  · rw [hfinished] at hunwritten
    cases hunwritten
  · exact hcarries

/-- The requests that a run brings are those of its tasks. -/
theorem guarded_differentFields (demoId : String) {s : Traced slot}
    {es : List (Event (service (demoSchema slot)) PatchRequest)}
    (h : (s.pool.tasks.map Task.request ++ es.flatMap Pool.spawned).Pairwise DifferentFields) :
    Run.Guarded (Traced.step demoId)
      (fun s _ => (s.pool.tasks.map Task.request).Pairwise DifferentFields) s es := by
  induction es generalizing s with
  | nil => trivial
  | cons e es ih =>
    refine ⟨(List.pairwise_append.mp h).1, ih ?_⟩
    rw [Traced.pool_step, Pool.map_request_step, List.append_assoc]
    exact h

/-- In a run of requests that change different fields, in which the demo that a request found in the
cache is still the stored one when its put takes effect, no edit is lost. -/
theorem edits_kept (demoId : String) (t : DemoTable slot) (m : DemoMemory)
    {es : List (Event (service (demoSchema slot)) PatchRequest)}
    (hfields : (es.flatMap Pool.spawned).Pairwise DifferentFields)
    (hbase : Run.Guarded (Traced.step demoId) (BaseCurrent demoId) ⟨Pool.start t m, []⟩ es) :
    Run.Always (Pool.step (servePatch demoId)) (EditsKept demoId) (Pool.start t m) es := by
  have hguard := Run.guarded_and.mpr ⟨hbase, guarded_differentFields demoId hfields⟩
  have hserved : Run.Always (Traced.step demoId) (AllServed demoId) ⟨Pool.start t m, []⟩ es :=
    Run.always_of_guarded (fun s e h hG => h.step e hG.1 hG.2) (allServed_start demoId t m) hguard
  have hkept : Run.Always (Traced.step demoId) (fun s => EditsKept demoId s.pool)
      ⟨Pool.start t m, []⟩ es := hserved.mono fun s h => h.editsKept
  exact (Run.always_map Traced.pool (Traced.pool_step demoId)).mp hkept

/-- A table with one demo. -/
def oneDemo : DemoTable stringSlot := (∅ : DemoTable stringSlot).put [("id", .str "a")]

/-- A request that sets the label. -/
def labelPatch : PatchRequest := ⟨⟨[], fun _ => []⟩, { label := some (some "x") }⟩

/-- A request that sets the tags. -/
def tagsPatch : PatchRequest := ⟨⟨[], fun _ => []⟩, { tags := some (some ["y"]) }⟩

theorem labelPatch_tagsPatch : DifferentFields labelPatch tagsPatch := by
  unfold DifferentFields DisjointEdits
  decide +kernel

theorem baseCurrent_spawn (demoId : String) (s : Traced slot) (request : PatchRequest) :
    BaseCurrent demoId s (.spawn request) := by
  intro i r v flight k he
  cases he

theorem baseCurrent_resume (demoId : String) (s : Traced slot) (i : ℕ) :
    BaseCurrent demoId s (.resume i) := by
  intro j r v flight k he
  cases he

/-- A put that finds the demo its request found is as `BaseCurrent` asks. -/
theorem baseCurrent_of_found {demoId : String} {s : Traced slot} {i : ℕ} {choice : Choice}
    (h : s.found[i]? = some ((s.pool.store.get? demoId).map deserialize)) :
    BaseCurrent demoId s (.perform i choice) := by
  intro j request v flight k he _
  obtain ⟨rfl, -⟩ := Event.perform.inj he
  exact h

/-- Nothing is asked of a scan. -/
theorem baseCurrent_of_scan {demoId : String} {s : Traced slot} {i : ℕ} {choice : Choice}
    {request flight k}
    (h : s.pool.tasks[i]? =
      some { request, stage := .waiting (Op.scan : Op String PyDict Empty) flight k }) :
    BaseCurrent demoId s (.perform i choice) := by
  intro j request' v flight' k' he htask
  obtain ⟨rfl, -⟩ := Event.perform.inj he
  cases h.symm.trans htask

/-- The label is set, then the tags; the rescan between the two succeeds. -/
theorem edits_kept_labelThenTags :
    Run.Always (Pool.step (servePatch "a")) (EditsKept "a")
      (Pool.start oneDemo ⟨loadItems oneDemo.items, []⟩)
      [.spawn labelPatch, .perform 0 .ok, .resume 0, .perform 0 .ok, .resume 0, .spawn tagsPatch,
        .perform 1 .ok, .resume 1, .perform 1 .ok, .resume 1] :=
  edits_kept "a" oneDemo ⟨loadItems oneDemo.items, []⟩
    (List.pairwise_pair.mpr labelPatch_tagsPatch)
    ⟨baseCurrent_spawn _ _ _, baseCurrent_of_found rfl, baseCurrent_resume _ _ _,
      baseCurrent_of_scan rfl, baseCurrent_resume _ _ _, baseCurrent_spawn _ _ _,
      baseCurrent_of_found rfl, baseCurrent_resume _ _ _, baseCurrent_of_scan rfl,
      baseCurrent_resume _ _ _, trivial⟩

/-- The label is set and its rescan fails; the tags, set afterwards, bring the old label back. -/
theorem failedRescan_losesLabel :
    [labelPatch, tagsPatch].Pairwise DifferentFields ∧
      ¬ Run.Always (Pool.step (servePatch "a")) (EditsKept "a")
        (Pool.start oneDemo ⟨loadItems oneDemo.items, []⟩)
        [.spawn labelPatch, .perform 0 .ok, .resume 0, .perform 0 (.fault "InternalServerError"),
          .resume 0, .spawn tagsPatch, .perform 1 .ok, .resume 1, .perform 1 .ok, .resume 1] := by
  refine ⟨List.pairwise_pair.mpr labelPatch_tagsPatch, fun h => ?_⟩
  obtain ⟨item, hitem, hcarries⟩ := h.last _ List.mem_cons_self _ rfl
  -- The stored item has no label, the item that carries the label has.
  obtain rfl := Option.some.inj hitem
  have hlabel := congrArg (fun d => isText (PyDict.get d "label") "x") hcarries
  revert hlabel
  decide +kernel

end Demos
