import Mathlib.Data.List.Nodup
import Mathlib.Data.List.Pairwise
import Mathlib.Data.Nat.Notation
import Mathlib.Logic.Embedding.Basic
import Mathlib.Logic.Equiv.List
import Mathlib.Order.Basic
import VoiceAgentPlatform.Lib.Async

/-!
# Keyed tables

A table of items with a key, in an order of its own, and the service a table offers: reading an
item, scanning page by page, and atomic writes of single items.

* `Schema`: the key of an item, the place of a key in the table's order, and what the updates do.
* `Table`: the items in order, at most one for each key; `get?`, `put`, `upsert`, `delete` with their
  lookup lemmas, and `after`, the items behind a scan's position.
* `service`: the table as an asynchronous service.
* `runAlone`, `execAlone`, `execUnder`: programs that nothing interferes with, for `execUnder` with
  operations that fail.
-/

namespace KeyedTable

/-- The key of an item, the place of each key in the table's order, and the item that an update
makes of the item stored under a key, if any. -/
structure Schema (K V U : Type) where
  key : V → K
  slot : K ↪ ℕ
  update : U → K → Option V → V
  key_update : ∀ u k o, (∀ v, o = some v → key v = k) → key (update u k o) = k

/-- A place for every string, for tables whose order does not matter. -/
def stringSlot : String ↪ ℕ where
  toFun s := Encodable.encode (s.toList.map Char.toNat)
  inj' s t h := by
    have hlist := Encodable.encode_injective h
    have hchars := List.map_injective_iff.mpr (fun c d hcd => Char.toNat_inj.mp hcd) hlist
    exact String.toList_inj.mp hchars

variable {K V U : Type} {sch : Schema K V U}

/-- A table: items in the order of their keys, at most one for each key. -/
structure Table (sch : Schema K V U) where
  items : List V
  sorted : items.Pairwise fun v w => sch.slot (sch.key v) < sch.slot (sch.key w)

namespace Table

/-- The table without items. -/
def empty : Table sch := ⟨[], List.Pairwise.nil⟩

instance : EmptyCollection (Table sch) := ⟨empty⟩

instance : Membership V (Table sch) := ⟨fun t v => v ∈ t.items⟩

theorem mem_def {t : Table sch} {v : V} : v ∈ t ↔ v ∈ t.items := Iff.rfl

@[simp] theorem notMem_empty (v : V) : v ∉ (∅ : Table sch) := List.not_mem_nil

/-- The keys of the items are distinct. -/
theorem nodup_keys (t : Table sch) : (t.items.map sch.key).Nodup := by
  refine List.pairwise_map.mpr (t.sorted.imp fun hlt hkey => ?_)
  rw [hkey] at hlt
  exact lt_irrefl _ hlt

/-- Two items with one key are the same item. -/
theorem eq_of_key_eq {t : Table sch} {v w : V} (hv : v ∈ t) (hw : w ∈ t)
    (h : sch.key v = sch.key w) : v = w :=
  List.inj_on_of_nodup_map t.nodup_keys hv hw h

/-- Store `v`, in the place of the item with its key if there is one. -/
def put (t : Table sch) (v : V) : Table sch where
  items :=
    t.items.filter (fun w => sch.slot (sch.key w) < sch.slot (sch.key v)) ++
      v :: t.items.filter fun w => sch.slot (sch.key v) < sch.slot (sch.key w)
  sorted := by
    refine List.pairwise_append.mpr ⟨t.sorted.filter _, List.pairwise_cons.mpr ⟨?_, t.sorted.filter _⟩,
      ?_⟩
    · intro w hw
      simpa using (List.mem_filter.mp hw).2
    · intro u hu w hw
      have hlt : sch.slot (sch.key u) < sch.slot (sch.key v) := by
        simpa using (List.mem_filter.mp hu).2
      rcases List.mem_cons.mp hw with rfl | hw
      · exact hlt
      · exact hlt.trans (by simpa using (List.mem_filter.mp hw).2)

/-- Storing an item keeps the items with other keys and no other. -/
@[simp] theorem mem_put {t : Table sch} {v w : V} :
    w ∈ t.put v ↔ w = v ∨ w ∈ t ∧ sch.key w ≠ sch.key v := by
  have hne : sch.key w ≠ sch.key v ↔ sch.slot (sch.key w) < sch.slot (sch.key v) ∨
      sch.slot (sch.key v) < sch.slot (sch.key w) := by
    rw [← ne_iff_lt_or_gt, sch.slot.injective.ne_iff]
  simp only [mem_def, put, List.mem_append, List.mem_cons, List.mem_filter, decide_eq_true_eq, hne]
  tauto

variable [DecidableEq K]

/-- The item with key `k`. -/
def get? (t : Table sch) (k : K) : Option V := t.items.find? fun v => sch.key v = k

theorem get?_eq_some_iff {t : Table sch} {k : K} {v : V} :
    t.get? k = some v ↔ v ∈ t ∧ sch.key v = k := by
  constructor
  · intro h
    exact ⟨List.mem_of_find?_eq_some h, by simpa using List.find?_some h⟩
  · rintro ⟨hv, hk⟩
    cases hget : t.get? k with
    | none => exact absurd hk (by simpa using List.find?_eq_none.mp hget v hv)
    | some w =>
      have hw : sch.key w = k := by simpa using List.find?_some hget
      rw [eq_of_key_eq (List.mem_of_find?_eq_some hget) hv (hw.trans hk.symm)]

theorem get?_eq_none_iff {t : Table sch} {k : K} : t.get? k = none ↔ ∀ v ∈ t, sch.key v ≠ k := by
  simp only [get?, List.find?_eq_none, decide_eq_true_eq]
  rfl

/-- The table finds its own items. -/
theorem get?_key_iff {t : Table sch} {v : V} : t.get? (sch.key v) = some v ↔ v ∈ t := by
  rw [get?_eq_some_iff, and_iff_left rfl]

@[simp] theorem get?_empty (k : K) : (∅ : Table sch).get? k = none := rfl

/-- Looking up after an item is stored. -/
theorem get?_put (t : Table sch) (v : V) (k : K) :
    (t.put v).get? k = if k = sch.key v then some v else t.get? k := by
  refine Option.ext fun w => ?_
  split_ifs with hk
  · subst hk
    rw [get?_eq_some_iff, mem_put]
    constructor
    · rintro ⟨rfl | ⟨-, hne⟩, hkey⟩
      · rfl
      · exact absurd hkey hne
    · intro h
      obtain rfl := Option.some.inj h
      exact ⟨Or.inl rfl, rfl⟩
  · rw [get?_eq_some_iff, get?_eq_some_iff, mem_put]
    constructor
    · rintro ⟨rfl | ⟨hw, -⟩, hkey⟩
      · exact absurd hkey.symm hk
      · exact ⟨hw, hkey⟩
    · rintro ⟨hw, rfl⟩
      exact ⟨Or.inr ⟨hw, hk⟩, rfl⟩

/-- Store items one after another. -/
def putAll (t : Table sch) (vs : List V) : Table sch := vs.foldl put t

/-- Storing items adds their keys and removes none. -/
theorem isSome_get?_putAll (t : Table sch) (vs : List V) (k : K) :
    ((t.putAll vs).get? k).isSome ↔ k ∈ vs.map sch.key ∨ (t.get? k).isSome := by
  induction vs generalizing t with
  | nil => simp [putAll]
  | cons v vs ih =>
    have hcons : t.putAll (v :: vs) = (t.put v).putAll vs := rfl
    rw [hcons, ih, get?_put, List.map_cons, List.mem_cons]
    split_ifs with hk
    · simp [hk]
    · simp [hk]

/-- Items with other keys stay. -/
theorem get?_putAll_of_notMem {t : Table sch} {vs : List V} {k : K} (h : k ∉ vs.map sch.key) :
    (t.putAll vs).get? k = t.get? k := by
  induction vs generalizing t with
  | nil => rfl
  | cons v vs ih =>
    obtain ⟨hne, hrest⟩ := not_or.mp (List.mem_cons.not.mp h)
    have hcons : t.putAll (v :: vs) = (t.put v).putAll vs := rfl
    rw [hcons, ih hrest, get?_put, if_neg hne]

/-- Of items with distinct keys each is found. -/
theorem get?_putAll_of_mem {t : Table sch} {vs : List V} (hvs : (vs.map sch.key).Nodup) {v : V}
    (hv : v ∈ vs) : (t.putAll vs).get? (sch.key v) = some v := by
  induction vs generalizing t with
  | nil => exact absurd hv List.not_mem_nil
  | cons w vs ih =>
    obtain ⟨hnotMem, hvs⟩ := List.nodup_cons.mp hvs
    have hcons : t.putAll (w :: vs) = (t.put w).putAll vs := rfl
    rw [hcons]
    rcases List.mem_cons.mp hv with rfl | hv
    · rw [get?_putAll_of_notMem hnotMem, get?_put, if_pos rfl]
    · exact ih hvs hv

/-- Update the item with key `k`, which is created if it is missing. -/
def upsert (t : Table sch) (k : K) (u : U) : Table sch := t.put (sch.update u k (t.get? k))

@[simp] theorem key_upsert (t : Table sch) (k : K) (u : U) :
    sch.key (sch.update u k (t.get? k)) = k :=
  sch.key_update u k _ fun _ hv => (get?_eq_some_iff.mp hv).2

/-- Looking up after an update. -/
theorem get?_upsert (t : Table sch) (k k' : K) (u : U) :
    (t.upsert k u).get? k' = if k' = k then some (sch.update u k (t.get? k)) else t.get? k' := by
  rw [upsert, get?_put, key_upsert]

/-- Remove the item with key `k`. -/
def delete (t : Table sch) (k : K) : Table sch where
  items := t.items.filter fun v => sch.key v ≠ k
  sorted := t.sorted.filter _

@[simp] theorem mem_delete {t : Table sch} {k : K} {v : V} :
    v ∈ t.delete k ↔ v ∈ t ∧ sch.key v ≠ k := by
  simp [mem_def, delete]

/-- Looking up after a removal. -/
theorem get?_delete (t : Table sch) (k k' : K) :
    (t.delete k).get? k' = if k' = k then none else t.get? k' := by
  refine Option.ext fun w => ?_
  split_ifs with hk
  · simp only [get?_eq_some_iff, mem_delete, iff_false]
    rintro ⟨⟨-, hne⟩, hkey⟩
    exact hne (hkey.trans hk)
  · rw [get?_eq_some_iff, get?_eq_some_iff, mem_delete]
    constructor
    · rintro ⟨⟨hw, -⟩, hkey⟩
      exact ⟨hw, hkey⟩
    · rintro ⟨hw, rfl⟩
      exact ⟨⟨hw, hk⟩, rfl⟩

/-- The items behind a position, all of them for `none`. -/
def after (t : Table sch) : Option K → List V
  | none => t.items
  | some k => t.items.filter fun v => sch.slot k < sch.slot (sch.key v)

omit [DecidableEq K] in
theorem sorted_after (t : Table sch) (start : Option K) :
    (t.after start).Pairwise fun v w => sch.slot (sch.key v) < sch.slot (sch.key w) := by
  cases start with
  | none => exact t.sorted
  | some k => exact t.sorted.filter _

omit [DecidableEq K] in
/-- The items behind an item that itself lies behind a position. -/
theorem filter_after {t : Table sch} {start : Option K} {v : V} (hv : v ∈ t.after start) :
    ((t.after start).filter fun w => sch.slot (sch.key v) < sch.slot (sch.key w)) =
      t.after (some (sch.key v)) := by
  cases start with
  | none => rfl
  | some k =>
    have hk : sch.slot k < sch.slot (sch.key v) := by simpa using (List.mem_filter.mp hv).2
    simp only [after, List.filter_filter]
    refine List.filter_congr fun w _ => ?_
    by_cases hw : sch.slot (sch.key v) < sch.slot (sch.key w)
    · simp [hw, hk.trans hw]
    · simp [hw]

omit [DecidableEq K] in
/-- The items behind a position are the end of the table. -/
theorem after_suffix (t : Table sch) (start : Option K) : t.after start <:+ t.items := by
  cases start with
  | none => exact List.suffix_rfl
  | some k =>
    have hsorted := t.sorted
    rw [after]
    generalize t.items = items at hsorted
    induction items with
    | nil => exact List.suffix_rfl
    | cons v items ih =>
      obtain ⟨hv, hitems⟩ := List.pairwise_cons.mp hsorted
      by_cases hk : sch.slot k < sch.slot (sch.key v)
      · -- All later items lie behind the position, too.
        rw [List.filter_eq_self.mpr]
        intro w hw
        rcases List.mem_cons.mp hw with rfl | hw
        · simpa using hk
        · simpa using hk.trans (hv w hw)
      · rw [List.filter_cons_of_neg (by simpa using hk)]
        exact (ih hitems).trans (List.suffix_cons v items)

omit [DecidableEq K] in
/-- Behind the last item of a page lies the rest. -/
theorem after_getLast {t : Table sch} {start : Option K} {page rest : List V} {v : V}
    (h : t.after start = page ++ rest) (hv : page.getLast? = some v) :
    t.after (some (sch.key v)) = rest := by
  obtain ⟨page, rfl⟩ := List.getLast?_eq_some_iff.mp hv
  have hsorted := t.sorted_after start
  rw [h, List.append_assoc, List.singleton_append] at hsorted
  obtain ⟨-, htail, hcross⟩ := List.pairwise_append.mp hsorted
  have hmem : v ∈ t.after start := by simp [h]
  rw [← filter_after hmem, h, List.append_assoc, List.singleton_append, List.filter_append,
    List.filter_cons_of_neg (by simp), List.filter_eq_nil_iff.mpr, List.nil_append,
    List.filter_eq_self.mpr]
  · intro w hw
    simpa using (List.pairwise_cons.mp htail).1 w hw
  · intro w hw
    simpa using (hcross w hw v List.mem_cons_self).le

end Table

/-- The operations of a table. -/
inductive Op (K V U : Type) where
  | getItem (k : K)
  | scan
  | putItem (v : V)
  /-- Store the item only if there is no item with its key. -/
  | putIfAbsent (v : V)
  | updateItem (k : K) (u : U)
  | deleteItem (k : K)

/-- What an operation replies. -/
@[reducible] def Op.Reply : Op K V U → Type
  | .getItem _ => Option V
  | .scan => List V
  | .putItem _ => Unit
  | .putIfAbsent _ => Unit
  | .updateItem _ _ => Unit
  | .deleteItem _ => Option V

/-- The item that an operation stores as a whole. -/
def Op.stored? : Op K V U → Option V
  | .putItem v => some v
  | .putIfAbsent v => some v
  | _ => none

/-- The key of the item that an operation updates. -/
def Op.updated? : Op K V U → Option K
  | .updateItem k _ => some k
  | _ => none

/-- Why an operation fails: its condition does not hold, or the service reports an error. -/
inductive Fault where
  | conditionalCheckFailed
  | service (code : String)
  deriving DecidableEq

/-- The items a scan has collected, and the key of the last one evaluated. -/
structure Flight (K V : Type) where
  items : List V
  start : Option K

/-- What the table decides: the operation completes, a scan reads one more page of `n + 1` items, or
the operation fails and changes nothing. -/
inductive Choice where
  | ok
  | page (n : ℕ)
  | fault (code : String)
  deriving DecidableEq

variable [DecidableEq K]

/-- An operation that completes. -/
def complete : (op : Op K V U) → Flight K V → Table sch → Table sch × Except Fault op.Reply
  | .getItem k, _, t => (t, .ok (t.get? k))
  | .scan, flight, t => (t, .ok (flight.items ++ t.after flight.start))
  | .putItem v, _, t => (t.put v, .ok ())
  | .putIfAbsent v, _, t =>
    if (t.get? (sch.key v)).isSome then (t, .error .conditionalCheckFailed) else (t.put v, .ok ())
  | .updateItem k u, _, t => (t.upsert k u, .ok ())
  | .deleteItem k, _, t => (t.delete k, .ok (t.get? k))

/-- The next page of a scan. -/
def nextPage (t : Table sch) (flight : Flight K V) (n : ℕ) : Flight K V :=
  let page := (t.after flight.start).take (n + 1)
  { items := flight.items ++ page
    start := (page.getLast?.map sch.key).or flight.start }

/-- One step of an operation in the table. -/
def perform (op : Op K V U) (flight : Flight K V) (choice : Choice) (t : Table sch) :
    Table sch × (Flight K V ⊕ Except Fault op.Reply) :=
  match choice, op with
  | .ok, op => ((complete op flight t).1, .inr (complete op flight t).2)
  | .page n, .scan => (t, .inl (nextPage t flight n))
  | .page _, _ => (t, .inl flight)
  | .fault code, _ => (t, .inr (.error (.service code)))

/-- A table as an asynchronous service. -/
@[reducible] def service (sch : Schema K V U) : Async.Service (Table sch) where
  Op := Op K V U
  Reply := Op.Reply
  Fault := Fault
  Flight := Flight K V
  Choice := Choice
  launch := ⟨[], none⟩
  perform := perform

/-- The table after one step of an operation: only writes that complete change it. -/
theorem fst_perform_ok (op : Op K V U) (flight : Flight K V) (t : Table sch) :
    (perform op flight .ok t).1 = (complete op flight t).1 := rfl

@[simp] theorem fst_perform_page (op : Op K V U) (flight : Flight K V) (n : ℕ) (t : Table sch) :
    (perform op flight (.page n) t).1 = t := by
  cases op <;> rfl

@[simp] theorem fst_perform_fault (op : Op K V U) (flight : Flight K V) (code : String)
    (t : Table sch) : (perform op flight (.fault code) t).1 = t := rfl

@[simp] theorem service_perform (op : Op K V U) (flight : Flight K V) (choice : Choice)
    (t : Table sch) : (service sch).perform op flight choice t = perform op flight choice t := rfl

/-- A reply to `getItem` has the key asked for. -/
def Honest (sch : Schema K V U) : (op : Op K V U) → Except Fault op.Reply → Prop
  | .getItem k, reply => ∀ v, reply = .ok (some v) → sch.key v = k
  | _, _ => True

theorem honest_perform (op : Op K V U) (flight : Flight K V) (choice : Choice) (t : Table sch)
    (reply : Except Fault op.Reply) (h : (perform op flight choice t).2 = .inr reply) :
    Honest sch op reply := by
  cases op with
  | getItem k =>
    rintro v rfl
    cases choice with
    | ok => exact (Table.get?_eq_some_iff.mp (Except.ok.inj (Sum.inr.inj h))).2
    | page n => cases h
    | fault code => cases h
  | _ => trivial

variable {μ ε α : Type}

/-- The result of a program that nothing interferes with: every operation completes at once. -/
def runAlone : Async.Prog (service sch) μ ε α → μ → Table sch → Except ε α
  | .done a, _, _ => .ok a
  | .raise e, _, _ => .error e
  | .read k, m, t => runAlone (k m) m t
  | .write m k, _, t => runAlone k m t
  | .await op k, m, t =>
    let (t, reply) := complete op ⟨[], none⟩ t
    runAlone (k reply) m t

@[simp] theorem runAlone_done (a : α) (m : μ) (t : Table sch) :
    runAlone (.done a : Async.Prog (service sch) μ ε α) m t = .ok a := rfl

@[simp] theorem runAlone_raise (e : ε) (m : μ) (t : Table sch) :
    runAlone (.raise e : Async.Prog (service sch) μ ε α) m t = .error e := rfl

@[simp] theorem runAlone_getItem (k : K)
    (f : Except Fault (Option V) → Async.Prog (service sch) μ ε α) (m : μ) (t : Table sch) :
    runAlone (.await (.getItem k : Op K V U) f : Async.Prog (service sch) μ ε α) m t =
      runAlone (f (.ok (t.get? k))) m t := rfl

/-- The result of a program that nothing interferes with, the memory and the table it leaves. -/
def execAlone : Async.Prog (service sch) μ ε α → μ → Table sch → Except ε α × μ × Table sch
  | .done a, m, t => (.ok a, m, t)
  | .raise e, m, t => (.error e, m, t)
  | .read k, m, t => execAlone (k m) m t
  | .write m k, _, t => execAlone k m t
  | .await op k, m, t => execAlone (k (complete op ⟨[], none⟩ t).2) m (complete op ⟨[], none⟩ t).1

@[simp] theorem execAlone_done (a : α) (m : μ) (t : Table sch) :
    execAlone (.done a : Async.Prog (service sch) μ ε α) m t = (.ok a, m, t) := rfl

@[simp] theorem execAlone_raise (e : ε) (m : μ) (t : Table sch) :
    execAlone (.raise e : Async.Prog (service sch) μ ε α) m t = (.error e, m, t) := rfl

@[simp] theorem execAlone_getItem (k : K)
    (f : Except Fault (Option V) → Async.Prog (service sch) μ ε α) (m : μ) (t : Table sch) :
    execAlone (.await (.getItem k : Op K V U) f : Async.Prog (service sch) μ ε α) m t =
      execAlone (f (.ok (t.get? k))) m t := rfl

@[simp] theorem execAlone_read (k : μ → Async.Prog (service sch) μ ε α) (m : μ) (t : Table sch) :
    execAlone (.read k) m t = execAlone (k m) m t := rfl

@[simp] theorem execAlone_write (m m' : μ) (k : Async.Prog (service sch) μ ε α) (t : Table sch) :
    execAlone (.write m' k) m t = execAlone k m' t := rfl

@[simp] theorem execAlone_scan (f : Except Fault (List V) → Async.Prog (service sch) μ ε α) (m : μ)
    (t : Table sch) :
    execAlone (.await (.scan : Op K V U) f : Async.Prog (service sch) μ ε α) m t =
      execAlone (f (.ok t.items)) m t := rfl

@[simp] theorem execAlone_putItem (v : V) (f : Except Fault Unit → Async.Prog (service sch) μ ε α)
    (m : μ) (t : Table sch) :
    execAlone (.await (.putItem v : Op K V U) f : Async.Prog (service sch) μ ε α) m t =
      execAlone (f (.ok ())) m (t.put v) := rfl

@[simp] theorem execAlone_updateItem (k : K) (u : U)
    (f : Except Fault Unit → Async.Prog (service sch) μ ε α) (m : μ) (t : Table sch) :
    execAlone (.await (.updateItem k u : Op K V U) f : Async.Prog (service sch) μ ε α) m t =
      execAlone (f (.ok ())) m (t.upsert k u) := rfl

/-- Sequencing: what follows starts from the memory and the table that the first part leaves. -/
theorem execAlone_bind {β : Type} (p : Async.Prog (service sch) μ ε α)
    (f : α → Async.Prog (service sch) μ ε β) (m : μ) (t : Table sch) :
    execAlone (p.bind f) m t =
      match execAlone p m t with
      | (.ok a, m', t') => execAlone (f a) m' t'
      | (.error e, m', t') => (.error e, m', t') := by
  induction p generalizing m t with
  | done a => rfl
  | raise e => rfl
  | read k ih => exact ih m m t
  | write m' k ih => exact ih m' t
  | await op k ih => exact ih _ m _

/-- Exception handling: the handler starts from what the program leaves. -/
theorem execAlone_tryCatch (p : Async.Prog (service sch) μ ε α)
    (h : ε → Async.Prog (service sch) μ ε α) (m : μ) (t : Table sch) :
    execAlone (p.tryCatch h) m t =
      match execAlone p m t with
      | (.ok a, m', t') => (.ok a, m', t')
      | (.error e, m', t') => execAlone (h e) m' t' := by
  induction p generalizing m t with
  | done a => rfl
  | raise e => rfl
  | read k ih => exact ih m m t
  | write m' k ih => exact ih m' t
  | await op k ih => exact ih _ m _

/-- The result is what the program returns if nothing interferes with it. -/
theorem fst_execAlone (p : Async.Prog (service sch) μ ε α) (m : μ) (t : Table sch) :
    (execAlone p m t).1 = runAlone p m t := by
  induction p generalizing m t with
  | done a => rfl
  | raise e => rfl
  | read k ih => exact ih m m t
  | write m' k ih => exact ih m' t
  | await op k ih => exact ih _ m _

/-! ### Operations that fail -/

/-- Whether an operation writes. -/
def Op.isWrite : Op K V U → Bool
  | .getItem _ => false
  | .scan => false
  | _ => true

/-- What decides whether an operation fails, and with which code. -/
abbrev Oracle (σ K V U : Type) := σ → Op K V U → Option String × σ

/-- What a program leaves. -/
structure Outcome (sch : Schema K V U) (σ μ ε α : Type) where
  result : Except ε α
  rest : σ
  memory : μ
  table : Table sch

variable {σ : Type}

/-- Run a program that nothing interferes with, where the oracle decides which operations fail. -/
def execUnder (oracle : Oracle σ K V U) :
    Async.Prog (service sch) μ ε α → σ → μ → Table sch → Outcome sch σ μ ε α
  | .done a, rest, memory, table => { result := .ok a, rest, memory, table }
  | .raise e, rest, memory, table => { result := .error e, rest, memory, table }
  | .read k, s, m, t => execUnder oracle (k m) s m t
  | .write m k, s, _, t => execUnder oracle k s m t
  | .await op k, s, m, t =>
    match oracle s op with
    | (some code, s) => execUnder oracle (k (.error (.service code))) s m t
    | (none, s) =>
      execUnder oracle (k (complete op ⟨[], none⟩ t).2) s m (complete op ⟨[], none⟩ t).1

/-- With a budget only so many writes complete, and every write after them fails. -/
def withBudget (code : String) : Oracle (Option ℕ) K V U := fun budget op =>
  if op.isWrite ∧ budget = some 0 then (some code, budget)
  else (none, if op.isWrite then budget.map Nat.pred else budget)

/-- The outcomes of the operations one after another; those behind the end of the list complete. -/
def byOutcomes : Oracle (List (Option String)) K V U
  | [], _ => (none, [])
  | outcome :: rest, _ => (outcome, rest)

/-- What the outcomes let complete: everything up to the first failure. -/
def untilFault {β : Type} : List (Option String) → List β → List β
  | _, [] => []
  | [], xs => xs
  | none :: outcomes, x :: xs => x :: untilFault outcomes xs
  | some _ :: _, _ :: _ => []

@[simp] theorem untilFault_nil {β : Type} (outcomes : List (Option String)) :
    untilFault outcomes ([] : List β) = [] := by
  match outcomes with
  | [] => rfl
  | none :: _ => rfl
  | some _ :: _ => rfl

@[simp] theorem untilFault_fault {β : Type} (code : String) (outcomes : List (Option String))
    (xs : List β) : untilFault (some code :: outcomes) xs = [] := by
  match xs with
  | [] => rfl
  | _ :: _ => rfl

theorem untilFault_cons {β : Type} {outcomes : List (Option String)}
    (h : outcomes.head?.join = none) (x : β) (xs : List β) :
    untilFault outcomes (x :: xs) = x :: untilFault outcomes.tail xs := by
  match outcomes with
  | [] => cases xs <;> rfl
  | none :: _ => rfl
  | some _ :: _ => exact absurd h nofun

theorem exists_of_head?_join {outcomes : List (Option String)} {code : String}
    (h : outcomes.head?.join = some code) : ∃ rest, outcomes = some code :: rest := by
  match outcomes with
  | [] => exact absurd h nofun
  | none :: _ => exact absurd h nofun
  | some c :: rest =>
    obtain rfl := Option.some.inj h
    exact ⟨rest, rfl⟩

theorem untilFault_sublist {β : Type} (outcomes : List (Option String)) (xs : List β) :
    (untilFault outcomes xs).Sublist xs := by
  induction xs generalizing outcomes with
  | nil => rw [untilFault_nil]
  | cons x xs ih =>
    match hhead : outcomes.head?.join with
    | none =>
      rw [untilFault_cons hhead]
      exact (ih outcomes.tail).cons_cons x
    | some code =>
      obtain ⟨rest, rfl⟩ := exists_of_head?_join hhead
      rw [untilFault_fault]
      exact List.nil_sublist _

/-- The oracle that also lists the writes that complete. -/
def recording (oracle : Oracle σ K V U) : Oracle (σ × List (Op K V U)) K V U := fun s op =>
  match oracle s.1 op with
  | (none, rest) => (none, (rest, if op.isWrite then s.2 ++ [op] else s.2))
  | (some code, rest) => (some code, (rest, s.2))

section execUnder

variable {oracle : Oracle σ K V U} {s : σ} {m : μ} {t : Table sch}

@[simp] theorem execUnder_done (a : α) :
    execUnder oracle (.done a : Async.Prog (service sch) μ ε α) s m t =
      { result := .ok a, rest := s, memory := m, table := t } := rfl

@[simp] theorem execUnder_raise (e : ε) :
    execUnder oracle (.raise e : Async.Prog (service sch) μ ε α) s m t =
      { result := .error e, rest := s, memory := m, table := t } := rfl

@[simp] theorem execUnder_read (k : μ → Async.Prog (service sch) μ ε α) :
    execUnder oracle (.read k) s m t = execUnder oracle (k m) s m t := rfl

@[simp] theorem execUnder_write (m' : μ) (k : Async.Prog (service sch) μ ε α) :
    execUnder oracle (.write m' k) s m t = execUnder oracle k s m' t := rfl

/-- An operation that fails. -/
theorem execUnder_fault {op : Op K V U} {code : String} {s' : σ} (h : oracle s op = (some code, s'))
    (f : Except Fault op.Reply → Async.Prog (service sch) μ ε α) :
    execUnder oracle (.await op f : Async.Prog (service sch) μ ε α) s m t =
      execUnder oracle (f (.error (.service code))) s' m t := by
  rw [execUnder, h]

/-- An operation that completes. -/
theorem execUnder_complete {op : Op K V U} {s' : σ} (h : oracle s op = (none, s'))
    (f : Except Fault op.Reply → Async.Prog (service sch) μ ε α) :
    execUnder oracle (.await op f : Async.Prog (service sch) μ ε α) s m t =
      execUnder oracle (f (complete op ⟨[], none⟩ t).2) s' m (complete op ⟨[], none⟩ t).1 := by
  rw [execUnder, h]

/-- Sequencing. -/
theorem execUnder_bind {β : Type} (p : Async.Prog (service sch) μ ε α)
    (f : α → Async.Prog (service sch) μ ε β) (s : σ) (m : μ) (t : Table sch) :
    execUnder oracle (p.bind f) s m t =
      match execUnder oracle p s m t with
      | { result := .ok a, rest, memory, table } => execUnder oracle (f a) rest memory table
      | { result := .error e, rest, memory, table } =>
        { result := .error e, rest, memory, table } := by
  induction p generalizing s m t with
  | done a => rfl
  | raise e => rfl
  | read k ih => exact ih m s m t
  | write m' k ih => exact ih s m' t
  | await op k ih =>
    simp only [Async.Prog.bind_await, execUnder]
    split <;> exact ih _ _ m _

/-- Exception handling. -/
theorem execUnder_tryCatch (p : Async.Prog (service sch) μ ε α)
    (h : ε → Async.Prog (service sch) μ ε α) (s : σ) (m : μ) (t : Table sch) :
    execUnder oracle (p.tryCatch h) s m t =
      match execUnder oracle p s m t with
      | { result := .ok a, rest, memory, table } => { result := .ok a, rest, memory, table }
      | { result := .error e, rest, memory, table } => execUnder oracle (h e) rest memory table := by
  induction p generalizing s m t with
  | done a => rfl
  | raise e => rfl
  | read k ih => exact ih m s m t
  | write m' k ih => exact ih s m' t
  | await op k ih =>
    simp only [Async.Prog.tryCatch_await, execUnder]
    split <;> exact ih _ _ m _

/-- Other exceptions change the result alone. -/
theorem execUnder_mapError {ε' : Type} (p : Async.Prog (service sch) μ ε α) (f : ε → ε')
    (s : σ) (m : μ) (t : Table sch) :
    execUnder oracle (p.mapError f) s m t =
      { execUnder oracle p s m t with result := (execUnder oracle p s m t).result.mapError f } := by
  induction p generalizing s m t with
  | done a => rfl
  | raise e => rfl
  | read k ih => exact ih m s m t
  | write m' k ih => exact ih s m' t
  | await op k ih =>
    simp only [Async.Prog.mapError, execUnder]
    split <;> exact ih _ _ m _

/-- A program that returns leaves the table `t'`, and one that raises leaves `t`. -/
def Outcome.Leaves (o : Outcome sch σ μ ε α) (t t' : Table sch) : Prop :=
  match o.result with
  | .ok _ => o.table = t'
  | .error _ => o.table = t

variable {t' : Table sch}

/-- What comes after a program that leaves the table alone decides. -/
theorem leaves_bind {β : Type} {p : Async.Prog (service sch) μ ε α}
    {f : α → Async.Prog (service sch) μ ε β} (hp : (execUnder oracle p s m t).Leaves t t)
    (hf : ∀ a s m, (execUnder oracle (f a) s m t).Leaves t t') :
    (execUnder oracle (p.bind f) s m t).Leaves t t' := by
  rw [execUnder_bind]
  match ho : execUnder oracle p s m t with
  | { result := .ok a, rest, memory, table } =>
    rw [ho] at hp
    obtain rfl : table = t := hp
    exact hf a rest memory
  | { result := .error e, rest, memory, table } =>
    rw [ho] at hp
    exact hp

/-- What comes after a program changes nothing if it returns and leaves the table alone. -/
theorem leaves_bind_total {β : Type} {p : Async.Prog (service sch) μ ε α}
    {f : α → Async.Prog (service sch) μ ε β} (hp : (execUnder oracle p s m t).Leaves t t')
    (hf : ∀ a s m, ∃ b, (execUnder oracle (f a) s m t').result = .ok b ∧
      (execUnder oracle (f a) s m t').table = t') :
    (execUnder oracle (p.bind f) s m t).Leaves t t' := by
  rw [execUnder_bind]
  match ho : execUnder oracle p s m t with
  | { result := .ok a, rest, memory, table } =>
    rw [ho] at hp
    obtain rfl : table = t' := hp
    obtain ⟨b, hresult, htable⟩ := hf a rest memory
    rw [Outcome.Leaves, hresult]
    exact htable
  | { result := .error e, rest, memory, table } =>
    rw [ho] at hp
    exact hp

theorem leaves_mapError {ε' : Type} {p : Async.Prog (service sch) μ ε α} {g : ε → ε'}
    (hp : (execUnder oracle p s m t).Leaves t t') :
    (execUnder oracle (p.mapError g) s m t).Leaves t t' := by
  rw [execUnder_mapError]
  match ho : execUnder oracle p s m t with
  | { result := .ok a, rest, memory, table } =>
    rw [ho] at hp
    exact hp
  | { result := .error e, rest, memory, table } =>
    rw [ho] at hp
    exact hp

end execUnder

section byOutcomes

variable {m : μ} {t : Table sch} {outcomes : List (Option String)} {writes : List (Op K V U)}

omit [DecidableEq K] in
/-- The next operation fails. -/
theorem recording_fault (op : Op K V U) (code : String) :
    recording byOutcomes (some code :: outcomes, writes) op = (some code, (outcomes, writes)) := rfl

omit [DecidableEq K] in
/-- The next operation completes, if it does not fail. -/
theorem recording_complete (h : outcomes.head?.join = none) (op : Op K V U) :
    recording byOutcomes (outcomes, writes) op =
      (none, (outcomes.tail, if op.isWrite then writes ++ [op] else writes)) := by
  match outcomes with
  | [] => rfl
  | none :: _ => rfl
  | some code :: _ => exact absurd h nofun

end byOutcomes

section withBudget

variable {code : String} {budget : Option ℕ} {m : μ} {t : Table sch}

/-- A scan is no write. -/
@[simp] theorem execWithin_scan (f : Except Fault (List V) → Async.Prog (service sch) μ ε α) :
    execUnder (withBudget code) (.await (.scan : Op K V U) f : Async.Prog (service sch) μ ε α)
      budget m t = execUnder (withBudget code) (f (.ok t.items)) budget m t := by
  have hread : withBudget code budget (.scan : Op K V U) = (none, budget) := by
    simp [withBudget, Op.isWrite]
  rw [execUnder_complete hread]
  rfl

/-- A write behind the budget fails. -/
theorem execWithin_zero {op : Op K V U} (hop : op.isWrite)
    (f : Except Fault op.Reply → Async.Prog (service sch) μ ε α) :
    execUnder (withBudget code) (.await op f : Async.Prog (service sch) μ ε α) (some 0) m t =
      execUnder (withBudget code) (f (.error (.service code))) (some 0) m t :=
  execUnder_fault (if_pos ⟨hop, rfl⟩) f

/-- A write in the budget completes. -/
theorem execWithin_complete {op : Op K V U} (hop : op.isWrite) (hbudget : budget ≠ some 0)
    (f : Except Fault op.Reply → Async.Prog (service sch) μ ε α) :
    execUnder (withBudget code) (.await op f : Async.Prog (service sch) μ ε α) budget m t =
      execUnder (withBudget code) (f (complete op ⟨[], none⟩ t).2) (budget.map Nat.pred) m
        (complete op ⟨[], none⟩ t).1 :=
  execUnder_complete (by rw [withBudget, if_neg fun h => hbudget h.2, if_pos hop]) f

end withBudget

end KeyedTable
