import Mathlib.Data.List.Sort
import VoiceAgentPlatform.Lib.ItemQuery
import VoiceAgentPlatform.Lib.KeyedTable

/-!
# The call-history table as the administrator reads it

Rows with any attributes, the table that is keyed by call, and the index `caller-started-index` of
the deployment template, whose projection type is `KEYS_ONLY`.

* `AdminRow`: a row; its keys are typed by the template.
* `IndexEntry`: what the index carries of a row that has both keys of the index.
* `Table.index`: the entries, newest first.
-/

namespace History

open KeyedTable

/-- A row of the history table with all its attributes. -/
structure AdminRow where
  callId : String
  caller : Option String
  startedAt : Option ℤ
  attributes : PyDict
  notMem_keys : ∀ e ∈ attributes, e.1 ∉ ["call_id", "caller", "started_at"]

/-- An item with the three keys and other attributes. -/
def keyedItem (callId : String) (caller : Option String) (startedAt : Option ℤ)
    (attributes : PyDict) : PyDict :=
  ("call_id", .str callId) :: (caller.toList.map fun c => ("caller", .str c)) ++
    (startedAt.toList.map fun s => ("started_at", .decimal s)) ++ attributes

/-- The item of a row. -/
def AdminRow.item (row : AdminRow) : PyDict :=
  keyedItem row.callId row.caller row.startedAt row.attributes

/-- The history table, which is only read here. `slot` is the table's own order. -/
def adminSchema (slot : String ↪ ℕ) : Schema String AdminRow Empty where
  key := AdminRow.callId
  slot
  update u := u.elim
  key_update u := u.elim

/-- What the index carries of a row: its own keys and the key of the table. -/
@[ext] structure IndexEntry where
  callId : String
  caller : String
  startedAt : ℤ

/-- The item of an entry. -/
def IndexEntry.item (entry : IndexEntry) : PyDict :=
  keyedItem entry.callId (some entry.caller) (some entry.startedAt) []

/-- The entry of a row; a row that lacks a key of the index has none. -/
def AdminRow.indexEntry (row : AdminRow) : Option IndexEntry :=
  match row.caller, row.startedAt with
  | some caller, some startedAt => some { callId := row.callId, caller, startedAt }
  | _, _ => none

variable {slot : String ↪ ℕ}

/-- The order of the index read backwards: newest first. `slot` orders calls that began together. -/
def NewerEntry (slot : String ↪ ℕ) (v w : IndexEntry) : Prop :=
  w.startedAt < v.startedAt ∨ w.startedAt = v.startedAt ∧ slot v.callId < slot w.callId

instance : DecidableRel (NewerEntry slot) := fun v w =>
  inferInstanceAs (Decidable
    (w.startedAt < v.startedAt ∨ w.startedAt = v.startedAt ∧ slot v.callId < slot w.callId))

/-- The entries of a caller that a query evaluates, newest first. -/
def queryEntries (t : Table (adminSchema slot)) (caller : String)
    (condition : ItemQuery.SortCondition) : List IndexEntry :=
  ((t.items.filterMap AdminRow.indexEntry).filter fun entry =>
    entry.caller = caller && condition.holds entry.startedAt).mergeSort fun v w =>
      w.startedAt < v.startedAt ∨ w.startedAt = v.startedAt ∧ slot v.callId ≤ slot w.callId

theorem indexEntry_eq_some {row : AdminRow} {entry : IndexEntry} :
    row.indexEntry = some entry ↔ row.callId = entry.callId ∧ row.caller = some entry.caller ∧
      row.startedAt = some entry.startedAt := by
  unfold AdminRow.indexEntry
  cases row.caller <;> cases row.startedAt <;> simp [IndexEntry.ext_iff]

theorem NewerEntry.asymm {v w : IndexEntry} (h : NewerEntry slot v w) : ¬ NewerEntry slot w v := by
  unfold NewerEntry at *
  omega

theorem mem_queryEntries {t : Table (adminSchema slot)} {caller : String}
    {condition : ItemQuery.SortCondition} {entry : IndexEntry} :
    entry ∈ queryEntries t caller condition ↔
      (∃ row ∈ t, row.indexEntry = some entry) ∧ entry.caller = caller ∧
        condition.holds entry.startedAt = true := by
  simp [queryEntries, Table.mem_def]

/-- No two entries of a query are of one call. -/
theorem queryEntries_distinct (t : Table (adminSchema slot)) (caller : String)
    (condition : ItemQuery.SortCondition) :
    (queryEntries t caller condition).Pairwise fun v w => slot v.callId ≠ slot w.callId := by
  have hitems : t.items.Pairwise fun v w => slot v.callId < slot w.callId := t.sorted
  have hdistinct : (t.items.filterMap AdminRow.indexEntry).Pairwise
      fun v w => slot v.callId ≠ slot w.callId := by
    refine List.Pairwise.filterMap _ (fun row row' hlt v hv w hw => ?_) hitems
    rw [← (indexEntry_eq_some.mp hv).1, ← (indexEntry_eq_some.mp hw).1]
    exact ne_of_lt hlt
  exact ((List.mergeSort_perm _ _).pairwise_iff fun h => Ne.symm h).mpr (hdistinct.filter _)

/-- The entries of a query are in the order of the index. -/
theorem queryEntries_sorted (t : Table (adminSchema slot)) (caller : String)
    (condition : ItemQuery.SortCondition) :
    (queryEntries t caller condition).Pairwise (NewerEntry slot) := by
  have hsorted : (queryEntries t caller condition).Pairwise fun v w =>
      decide (w.startedAt < v.startedAt ∨
        w.startedAt = v.startedAt ∧ slot v.callId ≤ slot w.callId) = true := by
    refine List.pairwise_mergeSort (fun a b c hab hbc => ?_) (fun a b => ?_) _
    · simp only [decide_eq_true_eq] at hab hbc ⊢
      omega
    · simp only [Bool.or_eq_true, decide_eq_true_eq]
      omega
  refine (hsorted.and (queryEntries_distinct t caller condition)).imp fun ⟨hle, hne⟩ => ?_
  simp only [decide_eq_true_eq] at hle
  unfold NewerEntry
  omega

end History
