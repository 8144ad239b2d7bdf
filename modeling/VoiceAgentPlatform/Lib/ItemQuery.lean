import Mathlib.Algebra.Order.Ring.Rat
import Mathlib.Data.Rat.Cast.Order
import VoiceAgentPlatform.Lib.PyVal

/-!
# Reading the items of a store

The expressions with which a request to a document store reads items: filters that compare attributes
with values, projections, and conditions on the sort key of an index. Items are dictionaries, in
which every number is a decimal.

* `Condition.holds`: a comparison; it fails if the attribute is missing or of another type.
* `project`: the attributes that a projection names; `get_project` says that it changes none of them.
* `SortCondition`: the condition on a sort key; a range whose bounds are exchanged is refused.
* `Unprojected`: what an index does with a request for attributes that it does not carry.
-/

namespace ItemQuery

/-- A comparison of an attribute with a value. -/
inductive Comparator where
  | eq
  | ge
  | le
  deriving DecidableEq

/-- A condition of a filter. -/
structure Condition where
  name : String
  comparator : Comparator
  value : PyVal

/-- The comparison of what is stored with a value, both of them texts or numbers. -/
def Comparator.compare : Comparator → PyVal → PyVal → Bool
  | eq, .str s, .str t => s = t
  | ge, .str s, .str t => t ≤ s
  | le, .str s, .str t => s ≤ t
  | eq, .decimal q, .int n => q = n
  | ge, .decimal q, .int n => (n : ℚ) ≤ q
  | le, .decimal q, .int n => q ≤ (n : ℚ)
  | _, _, _ => false

/-- Whether an item meets a condition. -/
def Condition.holds (c : Condition) (item : PyDict) : Bool :=
  match PyDict.get? item c.name with
  | none => false
  | some stored => c.comparator.compare stored c.value

/-- Whether an item passes a filter: `c AND c' AND …`. -/
def passes (filter : List Condition) (item : PyDict) : Bool := filter.all fun c => c.holds item

/-- The attributes of an item that a projection names. -/
def project (names : List String) (item : PyDict) : PyDict := item.filter fun e => e.1 ∈ names

/-- Projecting an item changes none of the attributes that are named. -/
theorem get_project {names : List String} {name : String} (h : name ∈ names) (item : PyDict) :
    PyDict.get (project names item) name = PyDict.get item name := by
  have hget : PyDict.get? (project names item) name = PyDict.get? item name := by
    rw [PyDict.get?, PyDict.get?, project, List.find?_filter]
    congr 2
    funext e
    by_cases he : e.1 = name
    · simp [he, h]
    · simp [he]
  rw [PyDict.get, PyDict.get, hget]

/-- The condition on the sort key of a query. -/
inductive SortCondition where
  | all
  | ge (n : ℤ)
  | le (n : ℤ)
  | between (m n : ℤ)
  deriving DecidableEq

/-- Whether a sort key meets a condition. -/
def SortCondition.holds : SortCondition → ℤ → Bool
  | all, _ => true
  | ge n, k => n ≤ k
  | le n, k => k ≤ n
  | between m n, k => m ≤ k ∧ k ≤ n

/-- A range is refused if its upper bound is less than its lower bound. -/
def SortCondition.refused : SortCondition → Bool
  | between m n => n < m
  | _ => false

/-- What an index does with a request for attributes that it does not carry: it refuses the request,
or it answers with items that lack them. -/
inductive Unprojected where
  | refused
  | missing
  deriving DecidableEq

/-- Whether an index that carries `carried` answers a request for `names`. -/
def Unprojected.answers (mode : Unprojected) (carried names : List String) : Bool :=
  mode = missing || names.all fun name => name ∈ carried

end ItemQuery
