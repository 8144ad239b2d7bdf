import Mathlib.Data.List.Nodup
import VoiceAgentPlatform.Lib.PyVal

/-!
# Updating a dictionary with any value

`d.update(value)` and `dict(value)` of Python, where the value comes from a JSON text: an object, or a
sequence whose elements are pairs. The keys of pairs need not be strings.

* `PyMap`: a dictionary by the kind of its keys.
* `PyMap.updateWith`: `m.update(value)`, which raises for most values that are not objects.
* `pairsOf?`: the entries of a sequence of pairs with string keys.
* `updateWith_eq_ok_iff`: the values that leave a dictionary of strings.
-/

namespace PyDict

/-- Looking up after an update: of a key that is given twice the last value counts. -/
theorem get?_update (d other : PyDict) (key : String) :
    get? (d.update other) key = (get? other.reverse key).or (get? d key) := by
  induction other generalizing d with
  | nil => rfl
  | cons e other ih =>
    change get? ((d.set e.1 e.2).update other) key = _
    rw [ih, get?_set, List.reverse_cons, get?_append, get?_cons]
    cases get? other.reverse key with
    | some v => rfl
    | none =>
      rw [Option.none_or, Option.none_or]
      split_ifs
      · rfl
      · rfl

/-- An entry is found under its key. -/
theorem get?_of_mem {d : PyDict} (h : (d.map Prod.fst).Nodup) {e : String × PyVal} (he : e ∈ d) :
    get? d e.1 = some e.2 := by
  induction d with
  | nil => cases he
  | cons e' d ih =>
    rw [List.map_cons, List.nodup_cons] at h
    rw [get?_cons]
    rcases List.mem_cons.mp he with rfl | he
    · rw [if_pos rfl]
    · have hne : e'.1 ≠ e.1 := fun heq => h.1 (heq ▸ List.mem_map_of_mem he)
      rw [if_neg hne, ih h.2 he]

/-- Where no key is given twice, the first value of a key is its last one. -/
theorem get?_reverse {d : PyDict} (h : (d.map Prod.fst).Nodup) (key : String) :
    get? d.reverse key = get? d key := by
  induction d with
  | nil => rfl
  | cons e d ih =>
    obtain ⟨hnotMem, hnodup⟩ := List.nodup_cons.mp h
    rw [List.reverse_cons, get?_append, ih hnodup, get?_cons, get?_cons]
    split_ifs with hkey
    · -- The key is not there twice.
      have hnone : get? d key = none := by
        rw [get?, Option.map_eq_none_iff, List.find?_eq_none]
        intro e' he' hkey'
        have : e'.1 = e.1 := by
          rw [hkey]
          simpa using hkey'
        exact hnotMem (this ▸ List.mem_map_of_mem he')
      rw [hnone]
      rfl
    · cases get? d key with
      | none => rfl
      | some v => rfl

/-- The keys of a dictionary stay distinct. -/
theorem nodup_set {d : PyDict} (h : (d.map Prod.fst).Nodup) (key : String) (value : PyVal) :
    ((d.set key value).map Prod.fst).Nodup := by
  unfold set
  split_ifs with hany
  · rw [List.map_map]
    refine (congrArg List.Nodup (List.map_congr_left fun e _ => ?_)).mpr h
    simp only [Function.comp_apply]
    split_ifs with hkey
    · exact hkey.symm
    · rfl
  · rw [List.map_append, List.nodup_append]
    refine ⟨h, List.nodup_singleton _, ?_⟩
    rintro _ hmem _ hkey rfl
    obtain ⟨e, he, rfl⟩ := List.mem_map.mp hmem
    exact hany (List.any_eq_true.mpr ⟨e, he, by simpa using hkey⟩)

theorem nodup_update {d : PyDict} (h : (d.map Prod.fst).Nodup) (other : PyDict) :
    ((d.update other).map Prod.fst).Nodup := by
  induction other generalizing d with
  | nil => exact h
  | cons e other ih => exact ih (nodup_set h e.1 e.2)

theorem update_append (d other other' : PyDict) :
    d.update (other ++ other') = (d.update other).update other' :=
  List.foldl_append

end PyDict

/-- What an update can raise. -/
inductive UpdateError where
  | typeError
  | valueError
  deriving DecidableEq

/-- A dictionary: the entries whose keys are strings, and those with other keys. -/
structure PyMap where
  fields : PyDict
  others : List (PyVal × PyVal)
  nodup : (fields.map Prod.fst).Nodup

namespace PyMap

/-- The dictionary without entries. -/
def empty : PyMap := ⟨[], [], List.nodup_nil⟩

/-- The number that a key is equal to. -/
def number? : PyVal → Option ℚ
  | .bool b => some (if b then 1 else 0)
  | .int i => some i
  | .float q => some q
  | .decimal q => some q
  | _ => none

/-- Two keys that are no strings are equal. -/
def sameKey (key key' : PyVal) : Bool :=
  match number? key, number? key' with
  | some q, some q' => q = q'
  | none, none => PyVal.same key key'
  | _, _ => false

/-- `m[key] = value`. Lists and dictionaries cannot be keys. -/
def set (m : PyMap) (key value : PyVal) : Except UpdateError PyMap :=
  match key with
  | .str s =>
    .ok { m with fields := m.fields.set s value, nodup := PyDict.nodup_set m.nodup s value }
  | .list _ => .error .typeError
  | .dict _ => .error .typeError
  | key =>
    .ok { m with
      others :=
        if m.others.any fun e => sameKey e.1 key then
          m.others.map fun e => if sameKey e.1 key then (e.1, value) else e
        else m.others ++ [(key, value)] }

/-- The key and the value of an element of a sequence. -/
def pairOf : PyVal → Except UpdateError (PyVal × PyVal)
  | .list [key, value] => .ok (key, value)
  | .list _ => .error .valueError
  | .str s =>
    match s.toList with
    | [c, c'] => .ok (.str c.toString, .str c'.toString)
    | _ => .error .valueError
  | .dict [(key, _), (key', _)] => .ok (.str key, .str key')
  | .dict _ => .error .valueError
  | _ => .error .typeError

/-- Update with the elements of a sequence. -/
def updatePairs (m : PyMap) : List PyVal → Except UpdateError PyMap
  | [] => .ok m
  | x :: xs => do
    let (key, value) ← pairOf x
    let m ← m.set key value
    updatePairs m xs

/-- `m.update(updates)`, for an object. -/
def updateFields (m : PyMap) (updates : PyDict) : PyMap :=
  { m with fields := m.fields.update updates, nodup := PyDict.nodup_update m.nodup updates }

/-- `m.update(value)`. -/
def updateWith (m : PyMap) : PyVal → Except UpdateError PyMap
  | .dict d => .ok (m.updateFields d)
  | .list xs => updatePairs m xs
  | .str s => updatePairs m (s.toList.map fun c => .str c.toString)
  | _ => .error .typeError

/-- `dict(value)`. -/
def ofVal (value : PyVal) : Except UpdateError PyMap := empty.updateWith value

/-- The entry of an element that is a pair with a string as key. -/
def entryOf? (x : PyVal) : Option (String × PyVal) :=
  match pairOf x with
  | .ok (.str key, value) => some (key, value)
  | _ => none

/-- The entries of a sequence, if all its elements are pairs with strings as keys. -/
def entriesOf? : List PyVal → Option PyDict
  | [] => some []
  | x :: xs =>
    match entryOf? x, entriesOf? xs with
    | some e, some es => some (e :: es)
    | _, _ => none

/-- The entries of a value that is a sequence of pairs with strings as keys. -/
def pairsOf? : PyVal → Option PyDict
  | .list xs => entriesOf? xs
  | .str s => entriesOf? (s.toList.map fun c => .str c.toString)
  | _ => none

/-- Keys that are no strings stay. -/
theorem others_set {m m' : PyMap} {key value : PyVal} (h : m.set key value = .ok m') :
    m.others ≠ [] → m'.others ≠ [] := by
  intro hne
  cases key with
  | str s =>
    obtain rfl := Except.ok.inj h
    exact hne
  | list xs => cases h
  | dict d => cases h
  | _ =>
    obtain rfl := Except.ok.inj h
    dsimp only
    split_ifs
    · simpa using hne
    · simp

theorem others_updatePairs {m m' : PyMap} {xs : List PyVal} (h : m.updatePairs xs = .ok m') :
    m.others ≠ [] → m'.others ≠ [] := by
  induction xs generalizing m with
  | nil =>
    obtain rfl := Except.ok.inj h
    exact id
  | cons x xs ih =>
    intro hne
    rw [updatePairs] at h
    cases hpair : pairOf x with
    | error e =>
      rw [hpair] at h
      cases h
    | ok pair =>
      simp only [hpair, bind, Except.bind] at h
      cases hset : m.set pair.1 pair.2 with
      | error e =>
        rw [hset] at h
        cases h
      | ok m'' =>
        rw [hset] at h
        exact ih h (others_set hset hne)

/-- Assigning to a key that is no string adds such a key. -/
theorem others_ne_nil_of_set {m m' : PyMap} {key value : PyVal} (hkey : ∀ s, key ≠ .str s)
    (h : m.set key value = .ok m') : m'.others ≠ [] := by
  cases key with
  | str s => exact absurd rfl (hkey s)
  | list xs => cases h
  | dict d => cases h
  | _ =>
    obtain rfl := Except.ok.inj h
    dsimp only
    split_ifs with hany
    · intro hnil
      rw [List.map_eq_nil_iff.mp hnil] at hany
      cases hany
    · simp

/-- An update with a sequence leaves a dictionary of strings exactly when all its elements are pairs
with strings as keys, which are then assigned in turn. -/
theorem updatePairs_eq_ok_iff {m m' : PyMap} {xs : List PyVal} (hm : m.others = [])
    (hm' : m'.others = []) :
    m.updatePairs xs = .ok m' ↔ ∃ es, entriesOf? xs = some es ∧ m' = m.updateFields es := by
  induction xs generalizing m with
  | nil =>
    simp only [updatePairs, entriesOf?, Except.ok.injEq, Option.some.injEq, exists_eq_left']
    exact eq_comm
  | cons x xs ih =>
    rw [updatePairs, entriesOf?, entryOf?]
    cases hpair : pairOf x with
    | error e => simp [bind, Except.bind]
    | ok pair =>
      obtain ⟨key, value⟩ := pair
      simp only [bind, Except.bind]
      by_cases hkey : ∃ s, key = .str s
      · obtain ⟨s, rfl⟩ := hkey
        have hset : m.set (.str s) value = .ok (m.updateFields [(s, value)]) := rfl
        simp only [hset]
        rw [ih (by exact hm)]
        cases entriesOf? xs with
        | none => simp
        | some es =>
          simp only [Option.some.injEq, exists_eq_left']
          rfl
      · push Not at hkey
        -- The key stays, so the result has other keys than strings.
        have hnone : ¬ ∃ es, (match (match (Except.ok (key, value) : Except UpdateError _) with
            | .ok (.str key, value) => some (key, value)
            | _ => none), entriesOf? xs with
            | some e, some es => some (e :: es)
            | _, _ => none) = some es ∧ m' = m.updateFields es := by
          rintro ⟨es, hes, -⟩
          cases key with
          | str s => exact hkey s rfl
          | _ => cases hes
        refine iff_of_false (fun h => ?_) hnone
        cases hset : m.set key value with
        | error e =>
          rw [hset] at h
          cases h
        | ok m'' =>
          rw [hset] at h
          exact others_updatePairs h (others_ne_nil_of_set hkey hset) hm'

/-- An update with a value that is no object leaves a dictionary of strings exactly when the value is
a sequence of pairs with strings as keys. -/
theorem updateWith_eq_ok_iff {m m' : PyMap} {value : PyVal} (hvalue : ∀ d, value ≠ .dict d)
    (hm : m.others = []) (hm' : m'.others = []) :
    m.updateWith value = .ok m' ↔ ∃ es, pairsOf? value = some es ∧ m' = m.updateFields es := by
  cases value with
  | dict d => exact absurd rfl (hvalue d)
  | list xs => exact updatePairs_eq_ok_iff hm hm'
  | str s => exact updatePairs_eq_ok_iff hm hm'
  | _ => simp [updateWith, pairsOf?]

/-! ### A dictionary as its readers see it -/

/-- The values of the strings, and the entries with other keys. -/
abbrev View := (String → Option PyVal) × List (PyVal × PyVal)

/-- A dictionary without the order of its fields. -/
def view (m : PyMap) : View := (PyDict.get? m.fields, m.others)

/-- What a reader sees of `d` with a dictionary over it. -/
def View.over (d : PyDict) (v : View) : View := (fun key => (v.1 key).or (PyDict.get? d key), v.2)

/-- Laying a dictionary over one of strings. -/
def overlay (m m' : PyMap) : PyMap :=
  { m.updateFields m'.fields with others := m.others ++ m'.others }

theorem view_overlay {m : PyMap} (hm : m.others = []) (m' : PyMap) :
    (m.overlay m').view = View.over m.fields m'.view := by
  refine Prod.ext (funext fun key => ?_) ?_
  · show PyDict.get? (m.fields.update m'.fields) key = _
    rw [PyDict.get?_update, PyDict.get?_reverse m'.nodup]
    rfl
  · show m.others ++ m'.others = m'.others
    rw [hm, List.nil_append]

theorem view_updateFields (m : PyMap) (updates : PyDict) :
    (m.updateFields updates).view =
      (fun key => (PyDict.get? updates.reverse key).or (m.view.1 key), m.view.2) :=
  Prod.ext (funext (PyDict.get?_update m.fields updates)) rfl

/-- Assigning to a dictionary over `d`. -/
theorem view_set {d : PyDict} {m n : PyMap} (hview : m.view = View.over d n.view) (key value : PyVal) :
    (m.set key value).map view = ((n.set key value).map view).map (View.over d) := by
  -- Both maps get the same entry, on top of what they have.
  have hfields (key : String) : PyDict.get? m.fields key =
      (PyDict.get? n.fields key).or (PyDict.get? d key) := congrFun (congrArg Prod.fst hview) key
  have hothers : m.others = n.others := congrArg Prod.snd hview
  cases key with
  | str s =>
    refine congrArg Except.ok (Prod.ext (funext fun key => ?_) hothers)
    show PyDict.get? (m.fields.set s value) key = (PyDict.get? (n.fields.set s value) key).or _
    rw [PyDict.get?_set, PyDict.get?_set, hfields]
    split_ifs
    · rfl
    · rfl
  | list xs => rfl
  | dict d => rfl
  | _ =>
    refine congrArg Except.ok (Prod.ext (funext hfields) ?_)
    show (if _ then _ else _) = if _ then _ else _
    rw [hothers]

theorem view_updatePairs {d : PyDict} {m n : PyMap} (hview : m.view = View.over d n.view)
    (xs : List PyVal) :
    (m.updatePairs xs).map view = ((n.updatePairs xs).map view).map (View.over d) := by
  induction xs generalizing m n with
  | nil => exact congrArg Except.ok hview
  | cons x xs ih =>
    simp only [updatePairs, bind, Except.bind]
    cases pairOf x with
    | error e => rfl
    | ok pair =>
      -- The same pair is set in both, or raises in both.
      have hset := view_set hview pair.1 pair.2
      simp only
      cases hm : m.set pair.1 pair.2 with
      | error e =>
        cases hn : n.set pair.1 pair.2 with
        | error e' =>
          rw [hm, hn] at hset
          exact congrArg Except.error (Except.error.inj hset)
        | ok n' =>
          rw [hm, hn] at hset
          cases hset
      | ok m' =>
        cases hn : n.set pair.1 pair.2 with
        | error e' =>
          rw [hm, hn] at hset
          cases hset
        | ok n' =>
          rw [hm, hn] at hset
          exact ih (Except.ok.inj hset)

/-- Updating a dictionary of strings with a value lays the dictionary of the value over it. -/
theorem view_updateWith {m : PyMap} (hm : m.others = []) (value : PyVal) :
    (m.updateWith value).map view = ((ofVal value).map view).map (View.over m.fields) := by
  -- Updating the base shows as updating an empty map and laying it over the base.
  have hempty : m.view = View.over m.fields empty.view := by
    refine Prod.ext (funext fun key => ?_) hm
    rfl
  cases value with
  | dict d =>
    have hdict := view_overlay hm (empty.updateFields d)
    refine congrArg Except.ok ?_
    rw [← hdict]
    refine Prod.ext (funext fun key => ?_) (by simp [view, overlay, updateFields, empty])
    have hkeys : ((PyDict.update [] d).map Prod.fst).Nodup := (empty.updateFields d).nodup
    show PyDict.get? (m.fields.update d) key = PyDict.get? (m.fields.update (PyDict.update [] d)) key
    rw [PyDict.get?_update, PyDict.get?_update, PyDict.get?_reverse hkeys, PyDict.get?_update]
    show _ = ((PyDict.get? d.reverse key).or none).or _
    rw [Option.or_none]
  | list xs => exact view_updatePairs hempty xs
  | str s => exact view_updatePairs hempty _
  | _ => rfl

end PyMap
