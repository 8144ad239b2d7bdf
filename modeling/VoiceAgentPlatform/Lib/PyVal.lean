import Mathlib.Data.Rat.Defs
import Mathlib.Tactic.SplitIfs
import VoiceAgentPlatform.Lib.Trimming

/-!
# Python values

The values a JSON body or a table item can hold, and the built-in operations on them that the models
use: truth, dictionaries as insertion-ordered association lists, and stripping of text. A float is
represented by the number that its decimal notation denotes.
-/

/-- A Python value. The keys of a dictionary are strings. -/
inductive PyVal where
  | none
  | bool (b : Bool)
  | int (i : ℤ)
  | float (q : ℚ)
  | nan
  | infinity (negative : Bool)
  | decimal (q : ℚ)
  | str (s : String)
  | list (xs : List PyVal)
  | dict (entries : List (String × PyVal))

namespace PyVal

/-- The truth of a value: `bool(value)`. -/
def truthy : PyVal → Bool
  | none => false
  | bool b => b
  | int i => i ≠ 0
  | float q => q ≠ 0
  -- Not a number is not zero.
  | nan => true
  | infinity _ => true
  | decimal q => q ≠ 0
  | str s => s ≠ ""
  | list xs => !xs.isEmpty
  | dict entries => !entries.isEmpty

/-- A value that holds no other values. -/
def isScalar : PyVal → Bool
  | list _ => false
  | dict _ => false
  | _ => true

mutual

/-- Apply `f` to every scalar, walking through lists and dictionaries. -/
def mapScalars (f : PyVal → PyVal) : PyVal → PyVal
  | list xs => list (mapScalarsList f xs)
  | dict entries => dict (mapScalarsEntries f entries)
  | none => f none
  | bool b => f (bool b)
  | int i => f (int i)
  | float q => f (float q)
  | nan => f nan
  | infinity negative => f (infinity negative)
  | decimal q => f (decimal q)
  | str s => f (str s)

/-- `mapScalars` on the elements of a list. -/
def mapScalarsList (f : PyVal → PyVal) : List PyVal → List PyVal
  | [] => []
  | x :: xs => mapScalars f x :: mapScalarsList f xs

/-- `mapScalars` on the values of a dictionary. -/
def mapScalarsEntries (f : PyVal → PyVal) : List (String × PyVal) → List (String × PyVal)
  | [] => []
  | e :: entries => mapScalarsEntry f e :: mapScalarsEntries f entries

/-- `mapScalars` on the value of one key. -/
def mapScalarsEntry (f : PyVal → PyVal) : String × PyVal → String × PyVal
  | (key, value) => (key, mapScalars f value)

end

theorem mapScalars_of_isScalar (f : PyVal → PyVal) {v : PyVal} (h : v.isScalar = true) :
    mapScalars f v = f v := by
  cases v with
  | list xs => cases h
  | dict entries => cases h
  | _ => rw [mapScalars]

theorem mapScalarsList_eq_map (f : PyVal → PyVal) (xs : List PyVal) :
    mapScalarsList f xs = xs.map (mapScalars f) := by
  induction xs with
  | nil => rfl
  | cons x xs ih => rw [mapScalarsList, ih, List.map_cons]

theorem mapScalarsEntries_eq_map (f : PyVal → PyVal) (entries : List (String × PyVal)) :
    mapScalarsEntries f entries = entries.map fun e => (e.1, mapScalars f e.2) := by
  induction entries with
  | nil => rfl
  | cons e entries ih => rw [mapScalarsEntries, ih, List.map_cons, mapScalarsEntry]

/-- Induction over values: a list or a dictionary may use what holds of its elements or values. -/
@[elab_as_elim]
theorem walk {motive : PyVal → Prop} (scalar : ∀ v : PyVal, v.isScalar = true → motive v)
    (list : ∀ xs, (∀ x ∈ xs, motive x) → motive (list xs))
    (dict : ∀ entries, (∀ e ∈ entries, motive e.2) → motive (dict entries)) (v : PyVal) :
    motive v := by
  refine @PyVal.rec motive (fun xs => ∀ x ∈ xs, motive x) (fun entries => ∀ e ∈ entries, motive e.2)
    (fun e => motive e.2) (scalar _ rfl) (fun _ => scalar _ rfl) (fun _ => scalar _ rfl)
    (fun _ => scalar _ rfl) (scalar _ rfl) (fun _ => scalar _ rfl) (fun _ => scalar _ rfl)
    (fun _ => scalar _ rfl) list dict ?_ ?_ ?_ ?_ (fun _ _ h => h) v
  · exact fun _ h => absurd h List.not_mem_nil
  · exact fun x xs hx hxs => List.forall_mem_cons.mpr ⟨hx, hxs⟩
  · exact fun _ h => absurd h List.not_mem_nil
  · exact fun e entries he hentries => List.forall_mem_cons.mpr ⟨he, hentries⟩

/-- Two walks are one walk. -/
theorem mapScalars_mapScalars {f g : PyVal → PyVal}
    (hg : ∀ v : PyVal, v.isScalar = true → (g v).isScalar = true) (v : PyVal) :
    mapScalars f (mapScalars g v) = mapScalars (f ∘ g) v := by
  induction v using walk with
  | scalar v hv =>
    rw [mapScalars_of_isScalar g hv, mapScalars_of_isScalar f (hg v hv),
      mapScalars_of_isScalar _ hv]
    rfl
  | list xs ih =>
    simp only [mapScalars, mapScalarsList_eq_map, List.map_map]
    exact congrArg list (List.map_congr_left ih)
  | dict entries ih =>
    simp only [mapScalars, mapScalarsEntries_eq_map, List.map_map]
    refine congrArg dict (List.map_congr_left fun e he => ?_)
    simp only [Function.comp_apply, ih e he]

/-- Walks that do the same to scalars do the same to all values. -/
theorem mapScalars_congr {f g : PyVal → PyVal} (h : ∀ v : PyVal, v.isScalar = true → f v = g v)
    (v : PyVal) : mapScalars f v = mapScalars g v := by
  induction v using walk with
  | scalar v hv => rw [mapScalars_of_isScalar f hv, mapScalars_of_isScalar g hv, h v hv]
  | list xs ih =>
    simp only [mapScalars, mapScalarsList_eq_map]
    rw [List.map_congr_left ih]
  | dict entries ih =>
    simp only [mapScalars, mapScalarsEntries_eq_map]
    refine congrArg dict (List.map_congr_left fun e he => ?_)
    rw [ih e he]

mutual

/-- The same value, of the same type. -/
def same : PyVal → PyVal → Bool
  | list xs, list ys => sameList xs ys
  | dict d, dict d' => sameEntries d d'
  | none, none => true
  | bool b, bool b' => b = b'
  | int i, int i' => i = i'
  | float q, float q' => q = q'
  | nan, nan => true
  | infinity negative, infinity negative' => negative = negative'
  | decimal q, decimal q' => q = q'
  | str s, str s' => s = s'
  | _, _ => false

/-- `same` on the elements of two lists. -/
def sameList : List PyVal → List PyVal → Bool
  | [], [] => true
  | x :: xs, y :: ys => same x y && sameList xs ys
  | _, _ => false

/-- `same` on the entries of two dictionaries. -/
def sameEntries : List (String × PyVal) → List (String × PyVal) → Bool
  | [], [] => true
  | e :: es, e' :: es' => sameEntry e e' && sameEntries es es'
  | _, _ => false

/-- `same` on two entries. -/
def sameEntry : String × PyVal → String × PyVal → Bool
  | (key, value), (key', value') => key = key' && same value value'

end

theorem same_iff (v w : PyVal) : same v w = true ↔ v = w := by
  induction v using walk generalizing w with
  | scalar v hv =>
    cases v with
    | list xs => cases hv
    | dict d => cases hv
    | _ => cases w <;> simp [same]
  | list xs ih =>
    cases w with
    | list ys =>
      rw [same, PyVal.list.injEq]
      -- The lists are compared along each other.
      induction xs generalizing ys with
      | nil => cases ys <;> simp [sameList]
      | cons x xs ihxs =>
        cases ys with
        | nil => simp [sameList]
        | cons y ys =>
          rw [sameList, Bool.and_eq_true, ih x List.mem_cons_self,
            ihxs (fun z hz => ih z (List.mem_cons_of_mem _ hz)), List.cons.injEq]
    | _ => simp [same]
  | dict d ih =>
    cases w with
    | dict d' =>
      rw [same, PyVal.dict.injEq]
      induction d generalizing d' with
      | nil => cases d' <;> simp [sameEntries]
      | cons e d ihd =>
        cases d' with
        | nil => simp [sameEntries]
        | cons e' d' =>
          rw [sameEntries, sameEntry, Bool.and_eq_true, Bool.and_eq_true, decide_eq_true_eq,
            ih e List.mem_cons_self, ihd (fun z hz => ih z (List.mem_cons_of_mem _ hz)),
            List.cons.injEq, Prod.ext_iff]
    | _ => simp [same]

instance : DecidableEq PyVal := fun v w => decidable_of_iff _ (same_iff v w)

/-- `value or default`. -/
def orElse (value default : PyVal) : PyVal := if value.truthy then value else default

end PyVal

/-- A dictionary with string keys, in insertion order. -/
abbrev PyDict := List (String × PyVal)

namespace PyDict

/-- `d.get(key)`, with `none` for a missing key. -/
def get? (d : PyDict) (key : String) : Option PyVal := (d.find? fun e => e.1 = key).map Prod.snd

/-- `d.get(key)`, with `None` for a missing key. -/
def get (d : PyDict) (key : String) : PyVal := (get? d key).getD .none

/-- `d[key] = value`: a new key is appended. -/
def set (d : PyDict) (key : String) (value : PyVal) : PyDict :=
  if d.any fun e => e.1 = key then d.map fun e => if e.1 = key then (key, value) else e
  else d ++ [(key, value)]

/-- `d.update(other)`. -/
def update (d other : PyDict) : PyDict := other.foldl (fun d e => d.set e.1 e.2) d

/-- `{k: f(v) for k, v in d.items()}`. -/
def mapValues (f : PyVal → PyVal) (d : PyDict) : PyDict := d.map fun e => (e.1, f e.2)

/-- A value that is found is one of the entries. -/
theorem mem_of_get? {d : PyDict} {key : String} {value : PyVal} (h : get? d key = some value) :
    (key, value) ∈ d := by
  obtain ⟨e, hfind, rfl⟩ := Option.map_eq_some_iff.mp h
  obtain rfl : e.1 = key := by simpa using List.find?_some hfind
  exact List.mem_of_find?_eq_some hfind

/-- A key has a value exactly when it is one of the keys. -/
theorem isSome_get?_iff {d : PyDict} {key : String} :
    (get? d key).isSome ↔ key ∈ d.map Prod.fst := by
  rw [get?, Option.isSome_map, List.find?_isSome, List.mem_map]
  simp

/-- Looking up in a dictionary with one more entry in front. -/
theorem get?_cons (e : String × PyVal) (d : PyDict) (key : String) :
    get? (e :: d) key = if e.1 = key then some e.2 else get? d key := by
  unfold get?
  by_cases h : e.1 = key
  · rw [List.find?_cons_of_pos (by simpa using h), if_pos h]
    rfl
  · rw [List.find?_cons_of_neg (by simpa using h), if_neg h]

theorem get?_append (d d' : PyDict) (key : String) :
    get? (d ++ d') key = (get? d key).or (get? d' key) := by
  unfold get?
  rw [List.find?_append, Option.map_or]

/-- Looking up after an assignment. -/
theorem get?_set (d : PyDict) (key key' : String) (value : PyVal) :
    get? (d.set key value) key' = if key = key' then some value else get? d key' := by
  unfold set
  split_ifs with hany hkey hkey
  · -- The key is there: its value is replaced.
    subst hkey
    induction d with
    | nil => cases hany
    | cons e d ih =>
      rw [List.map_cons, get?_cons]
      by_cases he : e.1 = key
      · simp [he]
      · simp only [if_neg he]
        exact ih (by simpa [he] using hany)
  · clear hany
    induction d with
    | nil => rfl
    | cons e d ih =>
      rw [List.map_cons, get?_cons, get?_cons, ih]
      by_cases he : e.1 = key
      · simp [he, hkey]
      · simp [he]
  · subst hkey
    -- The key is not there: the entry goes to the end.
    have hnone : get? d key = none := by
      rw [get?, Option.map_eq_none_iff, List.find?_eq_none]
      exact fun e he => fun hkey => hany (List.any_eq_true.mpr ⟨e, he, hkey⟩)
    rw [get?_append, hnone, get?_cons, if_pos rfl]
    rfl
  · rw [get?_append, get?_cons, if_neg hkey]
    simp [get?]

/-- Looking up after values are mapped. -/
theorem get?_mapValues (f : PyVal → PyVal) (d : PyDict) (key : String) :
    get? (d.mapValues f) key = (get? d key).map f := by
  induction d with
  | nil => rfl
  | cons e d ih =>
    rw [mapValues, List.map_cons, get?_cons, get?_cons]
    split_ifs
    · rfl
    · exact ih

theorem get_mapValues {f : PyVal → PyVal} (hf : f .none = .none) (d : PyDict) (key : String) :
    get (d.mapValues f) key = f (get d key) := by
  rw [get, get, get?_mapValues]
  cases get? d key with
  | none => exact hf.symm
  | some v => rfl

/-- Mapping values commutes with assignment. -/
theorem mapValues_set (f : PyVal → PyVal) (d : PyDict) (key : String) (value : PyVal) :
    (d.set key value).mapValues f = (d.mapValues f).set key (f value) := by
  have hany : (d.mapValues f).any (fun e => e.1 = key) = d.any fun e => e.1 = key := by
    rw [mapValues, List.any_map]
    rfl
  unfold set
  rw [hany]
  split_ifs
  · simp only [mapValues, List.map_map]
    refine List.map_congr_left fun e _ => ?_
    simp only [Function.comp_apply]
    split_ifs <;> rfl
  · simp [mapValues]

/-- Mapping values commutes with updates. -/
theorem mapValues_update (f : PyVal → PyVal) (d other : PyDict) :
    (d.update other).mapValues f = (d.mapValues f).update (other.mapValues f) := by
  induction other generalizing d with
  | nil => rfl
  | cons e other ih =>
    change ((d.set e.1 e.2).update other).mapValues f =
      ((d.mapValues f).set e.1 (f e.2)).update (mapValues f other)
    rw [ih, mapValues_set]

end PyDict

namespace PyText

/-- The white space that `str.strip` removes. -/
def isSpace (c : Char) : Bool :=
  let n := c.toNat
  (9 ≤ n && n ≤ 13) || (28 ≤ n && n ≤ 32) || n = 0x85 || n = 0xA0 || n = 0x1680 ||
    (0x2000 ≤ n && n ≤ 0x200A) || n = 0x2028 || n = 0x2029 || n = 0x202F || n = 0x205F || n = 0x3000

/-- `s.strip()`. -/
def strip (s : String) : String :=
  String.ofList ((s.toList.dropWhile isSpace).reverse.dropWhile isSpace).reverse

theorem strip_eq (s : String) : strip s = String.ofList (Trimming.trimBoth isSpace s.toList) := rfl

/-- Stripping twice is stripping once. -/
theorem strip_strip (s : String) : strip (strip s) = strip s := by
  rw [strip_eq, strip_eq, String.toList_ofList, Trimming.trimBoth_trimBoth]

/-- `s or default`. -/
def orDefault (s : Option String) (default : String) : String :=
  match s with
  | none => default
  | some s => if s = "" then default else s

/-- What follows a first digit in `int(s)`: digits, with single underscores between them. -/
def intDigits? (value : ℕ) : List Char → Option ℕ
  | [] => some value
  | '_' :: c :: cs =>
    if c.isDigit then intDigits? (value * 10 + (c.toNat - 48)) cs else none
  | c :: cs => if c.isDigit then intDigits? (value * 10 + (c.toNat - 48)) cs else none

/-- The number of a text without sign. -/
def nat? : List Char → Option ℕ
  | [] => none
  | c :: cs => if c.isDigit then intDigits? (c.toNat - 48) cs else none

/-- `int(s)`, for ASCII digits. -/
def int? (s : String) : Option ℤ :=
  match (strip s).toList with
  | '-' :: cs => (nat? cs).map fun n => -(n : ℤ)
  | '+' :: cs => (nat? cs).map fun n => (n : ℤ)
  | cs => (nat? cs).map fun n => (n : ℤ)

end PyText
