import Mathlib.Data.List.Induction
import VoiceAgentPlatform.Lib.PyVal

/-!
# Edits of a dictionary

Edits that assign a key or merge entries into the dictionary under a key. An edit reads and writes its
own key only, so a list of edits acts key by key.

* `Edit`, `Edit.apply`, `applyAll`: edits and what they do to a dictionary.
* `get?_applyAll`: the value under one key is decided by the edits of this key.
* `filter_flatMap_of_mem`: the edits of a key, where edits are grouped by their keys.
* `editAll_editAll`: edits that are applied twice do no more than once.
-/

/-- An edit of a dictionary. -/
inductive Edit where
  /-- `d[key] = value`. -/
  | assign (key : String) (value : PyVal)
  /-- Update the dictionary under `key`, which is created if there is none. -/
  | merge (key : String) (entries : PyDict)

namespace Edit

/-- The entries of the dictionary under a key, none if there is no dictionary. -/
def dictOf : Option PyVal → PyDict
  | some (.dict d) => d
  | _ => []

/-- The key that an edit reads and writes. -/
def key : Edit → String
  | assign key _ => key
  | merge key _ => key

/-- The value an edit leaves under its key. -/
def value : Edit → Option PyVal → PyVal
  | assign _ value, _ => value
  | merge _ entries, old => .dict ((dictOf old).update entries)

/-- One edit. -/
def apply (d : PyDict) (e : Edit) : PyDict := d.set e.key (e.value (d.get? e.key))

/-- A list of edits, one after the other. -/
def applyAll (d : PyDict) (es : List Edit) : PyDict := es.foldl apply d

/-- What a list of edits of one key makes of the value under it. -/
def editAll (v : Option PyVal) (es : List Edit) : Option PyVal :=
  es.foldl (fun v e => some (e.value v)) v

theorem get?_apply (d : PyDict) (e : Edit) (k : String) :
    (apply d e).get? k = if e.key = k then some (e.value (d.get? k)) else d.get? k := by
  rw [apply, PyDict.get?_set]
  split_ifs with h
  · rw [h]
  · rfl

/-- The value under a key is decided by the edits of this key. -/
theorem get?_applyAll (d : PyDict) (es : List Edit) (k : String) :
    (applyAll d es).get? k = editAll (d.get? k) (es.filter fun e => e.key = k) := by
  induction es generalizing d with
  | nil => rfl
  | cons e es ih =>
    change (applyAll (apply d e) es).get? k = _
    rw [ih, get?_apply]
    by_cases h : e.key = k
    · rw [if_pos h, List.filter_cons_of_pos (by simpa using h)]
      rfl
    · rw [if_neg h, List.filter_cons_of_neg (by simpa using h)]

theorem applyAll_append (d : PyDict) (es es' : List Edit) :
    applyAll d (es ++ es') = applyAll (applyAll d es) es' :=
  List.foldl_append

/-- Edits that are grouped by their keys: those of one key are its group. -/
theorem filter_flatMap_of_mem {gs : List (String × List Edit)} (hgs : (gs.map Prod.fst).Nodup)
    (hkey : ∀ g ∈ gs, ∀ e ∈ g.2, e.key = g.1) {g : String × List Edit} (hg : g ∈ gs) :
    ((gs.flatMap Prod.snd).filter fun e => e.key = g.1) = g.2 := by
  induction gs with
  | nil => cases hg
  | cons a gs ih =>
    obtain ⟨hfirst, hrest⟩ := List.forall_mem_cons.mp hkey
    obtain ⟨hnotMem, hgs⟩ := List.nodup_cons.mp hgs
    rw [List.flatMap_cons, List.filter_append]
    rcases List.mem_cons.mp hg with rfl | hg
    · -- The later groups are about other keys.
      rw [List.filter_eq_self.mpr fun e he => by simpa using hfirst e he,
        List.filter_eq_nil_iff.mpr, List.append_nil]
      intro e he hsame
      obtain ⟨g', hg', he⟩ := List.mem_flatMap.mp he
      refine hnotMem (List.mem_map.mpr ⟨g', hg', ?_⟩)
      rw [← hrest g' hg' e he]
      simpa using hsame
    · rw [ih hgs hrest hg, List.filter_eq_nil_iff.mpr, List.nil_append]
      intro e he hsame
      refine hnotMem (List.mem_map.mpr ⟨g, hg, ?_⟩)
      rw [← hfirst e he]
      exact (of_decide_eq_true hsame).symm

/-- A key without edits keeps its value. -/
theorem get?_applyAll_of_not_mem {es : List Edit} {k : String} (h : ∀ e ∈ es, e.key ≠ k)
    (d : PyDict) : (applyAll d es).get? k = d.get? k := by
  rw [get?_applyAll, List.filter_eq_nil_iff.mpr fun e he => by simpa using h e he]
  rfl

/-- After a merge every merged key has its value. -/
theorem eq_of_mem_update {d entries : PyDict} {e : String × PyVal} (he : e ∈ d.update entries)
    {v : PyVal} (hv : PyDict.get? entries.reverse e.1 = some v) : e.2 = v := by
  induction entries using List.reverseRecOn with
  | nil => cases hv
  | append_singleton entries last ih =>
    -- The last entry is set last.
    have hstep : PyDict.update d (entries ++ [last]) = (d.update entries).set last.1 last.2 :=
      List.foldl_append
    rw [List.reverse_append, List.reverse_singleton, List.singleton_append, PyDict.get?_cons] at hv
    rw [hstep, PyDict.set] at he
    by_cases hkey : last.1 = e.1
    · rw [if_pos hkey] at hv
      obtain rfl := Option.some.inj hv
      split_ifs at he with hany
      · obtain ⟨old, -, rfl⟩ := List.mem_map.mp he
        split_ifs at hkey ⊢ with hold
        · rfl
        · exact absurd hkey.symm hold
      · rcases List.mem_append.mp he with hmem | hmem
        · exact absurd (List.any_eq_true.mpr ⟨e, hmem, by simpa using hkey.symm⟩) hany
        · rw [List.mem_singleton.mp hmem]
    · rw [if_neg hkey] at hv
      refine ih ?_ hv
      split_ifs at he with hany
      · obtain ⟨old, hold, rfl⟩ := List.mem_map.mp he
        split_ifs at hkey ⊢ with hsame
        · exact absurd rfl hkey
        · exact hold
      · rcases List.mem_append.mp he with hmem | hmem
        · exact hmem
        · rw [List.mem_singleton.mp hmem] at hkey
          exact absurd rfl hkey

theorem update_append (d entries entries' : PyDict) :
    PyDict.update d (entries ++ entries') = (d.update entries).update entries' :=
  List.foldl_append

/-- Updating keys that exist replaces their values in place. -/
theorem update_eq_map {d entries : PyDict} (h : ∀ e ∈ entries, e.1 ∈ d.map Prod.fst) :
    d.update entries = d.map fun e => (e.1, (PyDict.get? entries.reverse e.1).getD e.2) := by
  induction entries using List.reverseRecOn with
  | nil => exact (List.map_id d).symm
  | append_singleton entries last ih =>
    -- No key is new, so every entry is replaced in place.
    have hkey : (d.update entries).any fun e => e.1 = last.1 := by
      rw [ih fun e he => h e (List.mem_append_left _ he)]
      obtain ⟨old, hold, hkey⟩ :=
        List.mem_map.mp (h last (List.mem_append_right _ (List.mem_singleton_self last)))
      exact List.any_eq_true.mpr ⟨_, List.mem_map_of_mem hold, by simpa using hkey⟩
    rw [update_append]
    change (d.update entries).set last.1 last.2 = _
    rw [PyDict.set, if_pos hkey, ih fun e he => h e (List.mem_append_left _ he), List.map_map]
    refine List.map_congr_left fun e _ => ?_
    rw [List.reverse_append, List.reverse_singleton, List.singleton_append, PyDict.get?_cons,
      Function.comp_apply]
    by_cases hlast : e.1 = last.1
    · rw [if_pos hlast, if_pos hlast.symm, hlast]
      rfl
    · rw [if_neg hlast, if_neg (Ne.symm hlast)]

theorem mem_keys_set (d : PyDict) (key : String) (value : PyVal) :
    key ∈ (d.set key value).map Prod.fst ∧
      ∀ k ∈ d.map Prod.fst, k ∈ (d.set key value).map Prod.fst := by
  unfold PyDict.set
  split_ifs with hany
  · -- In place, the keys are the same.
    have hkeys : (d.map fun e => if e.1 = key then (key, value) else e).map Prod.fst =
        d.map Prod.fst := by
      rw [List.map_map]
      refine List.map_congr_left fun e _ => ?_
      simp only [Function.comp_apply]
      split_ifs with he
      · exact he.symm
      · rfl
    rw [hkeys]
    obtain ⟨e, he, hkey⟩ := List.any_eq_true.mp hany
    exact ⟨List.mem_map.mpr ⟨e, he, by simpa using hkey⟩, fun k hk => hk⟩
  · simp only [List.map_append, List.mem_append]
    exact ⟨Or.inr (List.mem_singleton_self key), fun k hk => Or.inl hk⟩

/-- An update makes keys of all its entries. -/
theorem mem_keys_update (d entries : PyDict) :
    (∀ e ∈ entries, e.1 ∈ (d.update entries).map Prod.fst) ∧
      ∀ k ∈ d.map Prod.fst, k ∈ (d.update entries).map Prod.fst := by
  induction entries generalizing d with
  | nil => exact ⟨fun _ he => absurd he List.not_mem_nil, fun k hk => hk⟩
  | cons e entries ih =>
    obtain ⟨hentries, hkeys⟩ := ih (d.set e.1 e.2)
    obtain ⟨hself, hold⟩ := mem_keys_set d e.1 e.2
    refine ⟨fun e' he' => ?_, fun k hk => hkeys k (hold k hk)⟩
    rcases List.mem_cons.mp he' with rfl | he'
    · exact hkeys e'.1 hself
    · exact hentries e' he'

/-- An update that is repeated changes nothing. -/
theorem update_update_self (d entries : PyDict) :
    (d.update entries).update entries = d.update entries := by
  rw [update_eq_map (mem_keys_update d entries).1]
  refine (List.map_congr_left fun e he => ?_).trans (List.map_id _)
  cases hv : PyDict.get? entries.reverse e.1 with
  | none => rfl
  | some v => exact Prod.ext rfl (eq_of_mem_update he hv).symm

/-- An assignment makes what was there before irrelevant. -/
theorem editAll_eq_of_assign {es : List Edit} {k : String} {a : PyVal} (h : .assign k a ∈ es)
    (v w : Option PyVal) : editAll v es = editAll w es := by
  induction es generalizing v w with
  | nil => cases h
  | cons e es ih =>
    change editAll (some (e.value v)) es = editAll (some (e.value w)) es
    rcases List.mem_cons.mp h with rfl | h
    · rfl
    · exact ih h _ _

/-- Merges into one dictionary are one merge. -/
theorem editAll_merges {es : List Edit} (h : ∀ e ∈ es, ∃ k entries, e = .merge k entries)
    (hne : es ≠ []) : ∃ entries : PyDict, ∀ v,
      editAll v es = some (.dict ((dictOf v).update entries)) := by
  induction es with
  | nil => exact absurd rfl hne
  | cons e es ih =>
    obtain ⟨⟨k, first, rfl⟩, hes⟩ := List.forall_mem_cons.mp h
    rcases eq_or_ne es [] with rfl | hes'
    · exact ⟨first, fun v => rfl⟩
    · obtain ⟨rest, hrest⟩ := ih hes hes'
      refine ⟨first ++ rest, fun v => ?_⟩
      change editAll (some ((Edit.merge k first).value v)) es = _
      rw [hrest, update_append]
      rfl

/-- Merges of several dictionaries are one merge, of all their entries. -/
theorem editAll_map_merge (k : String) {ds : List PyDict} (hne : ds ≠ []) (v : Option PyVal) :
    editAll v (ds.map (.merge k)) = some (.dict ((dictOf v).update ds.flatten)) := by
  induction ds generalizing v with
  | nil => exact absurd rfl hne
  | cons d ds ih =>
    rw [List.flatten_cons, update_append]
    rcases eq_or_ne ds [] with rfl | hds
    · rfl
    · exact ih hds _

/-- Edits that are applied twice do no more than once. -/
theorem editAll_editAll (v : Option PyVal) (es : List Edit) :
    editAll (editAll v es) es = editAll v es := by
  by_cases hassign : ∃ k a, Edit.assign k a ∈ es
  · obtain ⟨k, a, h⟩ := hassign
    exact editAll_eq_of_assign h _ _
  · have hmerges : ∀ e ∈ es, ∃ k entries, e = .merge k entries := by
      intro e he
      cases e with
      | assign k a => exact absurd ⟨k, a, he⟩ hassign
      | merge k entries => exact ⟨k, entries, rfl⟩
    rcases eq_or_ne es [] with rfl | hne
    · rfl
    · obtain ⟨entries, hentries⟩ := editAll_merges hmerges hne
      rw [hentries, hentries, dictOf, update_update_self]

end Edit
