import VoiceAgentPlatform.Config.RuntimeConfig
import VoiceAgentPlatform.Lib.JsonLines
import VoiceAgentPlatform.Lib.Run

/-!
# Loading the runtime configuration

What `get_web_defaults` and `get_phone_defaults` return for any content of the file. The file is
checked for its two keys only, and the values under them are used as dictionaries.

* `fieldsOf`: the fields of a segment in the file; `Overlaid`: a dictionary over its fallback.
* `LoadsWell`: the getters return the fallback overlaid with the fields of the file.
* `loadsWell_iff`: this holds exactly when every segment of a usable file is an object, or a sequence
  of pairs that repeat the fallback.
-/

namespace Config

open AtomicFile Raising

/-- The store of a file's content, if it is usable. -/
def content? [Json.Python] (content : Option ByteArray) : Option Store :=
  content.bind fun b => (Json.loadBytes b).bind usable?

/-- The fields of a segment in the file: none if the file or the segment is corrupt. -/
def fieldsOf [Json.Python] (content : Option ByteArray) (segment : Segment) : PyDict :=
  match content? content with
  | some store =>
    match store.get segment with
    | .json (.dict d) => d
    | _ => []
  | none => []

/-- The dictionary `m` is the fallback with `fields` over it. -/
def Overlaid (fallback fields : PyDict) (m : PyMap) : Prop :=
  m.others = [] ∧
    ∀ key, PyDict.get? m.fields key = (PyDict.get? fields.reverse key).or (PyDict.get? fallback key)

/-- Every field of the fallback is present in a dictionary over it. -/
theorem Overlaid.isSome {fallback fields : PyDict} {m : PyMap} (h : Overlaid fallback fields m)
    {key : String} (hkey : (PyDict.get? fallback key).isSome) :
    (PyDict.get? m.fields key).isSome := by
  rw [h.2]
  cases PyDict.get? fields.reverse key with
  | none => exact hkey
  | some v => rfl

/-- A configuration that has not been read yet. -/
def fresh (content : Option ByteArray) : ConfigState :=
  { cache := none, file := content.map .bytes }

/-- The state after calls of the getters, each at its own time. -/
def afterGets [Json.Python] (fallback : Fallback) (b : ConfigState)
    (calls : List (Segment × String)) : ConfigState :=
  Run.exec (fun b call => exitState (mergeSegment fallback call.1 {} call.2) b) b calls

/-- Every call of a getter returns the fallback of its segment, overlaid with the fields that the
file has for it. -/
def LoadsWell [Json.Python] (fallback : Fallback) (content : Option ByteArray) : Prop :=
  ∀ calls segment now, ∃ m b,
    mergeSegment fallback segment {} now (afterGets fallback (fresh content) calls) = .ok m b ∧
      Overlaid (fallback.get segment) (fieldsOf content segment) m ∧
      ∀ key, (PyDict.get? (fallback.get segment) key).isSome → (PyDict.get? m.fields key).isSome

/-- The value of a segment is an object, or a sequence of pairs whose last value for each key is that
of the fallback. -/
def Harmless (fallback : PyDict) (value : PyVal) : Prop :=
  (∃ d, value = .dict d) ∨
    ∃ es, PyMap.pairsOf? value = some es ∧
      ∀ key x, PyDict.get? es.reverse key = some x → PyDict.get? fallback key = some x

/-- The store that the configuration holds after its first read: that of the file, or a seed. -/
def Held [Json.Python] (fallback : Fallback) (content : Option ByteArray) (store : Store) : Prop :=
  match content? content with
  | some s => store = s
  | none => ∃ now, store = buildSeed fallback now

/-- The configuration has read the file, which holds `content`, or has not read it yet. -/
def Read [Json.Python] (fallback : Fallback) (content : Option ByteArray) (b : ConfigState) : Prop :=
  b = fresh content ∨ ∃ store, b.cache = some store ∧ Held fallback content store

theorem store?_fresh [Json.Python] (content : Option ByteArray) :
    store? (fresh content) = content? content := by
  cases content <;> rfl

section

variable [Json.Python] {fallback : Fallback} {content : Option ByteArray} {b : ConfigState}

/-- Loading what has been read or not gives the store of a usable file, and a seed otherwise. -/
theorem ensureLoaded_of_read (h : Read fallback content b) (now : String) :
    ∃ store b', ensureLoaded fallback {} now b = .ok store b' ∧ Held fallback content store ∧
      Read fallback content b' := by
  rcases h with rfl | ⟨store, hcache, hstore⟩
  · -- Without a file the store is seeded.
    cases hcontent : content? content with
    | none =>
      have hload := @ensureLoaded_seed _ fallback {} now _
        ((store?_fresh content).trans hcontent) rfl
      have hheld : Held fallback content (buildSeed fallback now) := by
        rw [Held, hcontent]
        exact ⟨now, rfl⟩
      exact ⟨_, _, hload, hheld, Or.inr ⟨_, rfl, hheld⟩⟩
    | some store =>
      have hload := @ensureLoaded_of_store? _ fallback {} now _ _
        ((store?_fresh content).trans hcontent)
      have hheld : Held fallback content store := by rw [Held, hcontent]
      exact ⟨_, _, hload, hheld, Or.inr ⟨_, rfl, hheld⟩⟩
  · have hload := @ensureLoaded_of_store? _ fallback {} now _ _
      (show store? b = some store by rw [store?, hcache])
    exact ⟨store, _, hload, hstore, Or.inr ⟨store, rfl, hstore⟩⟩

/-- A getter overlays the segment of the store, and leaves the configuration read. -/
theorem mergeSegment_of_read (h : Read fallback content b) (segment : Segment) (now : String) :
    ∃ store b', Held fallback content store ∧ Read fallback content b' ∧
      mergeSegment fallback segment {} now b =
        ofUpdate ((store.get segment).updateInto (fallback.base segment)) b' := by
  obtain ⟨store, b', hload, hheld, hread⟩ := ensureLoaded_of_read h now
  exact ⟨store, b', hheld, hread, bind_ok hload _⟩

theorem read_exitState (h : Read fallback content b) (call : Segment × String) :
    Read fallback content (exitState (mergeSegment fallback call.1 {} call.2) b) := by
  obtain ⟨store, b', -, hread, hmerge⟩ := mergeSegment_of_read h call.1 call.2
  rw [exitState, hmerge]
  cases (store.get call.1).updateInto (fallback.base call.1) with
  | ok m => exact hread
  | error e => exact hread

/-- After any calls of the getters the configuration is read, or not yet. -/
theorem read_afterGets (calls : List (Segment × String)) :
    Read fallback content (afterGets fallback (fresh content) calls) :=
  Run.exec_invariant (I := Read fallback content) (fun _ call h => read_exitState h call)
    (Or.inl rfl) calls

end

/-- An object is laid over the fallback field by field. -/
theorem overlaid_dict {base : PyMap} (hbase : base.others = []) (d : PyDict) :
    Overlaid base.fields d (base.updateFields d) :=
  ⟨hbase, PyDict.get?_update base.fields d⟩

/-- A value that is no object leaves the fallback exactly if it repeats it. -/
theorem exists_overlaid_nil_iff {base : PyMap} (hbase : base.others = []) {value : PyVal}
    (hvalue : ∀ d, value ≠ .dict d) :
    (∃ m, base.updateWith value = .ok m ∧ Overlaid base.fields [] m) ↔
      Harmless base.fields value := by
  -- An update leaves the base if every entry repeats it.
  have hoverlaid (es : PyDict) : Overlaid base.fields [] (base.updateFields es) ↔
      ∀ key x, PyDict.get? es.reverse key = some x → PyDict.get? base.fields key = some x := by
    refine (and_iff_right (show (base.updateFields es).others = [] from hbase)).trans
      (forall_congr' fun key => ?_)
    show PyDict.get? (base.fields.update es) key = PyDict.get? base.fields key ↔ _
    rw [PyDict.get?_update]
    cases PyDict.get? es.reverse key with
    | none => simp
    | some x => simp [eq_comm]
  constructor
  · rintro ⟨m, hm, hover⟩
    obtain ⟨es, hes, rfl⟩ := (PyMap.updateWith_eq_ok_iff hvalue hbase hover.1).mp hm
    exact Or.inr ⟨es, hes, (hoverlaid es).mp hover⟩
  · rintro (⟨d, rfl⟩ | ⟨es, hes, hrepeat⟩)
    · exact absurd rfl (hvalue d)
    · have hothers : (base.updateFields es).others = [] := hbase
      exact ⟨_, (PyMap.updateWith_eq_ok_iff hvalue hbase hothers).mpr ⟨es, hes, rfl⟩,
        (hoverlaid es).mpr hrepeat⟩

/-- The segments of a usable file are values of JSON. -/
theorem get_usable? {value : PyVal} {store : Store} (h : usable? value = some store)
    (segment : Segment) : ∃ v, store.get segment = .json v := by
  cases value with
  | dict d =>
    rw [usable?] at h
    split at h
    · obtain rfl := Option.some.inj h
      cases segment with
      | web => exact ⟨_, rfl⟩
      | phone => exact ⟨_, rfl⟩
    · cases h
  | _ => cases h

/-- The files whose segments all are objects or repeat the fallback. -/
def HarmlessFile [Json.Python] (fallback : Fallback) (content : Option ByteArray) : Prop :=
  ∀ store segment value, content? content = some store → store.get segment = .json value →
    Harmless (fallback.get segment) value

/-- Overlaying a held segment on its fallback gives the fields of the file, exactly if the segment is
harmless. -/
theorem exists_overlaid_iff [Json.Python] {fallback : Fallback} {content : Option ByteArray}
    {store : Store} (hheld : Held fallback content store) (segment : Segment) :
    (∃ m, (store.get segment).updateInto (fallback.base segment) = .ok m ∧
        Overlaid (fallback.get segment) (fieldsOf content segment) m) ↔
      ∀ s value, content? content = some s → s.get segment = .json value →
        Harmless (fallback.get segment) value := by
  rw [Held] at hheld
  cases hcontent : content? content with
  -- Without a usable file the fallback is seeded.
  | none =>
    rw [hcontent] at hheld
    obtain ⟨now, rfl⟩ := hheld
    refine iff_of_true ?_ (by simp)
    have hget : (buildSeed fallback now).get segment = .dict (fallback.base segment) := by
      cases segment <;> rfl
    rw [hget]
    refine ⟨_, rfl, rfl, fun key => ?_⟩
    have hfields : fieldsOf content segment = [] := by rw [fieldsOf, hcontent]
    rw [hfields]
    show PyDict.get? ((fallback.get segment).update (fallback.get segment)) key = _
    rw [PyDict.get?_update, PyDict.get?_reverse (fallback.nodup segment)]
    cases PyDict.get? (fallback.get segment) key <;> rfl
  | some s =>
    rw [hcontent] at hheld
    obtain rfl := hheld
    obtain ⟨bytes, -, husable⟩ := Option.bind_eq_some_iff.mp hcontent
    obtain ⟨json, -, husable⟩ := Option.bind_eq_some_iff.mp husable
    obtain ⟨value, hvalue⟩ := get_usable? husable segment
    -- The value of the segment is the only one that the condition is about.
    have hsingle : (∀ s v, some store = some s → s.get segment = .json v →
        Harmless (fallback.get segment) v) ↔ Harmless (fallback.get segment) value := by
      constructor
      · exact fun h => h store value rfl hvalue
      · rintro h s v hs hv
        obtain rfl := Option.some.inj hs
        rw [hvalue] at hv
        obtain rfl := SegmentValue.json.inj hv
        exact h
    rw [hsingle, hvalue, fieldsOf, hcontent]
    simp only [hvalue, SegmentValue.updateInto]
    -- An object is overlaid; anything else has no fields and has to be harmless.
    by_cases hdict : ∃ d, value = .dict d
    · obtain ⟨d, rfl⟩ := hdict
      exact iff_of_true ⟨_, rfl, overlaid_dict rfl d⟩ (Or.inl ⟨d, rfl⟩)
    · push Not at hdict
      have hfields : (match (SegmentValue.json value : SegmentValue) with
          | .json (.dict d) => d
          | _ => []) = [] := by
        cases value with
        | dict d => exact absurd rfl (hdict d)
        | _ => rfl
      rw [hfields]
      exact @exists_overlaid_nil_iff (fallback.base segment) rfl _ hdict

/-- The getters return the fallback overlaid with the fields of the file exactly when the file is not
usable, or each of its segments is an object or repeats the fallback. -/
theorem loadsWell_iff [Json.Python] (fallback : Fallback) (content : Option ByteArray) :
    LoadsWell fallback content ↔ HarmlessFile fallback content := by
  constructor
  · intro h store segment value hcontent hvalue
    obtain ⟨m, b, hmerge, hover, -⟩ := h [] segment ""
    obtain ⟨store', b', hheld, -, hmerge'⟩ :=
      mergeSegment_of_read (@read_afterGets _ fallback content []) segment ""
    rw [hmerge'] at hmerge
    refine (exists_overlaid_iff hheld segment).mp ?_ store value hcontent hvalue
    -- The getter returns what the base is updated to.
    cases hupdate : (store'.get segment).updateInto (fallback.base segment) with
    | error e =>
      rw [hupdate] at hmerge
      cases hmerge
    | ok m' =>
      rw [hupdate] at hmerge
      cases hmerge
      exact ⟨m, rfl, hover⟩
  · intro h calls segment now
    obtain ⟨store, b', hheld, -, hmerge⟩ :=
      mergeSegment_of_read (@read_afterGets _ fallback content calls)
        segment now
    obtain ⟨m, hupdate, hover⟩ :=
      (exists_overlaid_iff hheld segment).mpr fun s value => h s segment value
    refine ⟨m, b', ?_, hover, fun key => hover.isSome⟩
    rw [hmerge, hupdate]
    rfl

/-- A phone segment without fields. -/
def emptyMember : Json.Member := ⟨"phone", ['{', '}'], .dict []⟩

theorem readWith_emptyMember {r : Json.Reader} : emptyMember.ReadWith r 1 1 where
  value fuel hfuel depth hdepth rest _ := by
    obtain ⟨fuel, rfl⟩ := Nat.exists_eq_succ_of_ne_zero (show fuel ≠ 0 by omega)
    obtain ⟨inner, hnest, -⟩ := hdepth.nest "object"
    rw [emptyMember, Json.parseValue.eq_def]
    simp only [List.cons_append, List.nil_append, hnest, bind, Except.bind,
      Json.skipSpaces_of_not_space (show Json.isSpace '}' = false by decide)]
    rfl
  start _ := rfl

/-- A file whose web segment is null. -/
def nullSegment : String :=
  String.ofList ('{' :: (Json.membersText [Json.nullMember "web", emptyMember] ++ ['}']))

example : nullSegment = "\x7b\"web\": null, \"phone\": \x7b\x7d\x7d" := by decide +kernel

theorem loads_nullSegment [Json.Python] :
    Json.loads nullSegment = .ok (.dict [("web", .none), ("phone", .dict [])]) := by
  have hread : ∀ m ∈ [Json.nullMember "web", emptyMember],
      m.ReadWith ⟨Json.Python.standIn, some 4300⟩ 1 1 := by
    intro m hm
    rcases List.mem_pair.mp hm with rfl | rfl
    · exact (Json.readWith_nullMember "web").mono le_rfl (Nat.zero_le 1)
    · exact readWith_emptyMember
  exact Json.read_members (Json.nullMember "web") [emptyMember] hread (Json.hasRoom_depth le_rfl)

/-- A fallback with a language for each segment. -/
def sampleFallback : Fallback where
  web := [("lang", .str "en-US")]
  phone := [("lang", .str "zh-HK")]
  web_nodup := List.nodup_singleton _
  phone_nodup := List.nodup_singleton _

/-- A getter raises on a file that passes the check and has a segment that is null. -/
theorem nullSegment_raises :
    ¬ ∃ _ : Json.Python, LoadsWell sampleFallback (some nullSegment.toUTF8) := by
  rintro ⟨_, h⟩
  have hcontent : content? (some nullSegment.toUTF8) =
      some { web := .json .none, phone := .json (.dict []), rest := [] } := by
    rw [content?, Option.bind_some, Json.loadBytes, Json.fromUTF8?_toUTF8, Option.bind_some,
      loads_nullSegment]
    rfl
  rcases (loadsWell_iff sampleFallback _).mp h _ .web .none hcontent rfl with ⟨d, hd⟩ | ⟨es, hes, -⟩
  · cases hd
  · cases hes

end Config
