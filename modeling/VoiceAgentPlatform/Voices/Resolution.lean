import VoiceAgentPlatform.Lib.Contract
import VoiceAgentPlatform.Lib.DictUpdate
import VoiceAgentPlatform.Lib.Raising
import VoiceAgentPlatform.Voices.VoiceRoutes

/-!
# Resolving voices

The resolvers look a voice up in the registry, which is the live table or the constants, and read one
attribute of it. They never miss one, whatever requests have come in and however their operations
interleaved and failed.

* `voicesFor`, `resolveMinimaxVoice`, `resolvePollyVoice`: the resolvers; a missing key is an error.
* `ApiRow`, `SeedRow`: the rows that the routes and the seeding store.
* `Request.run`: starts of the process and requests to the routes.
* `resolution_always`: what the resolvers return in every state of every run, and what the routes
  store.
-/

namespace Voices

open Async KeyedTable Raising

/-! ### The resolvers -/

/-- A missing key of a dictionary. -/
structure KeyError where
  key : String

/-- `voices[voice_id]`, if it is there. -/
def voice? (voices : List (String × PyDict)) (voiceId : String) : Option PyDict :=
  (voices.find? fun e => e.1 = voiceId).map Prod.snd

/-- `_VOICE_CONSTANTS.get(provider, {})`. -/
def constantVoices (provider : String) : List (String × PyDict) :=
  ((voiceConstants.find? fun e => e.1 = provider).map Prod.snd).getD []

/-- `voices_for`. -/
def voicesFor (m : VoiceMemory) (provider : String) : List (String × PyDict) :=
  let live := ((m.cache.get? provider).getD ∅).entries
  if m.live && !live.isEmpty then live else constantVoices provider

/-- `attrs[key]`. -/
def subscript (attrs : PyDict) (key : String) : Except KeyError PyVal :=
  match attrs.get? key with
  | some value => .ok value
  | none => .error ⟨key⟩

/-- `(voice_id, voices[voice_id][key])`. -/
def pick (voices : List (String × PyDict)) (voiceId key : String) :
    Except KeyError (String × PyVal) :=
  match voice? voices voiceId with
  | some attrs => do return (voiceId, ← subscript attrs key)
  | none => .error ⟨voiceId⟩

/-- The default voice of a language, if there is one. -/
def defaultVoiceOf (lang : Option String) : Option String :=
  lang.bind fun l =>
    if l = "" then none else (defaultMinimaxVoiceByLang.find? fun e => e.1 = l).map Prod.snd

/-- `_resolve_minimax_voice`. -/
def resolveMinimaxVoice (m : VoiceMemory) (voiceKey : String) (lang : Option String) :
    Except KeyError (String × PyVal) :=
  let voices := voicesFor m "minimax"
  let fallback :=
    if (voice? voices defaultMinimaxVoice).isSome then pick voices defaultMinimaxVoice "boost"
    else pick minimaxVoices defaultMinimaxVoice "boost"
  if (voice? voices voiceKey).isSome then pick voices voiceKey "boost"
  else
    match defaultVoiceOf lang with
    | some v => if (voice? voices v).isSome then pick voices v "boost" else fallback
    | none => fallback

/-- `_resolve_polly_voice`. -/
def resolvePollyVoice (m : VoiceMemory) (voiceKey : String) : Except KeyError (String × PyVal) :=
  let voices := voicesFor m "polly"
  if (voice? voices voiceKey).isSome then pick voices voiceKey "engine"
  else if (voice? voices defaultPollyVoice).isSome then pick voices defaultPollyVoice "engine"
  else pick pollyVoices defaultPollyVoice "engine"

/-! ### Rows -/

/-- A string that is not blank. -/
def IsText (v : Option PyVal) : Prop := ∃ s, v = some (.str s) ∧ PyText.strip s ≠ ""

/-- The attributes that a provider requires. -/
structure Complete (provider : String) (attrs : PyDict) : Prop where
  label : ∃ s, attrs.get? "label" = some (.str s)
  minimax : provider = "minimax" → IsText (attrs.get? "language") ∧
    ∃ boost, attrs.get? "boost" = some boost ∧ isBoost boost = true
  polly : provider = "polly" → IsText (attrs.get? "language") ∧ IsText (attrs.get? "engine")
  novaSonic : provider = "nova-sonic" → IsText (attrs.get? "locale") ∧
    ∃ polyglot, attrs.get? "polyglot" = some (.bool polyglot)

/-- A row with all that its provider requires. -/
def ApiRow (item : PyDict) : Prop :=
  ∃ provider ∈ voiceProviders, ∃ voiceId attrs, voiceId ≠ "" ∧ Complete provider attrs ∧
    item = voiceItem provider voiceId attrs

/-- A row of the constants. -/
def SeedRow (item : PyDict) : Prop :=
  ∃ e ∈ constantEntries, item = voiceItem e.1 e.2.1 e.2.2

/-- The attribute that the resolver of a provider reads. -/
def resolvedKey (provider : String) : Option String :=
  if provider = "minimax" then some "boost" else if provider = "polly" then some "engine" else none

/-- The attribute that the resolver of the provider reads is there. -/
def HasResolved (provider : String) (attrs : PyDict) : Prop :=
  ∀ key ∈ resolvedKey provider, (attrs.get? key).isSome

instance (provider : String) (attrs : PyDict) : Decidable (HasResolved provider attrs) := by
  unfold HasResolved
  infer_instance

theorem get?_filter_keys {attrs : PyDict} {key : String} (hkey : key = "provider" ∨ key = "voice_id") :
    PyDict.get? (attrs.filter fun e => e.1 ≠ "provider" ∧ e.1 ≠ "voice_id").reverse key = none := by
  by_contra hne
  obtain ⟨v, hv⟩ := Option.ne_none_iff_exists'.mp hne
  have hmem := (List.mem_filter.mp (List.mem_reverse.mp (PyDict.mem_of_get? hv))).2
  simp only [decide_eq_true_eq] at hmem
  exact hkey.elim hmem.1 hmem.2

theorem itemValue_str (s : String) : Ddb.itemValue (.str s) = .str s := by
  rw [Ddb.itemValue_eq, PyVal.mapScalars_of_isScalar _ rfl]
  rfl

/-- The key columns win. -/
theorem itemKey_voiceItem (provider voiceId : String) (attrs : PyDict) :
    itemKey (voiceItem provider voiceId attrs) = (provider, voiceId) := by
  have hcolumn {key s : String} (hkey : key = "provider" ∨ key = "voice_id")
      (hbase : PyDict.get? [("provider", .str provider), ("voice_id", .str voiceId)] key =
        some (.str s)) :
      strAttr (voiceItem provider voiceId attrs) key = s := by
    rw [strAttr, PyDict.get, voiceItem, PyDict.get?_mapValues, PyDict.get?_update,
      get?_filter_keys hkey, Option.none_or, hbase, Option.map_some, itemValue_str]
    rfl
  rw [itemKey, hcolumn (Or.inl rfl) rfl, hcolumn (Or.inr rfl) rfl]

/-- An attribute that is written is cached. -/
theorem isSome_itemAttrs_voiceItem {provider voiceId key : String} {attrs : PyDict}
    (hkey : key ≠ "provider" ∧ key ≠ "voice_id") (h : (attrs.get? key).isSome) :
    ((itemAttrs (voiceItem provider voiceId attrs)).get? key).isSome := by
  have hattrs : key ∈ (attrs.filter fun e => e.1 ≠ "provider" ∧ e.1 ≠ "voice_id").map Prod.fst := by
    rw [PyDict.isSome_get?_iff] at h
    obtain ⟨e, he, rfl⟩ := List.mem_map.mp h
    exact List.mem_map_of_mem (List.mem_filter.mpr ⟨he, by simpa using hkey⟩)
  have hitem : (PyDict.get? (voiceItem provider voiceId attrs) key).isSome := by
    rw [← List.mem_reverse, ← List.map_reverse, ← PyDict.isSome_get?_iff] at hattrs
    rw [voiceItem, PyDict.get?_mapValues, Option.isSome_map, PyDict.get?_update, Option.isSome_or,
      hattrs, Bool.true_or]
  rw [PyDict.isSome_get?_iff] at hitem ⊢
  obtain ⟨e, he, rfl⟩ := List.mem_map.mp hitem
  refine List.mem_map.mpr ⟨(e.1, Ddb.fromDdb e.2), List.mem_filter.mpr ⟨?_, by simpa using hkey⟩, rfl⟩
  exact List.mem_map_of_mem he

theorem hasResolved_constantEntries : ∀ e ∈ constantEntries, HasResolved e.1 e.2.2 := by
  decide +kernel

theorem resolvedKey_ne {provider key : String} (h : key ∈ resolvedKey provider) :
    key ≠ "provider" ∧ key ≠ "voice_id" := by
  rw [resolvedKey] at h
  split_ifs at h
  · obtain rfl := Option.some.inj h
    decide
  · obtain rfl := Option.some.inj h
    decide
  · exact absurd h nofun

/-- What a provider requires has what its resolver reads. -/
theorem Complete.hasResolved {provider : String} {attrs : PyDict} (h : Complete provider attrs) :
    HasResolved provider attrs := by
  intro key hkey
  rw [resolvedKey] at hkey
  split_ifs at hkey with hminimax hpolly
  · obtain rfl := Option.some.inj hkey
    obtain ⟨-, boost, hboost, -⟩ := h.minimax hminimax
    rw [hboost, Option.isSome_some]
  · obtain rfl := Option.some.inj hkey
    obtain ⟨-, engine, hengine, -⟩ := h.polly hpolly
    rw [hengine, Option.isSome_some]
  · exact absurd hkey nofun

/-- A row that is cached with what the resolver of its provider reads. -/
def Serves (item : PyDict) : Prop := HasResolved (itemKey item).1 (itemAttrs item)

theorem serves_voiceItem {provider voiceId : String} {attrs : PyDict}
    (h : HasResolved provider attrs) : Serves (voiceItem provider voiceId attrs) := by
  intro key hkey
  rw [itemKey_voiceItem] at hkey
  exact isSome_itemAttrs_voiceItem (resolvedKey_ne hkey) (h key hkey)

theorem serves_of_row {item : PyDict} (h : SeedRow item ∨ ApiRow item) : Serves item := by
  rcases h with ⟨e, he, rfl⟩ | ⟨provider, -, voiceId, attrs, -, hcomplete, rfl⟩
  · exact serves_voiceItem (hasResolved_constantEntries e he)
  · exact serves_voiceItem hcomplete.hasResolved

/-! ### The cache -/

/-- Every cached voice has what the resolver of its provider reads. -/
def Resolvable (m : VoiceMemory) : Prop :=
  ∀ provider voiceId attrs, lookup m.cache provider voiceId = some attrs → HasResolved provider attrs

/-- What an item adds to the cache is the item. -/
theorem lookup_loadItem_cases {acc : VoiceCache × List Skipped} {item attrs : PyDict}
    {provider voiceId : String} (h : lookup (loadItem acc item).1 provider voiceId = some attrs) :
    (itemKey item = (provider, voiceId) ∧ voiceId ≠ "" ∧ attrs = itemAttrs item) ∨
      lookup acc.1 provider voiceId = some attrs := by
  rcases hkey : itemKey item with ⟨p, v⟩
  simp only [loadItem, hkey] at h
  split_ifs at h with hempty
  · exact Or.inr h
  · obtain ⟨-, hvoice⟩ := not_or.mp hempty
    simp only [lookup, OrderedMap.get?_set] at h ⊢
    by_cases hp : provider = p
    · subst hp
      rw [if_pos rfl, Option.bind_some, OrderedMap.get?_set] at h
      by_cases hv : voiceId = v
      · rw [if_pos hv] at h
        exact Or.inl ⟨by rw [hv], by rwa [hv], (Option.some.inj h).symm⟩
      · rw [if_neg hv] at h
        refine Or.inr ?_
        -- A provider that was not cached has no voices.
        cases hvoices : acc.1.get? provider with
        | some voices => rwa [hvoices] at h
        | none => rw [hvoices] at h; cases h
    · rw [if_neg hp] at h
      exact Or.inr h

/-- What a scan caches is an item. -/
theorem exists_of_lookup_loadItems {items : List PyDict} {provider voiceId : String} {attrs : PyDict}
    (h : lookup (loadItems items) provider voiceId = some attrs) :
    ∃ item ∈ items, itemKey item = (provider, voiceId) ∧ voiceId ≠ "" ∧ attrs = itemAttrs item := by
  have hfold : ∀ acc : VoiceCache × List Skipped,
      lookup (items.foldl loadItem acc).1 provider voiceId = some attrs →
        (∃ item ∈ items, itemKey item = (provider, voiceId) ∧ voiceId ≠ "" ∧ attrs = itemAttrs item) ∨
          lookup acc.1 provider voiceId = some attrs := by
    clear h
    induction items with
    | nil => exact fun acc hacc => Or.inr hacc
    | cons item items ih =>
      intro acc hacc
      rcases ih _ hacc with ⟨item', hitem', hkey⟩ | hloaded
      · exact Or.inl ⟨item', List.mem_cons_of_mem item hitem', hkey⟩
      · exact (lookup_loadItem_cases hloaded).imp_left fun hkey => ⟨item, List.mem_cons_self, hkey⟩
  rcases hfold _ h with hitem | hempty
  · exact hitem
  · rw [lookup_emptyCache] at hempty
    exact absurd hempty nofun

theorem resolvable_loadItems {items : List PyDict} (h : ∀ item ∈ items, Serves item) {live : Bool}
    {skipped : List Skipped} :
    Resolvable { cache := loadItems items, live, lastSkipped := skipped } := by
  intro provider voiceId attrs hlookup
  obtain ⟨item, hitem, hkey, -, rfl⟩ := exists_of_lookup_loadItems hlookup
  have hserves := h item hitem
  rwa [Serves, hkey] at hserves

theorem resolvable_newStore : Resolvable newStore := by
  intro p v attrs h
  rw [newStore, lookup_emptyCache] at h
  exact absurd h nofun

theorem voice?_entries (voices : OrderedMap String PyDict) (voiceId : String) :
    voice? voices.entries voiceId = voices.get? voiceId := rfl

/-- A constant has what the resolver of its provider reads. -/
theorem hasResolved_constantVoices {provider voiceId : String} {attrs : PyDict}
    (h : voice? (constantVoices provider) voiceId = some attrs) : HasResolved provider attrs := by
  obtain ⟨e, he, rfl⟩ := Option.map_eq_some_iff.mp h
  have hmem := List.mem_of_find?_eq_some he
  rw [constantVoices] at hmem
  match hfind : voiceConstants.find? fun c => c.1 = provider with
  | none =>
    rw [hfind] at hmem
    exact absurd hmem List.not_mem_nil
  | some c =>
    rw [hfind] at hmem
    have hc : c.1 = provider := by simpa using List.find?_some hfind
    have hentry : (c.1, e) ∈ constantEntries :=
      List.mem_flatMap.mpr ⟨c, List.mem_of_find?_eq_some hfind, List.mem_map_of_mem hmem⟩
    have hresolved := hasResolved_constantEntries _ hentry
    rwa [hc] at hresolved

theorem Resolvable.hasResolved {m : VoiceMemory} (h : Resolvable m) {provider voiceId : String}
    {attrs : PyDict} (hvoice : voice? (voicesFor m provider) voiceId = some attrs) :
    HasResolved provider attrs := by
  simp only [voicesFor] at hvoice
  split_ifs at hvoice
  · rw [voice?_entries] at hvoice
    refine h provider voiceId attrs ?_
    rw [lookup]
    cases hvoices : m.cache.get? provider with
    | some voices => rwa [hvoices] at hvoice
    | none => rw [hvoices] at hvoice; cases hvoice
  · exact hasResolved_constantVoices hvoice

/-! ### What the routes accept -/

theorem requireText_ok {value : PyVal} {detail text : String}
    (h : requireText value detail = .ok text) : value = .str text ∧ PyText.strip text ≠ "" := by
  match value with
  | .str s =>
    simp only [requireText] at h
    split_ifs at h with hblank
    obtain rfl := Except.ok.inj h
    exact ⟨rfl, hblank⟩
  | .none | .bool _ | .int _ | .float _ | .nan | .infinity _ | .list _ | .dict _ => exact absurd h nofun

/-- Label and gender come first. -/
theorem get?_commonAttrs_append (py : PyTexts) (body attrs : PyDict) (voiceId : String) {key : String}
    (hkey : key ≠ "label" ∧ key ≠ "gender") :
    PyDict.get? (commonAttrs py body voiceId ++ attrs) key = attrs.get? key := by
  have hcommon : PyDict.get? (commonAttrs py body voiceId) key = none := by
    rw [commonAttrs, PyDict.get?_append, PyDict.get?_cons, if_neg fun h => hkey.1 h.symm]
    split_ifs
    · rw [PyDict.get?_cons, if_neg fun h => hkey.2 h.symm]
      rfl
    · rfl
  rw [PyDict.get?_append, hcommon, Option.none_or]

theorem get?_label (py : PyTexts) (body attrs : PyDict) (voiceId : String) :
    ∃ s, PyDict.get? (commonAttrs py body voiceId ++ attrs) "label" = some (.str s) := by
  rw [PyDict.get?_append, commonAttrs, PyDict.get?_append]
  exact ⟨_, rfl⟩

theorem provider?_mem {provider : PyVal} {p : String} (h : provider? provider = some p) :
    p ∈ voiceProviders := by
  match provider with
  | .str s =>
    simp only [provider?] at h
    split_ifs at h with hmem
    rwa [← Option.some.inj h]
  | .none | .bool _ | .int _ | .float _ | .nan | .infinity _ | .list _ | .dict _ => exact absurd h nofun

/-- What `_validate_voice_body` accepts is complete. -/
theorem complete_validateVoiceBody {py : PyTexts} {provider : PyVal} {body attrs : PyDict}
    (h : validateVoiceBody py provider body = .ok attrs) :
    ∃ p ∈ voiceProviders, provider? provider = some p ∧ Complete p attrs := by
  rw [validateVoiceBody] at h
  match hp : provider? provider with
  | none => rw [hp] at h; exact absurd h nofun
  | some p =>
    rw [hp] at h
    obtain ⟨voiceId, -, h⟩ := ok_of_bind h
    obtain ⟨own, hown, h⟩ := ok_of_bind h
    obtain rfl := Except.ok.inj h
    -- The common attributes hide none that a provider requires.
    have hget {key : String} (hkey : key ≠ "label" ∧ key ≠ "gender") :=
      get?_commonAttrs_append py body own voiceId hkey
    refine ⟨p, provider?_mem hp, rfl, get?_label py body own voiceId, ?_, ?_, ?_⟩
    · rintro rfl
      obtain ⟨lang, hlang, hown⟩ := ok_of_bind hown
      obtain ⟨-, htext⟩ := requireText_ok hlang
      dsimp only at hown
      split_ifs at hown with hboost
      · obtain ⟨_, hraise, -⟩ := ok_of_bind hown
        exact absurd hraise nofun
      · obtain rfl := Except.ok.inj hown
        rw [hget (by decide), hget (by decide)]
        exact ⟨⟨lang, rfl, htext⟩, body.get "boost", rfl, by simpa using hboost⟩
    · rintro rfl
      obtain ⟨lang, hlang, hown⟩ := ok_of_bind hown
      obtain ⟨engine, hengine, hown⟩ := ok_of_bind hown
      obtain rfl := Except.ok.inj hown
      rw [hget (by decide), hget (by decide)]
      exact ⟨⟨lang, rfl, (requireText_ok hlang).2⟩, engine, rfl, (requireText_ok hengine).2⟩
    · rintro rfl
      obtain ⟨locale, hlocale, hown⟩ := ok_of_bind hown
      dsimp only at hown
      split at hown
      · obtain rfl := Except.ok.inj hown
        rw [hget (by decide), hget (by decide)]
        exact ⟨⟨locale, rfl, (requireText_ok hlocale).2⟩, _, rfl⟩
      · exact absurd hown nofun

/-! ### The programs -/

variable {slot : String × String ↪ ℕ}

/-- The contract of the voice table: seeded rows and rows of the API, and a cache that resolves. -/
def voiceContract (slot : String × String ↪ ℕ) :
    Contract (service (voiceSchema slot)) VoiceMemory :=
  itemContract (voiceSchema slot) (fun item => SeedRow item ∨ ApiRow item) Resolvable

/-- The operation stores only items that meet `P`. -/
def Stores (P : PyDict → Prop) (op : Op (String × String) PyDict Empty) : Prop :=
  ∀ item, op.stored? = some item → P item

section Keeps

variable {P : PyDict → Prop} {α : Type}

theorem keeps_rescan :
    (rescan : VoiceProg slot ℤ).Keeps ((voiceContract slot).narrow (Stores P)) fun _ => True := by
  refine fun m hm => ⟨hm, ⟨trivial, nofun⟩, fun reply hreply => ?_⟩
  match reply with
  | .error f =>
    dsimp only
    split_ifs
    · exact fun m hm => ⟨hm, trivial⟩
    · exact fun m hm => ⟨hm, fun m hm => trivial⟩
  | .ok items =>
    exact fun m hm =>
      ⟨resolvable_loadItems fun item hitem => serves_of_row (hreply items rfl item hitem), trivial⟩

theorem keeps_put {provider voiceId : String} {attrs : PyDict}
    (hrow : voiceId ≠ "" → SeedRow (voiceItem provider voiceId attrs) ∨
      ApiRow (voiceItem provider voiceId attrs))
    (hP : voiceId ≠ "" → P (voiceItem provider voiceId attrs)) :
    (put provider voiceId attrs : VoiceProg slot Unit).Keeps ((voiceContract slot).narrow (Stores P))
      fun _ => True := by
  rw [put]
  split_ifs with hempty
  · trivial
  · obtain ⟨-, hvoice⟩ := not_or.mp hempty
    refine ⟨⟨hrow hvoice, fun item hitem => ?_⟩, fun reply hreply => ?_⟩
    · obtain rfl := Option.some.inj hitem
      exact hP hvoice
    · match reply with
      | .ok _ => trivial
      | .error f => trivial

theorem keeps_delete {provider voiceId : String} :
    (delete provider voiceId : VoiceProg slot Unit).Keeps ((voiceContract slot).narrow (Stores P))
      fun _ => True := by
  rw [delete]
  split_ifs with hempty
  · trivial
  · refine ⟨⟨trivial, nofun⟩, fun reply hreply => ?_⟩
    match reply with
    | .ok _ => trivial
    | .error f => trivial

theorem keeps_seedPuts {entries : List (String × String × PyDict)}
    (h : ∀ e ∈ entries, e ∈ constantEntries) :
    (seedPuts entries : VoiceProg slot Unit).Keeps ((voiceContract slot).narrow (Stores SeedRow))
      fun _ => True := by
  induction entries with
  | nil => trivial
  | cons e rest ih =>
    have hseed : SeedRow (voiceItem e.1 e.2.1 e.2.2) := ⟨e, h e List.mem_cons_self, rfl⟩
    exact (keeps_put (fun _ => Or.inl hseed) fun _ => hseed).bind fun _ _ =>
      ih fun e' he' => h e' (List.mem_cons_of_mem e he')

theorem keeps_boot :
    (boot constantEntries : VoiceProg slot Unit).Keeps ((voiceContract slot).narrow (Stores SeedRow))
      fun _ => True := by
  refine ⟨resolvable_newStore, Prog.Keeps.tryCatch ?_ fun _ => trivial⟩
  refine Prog.Keeps.bind (R := fun _ => True) ?_ fun _ _ => trivial
  refine keeps_rescan.bind fun _ _ m hm => ?_
  refine Prog.keeps_ite (fun _ => trivial) fun _ => Prog.keeps_ite (fun _ => trivial) fun _ => ?_
  refine (keeps_seedPuts fun e he => he).bind fun _ _ => ?_
  exact Prog.keeps_ite (fun _ => keeps_rescan.bind fun _ _ => trivial) fun _ => trivial

theorem keeps_store {provider voiceId : String} {attrs : PyDict}
    (hprovider : provider ∈ voiceProviders) (hcomplete : Complete provider attrs) :
    (store provider voiceId attrs : RouteProg slot PyDict).Keeps
      ((voiceContract slot).narrow (Stores ApiRow)) fun _ => True := by
  have hrow (hvoice : voiceId ≠ "") : ApiRow (voiceItem provider voiceId attrs) :=
    ⟨provider, hprovider, voiceId, attrs, hvoice, hcomplete, rfl⟩
  refine ((keeps_put (fun h => Or.inr (hrow h)) hrow).mapError _).bind fun _ _ => ?_
  exact (keeps_rescan.mapError _).bind fun _ _ m hm => trivial

/-- The attributes that a route has validated. -/
theorem keeps_validated {py : PyTexts} {provider : PyVal} {body : PyDict} :
    (Prog.ofExcept ((validateVoiceBody py provider body).mapError .http) :
        RouteProg slot PyDict).Keeps ((voiceContract slot).narrow (Stores ApiRow))
      fun attrs => ∃ p ∈ voiceProviders, provider? provider = some p ∧ Complete p attrs := by
  refine Prog.keeps_ofExcept fun attrs hattrs => ?_
  match hbody : validateVoiceBody py provider body with
  | .ok attrs' =>
    rw [hbody] at hattrs
    obtain rfl := Except.ok.inj hattrs
    exact complete_validateVoiceBody hbody
  | .error e =>
    rw [hbody] at hattrs
    exact absurd hattrs nofun

theorem keeps_adminVoicesCreate (py : PyTexts) (body : PyDict) :
    (adminVoicesCreate py body : RouteProg slot PyDict).Keeps
      ((voiceContract slot).narrow (Stores ApiRow)) fun _ => True := by
  rw [adminVoicesCreate]
  dsimp only
  split
  · refine keeps_validated.bind fun attrs ⟨p, hmem, hp, hcomplete⟩ => ?_
    rw [hp]
    exact keeps_store hmem hcomplete
  · trivial

theorem keeps_checkProvider (py : PyTexts) (provider : String) :
    (checkProvider py provider : RouteProg slot Unit).Keeps ((voiceContract slot).narrow (Stores P))
      fun _ => True :=
  Prog.keeps_ite (fun _ => trivial) fun _ => trivial

theorem keeps_requireVoice (provider voiceId : String) :
    (requireVoice provider voiceId : RouteProg slot PyDict).Keeps
      ((voiceContract slot).narrow (Stores P)) fun _ => True := by
  intro m hm
  show Prog.Keeps _ _ (match get m provider voiceId with
    | some attrs => Prog.done attrs
    | none => Prog.raise _)
  split <;> trivial

theorem keeps_adminVoicesUpdate (py : PyTexts) (provider voiceId : String) (body : PyDict) :
    (adminVoicesUpdate py provider voiceId body : RouteProg slot PyDict).Keeps
      ((voiceContract slot).narrow (Stores ApiRow)) fun _ => True := by
  refine (keeps_checkProvider py provider).bind fun _ _ => ?_
  refine (keeps_requireVoice provider voiceId).bind fun existing _ => ?_
  refine keeps_validated.bind fun attrs ⟨p, hmem, hp, hcomplete⟩ => ?_
  have hprovider : p = provider := by
    rw [provider?] at hp
    split_ifs at hp
    exact (Option.some.inj hp).symm
  subst hprovider
  exact keeps_store hmem hcomplete

theorem keeps_adminVoicesDelete (py : PyTexts) (provider voiceId : String) :
    (adminVoicesDelete py provider voiceId : RouteProg slot PyDict).Keeps
      ((voiceContract slot).narrow (Stores ApiRow)) fun _ => True := by
  refine (keeps_checkProvider py provider).bind fun _ _ => ?_
  refine (keeps_requireVoice provider voiceId).bind fun _ _ => ?_
  refine (keeps_delete.mapError _).bind fun _ _ => ?_
  exact (keeps_rescan.mapError _).bind fun _ _ => trivial

end Keeps

/-! ### Every run -/

/-- Starts of the process and requests to the routes. -/
inductive Request where
  | boot
  | create (body : PyDict)
  | update (provider voiceId : String) (body : PyDict)
  | delete (provider voiceId : String)

/-- What a request runs. -/
def Request.run (py : PyTexts) : Request → RouteProg slot PyDict
  | boot => do
    call (Voices.boot constantEntries)
    return []
  | create body => adminVoicesCreate py body
  | update provider voiceId body => adminVoicesUpdate py provider voiceId body
  | delete provider voiceId => adminVoicesDelete py provider voiceId

/-- The rows that a request may store. -/
def Request.Row : Request → PyDict → Prop
  | boot => SeedRow
  | _ => ApiRow

/-- Every request keeps to the contract and stores the rows that it may. -/
theorem Request.keeps_run (py : PyTexts) (r : Request) :
    (Request.run py r : RouteProg slot PyDict).Keeps ((voiceContract slot).narrow (Stores r.Row))
      fun _ => True := by
  match r with
  | boot => exact (keeps_boot.mapError _).bind fun _ _ => trivial
  | create body => exact keeps_adminVoicesCreate py body
  | update provider voiceId body => exact keeps_adminVoicesUpdate py provider voiceId body
  | delete provider voiceId => exact keeps_adminVoicesDelete py provider voiceId

/-- The voice that `voices_for` records, or else the constants. -/
def recorded (m : VoiceMemory) (provider voiceId : String) : Option PyDict :=
  (voice? (voicesFor m provider) voiceId).or (voice? (constantVoices provider) voiceId)

/-- A resolver does not raise: it returns the voice that was asked for, if `voices_for` has it, and
otherwise one of the defaults, with the attribute that is recorded for this voice. -/
def Resolves (m : VoiceMemory) (provider key requested : String) (defaults : List String)
    (result : Except KeyError (String × PyVal)) : Prop :=
  ∃ voiceId value, result = .ok (voiceId, value) ∧
    (∃ attrs, recorded m provider voiceId = some attrs ∧ attrs.get? key = some value) ∧
    if (voice? (voicesFor m provider) requested).isSome then voiceId = requested
    else voiceId ∈ defaults

/-- Picking a voice that is there. -/
theorem pick_ok {voices : List (String × PyDict)} {voiceId key : String}
    (hvoice : (voice? voices voiceId).isSome)
    (hkey : ∀ attrs, voice? voices voiceId = some attrs → (attrs.get? key).isSome) :
    ∃ value attrs, pick voices voiceId key = .ok (voiceId, value) ∧
      voice? voices voiceId = some attrs ∧ attrs.get? key = some value := by
  obtain ⟨attrs, hattrs⟩ := Option.isSome_iff_exists.mp hvoice
  obtain ⟨value, hvalue⟩ := Option.isSome_iff_exists.mp (hkey attrs hattrs)
  refine ⟨value, attrs, ?_, hattrs, hvalue⟩
  rw [pick, hattrs]
  dsimp only
  rw [subscript, hvalue]
  rfl

section Resolvers

variable {m : VoiceMemory} {provider key : String}

/-- A member of `voices_for` is picked with what is recorded for it. -/
theorem Resolvable.pick_voicesFor (h : Resolvable m) (hkey : key ∈ resolvedKey provider)
    {voiceId : String} (hvoice : (voice? (voicesFor m provider) voiceId).isSome) :
    ∃ value, pick (voicesFor m provider) voiceId key = .ok (voiceId, value) ∧
      ∃ attrs, recorded m provider voiceId = some attrs ∧ attrs.get? key = some value := by
  obtain ⟨value, attrs, hpick, hattrs, hvalue⟩ :=
    pick_ok hvoice fun attrs hattrs => h.hasResolved hattrs key hkey
  exact ⟨value, hpick, attrs, by rw [recorded, hattrs, Option.some_or], hvalue⟩

/-- The default voice, from `voices_for` or from the constants. -/
theorem Resolvable.pick_default (h : Resolvable m) (hkey : key ∈ resolvedKey provider)
    (default : String) (hdefault : (voice? (constantVoices provider) default).isSome) :
    ∃ value, (if (voice? (voicesFor m provider) default).isSome
        then pick (voicesFor m provider) default key
        else pick (constantVoices provider) default key) = .ok (default, value) ∧
      ∃ attrs, recorded m provider default = some attrs ∧ attrs.get? key = some value := by
  split_ifs with hvoice
  · exact h.pick_voicesFor hkey hvoice
  · obtain ⟨value, attrs, hpick, hattrs, hvalue⟩ :=
      pick_ok hdefault fun attrs hattrs => hasResolved_constantVoices hattrs key hkey
    refine ⟨value, hpick, attrs, ?_, hvalue⟩
    rw [recorded, Option.not_isSome_iff_eq_none.mp hvoice, Option.none_or, hattrs]

end Resolvers

theorem resolves_minimax {m : VoiceMemory} (h : Resolvable m) (requested : String)
    (lang : Option String) :
    Resolves m "minimax" "boost" requested (defaultMinimaxVoice :: (defaultVoiceOf lang).toList)
      (resolveMinimaxVoice m requested lang) := by
  have hkey : "boost" ∈ resolvedKey "minimax" := rfl
  obtain ⟨fallback, hfallback, hrecorded⟩ :=
    h.pick_default hkey defaultMinimaxVoice (by decide +kernel)
  have hconstants : constantVoices "minimax" = minimaxVoices := rfl
  rw [hconstants] at hfallback
  rw [resolveMinimaxVoice, hfallback]
  split_ifs with hrequested
  · obtain ⟨value, hpick, hvalue⟩ := h.pick_voicesFor hkey hrequested
    exact ⟨requested, value, hpick, hvalue, by rw [if_pos hrequested]⟩
  · -- Not a voice of the registry: the default of the language, if the registry has it.
    match hlang : defaultVoiceOf lang with
    | none =>
      exact ⟨defaultMinimaxVoice, fallback, rfl, hrecorded, by rw [if_neg hrequested]; simp⟩
    | some v =>
      dsimp only
      split_ifs with hv
      · obtain ⟨value, hpick, hvalue⟩ := h.pick_voicesFor hkey hv
        exact ⟨v, value, hpick, hvalue, by rw [if_neg hrequested]; simp⟩
      · exact ⟨defaultMinimaxVoice, fallback, rfl, hrecorded, by rw [if_neg hrequested]; simp⟩

theorem resolves_polly {m : VoiceMemory} (h : Resolvable m) (requested : String) :
    Resolves m "polly" "engine" requested [defaultPollyVoice] (resolvePollyVoice m requested) := by
  have hkey : "engine" ∈ resolvedKey "polly" := rfl
  obtain ⟨fallback, hfallback, hrecorded⟩ :=
    h.pick_default hkey defaultPollyVoice (by decide +kernel)
  have hconstants : constantVoices "polly" = pollyVoices := rfl
  rw [hconstants] at hfallback
  rw [resolvePollyVoice, hfallback]
  split_ifs with hrequested
  · obtain ⟨value, hpick, hvalue⟩ := h.pick_voicesFor hkey hrequested
    exact ⟨requested, value, hpick, hvalue, by rw [if_pos hrequested]⟩
  · exact ⟨defaultPollyVoice, fallback, rfl, hrecorded, by rw [if_neg hrequested]; simp⟩

/-- The rows of the table are seeded or the API's, and what a request stores is of its kind. -/
structure RowsKept (s : Pool (service (voiceSchema slot)) Request VoiceMemory RouteExc PyDict) :
    Prop where
  table : ∀ item ∈ s.store, SeedRow item ∨ ApiRow item
  tasks : ∀ task ∈ s.tasks, Pool.Awaits (Stores task.request.Row) task.stage

/-- From an empty table, in every run of starts, creations, updates and deletions, however their
operations interleave and fail, the resolvers return a voice with what is recorded for it, and every
row that the API stores has what its provider requires. -/
theorem resolution_always (py : PyTexts)
    (es : List (Event (service (voiceSchema slot)) Request)) :
    Run.Always (Pool.step (Request.run py))
      (fun s =>
        (∀ requested lang, Resolves s.memory "minimax" "boost" requested
          (defaultMinimaxVoice :: (defaultVoiceOf lang).toList)
          (resolveMinimaxVoice s.memory requested lang)) ∧
        (∀ requested, Resolves s.memory "polly" "engine" requested [defaultPollyVoice]
          (resolvePollyVoice s.memory requested)) ∧
        RowsKept s)
      (Pool.start ∅ newStore) es := by
  refine (Pool.always_kept (c := voiceContract slot) (Q := fun r => Stores r.Row)
    (fun r => r.keeps_run py) ?_ resolvable_newStore es).mono fun s hkept => ?_
  · exact fun item hitem => absurd hitem (Table.notMem_empty item)
  · refine ⟨resolves_minimax hkept.memory, resolves_polly hkept.memory, hkept.store, ?_⟩
    exact fun task htask => (hkept.stages task htask).awaits

end Voices
