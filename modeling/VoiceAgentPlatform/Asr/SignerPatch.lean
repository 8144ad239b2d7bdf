import Mathlib.Data.List.Basic
import VoiceAgentPlatform.Lib.PyVal
import VoiceAgentPlatform.Lib.Run

/-!
# The signer patch of the ASR test

Stream B of `/asr-test/ws` signs its connection with a signer of its own, which it puts in the place of
the module-level name `pipecat.services.aws.stt.get_presigned_url` for as long as its connect is
awaited. The name is shared with every other connect of the process.

* `buildTranscribePresignedUrl`: the request parameters that the own signer signs.
* `Seam`: the name and the connects; `step`: what a connect does between two awaits. A connect reads
  and calls the name at any moment while it is awaited.
* `SignedOwn`: every connect signs with its own signer, and the name is the stock one when no stream B
  is connecting.
* `Nested`: the order of steps that keeps it so; `signedOwn_of_nested` is the run rule.
-/

namespace Asr

/-! ### Signing -/

/-- What `_connect_websocket` passes to `get_presigned_url`. -/
structure SignRequest where
  region : String
  accessKey : Option String
  secretKey : Option String
  sessionToken : Option String
  languageCode : String
  mediaEncoding : String
  sampleRate : ℕ
  numberOfChannels : ℕ
  enablePartialResultsStabilization : Bool
  partialResultsStability : String
  showSpeakerLabel : Bool
  enableChannelIdentification : Bool

/-- `_ml`: the options of a stream B. -/
structure MultiLang where
  languageOptions : Option String
  preferredLanguage : Option String
  mode : String
  partialResultsStability : Option String
  deriving DecidableEq

/-- The request parameters of a presigned URL, in their order and before they are quoted, or the text of the `ValueError`. -/
abbrev SignedUrl := Except String (List (String × String))

/-- A parameter that is only there if its value is not empty. -/
def optionalParam (name : String) (value : Option String) : List (String × String) :=
  match value with
  | none => []
  | some v => if v = "" then [] else [(name, v)]

/-- `build_transcribe_presigned_url`, for an identify mode without a language code. -/
def buildTranscribePresignedUrl (request : SignRequest) (stability : String)
    (identifyLanguage identifyMultipleLanguages : Bool)
    (languageOptions preferredLanguage : Option String) : SignedUrl :=
  if PyText.orDefault request.accessKey "" = "" || PyText.orDefault request.secretKey "" = "" then
    .error "AWS credentials are required"
  else if (identifyMultipleLanguages || identifyLanguage) &&
      PyText.strip (PyText.orDefault languageOptions "") = "" then
    .error ("language_options is required (non-empty) when identify_language " ++
      "or identify_multiple_languages is set")
  else if !(identifyMultipleLanguages || identifyLanguage) then
    .error "language_code is required when no identify-* mode is set"
  else .ok <|
    -- What is left out is not a parameter, and is not signed.
    (if request.enablePartialResultsStabilization then
      [("enable-partial-results-stabilization", "true")] else []) ++
    (if identifyLanguage then [("identify-language", "true")] else []) ++
    (if identifyMultipleLanguages then [("identify-multiple-languages", "true")] else []) ++
    optionalParam "language-options" languageOptions ++
    optionalParam "media-encoding" (some request.mediaEncoding) ++
    optionalParam "partial-results-stability" (some stability) ++
    optionalParam "preferred-language" preferredLanguage ++
    (if request.sampleRate = 0 then [] else [("sample-rate", toString request.sampleRate)])

/-- `_patched_get_presigned_url`: the language code, the channels and the labels are dropped. -/
def patchedGetPresignedUrl (ml : MultiLang) (request : SignRequest) : SignedUrl :=
  buildTranscribePresignedUrl request
    (ml.partialResultsStability.getD request.partialResultsStability)
    (ml.mode = "single") (ml.mode ≠ "single") ml.languageOptions ml.preferredLanguage

/-- What the module-level name can be bound to. -/
inductive Signer where
  | stock
  | patched (ml : MultiLang)
  deriving DecidableEq

/-- A call of the name; the stock signer is the installed package's. -/
def Signer.call (stockUrl : SignRequest → SignedUrl) : Signer → SignRequest → SignedUrl
  | .stock, request => stockUrl request
  | .patched ml, request => patchedGetPresignedUrl ml request

/-! ### Connects -/

/-- A connect of `AWSTranscribeSTTService`: of a stream B, with its options, or a stock one. -/
structure Connect where
  ml : Option MultiLang
  request : SignRequest
  inProgress : Bool
  /-- `orig`, for a stream B. -/
  orig : Signer
  signed : Option SignedUrl

/-- The signer that a connect is meant to use. -/
def Connect.own (c : Connect) : Signer :=
  match c.ml with
  | none => .stock
  | some ml => .patched ml

/-- What a stream B that is connecting has put in the place of the name. -/
def Connect.patch? (c : Connect) : Option Signer :=
  if c.inProgress then c.ml.map .patched else none

/-- The module-level name, and the connects in the order in which they began. -/
structure Seam where
  getPresignedUrl : Signer
  connects : List Connect

/-- What happens next. -/
inductive Event where
  /-- A connect begins: a stream B saves the name and replaces it. -/
  | connect (ml : Option MultiLang) (request : SignRequest)
  /-- Connect `i` reads the name and calls it. -/
  | sign (i : ℕ)
  /-- Connect `i` returns, fails or is cancelled: a stream B restores what it saved. -/
  | finish (i : ℕ)

namespace Seam

/-- Before any connect. -/
def init : Seam := ⟨.stock, []⟩

/-- One step; an event that is not possible changes nothing. -/
def step (stockUrl : SignRequest → SignedUrl) (s : Seam) : Event → Seam
  | .connect ml request =>
    -- The name is bound to the patch while the service connects.
    { getPresignedUrl := match ml with
        | none => s.getPresignedUrl
        | some ml => .patched ml
      connects := s.connects ++
        [{ ml, request, inProgress := true, orig := s.getPresignedUrl, signed := none }] }
  | .sign i =>
    match s.connects[i]? with
    | none => s
    | some c =>
      -- The signer is looked up by name when the connection is made.
      if c.inProgress && c.signed.isNone then
        { s with
          connects := s.connects.modify i fun c =>
            { c with signed := some (s.getPresignedUrl.call stockUrl c.request) } }
      else s
  | .finish i =>
    match s.connects[i]? with
    | none => s
    | some c =>
      if c.inProgress then
        -- What was bound at the start of the connection is put back.
        { getPresignedUrl := if c.ml.isSome then c.orig else s.getPresignedUrl
          connects := s.connects.modify i fun c => { c with inProgress := false } }
      else s

/-- Every connect that has signed did so with its own signer, and the name is the stock one when no
stream B is connecting. -/
structure SignedOwn (stockUrl : SignRequest → SignedUrl) (s : Seam) : Prop where
  own : ∀ c ∈ s.connects, ∀ url, c.signed = some url → url = c.own.call stockUrl c.request
  restored : (∀ c ∈ s.connects, c.patch? = none) → s.getPresignedUrl = .stock

/-- A connect signs, and a stream B finishes, when no stream B that began after it is connecting; a
stock connect signs when none is connecting at all. -/
def Nested (s : Seam) : Event → Prop
  | .connect _ _ => True
  | .sign i => ∀ c ∈ s.connects[i]?, ∀ x ∈ s.connects.zipIdx,
      x.1.patch?.isSome → c.ml.isSome ∧ x.2 ≤ i
  | .finish i => ∀ c ∈ s.connects[i]?, c.ml.isSome →
      ∀ x ∈ s.connects.zipIdx, x.1.patch?.isSome → x.2 ≤ i

instance (s : Seam) : DecidablePred s.Nested
  | .connect _ _ => isTrue trivial
  | .sign i => inferInstanceAs (Decidable (∀ c ∈ s.connects[i]?, _))
  | .finish i => inferInstanceAs (Decidable (∀ c ∈ s.connects[i]?, _))

/-! ### Windows -/

/-- The last of the patches that are in place, over the stock signer. -/
def lastPatch (patches : List (Option Signer)) : Signer :=
  patches.foldl (fun f p => p.getD f) .stock

theorem lastPatch_concat (patches : List (Option Signer)) (p : Option Signer) :
    lastPatch (patches ++ [p]) = p.getD (lastPatch patches) := by
  simp [lastPatch]

/-- Places without a patch do not count. -/
theorem lastPatch_append_none {patches rest : List (Option Signer)} (h : ∀ p ∈ rest, p = none) :
    lastPatch (patches ++ rest) = lastPatch patches := by
  induction rest generalizing patches with
  | nil => simp
  | cons p rest ih =>
    obtain ⟨rfl, hrest⟩ := List.forall_mem_cons.mp h
    rw [List.append_cons, ih hrest, lastPatch_concat]
    rfl

/-- A list cut at a place behind which nothing is patched. -/
theorem exists_split {patches : List (Option Signer)} {i : ℕ} {f : Signer}
    (hi : patches[i]? = some (some f)) (hlast : ∀ j g, patches[j]? = some (some g) → j ≤ i) :
    ∃ rest, patches = patches.take i ++ some f :: rest ∧ ∀ p ∈ rest, p = none := by
  obtain ⟨hlt, hget⟩ := List.getElem?_eq_some_iff.mp hi
  refine ⟨patches.drop (i + 1), ?_, fun p hp => ?_⟩
  · rw [← hget, List.getElem_cons_drop hlt, List.take_append_drop]
  · obtain ⟨j, hj⟩ := List.mem_iff_getElem?.mp hp
    rw [List.getElem?_drop] at hj
    cases p with
    | none => rfl
    | some g =>
      have := hlast _ g hj
      omega

/-- The last patch is the one behind which nothing is patched. -/
theorem lastPatch_eq {patches : List (Option Signer)} {i : ℕ} {f : Signer}
    (hi : patches[i]? = some (some f)) (hlast : ∀ j g, patches[j]? = some (some g) → j ≤ i) :
    lastPatch patches = f := by
  obtain ⟨rest, hsplit, hrest⟩ := exists_split hi hlast
  rw [hsplit, List.append_cons, lastPatch_append_none hrest, lastPatch_concat]
  rfl

/-- Without it, the last patch is the one in front of it. -/
theorem lastPatch_set_none {patches : List (Option Signer)} {i : ℕ} {f : Signer}
    (hi : patches[i]? = some (some f)) (hlast : ∀ j g, patches[j]? = some (some g) → j ≤ i) :
    lastPatch (patches.set i none) = lastPatch (patches.take i) := by
  obtain ⟨rest, hsplit, hrest⟩ := exists_split hi hlast
  have hlt := (List.getElem?_eq_some_iff.mp hi).1
  have hlength : (patches.take i).length = i := by
    rw [List.length_take]
    omega
  have hset : patches.set i none = patches.take i ++ none :: rest := by
    conv_lhs => rw [hsplit]
    rw [List.set_append_right _ _ (by omega), hlength, Nat.sub_self, List.set_cons_zero]
  rw [hset, List.append_cons, lastPatch_append_none hrest, lastPatch_concat]
  rfl

/-- The patches in place. -/
def patches (s : Seam) : List (Option Signer) := s.connects.map Connect.patch?

/-- The name is bound to the last patch, and every stream B that is connecting has saved what was the
last patch in front of its own. -/
structure Stacked (s : Seam) : Prop where
  name : s.getPresignedUrl = lastPatch s.patches
  orig : ∀ i c, s.connects[i]? = some c → c.patch?.isSome → c.orig = lastPatch (s.patches.take i)

theorem getElem?_patches {s : Seam} {j : ℕ} {g : Signer} (h : s.patches[j]? = some (some g)) :
    ∃ d, s.connects[j]? = some d ∧ d.patch?.isSome := by
  rw [patches, List.getElem?_map] at h
  obtain ⟨d, hd, hpatch⟩ := Option.map_eq_some_iff.mp h
  exact ⟨d, hd, by simp [hpatch]⟩

/-- What a stream B has put in place is its own signer. -/
theorem patch?_eq_own {c : Connect} (h : c.patch?.isSome) : c.patch? = some c.own := by
  unfold Connect.patch? Connect.own at *
  split at h
  · cases hml : c.ml with
    | none => simp [hml] at h
    | some ml => simp [*]
  · cases h

theorem stacked_init : init.Stacked where
  name := rfl
  orig i c hc := by simp [init] at hc

variable {stockUrl : SignRequest → SignedUrl} {s : Seam}

/-- A connect begins. -/
theorem Stacked.connect (hs : s.Stacked) (ml : Option MultiLang) (request : SignRequest) :
    (s.step stockUrl (.connect ml request)).Stacked := by
  have hpatches : (s.step stockUrl (.connect ml request)).patches =
      s.patches ++ [ml.map .patched] := by
    simp [patches, step, Connect.patch?]
  constructor
  · rw [hpatches, lastPatch_concat, ← hs.name]
    cases ml <;> rfl
  · intro i c hc hopen
    have hc : (s.connects ++ [_])[i]? = some c := hc
    have hlength : s.patches.length = s.connects.length := List.length_map ..
    rw [List.getElem?_append] at hc
    split at hc
    · rename_i hlt
      rw [hpatches, List.take_append_of_le_length (by omega)]
      exact hs.orig i c hc hopen
    · obtain ⟨hlt, hget⟩ := List.getElem?_eq_some_iff.mp hc
      simp only [List.length_singleton] at hlt
      -- The new connect: what it puts back is the name before it.
      have hi : i = s.patches.length := by omega
      have horig : c.orig = s.getPresignedUrl := by
        rw [← hget]
        simp
      rw [hpatches, hi, List.take_left, horig, hs.name]

/-- A change of connects that moves no patch. -/
theorem Stacked.modify (hs : s.Stacked) (i : ℕ) {f : Connect → Connect}
    (hpatch : ∀ c, s.connects[i]? = some c → (f c).patch? = c.patch? ∧ (f c).orig = c.orig) :
    Stacked { s with connects := s.connects.modify i f } := by
  -- Neither the patches nor what they are to put back change.
  have hpatches : patches { s with connects := s.connects.modify i f } = s.patches := by
    refine List.ext_getElem? fun j => ?_
    simp only [patches, List.getElem?_map, List.getElem?_modify]
    by_cases hij : i = j
    · subst hij
      cases hc : s.connects[i]? with
      | none => simp
      | some c => simp [(hpatch c hc).1]
    · simp [hij]
  constructor
  · rw [hpatches]
    exact hs.name
  · intro j c hc hopen
    rw [hpatches]
    have hc : (s.connects.modify i f)[j]? = some c := hc
    rw [List.getElem?_modify] at hc
    obtain ⟨d, hd, rfl⟩ := Option.map_eq_some_iff.mp hc
    split at hopen
    · rename_i hij
      subst hij
      rw [(hpatch d hd).1] at hopen
      simpa [(hpatch d hd).2] using hs.orig i d hd hopen
    · rename_i hij
      simpa [hij] using hs.orig j d hd hopen

/-- The last stream B that is connecting finishes. -/
theorem Stacked.finish (hs : s.Stacked) {i : ℕ} {c : Connect} (hc : s.connects[i]? = some c)
    (hopen : c.patch?.isSome)
    (hlast : ∀ (j : ℕ) (d : Connect), s.connects[j]? = some d → d.patch?.isSome → j ≤ i) :
    Stacked ⟨c.orig, s.connects.modify i fun c => { c with inProgress := false }⟩ := by
  have hi : s.patches[i]? = some (some c.own) := by
    rw [patches, List.getElem?_map, hc, Option.map_some, patch?_eq_own hopen]
  have hlastPatch : ∀ j g, s.patches[j]? = some (some g) → j ≤ i := by
    intro j g hj
    obtain ⟨d, hd, hdopen⟩ := getElem?_patches hj
    exact hlast j d hd hdopen
  -- The patch that is taken back is the last one, so the ones below it stay.
  have hpatches : patches ⟨c.orig, s.connects.modify i fun c => { c with inProgress := false }⟩ =
      s.patches.set i none := by
    refine List.ext_getElem? fun j => ?_
    simp only [patches, List.getElem?_map, List.getElem?_modify, List.getElem?_set, List.length_map]
    by_cases hij : i = j
    · subst hij
      have hlt := (List.getElem?_eq_some_iff.mp hc).1
      simp [hlt, Connect.patch?]
    · simp [hij]
  constructor
  · rw [hpatches, lastPatch_set_none hi hlastPatch]
    exact hs.orig i c hc hopen
  · intro j d hd hdopen
    have hd : (s.connects.modify i fun c => { c with inProgress := false })[j]? = some d := hd
    rw [List.getElem?_modify] at hd
    obtain ⟨d₀, hd₀, rfl⟩ := Option.map_eq_some_iff.mp hd
    by_cases hij : i = j
    · subst hij
      simp [Connect.patch?] at hdopen
    · rw [if_neg hij] at hdopen ⊢
      have hji := hlast j d₀ hd₀ hdopen
      rw [hpatches, List.take_set_of_le hji]
      exact hs.orig j d₀ hd₀ hdopen

/-- Without a patch in place the name is the stock one. -/
theorem Stacked.restored (hs : s.Stacked) (h : ∀ c ∈ s.connects, c.patch? = none) :
    s.getPresignedUrl = .stock := by
  have hnone : ∀ p ∈ s.patches, p = none := List.forall_mem_map.mpr h
  rw [hs.name, ← List.nil_append s.patches, lastPatch_append_none hnone]
  rfl

/-- A connect that signs in its turn finds its own signer. -/
theorem Stacked.getPresignedUrl_eq_own (hs : s.Stacked) {i : ℕ} {c : Connect}
    (hc : s.connects[i]? = some c) (hopen : c.inProgress = true)
    (hturn : ∀ x ∈ s.connects.zipIdx, x.1.patch?.isSome → c.ml.isSome ∧ x.2 ≤ i) :
    s.getPresignedUrl = c.own := by
  cases hml : c.ml with
  | none =>
    -- A stock connect: nothing is patched.
    have hown : c.own = .stock := by rw [Connect.own, hml]
    rw [hown]
    refine hs.restored fun d hd => ?_
    obtain ⟨j, hj⟩ := List.mem_iff_getElem?.mp hd
    by_contra hpatch
    have hmem := List.mk_mem_zipIdx_iff_getElem?.mpr hj
    simpa [hml] using (hturn _ hmem (Option.isSome_iff_ne_none.mpr hpatch)).1
  | some ml =>
    have hpatch : c.patch? = some c.own := by
      apply patch?_eq_own
      simp [Connect.patch?, hopen, hml]
    have hi : s.patches[i]? = some (some c.own) := by
      rw [patches, List.getElem?_map, hc, Option.map_some, hpatch]
    refine hs.name.trans (lastPatch_eq hi fun j g hj => ?_)
    obtain ⟨d, hd, hdopen⟩ := getElem?_patches hj
    exact (hturn _ (List.mk_mem_zipIdx_iff_getElem?.mpr hd) hdopen).2

/-- Every connect that has signed did so with its own signer. -/
def OwnUrls (stockUrl : SignRequest → SignedUrl) (s : Seam) : Prop :=
  ∀ c ∈ s.connects, ∀ url, c.signed = some url → url = c.own.call stockUrl c.request

/-- A change of connects that keeps or makes signatures by the own signer. -/
theorem OwnUrls.modify (hs : OwnUrls stockUrl s) {f : Connect → Connect} {i : ℕ} {signer : Signer}
    (hf : ∀ c, s.connects[i]? = some c → (f c).own = c.own ∧ (f c).request = c.request ∧
      ((f c).signed = c.signed ∨ (f c).signed = some (c.own.call stockUrl c.request))) :
    OwnUrls stockUrl ⟨signer, s.connects.modify i f⟩ := by
  intro d hd url hurl
  obtain ⟨j, hj⟩ := List.mem_iff_getElem?.mp hd
  have hj : (s.connects.modify i f)[j]? = some d := hj
  rw [List.getElem?_modify] at hj
  obtain ⟨c, hc, rfl⟩ := Option.map_eq_some_iff.mp hj
  by_cases hij : i = j
  · subst hij
    obtain ⟨hown, hrequest, hsigned⟩ := hf c hc
    simp only [if_true] at hurl ⊢
    rw [hown, hrequest]
    -- It was signed before, or it is signed now, by its own signer.
    rcases hsigned with hsigned | hsigned
    · exact hs c (List.mem_of_getElem? hc) url (hsigned ▸ hurl)
    · exact (Option.some.inj (hsigned.symm.trans hurl)).symm
  · rw [if_neg hij] at hurl ⊢
    exact hs c (List.mem_of_getElem? hc) url hurl

/-- One step in its turn. -/
theorem step_spec (hs : s.Stacked ∧ OwnUrls stockUrl s) {e : Event} (hG : s.Nested e) :
    (s.step stockUrl e).Stacked ∧ OwnUrls stockUrl (s.step stockUrl e) := by
  obtain ⟨hstacked, hown⟩ := hs
  cases e with
  | connect ml request =>
    refine ⟨hstacked.connect ml request, fun c hc url hurl => ?_⟩
    rcases List.mem_append.mp hc with hc | hc
    · exact hown c hc url hurl
    · rw [List.mem_singleton.mp hc] at hurl
      cases hurl
  | sign i =>
    simp only [step]
    cases hc : s.connects[i]? with
    | none => exact ⟨hstacked, hown⟩
    | some c =>
      by_cases hsigns : (c.inProgress && c.signed.isNone) = true
      · simp only [hsigns, if_true]
        rw [Bool.and_eq_true] at hsigns
        -- Nested patches: the name holds the signer of this connect.
        have hname := hstacked.getPresignedUrl_eq_own hc hsigns.1 (hG c hc)
        refine ⟨hstacked.modify i fun d _ => ⟨rfl, rfl⟩, hown.modify fun d hd => ⟨rfl, rfl, ?_⟩⟩
        rw [Option.some.inj (hd.symm.trans hc), hname]
        exact Or.inr rfl
      · simp only [hsigns]
        exact ⟨hstacked, hown⟩
  | finish i =>
    simp only [step]
    cases hc : s.connects[i]? with
    | none => exact ⟨hstacked, hown⟩
    | some c =>
      by_cases hopen : c.inProgress = true
      · simp only [hopen, if_true]
        refine ⟨?_, hown.modify fun d _ => ⟨rfl, rfl, Or.inl rfl⟩⟩
        split
        -- A patched connect restores the name; the others have not touched it.
        · rename_i hml
          refine hstacked.finish hc (by simp [Connect.patch?, hopen, hml]) fun j d hd hdopen => ?_
          exact hG c hc hml _ (List.mk_mem_zipIdx_iff_getElem?.mpr hd) hdopen
        · rename_i hml
          refine hstacked.modify i fun d hd => ⟨?_, rfl⟩
          obtain rfl := Option.some.inj (hd.symm.trans hc)
          simp [Connect.patch?, Option.not_isSome_iff_eq_none.mp hml]
      · simp only [hopen]
        exact ⟨hstacked, hown⟩

/-- In a run in which a connect signs, and a stream B finishes, only when no stream B that began after
it is connecting, and a stock connect signs only when none is, every connect signs with its own signer
and the name is always restored. -/
theorem signedOwn_of_nested (stockUrl : SignRequest → SignedUrl) (es : List Event)
    (h : Run.Guarded (step stockUrl) Nested init es) :
    Run.Always (step stockUrl) (SignedOwn stockUrl) init es := by
  have hinit : init.Stacked ∧ OwnUrls stockUrl init :=
    ⟨stacked_init, fun c hc => absurd hc List.not_mem_nil⟩
  have hstep : ∀ s e, s.Stacked ∧ OwnUrls stockUrl s → s.Nested e →
      (s.step stockUrl e).Stacked ∧ OwnUrls stockUrl (s.step stockUrl e) :=
    fun s e hs hG => step_spec hs hG
  refine (Run.always_of_guarded hstep hinit h).mono fun s hs => ?_
  exact ⟨hs.2, hs.1.restored⟩

/-! ### Two sessions -/

/-- The request of a connect at 16 kHz. -/
def sampleRequest : SignRequest where
  region := "us-east-1"
  accessKey := some "AKIA"
  secretKey := some "secret"
  sessionToken := none
  languageCode := "zh-HK"
  mediaEncoding := "pcm"
  sampleRate := 16000
  numberOfChannels := 1
  enablePartialResultsStabilization := true
  partialResultsStability := "high"
  showSpeakerLabel := false
  enableChannelIdentification := false

/-- The options of a stream B. -/
def sampleOptions (mode stability : String) : MultiLang where
  languageOptions := some "zh-HK,en-US"
  preferredLanguage := some "zh-HK"
  mode := mode
  partialResultsStability := some stability

/-- A signer that puts the language code into the URL, as the stock one does. -/
def languageCodeUrl (request : SignRequest) : SignedUrl := .ok [("language-code", request.languageCode)]

/-- The connects of one session, then of a second one within the connect of its stream B. -/
def nestedSessions : List Event :=
  [.connect none sampleRequest, .sign 0, .finish 0,
    .connect (some (sampleOptions "multiple" "high")) sampleRequest, .sign 1,
    .connect (some (sampleOptions "single" "low")) sampleRequest, .sign 2, .finish 2, .finish 1,
    .connect none sampleRequest, .sign 3, .finish 3]

/-- All of them sign with their own signers. -/
theorem signedOwn_nestedSessions :
    Run.Guarded (step languageCodeUrl) Nested init nestedSessions ∧
      Run.Always (step languageCodeUrl) (SignedOwn languageCodeUrl) init nestedSessions :=
  have hG : Run.Guarded (step languageCodeUrl) Nested init nestedSessions := by decide +kernel
  ⟨hG, signedOwn_of_nested languageCodeUrl nestedSessions hG⟩

/-- The connects of two streams B overlap, and the one that began first finishes first. -/
def overlappingSessions : List Event :=
  [.connect (some (sampleOptions "multiple" "high")) sampleRequest, .sign 0,
    .connect (some (sampleOptions "single" "low")) sampleRequest, .sign 1, .finish 0, .finish 1]

/-- The patch of the first stays in place when both are done. -/
theorem not_signedOwn_overlappingSessions :
    ¬ Run.Always (step languageCodeUrl) (SignedOwn languageCodeUrl) init overlappingSessions := by
  intro h
  have hrestored := h.last.restored (by decide +kernel)
  revert hrestored
  decide +kernel

end Seam

end Asr
