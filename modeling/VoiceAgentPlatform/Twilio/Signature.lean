import Mathlib.Data.List.DropRight
import Mathlib.Data.List.Sort
import Mathlib.Data.Prod.Lex
import Mathlib.Data.String.Basic
import VoiceAgentPlatform.Lib.Base64
import VoiceAgentPlatform.Lib.JsText
import VoiceAgentPlatform.Lib.Ordered
import VoiceAgentPlatform.Lib.PyVal

/-!
# Verification of the Twilio webhook

The signature of a webhook is computed over the public URL and the form of the request, and compared with
a header. HMAC-SHA1 is any function to digests of twenty bytes.

* `buildSignedUrl`, `computeTwilioSignature`, `verifyTwilioSignature`, `twilioIncomingCall`: as the source
  has them.
* `kept`, `shadowed`: of the form items with one key the last is kept.
* `signedString_eq_iff`: when the string that is signed is the one that Twilio signs.
* `verificationExact_iff`: when the webhook is verified as it should be.
-/

namespace Twilio

/-! ### The code -/

/-- A digest of HMAC-SHA1. -/
structure Digest where
  bytes : List UInt8
  length_bytes : bytes.length = 20

/-- Keys and texts to digests. -/
abbrev HmacSha1 := String → String → Digest

/-- The sorted keys of a form, and the value of each. -/
def signedItems (postParams : OrderedMap String String) : List (String × String) :=
  (postParams.keys.insertionSort (· ≤ ·)).map fun key => (key, (postParams.get? key).getD "")

/-- The texts of the items behind each other. -/
def joined (items : List (String × String)) : List Char :=
  items.flatMap fun item => item.1.toList ++ item.2.toList

/-- The string that is signed. -/
def signingString (fullUrl : String) (postParams : OrderedMap String String) : String :=
  fullUrl ++ String.ofList (joined (signedItems postParams))

/-- `base64.b64encode(digest).decode("ascii")`. -/
def b64encode (digest : Digest) : String := String.ofList (Base64.encodeStandard digest.bytes)

/-- `compute_twilio_signature`. -/
def computeTwilioSignature (hmac : HmacSha1) (authToken fullUrl : String)
    (postParams : OrderedMap String String) : String :=
  b64encode (hmac authToken (signingString fullUrl postParams))

/-- A text with ASCII characters only. -/
def IsAscii (s : String) : Prop := ∀ c ∈ s.toList, c.toNat < 128

instance (s : String) : Decidable (IsAscii s) := JsText.decidableForallMem s.toList

/-- What `hmac.compare_digest` raises. -/
inductive CompareError where
  | nonAscii
  deriving DecidableEq

/-- `hmac.compare_digest` of two strings. -/
def compareDigest (a b : String) : Except CompareError Bool :=
  if IsAscii a ∧ IsAscii b then .ok (a = b) else .error .nonAscii

/-- `verify_twilio_signature`. -/
def verifyTwilioSignature (hmac : HmacSha1) (authToken fullUrl : String)
    (postParams : OrderedMap String String) (headerSig : String) : Except CompareError Bool :=
  if headerSig = "" ∨ authToken = "" then .ok false
  else compareDigest (computeTwilioSignature hmac authToken fullUrl postParams) headerSig

/-- `s.rstrip("/")`. -/
def rstripSlash (s : List Char) : List Char := s.rdropWhile (· = '/')

/-- `s.lstrip("/")`. -/
def lstripSlash (s : List Char) : List Char := s.dropWhile (· = '/')

/-- `build_signed_url`, of a raw query. -/
def buildSignedUrl (base path query : String) : String :=
  let url := String.ofList (rstripSlash base.toList ++ '/' :: lstripSlash path.toList)
  if query ≠ "" then url ++ "?" ++ query else url

/-- `_twilio_config`. -/
structure TwilioConfig where
  authToken : String
  publicBase : String
  accountSid : String

def TwilioConfig.enabled (cfg : TwilioConfig) : Bool := cfg.authToken ≠ "" && cfg.publicBase ≠ ""

/-- `_twilio_public_host`. -/
def twilioPublicHost (publicBase : String) : String :=
  let host := (PyText.strip publicBase).toList
  let host :=
    match JsText.indexOf "://".toList host with
    | none => host
    | some i => host.drop (i + 3)
  String.ofList (rstripSlash host)

/-- The entities of a character in an attribute. -/
def escapeAttr : Char → List Char
  | '&' => "&amp;".toList
  | '>' => "&gt;".toList
  | '<' => "&lt;".toList
  | '\n' => "&#10;".toList
  | '\r' => "&#13;".toList
  | '\t' => "&#9;".toList
  | c => [c]

/-- `saxutils.quoteattr`. -/
def quoteattr (data : String) : String :=
  let data := data.toList.flatMap escapeAttr
  String.ofList <|
    if '"' ∈ data then
      if '\'' ∈ data then
        '"' :: data.flatMap (fun c => if c = '"' then "&quot;".toList else [c]) ++ ['"']
      else '\'' :: data ++ ['\'']
    else '"' :: data ++ ['"']

/-- What the webhook answers. -/
inductive Response where
  /-- 503. -/
  | notConfigured
  /-- 403. -/
  | invalidSignature
  /-- 200, with a TwiML document. -/
  | twiml (content : String)
  deriving DecidableEq

/-- The document that connects the call. -/
def twiml (publicBase caller : String) : String :=
  "<?xml version=\"1.0\" encoding=\"UTF-8\"?>" ++ "<Response><Connect>" ++
    "<Stream url=\"wss://" ++ twilioPublicHost publicBase ++ "/twilio/media-stream\">" ++
    "<Parameter name=\"caller\" value=" ++ quoteattr caller ++ "/>" ++
    "</Stream></Connect></Response>"

/-- The path of the webhook. -/
def incomingCallPath : String := "/twilio/incoming-call"

/-- `{k: str(v) for k, v in form.items()}`. -/
def postParams (form : List (String × String)) : OrderedMap String String :=
  form.foldl (fun params item => params.set item.1 item.2) ∅

/-- The string that the webhook signs. -/
def signedString (publicBase rawQuery : String) (form : List (String × String)) : String :=
  signingString (buildSignedUrl publicBase incomingCallPath rawQuery) (postParams form)

/-- `twilio_incoming_call`. -/
def twilioIncomingCall (hmac : HmacSha1) (cfg : TwilioConfig) (rawQuery : String)
    (form : List (String × String)) (headerSig : String) : Except CompareError Response := do
  if !cfg.enabled then return .notConfigured
  let fullUrl := buildSignedUrl cfg.publicBase incomingCallPath rawQuery
  let verified ← verifyTwilioSignature hmac cfg.authToken fullUrl (postParams form) headerSig
  if !verified then return .invalidSignature
  return .twiml (twiml cfg.publicBase (((postParams form).get? "From").getD ""))

/-! ### What Twilio signs -/

/-- By key, then by value. -/
def sortItems (form : List (String × String)) : List (String × String) :=
  form.insertionSort fun x y => toLex x ≤ toLex y

/-- Base, path and query, and all form items by key, then by value. -/
def twilioString (publicBase rawQuery : String) (form : List (String × String)) : String :=
  publicBase ++ incomingCallPath ++ (if rawQuery = "" then "" else "?" ++ rawQuery) ++
    String.ofList (joined (sortItems form))

/-- The webhook answers with TwiML exactly if the header is the signature of the string that Twilio signs,
and with 403 otherwise; and its own string does not depend on the order of the form. -/
structure VerificationExact (cfg : TwilioConfig) (rawQuery : String) (form : List (String × String))
    (headerSig : String) : Prop where
  exact : ∀ hmac : HmacSha1, ∃ content, twilioIncomingCall hmac cfg rawQuery form headerSig =
    .ok (if headerSig = b64encode (hmac cfg.authToken (twilioString cfg.publicBase rawQuery form)) then
      .twiml content else .invalidSignature)
  order : ∀ form', form.Perm form' →
    signedString cfg.publicBase rawQuery form' = signedString cfg.publicBase rawQuery form

/-! ### The form -/

/-- Of the items with one key the last. -/
def kept : List (String × String) → List (String × String)
  | [] => []
  | item :: form => if item.1 ∈ form.map Prod.fst then kept form else item :: kept form

/-- The items whose key comes again. -/
def shadowed : List (String × String) → List (String × String)
  | [] => []
  | item :: form => if item.1 ∈ form.map Prod.fst then item :: shadowed form else shadowed form

theorem perm_kept_shadowed (form : List (String × String)) :
    form.Perm (kept form ++ shadowed form) := by
  induction form with
  | nil => exact .nil
  | cons item form ih =>
    rw [kept, shadowed]
    split_ifs
    · exact (ih.cons item).trans List.perm_middle.symm
    · exact ih.cons item

theorem kept_subset {form : List (String × String)} {item : String × String} (h : item ∈ kept form) :
    item ∈ form :=
  (perm_kept_shadowed form).mem_iff.mpr (List.mem_append_left _ h)

theorem nodup_keys_kept (form : List (String × String)) : ((kept form).map Prod.fst).Nodup := by
  induction form with
  | nil => exact List.nodup_nil
  | cons item form ih =>
    rw [kept]
    split_ifs with hmem
    · exact ih
    · rw [List.map_cons, List.nodup_cons]
      refine ⟨fun hkey => hmem ?_, ih⟩
      obtain ⟨item', hitem', hkey⟩ := List.mem_map.mp hkey
      exact List.mem_map.mpr ⟨item', kept_subset hitem', hkey⟩

/-- Every key is kept. -/
theorem mem_keys_kept {form : List (String × String)} {key : String} :
    key ∈ (kept form).map Prod.fst ↔ key ∈ form.map Prod.fst := by
  induction form with
  | nil => rfl
  | cons item form ih =>
    rw [kept]
    split_ifs with hmem
    · rw [ih, List.map_cons, List.mem_cons]
      exact ⟨Or.inr, fun h => h.elim (fun heq => heq ▸ hmem) id⟩
    · rw [List.map_cons, List.map_cons, List.mem_cons, List.mem_cons, ih]

/-- The form as a dictionary has the items that are kept, over what it had. -/
theorem get?_foldl_set (form : List (String × String)) (params : OrderedMap String String)
    (key : String) :
    (form.foldl (fun params item => params.set item.1 item.2) params).get? key =
      (((kept form).find? fun item => item.1 = key).map Prod.snd).or (params.get? key) := by
  induction form generalizing params with
  | nil => rfl
  | cons item form ih =>
    rw [List.foldl_cons, ih, kept, OrderedMap.get?_set]
    by_cases hkey : key = item.1
    · subst hkey
      rw [if_pos rfl]
      by_cases hmem : item.1 ∈ form.map Prod.fst
      · -- The item is overwritten.
        have hfound : ((kept form).find? fun item' => item'.1 = item.1).isSome := by
          obtain ⟨item', hitem', heq⟩ := List.mem_map.mp (mem_keys_kept.mpr hmem)
          exact List.find?_isSome.mpr ⟨item', hitem', by simpa using heq⟩
        obtain ⟨item', hitem'⟩ := Option.isSome_iff_exists.mp hfound
        rw [if_pos hmem, hitem']
        rfl
      · have hnone : (kept form).find? (fun item' => item'.1 = item.1) = none := by
          refine List.find?_eq_none.mpr fun item' hitem' heq => hmem ?_
          exact List.mem_map.mpr ⟨item', kept_subset hitem', by simpa using heq⟩
        rw [if_neg hmem, hnone, List.find?_cons_of_pos (by simp)]
        rfl
    · rw [if_neg hkey]
      split_ifs
      · rfl
      · rw [List.find?_cons_of_neg (by simpa using fun heq => hkey heq.symm)]

theorem mem_kept_iff {form : List (String × String)} {key value : String} :
    (key, value) ∈ kept form ↔ (postParams form).get? key = some value := by
  have hkept : (⟨kept form, nodup_keys_kept form⟩ : OrderedMap String String).get? key =
      (postParams form).get? key := by
    rw [postParams, get?_foldl_set, OrderedMap.get?_empty, Option.or_none]
    rfl
  rw [← hkept]
  exact OrderedMap.mem_entries_iff (m := ⟨kept form, nodup_keys_kept form⟩)

/-- The dictionary has the items that are kept. -/
theorem perm_entries_postParams (form : List (String × String)) :
    (postParams form).entries.Perm (kept form) := by
  refine (List.perm_ext_iff_of_nodup (.of_map Prod.fst (postParams form).nodup_keys)
    (.of_map Prod.fst (nodup_keys_kept form))).mpr fun ⟨key, value⟩ => ?_
  rw [OrderedMap.mem_entries_iff, mem_kept_iff]

/-! ### Sorting -/

theorem sortItems_perm (form : List (String × String)) : (sortItems form).Perm form :=
  List.perm_insertionSort _ form

theorem pairwise_sortItems (form : List (String × String)) :
    (sortItems form).Pairwise fun x y => toLex x ≤ toLex y :=
  List.pairwise_insertionSort _ form

theorem eq_of_perm_of_sorted {xs ys : List (String × String)} (h : xs.Perm ys)
    (hxs : xs.Pairwise fun x y => toLex x ≤ toLex y) (hys : ys.Pairwise fun x y => toLex x ≤ toLex y) :
    xs = ys :=
  h.eq_of_pairwise (fun _ _ _ _ hxy hyx => toLex.injective (le_antisymm hxy hyx)) hxs hys

/-- Sorting does not see the order. -/
theorem sortItems_congr {xs ys : List (String × String)} (h : xs.Perm ys) :
    sortItems xs = sortItems ys :=
  eq_of_perm_of_sorted (((sortItems_perm xs).trans h).trans (sortItems_perm ys).symm)
    (pairwise_sortItems xs) (pairwise_sortItems ys)

/-- What is signed are the items that are kept, sorted. -/
theorem signedItems_postParams (form : List (String × String)) :
    signedItems (postParams form) = sortItems (kept form) := by
  have hentries : (postParams form).keys.map (fun key => (key, ((postParams form).get? key).getD "")) =
      (postParams form).entries := by
    rw [OrderedMap.keys, List.map_map]
    refine (List.map_congr_left fun e he => ?_).trans (List.map_id' _)
    rw [Function.comp_apply, OrderedMap.mem_entries_iff.mp he, Option.getD_some]
  have hperm : (signedItems (postParams form)).Perm (kept form) := by
    refine List.Perm.trans ?_ (perm_entries_postParams form)
    exact hentries ▸ (List.perm_insertionSort _ _).map _
  refine eq_of_perm_of_sorted (hperm.trans (sortItems_perm _).symm) ?_ (pairwise_sortItems _)
  rw [signedItems, List.pairwise_map]
  refine (List.pairwise_insertionSort (· ≤ ·) (postParams form).keys).imp fun {key key'} hle => ?_
  rcases hle.lt_or_eq with hlt | rfl
  · exact Prod.Lex.toLex_le_toLex.mpr (Or.inl hlt)
  · exact le_rfl

/-! ### The text of the items -/

theorem length_joined_perm {xs ys : List (String × String)} (h : xs.Perm ys) :
    (joined xs).length = (joined ys).length :=
  (h.flatMap_right _).length_eq

theorem length_joined_append (xs ys : List (String × String)) :
    (joined (xs ++ ys)).length = (joined xs).length + (joined ys).length := by
  rw [joined, List.flatMap_append, List.length_append, joined, joined]

/-- Items without a text are empty. -/
theorem joined_eq_nil_iff {items : List (String × String)} :
    joined items = [] ↔ ∀ item ∈ items, item = ("", "") := by
  rw [joined, List.flatMap_eq_nil_iff]
  refine forall₂_congr fun item _ => ?_
  rw [List.append_eq_nil_iff, String.toList_eq_nil_iff, String.toList_eq_nil_iff, Prod.ext_iff]

/-- An empty item adds nothing, wherever it is inserted. -/
theorem joined_orderedInsert (items : List (String × String)) :
    joined (items.orderedInsert (fun x y => toLex x ≤ toLex y) ("", "")) = joined items := by
  induction items with
  | nil => rfl
  | cons item items ih =>
    rw [List.orderedInsert_cons]
    split_ifs
    · rfl
    · rw [joined, List.flatMap_cons, ← joined, ih]
      rfl

theorem joined_sortItems_append {empty : List (String × String)} (h : ∀ item ∈ empty, item = ("", ""))
    (items : List (String × String)) :
    joined (sortItems (empty ++ items)) = joined (sortItems items) := by
  induction empty with
  | nil => rfl
  | cons item empty ih =>
    obtain ⟨rfl, hrest⟩ := List.forall_mem_cons.mp h
    rw [List.cons_append, sortItems, List.insertionSort_cons, joined_orderedInsert, ← sortItems, ih hrest]

/-! ### The two strings -/

/-- The base ends with a slash. -/
def EndsWithSlash (base : String) : Prop := base.toList.getLast? = some '/'

instance (base : String) : Decidable (EndsWithSlash base) :=
  inferInstanceAs (Decidable (_ = some '/'))

theorem rstripSlash_eq_self_iff {s : List Char} : rstripSlash s = s ↔ ¬ s.getLast? = some '/' := by
  rw [rstripSlash, List.rdropWhile_eq_self_iff]
  by_cases hne : s = []
  · simp [hne]
  · simp [hne, List.getLast?_eq_some_getLast hne]

theorem length_rstripSlash_le (s : List Char) : (rstripSlash s).length ≤ s.length :=
  (List.rdropWhile_prefix _ _).length_le

/-- The query behind the path. -/
def queryPart (rawQuery : String) : List Char :=
  if rawQuery = "" then [] else '?' :: rawQuery.toList

theorem toList_buildSignedUrl (base rawQuery : String) :
    (buildSignedUrl base incomingCallPath rawQuery).toList =
      rstripSlash base.toList ++ incomingCallPath.toList ++ queryPart rawQuery := by
  have hpath : '/' :: lstripSlash incomingCallPath.toList = incomingCallPath.toList := by decide
  rw [buildSignedUrl, hpath, queryPart]
  by_cases hq : rawQuery = ""
  · simp [hq]
  · simp [hq]

theorem toList_signedString (base rawQuery : String) (form : List (String × String)) :
    (signedString base rawQuery form).toList = rstripSlash base.toList ++ incomingCallPath.toList ++
      queryPart rawQuery ++ joined (sortItems (kept form)) := by
  rw [signedString, signingString, signedItems_postParams, String.toList_append,
    toList_buildSignedUrl, String.toList_ofList]

theorem toList_twilioString (base rawQuery : String) (form : List (String × String)) :
    (twilioString base rawQuery form).toList = base.toList ++ incomingCallPath.toList ++
      queryPart rawQuery ++ joined (sortItems form) := by
  rw [twilioString, queryPart]
  by_cases hq : rawQuery = ""
  · simp [hq]
  · simp [hq]

/-- The form does not lose a text, and the base ends without a slash. -/
theorem signedString_eq_iff {base : String} (rawQuery : String) {form : List (String × String)} :
    signedString base rawQuery form = twilioString base rawQuery form ↔
      ¬ EndsWithSlash base ∧ ∀ item ∈ shadowed form, item = ("", "") := by
  rw [← String.toList_inj, toList_signedString, toList_twilioString]
  -- The form has the items that are kept and those that are shadowed.
  have hsorted : (joined (sortItems form)).length =
      (joined (sortItems (kept form))).length + (joined (shadowed form)).length := by
    rw [length_joined_perm (sortItems_perm form), length_joined_perm (perm_kept_shadowed form),
      length_joined_append, length_joined_perm (sortItems_perm (kept form))]
  constructor
  · intro heq
    -- Both differences can only lengthen a text, so neither is there.
    have hlengths := congrArg List.length heq
    have hle := length_rstripSlash_le base.toList
    simp only [List.length_append] at hlengths
    have hbase : (rstripSlash base.toList).length = base.toList.length := by omega
    have hlost : (joined (shadowed form)).length = 0 := by omega
    exact ⟨rstripSlash_eq_self_iff.mp ((List.rdropWhile_prefix _ _).eq_of_length hbase),
      joined_eq_nil_iff.mp (List.length_eq_zero_iff.mp hlost)⟩
  · rintro ⟨hbase, hempty⟩
    rw [rstripSlash_eq_self_iff.mpr hbase, ← joined_sortItems_append hempty,
      sortItems_congr ((perm_kept_shadowed form).trans List.perm_append_comm)]

/-! ### The order of the form -/

/-- Items with one key have one value. -/
def Consistent (form : List (String × String)) : Prop :=
  ∀ x ∈ form, ∀ y ∈ form, x.1 = y.1 → x.2 = y.2

/-- Of a consistent form every item is kept. -/
theorem Consistent.mem_kept_iff {form : List (String × String)} (h : Consistent form)
    {item : String × String} : item ∈ kept form ↔ item ∈ form := by
  refine ⟨kept_subset, fun hitem => ?_⟩
  obtain ⟨item', hitem', hkey⟩ := List.mem_map.mp (mem_keys_kept.mpr (List.mem_map_of_mem hitem))
  have hvalue := h item' (kept_subset hitem') item hitem hkey
  exact Prod.ext hkey hvalue ▸ hitem'

theorem Consistent.perm {form form' : List (String × String)} (h : Consistent form)
    (hperm : form.Perm form') : Consistent form' :=
  fun x hx y hy => h x (hperm.mem_iff.mpr hx) y (hperm.mem_iff.mpr hy)

theorem Consistent.kept_perm {form form' : List (String × String)} (h : Consistent form)
    (hperm : form.Perm form') : (kept form').Perm (kept form) := by
  refine (List.perm_ext_iff_of_nodup (.of_map Prod.fst (nodup_keys_kept form'))
    (.of_map Prod.fst (nodup_keys_kept form))).mpr fun item => ?_
  rw [(h.perm hperm).mem_kept_iff, h.mem_kept_iff, hperm.mem_iff]

theorem kept_append {xs ys : List (String × String)} (h : ∀ x ∈ xs, x.1 ∉ ys.map Prod.fst) :
    kept (xs ++ ys) = kept xs ++ kept ys := by
  induction xs with
  | nil => rfl
  | cons x xs ih =>
    obtain ⟨hx, hxs⟩ := List.forall_mem_cons.mp h
    have hmem : x.1 ∈ (xs ++ ys).map Prod.fst ↔ x.1 ∈ xs.map Prod.fst := by
      rw [List.map_append, List.mem_append, or_iff_left hx]
    rw [List.cons_append, kept, kept, ih hxs]
    by_cases hkey : x.1 ∈ xs.map Prod.fst
    · rw [if_pos (hmem.mpr hkey), if_pos hkey]
    · rw [if_neg (mt hmem.mp hkey), if_neg hkey, List.cons_append]

/-- Of items with one key the last is kept. -/
theorem kept_group {x : String × String} {ys : List (String × String)} (h : ∀ y ∈ ys, y.1 = x.1) :
    kept (ys ++ [x]) = [x] := by
  induction ys with
  | nil => rfl
  | cons y ys ih =>
    obtain ⟨hy, hys⟩ := List.forall_mem_cons.mp h
    rw [List.cons_append, kept, if_pos, ih hys]
    exact List.mem_map.mpr ⟨x, by simp, hy.symm⟩

/-- The form with one of its items at the end, behind the other items of its key. -/
def movedLast (x : String × String) (form : List (String × String)) : List (String × String) :=
  form.filter (fun y => !decide (y.1 = x.1)) ++
    ((form.filter fun y => decide (y.1 = x.1)).erase x ++ [x])

theorem movedLast_perm {x : String × String} {form : List (String × String)} (h : x ∈ form) :
    form.Perm (movedLast x form) := by
  have hx : x ∈ form.filter fun y => decide (y.1 = x.1) := List.mem_filter.mpr ⟨h, by simp⟩
  have hgroup : (form.filter fun y => decide (y.1 = x.1)).Perm
      ((form.filter fun y => decide (y.1 = x.1)).erase x ++ [x]) :=
    (List.perm_cons_erase hx).trans (List.perm_append_singleton _ _).symm
  exact (List.filter_append_perm _ form).symm.trans
    (List.perm_append_comm.trans (hgroup.append_left _))

theorem kept_movedLast (x : String × String) (form : List (String × String)) :
    kept (movedLast x form) = kept (form.filter fun y => !decide (y.1 = x.1)) ++ [x] := by
  have hgroup : ∀ y ∈ (form.filter fun y => decide (y.1 = x.1)).erase x, y.1 = x.1 :=
    fun y hy => by simpa using List.of_mem_filter (List.mem_of_mem_erase hy)
  rw [movedLast, kept_append, kept_group hgroup]
  intro y hy hkey
  have hne : y.1 ≠ x.1 := by simpa using List.of_mem_filter hy
  rw [List.map_append, List.mem_append, List.map_singleton, List.mem_singleton] at hkey
  rcases hkey with hkey | hkey
  · obtain ⟨y', hy', heq⟩ := List.mem_map.mp hkey
    exact hne (heq ▸ hgroup y' hy')
  · exact hne hkey

/-- The place of an item among items with other keys depends on its key only. -/
theorem orderedInsert_of_forall_ne (key : String) (items : List (String × String))
    (h : ∀ item ∈ items, item.1 ≠ key) :
    ∃ front back, ∀ value,
      items.orderedInsert (fun x y => toLex x ≤ toLex y) (key, value) = front ++ (key, value) :: back := by
  induction items with
  | nil => exact ⟨[], [], fun _ => rfl⟩
  | cons item items ih =>
    obtain ⟨hitem, hitems⟩ := List.forall_mem_cons.mp h
    have hle : ∀ value, toLex (key, value) ≤ toLex item ↔ key < item.1 := fun value => by
      rw [Prod.Lex.toLex_le_toLex, or_iff_left fun hand => hitem hand.1.symm]
    by_cases hlt : key < item.1
    · refine ⟨[], item :: items, fun value => ?_⟩
      rw [List.orderedInsert_cons, if_pos ((hle value).mpr hlt), List.nil_append]
    · obtain ⟨front, back, heq⟩ := ih hitems
      refine ⟨item :: front, back, fun value => ?_⟩
      rw [List.orderedInsert_cons, if_neg (mt (hle value).mp hlt), heq, List.cons_append]

/-- The string that is signed does not depend on the order exactly if the form is consistent. -/
theorem signedString_perm_iff {base rawQuery : String} {form : List (String × String)} :
    (∀ form', form.Perm form' → signedString base rawQuery form' = signedString base rawQuery form) ↔
      Consistent form := by
  constructor
  · intro horder x hx y hy hkey
    have hxy : joined (sortItems (kept (movedLast x form))) =
        joined (sortItems (kept (movedLast y form))) := by
      have heq := congrArg String.toList
        ((horder _ (movedLast_perm hx)).trans (horder _ (movedLast_perm hy)).symm)
      rw [toList_signedString, toList_signedString] at heq
      exact List.append_cancel_left heq
    obtain ⟨key, value⟩ := x
    obtain ⟨key', value'⟩ := y
    obtain rfl : key = key' := hkey
    rw [kept_movedLast, kept_movedLast, sortItems_congr (List.perm_append_singleton _ _),
      sortItems_congr (List.perm_append_singleton _ _), sortItems, List.insertionSort_cons, sortItems,
      List.insertionSort_cons] at hxy
    -- The other items stay where they are.
    obtain ⟨front, back, hinsert⟩ := orderedInsert_of_forall_ne key
      (sortItems (kept (form.filter fun y => !decide (y.1 = key)))) fun item hitem => by
        simpa using List.of_mem_filter (kept_subset ((sortItems_perm _).mem_iff.mp hitem))
    rw [← sortItems, hinsert, hinsert] at hxy
    exact String.toList_inj.mp (by simpa [joined] using hxy)
  · intro hconsistent form' hperm
    rw [← String.toList_inj, toList_signedString, toList_signedString,
      sortItems_congr (hconsistent.kept_perm hperm)]

/-! ### The webhook -/

theorem isAscii_b64encode (digest : Digest) : IsAscii (b64encode digest) := by
  intro c hc
  rw [b64encode, String.toList_ofList] at hc
  exact Base64.ascii_of_mem_encodeStandard hc

theorem b64encode_ne_empty (digest : Digest) : b64encode digest ≠ "" := by
  intro heq
  have hnil : Base64.encode digest.bytes = [] := by
    rw [b64encode, String.ofList_eq_empty_iff, Base64.encodeStandard, List.map_eq_nil_iff] at heq
    exact heq
  have hlength := digest.length_bytes
  rcases hbytes : digest.bytes with _ | ⟨a, _ | ⟨b, _ | ⟨c, rest⟩⟩⟩
  · simp [hbytes] at hlength
  all_goals
    rw [hbytes, Base64.encode] at hnil
    cases hnil

/-- Two digests. -/
def Digest.replicate (b : UInt8) : Digest := ⟨List.replicate 20 b, List.length_replicate⟩

/-- No text is that of each digest. -/
theorem exists_b64encode_ne (headerSig : String) : ∃ digest, b64encode digest ≠ headerSig := by
  by_contra hall
  have h₀ : b64encode (.replicate 0) = headerSig := not_not.mp fun h => hall ⟨_, h⟩
  have h₁ : b64encode (.replicate 1) = headerSig := not_not.mp fun h => hall ⟨_, h⟩
  exact absurd (h₀.trans h₁.symm) (by decide)

/-- The comparison with a token. -/
theorem verifyTwilioSignature_of_token {authToken : String} (htoken : authToken ≠ "") (hmac : HmacSha1)
    (fullUrl : String) (postParams : OrderedMap String String) (headerSig : String) :
    verifyTwilioSignature hmac authToken fullUrl postParams headerSig =
      if IsAscii headerSig then
        .ok (decide (headerSig = computeTwilioSignature hmac authToken fullUrl postParams))
      else .error .nonAscii := by
  have hsig : IsAscii (computeTwilioSignature hmac authToken fullUrl postParams) := isAscii_b64encode _
  have hne : computeTwilioSignature hmac authToken fullUrl postParams ≠ "" := b64encode_ne_empty _
  rw [verifyTwilioSignature, compareDigest]
  by_cases hempty : headerSig = ""
  · have hascii : IsAscii "" := fun c hc => absurd hc (by simp)
    rw [if_pos (Or.inl hempty), hempty, if_pos hascii, decide_eq_false hne.symm]
  · rw [if_neg (not_or.mpr ⟨hempty, htoken⟩)]
    simp only [hsig, true_and, eq_comm]

/-- The webhook once it is configured. -/
theorem twilioIncomingCall_of_enabled {cfg : TwilioConfig} (hcfg : cfg.enabled) (hmac : HmacSha1)
    (rawQuery : String) (form : List (String × String)) (headerSig : String) :
    twilioIncomingCall hmac cfg rawQuery form headerSig =
      if IsAscii headerSig then
        if headerSig = b64encode (hmac cfg.authToken (signedString cfg.publicBase rawQuery form)) then
          .ok (.twiml (twiml cfg.publicBase (((postParams form).get? "From").getD "")))
        else .ok .invalidSignature
      else .error .nonAscii := by
  have htoken : cfg.authToken ≠ "" := by
    rw [TwilioConfig.enabled, Bool.and_eq_true] at hcfg
    simpa using hcfg.1
  have hsig : computeTwilioSignature hmac cfg.authToken
      (buildSignedUrl cfg.publicBase incomingCallPath rawQuery) (postParams form) =
      b64encode (hmac cfg.authToken (signedString cfg.publicBase rawQuery form)) := rfl
  simp only [twilioIncomingCall, hcfg, verifyTwilioSignature_of_token htoken, hsig]
  -- A signature that is not ASCII cannot be compared.
  by_cases hascii : IsAscii headerSig
  · rw [if_pos hascii, if_pos hascii]
    by_cases heq :
        headerSig = b64encode (hmac cfg.authToken (signedString cfg.publicBase rawQuery form))
    · rw [if_pos heq, decide_eq_true heq]
      rfl
    · rw [if_neg heq, decide_eq_false heq]
      rfl
  · rw [if_neg hascii, if_neg hascii]
    rfl

/-- The webhook verifies as it should exactly if the header is ASCII, items of the form with one key have
one value, and, of a header that is the text of a digest, the base ends without a slash and an item whose
key comes again is empty. -/
theorem verificationExact_iff (cfg : TwilioConfig) (hcfg : cfg.enabled) (rawQuery : String)
    (form : List (String × String)) (headerSig : String) :
    VerificationExact cfg rawQuery form headerSig ↔
      IsAscii headerSig ∧ Consistent form ∧
        ((∃ digest, headerSig = b64encode digest) →
          ¬ EndsWithSlash cfg.publicBase ∧ ∀ item ∈ shadowed form, item = ("", "")) := by
  constructor
  · rintro ⟨hexact, horder⟩
    refine ⟨?_, signedString_perm_iff.mp horder, ?_⟩
    · by_contra hascii
      obtain ⟨content, hresponse⟩ := hexact fun _ _ => .replicate 0
      rw [twilioIncomingCall_of_enabled hcfg, if_neg hascii] at hresponse
      cases hresponse
    · rintro ⟨digest, rfl⟩
      by_contra hne
      rw [← signedString_eq_iff rawQuery] at hne
      -- The string that Twilio signs has the digest of the header, all others have another.
      obtain ⟨other, hother⟩ := exists_b64encode_ne (b64encode digest)
      obtain ⟨content, hresponse⟩ := hexact fun _ s =>
        if s = twilioString cfg.publicBase rawQuery form then digest else other
      rw [twilioIncomingCall_of_enabled hcfg, if_pos (isAscii_b64encode digest), if_neg hne,
        if_neg hother.symm, if_pos rfl, if_pos rfl] at hresponse
      cases hresponse
  · rintro ⟨hascii, hconsistent, hdigest⟩
    refine ⟨fun hmac => ?_, signedString_perm_iff.mpr hconsistent⟩
    refine ⟨twiml cfg.publicBase (((postParams form).get? "From").getD ""), ?_⟩
    rw [twilioIncomingCall_of_enabled hcfg, if_pos hascii]
    by_cases hheader : ∃ digest, headerSig = b64encode digest
    · rw [(signedString_eq_iff rawQuery).mpr (hdigest hheader)]
      split_ifs <;> rfl
    · rw [if_neg fun h => hheader ⟨_, h⟩, if_neg fun h => hheader ⟨_, h⟩]

/-- A request with two items. -/
theorem verificationExact_iff_signed :
    VerificationExact ⟨"token", "https://voice.example", ""⟩ ""
      [("From", "+15550100"), ("CallSid", "CA1")] (b64encode (.replicate 0)) :=
  (verificationExact_iff ⟨"token", "https://voice.example", ""⟩ (by decide) "" _ _).mpr
    ⟨isAscii_b64encode _, by unfold Consistent; decide, fun _ => ⟨by decide, by decide⟩⟩

/-- A header that is not ASCII raises. -/
theorem nonAsciiHeader_raises :
    ¬ VerificationExact ⟨"token", "https://voice.example", ""⟩ "" [("From", "+15550100")] "é" := by
  intro h
  obtain ⟨content, hresponse⟩ := h.exact fun _ _ => .replicate 0
  rw [twilioIncomingCall_of_enabled (by decide), if_neg (by decide)] at hresponse
  cases hresponse

end Twilio
