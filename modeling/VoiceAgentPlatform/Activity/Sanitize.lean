import Mathlib.Data.List.Forall2
import Mathlib.Data.List.Infix
import VoiceAgentPlatform.Lib.PyVal

/-!
# Redaction of the activity log

What `ActivityStore.log` keeps of the detail of an activity: the values of the keys that are allowlisted
for its type, without what stands below a key that looks like a secret, and the names of all other keys.

* `scrubResidual`, `sanitizeDetail`: as the source has them.
* `Agree`: two values agree up to what stands below hidden keys; `Same` is Python's equality.
* `scrubResidual_agree`, `scrubResidual_idem`: the scrub sees nothing below a secret key, and a scrubbed
  value stays as it is.
* `sanitizeDetail_noninterference`: what the sanitized detail depends on.
-/

namespace Activity

/-! ### The code -/

/-- `_MASK`. -/
def mask : PyVal := .str "***changed***"

/-- The runtime settings of a configuration activity. -/
def configFields : List String :=
  ["engine", "lang", "scenario", "provider", "voice", "minimax_model", "model", "asr_filter"]

/-- The attributes of a voice. -/
def voiceFields : List String :=
  ["provider", "voice_id", "label", "gender", "language", "locale", "polyglot", "engine", "boost"]

/-- `ACTIVITY_DETAIL_VALUE_ALLOWLIST`. -/
def activityDetailValueAllowlist : String → Option (List String)
  | "config-web" | "config-phone" => some configFields
  | "voice-create" | "voice-update" | "voice-delete" => some voiceFields
  | "user-create" | "user-update" | "user-delete" => some ["role", "disabled"]
  | "mcp-upsert" | "mcp-delete" => some ["id", "label", "transport", "enabled"]
  | "demo-edit" => some ["changed"]
  | "login" | "logout" => some ["username"]
  | "guest-link-create" => some ["ttl_minutes", "scenario", "lang", "engine", "voice", "provider"]
  | "guest-login" => some ["scenario"]
  | "call-start" | "call-end" => some ["engine", "lang", "scenario", "voice"]
  | _ => none

/-- The words that `_SECRET_SUBSTR` looks for; `api[_-]?key` is three of them. -/
def secretWords : List String :=
  ["password", "token", "apikey", "api_key", "api-key", "secret", "authorization", "key", "credential",
    "bearer"]

/-- A letter of a pattern matches regardless of case. The letters `i`, `s` and `k` have variants outside
ASCII. -/
def matchesLetter (p c : Char) : Bool :=
  c.toLower = p || (p = 'i' && (c = 'ı' || c = 'İ')) || (p = 's' && c = 'ſ') || (p = 'k' && c = 'K')

/-- A word stands in front of a text. -/
def matchesWord : List Char → List Char → Bool
  | [], _ => true
  | _ :: _, [] => false
  | p :: word, c :: text => matchesLetter p c && matchesWord word text

/-- `_SECRET_SUBSTR.search(key)`. -/
def secretSubstr (key : String) : Bool :=
  secretWords.any fun word => key.toList.tails.any fun rest => matchesWord word.toList rest

mutual

/-- `_scrub_residual`. -/
def scrubResidual : PyVal → PyVal
  | .dict entries => .dict (scrubResidualEntries entries)
  | .list xs => .list (scrubResidualList xs)
  | .none => .none
  | .bool b => .bool b
  | .int i => .int i
  | .float q => .float q
  | .nan => .nan
  | .infinity negative => .infinity negative
  | .decimal q => .decimal q
  | .str s => .str s

/-- `_scrub_residual` on the elements of a list. -/
def scrubResidualList : List PyVal → List PyVal
  | [] => []
  | x :: xs => scrubResidual x :: scrubResidualList xs

/-- `_scrub_residual` on the entries of a dictionary. -/
def scrubResidualEntries : List (String × PyVal) → List (String × PyVal)
  | [] => []
  | e :: entries => scrubResidualEntry e :: scrubResidualEntries entries

/-- `_scrub_residual` on the value of one key. -/
def scrubResidualEntry : String × PyVal → String × PyVal
  | (k, v) => (k, if secretSubstr k then mask else scrubResidual v)

end

/-- The value of a key may be stored. -/
def isAllowed (activityType k : String) : Bool :=
  (activityDetailValueAllowlist activityType).any fun allow => k ∈ allow

/-- `_sanitize_detail`. -/
def sanitizeDetail (activityType : String) (detail : PyVal) : PyDict :=
  if !detail.truthy then []
  else
    match detail with
    | .dict entries =>
      scrubResidualEntries (entries.map fun e =>
        if isAllowed activityType e.1 then e else (e.1, mask))
    | _ => [("detail", mask)]

/-! ### The scrub -/

theorem scrubResidual_of_isScalar {v : PyVal} (h : v.isScalar = true) : scrubResidual v = v := by
  cases v with
  | list xs => cases h
  | dict entries => cases h
  | _ => rw [scrubResidual]

theorem scrubResidualList_eq_map (xs : List PyVal) : scrubResidualList xs = xs.map scrubResidual := by
  induction xs with
  | nil => rfl
  | cons x xs ih => rw [scrubResidualList, ih, List.map_cons]

theorem scrubResidualEntries_eq_map (entries : List (String × PyVal)) :
    scrubResidualEntries entries =
      entries.map fun e => (e.1, if secretSubstr e.1 then mask else scrubResidual e.2) := by
  induction entries with
  | nil => rfl
  | cons e entries ih => rw [scrubResidualEntries, ih, List.map_cons, scrubResidualEntry]

/-- Looking up in a scrubbed dictionary. -/
theorem get?_scrubResidualEntries (d : PyDict) (k : String) :
    PyDict.get? (scrubResidualEntries d) k =
      (d.get? k).map fun v => if secretSubstr k then mask else scrubResidual v := by
  rw [scrubResidualEntries_eq_map]
  induction d with
  | nil => rfl
  | cons e d ih =>
    rw [List.map_cons, PyDict.get?_cons, PyDict.get?_cons, ih]
    by_cases hkey : e.1 = k
    · subst hkey
      simp
    · simp [hkey]

/-- A scrubbed value stays as it is. -/
theorem scrubResidual_idem (v : PyVal) : scrubResidual (scrubResidual v) = scrubResidual v := by
  induction v using PyVal.walk with
  | scalar v hv => rw [scrubResidual_of_isScalar hv, scrubResidual_of_isScalar hv]
  | list xs ih =>
    simp only [scrubResidual, scrubResidualList_eq_map, List.map_map]
    exact congrArg PyVal.list (List.map_congr_left ih)
  | dict entries ih =>
    simp only [scrubResidual, scrubResidualEntries_eq_map, List.map_map]
    refine congrArg PyVal.dict (List.map_congr_left fun e he => ?_)
    simp only [Function.comp_apply]
    split_ifs
    · rfl
    · rw [ih e he]

/-! ### What can be seen -/

/-- Two dictionaries have the same keys. -/
def SameKeys (d d' : PyDict) : Prop := ∀ k, (d.get? k).isSome = (d'.get? k).isSome

/-- Two values agree up to what stands below hidden keys. The order of the keys of a dictionary does not
matter. -/
inductive Agree (hidden : String → Bool) : PyVal → PyVal → Prop where
  | refl (v : PyVal) : Agree hidden v v
  | list {xs ys : List PyVal} : List.Forall₂ (Agree hidden) xs ys → Agree hidden (.list xs) (.list ys)
  | dict {d d' : PyDict} : SameKeys d d' →
      (∀ k, hidden k = false → ∀ v w, d.get? k = some v → d'.get? k = some w → Agree hidden v w) →
      Agree hidden (.dict d) (.dict d')

/-- The values are equal to Python. -/
abbrev Same : PyVal → PyVal → Prop := Agree fun _ => false

theorem sameKeys_scrubResidualEntries {d d' : PyDict} (h : SameKeys d d') :
    SameKeys (scrubResidualEntries d) (scrubResidualEntries d') := by
  intro k
  rw [get?_scrubResidualEntries, get?_scrubResidualEntries, Option.isSome_map, Option.isSome_map, h k]

/-- Scrubbed dictionaries are equal if the scrub makes what stands below the other keys equal. -/
theorem same_scrubResidualEntries {d d' : PyDict} (hkeys : SameKeys d d')
    (h : ∀ k, secretSubstr k = false → ∀ v w, d.get? k = some v → d'.get? k = some w →
      Same (scrubResidual v) (scrubResidual w)) :
    Same (.dict (scrubResidualEntries d)) (.dict (scrubResidualEntries d')) := by
  refine .dict (sameKeys_scrubResidualEntries hkeys) fun k _ v w hv hw => ?_
  rw [get?_scrubResidualEntries, Option.map_eq_some_iff] at hv hw
  obtain ⟨v, hv, rfl⟩ := hv
  obtain ⟨w, hw, rfl⟩ := hw
  split_ifs with hsecret
  · exact .refl mask
  · exact h k (Bool.eq_false_iff.mpr hsecret) v w hv hw

/-- The scrub does not see what stands below a secret key. -/
theorem scrubResidual_agree {v w : PyVal} (h : Agree secretSubstr v w) :
    Same (scrubResidual v) (scrubResidual w) := by
  induction v using PyVal.walk generalizing w with
  | scalar v hv =>
    cases h with
    | refl => exact .refl _
    | list => cases hv
    | dict => cases hv
  | list xs ih =>
    cases h with
    | refl => exact .refl _
    | list hall =>
      simp only [scrubResidual, scrubResidualList_eq_map]
      refine .list ?_
      rw [List.forall₂_map_left_iff, List.forall₂_map_right_iff]
      -- The elements are scrubbed one by one.
      induction hall with
      | nil => exact .nil
      | cons hxy _ ihall =>
        obtain ⟨hx, hxs⟩ := List.forall_mem_cons.mp ih
        exact .cons (hx hxy) (ihall hxs)
  | dict entries ih =>
    cases h with
    | refl => exact .refl _
    | dict hkeys hvalues =>
      simp only [scrubResidual]
      refine same_scrubResidualEntries hkeys fun k hk v w hv hw => ?_
      exact ih (k, v) (PyDict.mem_of_get? hv) (hvalues k hk v w hv hw)

/-! ### The sanitized detail -/

/-- The detail with the values masked that may not be stored. -/
def maskDetail (activityType : String) (d : PyDict) : PyDict :=
  d.map fun e => if isAllowed activityType e.1 then e else (e.1, mask)

theorem sanitizeDetail_dict (activityType : String) (d : PyDict) :
    sanitizeDetail activityType (.dict d) = scrubResidualEntries (maskDetail activityType d) := by
  cases d with
  | nil => rfl
  | cons e d => rfl

theorem get?_maskDetail (activityType : String) (d : PyDict) (k : String) :
    (maskDetail activityType d).get? k =
      (d.get? k).map fun v => if isAllowed activityType k then v else mask := by
  rw [maskDetail]
  induction d with
  | nil => rfl
  | cons e d ih =>
    rw [List.map_cons, PyDict.get?_cons, PyDict.get?_cons, ih]
    by_cases hkey : e.1 = k
    · subst hkey
      by_cases hallowed : isAllowed activityType e.1 <;> simp [hallowed]
    · by_cases hallowed : isAllowed activityType e.1 <;> simp [hallowed, hkey]

/-- Every key of the detail is kept. -/
theorem keys_sanitizeDetail (activityType : String) (d : PyDict) :
    (sanitizeDetail activityType (.dict d)).map Prod.fst = d.map Prod.fst := by
  rw [sanitizeDetail_dict, scrubResidualEntries_eq_map, maskDetail, List.map_map, List.map_map]
  refine List.map_congr_left fun e _ => ?_
  simp only [Function.comp_apply]
  split_ifs <;> rfl

/-- A sanitized detail stays as it is. -/
theorem sanitizeDetail_idem (activityType : String) (d : PyDict) :
    sanitizeDetail activityType (.dict (sanitizeDetail activityType (.dict d))) =
      sanitizeDetail activityType (.dict d) := by
  simp only [sanitizeDetail_dict, scrubResidualEntries_eq_map, maskDetail, List.map_map]
  refine List.map_congr_left fun e _ => ?_
  have hmask : scrubResidual mask = mask := scrubResidual_of_isScalar rfl
  -- A value is masked by name, masked by the scrub, or scrubbed.
  by_cases hallowed : isAllowed activityType e.1 <;> by_cases hsecret : secretSubstr e.1 <;>
    simp [hallowed, hsecret, hmask, scrubResidual_idem]

/-- The details have the same keys, and agree on the allowlisted values up to what stands below secret
keys. -/
structure DetailsAgree (activityType : String) (d d' : PyDict) : Prop where
  keys : SameKeys d d'
  allowed : ∀ k, isAllowed activityType k = true →
    ∀ v w, d.get? k = some v → d'.get? k = some w → Agree secretSubstr v w

theorem same_sanitizeDetail {activityType : String} {d d' : PyDict}
    (h : DetailsAgree activityType d d') :
    Same (.dict (sanitizeDetail activityType (.dict d)))
      (.dict (sanitizeDetail activityType (.dict d'))) := by
  have hkeys : SameKeys (maskDetail activityType d) (maskDetail activityType d') := by
    intro k
    rw [get?_maskDetail, get?_maskDetail, Option.isSome_map, Option.isSome_map, h.keys k]
  rw [sanitizeDetail_dict, sanitizeDetail_dict]
  refine same_scrubResidualEntries hkeys fun k _ v w hv hw => ?_
  rw [get?_maskDetail, Option.map_eq_some_iff] at hv hw
  obtain ⟨v, hv, rfl⟩ := hv
  obtain ⟨w, hw, rfl⟩ := hw
  split_ifs with hallowed
  · exact scrubResidual_agree (h.allowed k hallowed v w hv hw)
  · exact .refl _

/-- The sanitized detail depends on the keys and on the allowlisted values only, and on these not below a
secret key; it has every key; and it stays as it is when it is sanitized again. -/
theorem sanitizeDetail_noninterference (activityType : String) (d d' : PyDict) :
    (DetailsAgree activityType d d' →
      Same (.dict (sanitizeDetail activityType (.dict d)))
        (.dict (sanitizeDetail activityType (.dict d')))) ∧
      (∀ k ∈ d.map Prod.fst, k ∈ (sanitizeDetail activityType (.dict d)).map Prod.fst) ∧
      sanitizeDetail activityType (.dict (sanitizeDetail activityType (.dict d))) =
        sanitizeDetail activityType (.dict d) :=
  ⟨same_sanitizeDetail, fun _ hk => (keys_sanitizeDetail activityType d).symm ▸ hk,
    sanitizeDetail_idem activityType d⟩

/-- Two details of a login: the password is not allowlisted. -/
theorem sanitizeDetail_noninterference_login :
    Same (.dict (sanitizeDetail "login" (.dict [("username", .str "a"), ("password", .str "b")])))
      (.dict (sanitizeDetail "login" (.dict [("password", .str "c"), ("username", .str "a")]))) := by
  refine (sanitizeDetail_noninterference "login" [("username", .str "a"), ("password", .str "b")]
    [("password", .str "c"), ("username", .str "a")]).1 ⟨fun k => ?_, fun k hk v w hv hw => ?_⟩
  · by_cases husername : "username" = k <;> by_cases hpassword : "password" = k <;>
      simp [husername, hpassword, PyDict.get?]
  · obtain rfl : k = "username" := by simpa [isAllowed, activityDetailValueAllowlist] using hk
    obtain rfl : PyVal.str "a" = v := Option.some.inj hv
    obtain rfl : PyVal.str "a" = w := Option.some.inj hw
    exact .refl _

example : sanitizeDetail "config-web" (.dict [("voice", .dict [("API-Key", .int 1), ("n", .int 2)]),
    ("url", .str "u")]) =
    [("voice", .dict [("API-Key", mask), ("n", .int 2)]), ("url", mask)] := by
  decide +kernel

end Activity
