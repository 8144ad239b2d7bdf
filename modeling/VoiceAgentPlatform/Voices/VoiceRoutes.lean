import VoiceAgentPlatform.Http
import VoiceAgentPlatform.Voices.Constants
import VoiceAgentPlatform.Voices.VoiceStore

/-!
# Seeding and editing the voices

`seed_if_empty`, the lifespan that calls it, and the admin routes of the voice registry. The checks of
the administrator and the entries of the activity log are left out. The texts that Python makes of
values are parameters.

* `seedIfEmpty`, `boot`: the seeding, and a start of the process.
* `validateVoiceBody`: the attributes that a body gives a voice.
* `adminVoicesCreate`, `adminVoicesUpdate`, `adminVoicesDelete`: the routes.
-/

namespace Voices

open Async KeyedTable

variable {slot : String × String ↪ ℕ}

/-! ### Seeding -/

/-- The loop of `seed_if_empty` over the constants. -/
def seedPuts : List (String × String × PyDict) → VoiceProg slot Unit
  | [] => pure ()
  | (provider, voiceId, attrs) :: rest => do
    put provider voiceId attrs
    seedPuts rest

/-- The cache has a voice of one of the providers. -/
def anyVoice (cache : VoiceCache) : Bool :=
  voiceProviders.any fun p => !((cache.get? p).getD ∅).entries.isEmpty

/-- `seed_if_empty`: the number of voices written. -/
def seedIfEmpty (constants : List (String × String × PyDict)) : VoiceProg slot ℕ := do
  let _ ← rescan
  let m : VoiceMemory ← MonadState.get
  if !m.live then return 0
  if anyVoice m.cache then return 0
  seedPuts constants
  if constants.length ≠ 0 then
    let _ ← rescan
  return constants.length

/-- A `VoiceStore` that was just made. -/
def newStore : VoiceMemory := { cache := emptyCache, live := false, lastSkipped := [] }

/-- A start of the process: a new store, and the lifespan, which goes on after an error. -/
def boot (constants : List (String × String × PyDict)) : VoiceProg slot Unit := do
  set newStore
  try
    let _ ← seedIfEmpty constants
  catch _ => pure ()

/-! ### Routes -/

/-- What a route can raise. -/
inductive RouteExc where
  | http (e : HTTPException)
  | attributeError
  | store (e : Exc)

/-- Programs of the routes. -/
abbrev RouteProg (slot : String × String ↪ ℕ) :=
  Prog (service (voiceSchema slot)) VoiceMemory RouteExc

/-- A call of the store in a route. -/
def call {α : Type} (p : VoiceProg slot α) : RouteProg slot α := p.mapError .store

/-- A response with status 400. -/
def badRequest (detail : String) (args : List String) : HTTPException := { status := 400, detail, args }

/-- `str` and `repr` of a value. -/
structure PyTexts where
  str : PyVal → String
  repr : PyVal → String

/-- A string that is not blank, or the response. -/
def requireText (value : PyVal) (detail : String) : Except HTTPException String :=
  match value with
  | .str s => if PyText.strip s = "" then .error (badRequest detail []) else .ok s
  | _ => .error (badRequest detail [])

/-- A number or a string, and no flag: a boost. -/
def isBoost : PyVal → Bool
  | .int _ | .float _ | .nan | .infinity _ | .str _ => true
  | _ => false

/-- The name in `_VOICE_PROVIDERS` that a value is. -/
def provider? : PyVal → Option String
  | .str p => if p ∈ voiceProviders then some p else none
  | _ => none

/-- The response to an unknown provider. -/
def unknownProvider (py : PyTexts) (provider : PyVal) : HTTPException :=
  badRequest "unknown provider: % (allowed: %)"
    [py.repr provider, "['minimax', 'nova-sonic', 'polly']"]

/-- The attributes of every provider: label and gender. -/
def commonAttrs (py : PyTexts) (body : PyDict) (voiceId : String) : PyDict :=
  let label := body.get "label"
  let gender := body.get "gender"
  [("label", .str (if label ≠ .none ∧ PyText.strip (py.str label) ≠ "" then py.str label else voiceId))]
    ++ if gender ≠ .none then [("gender", .str (py.str gender))] else []

/-- The attributes of one provider. -/
def providerAttrs (py : PyTexts) (provider : String) (body : PyDict) : Except HTTPException PyDict :=
  if provider = "minimax" then do
    let lang ← requireText (body.get "language") "minimax voice requires a 'language' string"
    let boost := body.get "boost"
    if !isBoost boost then
      throw (badRequest "minimax voice requires a numeric/string 'boost'" [])
    return [("language", .str lang), ("boost", boost)]
  else if provider = "polly" then do
    let lang ← requireText (body.get "language") "polly voice requires a 'language' string"
    let engine ← requireText (body.get "engine") "polly voice requires an 'engine' string"
    return [("language", .str lang), ("engine", .str engine)]
  else do
    let locale ← requireText (body.get "locale") "nova-sonic voice requires a 'locale'"
    match (body.get? "polyglot").getD (.bool false) with
    | .bool polyglot =>
      let langLabel := body.get "lang_label"
      return [("locale", .str locale), ("polyglot", .bool polyglot)] ++
        if langLabel ≠ .none then [("lang_label", .str (py.str langLabel))] else []
    | _ => throw (badRequest "nova-sonic 'polyglot' must be a boolean" [])

/-- `_validate_voice_body`, for a body that is an object. -/
def validateVoiceBody (py : PyTexts) (provider : PyVal) (body : PyDict) :
    Except HTTPException PyDict :=
  match provider? provider with
  | none => .error (unknownProvider py provider)
  | some p => do
    let voiceId ← requireText ((body.get "id").orElse (body.get "voice_id"))
      "voice id must be a non-empty string"
    let attrs ← providerAttrs py p body
    return commonAttrs py body voiceId ++ attrs

/-- The voice of a response: as the cache has it, or as it was written. -/
def shownVoice (m : VoiceMemory) (provider voiceId : String) (attrs : PyDict) : PyDict :=
  let stored := (get m provider voiceId).getD []
  PyDict.update [("id", .str voiceId), ("provider", .str provider)] (if stored.isEmpty then attrs else stored)

/-- Write a voice, refresh the cache and show the voice. -/
def store (provider voiceId : String) (attrs : PyDict) : RouteProg slot PyDict := do
  call (put provider voiceId attrs)
  let _ ← call rescan
  let m : VoiceMemory ← MonadState.get
  return shownVoice m provider voiceId attrs

/-- `admin_voices_create`. -/
def adminVoicesCreate (py : PyTexts) (body : PyDict) : RouteProg slot PyDict := do
  let provider := body.get "provider"
  let voiceId ← match ((body.get "id").orElse (body.get "voice_id")).orElse (.str "") with
    | .str s => pure (PyText.strip s)
    | _ => throw .attributeError
  let attrs ← Prog.ofExcept ((validateVoiceBody py provider body).mapError .http)
  store ((provider? provider).getD "") voiceId attrs

/-- The provider of a path is known. -/
def checkProvider (py : PyTexts) (provider : String) : RouteProg slot Unit :=
  if provider ∈ voiceProviders then pure ()
  else throw (.http (unknownProvider py (.str provider)))

/-- The voice of a path, as the cache has it. -/
def requireVoice (provider voiceId : String) : RouteProg slot PyDict := do
  let m : VoiceMemory ← MonadState.get
  match get m provider voiceId with
  | some attrs => return attrs
  | none => throw (.http { status := 404, detail := "voice not found: %/%", args := [provider, voiceId] })

/-- The keys of a body that an update does not take over. -/
def keyFields : List String := ["id", "voice_id", "provider"]

/-- The body that an update validates: the stored attributes under those of the body. -/
def mergedBody (existing body : PyDict) (voiceId : String) : PyDict :=
  (existing.update (body.filter fun e => e.1 ∉ keyFields)).set "id" (.str voiceId)

/-- `admin_voices_update`. -/
def adminVoicesUpdate (py : PyTexts) (provider voiceId : String) (body : PyDict) :
    RouteProg slot PyDict := do
  checkProvider py provider
  let existing ← requireVoice provider voiceId
  let attrs ← Prog.ofExcept
    ((validateVoiceBody py (.str provider) (mergedBody existing body voiceId)).mapError .http)
  store provider voiceId attrs

/-- `admin_voices_delete`. -/
def adminVoicesDelete (py : PyTexts) (provider voiceId : String) : RouteProg slot PyDict := do
  checkProvider py provider
  let _ ← requireVoice provider voiceId
  call (delete provider voiceId)
  let _ ← call rescan
  return [("deleted", .str (provider ++ "/" ++ voiceId))]

end Voices
