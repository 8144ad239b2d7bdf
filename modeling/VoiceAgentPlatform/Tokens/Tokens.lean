import VoiceAgentPlatform.Launch.GuestLink
import VoiceAgentPlatform.Lib.Binary64
import VoiceAgentPlatform.Users.Auth

/-!
# Session tokens

The signed tokens of `bot.py`: the session of a login, the token that binds a WebSocket for a minute,
and the guest link that an administrator mints. PyJWT is a parameter, and a token is known by the
payload that its signature covers. The audit log and the rest of the responses are left out.

* `issueJwt`, `issueWsToken`, `issueGuestToken`, `decodeJwt`: minting and checking.
* `wsTokenUsername`, `monitorClaims`, `authGuestLogin`: what a token opens.
* `guestSeconds_le`, `le_guestSeconds`: the lifetime of a guest link against its minutes, from which the
  floating-point conversion takes a second for some links.
-/

namespace Tokens

open Users KeyedTable

/-- PyJWT under the secret of the server: the token of a payload, and the payload of a token whose
signature verifies. -/
structure PyJwt where
  encode : PyDict → String
  verified : String → Option PyDict

/-- `int(ttl * 3600)` for a float `ttl` that is not negative. -/
def secondsOf (ttlHours : ℚ) : ℤ := ⌊Binary64.nearest (ttlHours * 3600)⌋

/-- The payload that `_issue_jwt` signs. -/
def payloadOf (username role : String) (now : ℚ) (ttl : ℤ) (extra : PyDict) : PyDict :=
  PyDict.update
    [("sub", .str username), ("role", .str (if role = "" then "user" else role)),
      ("exp", .int (⌊now⌋ + ttl))]
    extra

/-- `_issue_jwt`: the token and its payload. `ttl` is in seconds. -/
def issueJwt (jwt : Option PyJwt) (username role : String) (now : ℚ) (ttl : ℤ) (extra : PyDict) :
    Except Exc (String × PyDict) :=
  match jwt with
  | none => .error (.http 503 (.text "auth unavailable (PyJWT missing)"))
  | some jwt =>
    let payload := payloadOf username role now ttl extra
    .ok (jwt.encode payload, payload)

/-- Whether PyJWT refuses the claims as expired. A payload without expiry does not expire. -/
def isExpired (claims : PyDict) (now : ℚ) : Bool :=
  match claims.get "exp" with
  | .int exp => exp ≤ now
  | _ => false

/-- `_decode_jwt`. -/
def decodeJwt (jwt : Option PyJwt) (now : ℚ) (token : String) : Option PyDict :=
  if token = "" then none
  else match jwt with
    | none => none
    | some jwt =>
      match jwt.verified token with
      | none => none
      | some claims => if isExpired claims now then none else some claims

/-- `_WS_TOKEN_TTL / 3600.0`, in hours. -/
def wsTokenTtl : ℚ := Binary64.nearest (60 / 3600)

/-- `_issue_ws_token`. -/
def issueWsToken (jwt : Option PyJwt) (username role : String) (now : ℚ) :
    Except Exc (String × PyDict) :=
  issueJwt jwt username role now (secondsOf wsTokenTtl) [("ws", .bool true)]

/-- `GUEST_TTL_DEFAULT_MIN`. -/
def guestTtlDefaultMin : ℤ := 60

/-- `GUEST_TTL_MAX_MIN`. -/
def guestTtlMaxMin : ℤ := 1440

/-- The claims of a guest link: the fields of its launch configuration that are not empty. -/
def guestExtra (scenario : Option String) (launch : Launch.LaunchConfig) : PyDict :=
  ("guest", .bool true) ::
    ([("scenario", scenario), ("lang", launch.lang), ("engine", launch.engine),
        ("voice", launch.voice), ("provider", launch.provider)].filterMap fun e =>
      ((e.2.filter (· ≠ "")).map PyVal.str).map fun v => (e.1, v))

/-- The lifetime of a guest link in seconds: `int(ttl_minutes / 60.0 * 3600)`. -/
def guestSeconds (ttlMinutes : ℤ) : ℤ := secondsOf (Binary64.nearest (ttlMinutes / 60))

/-- `_issue_guest_token`: the token, its payload, and the expiry to show, for which the clock is read
once more. -/
def issueGuestToken (jwt : Option PyJwt) (ttlMinutes : ℤ) (scenario : Option String)
    (launch : Launch.LaunchConfig) (now now' : ℚ) : Except Exc (String × PyDict × ℤ) := do
  let (token, payload) ←
    issueJwt jwt "guest" "guest" now (guestSeconds ttlMinutes) (guestExtra scenario launch)
  return (token, payload, ⌊now'⌋ + ttlMinutes * 60)

/-- The claims that `require_user` reads. -/
def claimsOf (claims : PyDict) : Claims where
  sub :=
    match claims.get "sub" with
    | .str s => some s
    | _ => none
  ws := (claims.get "ws").truthy
  guest := (claims.get "guest").truthy
  scenario := claims.get "scenario"

/-- `_ws_token_claims`. -/
def wsTokenClaims (jwt : Option PyJwt) (now : ℚ) (token : String) : Option PyDict :=
  match decodeJwt jwt now token with
  | none => none
  | some claims => if (claims.get "ws").truthy then some claims else none

/-- `_ws_token_username`, where an empty username counts as none, as it does for the caller. -/
def wsTokenUsername (jwt : Option PyJwt) (now : ℚ) (token : String) : Option String :=
  match (wsTokenClaims jwt now token).map (PyDict.get · "sub") with
  | some (.str username) => if username = "" then none else some username
  | _ => none

/-- The claims of a ws-token that `monitor_ws_endpoint` lets in. -/
def monitorClaims (jwt : Option PyJwt) (now : ℚ) (token : String) : Option PyDict :=
  match wsTokenClaims jwt now token with
  | none => none
  | some claims =>
    match claims.get "role" with
    | .str role => if role = "admin" then some claims else none
    | _ => none

/-- `auth_guest_login`: the cookie that is set, and the claims of the link. -/
def authGuestLogin (jwt : Option PyJwt) (now : ℚ) (payload : PyDict) :
    Except Exc (PyVal × PyDict) := do
  let token ← strippedField payload "token"
  match decodeJwt jwt now token with
  | none => throw (.http 401 (.text "invalid or expired guest link"))
  | some claims =>
    if (claims.get "guest").truthy then return (payload.get "token", claims)
    else throw (.http 401 (.text "invalid or expired guest link"))

variable {slot : String ↪ ℕ}

/-- `auth_login` up to the token. -/
def authLogin (bcrypt : Bcrypt) (payload : PyDict) : UserProg slot UserView := do
  let username ← Async.Prog.ofExcept (strippedField payload "username")
  let password := (payload.get "password").orElse (.str "")
  if username = "" ∨ !password.truthy then throw (.http 401 (.text "invalid credentials"))
  else
    match ← (verify bcrypt username password).tryCatch fun
      | .authUnavailable => throw (.http 503 .bcryptMissing)
      | e => throw e with
    -- An unknown user, a disabled one and a wrong password are not told apart.
    | none => throw (.http 401 (.text "invalid credentials"))
    | some user => return user

/-- The body of a request for a guest link. Launch fields that are not strings are refused, and are
left out. -/
structure GuestLinkBody where
  ttlMinutes : Option PyVal
  scenario : Option String
  launch : Launch.LaunchConfig

/-- The check of `ttl_minutes`. -/
def guestTtl (body : GuestLinkBody) : Option ℤ :=
  match body.ttlMinutes.getD (.int guestTtlDefaultMin) with
  | .int ttl => if 1 ≤ ttl ∧ ttl ≤ guestTtlMaxMin then some ttl else none
  | _ => none

/-- What the routes check a guest link against: the voices and the ids of the demos. -/
structure Catalog where
  voices : Demos.Registries
  scenarios : List String

/-- The part of `admin_create_guest_link` after `require_admin`, up to the token: the minutes, the
scenario and the launch configuration. -/
def checkedGuestLink (catalog : Catalog) (body : GuestLinkBody) :
    Option (ℤ × Option String × Launch.LaunchConfig) :=
  match guestTtl body with
  | none => none
  | some ttl =>
    if body.scenario.all (· ∈ catalog.scenarios) then
      match Launch.validateLaunchConfig catalog.voices body.launch with
      | .ok clean => some (ttl, body.scenario, clean)
      | .error _ => none
    else none

/-! ### How long a guest link lives -/

/-- Minutes to hours to seconds in floating point: the error is far below a second. -/
theorem abs_guestSeconds_sub_lt {m : ℤ} (hpos : 1 ≤ m) (hle : m ≤ 2 ^ 40) :
    |Binary64.nearest (Binary64.nearest (m / 60) * 3600) - 60 * m| < 1 := by
  have hm : (1 : ℚ) ≤ m := by exact_mod_cast hpos
  have hm' : (m : ℚ) ≤ 2 ^ 40 := by exact_mod_cast hle
  set hours := Binary64.nearest (m / 60) with hhours
  have hnormal : (2 : ℚ) ^ (-1022 : ℤ) ≤ 1 / 60 :=
    (zpow_le_zpow_right₀ one_le_two (by decide : (-1022 : ℤ) ≤ -6)).trans (by norm_num)
  -- Both operations round once; relative to their results they are off by at most 2^-53.
  have hfirst : |hours - m / 60| ≤ m / 60 / 2 ^ 53 := by
    have habs : |(m : ℚ) / 60| = m / 60 := abs_of_nonneg (by linarith)
    have herr := Binary64.abs_nearest_sub_le (x := m / 60) (by rw [habs]; linarith)
    rwa [habs] at herr
  obtain ⟨hlow, hhigh⟩ := abs_le.mp hfirst
  have hsecond : |Binary64.nearest (hours * 3600) - hours * 3600| ≤ hours * 3600 / 2 ^ 53 := by
    have habs : |hours * 3600| = hours * 3600 := abs_of_nonneg (by linarith)
    have herr := Binary64.abs_nearest_sub_le (x := hours * 3600) (by rw [habs]; linarith)
    rwa [habs] at herr
  obtain ⟨hlow', hhigh'⟩ := abs_le.mp hsecond
  rw [abs_lt]
  constructor <;> linarith

/-- A guest link does not outlive its minutes. -/
theorem guestSeconds_le {m : ℤ} (hpos : 1 ≤ m) (hle : m ≤ 2 ^ 40) : guestSeconds m ≤ 60 * m := by
  have hlt := (abs_lt.mp (abs_guestSeconds_sub_lt hpos hle)).2
  refine Int.lt_add_one_iff.mp (Int.floor_lt.mpr ?_)
  push_cast
  linarith

/-- It lives all of its minutes but at most a second. -/
theorem le_guestSeconds {m : ℤ} (hpos : 1 ≤ m) (hle : m ≤ 2 ^ 40) : 60 * m - 1 ≤ guestSeconds m := by
  have hlt := (abs_lt.mp (abs_guestSeconds_sub_lt hpos hle)).1
  refine Int.le_floor.mpr ?_
  push_cast
  linarith

/-- The second is lost for some links. -/
example : guestSeconds 60 = 3600 ∧ guestSeconds 65 = 3899 := by decide +kernel

/-- A ws-token lives a minute. -/
theorem secondsOf_wsTokenTtl : secondsOf wsTokenTtl = 60 := by decide +kernel

end Tokens
