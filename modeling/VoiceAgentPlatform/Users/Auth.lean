import VoiceAgentPlatform.Users.UserStore

/-!
# Sessions, first-run setup and user management

The routes of `bot.py` over the user store: the session dependencies `require_user` and
`require_admin`, `POST /api/auth/setup`, and the user management API. A session cookie is given by
its verified claims. The audit log, which never raises and writes another table, is left out.

* `requireUser`, `requireAdmin`: who a request comes from.
* `authSetup`: the first-run setup.
* `adminUsersCreate`, `adminUsersPatch`, `adminUsersDelete`: user management.
-/

namespace Users

open Async KeyedTable

/-- The claims of a session token that was decoded and verified. -/
structure Claims where
  sub : Option String
  ws : Bool
  guest : Bool
  scenario : PyVal

/-- The logged-in user; guests carry the scenario of their link. -/
structure SessionUser extends UserView where
  scenario : Option PyVal

variable {slot : String ↪ ℕ}

/-- The response 401 of `require_user`. -/
def notAuthenticated : Exc := .http 401 (.text "not authenticated")

/-- `require_user`: the user behind the session cookie. -/
def requireUser (claims : Option Claims) : UserProg slot SessionUser :=
  match claims with
  | none => throw notAuthenticated
  | some claims =>
    if claims.sub.getD "" = "" ∨ claims.ws then throw notAuthenticated
    -- A guest has no row.
    else if claims.guest then
      pure
        { username := "guest", role := "guest", createdAt := none, disabled := false
          scenario := some claims.scenario }
    else do
      match ← get (claims.sub.getD "") with
      | none => throw notAuthenticated
      | some user =>
        if user.disabled then throw notAuthenticated
        else pure { user with scenario := none }

/-- `require_admin`. -/
def requireAdmin (claims : Option Claims) : UserProg slot SessionUser := do
  let user ← requireUser claims
  if user.role ≠ "admin" then throw (.http 403 (.text "admin role required"))
  return user

/-- `(payload.get(key) or "").strip()`. -/
def strippedField (payload : PyDict) (key : String) : Except Exc String :=
  match (payload.get key).orElse (.str "") with
  | .str s => .ok (PyText.strip s)
  | _ => .error .attributeError

/-- `_needs_setup`. -/
def needsSetup : UserProg slot Bool := do
  return (← list).length = 0

/-- The libraries of the auth routes: bcrypt, and whether PyJWT can be imported. -/
structure AuthLibs where
  bcrypt : Bcrypt
  jwt : Bool

/-- `_issue_jwt`, of which only the failure is modelled. -/
def issueJwt (libs : AuthLibs) : Except Exc Unit :=
  if libs.jwt then .ok () else .error (.http 503 (.text "auth unavailable (PyJWT missing)"))

/-- A request for the first-run setup, with the salt and the time it meets. -/
structure SetupRequest where
  payload : PyDict
  salt : String
  now : ℤ

/-- How `auth_setup` answers the exceptions of `create`. -/
def setupError : Exc → Exc
  | .authUnavailable => .http 503 .bcryptMissing
  | .valueError _ => .http 409 (.text "already initialized")
  | .clientError .conditionalCheckFailed => .http 409 (.text "already initialized")
  | e => e

/-- The part of `auth_setup` after its checks: create the administrator and issue a token. -/
def createFirst (libs : AuthLibs) (username : String) (password : PyVal) (salt : String) (now : ℤ) :
    UserProg slot UserView := do
  let user ← (create libs.bcrypt username password (.str "admin") salt now).tryCatch fun e =>
    throw (setupError e)
  Prog.ofExcept (issueJwt libs)
  return user

/-- `auth_setup`: create the first administrator if the table has no account. -/
def authSetup (libs : AuthLibs) (request : SetupRequest) : UserProg slot UserView := do
  if !(← needsSetup) then throw (.http 409 (.text "already initialized"))
  else
    let username ← Prog.ofExcept (strippedField request.payload "username")
    let password := (request.payload.get "password").orElse (.str "")
    if username = "" ∨ !password.truthy then
      throw (.http 400 (.text "username and password are required"))
    else createFirst libs username password request.salt request.now

/-- How the user management routes answer the exceptions of the store. -/
def adminError : Exc → Exc
  | .authUnavailable => .http 503 .bcryptMissing
  | .valueError e => .http 400 (.ofUserError e)
  | e => e

/-- The response 404 of the user management routes. -/
def userNotFound (username : String) : Exc := .http 404 (.text ("user not found: " ++ username))

/-- `admin_users_create`, after `require_admin`. -/
def adminUsersCreate (bcrypt : Bcrypt) (payload : PyDict) (salt : String) (now : ℤ) :
    UserProg slot UserView := do
  let username ← Prog.ofExcept (strippedField payload "username")
  let password := (payload.get "password").orElse (.str "")
  let role := (payload.get "role").orElse (.str "user")
  (create bcrypt username password role salt now).tryCatch fun e => throw (adminError e)

/-- A field of the payload that is present and not `None`. -/
def given (payload : PyDict) (key : String) : Option PyVal :=
  match payload.get? key with
  | some .none => none
  | other => other

/-- Apply the field `role` of a patch, if it is given. -/
def patchRole (username : String) (payload : PyDict) : UserProg slot Bool :=
  match given payload "role" with
  | none => pure false
  | some role => do
    if !(← setRole username role) then throw (userNotFound username)
    return true

/-- Apply the field `password` of a patch, if it is given. -/
def patchPassword (bcrypt : Bcrypt) (username : String) (payload : PyDict) (salt : String) :
    UserProg slot Bool :=
  if !(payload.get "password").truthy then pure false
  else do
    if !(← setPassword bcrypt username (payload.get "password") salt) then
      throw (userNotFound username)
    return true

/-- Apply the field `disabled` of a patch, if it is given. Nobody disables their own account. -/
def patchDisabled (admin : SessionUser) (username : String) (payload : PyDict) :
    UserProg slot Bool :=
  match given payload "disabled" with
  | none => pure false
  | some disabled => do
    if username = admin.username ∧ disabled.truthy then
      throw (.http 400 (.text "cannot disable your own account"))
    if !(← setDisabled username disabled.truthy) then throw (userNotFound username)
    return true

/-- The part of `admin_users_patch` in its `try`: apply the given fields in turn, and tell whether
there was any. -/
def applyUserPatch (bcrypt : Bcrypt) (admin : SessionUser) (username : String) (payload : PyDict)
    (salt : String) : UserProg slot Bool := do
  let role ← patchRole username payload
  let password ← patchPassword bcrypt username payload salt
  let disabled ← patchDisabled admin username payload
  return role || password || disabled

/-- `admin_users_patch`, after `require_admin`. -/
def adminUsersPatch (bcrypt : Bcrypt) (admin : SessionUser) (username : String) (payload : PyDict)
    (salt : String) : UserProg slot UserView := do
  let didSomething ← (applyUserPatch bcrypt admin username payload salt).tryCatch
    fun e => throw (adminError e)
  if !didSomething then
    throw (.http 400 (.text "body must include at least one of: role, password, disabled"))
  match ← get username with
  | none => throw (userNotFound username)
  | some user => return user

/-- `admin_users_delete`, after `require_admin`. -/
def adminUsersDelete (admin : SessionUser) (username : String) : UserProg slot String := do
  if username = admin.username then
    throw (.http 400 (.text "cannot delete your own account"))
  if !(← delete username) then throw (userNotFound username)
  return username

/-- What an admin asks for. -/
inductive AdminAction where
  | create (payload : PyDict) (salt : String) (now : ℤ)
  | patch (username : String) (payload : PyDict) (salt : String)
  | delete (username : String)

/-- A user management request. -/
structure AdminRequest where
  claims : Option Claims
  action : AdminAction

/-- The successful responses of the user management API. -/
inductive AdminResponse where
  | user (view : UserView)
  | deleted (username : String)

/-- Authenticate a request and handle it. -/
def AdminRequest.run (bcrypt : Bcrypt) (request : AdminRequest) : UserProg slot AdminResponse := do
  let admin ← requireAdmin request.claims
  match request.action with
  | .create payload salt now => return .user (← adminUsersCreate bcrypt payload salt now)
  | .patch username payload salt =>
    return .user (← adminUsersPatch bcrypt admin username payload salt)
  | .delete username => return .deleted (← adminUsersDelete admin username)

end Users
