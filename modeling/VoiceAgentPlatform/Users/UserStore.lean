import Mathlib.Data.Int.Notation
import VoiceAgentPlatform.Lib.KeyedTable
import VoiceAgentPlatform.Lib.PyVal

/-!
# The user store

`user_store.py` over a table keyed by user name: every method as a program of awaited table
operations. bcrypt is a parameter; the random salt and the clock of a call are arguments. Warnings
that are only logged are left out.

* `UserRow`, `UserView`: a row of the table and its safe view.
* `getRaw`, `get`, `list`, `create`, `setPassword`, `setRole`, `setDisabled`, `delete`, `verify`: the
  methods of `UserStore`.
* `StoreCall`, `StoreCall.run`: a call of one of the methods.
-/

namespace Users

open Async KeyedTable

/-- A row of the user table. Rows made by an update alone lack the other attributes. -/
structure UserRow where
  username : String
  passwordHash : Option String
  role : Option String
  createdAt : Option ℤ
  disabled : Option Bool
  deriving DecidableEq

/-- The safe view of a row, without the password hash. -/
structure UserView where
  username : String
  role : String
  createdAt : Option ℤ
  disabled : Bool
  deriving DecidableEq

/-- The `SET` updates of the store. -/
inductive UserUpdate where
  | passwordHash (h : String)
  | role (r : String)
  | disabled (d : Bool)
  deriving DecidableEq

/-- Set one attribute of a row. -/
def UserUpdate.set : UserUpdate → UserRow → UserRow
  | passwordHash h, row => { row with passwordHash := some h }
  | role r, row => { row with role := some r }
  | disabled d, row => { row with disabled := some d }

/-- The row `update_item` starts from when there is none. -/
def bareRow (username : String) : UserRow :=
  { username, passwordHash := none, role := none, createdAt := none, disabled := none }

/-- The user table: `update_item` creates a missing row. `slot` is the table's own order. -/
def userSchema (slot : String ↪ ℕ) : Schema String UserRow UserUpdate where
  key := UserRow.username
  slot
  update u username row := u.set (row.getD (bareRow username))
  key_update u username row hrow := by
    have hset : ∀ r : UserRow, (u.set r).username = r.username := by
      intro r
      cases u <;> rfl
    rw [hset]
    cases row with
    | none => rfl
    | some r => exact hrow r rfl

/-- The user table. -/
abbrev UserTable (slot : String ↪ ℕ) := Table (userSchema slot)

/-- `bcrypt`: whether it can be imported, a hash of a password under a salt, which may be refused,
and the comparison of a password with a hash. -/
structure Bcrypt where
  available : Bool
  hashpw : String → String → Option String
  checkpw : String → String → Bool

/-- A bcrypt whose hashes show the password. -/
def sampleBcrypt : Bcrypt where
  available := true
  hashpw password salt := some (salt ++ password)
  checkpw password h := h = "s:" ++ password

/-- The reasons of a `ValueError`. -/
inductive UserError where
  | emptyUsername
  | invalidRole (role : PyVal)
  | emptyPassword
  | alreadyExists (username : String)
  | hashRefused

/-- The detail of an `HTTPException`. -/
inductive Detail where
  | text (s : String)
  | ofUserError (e : UserError)
  | bcryptMissing

/-- The exceptions of the user store and its routes. -/
inductive Exc where
  | clientError (f : Fault)
  | valueError (e : UserError)
  | authUnavailable
  | attributeError
  | http (status : ℕ) (detail : Detail)

/-- `VALID_ROLES`. -/
def validRoles : List String := ["admin", "user"]

/-- The role that a value names, if it is a valid one. -/
def validRole? : PyVal → Option String
  | .str r => if r ∈ validRoles then some r else none
  | _ => none

/-- `hash_password`. -/
def hashPassword (bcrypt : Bcrypt) (password : PyVal) (salt : String) : Except Exc String :=
  match password with
  | .str p =>
    if p = "" then .error (.valueError .emptyPassword)
    else if !bcrypt.available then .error .authUnavailable
    else match bcrypt.hashpw p salt with
      | some h => .ok h
      | none => .error (.valueError .hashRefused)
  | _ => .error (.valueError .emptyPassword)

/-- `check_password`; what is not a string makes the comparison fail. -/
def checkPassword (bcrypt : Bcrypt) (password : PyVal) (passwordHash : String) : Except Exc Bool :=
  if !password.truthy ∨ passwordHash = "" then .ok false
  else if !bcrypt.available then .error .authUnavailable
  else match password with
    | .str p => .ok (bcrypt.checkpw p passwordHash)
    | _ => .ok false

/-- `_safe_view`. -/
def safeView (row : UserRow) : UserView :=
  { username := row.username
    role := if row.role.getD "" = "" then "user" else row.role.getD ""
    createdAt := row.createdAt
    disabled := row.disabled.getD false }

/-- A service error that says the table does not exist. -/
def isMissingTable : Fault → Bool
  | .service code => code = "ResourceNotFoundException"
  | .conditionalCheckFailed => false

variable {slot : String ↪ ℕ}

/-- Programs over the user table. -/
abbrev UserProg (slot : String ↪ ℕ) (α : Type) := Prog (service (userSchema slot)) Unit Exc α

/-- `_get_raw`: the row, or `none` if there is none or the read fails. -/
def getRaw (username : String) : UserProg slot (Option UserRow) :=
  .await (Op.getItem username) fun
    | .ok item => pure item
    | .error _ => pure none

/-- `get`: the safe view of one user. -/
def get (username : String) : UserProg slot (Option UserView) :=
  if username = "" then pure none
  else do
    let item ← getRaw username
    pure (item.map safeView)

/-- `list`: the safe views of all users by name. A missing table has none. -/
def list : UserProg slot (List UserView) :=
  .await Op.scan fun
    | .ok items => pure ((items.map safeView).mergeSort fun u v => u.username ≤ v.username)
    | .error f => if isMissingTable f then pure [] else throw (.clientError f)

/-- The part of `create` after its checks: hash the password and put the row unless there is
one. -/
def putNew (bcrypt : Bcrypt) (username : String) (password : PyVal) (role salt : String) (now : ℤ) :
    UserProg slot UserView := do
  let h ← Prog.ofExcept (hashPassword bcrypt password salt)
  let item : UserRow :=
    { username, passwordHash := some h, role := some role, createdAt := some now
      disabled := some false }
  .await (Op.putIfAbsent item) fun
    | .ok _ => pure (safeView item)
    | .error .conditionalCheckFailed => throw (.valueError (.alreadyExists username))
    | .error f => throw (.clientError f)

/-- `create`. -/
def create (bcrypt : Bcrypt) (username : String) (password role : PyVal) (salt : String) (now : ℤ) :
    UserProg slot UserView :=
  let username := PyText.strip username
  if username = "" then throw (.valueError .emptyUsername)
  else match validRole? role with
    | none => throw (.valueError (.invalidRole role))
    | some role =>
      if !password.truthy then throw (.valueError .emptyPassword)
      else do
        if (← getRaw username).isSome then throw (.valueError (.alreadyExists username))
        else putNew bcrypt username password role salt now

/-- `update_item`, whose errors are not caught. -/
def updateItem (username : String) (u : UserUpdate) : UserProg slot Unit :=
  .await (Op.updateItem username u) fun
    | .ok _ => pure ()
    | .error f => throw (.clientError f)

/-- `set_password`: `false` if there is no row when the method looks. -/
def setPassword (bcrypt : Bcrypt) (username : String) (password : PyVal) (salt : String) :
    UserProg slot Bool :=
  if !password.truthy then throw (.valueError .emptyPassword)
  else do
    if (← getRaw username).isNone then return false
    let h ← Prog.ofExcept (hashPassword bcrypt password salt)
    updateItem username (.passwordHash h)
    return true

/-- `set_role`: `false` if there is no row when the method looks. -/
def setRole (username : String) (role : PyVal) : UserProg slot Bool := do
  match validRole? role with
  | none => throw (.valueError (.invalidRole role))
  | some role =>
    if (← getRaw username).isNone then return false
    updateItem username (.role role)
    return true

/-- `set_disabled`: `false` if there is no row when the method looks. -/
def setDisabled (username : String) (disabled : Bool) : UserProg slot Bool := do
  if (← getRaw username).isNone then return false
  updateItem username (.disabled disabled)
  return true

/-- `delete`: whether a row was removed. -/
def delete (username : String) : UserProg slot Bool :=
  .await (Op.deleteItem username) fun
    | .ok old => pure (Option.isSome old)
    | .error f => if isMissingTable f then pure false else throw (.clientError f)

/-- `verify`: the safe view of the user if the account is enabled and the password matches. -/
def verify (bcrypt : Bcrypt) (username : String) (password : PyVal) :
    UserProg slot (Option UserView) := do
  match ← getRaw username with
  | none => pure none
  | some row =>
    if row.disabled.getD false then pure none
    else if ← Prog.ofExcept (checkPassword bcrypt password (row.passwordHash.getD "")) then
      pure (some (safeView row))
    else pure none

/-- A call of one of the methods. -/
inductive StoreCall where
  | get (username : String)
  | list
  | create (username : String) (password role : PyVal) (salt : String) (now : ℤ)
  | setPassword (username : String) (password : PyVal) (salt : String)
  | setRole (username : String) (role : PyVal)
  | setDisabled (username : String) (disabled : Bool)
  | delete (username : String)
  | verify (username : String) (password : PyVal)

/-- What a call returns. -/
inductive StoreResult where
  | user (view : Option UserView)
  | users (views : List UserView)
  | flag (b : Bool)
  deriving DecidableEq

/-- Run a call. -/
def StoreCall.run (bcrypt : Bcrypt) : StoreCall → UserProg slot StoreResult
  | .get username => do return .user (← Users.get username)
  | .list => do return .users (← Users.list)
  | .create username password role salt now => do
    return .user (some (← Users.create bcrypt username password role salt now))
  | .setPassword username password salt => do
    return .flag (← Users.setPassword bcrypt username password salt)
  | .setRole username role => do return .flag (← Users.setRole username role)
  | .setDisabled username disabled => do return .flag (← Users.setDisabled username disabled)
  | .delete username => do return .flag (← Users.delete username)
  | .verify username password => do return .user (← Users.verify bcrypt username password)

end Users
