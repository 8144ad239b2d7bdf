import VoiceAgentPlatform.Users.Auth

/-!
# What a user patch leaves

`PATCH /api/admin/users/{username}` applies the supplied fields one after the other, and checks each
of them only when its turn comes. Here is what a patch leaves when no other request interferes, and
when it is all-or-nothing.

* `SetsSupplied`: a row differs from another in the supplied fields only.
* `AllOrNothing`: a 4xx answer leaves the row, and a successful one sets the supplied fields.
* `EarlyWrite`: a field is refused after an earlier one has changed the row.
* `allOrNothing_iff`: a patch is all-or-nothing exactly if it has no early write.
-/

namespace Users

open Async KeyedTable

variable {slot : String ↪ ℕ}

@[simp] theorem execAlone_getRaw (username : String) (t : UserTable slot) :
    execAlone (getRaw username : UserProg slot _) () t = (.ok (t.get? username), (), t) := rfl

@[simp] theorem execAlone_updateItem (username : String) (u : UserUpdate) (t : UserTable slot) :
    execAlone (updateItem username u : UserProg slot _) () t =
      (.ok (), (), t.upsert username u) := rfl

/-- What a patch of one field leaves: the outcome of its turn, given the row it finds. -/
inductive Turn where
  | skipped
  | refused (e : Exc)
  | set (u : UserUpdate)

/-- The outcome of a turn, in the table. -/
def Turn.leave (username : String) (t : UserTable slot) : Turn → Except Exc Bool × Unit × UserTable slot
  | skipped => (.ok false, (), t)
  | refused e => (.error e, (), t)
  | set u => (.ok true, (), t.upsert username u)

/-- The turn of the field `role`, for an account that exists. -/
def roleTurn (payload : PyDict) : Turn :=
  match given payload "role" with
  | none => .skipped
  | some role =>
    match validRole? role with
    | none => .refused (.valueError (.invalidRole role))
    | some r => .set (.role r)

/-- The turn of the field `password`, for an account that exists. -/
def passwordTurn (bcrypt : Bcrypt) (payload : PyDict) (salt : String) : Turn :=
  if !(payload.get "password").truthy then .skipped
  else match hashPassword bcrypt (payload.get "password") salt with
    | .error e => .refused e
    | .ok h => .set (.passwordHash h)

/-- The turn of the field `disabled`, for an account that exists. -/
def disabledTurn (admin : SessionUser) (username : String) (payload : PyDict) : Turn :=
  match given payload "disabled" with
  | none => .skipped
  | some disabled =>
    if username = admin.username ∧ disabled.truthy then
      .refused (.http 400 (.text "cannot disable your own account"))
    else .set (.disabled disabled.truthy)

theorem execAlone_patchRole (username : String) (payload : PyDict) {t : UserTable slot}
    {row : UserRow} (hrow : t.get? username = some row) :
    execAlone (patchRole username payload) () t = (roleTurn payload).leave username t := by
  unfold patchRole roleTurn
  cases given payload "role" with
  | none => rfl
  | some role =>
    cases hvalid : validRole? role with
    | none => simp [setRole, hvalid, Turn.leave]
    | some r => simp [setRole, hvalid, execAlone_bind, hrow, Turn.leave]

theorem execAlone_patchPassword (bcrypt : Bcrypt) (username : String) (payload : PyDict)
    (salt : String) {t : UserTable slot} {row : UserRow} (hrow : t.get? username = some row) :
    execAlone (patchPassword bcrypt username payload salt) () t =
      (passwordTurn bcrypt payload salt).leave username t := by
  unfold patchPassword passwordTurn
  cases htruthy : (payload.get "password").truthy with
  | false => rfl
  | true =>
    cases hhash : hashPassword bcrypt (payload.get "password") salt with
    | error e => simp [setPassword, htruthy, hhash, execAlone_bind, hrow, Turn.leave]
    | ok h => simp [setPassword, htruthy, hhash, execAlone_bind, hrow, Turn.leave]

theorem execAlone_patchDisabled (admin : SessionUser) (username : String) (payload : PyDict)
    {t : UserTable slot} {row : UserRow} (hrow : t.get? username = some row) :
    execAlone (patchDisabled admin username payload) () t =
      (disabledTurn admin username payload).leave username t := by
  unfold patchDisabled disabledTurn
  cases given payload "disabled" with
  | none => rfl
  | some disabled =>
    by_cases hself : username = admin.username ∧ disabled.truthy = true
    · simp [hself, Turn.leave]
    · simp [hself, setDisabled, execAlone_bind, hrow, Turn.leave]

/-- A program run alone on `t` gives the first part of `outcome` and leaves the second one as the row
of `username`, and every other row as it is. -/
def Leaves {α : Type} (p : UserProg slot α) (username : String) (t : UserTable slot)
    (outcome : Except Exc α × UserRow) : Prop :=
  ∃ t' : UserTable slot, execAlone p () t = (outcome.1, (), t') ∧
    t'.get? username = some outcome.2 ∧ ∀ k, k ≠ username → t'.get? k = t.get? k

/-- Go on after a turn, unless it is refused. -/
def Turn.next {α : Type} (row : UserRow) (k : Bool → UserRow → Except Exc α × UserRow) :
    Turn → Except Exc α × UserRow
  | skipped => k false row
  | refused e => (.error e, row)
  | set u => k true (u.set row)

theorem Leaves.bind {α : Type} {p : UserProg slot Bool} {turn : Turn} {username : String}
    {t : UserTable slot} {row : UserRow} {f : Bool → UserProg slot α}
    {k : Bool → UserRow → Except Exc α × UserRow} (hrow : t.get? username = some row)
    (hp : execAlone p () t = turn.leave username t)
    (hf : ∀ (b : Bool) (t' : UserTable slot) (row' : UserRow), t'.get? username = some row' →
      Leaves (f b) username t' (k b row')) :
    Leaves (p.bind f) username t (turn.next row k) := by
  cases turn with
  | skipped =>
    obtain ⟨t', hrun, hleft⟩ := hf false t row hrow
    refine ⟨t', ?_, hleft⟩
    rw [execAlone_bind, hp]
    exact hrun
  | refused e =>
    refine ⟨t, ?_, hrow, fun k _ => rfl⟩
    rw [execAlone_bind, hp]
    rfl
  | set u =>
    -- The next field is patched in the row that this one has left.
    have hset : (t.upsert username u).get? username = some (u.set row) := by
      rw [Table.get?_upsert, if_pos rfl, hrow]
      rfl
    obtain ⟨t', hrun, hrow', hother⟩ := hf true (t.upsert username u) (u.set row) hset
    refine ⟨t', ?_, hrow', fun k hk => ?_⟩
    · rw [execAlone_bind, hp]
      exact hrun
    · rw [hother k hk, Table.get?_upsert, if_neg hk]

/-- The turns of a patch, one after the other. -/
def takeTurns (role password disabled : Turn) (row : UserRow) : Except Exc Bool × UserRow :=
  role.next row fun role row =>
    password.next row fun password row =>
      disabled.next row fun disabled row => (.ok (role || password || disabled), row)

theorem leaves_applyUserPatch (bcrypt : Bcrypt) (admin : SessionUser) (username : String)
    (payload : PyDict) (salt : String) {t : UserTable slot} {row : UserRow}
    (hrow : t.get? username = some row) :
    Leaves (applyUserPatch bcrypt admin username payload salt) username t
      (takeTurns (roleTurn payload) (passwordTurn bcrypt payload salt)
        (disabledTurn admin username payload) row) := by
  apply Leaves.bind hrow (execAlone_patchRole username payload hrow)
  intro role t₁ row₁ hrow₁
  apply Leaves.bind hrow₁ (execAlone_patchPassword bcrypt username payload salt hrow₁)
  intro password t₂ row₂ hrow₂
  apply Leaves.bind hrow₂ (execAlone_patchDisabled admin username payload hrow₂)
  intro disabled t₃ row₃ hrow₃
  exact ⟨t₃, rfl, hrow₃, fun k _ => rfl⟩

/-- The answer of the route, when its `try` block has ended so. -/
def patchAnswer : Except Exc Bool × UserRow → Except Exc UserView × UserRow
  | (.error e, row) => (.error (adminError e), row)
  | (.ok false, row) =>
    (.error (.http 400 (.text "body must include at least one of: role, password, disabled")), row)
  | (.ok true, row) => (.ok (safeView row), row)

/-- A patch of an account that exists answers and leaves what its turns say. -/
theorem leaves_adminUsersPatch (bcrypt : Bcrypt) (admin : SessionUser) {username : String}
    (payload : PyDict) (salt : String) {t : UserTable slot} {row : UserRow} (hname : username ≠ "")
    (hrow : t.get? username = some row) :
    Leaves (adminUsersPatch bcrypt admin username payload salt) username t
      (patchAnswer (takeTurns (roleTurn payload) (passwordTurn bcrypt payload salt)
        (disabledTurn admin username payload) row)) := by
  obtain ⟨t', hrun, hrow', hother⟩ := leaves_applyUserPatch bcrypt admin username payload salt hrow
  refine ⟨t', ?_, ?_, hother⟩
  · rcases hout : takeTurns (roleTurn payload) (passwordTurn bcrypt payload salt)
      (disabledTurn admin username payload) row with ⟨e | did, row'⟩
    · simp [adminUsersPatch, execAlone_bind, execAlone_tryCatch, hrun, hout, patchAnswer]
    · -- The answer shows the row as the turns have left it.
      have hget : t'.get? username = some row' := by rw [hrow', hout]
      cases did with
      | false => simp [adminUsersPatch, execAlone_bind, execAlone_tryCatch, hrun, hout, patchAnswer]
      | true =>
        simp [adminUsersPatch, execAlone_bind, execAlone_tryCatch, hrun, hout, patchAnswer, get,
          hname, hget]
  · rw [hrow']
    rcases takeTurns (roleTurn payload) (passwordTurn bcrypt payload salt)
      (disabledTurn admin username payload) row with ⟨e | did, row'⟩
    · rfl
    · cases did <;> rfl

/-- A program that applies nothing: it leaves the table and does not report a change. -/
def AppliesNothing (p : UserProg slot Bool) (t : UserTable slot) : Prop :=
  execAlone p () t = (.ok false, (), t) ∨ ∃ e, execAlone p () t = (.error e, (), t)

theorem AppliesNothing.bind {p q : UserProg slot Bool} {f : Bool → UserProg slot Bool}
    {t : UserTable slot} (hp : AppliesNothing p t) (hf : f false = q) (hq : AppliesNothing q t) :
    AppliesNothing (p.bind f) t := by
  rcases hp with hp | ⟨e, hp⟩
  · have hrun : execAlone (p.bind f) () t = execAlone q () t := by
      rw [execAlone_bind, hp, ← hf]
    rwa [AppliesNothing, hrun]
  · refine Or.inr ⟨e, ?_⟩
    rw [execAlone_bind, hp]

theorem patchRole_missing (username : String) (payload : PyDict) {t : UserTable slot}
    (hrow : t.get? username = none) : AppliesNothing (patchRole username payload) t := by
  unfold patchRole
  cases given payload "role" with
  | none => exact Or.inl rfl
  | some role =>
    right
    cases hvalid : validRole? role with
    | none => simp [setRole, hvalid]
    | some r => simp [setRole, hvalid, execAlone_bind, hrow]

theorem patchPassword_missing (bcrypt : Bcrypt) (username : String) (payload : PyDict)
    (salt : String) {t : UserTable slot} (hrow : t.get? username = none) :
    AppliesNothing (patchPassword bcrypt username payload salt) t := by
  unfold patchPassword
  cases htruthy : (payload.get "password").truthy with
  | false => exact Or.inl rfl
  | true =>
    right
    simp [setPassword, htruthy, execAlone_bind, hrow]

theorem patchDisabled_missing (admin : SessionUser) (username : String) (payload : PyDict)
    {t : UserTable slot} (hrow : t.get? username = none) :
    AppliesNothing (patchDisabled admin username payload) t := by
  unfold patchDisabled
  cases given payload "disabled" with
  | none => exact Or.inl rfl
  | some disabled =>
    right
    by_cases hself : username = admin.username ∧ disabled.truthy = true
    · simp [hself]
    · simp [hself, setDisabled, execAlone_bind, hrow]

/-- A patch of a missing account is refused and leaves the table. -/
theorem adminUsersPatch_missing (bcrypt : Bcrypt) (admin : SessionUser) (username : String)
    (payload : PyDict) (salt : String) {t : UserTable slot} (hrow : t.get? username = none) :
    ∃ e, execAlone (adminUsersPatch bcrypt admin username payload salt) () t = (.error e, (), t) := by
  have hdisabled : AppliesNothing ((patchDisabled admin username payload).bind fun disabled =>
      Prog.done (false || false || disabled)) t :=
    (patchDisabled_missing admin username payload hrow).bind rfl (Or.inl rfl)
  have hpatch : AppliesNothing (applyUserPatch bcrypt admin username payload salt) t :=
    (patchRole_missing username payload hrow).bind rfl
      ((patchPassword_missing bcrypt username payload salt hrow).bind rfl hdisabled)
  rcases hpatch with hrun | ⟨e, hrun⟩
  · refine ⟨.http 400 (.text "body must include at least one of: role, password, disabled"), ?_⟩
    simp [adminUsersPatch, execAlone_bind, execAlone_tryCatch, hrun]
  · exact ⟨adminError e, by simp [adminUsersPatch, execAlone_bind, execAlone_tryCatch, hrun]⟩

/-- `row'` is `row` with the supplied fields set: a role and a flag that are not null, a password
that is not empty. -/
structure SetsSupplied (bcrypt : Bcrypt) (payload : PyDict) (salt : String) (row row' : UserRow) :
    Prop where
  username : row'.username = row.username
  createdAt : row'.createdAt = row.createdAt
  role : match given payload "role" with
    | none => row'.role = row.role
    | some role => ∃ r, role = .str r ∧ row'.role = some r
  -- A password that is empty is not set.
  password : if (payload.get "password").truthy then
      ∃ password h, payload.get "password" = .str password ∧ bcrypt.hashpw password salt = some h ∧
        row'.passwordHash = some h
    else row'.passwordHash = row.passwordHash
  disabled : match given payload "disabled" with
    | none => row'.disabled = row.disabled
    | some disabled => row'.disabled = some disabled.truthy

/-- A patch answered with a 4xx status leaves the row of the account, and a patch that is answered
with 200 sets the supplied fields of the row and changes nothing else. -/
structure AllOrNothing (bcrypt : Bcrypt) (admin : SessionUser) (username : String)
    (payload : PyDict) (salt : String) (t : UserTable slot) : Prop where
  refused : ∀ (status : ℕ) (detail : Detail) (t' : UserTable slot),
    execAlone (adminUsersPatch bcrypt admin username payload salt) () t =
        (.error (.http status detail), (), t') →
      400 ≤ status → status < 500 → t'.get? username = t.get? username
  accepted : ∀ (view : UserView) (t' : UserTable slot),
    execAlone (adminUsersPatch bcrypt admin username payload salt) () t = (.ok view, (), t') →
      ∃ row row' : UserRow, t.get? username = some row ∧ t'.get? username = some row' ∧
        SetsSupplied bcrypt payload salt row row' ∧
        ∀ k, k ≠ username → t'.get? k = t.get? k

/-- The role that a patch sets: a valid one that is not null. -/
def newRole? (payload : PyDict) : Option String := (given payload "role").bind validRole?

/-- The password hash that a patch sets. -/
def newHash? (bcrypt : Bcrypt) (payload : PyDict) (salt : String) : Option String :=
  if (payload.get "password").truthy then
    (hashPassword bcrypt (payload.get "password") salt).toOption
  else none

/-- The patch supplies a role other than the one of the row, which is valid. -/
def ChangesRole (payload : PyDict) (row : UserRow) : Prop :=
  ∃ r, newRole? payload = some r ∧ row.role ≠ some r

/-- The patch supplies a password that is accepted, and whose hash is not the one of the row. -/
def ChangesPassword (bcrypt : Bcrypt) (payload : PyDict) (salt : String) (row : UserRow) : Prop :=
  ∃ h, newHash? bcrypt payload salt = some h ∧ row.passwordHash ≠ some h

/-- The patch supplies a password that is not a string or that bcrypt refuses. -/
def PasswordRefused (bcrypt : Bcrypt) (payload : PyDict) (salt : String) : Prop :=
  (payload.get "password").truthy = true ∧
    ∃ e, hashPassword bcrypt (payload.get "password") salt = .error (.valueError e)

/-- The patch disables the account of the admin who asks for it. -/
def DisablesSelf (admin : SessionUser) (username : String) (payload : PyDict) : Prop :=
  username = admin.username ∧ ∃ disabled, given payload "disabled" = some disabled ∧
    disabled.truthy = true

/-- The patch supplies a valid role or none. -/
def RoleFine (payload : PyDict) : Prop :=
  (given payload "role").isSome = true → (newRole? payload).isSome = true

/-- The patch supplies a password that can be hashed or none. -/
def PasswordFine (bcrypt : Bcrypt) (payload : PyDict) (salt : String) : Prop :=
  (payload.get "password").truthy = true → (newHash? bcrypt payload salt).isSome = true

/-- A field is refused after an earlier one has changed the row: a password after a new role, or the
end of one's own account after a new role or a new password. -/
def EarlyWrite (bcrypt : Bcrypt) (admin : SessionUser) (username : String) (payload : PyDict)
    (salt : String) (row : UserRow) : Prop :=
  RoleFine payload ∧
    (ChangesRole payload row ∧ PasswordRefused bcrypt payload salt ∨
      (ChangesRole payload row ∨ ChangesPassword bcrypt payload salt row) ∧
        PasswordFine bcrypt payload salt ∧ DisablesSelf admin username payload)

/-- The exceptions of `hash_password`. -/
theorem hashPassword_error {bcrypt : Bcrypt} {password : PyVal} {salt : String} {e : Exc}
    (h : hashPassword bcrypt password salt = .error e) :
    e = .authUnavailable ∨ ∃ e', e = .valueError e' := by
  unfold hashPassword at h
  split at h
  · split_ifs at h
    · exact Or.inr ⟨_, (Except.error.inj h).symm⟩
    · exact Or.inl (Except.error.inj h).symm
    · split at h
      · cases h
      · exact Or.inr ⟨_, (Except.error.inj h).symm⟩
  · exact Or.inr ⟨_, (Except.error.inj h).symm⟩

theorem hashPassword_ok {bcrypt : Bcrypt} {password : PyVal} {salt h : String}
    (hhash : hashPassword bcrypt password salt = .ok h) :
    ∃ p, password = .str p ∧ bcrypt.hashpw p salt = some h := by
  unfold hashPassword at hhash
  split at hhash
  · split_ifs at hhash
    split at hhash
    · next hsome =>
      obtain rfl := Except.ok.inj hhash
      exact ⟨_, rfl, hsome⟩
    · cases hhash
  · cases hhash

/-- The row after a turn. -/
def Turn.apply (row : UserRow) : Turn → UserRow
  | skipped => row
  | refused _ => row
  | set u => u.set row

/-- Whether a turn applies something. -/
def Turn.did : Turn → Bool
  | set _ => true
  | _ => false

/-- A turn that is not refused. -/
def Turn.Taken (turn : Turn) : Prop := ∀ e, turn ≠ .refused e

theorem Turn.apply_of_did {turn : Turn} (h : turn.did = false) (row : UserRow) :
    turn.apply row = row := by
  cases turn with
  | set u => cases h
  | _ => rfl

theorem Turn.next_of_taken {α : Type} {turn : Turn} (h : turn.Taken) (row : UserRow)
    (k : Bool → UserRow → Except Exc α × UserRow) :
    turn.next row k = k turn.did (turn.apply row) := by
  cases turn with
  | refused e => exact absurd rfl (h e)
  | _ => rfl

theorem takeTurns_password {role : Turn} (e : Exc) (disabled : Turn) (row : UserRow)
    (hrole : role.Taken) : takeTurns role (.refused e) disabled row = (.error e, role.apply row) := by
  rw [takeTurns, Turn.next_of_taken hrole]
  rfl

theorem takeTurns_disabled {role password : Turn} (e : Exc) (row : UserRow) (hrole : role.Taken)
    (hpassword : password.Taken) :
    takeTurns role password (.refused e) row = (.error e, password.apply (role.apply row)) := by
  rw [takeTurns, Turn.next_of_taken hrole, Turn.next_of_taken hpassword]
  rfl

theorem takeTurns_taken {role password disabled : Turn} (row : UserRow) (hrole : role.Taken)
    (hpassword : password.Taken) (hdisabled : disabled.Taken) :
    takeTurns role password disabled row =
      (.ok (role.did || password.did || disabled.did),
        disabled.apply (password.apply (role.apply row))) := by
  rw [takeTurns, Turn.next_of_taken hrole, Turn.next_of_taken hpassword,
    Turn.next_of_taken hdisabled]

/-- A patch that applies its turns has taken all of them. -/
theorem taken_of_takeTurns {role password disabled : Turn} {row row' : UserRow} {did : Bool}
    (h : takeTurns role password disabled row = (.ok did, row')) :
    role.Taken ∧ password.Taken ∧ disabled.Taken := by
  have hrole : role.Taken := by
    rintro e rfl
    cases h
  have hpassword : password.Taken := by
    rintro e rfl
    rw [takeTurns_password e disabled row hrole] at h
    cases h
  refine ⟨hrole, hpassword, ?_⟩
  rintro e rfl
  rw [takeTurns_disabled e row hrole hpassword] at h
  cases h

/-- The turn of the role, by what is supplied. -/
theorem roleTurn_cases (payload : PyDict) :
    (given payload "role" = none ∧ newRole? payload = none ∧ roleTurn payload = .skipped) ∨
    (∃ role, given payload "role" = some role ∧ newRole? payload = none ∧
      roleTurn payload = .refused (.valueError (.invalidRole role))) ∨
    ∃ r, given payload "role" = some (.str r) ∧ newRole? payload = some r ∧
      roleTurn payload = .set (.role r) := by
  unfold newRole? roleTurn
  cases hgiven : given payload "role" with
  | none => exact Or.inl ⟨rfl, rfl, rfl⟩
  | some role =>
    right
    cases hvalid : validRole? role with
    | none => exact Or.inl ⟨role, rfl, hvalid, by simp [hvalid]⟩
    | some r =>
      -- A valid role is a string.
      have hrole : role = .str r := by
        cases role with
        | str s =>
          rw [validRole?] at hvalid
          split_ifs at hvalid
          rw [Option.some.inj hvalid]
        | _ => cases hvalid
      subst hrole
      exact Or.inr ⟨r, rfl, hvalid, by simp [hvalid]⟩

/-- The turn of the password, by what is supplied. -/
theorem passwordTurn_cases (bcrypt : Bcrypt) (payload : PyDict) (salt : String) :
    ((payload.get "password").truthy = false ∧ passwordTurn bcrypt payload salt = .skipped) ∨
    (PasswordRefused bcrypt payload salt ∧ newHash? bcrypt payload salt = none ∧
      ∃ e, passwordTurn bcrypt payload salt = .refused (.valueError e)) ∨
    ((payload.get "password").truthy = true ∧ newHash? bcrypt payload salt = none ∧
      ¬ PasswordRefused bcrypt payload salt ∧
      passwordTurn bcrypt payload salt = .refused .authUnavailable) ∨
    ∃ p h, payload.get "password" = .str p ∧ (payload.get "password").truthy = true ∧
      bcrypt.hashpw p salt = some h ∧ newHash? bcrypt payload salt = some h ∧
      ¬ PasswordRefused bcrypt payload salt ∧
      passwordTurn bcrypt payload salt = .set (.passwordHash h) := by
  unfold newHash? passwordTurn PasswordRefused
  cases htruthy : (payload.get "password").truthy with
  | false => exact Or.inl ⟨rfl, rfl⟩
  | true =>
    right
    cases hhash : hashPassword bcrypt (payload.get "password") salt with
    | error e =>
      -- The library is missing, or the password is refused.
      rcases hashPassword_error hhash with rfl | ⟨e', rfl⟩
      · exact Or.inr (Or.inl ⟨rfl, rfl, by simp, rfl⟩)
      · exact Or.inl ⟨⟨rfl, e', rfl⟩, rfl, e', rfl⟩
    | ok h =>
      obtain ⟨p, hp, hsome⟩ := hashPassword_ok hhash
      exact Or.inr (Or.inr ⟨p, h, hp, rfl, hsome, rfl, by simp, rfl⟩)

/-- The turn of the flag, by what is supplied. -/
theorem disabledTurn_cases (admin : SessionUser) (username : String) (payload : PyDict) :
    (given payload "disabled" = none ∧ ¬ DisablesSelf admin username payload ∧
      disabledTurn admin username payload = .skipped) ∨
    (DisablesSelf admin username payload ∧ disabledTurn admin username payload =
      .refused (.http 400 (.text "cannot disable your own account"))) ∨
    ∃ disabled, given payload "disabled" = some disabled ∧
      ¬ DisablesSelf admin username payload ∧
      disabledTurn admin username payload = .set (.disabled disabled.truthy) := by
  unfold DisablesSelf disabledTurn
  cases given payload "disabled" with
  | none => exact Or.inl ⟨rfl, by simp, rfl⟩
  | some disabled =>
    by_cases hself : username = admin.username ∧ disabled.truthy = true
    · exact Or.inr (Or.inl ⟨⟨hself.1, disabled, rfl, hself.2⟩, if_pos hself⟩)
    · exact Or.inr (Or.inr ⟨disabled, rfl, by simpa using hself, if_neg hself⟩)

/-- The first turn changes the row if it supplies a new role. -/
theorem apply_roleTurn_eq_iff (payload : PyDict) (row : UserRow) :
    (roleTurn payload).apply row = row ↔ ¬ ChangesRole payload row := by
  unfold ChangesRole
  rcases roleTurn_cases payload with ⟨-, hnew, hturn⟩ | ⟨role, -, hnew, hturn⟩ | ⟨r, -, hnew, hturn⟩
  · simp [hnew, hturn, Turn.apply]
  · simp [hnew, hturn, Turn.apply]
  · rw [hturn, hnew]
    constructor
    · rintro hsame ⟨_, ⟨⟩, hne⟩
      exact hne (congrArg UserRow.role hsame).symm
    · intro hsame
      have hrole : row.role = some r := by simpa using hsame
      cases row
      cases hrole
      rfl

/-- The first two turns change the row if they supply a new role or a new password. -/
theorem apply_passwordTurn_eq_iff (bcrypt : Bcrypt) (payload : PyDict) (salt : String)
    (row : UserRow) :
    (passwordTurn bcrypt payload salt).apply ((roleTurn payload).apply row) = row ↔
      ¬ (ChangesRole payload row ∨ ChangesPassword bcrypt payload salt row) := by
  -- The role leaves the password hash, and the password leaves the role.
  have hhash : ((roleTurn payload).apply row).passwordHash = row.passwordHash := by
    rcases roleTurn_cases payload with ⟨-, -, hturn⟩ | ⟨_, -, -, hturn⟩ | ⟨r, -, -, hturn⟩ <;>
      rw [hturn] <;> rfl
  rw [not_or, ← apply_roleTurn_eq_iff]
  rcases passwordTurn_cases bcrypt payload salt with ⟨htruthy, hturn⟩ | ⟨-, hnew, e, hturn⟩ |
    ⟨-, hnew, -, hturn⟩ | ⟨p, h, -, -, -, hnew, -, hturn⟩
  · simp [ChangesPassword, newHash?, htruthy, hturn, Turn.apply]
  · simp [ChangesPassword, hnew, hturn, Turn.apply]
  · simp [ChangesPassword, hnew, hturn, Turn.apply]
  · rw [hturn]
    generalize (roleTurn payload).apply row = row₁ at hhash
    constructor
    · intro hsame
      have hrow : row.passwordHash = some h := (congrArg UserRow.passwordHash hsame).symm
      refine ⟨?_, ?_⟩
      · rw [← hsame]
        cases row₁
        cases hhash.trans hrow
        rfl
      · rintro ⟨_, hsome, hne⟩
        rw [hnew] at hsome
        exact hne (hrow.trans hsome)
    · rintro ⟨rfl, hsame⟩
      have hrow : row₁.passwordHash = some h := by simpa [ChangesPassword, hnew] using hsame
      cases row₁
      cases hrow
      rfl

/-- What a role that is taken sets. -/
theorem apply_roleTurn_taken {payload : PyDict} (h : (roleTurn payload).Taken) (row : UserRow) :
    ∃ role, (roleTurn payload).apply row = { row with role } ∧
      match given payload "role" with
      | none => role = row.role
      | some v => ∃ r, v = .str r ∧ role = some r := by
  rcases roleTurn_cases payload with ⟨hgiven, -, hturn⟩ | ⟨v, -, -, hturn⟩ | ⟨r, hgiven, -, hturn⟩
  · rw [hgiven, hturn]
    exact ⟨row.role, rfl, rfl⟩
  · exact absurd hturn (h _)
  · rw [hgiven, hturn]
    exact ⟨some r, rfl, r, rfl, rfl⟩

/-- What a password that is taken sets. -/
theorem apply_passwordTurn_taken {bcrypt : Bcrypt} {payload : PyDict} {salt : String}
    (h : (passwordTurn bcrypt payload salt).Taken) (row : UserRow) :
    ∃ passwordHash, (passwordTurn bcrypt payload salt).apply row = { row with passwordHash } ∧
      if (payload.get "password").truthy then
        ∃ p h, payload.get "password" = .str p ∧ bcrypt.hashpw p salt = some h ∧
          passwordHash = some h
      else passwordHash = row.passwordHash := by
  -- A turn that is taken was skipped, or it has set the hash.
  rcases passwordTurn_cases bcrypt payload salt with ⟨htruthy, hturn⟩ | ⟨-, -, e, hturn⟩ |
    ⟨-, -, -, hturn⟩ | ⟨p, h', hpassword, htruthy, hsome, -, -, hturn⟩
  · rw [htruthy, hturn]
    exact ⟨row.passwordHash, rfl, rfl⟩
  · exact absurd hturn (h _)
  · exact absurd hturn (h _)
  · rw [hturn]
    refine ⟨some h', rfl, ?_⟩
    rw [if_pos htruthy]
    exact ⟨p, h', hpassword, hsome, rfl⟩

/-- What a flag that is taken sets. -/
theorem apply_disabledTurn_taken {admin : SessionUser} {username : String} {payload : PyDict}
    (h : (disabledTurn admin username payload).Taken) (row : UserRow) :
    ∃ disabled, (disabledTurn admin username payload).apply row = { row with disabled } ∧
      match given payload "disabled" with
      | none => disabled = row.disabled
      | some v => disabled = some v.truthy := by
  rcases disabledTurn_cases admin username payload with ⟨hgiven, -, hturn⟩ | ⟨-, hturn⟩ |
    ⟨v, hgiven, -, hturn⟩
  · rw [hgiven, hturn]
    exact ⟨row.disabled, rfl, rfl⟩
  · exact absurd hturn (h _)
  · rw [hgiven, hturn]
    exact ⟨some v.truthy, rfl, rfl⟩

/-- Turns that are all taken set the supplied fields. -/
theorem setsSupplied_takeTurns {bcrypt : Bcrypt} {admin : SessionUser} {username : String}
    {payload : PyDict} {salt : String} {row row' : UserRow} {did : Bool}
    (h : takeTurns (roleTurn payload) (passwordTurn bcrypt payload salt)
      (disabledTurn admin username payload) row = (.ok did, row')) :
    SetsSupplied bcrypt payload salt row row' := by
  obtain ⟨htaken, htaken', htaken''⟩ := taken_of_takeTurns h
  rw [takeTurns_taken row htaken htaken' htaken''] at h
  obtain ⟨role, hrow₁, hrole⟩ := apply_roleTurn_taken htaken row
  rw [hrow₁] at h
  obtain ⟨hash, hrow₂, hhash⟩ := apply_passwordTurn_taken htaken' { row with role }
  rw [hrow₂] at h
  obtain ⟨disabled, hrow₃, hdisabled⟩ := apply_disabledTurn_taken htaken''
    { row with role, passwordHash := hash }
  rw [hrow₃] at h
  obtain rfl := congrArg Prod.snd h
  exact ⟨rfl, rfl, hrole, hhash, hdisabled⟩

/-- A refusal with a 4xx status leaves the row exactly if nothing has changed it before. -/
theorem refused_iff {row row' : UserRow} {e : Exc} {status : ℕ} {detail : Detail}
    (he : adminError e = .http status detail) (hstatus : 400 ≤ status ∧ status < 500) :
    (∀ (status : ℕ) (detail : Detail) (r : UserRow),
      patchAnswer (.error e, row') = (.error (.http status detail), r) →
        400 ≤ status → status < 500 → r = row) ↔ row' = row := by
  constructor
  · intro h
    exact h status detail row' (by rw [patchAnswer, he]) hstatus.1 hstatus.2
  · rintro rfl status detail r hanswer - -
    exact (congrArg Prod.snd hanswer).symm

/-- Turns that are all taken are answered with an error only if they apply nothing. -/
theorem patchAnswer_taken {role password disabled : Turn} {row r : UserRow} {e : Exc}
    (hrole : role.Taken) (hpassword : password.Taken) (hdisabled : disabled.Taken)
    (h : patchAnswer (takeTurns role password disabled row) = (.error e, r)) : r = row := by
  rw [takeTurns_taken row hrole hpassword hdisabled] at h
  cases hdid : role.did || password.did || disabled.did with
  | true =>
    rw [hdid] at h
    cases h
  | false =>
    rw [hdid] at h
    obtain ⟨hdid, hthird⟩ := Bool.or_eq_false_iff.mp hdid
    obtain ⟨hfirst, hsecond⟩ := Bool.or_eq_false_iff.mp hdid
    rw [Turn.apply_of_did hthird, Turn.apply_of_did hsecond, Turn.apply_of_did hfirst] at h
    exact (congrArg Prod.snd h).symm

theorem roleTurn_fine (payload : PyDict) :
    (roleTurn payload).Taken ∧ RoleFine payload ∨
      ¬ RoleFine payload ∧ ∃ role, roleTurn payload = .refused (.valueError (.invalidRole role)) := by
  unfold RoleFine
  rcases roleTurn_cases payload with ⟨hgiven, -, hturn⟩ | ⟨role, hgiven, hnew, hturn⟩ |
    ⟨r, hgiven, hnew, hturn⟩
  · exact Or.inl ⟨by simp [hturn, Turn.Taken], by simp [hgiven]⟩
  · exact Or.inr ⟨by simp [hgiven, hnew], role, hturn⟩
  · exact Or.inl ⟨by simp [hturn, Turn.Taken], by simp [hnew]⟩

theorem passwordTurn_fine (bcrypt : Bcrypt) (payload : PyDict) (salt : String) :
    (passwordTurn bcrypt payload salt).Taken ∧ PasswordFine bcrypt payload salt ∧
        ¬ PasswordRefused bcrypt payload salt ∨
      ¬ PasswordFine bcrypt payload salt ∧
        (PasswordRefused bcrypt payload salt ∧
            (∃ e, passwordTurn bcrypt payload salt = .refused (.valueError e)) ∨
          ¬ PasswordRefused bcrypt payload salt ∧
            passwordTurn bcrypt payload salt = .refused .authUnavailable) := by
  unfold PasswordFine
  rcases passwordTurn_cases bcrypt payload salt with ⟨htruthy, hturn⟩ | ⟨hrefused, hhash, hturn⟩ |
    ⟨htruthy, hhash, hnot, hturn⟩ | ⟨p, h, -, htruthy, -, hhash, hnot, hturn⟩
  · exact Or.inl ⟨by simp [hturn, Turn.Taken], by simp [htruthy], by simp [PasswordRefused, htruthy]⟩
  · exact Or.inr ⟨by simp [hhash, hrefused.1], Or.inl ⟨hrefused, hturn⟩⟩
  · exact Or.inr ⟨by simp [hhash, htruthy], Or.inr ⟨hnot, hturn⟩⟩
  · exact Or.inl ⟨by simp [hturn, Turn.Taken], by simp [hhash], hnot⟩

/-- Turns of which one is refused with a 4xx status leave the row exactly if there is no early
write. -/
theorem takeTurns_refused_iff {bcrypt : Bcrypt} {admin : SessionUser} {username : String}
    {payload : PyDict} {salt : String} {row : UserRow} :
    (∀ (status : ℕ) (detail : Detail) (r : UserRow),
      patchAnswer (takeTurns (roleTurn payload) (passwordTurn bcrypt payload salt)
        (disabledTurn admin username payload) row) = (.error (.http status detail), r) →
        400 ≤ status → status < 500 → r = row) ↔
      ¬ EarlyWrite bcrypt admin username payload salt row := by
  unfold EarlyWrite
  rcases roleTurn_fine payload with ⟨hrole, hfine⟩ | ⟨hfine, role, hturn⟩
  swap
  · -- A role that is refused is refused before anything is written.
    rw [hturn]
    refine (@refused_iff row row _ _ _ rfl (by omega)).trans ?_
    simp only [hfine, false_and, not_false_eq_true]
  rcases passwordTurn_fine bcrypt payload salt with ⟨hpassword, hpfine, hnot⟩ |
    ⟨hpfine, ⟨hrefused, e, hturn⟩ | ⟨hnot, hturn⟩⟩
  · simp only [hfine, hpfine, hnot, true_and, and_false, false_or]
    have haccepted : (disabledTurn admin username payload).Taken →
        ∀ (status : ℕ) (detail : Detail) (r : UserRow),
        patchAnswer (takeTurns (roleTurn payload) (passwordTurn bcrypt payload salt)
          (disabledTurn admin username payload) row) = (.error (.http status detail), r) →
          400 ≤ status → status < 500 → r = row :=
      fun hdisabled _ _ _ hanswer _ _ => patchAnswer_taken hrole hpassword hdisabled hanswer
    rcases disabledTurn_cases admin username payload with ⟨-, hself, hturn⟩ | ⟨hself, hturn⟩ |
      ⟨disabled, -, hself, hturn⟩
    · exact iff_of_true (haccepted (by simp [hturn, Turn.Taken])) fun h => hself h.2
    · rw [hturn, takeTurns_disabled _ row hrole hpassword]
      refine (refused_iff rfl (by omega)).trans ?_
      simp only [hself, and_true]
      exact apply_passwordTurn_eq_iff bcrypt payload salt row
    · exact iff_of_true (haccepted (by simp [hturn, Turn.Taken])) fun h => hself h.2
  · rw [hturn, takeTurns_password _ _ _ hrole]
    refine (refused_iff rfl (by omega)).trans ?_
    simp only [hfine, hpfine, hrefused, true_and, and_true, false_and, and_false, or_false]
    exact apply_roleTurn_eq_iff payload row
  · -- A missing bcrypt is answered with 503.
    rw [hturn, takeTurns_password _ _ _ hrole]
    simp only [hpfine, hnot, and_false, false_and, or_false, not_false_eq_true, iff_true]
    rintro status detail r hanswer - hstatus
    have hcode : adminError .authUnavailable = .http status detail :=
      Except.error.inj (congrArg Prod.fst hanswer)
    cases hcode
    omega

/-- A patch is all-or-nothing exactly if it does not write early to an account that exists. A path
never has an empty user name. -/
theorem allOrNothing_iff (bcrypt : Bcrypt) (admin : SessionUser) (username : String)
    (payload : PyDict) (salt : String) (t : UserTable slot) (hname : username ≠ "") :
    AllOrNothing bcrypt admin username payload salt t ↔
      ∀ row, t.get? username = some row → ¬ EarlyWrite bcrypt admin username payload salt row := by
  cases hrow : t.get? username with
  | none =>
    obtain ⟨e, hrun⟩ := adminUsersPatch_missing bcrypt admin username payload salt hrow
    refine iff_of_true ⟨?_, ?_⟩ (fun _ => nofun)
    · intro status detail t' hanswer _ _
      rw [hrun] at hanswer
      cases hanswer
      rfl
    · intro view t' hanswer
      rw [hrun] at hanswer
      cases hanswer
  | some row =>
    obtain ⟨t', hrun, hleft, hother⟩ :=
      leaves_adminUsersPatch bcrypt admin payload salt hname hrow
    -- Whether a field is written before one is refused is a matter of the turns alone.
    have hrefused := @takeTurns_refused_iff bcrypt admin username payload salt row
    have hearly : (∀ r, some row = some r → ¬ EarlyWrite bcrypt admin username payload salt r) ↔
        ¬ EarlyWrite bcrypt admin username payload salt row := by simp
    rw [hearly, ← hrefused]
    rcases hout : takeTurns (roleTurn payload) (passwordTurn bcrypt payload salt)
      (disabledTurn admin username payload) row with ⟨reply, row'⟩
    rw [hout] at hrun hleft
    constructor
    · rintro ⟨hall, -⟩ status detail r hanswer h400 h500
      rw [hanswer] at hrun hleft
      have hrow' := hall status detail t' hrun h400 h500
      rw [hleft, hrow] at hrow'
      exact Option.some.inj hrow'
    · intro hall
      refine ⟨?_, ?_⟩
      · rintro status detail t'' hanswer h400 h500
        rw [hrun] at hanswer
        obtain ⟨hreply, rfl⟩ : (patchAnswer (reply, row')).1 = .error (.http status detail) ∧
          t' = t'' := by simpa using hanswer
        rw [hleft, hrow]
        exact congrArg some (hall status detail _ (Prod.ext hreply rfl) h400 h500)
      · rintro view t'' hanswer
        rw [hrun] at hanswer
        obtain ⟨hreply, rfl⟩ : (patchAnswer (reply, row')).1 = .ok view ∧ t' = t'' := by
          simpa using hanswer
        refine ⟨row, _, hrow, hleft, ?_, hother⟩
        match reply, hreply with
        | .ok true, _ => exact setsSupplied_takeTurns hout

/-- An administrator whose role is not the one of the patch. -/
def adminAccount : UserTable stringSlot :=
  Table.put ∅
    { username := "u", passwordHash := some "s:pw", role := some "admin", createdAt := some 0
      disabled := some false }

/-- The administrator who is logged in. -/
def loggedIn : SessionUser :=
  { username := "u", role := "admin", createdAt := some 0, disabled := false, scenario := none }

/-- A patch that takes the role from its own account and disables it. -/
def resignation : PyDict := [("role", .str "user"), ("disabled", .bool true)]

/-- A patch of the role alone is all-or-nothing. -/
theorem allOrNothing_roleOnly :
    AllOrNothing sampleBcrypt loggedIn "u" [("role", .str "user")] "s:" adminAccount := by
  refine (allOrNothing_iff sampleBcrypt loggedIn "u" _ "s:" adminAccount (by decide)).mpr ?_
  rintro row - ⟨-, ⟨-, htruthy, -⟩ | ⟨-, -, -, disabled, hgiven, -⟩⟩
  · cases htruthy
  · cases hgiven

/-- The patch is refused, and the account has lost its role. -/
theorem resignation_writesEarly :
    (execAlone (adminUsersPatch sampleBcrypt loggedIn "u" resignation "s:") () adminAccount).1 =
        .error (.http 400 (.text "cannot disable your own account")) ∧
      ((execAlone (adminUsersPatch sampleBcrypt loggedIn "u" resignation "s:") () adminAccount).2.2.get?
        "u").map UserRow.role = some (some "user") ∧
      (adminAccount.get? "u").map UserRow.role = some (some "admin") ∧
      ¬ AllOrNothing sampleBcrypt loggedIn "u" resignation "s:" adminAccount := by
  have hrun : execAlone (adminUsersPatch sampleBcrypt loggedIn "u" resignation "s:") () adminAccount =
      (.error (.http 400 (.text "cannot disable your own account")), (),
        adminAccount.upsert "u" (.role "user")) := rfl
  have hrole : ((adminAccount.upsert "u" (.role "user")).get? "u").map UserRow.role =
      some (some "user") := by
    rw [Table.get?_upsert]
    rfl
  refine ⟨by rw [hrun], by rw [hrun, hrole], rfl, fun h => ?_⟩
  -- The role is set before the last field is refused.
  have hsame := congrArg (Option.map UserRow.role) (h.refused 400 _ _ hrun (by omega) (by omega))
  rw [hrole] at hsame
  exact absurd hsame (by decide)

end Users
