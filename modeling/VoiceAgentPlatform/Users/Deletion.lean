import VoiceAgentPlatform.Users.Auth

/-!
# Deleted accounts

The setters of the user store look for the row first and issue their update in a second operation.
The update carries no condition, so when the row has been deleted in between, the update makes it
again, with the attribute it sets and nothing else; `get` and, once a password is set, `verify`
accept such a row.

* `Gone`: the account has no row, and no reader or session dependency accepts it.
* `gone_iff`: after a deletion a run keeps the account gone exactly when no update takes effect on
  its missing row.
-/

namespace Users

open Async KeyedTable

variable {slot : String ↪ ℕ}

/-- The account is gone: there is no row, and whoever looks now finds nobody. -/
structure Gone (bcrypt : Bcrypt) (username : String) (t : UserTable slot) : Prop where
  noRow : t.get? username = none
  get : runAlone (Users.get username) () t = .ok none
  verify : ∀ password, runAlone (Users.verify bcrypt username password) () t = .ok none
  requireUser : ∀ claims : Claims, claims.sub = some username → claims.guest = false →
    runAlone (Users.requireUser (some claims)) () t = .error notAuthenticated

/-- Without a row every reader finds nobody. -/
theorem gone_iff_noRow (bcrypt : Bcrypt) (username : String) (t : UserTable slot) :
    Gone bcrypt username t ↔ t.get? username = none := by
  refine ⟨Gone.noRow, fun hrow => ⟨hrow, ?_, fun password => ?_, fun claims hsub hguest => ?_⟩⟩
  · by_cases hname : username = ""
    · simp [Users.get, hname]
    · simp [Users.get, getRaw, hname, hrow]
  · simp [Users.verify, getRaw, hrow]
  · by_cases hname : username = ""
    · simp [Users.requireUser, hsub, hname]
    · by_cases hws : claims.ws
      · simp [Users.requireUser, hws]
      · simp [Users.requireUser, Users.get, getRaw, hsub, hguest, hname, hws, hrow]

/-- The pool of calls of the user store. -/
abbrev StorePool (slot : String ↪ ℕ) :=
  Pool (service (userSchema slot)) StoreCall Unit Exc StoreResult

/-- No row of the account is stored as a whole: no `create` takes effect for it. -/
def NoCreate (username : String) :
    StorePool slot → Event (service (userSchema slot)) StoreCall → Prop :=
  Pool.Effects fun _ op _ choice =>
    choice = .ok → ∀ row, op.stored? = some row → row.username ≠ username

/-- An update of the account takes effect only while the account has a row. -/
def UpdatesExisting (username : String) :
    StorePool slot → Event (service (userSchema slot)) StoreCall → Prop :=
  Pool.Effects fun t op _ choice =>
    choice = .ok → op.updated? = some username → (t.get? username).isSome

/-- While there is no row, one step of an operation makes none exactly when it neither stores a row
of the account nor updates it. -/
theorem noRow_perform_iff {username : String} {t : UserTable slot} (hrow : t.get? username = none)
    (op : Op String UserRow UserUpdate) (flight : Flight String UserRow) (choice : Choice) :
    (perform op flight choice t).1.get? username = none ↔
      (choice = .ok → ∀ row, op.stored? = some row → row.username ≠ username) ∧
        (choice = .ok → op.updated? = some username → (t.get? username).isSome) := by
  have hkey : ∀ row, (userSchema slot).key row = row.username := fun _ => rfl
  cases choice with
  | page n => simp [hrow]
  | fault code => simp [hrow]
  | ok =>
    rw [fst_perform_ok]
    cases op with
    | getItem k => simp [complete, Op.stored?, Op.updated?, hrow]
    | scan => simp [complete, Op.stored?, Op.updated?, hrow]
    | deleteItem k => simp [complete, Op.stored?, Op.updated?, Table.get?_delete, hrow]
    | updateItem k u =>
      -- An update creates the row that it does not find.
      by_cases hname : k = username
      · simp [complete, Op.stored?, Op.updated?, Table.get?_upsert, hrow, hname]
      · simp [complete, Op.stored?, Op.updated?, Table.get?_upsert, hrow, hname, Ne.symm hname]
    | putItem row =>
      by_cases hname : row.username = username
      · simp [complete, Op.stored?, Table.get?_put, hkey, hname]
      · simp [complete, Op.stored?, Op.updated?, Table.get?_put, hkey, hrow, hname, Ne.symm hname]
    | putIfAbsent row =>
      by_cases hname : row.username = username
      · simp [complete, Op.stored?, Table.get?_put, hkey, hrow, hname]
      · simp only [complete]
        split_ifs <;>
          simp [Op.stored?, Op.updated?, Table.get?_put, hkey, hrow, hname, Ne.symm hname]

/-- Let a deletion of the account take effect, and let no `create` of it take effect afterwards. Then
a run keeps the account gone exactly when every update of the account takes effect while the account
has a row. -/
theorem gone_iff (bcrypt : Bcrypt) (username : String) (s : StorePool slot)
    (e : Event (service (userSchema slot)) StoreCall) (request : StoreCall)
    (flight : Flight String UserRow) (es : List (Event (service (userSchema slot)) StoreCall))
    (hdelete : s.Performs e request (.deleteItem username) flight .ok)
    (hcreate : Run.Guarded (Pool.step (StoreCall.run bcrypt)) (NoCreate username)
      (s.step (StoreCall.run bcrypt) e) es) :
    Run.Always (Pool.step (StoreCall.run bcrypt)) (fun s' => Gone bcrypt username s'.store)
        (s.step (StoreCall.run bcrypt) e) es ↔
      Run.Guarded (Pool.step (StoreCall.run bcrypt)) (UpdatesExisting username)
        (s.step (StoreCall.run bcrypt) e) es := by
  -- The row is gone when the deletion has taken effect.
  have hnone : (s.step (StoreCall.run bcrypt) e).store.get? username = none := by
    rw [Pool.store_of_performs hdelete]
    simp [perform, complete, Table.get?_delete]
  have hstore := Pool.always_store_iff (StoreCall.run bcrypt)
    (P := fun t : UserTable slot => t.get? username = none)
    (fun t op flight choice hrow => noRow_perform_iff hrow op flight choice) hnone es
  simp only [gone_iff_noRow]
  rw [hstore, Pool.effects_and]
  exact Run.guarded_and.trans (and_iff_right hcreate)

/-- A table with one account. -/
def oneAccount : UserTable stringSlot :=
  Table.put ∅
    { username := "u", passwordHash := some "s:old", role := some "user", createdAt := some 0
      disabled := some false }

/-- A password reset that has seen the row and issued its update, and a deletion in flight. -/
def resetAndDelete : StorePool stringSlot :=
  Run.exec (Pool.step (StoreCall.run sampleBcrypt)) (Pool.start oneAccount ())
    [.spawn (.setPassword "u" (.str "new") "s:"), .perform 0 .ok, .resume 0, .spawn (.delete "u")]

/-- The update of a password reset takes effect after the deletion. -/
theorem gone_iff_resetAndDelete :
    Run.Always (Pool.step (StoreCall.run sampleBcrypt))
        (fun s' => Gone sampleBcrypt "u" s'.store)
        (resetAndDelete.step (StoreCall.run sampleBcrypt) (.perform 1 .ok)) [.perform 0 .ok] ↔
      Run.Guarded (Pool.step (StoreCall.run sampleBcrypt)) (UpdatesExisting "u")
        (resetAndDelete.step (StoreCall.run sampleBcrypt) (.perform 1 .ok)) [.perform 0 .ok] := by
  refine gone_iff sampleBcrypt "u" resetAndDelete (.perform 1 .ok) (.delete "u") ⟨[], none⟩ _
    ⟨1, _, rfl, rfl⟩ ⟨?_, trivial⟩
  rintro request op flight choice ⟨i, k, hevent, htask⟩
  cases hevent
  cases htask
  exact fun _ _ => nofun

/-- The deleted account comes back, and whoever reset the password can log in with it. -/
theorem resetAndDelete_comesBack :
    resetAndDelete.Performs (.perform 1 .ok) (.delete "u") (.deleteItem "u") ⟨[], none⟩ .ok ∧
      runAlone (verify sampleBcrypt "u" (.str "new")) ()
          (Run.exec (Pool.step (StoreCall.run sampleBcrypt)) resetAndDelete
            [.perform 1 .ok, .perform 0 .ok]).store =
        .ok (some { username := "u", role := "user", createdAt := none, disabled := false }) ∧
      ¬ Run.Always (Pool.step (StoreCall.run sampleBcrypt))
        (fun s' => Gone sampleBcrypt "u" s'.store)
        (resetAndDelete.step (StoreCall.run sampleBcrypt) (.perform 1 .ok)) [.perform 0 .ok] := by
  refine ⟨⟨1, _, rfl, rfl⟩, rfl, fun h => ?_⟩
  have hrow := h.last.noRow
  cases hrow

end Users
