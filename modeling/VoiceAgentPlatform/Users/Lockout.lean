import VoiceAgentPlatform.Users.Auth

/-!
# Lock-out

The user management routes keep an admin from disabling or deleting their own account, and nothing
else: an admin may take the role from themselves, and two admins may act on each other at once. The
last enabled admin can therefore disappear.

* `HasAdmin`: some account is an enabled admin.
* `strips`: the account whose standing as an enabled admin an operation takes away.
* `hasAdmin_iff`: a run keeps an enabled admin exactly when no operation strips the last one; it
  does when whoever strips an account is still an enabled admin and takes no role from themselves.
-/

namespace Users

open Async KeyedTable

variable {slot : String ↪ ℕ}

/-- The row is that of an enabled admin. -/
def IsAdmin (row : UserRow) : Prop :=
  (safeView row).role = "admin" ∧ (safeView row).disabled = false

instance (row : UserRow) : Decidable (IsAdmin row) := inferInstanceAs (Decidable (_ ∧ _))

/-- Some account is an enabled admin. -/
def HasAdmin (t : UserTable slot) : Prop := ∃ row ∈ t, IsAdmin row

instance (t : UserTable slot) : Decidable (HasAdmin t) :=
  inferInstanceAs (Decidable (∃ row ∈ t.items, IsAdmin row))

/-- The account that an operation strips of its standing: it takes the admin role away, disables the
account, deletes it or stores something else in its place. -/
def strips : Op String UserRow UserUpdate → Option String
  | .deleteItem username => some username
  | .updateItem username (.role r) => if r = "admin" then none else some username
  | .updateItem username (.disabled true) => some username
  | .putItem row => if IsAdmin row then none else some row.username
  | _ => none

/-- When an operation strips an account, some other account is an enabled admin. -/
def SparesAnAdmin (t : UserTable slot) (op : Op String UserRow UserUpdate)
    (_ : Flight String UserRow) (choice : Choice) : Prop :=
  choice = .ok → ∀ username, strips op = some username →
    ∃ row ∈ t, IsAdmin row ∧ row.username ≠ username

/-- The account a request comes from. -/
def AdminRequest.requester (request : AdminRequest) : String :=
  (request.claims.bind Claims.sub).getD ""

/-- The pool of user management requests. -/
abbrev AdminPool (slot : String ↪ ℕ) :=
  Pool (service (userSchema slot)) AdminRequest Unit Exc AdminResponse

/-- When an operation strips an account, the requester is an enabled admin and does not change their
own role. -/
def RequesterStands (s : AdminPool slot)
    (e : Event (service (userSchema slot)) AdminRequest) : Prop :=
  ∀ request op flight, s.Performs e request op flight .ok → ∀ username, strips op = some username →
    (∃ row, s.store.get? request.requester = some row ∧ IsAdmin row) ∧
      ∀ r, op = .updateItem username (.role r) → request.requester ≠ username

/-! ### Operations -/

/-- After a row is stored, an enabled admin is that row or one of the others. -/
theorem hasAdmin_put (t : UserTable slot) (v : UserRow) :
    HasAdmin (t.put v) ↔ IsAdmin v ∨ ∃ row ∈ t, IsAdmin row ∧ row.username ≠ v.username := by
  constructor
  · rintro ⟨row, hrow, hadmin⟩
    rcases Table.mem_put.mp hrow with rfl | ⟨hrow, hname⟩
    · exact Or.inl hadmin
    · exact Or.inr ⟨row, hrow, hadmin, hname⟩
  · rintro (hadmin | ⟨row, hrow, hadmin, hname⟩)
    · exact ⟨v, Table.mem_put.mpr (Or.inl rfl), hadmin⟩
    · exact ⟨row, Table.mem_put.mpr (Or.inr ⟨hrow, hname⟩), hadmin⟩

/-- After a row is removed, an enabled admin is one of the others. -/
theorem hasAdmin_delete (t : UserTable slot) (username : String) :
    HasAdmin (t.delete username) ↔ ∃ row ∈ t, IsAdmin row ∧ row.username ≠ username := by
  constructor
  · rintro ⟨row, hrow, hadmin⟩
    obtain ⟨hrow, hname⟩ := Table.mem_delete.mp hrow
    exact ⟨row, hrow, hadmin, hname⟩
  · rintro ⟨row, hrow, hadmin, hname⟩
    exact ⟨row, Table.mem_delete.mpr ⟨hrow, hname⟩, hadmin⟩

/-- Storing a row that does not take an enabled admin's place for a lesser one keeps one. -/
theorem hasAdmin_put_of_forall {t : UserTable slot} (h : HasAdmin t) {v : UserRow}
    (hv : ∀ row ∈ t, IsAdmin row → row.username = v.username → IsAdmin v) : HasAdmin (t.put v) := by
  obtain ⟨row, hrow, hadmin⟩ := h
  refine (hasAdmin_put t v).mpr ?_
  by_cases hname : row.username = v.username
  · exact Or.inl (hv row hrow hadmin hname)
  · exact Or.inr ⟨row, hrow, hadmin, hname⟩

/-- An update strips the account unless it leaves an enabled admin one. -/
theorem isAdmin_set {row : UserRow} {u : UserUpdate}
    (hu : strips (.updateItem row.username u) = none) (hadmin : IsAdmin row) : IsAdmin (u.set row) := by
  cases u with
  | passwordHash h => exact hadmin
  | role r =>
    have hr : r = "admin" := by simpa [strips] using hu
    subst hr
    exact ⟨rfl, hadmin.2⟩
  | disabled d =>
    cases d with
    | true => cases hu
    | false => exact ⟨hadmin.1, rfl⟩

/-- An update that strips an account leaves it a row that is not an enabled admin's. -/
theorem not_isAdmin_set {username : String} {u : UserUpdate}
    (hu : strips (.updateItem username u) = some username) (row : UserRow) :
    ¬ IsAdmin (u.set row) := by
  rintro ⟨hrole, hdisabled⟩
  cases u with
  | passwordHash h => cases hu
  | role r =>
    have hr : r ≠ "admin" := by
      intro hr
      simp [strips, hr] at hu
    -- An empty role is shown as that of a user.
    by_cases hempty : r = ""
    · simp [safeView, UserUpdate.set, hempty] at hrole
    · simp [safeView, UserUpdate.set, hempty, hr] at hrole
  | disabled d =>
    cases d with
    | true => simp [safeView, UserUpdate.set] at hdisabled
    | false => cases hu

/-- An operation keeps an enabled admin exactly when it spares one. -/
theorem hasAdmin_perform_iff {t : UserTable slot} (h : HasAdmin t)
    (op : Op String UserRow UserUpdate) (flight : Flight String UserRow) (choice : Choice) :
    HasAdmin (perform op flight choice t).1 ↔ SparesAnAdmin t op flight choice := by
  cases choice with
  | page n => simp [SparesAnAdmin, h]
  | fault code => simp [SparesAnAdmin, h]
  | ok =>
    rw [fst_perform_ok]
    simp only [SparesAnAdmin, forall_const]
    cases op with
    | getItem k => simpa [complete, strips] using h
    | scan => simpa [complete, strips] using h
    | deleteItem k => simp [complete, strips, hasAdmin_delete]
    | putItem v =>
      by_cases hv : IsAdmin v
      · simp [complete, strips, hasAdmin_put, hv]
      · simp [complete, strips, hasAdmin_put, hv]
    -- A conditional put replaces nobody.
    | putIfAbsent v =>
      simp only [complete, strips, reduceCtorEq, false_implies, implies_true, iff_true]
      split_ifs with hfree
      · exact h
      · refine hasAdmin_put_of_forall h fun row hrow _ hname => absurd ?_ hfree
        exact Option.isSome_iff_exists.mpr ⟨row, Table.get?_eq_some_iff.mpr ⟨hrow, hname⟩⟩
    | updateItem k u =>
      have hname : ((userSchema slot).update u k (t.get? k)).username = k := Table.key_upsert t k u
      -- An update takes an admin away only if it lowers the role or disables.
      cases hu : strips (.updateItem k u) with
      | none =>
        simp only [complete, reduceCtorEq, false_implies, implies_true, iff_true]
        refine hasAdmin_put_of_forall h fun row hrow hadmin hkey => ?_
        obtain rfl : row.username = k := hkey.trans hname
        have hget : t.get? row.username = some row := Table.get?_eq_some_iff.mpr ⟨hrow, rfl⟩
        rw [hget]
        exact isAdmin_set hu hadmin
      | some username =>
        obtain rfl : k = username := by
          cases u with
          | passwordHash h => cases hu
          | role r =>
            simp only [strips] at hu
            split_ifs at hu
            exact Option.some.inj hu
          | disabled d =>
            cases d with
            | true => exact Option.some.inj hu
            | false => cases hu
        have hlesser : ¬ IsAdmin ((userSchema slot).update u k (t.get? k)) := not_isAdmin_set hu _
        simp [complete, Table.upsert, hasAdmin_put, hlesser, hname]

/-! ### Requests -/

/-- What the routes issue for a request: they store no row over another, and an account that they
disable or delete is not the requester's. -/
def Blameless (request : AdminRequest) (op : Op String UserRow UserUpdate) : Prop :=
  (∀ row, op ≠ .putItem row) ∧
    ∀ username, strips op = some username →
      (∀ r, op ≠ .updateItem username (.role r)) → request.requester ≠ username

section Blameless

variable {request : AdminRequest} {α : Type}

variable (slot) in
/-- Programs that issue only blameless operations for the request, with a condition on what they
return. -/
abbrev YieldsBlameless (request : AdminRequest) (R : α → Prop) (p : UserProg slot α) : Prop :=
  p.Yields (Honest (userSchema slot)) (Blameless request) R

theorem blameless_of_strips_eq_none {op : Op String UserRow UserUpdate}
    (hput : ∀ row, op ≠ .putItem row) (h : strips op = none) : Blameless request op :=
  ⟨hput, fun username hu => by simp [h] at hu⟩

/-- `_get_raw` returns a row of the name asked for. -/
theorem yields_getRaw (username : String) :
    YieldsBlameless slot request
      (fun row => ∀ r, row = some r → r.username = username) (getRaw username) := by
  refine Prog.yields_await (blameless_of_strips_eq_none nofun rfl) fun reply hreply => ?_
  cases reply with
  | ok item =>
    refine Prog.yields_done fun r hr => hreply r (by rw [hr])
  | error f => exact Prog.yields_done nofun

/-- `get` returns a view of the name asked for. -/
theorem yields_get (username : String) :
    YieldsBlameless slot request
      (fun view => ∀ v, view = some v → v.username = username) (get username) := by
  unfold get
  split_ifs
  · exact Prog.yields_done nofun
  · refine (yields_getRaw username).bind fun item hitem => Prog.yields_done fun v hv => ?_
    obtain ⟨row, hrow, rfl⟩ := Option.map_eq_some_iff.mp hv
    exact hitem row hrow

theorem yields_updateItem {username : String} {u : UserUpdate}
    (h : Blameless request (.updateItem username u)) :
    YieldsBlameless slot request (fun _ => True) (updateItem username u) := by
  refine Prog.yields_await h fun reply _ => ?_
  cases reply with
  | ok _ => exact Prog.yields_done trivial
  | error f => exact Prog.yields_raise _

/-- A role change is not held against the requester. -/
theorem yields_setRole (username : String) (role : PyVal) :
    YieldsBlameless slot request (fun _ => True) (setRole username role) := by
  unfold setRole
  split
  · exact Prog.yields_raise _
  · rename_i r _
    refine (yields_getRaw username).bind fun row _ => ?_
    split_ifs
    · exact Prog.yields_done trivial
    · refine (yields_updateItem ⟨(fun _ h => by cases h), fun u hu hrole => ?_⟩).bind fun _ _ =>
        Prog.yields_done trivial
      obtain rfl : username = u := by
        simp only [strips] at hu
        split_ifs at hu
        exact Option.some.inj hu
      exact absurd rfl (hrole r)

theorem yields_setPassword (bcrypt : Bcrypt) (username : String) (password : PyVal)
    (salt : String) :
    YieldsBlameless slot request (fun _ => True)
      (setPassword bcrypt username password salt) := by
  unfold setPassword
  split_ifs
  · exact Prog.yields_raise _
  · refine (yields_getRaw username).bind fun row _ => ?_
    split_ifs
    · exact Prog.yields_done trivial
    · refine (Prog.yields_ofExcept fun _ _ => trivial).bind fun h _ => ?_
      exact (yields_updateItem (blameless_of_strips_eq_none nofun rfl)).bind fun _ _ =>
        Prog.yields_done trivial

theorem yields_setDisabled {username : String} {disabled : Bool}
    (h : disabled = true → request.requester ≠ username) :
    YieldsBlameless slot request (fun _ => True) (setDisabled username disabled) := by
  refine (yields_getRaw username).bind fun row _ => ?_
  split_ifs
  · exact Prog.yields_done trivial
  · refine (yields_updateItem ⟨nofun, fun u hu _ => ?_⟩).bind fun _ _ => Prog.yields_done trivial
    cases disabled with
    | true => exact Option.some.inj hu ▸ h rfl
    | false => cases hu

theorem yields_delete {username : String} (h : request.requester ≠ username) :
    YieldsBlameless slot request (fun _ => True) (delete username) := by
  refine Prog.yields_await ⟨nofun, fun u hu _ => Option.some.inj hu ▸ h⟩ fun reply _ => ?_
  cases reply with
  | ok old => exact Prog.yields_done trivial
  | error f =>
    dsimp only
    split_ifs
    · exact Prog.yields_done trivial
    · exact Prog.yields_raise _

theorem yields_putNew (bcrypt : Bcrypt) (username : String) (password : PyVal)
    (role salt : String) (now : ℤ) :
    YieldsBlameless slot request (fun _ => True)
      (putNew bcrypt username password role salt now) := by
  refine (Prog.yields_ofExcept fun _ _ => trivial).bind fun h _ => ?_
  refine Prog.yields_await (blameless_of_strips_eq_none nofun rfl) fun reply _ => ?_
  rcases reply with (_ | code) | _
  · exact Prog.yields_raise _
  · exact Prog.yields_raise _
  · exact Prog.yields_done trivial

theorem yields_create (bcrypt : Bcrypt) (username : String) (password role : PyVal) (salt : String)
    (now : ℤ) :
    YieldsBlameless slot request (fun _ => True)
      (create bcrypt username password role salt now) := by
  unfold create
  dsimp only
  split
  · exact Prog.yields_raise _
  · split
    · exact Prog.yields_raise _
    · split
      · exact Prog.yields_raise _
      · refine (yields_getRaw _).bind fun row _ => ?_
        split
        · exact Prog.yields_raise _
        · exact yields_putNew _ _ _ _ _ _

/-- `require_admin` returns the requester. -/
theorem yields_requireAdmin :
    YieldsBlameless slot request (fun user => user.username = request.requester)
      (requireAdmin request.claims) := by
  -- A guest is no administrator, so only the row of the requester is left.
  have huser : YieldsBlameless slot request
      (fun user => user.role = "admin" → user.username = request.requester)
      (requireUser request.claims) := by
    unfold requireUser
    split
    · exact Prog.yields_raise _
    · rename_i claims hclaims
      have hrequester : request.requester = claims.sub.getD "" := by
        simp [AdminRequest.requester, hclaims]
      split_ifs
      · exact Prog.yields_raise _
      · exact Prog.yields_done fun hrole => absurd (show "guest" = "admin" from hrole) (by decide)
      · refine (yields_get _).bind fun view hview => ?_
        split
        · exact Prog.yields_raise _
        · rename_i user
          split_ifs
          · exact Prog.yields_raise _
          · exact Prog.yields_done fun _ => (hview user rfl).trans hrequester.symm
  refine huser.bind fun user hname => ?_
  split_ifs with hrole
  · exact Prog.yields_raise _
  · exact Prog.yields_done (hname (not_not.mp hrole))

theorem yields_patchRole (username : String) (payload : PyDict) :
    YieldsBlameless slot request (fun _ => True) (patchRole username payload) := by
  unfold patchRole
  split
  · exact Prog.yields_done trivial
  · refine (yields_setRole username _).bind fun found _ => ?_
    split
    · exact Prog.yields_raise _
    · exact Prog.yields_done trivial

theorem yields_patchPassword (bcrypt : Bcrypt) (username : String) (payload : PyDict)
    (salt : String) :
    YieldsBlameless slot request (fun _ => True)
      (patchPassword bcrypt username payload salt) := by
  unfold patchPassword
  split
  · exact Prog.yields_done trivial
  · refine (yields_setPassword _ _ _ _).bind fun found _ => ?_
    split
    · exact Prog.yields_raise _
    · exact Prog.yields_done trivial

/-- The guard of `disabled` keeps the requester's account out. -/
theorem yields_patchDisabled {admin : SessionUser} (hadmin : admin.username = request.requester)
    (username : String) (payload : PyDict) :
    YieldsBlameless slot request (fun _ => True)
      (patchDisabled admin username payload) := by
  unfold patchDisabled
  split
  · exact Prog.yields_done trivial
  · split
    · exact Prog.yields_raise _
    · rename_i hguard
      refine (yields_setDisabled fun hdisabled hself => hguard ⟨?_, hdisabled⟩).bind fun found _ => ?_
      · exact (hadmin.trans hself).symm
      · split
        · exact Prog.yields_raise _
        · exact Prog.yields_done trivial

theorem yields_adminUsersCreate (bcrypt : Bcrypt) (payload : PyDict) (salt : String) (now : ℤ) :
    YieldsBlameless slot request (fun _ => True)
      (adminUsersCreate bcrypt payload salt now) := by
  refine Prog.Yields.bind (T := fun _ => True) (Prog.yields_ofExcept fun _ _ => trivial)
    fun username _ => ?_
  exact (yields_create bcrypt username _ _ salt now).tryCatch fun e => Prog.yields_raise _

theorem yields_adminUsersPatch (bcrypt : Bcrypt) {admin : SessionUser}
    (hadmin : admin.username = request.requester) (username : String) (payload : PyDict)
    (salt : String) :
    YieldsBlameless slot request (fun _ => True)
      (adminUsersPatch bcrypt admin username payload salt) := by
  -- The three fields, one after the other.
  have hfields : YieldsBlameless slot request (fun _ => True)
      (applyUserPatch bcrypt admin username payload salt) :=
    (yields_patchRole username payload).bind fun _ _ =>
      (yields_patchPassword bcrypt username payload salt).bind fun _ _ =>
        (yields_patchDisabled hadmin username payload).bind fun _ _ => Prog.yields_done trivial
  refine Prog.Yields.bind (hfields.tryCatch fun e => Prog.yields_raise _) fun didSomething _ => ?_
  split
  · exact Prog.yields_raise _
  · refine (yields_get username).bind fun view _ => ?_
    split
    · exact Prog.yields_raise _
    · exact Prog.yields_done trivial

/-- The guard of `delete` keeps the requester's account out. -/
theorem yields_adminUsersDelete {admin : SessionUser} (hadmin : admin.username = request.requester)
    (username : String) :
    YieldsBlameless slot request (fun _ => True) (adminUsersDelete admin username) := by
  unfold adminUsersDelete
  split
  · exact Prog.yields_raise _
  · rename_i hself
    refine (yields_delete fun heq => hself ?_).bind fun found _ => ?_
    · exact (hadmin.trans heq).symm
    · split
      · exact Prog.yields_raise _
      · exact Prog.yields_done trivial

/-- Every route issues blameless operations. -/
theorem yields_run (bcrypt : Bcrypt) (request : AdminRequest) :
    YieldsBlameless slot request (fun _ => True) (request.run bcrypt) := by
  refine yields_requireAdmin.bind fun admin hadmin => ?_
  split
  · exact (yields_adminUsersCreate _ _ _ _).bind fun _ _ => Prog.yields_done trivial
  · exact (yields_adminUsersPatch _ hadmin _ _ _).bind fun _ _ => Prog.yields_done trivial
  · exact (yields_adminUsersDelete hadmin _).bind fun _ _ => Prog.yields_done trivial

end Blameless

/-! ### Runs -/

/-- Where the requester stands, some other account than the stripped one is an enabled admin: the
requester's. -/
theorem sparesAnAdmin_of_requesterStands {s : AdminPool slot}
    {e : Event (service (userSchema slot)) AdminRequest}
    (hblameless : ∀ request op flight choice, s.Performs e request op flight choice →
      Blameless request op) (h : RequesterStands s e) : Pool.Effects SparesAnAdmin s e := by
  rintro request op flight choice hperforms rfl username hstrips
  obtain ⟨⟨row, hrow, hadmin⟩, hrole⟩ := h request op flight hperforms username hstrips
  obtain ⟨hmem, hname⟩ := Table.get?_eq_some_iff.mp hrow
  refine ⟨row, hmem, hadmin, fun hsame => ?_⟩
  have hself : request.requester = username := hname.symm.trans hsame
  refine (hblameless request op flight .ok hperforms).2 username hstrips (fun r hop => ?_) hself
  exact hrole r hop hself

/-- From a table with an enabled admin, a run keeps an enabled admin exactly when every operation
that strips an account takes effect while some other account is an enabled admin. It does so when
each of them takes effect while its requester is still an enabled admin, unless they take the role
from themselves. -/
theorem hasAdmin_iff (bcrypt : Bcrypt) (t : UserTable slot)
    (es : List (Event (service (userSchema slot)) AdminRequest)) (ht : HasAdmin t) :
    (Run.Always (Pool.step (AdminRequest.run bcrypt)) (fun s : AdminPool slot => HasAdmin s.store)
        (Pool.start t ()) es ↔
      Run.Guarded (Pool.step (AdminRequest.run bcrypt)) (Pool.Effects SparesAnAdmin)
        (Pool.start t () : AdminPool slot) es) ∧
    (Run.Guarded (Pool.step (AdminRequest.run bcrypt)) RequesterStands
        (Pool.start t () : AdminPool slot) es →
      Run.Always (Pool.step (AdminRequest.run bcrypt)) (fun s : AdminPool slot => HasAdmin s.store)
        (Pool.start t ()) es) := by
  have hiff := Pool.always_store_iff (AdminRequest.run bcrypt)
    (s := (Pool.start t () : AdminPool slot)) (P := HasAdmin)
    (fun _ op flight choice h => hasAdmin_perform_iff h op flight choice) ht es
  refine ⟨hiff, fun hstands => hiff.mpr ?_⟩
  -- Along the run every task is disciplined, so the requester is the one checked.
  refine hstands.mono (I := Pool.Disciplined (Honest (userSchema slot)) Blameless
      fun _ r => ∀ a, r = .ok a → True)
    (fun s e h _ => h.step (fun r => (yields_run bcrypt r).meets) honest_perform e) (fun s e h hs => ?_)
    (fun _ htask => absurd htask List.not_mem_nil)
  exact sparesAnAdmin_of_requesterStands (fun _ _ _ _ hp => h.of_performs hp) hs

/-- A table with one account, an admin's. -/
def oneAdmin : UserTable stringSlot :=
  Table.put ∅
    { username := "a", passwordHash := some "s:old", role := some "admin", createdAt := some 0
      disabled := some false }

/-- The admin gives up the role, and every operation completes. -/
def selfDemotion : List (Event (service (userSchema stringSlot)) AdminRequest) :=
  [.spawn
      { claims := some { sub := some "a", ws := false, guest := false, scenario := .none }
        action := .patch "a" [("role", .str "user")] "s:" },
    .perform 0 .ok, .resume 0, .perform 0 .ok, .resume 0, .perform 0 .ok]

theorem hasAdmin_iff_selfDemotion :
    (Run.Always (Pool.step (AdminRequest.run sampleBcrypt))
        (fun s : AdminPool stringSlot => HasAdmin s.store) (Pool.start oneAdmin ()) selfDemotion ↔
      Run.Guarded (Pool.step (AdminRequest.run sampleBcrypt)) (Pool.Effects SparesAnAdmin)
        (Pool.start oneAdmin () : AdminPool stringSlot) selfDemotion) ∧
    (Run.Guarded (Pool.step (AdminRequest.run sampleBcrypt)) RequesterStands
        (Pool.start oneAdmin () : AdminPool stringSlot) selfDemotion →
      Run.Always (Pool.step (AdminRequest.run sampleBcrypt))
        (fun s : AdminPool stringSlot => HasAdmin s.store) (Pool.start oneAdmin ()) selfDemotion) :=
  hasAdmin_iff sampleBcrypt oneAdmin selfDemotion (by decide +kernel)

/-- The only admin locks everybody out. -/
theorem selfDemotion_locksOut :
    HasAdmin oneAdmin ∧
      ¬ Run.Always (Pool.step (AdminRequest.run sampleBcrypt))
        (fun s : AdminPool stringSlot => HasAdmin s.store) (Pool.start oneAdmin ())
        selfDemotion := by
  refine ⟨by decide +kernel, fun h => ?_⟩
  have hlast := h.last
  revert hlast
  decide +kernel

end Users
