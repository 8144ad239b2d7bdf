import VoiceAgentPlatform.Lib.DictUpdate
import VoiceAgentPlatform.Lib.Run
import VoiceAgentPlatform.Tokens.Tokens

/-!
# Where a session comes from

A run of the routes that mint tokens, while time passes and the other routes change the accounts in
any way. Nobody presents a token whose signature verifies unless the server has minted its payload.

* `Server.step`: logins, the first-run setup, guest links and ws-tokens, one after another.
* `Unforged`: what a client can present.
* `adminSession_provenance`: an admin request comes from a login of the same account within the
  lifetime of a session, and the account is an enabled administrator when the request is made.
* `guestSession_provenance`: a guest session comes from a link that an administrator minted, and ends
  with it.
* `authGuestLogin_session`: a guest login accepts the tokens of guest sessions only.
* `wsToken_provenance`, `monitor_provenance`: a socket is opened within a minute of a request by a
  session, which is an administrator's at that time for the monitor.
-/

namespace Tokens

open Users KeyedTable Run

variable {slot : String ↪ ℕ}

/-- What the routes run with: PyJWT, bcrypt and `AUTH_TTL_HOURS`. -/
structure Server where
  jwt : Option PyJwt
  bcrypt : Bcrypt
  authTtlHours : ℤ

/-- The libraries of the server. -/
def Server.libs (s : Server) : AuthLibs := { bcrypt := s.bcrypt, jwt := s.jwt.isSome }

/-- The clock, the accounts, and the payloads that were signed so far. -/
structure World (slot : String ↪ ℕ) where
  now : ℚ
  users : UserTable slot
  issued : List PyDict

/-- What happens. `write` stands for everything that other requests do to the accounts. -/
inductive Event (slot : String ↪ ℕ) where
  | wait (seconds : ℚ)
  | write (users : UserTable slot)
  | login (payload : PyDict)
  | setup (request : SetupRequest)
  | guestLink (cookie : String) (catalog : Catalog) (body : GuestLinkBody)
  | wsToken (cookie : String)

/-- `require_user`: the user behind a session cookie. -/
def Server.session (s : Server) (w : World slot) (cookie : String) : Except Exc SessionUser :=
  runAlone (requireUser ((decodeJwt s.jwt w.now cookie).map claimsOf)) () w.users

/-- `require_admin`. -/
def Server.adminSession (s : Server) (w : World slot) (cookie : String) : Except Exc SessionUser :=
  runAlone (requireAdmin ((decodeJwt s.jwt w.now cookie).map claimsOf)) () w.users

/-- The user that an event logs in with a password, or creates as the first administrator. -/
def Server.loggedIn (s : Server) (w : World slot) : Event slot → Option UserView
  | .login payload => (runAlone (authLogin s.bcrypt payload) () w.users).toOption
  | .setup request => (runAlone (authSetup s.libs request) () w.users).toOption
  | _ => none

/-- The payload that an event has signed. -/
def Server.minted (s : Server) (w : World slot) : Event slot → Option PyDict
  | .guestLink cookie catalog body =>
    match s.adminSession w cookie, checkedGuestLink catalog body with
    | .ok _, some (ttl, scenario, launch) =>
      (issueGuestToken s.jwt ttl scenario launch w.now w.now).toOption.map fun r => r.2.1
    | _, _ => none
  | .wsToken cookie =>
    match s.session w cookie with
    | .ok user => (issueWsToken s.jwt user.username user.role w.now).toOption.map Prod.snd
    | .error _ => none
  | e =>
    match s.loggedIn w e with
    | some user =>
      (issueJwt s.jwt user.username user.role w.now (s.authTtlHours * 3600) []).toOption.map Prod.snd
    | none => none

/-- The clock after an event. Time does not run backwards. -/
def Event.clock (now : ℚ) : Event slot → ℚ
  | .wait seconds => if 0 ≤ seconds then now + seconds else now
  | _ => now

/-- The accounts after an event. -/
def Server.accounts (s : Server) (users : UserTable slot) : Event slot → UserTable slot
  | .write users => users
  | .setup request => (execAlone (authSetup s.libs request) () users).2.2
  | _ => users

/-- One event. -/
def Server.step (s : Server) (w : World slot) (e : Event slot) : World slot where
  now := e.clock w.now
  users := s.accounts w.users e
  issued := w.issued ++ (s.minted w e).toList

/-- A token that a client can present: if its signature verifies, the server has signed its
payload. -/
def Unforged (s : Server) (w : World slot) (token : String) : Prop :=
  ∀ jwt ∈ s.jwt, ∀ claims ∈ jwt.verified token, claims ∈ w.issued

/-- The cookies of an event are unforged. -/
def Presents (s : Server) (w : World slot) : Event slot → Prop
  | .guestLink cookie _ _ => Unforged s w cookie
  | .wsToken cookie => Unforged s w cookie
  | _ => True

/-! ### The payloads -/

/-- The keys of the entries that are kept. -/
theorem map_fst_filterMap_sublist {α : Type} (f : α → Option PyVal) (fields : List (String × α)) :
    ((fields.filterMap fun e => (f e.2).map fun v => (e.1, v)).map Prod.fst).Sublist
      (fields.map Prod.fst) := by
  induction fields with
  | nil => exact List.Sublist.refl _
  | cons e fields ih =>
    rw [List.filterMap_cons, List.map_cons]
    cases f e.2 with
    | none => exact ih.cons _
    | some v => exact ih.cons_cons _

/-- A field that is kept is found under its name. -/
theorem get?_filterMap {α : Type} (f : α → Option PyVal) {fields : List (String × α)}
    (h : (fields.map Prod.fst).Nodup) {e : String × α} (he : e ∈ fields) :
    PyDict.get? (fields.filterMap fun e => (f e.2).map fun v => (e.1, v)) e.1 = f e.2 := by
  induction fields with
  | nil => exact absurd he List.not_mem_nil
  | cons e' fields ih =>
    obtain ⟨hnotMem, hnodup⟩ := List.nodup_cons.mp h
    have hkept := map_fst_filterMap_sublist f fields
    rcases List.mem_cons.mp he with rfl | he
    · rw [List.filterMap_cons]
      cases f e.2 with
      | none =>
        -- No other field has the name.
        have hnone := mt PyDict.isSome_get?_iff.mp fun hmem => hnotMem (hkept.subset hmem)
        simpa using hnone
      | some v => exact (PyDict.get?_cons _ _ _).trans (if_pos rfl)
    · have hne : e'.1 ≠ e.1 := fun heq => hnotMem (heq ▸ List.mem_map_of_mem he)
      rw [List.filterMap_cons]
      cases f e'.2 with
      | none => exact ih hnodup he
      | some v =>
        rw [Option.map_some]
        exact (PyDict.get?_cons _ _ _).trans ((if_neg hne).trans (ih hnodup he))

section Payloads

variable {username role : String} {now : ℚ} {ttl : ℤ} {extra : PyDict} {scenario : Option String}
  {launch : Launch.LaunchConfig}

theorem get_payloadOf (h : (extra.map Prod.fst).Nodup) (key : String) :
    PyDict.get (payloadOf username role now ttl extra) key =
      ((PyDict.get? extra key).or (PyDict.get? [("sub", .str username),
        ("role", .str (if role = "" then "user" else role)),
        ("exp", .int (⌊now⌋ + ttl))] key)).getD .none := by
  rw [PyDict.get, payloadOf, PyDict.get?_update, PyDict.get?_reverse h]

theorem keys_guestExtra_sublist (scenario : Option String) (launch : Launch.LaunchConfig) :
    ((guestExtra scenario launch).map Prod.fst).Sublist
      ["guest", "scenario", "lang", "engine", "voice", "provider"] :=
  (map_fst_filterMap_sublist (fun v : Option String => (v.filter (· ≠ "")).map PyVal.str) _).cons_cons _

theorem nodup_guestExtra (scenario : Option String) (launch : Launch.LaunchConfig) :
    ((guestExtra scenario launch).map Prod.fst).Nodup :=
  (keys_guestExtra_sublist scenario launch).nodup (by decide)

/-- A claim that a guest link does not add is that of a session. -/
theorem get_guestPayload {key : String}
    (h : key ∉ ["guest", "scenario", "lang", "engine", "voice", "provider"]) :
    PyDict.get (payloadOf username role now ttl (guestExtra scenario launch)) key =
      PyDict.get (payloadOf username role now ttl []) key := by
  have hnone : PyDict.get? (guestExtra scenario launch) key = none := by
    have hnotMem := mt PyDict.isSome_get?_iff.mp fun hmem =>
      h ((keys_guestExtra_sublist scenario launch).subset hmem)
    simpa using hnotMem
  rw [get_payloadOf (nodup_guestExtra scenario launch), hnone, Option.none_or]
  rfl

theorem get_guestPayload_guest : PyDict.get
    (payloadOf username role now ttl (guestExtra scenario launch)) "guest" = .bool true := by
  rw [get_payloadOf (nodup_guestExtra scenario launch)]
  rfl

/-- A launch field of a guest link is a claim unless it is empty. -/
theorem get_guestPayload_field {e : String × Option String}
    (h : e ∈ [("scenario", scenario), ("lang", launch.lang), ("engine", launch.engine),
      ("voice", launch.voice), ("provider", launch.provider)]) :
    PyDict.get (payloadOf username role now ttl (guestExtra scenario launch)) e.1 =
      ((e.2.filter (· ≠ "")).map PyVal.str).getD .none := by
  have hnodup : ([("scenario", scenario), ("lang", launch.lang), ("engine", launch.engine),
      ("voice", launch.voice), ("provider", launch.provider)].map Prod.fst).Nodup := by simp
  have hfield := get?_filterMap (fun v : Option String => (v.filter (· ≠ "")).map PyVal.str) hnodup h
  have hkeys : e.1 ∉ ["guest", "sub", "role", "exp"] := by
    simp only [List.mem_cons, List.not_mem_nil, or_false] at h
    rcases h with rfl | rfl | rfl | rfl | rfl <;> simp
  simp only [List.mem_cons, List.not_mem_nil, or_false, not_or] at hkeys
  obtain ⟨hguest, hsub, hrole, hexp⟩ := hkeys
  have hextra : PyDict.get? (guestExtra scenario launch) e.1 =
      (e.2.filter (· ≠ "")).map PyVal.str :=
    (PyDict.get?_cons _ _ _).trans ((if_neg (Ne.symm hguest)).trans hfield)
  rw [get_payloadOf (nodup_guestExtra scenario launch), hextra, PyDict.get?_cons, if_neg (Ne.symm hsub),
    PyDict.get?_cons, if_neg (Ne.symm hrole), PyDict.get?_cons, if_neg (Ne.symm hexp)]
  exact congrArg (Option.getD · PyVal.none) (Option.or_none)

/-- The scenario of a guest link is a claim unless it is empty. -/
theorem get_guestPayload_scenario : PyDict.get
    (payloadOf username role now ttl (guestExtra scenario launch)) "scenario" =
      ((scenario.filter (· ≠ "")).map PyVal.str).getD .none :=
  get_guestPayload_field (List.mem_cons_self ..)

end Payloads

/-! ### What is minted -/

/-- The account of a login was enabled, and its password was given; or the first administrator was
created while there was no account. -/
inductive PasswordLogin (s : Server) (w : World slot) (username : String) : Event slot → Prop where
  | login {payload : PyDict} {row : UserRow} {password : String}
      (hrow : w.users.get? username = some row) (hdisabled : row.disabled.getD false = false)
      (hgiven : (payload.get "password").orElse (.str "") = .str password)
      (hpassword : s.bcrypt.checkpw password (row.passwordHash.getD "") = true) :
      PasswordLogin s w username (.login payload)
  | setup {request : SetupRequest} {view : UserView} (hempty : w.users.items = [])
      (hcreated : runAlone (authSetup s.libs request) () w.users = .ok view)
      (hname : view.username = username) : PasswordLogin s w username (.setup request)

section Minted

variable {s : Server} {w : World slot}

/-- A password that `check_password` accepts. -/
theorem checkPassword_eq_true {bcrypt : Bcrypt} {password : PyVal} {h : String}
    (hcheck : checkPassword bcrypt password h = .ok true) :
    ∃ p, password = .str p ∧ bcrypt.checkpw p h = true := by
  unfold checkPassword at hcheck
  split_ifs at hcheck
  · simp at hcheck
  · cases password with
    | str p => exact ⟨p, rfl, Except.ok.inj hcheck⟩
    | _ => simp at hcheck

/-- A login that succeeds has found the row of its account and checked its password. -/
theorem runAlone_authLogin_row {bcrypt : Bcrypt} {payload : PyDict} {t : UserTable slot}
    {username : String} {view : UserView}
    (hname : strippedField payload "username" = .ok username)
    (h : runAlone (authLogin bcrypt payload) () t = .ok view) :
    ∃ row p, t.get? username = some row ∧ row.disabled.getD false = false ∧ view = safeView row ∧
      (payload.get "password").orElse (.str "") = .str p ∧
      bcrypt.checkpw p (row.passwordHash.getD "") = true := by
  simp only [authLogin, hname, Async.Prog.ofExcept_ok, Async.Prog.bind_eq, Async.Prog.bind_done] at h
  split_ifs at h with hmissing
  · cases h
  simp only [verify, getRaw, Async.Prog.bind_eq, Async.Prog.bind_await, Async.Prog.pure_eq,
    Async.Prog.bind_done, Async.Prog.tryCatch_await, runAlone_getItem] at h
  cases hrow : t.get? username with
  | none =>
    rw [hrow] at h
    cases h
  | some row =>
    simp only [hrow] at h
    split_ifs at h with hdisabled
    · cases h
    -- Whatever the library raises or refuses ends the login.
    cases hcheck : checkPassword bcrypt ((payload.get "password").orElse (.str ""))
        (row.passwordHash.getD "") with
    | error e =>
      rw [hcheck] at h
      cases e <;> cases h
    | ok b =>
      rw [hcheck] at h
      cases b with
      | false => cases h
      | true =>
        obtain rfl := Except.ok.inj h
        obtain ⟨p, hgiven, hchecked⟩ := checkPassword_eq_true hcheck
        exact ⟨row, p, rfl, by simpa using hdisabled, rfl, hgiven, hchecked⟩

/-- A login that succeeds: the account is enabled, and the password is that of its row. -/
theorem runAlone_authLogin_ok {bcrypt : Bcrypt} {payload : PyDict} {t : UserTable slot}
    {view : UserView} (h : runAlone (authLogin bcrypt payload) () t = .ok view) :
    ∃ row p, t.get? view.username = some row ∧ row.disabled.getD false = false ∧
      (payload.get "password").orElse (.str "") = .str p ∧
      bcrypt.checkpw p (row.passwordHash.getD "") = true := by
  cases hname : strippedField payload "username" with
  | error e =>
    rw [authLogin, hname] at h
    cases h
  | ok username =>
    obtain ⟨row, p, hrow, hdisabled, rfl, hgiven, hchecked⟩ := runAlone_authLogin_row hname h
    have hkey : row.username = username := (Table.get?_eq_some_iff.mp hrow).2
    refine ⟨row, p, ?_, hdisabled, hgiven, hchecked⟩
    exact (congrArg t.get? hkey).trans hrow

/-- The first-run setup finds no account. -/
theorem items_of_authSetup_ok {libs : AuthLibs} {request : SetupRequest} {t : UserTable slot}
    {view : UserView} (h : runAlone (authSetup libs request) () t = .ok view) : t.items = [] := by
  by_contra hne
  have hafter : Table.after t none ≠ [] := by simpa [Table.after] using hne
  simp only [authSetup, needsSetup, list, Async.Prog.bind_eq, Async.Prog.bind_await,
    Async.Prog.pure_eq, runAlone, complete, Async.Prog.bind_done] at h
  rw [if_pos (by simpa using hafter)] at h
  cases h

/-- A result that is not an exception. -/
theorem toOption_eq_some_iff {ε α : Type} {x : Except ε α} {a : α} :
    x.toOption = some a ↔ x = .ok a := by
  cases x <;> simp [Except.toOption]

/-- What the events that mint sessions have checked. -/
theorem passwordLogin_of_loggedIn {e : Event slot} {view : UserView}
    (h : s.loggedIn w e = some view) : PasswordLogin s w view.username e := by
  cases e with
  | login payload =>
    obtain ⟨row, p, hrow, hdisabled, hgiven, hpassword⟩ := runAlone_authLogin_ok (toOption_eq_some_iff.mp h)
    exact .login hrow hdisabled hgiven hpassword
  | setup request =>
    have hok : runAlone (authSetup s.libs request) () w.users = .ok view :=
      toOption_eq_some_iff.mp h
    exact .setup (items_of_authSetup_ok hok) hok rfl
  | _ => cases h

/-- What `issueJwt` has signed. -/
theorem payload_of_issueJwt {username role : String} {now : ℚ} {ttl : ℤ} {extra payload : PyDict}
    (h : (issueJwt s.jwt username role now ttl extra).toOption.map Prod.snd = some payload) :
    payload = payloadOf username role now ttl extra := by
  cases hjwt : s.jwt with
  | none => simp [hjwt, issueJwt, Except.toOption] at h
  | some jwt => simpa [hjwt, issueJwt, Except.toOption, eq_comm] using h

/-- What `issueGuestToken` has signed. -/
theorem payload_of_issueGuestToken {ttl : ℤ} {scenario : Option String} {launch : Launch.LaunchConfig}
    {now now' : ℚ} {payload : PyDict}
    (h : ((issueGuestToken s.jwt ttl scenario launch now now').toOption.map fun r => r.2.1) =
      some payload) :
    payload = payloadOf "guest" "guest" now (guestSeconds ttl) (guestExtra scenario launch) := by
  cases hjwt : s.jwt with
  | none => simp [hjwt, issueGuestToken, issueJwt, Except.toOption, bind, Except.bind] at h
  | some jwt =>
    refine (Option.some.inj (Eq.trans ?_ h)).symm
    rw [hjwt]
    rfl

/-- What an event mints: the session of a login, a guest link, or a ws-token. -/
theorem minted_cases {e : Event slot} {payload : PyDict} (h : s.minted w e = some payload) :
    (∃ view, s.loggedIn w e = some view ∧
      payload = payloadOf view.username view.role w.now (s.authTtlHours * 3600) []) ∨
    (∃ cookie catalog body admin ttl scenario launch, e = .guestLink cookie catalog body ∧
      s.adminSession w cookie = .ok admin ∧
      checkedGuestLink catalog body = some (ttl, scenario, launch) ∧
      payload = payloadOf "guest" "guest" w.now (guestSeconds ttl) (guestExtra scenario launch)) ∨
    (∃ cookie user, e = .wsToken cookie ∧ s.session w cookie = .ok user ∧
      payload = payloadOf user.username user.role w.now 60 [("ws", .bool true)]) := by
  cases e with
  | guestLink cookie catalog body =>
    simp only [Server.minted] at h
    split at h
    · rename_i admin ttl scenario launch hadmin hchecked
      exact .inr (.inl ⟨cookie, catalog, body, admin, ttl, scenario, launch, rfl, hadmin, hchecked,
        payload_of_issueGuestToken h⟩)
    · cases h
  | wsToken cookie =>
    simp only [Server.minted] at h
    cases hsession : s.session w cookie with
    | error e => simp [hsession] at h
    | ok user =>
      simp only [hsession, issueWsToken, secondsOf_wsTokenTtl] at h
      exact .inr (.inr ⟨cookie, user, rfl, hsession, payload_of_issueJwt h⟩)
  | login payload' =>
    simp only [Server.minted] at h
    split at h
    · exact .inl ⟨_, ‹_›, payload_of_issueJwt h⟩
    · cases h
  | setup request =>
    simp only [Server.minted] at h
    split at h
    · exact .inl ⟨_, ‹_›, payload_of_issueJwt h⟩
    · cases h
  -- Nothing else mints.
  | wait seconds => cases h
  | write users => cases h

/-- What a token decodes to has been signed, and has not expired. -/
theorem decodeJwt_eq_some {token : String} {claims : PyDict} (htoken : Unforged s w token)
    (h : decodeJwt s.jwt w.now token = some claims) :
    claims ∈ w.issued ∧ isExpired claims w.now = false := by
  cases hjwt : s.jwt with
  | none => simp [decodeJwt, hjwt] at h
  | some jwt =>
    simp only [decodeJwt, hjwt] at h
    split_ifs at h
    cases hverified : jwt.verified token with
    | none => simp [hverified] at h
    | some payload =>
      simp only [hverified] at h
      split_ifs at h with hexpired
      obtain rfl := Option.some.inj h
      exact ⟨htoken jwt hjwt payload hverified, by simpa using hexpired⟩

/-- The expiry of a minted payload is in the future as long as it is not refused. -/
theorem lt_of_not_isExpired {claims : PyDict} {exp : ℤ} {now : ℚ}
    (hexp : claims.get "exp" = .int exp) (h : isExpired claims now = false) : now < exp := by
  simpa [isExpired, hexp] using h

/-- The user of a session: a guest, or an enabled account. -/
theorem session_cases {cookie : String} {user : SessionUser} (h : s.session w cookie = .ok user) :
    ∃ claims, decodeJwt s.jwt w.now cookie = some claims ∧ (claims.get "ws").truthy = false ∧
      (((claims.get "guest").truthy = true ∧ user.role = "guest" ∧
          user.scenario = some (claims.get "scenario")) ∨
        ((claims.get "guest").truthy = false ∧ user.scenario = none ∧
          claims.get "sub" = .str user.username ∧
          ∃ row, w.users.get? user.username = some row ∧ row.disabled.getD false = false ∧
            user.toUserView = safeView row)) := by
  cases hdecode : decodeJwt s.jwt w.now cookie with
  | none =>
    rw [Server.session, hdecode] at h
    cases h
  | some claims =>
    simp only [Server.session, hdecode, Option.map_some, requireUser, claimsOf] at h
    split_ifs at h with hrefused hguest
    · cases h
    · obtain rfl := Except.ok.inj h
      refine ⟨claims, rfl, ?_, .inl ⟨hguest, rfl, rfl⟩⟩
      simpa using fun hws => hrefused (.inr hws)
    · -- The account of the claim is looked up.
      have hws : (claims.get "ws").truthy = false := by simpa using fun hws => hrefused (.inr hws)
      cases hsub : claims.get "sub" with
      | str username =>
        have hne : username ≠ "" := fun heq => hrefused (.inl (by simp [hsub, heq]))
        simp only [hsub, Option.getD_some, Users.get, if_neg hne, getRaw, Async.Prog.bind_eq,
          Async.Prog.bind_await, Async.Prog.pure_eq, Async.Prog.bind_done, runAlone_getItem] at h
        cases hrow : w.users.get? username with
        | none =>
          rw [hrow] at h
          cases h
        | some row =>
          simp only [hrow, Option.map_some] at h
          split_ifs at h with hdisabled
          · cases h
          obtain rfl := Except.ok.inj h
          have hkey : row.username = username := (Table.get?_eq_some_iff.mp hrow).2
          refine ⟨claims, rfl, hws, .inr ⟨by simpa using hguest, rfl, ?_, row, ?_, ?_, rfl⟩⟩
          · exact hsub.trans (congrArg PyVal.str hkey.symm)
          · exact (congrArg w.users.get? hkey).trans hrow
          · simpa [safeView] using hdisabled
      | _ => exact absurd (.inl (by simp [hsub])) hrefused

/-- An admin session is a session of an administrator. -/
theorem adminSession_eq_ok_iff {cookie : String} {user : SessionUser} :
    s.adminSession w cookie = .ok user ↔ s.session w cookie = .ok user ∧ user.role = "admin" := by
  rw [Server.adminSession, ← fst_execAlone, requireAdmin, Async.Prog.bind_eq, execAlone_bind,
    Server.session, ← fst_execAlone]
  generalize execAlone (requireUser ((decodeJwt s.jwt w.now cookie).map claimsOf)) () w.users = r
  obtain ⟨result, memory, table⟩ := r
  cases result with
  | error e => simp
  | ok user' =>
    simp only [Async.Prog.throw_eq, Async.Prog.bind_eq, Async.Prog.pure_eq, Except.ok.injEq]
    split_ifs with hrole
    · simp only [Async.Prog.bind_raise, execAlone_raise, reduceCtorEq, false_iff]
      rintro ⟨rfl, hadmin⟩
      exact hrole hadmin
    · simp only [execAlone_done, Except.ok.injEq]
      refine ⟨?_, And.left⟩
      rintro rfl
      exact ⟨rfl, not_not.mp hrole⟩

end Minted

/-! ### A run -/

section Sample

/-- Scenarios and voices to check a link against. -/
def sampleCatalog : Catalog where
  voices := { tools := [], voicesFor := fun provider => if provider = "polly" then ["Zhiyu"] else [] }
  scenarios := ["shop"]

/-- A link of 65 minutes that names a scenario and all of the launch. -/
def sampleLink : GuestLinkBody where
  ttlMinutes := some (.int 65)
  scenario := some "shop"
  launch :=
    { lang := some "zh-HK", engine := some "pipeline", voice := some "Zhiyu", provider := some "polly" }

/-- The payloads of the run below: a session, a guest link of 65 minutes and a ws-token. -/
def loginPayload : PyDict := payloadOf "root" "admin" 0 43200 []

@[inherit_doc loginPayload] def linkPayload : PyDict :=
  payloadOf "guest" "guest" 0 (guestSeconds 65) (guestExtra sampleLink.scenario sampleLink.launch)

@[inherit_doc loginPayload] def socketPayload : PyDict := payloadOf "root" "admin" 0 60 [("ws", .bool true)]

/-- A library that signs the three payloads. -/
def sampleJwt : PyJwt where
  encode payload :=
    if (payload.get "ws").truthy then "socket"
    else if (payload.get "guest").truthy then "link" else "login"
  verified token :=
    if token = "login" then some loginPayload
    else if token = "link" then some linkPayload
    else if token = "socket" then some socketPayload
    else none

/-- A server with the library, whose sessions live half a day. -/
def sampleServer : Server := { jwt := some sampleJwt, bcrypt := sampleBcrypt, authTtlHours := 12 }

/-- One administrator, and no token. -/
def sampleStart : World stringSlot where
  now := 0
  users := Table.put ∅
    { username := "root", passwordHash := some "s:pw", role := some "admin", createdAt := some 0
      disabled := some false }
  issued := []

/-- The administrator logs in, mints a guest link and asks for a ws-token, and half a minute passes. -/
def sampleEvents : List (Event stringSlot) :=
  [.login [("username", .str "root"), ("password", .str "pw")],
    .guestLink "login" sampleCatalog sampleLink, .wsToken "login", .wait 30]

theorem sample_issued :
    (exec sampleServer.step sampleStart sampleEvents).issued =
      [loginPayload, linkPayload, socketPayload] := by
  decide +kernel

/-- What the library verifies is one of the three payloads. -/
theorem unforged_of_mem {w : World stringSlot} {token : String} {payloads : List PyDict}
    (h : ∀ claims ∈ sampleJwt.verified token, claims ∈ payloads) (hissued : payloads ⊆ w.issued) :
    Unforged sampleServer w token := by
  intro jwt hjwt claims hclaims
  obtain rfl : sampleJwt = jwt := Option.some.inj hjwt
  exact hissued (h claims hclaims)

theorem sample_presents : Guarded sampleServer.step (Presents sampleServer) sampleStart sampleEvents := by
  have hlogin : ∀ w : World stringSlot, loginPayload ∈ w.issued → Unforged sampleServer w "login" := by
    intro w hw
    have hverified : ∀ claims ∈ sampleJwt.verified "login", claims ∈ [loginPayload] := by
      rintro claims ⟨⟩
      exact List.mem_singleton_self _
    exact unforged_of_mem hverified (by simpa using hw)
  exact ⟨trivial, hlogin _ (by decide +kernel), hlogin _ (by decide +kernel), trivial, trivial⟩

theorem sample_unforged (token : String) (h : token ∈ ["login", "link", "socket"]) :
    Unforged sampleServer (exec sampleServer.step sampleStart sampleEvents) token := by
  have hissued : [loginPayload, linkPayload, socketPayload] ⊆
      (exec sampleServer.step sampleStart sampleEvents).issued := by
    rw [sample_issued]
    exact List.Subset.refl _
  refine unforged_of_mem ?_ hissued
  simp only [List.mem_cons, List.not_mem_nil, or_false] at h
  rcases h with rfl | rfl | rfl
  · rintro claims ⟨⟩
    exact List.mem_cons_self
  · rintro claims ⟨⟩
    exact List.mem_cons_of_mem _ List.mem_cons_self
  · rintro claims ⟨⟩
    exact List.mem_cons_of_mem _ (List.mem_cons_of_mem _ List.mem_cons_self)

/-- A session whose user has the name and the scenario that are read off it. -/
theorem exists_of_toOption {x : Except Exc SessionUser} {username : String} {scenario : Option PyVal}
    (h : x.toOption.map (fun user => (user.username, user.scenario)) = some (username, scenario)) :
    ∃ user, x = .ok user ∧ user.username = username ∧ user.scenario = scenario := by
  obtain ⟨user, huser, hread⟩ := Option.map_eq_some_iff.mp h
  obtain ⟨rfl, rfl⟩ := Prod.mk.inj hread
  exact ⟨user, toOption_eq_some_iff.mp huser, rfl, rfl⟩

end Sample

/-! ### Runs -/

section Runs

variable {s : Server} {w : World slot} {es : List (Event slot)}

/-- The run has logged the account in, less than the lifetime of a session ago. -/
def LoggedInBefore (s : Server) (w : World slot) (es : List (Event slot)) (username : String) :
    Prop :=
  ∃ pre e post, es = pre ++ e :: post ∧ PasswordLogin s (exec s.step w pre) username e ∧
    (exec s.step w es).now < ⌊(exec s.step w pre).now⌋ + s.authTtlHours * 3600

/-- What is signed at the end of a run has been minted by one of its events. -/
theorem exists_minted {payload : PyDict} (hw : w.issued = [])
    (h : payload ∈ (exec s.step w es).issued) :
    ∃ pre e post, es = pre ++ e :: post ∧ s.minted (exec s.step w pre) e = some payload := by
  have hlog (w : World slot) (e : Event slot) :
      (s.step w e).issued = w.issued ++ (s.minted w e).toList := rfl
  refine ((mem_log_exec hlog).mp h).resolve_left ?_
  rw [hw]
  exact List.not_mem_nil

/-- The session of an account comes from a login of that account. -/
theorem loggedInBefore_of_session (hw : w.issued = []) {cookie : String} {user : SessionUser}
    (hcookie : Unforged s (exec s.step w es) cookie)
    (h : s.session (exec s.step w es) cookie = .ok user) (hscenario : user.scenario = none) :
    LoggedInBefore s w es user.username := by
  obtain ⟨claims, hdecode, hws, ⟨-, -, hguest⟩ | ⟨hguest, -, hsub, -⟩⟩ := session_cases h
  · simp [hguest] at hscenario
  obtain ⟨hissued, hexpired⟩ := decodeJwt_eq_some hcookie hdecode
  obtain ⟨pre, e, post, hes, hminted⟩ := exists_minted hw hissued
  rcases minted_cases hminted with ⟨view, hview, rfl⟩ | ⟨_, _, _, _, _, _, _, -, -, -, rfl⟩ |
    ⟨_, _, -, -, rfl⟩
  · -- The token of a login: its claims are the account and the expiry.
    have hname : view.username = user.username := PyVal.str.inj hsub
    refine ⟨pre, e, post, hes, hname ▸ passwordLogin_of_loggedIn hview, ?_⟩
    have hlt : _ < ((⌊(exec s.step w pre).now⌋ + s.authTtlHours * 3600 : ℤ) : ℚ) :=
      lt_of_not_isExpired rfl hexpired
    push_cast at hlt
    exact hlt
  · rw [get_guestPayload_guest] at hguest
    cases hguest
  · cases hws

/-- An admin request comes from a password login of the same account, less than the lifetime of a
session ago; and when it is made the account is there, enabled, and an administrator's. -/
theorem adminSession_provenance (hw : w.issued = []) {cookie : String} {user : SessionUser}
    (hcookie : Unforged s (exec s.step w es) cookie)
    (h : s.adminSession (exec s.step w es) cookie = .ok user) :
    LoggedInBefore s w es user.username ∧
      ∃ row, (exec s.step w es).users.get? user.username = some row ∧ row.role = some "admin" ∧
        row.disabled.getD false = false := by
  obtain ⟨hsession, hrole⟩ := adminSession_eq_ok_iff.mp h
  obtain ⟨claims, -, -, ⟨-, hguest, -⟩ | ⟨-, hscenario, -, row, hrow, hdisabled, hview⟩⟩ :=
    session_cases hsession
  · exact absurd (hguest.symm.trans hrole) (by decide)
  · refine ⟨loggedInBefore_of_session hw hcookie hsession hscenario, row, hrow, ?_, hdisabled⟩
    have hadmin : (safeView row).role = "admin" := hview ▸ hrole
    by_cases hempty : row.role.getD "" = ""
    · exact absurd ((if_pos hempty).symm.trans hadmin) (by decide)
    · have hstored : row.role.getD "" = "admin" := (if_neg hempty).symm.trans hadmin
      cases hrole' : row.role with
      | none => simp [hrole'] at hempty
      | some role => simpa [hrole'] using hstored

/-- The administrator of the sample run. -/
theorem adminSession_provenance_root :
    LoggedInBefore sampleServer sampleStart sampleEvents "root" := by
  have hread : (sampleServer.adminSession (exec sampleServer.step sampleStart sampleEvents)
      "login").toOption.map (fun user => (user.username, user.scenario)) = some ("root", none) := by
    decide +kernel
  obtain ⟨user, huser, hname, -⟩ := exists_of_toOption hread
  rw [← hname]
  exact (adminSession_provenance rfl (sample_unforged "login" (by simp)) huser).1

/-- The minutes of a link that passes its checks. -/
theorem guestTtl_bounds {catalog : Catalog} {body : GuestLinkBody} {ttl : ℤ} {link : Option String}
    {launch : Launch.LaunchConfig} (h : checkedGuestLink catalog body = some (ttl, link, launch)) :
    1 ≤ ttl ∧ ttl ≤ guestTtlMaxMin := by
  simp only [checkedGuestLink] at h
  cases hgiven : guestTtl body with
  | none => simp [hgiven] at h
  | some ttl' =>
    simp only [hgiven] at h
    split_ifs at h
    split at h
    · obtain ⟨rfl, -⟩ := Prod.mk.inj (Option.some.inj h)
      simp only [guestTtl] at hgiven
      split at hgiven
      · split_ifs at hgiven with hbounds
        obtain rfl := Option.some.inj hgiven
        exact hbounds
      · cases hgiven
    · cases h

/-- A guest session is not an administrator's. It comes from a link that an administrator minted, who
had logged in with a password; it has the scenario of the link, and ends with the minutes of the link,
of which there are at most those of a day. -/
theorem guestSession_provenance (hw : w.issued = []) (hes : Guarded s.step (Presents s) w es)
    {cookie : String} {user : SessionUser} (hcookie : Unforged s (exec s.step w es) cookie)
    (h : s.session (exec s.step w es) cookie = .ok user) {scenario : PyVal}
    (hscenario : user.scenario = some scenario) :
    (∀ admin, s.adminSession (exec s.step w es) cookie ≠ .ok admin) ∧
      ∃ pre cookie' catalog body post admin ttl link launch,
        es = pre ++ .guestLink cookie' catalog body :: post ∧
        s.adminSession (exec s.step w pre) cookie' = .ok admin ∧
        LoggedInBefore s w pre admin.username ∧
        checkedGuestLink catalog body = some (ttl, link, launch) ∧
        scenario = ((link.filter (· ≠ "")).map PyVal.str).getD .none ∧
        (exec s.step w es).now < ⌊(exec s.step w pre).now⌋ + 60 * ttl ∧ ttl ≤ guestTtlMaxMin := by
  obtain ⟨claims, hdecode, -, ⟨hguest, hrole, hclaim⟩ | ⟨-, hnone, -⟩⟩ := session_cases h
  · refine ⟨?_, ?_⟩
    · intro admin hadmin
      obtain ⟨hsession, hadminRole⟩ := adminSession_eq_ok_iff.mp hadmin
      obtain rfl := Except.ok.inj (h.symm.trans hsession)
      exact absurd (hrole.symm.trans hadminRole) (by decide)
    obtain ⟨hissued, hexpired⟩ := decodeJwt_eq_some hcookie hdecode
    obtain ⟨pre, e, post, rfl, hminted⟩ := exists_minted hw hissued
    rcases minted_cases hminted with ⟨_, _, rfl⟩ |
      ⟨cookie', catalog, body, admin, ttl, link, launch, rfl, hadmin, hchecked, rfl⟩ | ⟨_, _, -, -, rfl⟩
    · cases hguest
    · obtain ⟨hpos, hmax⟩ := guestTtl_bounds hchecked
      refine ⟨pre, cookie', catalog, body, post, admin, ttl, link, launch, rfl, hadmin, ?_, hchecked,
        ?_, ?_, hmax⟩
      · -- The administrator's cookie is unforged as well.
        have hpresents := guarded_iff_split.mp hes pre _ post rfl
        exact (adminSession_provenance hw hpresents hadmin).1
      · rw [hscenario, get_guestPayload_scenario] at hclaim
        exact Option.some.inj hclaim
      · have hexp : PyDict.get (payloadOf "guest" "guest" (exec s.step w pre).now (guestSeconds ttl)
            (guestExtra link launch)) "exp" =
              .int (⌊(exec s.step w pre).now⌋ + guestSeconds ttl) :=
          get_guestPayload (by decide)
        have hlt := lt_of_not_isExpired hexp hexpired
        have hle := guestSeconds_le hpos (hmax.trans (by decide))
        have hle' : ((guestSeconds ttl : ℤ) : ℚ) ≤ 60 * ttl := by exact_mod_cast hle
        push_cast at hlt
        linarith
    · cases hguest
  · rw [hnone] at hscenario
    cases hscenario

/-- The guest of the sample run. -/
theorem guestSession_provenance_link :
    ¬ ∃ admin, sampleServer.adminSession (exec sampleServer.step sampleStart sampleEvents) "link" =
      .ok admin := by
  have hread : (sampleServer.session (exec sampleServer.step sampleStart sampleEvents)
      "link").toOption.map (fun user => (user.username, user.scenario)) =
        some ("guest", some (.str "shop")) := by
    decide +kernel
  obtain ⟨user, huser, -, hscenario⟩ := exists_of_toOption hread
  rintro ⟨admin, hadmin⟩
  exact (guestSession_provenance rfl sample_presents (sample_unforged "link" (by simp)) huser
    hscenario).1 admin hadmin

/-- The claims of a link are enough for a session. -/
theorem session_of_guestPayload {token : String} {now : ℚ} {ttl : ℤ} {link : Option String}
    {launch : Launch.LaunchConfig}
    (hdecode : decodeJwt s.jwt w.now token =
      some (payloadOf "guest" "guest" now ttl (guestExtra link launch))) :
    ∃ user, s.session w token = .ok user ∧ user.username = "guest" ∧
      user.scenario =
        some (PyDict.get (payloadOf "guest" "guest" now ttl (guestExtra link launch)) "scenario") := by
  set claims := payloadOf "guest" "guest" now ttl (guestExtra link launch)
  have hsub : claims.get "sub" = .str "guest" := get_guestPayload (by decide)
  have hws : claims.get "ws" = .none := get_guestPayload (by decide)
  have hguest : claims.get "guest" = .bool true := get_guestPayload_guest
  rw [Server.session, hdecode]
  simp only [Option.map_some, requireUser, claimsOf, hsub, hws, hguest]
  exact ⟨_, rfl, rfl, rfl⟩

/-- What a guest login answers to a token without blanks around it. -/
theorem authGuestLogin_eq {payload : PyDict} {token : String} (hgiven : payload.get "token" = .str token)
    (hstrip : PyText.strip token = token) (jwt : Option PyJwt) (now : ℚ) :
    authGuestLogin jwt now payload =
      match decodeJwt jwt now token with
      | none => .error (.http 401 (.text "invalid or expired guest link"))
      | some claims =>
        if (claims.get "guest").truthy then .ok (.str token, claims)
        else .error (.http 401 (.text "invalid or expired guest link")) := by
  have hfield : strippedField payload "token" = .ok token := by
    by_cases hempty : token = ""
    · rw [strippedField, hgiven, hempty]
      rfl
    · simp [strippedField, hgiven, PyVal.orElse, PyVal.truthy, hempty, hstrip]
  rw [authGuestLogin, hfield, hgiven]
  rfl

/-- The guest of the sample run logs in. -/
theorem sample_authGuestLogin :
    authGuestLogin sampleServer.jwt (exec sampleServer.step sampleStart sampleEvents).now
      [("token", .str "link")] = .ok (.str "link", linkPayload) := by
  have hdecode : decodeJwt sampleServer.jwt (exec sampleServer.step sampleStart sampleEvents).now "link" =
      some linkPayload := by decide +kernel
  rw [authGuestLogin_eq rfl (by decide +kernel), hdecode]
  rfl

/-- A guest login accepts the tokens that open a guest session, no others, and it answers with the
scenario of the session. -/
theorem authGuestLogin_session (hw : w.issued = []) {payload : PyDict} {token : String}
    (hgiven : payload.get "token" = .str token) (hstrip : PyText.strip token = token)
    (htoken : Unforged s (exec s.step w es) token) (scenario : PyVal) :
    (∃ claims, authGuestLogin s.jwt (exec s.step w es).now payload = .ok (.str token, claims) ∧
        claims.get "scenario" = scenario) ↔
      ∃ user, s.session (exec s.step w es) token = .ok user ∧ user.username = "guest" ∧
        user.scenario = some scenario := by
  rw [authGuestLogin_eq hgiven hstrip]
  constructor
  · rintro ⟨claims, hok, rfl⟩
    cases hdecode : decodeJwt s.jwt (exec s.step w es).now token with
    | none => simp [hdecode] at hok
    | some claims' =>
      simp only [hdecode] at hok
      split_ifs at hok with hguest
      obtain rfl : claims' = claims := (Prod.mk.inj (Except.ok.inj hok)).2
      -- Of the payloads that are signed only a link's are a guest's.
      obtain ⟨pre, e, post, -, hminted⟩ := exists_minted hw (decodeJwt_eq_some htoken hdecode).1
      rcases minted_cases hminted with ⟨_, _, rfl⟩ | ⟨_, _, _, _, _, _, _, -, -, -, rfl⟩ |
        ⟨_, _, -, -, rfl⟩
      · cases hguest
      · exact session_of_guestPayload hdecode
      · cases hguest
  · rintro ⟨user, hsession, -, hscenario⟩
    obtain ⟨claims, hdecode, -, ⟨hguest, -, hclaim⟩ | ⟨-, hnone, -⟩⟩ := session_cases hsession
    · refine ⟨claims, ?_, Option.some.inj (hclaim.symm.trans hscenario)⟩
      rw [hdecode]
      exact if_pos hguest
    · exact absurd (hnone.symm.trans hscenario) (Option.some_ne_none _).symm

/-- The guest of the sample run. -/
theorem authGuestLogin_session_link :
    ∃ user, sampleServer.session (exec sampleServer.step sampleStart sampleEvents) "link" = .ok user ∧
      user.username = "guest" ∧ user.scenario = some (.str "shop") :=
  (authGuestLogin_session rfl rfl (by decide +kernel) (sample_unforged "link" (by simp))
    (.str "shop")).mp ⟨linkPayload, sample_authGuestLogin, rfl⟩

/-- The claims of a ws-token are those that one of the events has signed for its session. -/
theorem exists_wsToken (hw : w.issued = []) {token : String} {claims : PyDict}
    (htoken : Unforged s (exec s.step w es) token)
    (h : wsTokenClaims s.jwt (exec s.step w es).now token = some claims) :
    ∃ pre cookie post user, es = pre ++ .wsToken cookie :: post ∧
      s.session (exec s.step w pre) cookie = .ok user ∧
      claims = payloadOf user.username user.role (exec s.step w pre).now 60 [("ws", .bool true)] ∧
      (exec s.step w es).now < ⌊(exec s.step w pre).now⌋ + 60 := by
  simp only [wsTokenClaims] at h
  cases hdecode : decodeJwt s.jwt (exec s.step w es).now token with
  | none => simp [hdecode] at h
  | some claims' =>
    simp only [hdecode] at h
    split_ifs at h with hws
    obtain rfl := Option.some.inj h
    obtain ⟨hissued, hexpired⟩ := decodeJwt_eq_some htoken hdecode
    obtain ⟨pre, e, post, rfl, hminted⟩ := exists_minted hw hissued
    -- Neither a login nor a guest link has the claim.
    rcases minted_cases hminted with ⟨_, _, rfl⟩ | ⟨_, _, _, _, _, _, _, -, -, -, rfl⟩ |
      ⟨cookie, user, rfl, hsession, rfl⟩
    · cases hws
    · rw [get_guestPayload (by decide)] at hws
      cases hws
    · refine ⟨pre, cookie, post, user, rfl, hsession, rfl, ?_⟩
      have hlt : _ < ((⌊(exec s.step w pre).now⌋ + 60 : ℤ) : ℚ) := lt_of_not_isExpired rfl hexpired
      push_cast at hlt
      exact hlt

/-- A socket that a ws-token opens was asked for less than a minute ago, by a session of the user that
the call is attributed to. -/
theorem wsToken_provenance (hw : w.issued = []) {token username : String}
    (htoken : Unforged s (exec s.step w es) token)
    (h : wsTokenUsername s.jwt (exec s.step w es).now token = some username) :
    ∃ pre cookie post user, es = pre ++ .wsToken cookie :: post ∧
      s.session (exec s.step w pre) cookie = .ok user ∧ user.username = username ∧
      (exec s.step w es).now < ⌊(exec s.step w pre).now⌋ + 60 := by
  simp only [wsTokenUsername] at h
  cases hclaims : wsTokenClaims s.jwt (exec s.step w es).now token with
  | none => simp [hclaims] at h
  | some claims =>
    obtain ⟨pre, cookie, post, user, rfl, hsession, rfl, hlt⟩ := exists_wsToken hw htoken hclaims
    refine ⟨pre, cookie, post, user, rfl, hsession, ?_, hlt⟩
    rw [hclaims, Option.map_some] at h
    change (if user.username = "" then none else some user.username) = some username at h
    split_ifs at h
    exact Option.some.inj h

/-- The socket of the sample run. -/
theorem wsToken_provenance_socket :
    ∃ pre cookie post user, sampleEvents = pre ++ .wsToken cookie :: post ∧
      sampleServer.session (exec sampleServer.step sampleStart pre) cookie = .ok user ∧
      user.username = "root" ∧
      (exec sampleServer.step sampleStart sampleEvents).now <
        ⌊(exec sampleServer.step sampleStart pre).now⌋ + 60 :=
  wsToken_provenance rfl (sample_unforged "socket" (by simp)) (by decide +kernel)

/-- The monitor of a call is opened with the token of an administrator who asked for it less than a
minute ago, and had logged in with a password. The account need not be an administrator's any more. -/
theorem monitor_provenance (hw : w.issued = []) (hes : Guarded s.step (Presents s) w es)
    {token : String} {claims : PyDict} (htoken : Unforged s (exec s.step w es) token)
    (h : monitorClaims s.jwt (exec s.step w es).now token = some claims) :
    ∃ pre cookie post user, es = pre ++ .wsToken cookie :: post ∧
      s.adminSession (exec s.step w pre) cookie = .ok user ∧ claims.get "sub" = .str user.username ∧
      LoggedInBefore s w pre user.username ∧
      (exec s.step w es).now < ⌊(exec s.step w pre).now⌋ + 60 := by
  simp only [monitorClaims] at h
  cases hclaims : wsTokenClaims s.jwt (exec s.step w es).now token with
  | none => simp [hclaims] at h
  | some claims' =>
    obtain ⟨pre, cookie, post, user, rfl, hsession, rfl, hlt⟩ := exists_wsToken hw htoken hclaims
    rw [hclaims] at h
    change (if (if user.role = "" then "user" else user.role) = "admin" then _ else none) = _ at h
    split_ifs at h with hempty hrole hrole
    · exact absurd hrole (by decide)
    · obtain rfl := Option.some.inj h
      have hadmin : s.adminSession (exec s.step w pre) cookie = .ok user :=
        adminSession_eq_ok_iff.mpr ⟨hsession, hrole⟩
      have hpresents := guarded_iff_split.mp hes pre _ post rfl
      exact ⟨pre, cookie, post, user, rfl, hadmin, rfl,
        (adminSession_provenance hw hpresents hadmin).1, hlt⟩

/-- The monitor that the administrator of the sample run can open. -/
theorem monitor_provenance_socket :
    ∃ pre cookie post user, sampleEvents = pre ++ .wsToken cookie :: post ∧
      sampleServer.adminSession (exec sampleServer.step sampleStart pre) cookie = .ok user ∧
      socketPayload.get "sub" = .str user.username ∧
      LoggedInBefore sampleServer sampleStart pre user.username ∧
      (exec sampleServer.step sampleStart sampleEvents).now <
        ⌊(exec sampleServer.step sampleStart pre).now⌋ + 60 :=
  monitor_provenance rfl sample_presents (sample_unforged "socket" (by simp)) (by decide +kernel)

end Runs

/-- A guest link opens sessions from the time it is minted up to a time that is not behind the expiry
that its administrator is shown, and at most a second before it if the clock does not move while the
link is minted. The accounts have no part in it. -/
theorem guestLink_lifetime {s : Server} {jwt : PyJwt} (hjwt : s.jwt = some jwt) {ttl : ℤ} (hpos : 1 ≤ ttl)
    (hmax : ttl ≤ guestTtlMaxMin) {link : Option String} {launch : Launch.LaunchConfig} {now now' : ℚ}
    (hclock : now ≤ now') {token : String} {payload : PyDict} {shown : ℤ}
    (hissued : issueGuestToken s.jwt ttl link launch now now' = .ok (token, payload, shown))
    (hverified : jwt.verified token = some payload) (hne : token ≠ "") :
    ∃ exp : ℤ, (∀ w : World slot, (∃ user, s.session w token = .ok user) ↔ w.now < exp) ∧
      exp ≤ shown ∧ shown ≤ exp + 1 + (⌊now'⌋ - ⌊now⌋) := by
  simp only [issueGuestToken, hjwt, issueJwt, bind, Except.bind, pure, Except.pure, Except.ok.injEq,
    Prod.mk.injEq] at hissued
  obtain ⟨-, rfl, rfl⟩ := hissued
  have hle := guestSeconds_le hpos (hmax.trans (by decide))
  have hge := le_guestSeconds hpos (hmax.trans (by decide))
  have hfloor : ⌊now⌋ ≤ ⌊now'⌋ := Int.floor_le_floor hclock
  refine ⟨⌊now⌋ + guestSeconds ttl, fun w => ?_, by omega, by omega⟩
  set claims := payloadOf "guest" "guest" now (guestSeconds ttl) (guestExtra link launch) with hclaims
  have hexp : claims.get "exp" = .int (⌊now⌋ + guestSeconds ttl) := get_guestPayload (by decide)
  have hdecode : decodeJwt s.jwt w.now token =
      if isExpired claims w.now then none else some claims := by
    simp only [decodeJwt, hjwt, if_neg hne, hverified]
  have hexpired : isExpired claims w.now = decide (((⌊now⌋ + guestSeconds ttl : ℤ) : ℚ) ≤ w.now) := by
    simp only [isExpired, hexp]
  rw [hexpired] at hdecode
  by_cases hlt : w.now < ((⌊now⌋ + guestSeconds ttl : ℤ) : ℚ)
  · -- The claims alone make a session, so that no account can be in the way.
    rw [if_neg (by simpa using hlt), hclaims] at hdecode
    obtain ⟨user, huser, -⟩ := session_of_guestPayload hdecode
    exact ⟨fun _ => hlt, fun _ => ⟨user, huser⟩⟩
  · rw [if_pos (by simpa using hlt)] at hdecode
    refine ⟨?_, fun h => absurd h hlt⟩
    rintro ⟨user, huser⟩
    rw [Server.session, hdecode] at huser
    cases huser

/-- The link of the sample run. -/
theorem guestLink_lifetime_link :
    ∃ exp : ℤ, (∀ w : World stringSlot, (∃ user, sampleServer.session w "link" = .ok user) ↔ w.now < exp) ∧
      exp ≤ 3900 ∧ 3900 ≤ exp + 1 + (⌊(0 : ℚ)⌋ - ⌊(0 : ℚ)⌋) :=
  guestLink_lifetime rfl (show (1 : ℤ) ≤ 65 by decide) (by decide) le_rfl
    (show issueGuestToken (some sampleJwt) 65 sampleLink.scenario sampleLink.launch 0 0 =
      .ok ("link", linkPayload, 3900) from rfl) rfl
    (by decide)

end Tokens
