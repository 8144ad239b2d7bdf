import VoiceAgentPlatform.Users.Auth

/-!
# First-run setup

`auth_setup` checks that the whole table is empty and then puts a row under the condition that its
own key is free. Two requests with different user names both pass the check, and both puts take
effect. A request can also fail after its put has taken effect, when the session token cannot be
issued.

* `OneAdministrator`: at most one account exists, and it is that of the request that succeeds.
* `CreatesByPut`: the shape of the program `auth_setup`.
* `oneAdministrator_iff`: a run from an empty table keeps `OneAdministrator` exactly when every put
  that takes effect finds no account of another name, and its token can be issued.
-/

namespace Users

open Async KeyedTable

variable {slot : String ↪ ℕ}

/-- The pool of setup requests. -/
abbrev SetupPool (slot : String ↪ ℕ) :=
  Pool (service (userSchema slot)) SetupRequest Unit Exc UserView

/-- Where a setup request stands. -/
abbrev SetupStage (slot : String ↪ ℕ) := Stage (service (userSchema slot)) Unit Exc UserView

/-- The put of the request has taken effect, and the request has not failed since. -/
def madeAccount : SetupStage slot → Bool
  | .applied (Op.putIfAbsent _) (.ok _) _ => true
  | .finished (.ok _) => true
  | _ => false

/-- At most one account exists; it belongs to a request whose put has taken effect and which has
succeeded or still runs, so that failed requests leave none behind. -/
structure OneAdministrator (s : SetupPool slot) : Prop where
  accounts : s.store.items.length = s.tasks.countP fun task => madeAccount task.stage
  atMostOne : s.store.items.length ≤ 1
  /-- Whoever succeeds is told of their account. -/
  told : ∀ task ∈ s.tasks, ∀ view, task.stage = .finished (.ok view) →
    ∃ row ∈ s.store, safeView row = view ∧ row.role = some "admin"

/-- A put that takes effect finds no account, or the account it replaces; the token of a request
whose put took effect can be issued. -/
def SetupAlone (libs : AuthLibs) (s : SetupPool slot)
    (e : Event (service (userSchema slot)) SetupRequest) : Prop :=
  (∀ request row flight, s.Performs e request (.putIfAbsent row) flight .ok →
    ∀ other ∈ s.store, other.username = row.username) ∧
  ∀ i request row k, e = .resume i →
    s.tasks[i]? = some { request, stage := .applied (Op.putIfAbsent row) (.ok ()) k } →
    libs.jwt = true

/-- A program that reads and then, at most once, puts a row; it succeeds only through the put. -/
def CreatesByPut (libs : AuthLibs) : UserProg slot UserView → Prop
  | .done _ => False
  | .raise _ => True
  | .read k => ∀ m, CreatesByPut libs (k m)
  | .write _ k => CreatesByPut libs k
  | .await (Op.getItem _) k => ∀ reply, CreatesByPut libs (k reply)
  | .await Op.scan k => ∀ reply, CreatesByPut libs (k reply)
  | .await (Op.putIfAbsent row) k => row.role = some "admin" ∧
      (∃ e, k (.ok ()) = if libs.jwt then .done (safeView row) else .raise e) ∧
      ∀ f, ∃ e, k (.error f) = .raise e
  | .await _ _ => False

section CreatesByPut

variable {libs : AuthLibs}

@[simp] theorem createsByPut_raise (e : Exc) :
    CreatesByPut libs (.raise e : UserProg slot UserView) := trivial

@[simp] theorem createsByPut_getItem (username : String)
    (k : Except Fault (Option UserRow) → UserProg slot UserView) :
    CreatesByPut libs (.await (Op.getItem username : Op String UserRow UserUpdate) k) ↔
      ∀ reply, CreatesByPut libs (k reply) := Iff.rfl

@[simp] theorem createsByPut_scan (k : Except Fault (List UserRow) → UserProg slot UserView) :
    CreatesByPut libs (.await (Op.scan : Op String UserRow UserUpdate) k) ↔
      ∀ reply, CreatesByPut libs (k reply) := Iff.rfl

@[simp] theorem createsByPut_putIfAbsent (row : UserRow)
    (k : Except Fault Unit → UserProg slot UserView) :
    CreatesByPut libs (.await (Op.putIfAbsent row : Op String UserRow UserUpdate) k) ↔
      row.role = some "admin" ∧
      (∃ e, k (.ok ()) = if libs.jwt then .done (safeView row) else .raise e) ∧
      ∀ f, ∃ e, k (.error f) = .raise e := Iff.rfl

/-- A program of the shape that awaits an operation reads or puts. -/
theorem CreatesByPut.op_cases {op : Op String UserRow UserUpdate}
    {k : Except Fault op.Reply → UserProg slot UserView} (h : CreatesByPut libs (.await op k)) :
    (∃ username, op = .getItem username) ∨ op = .scan ∨ ∃ row, op = .putIfAbsent row := by
  cases op with
  | getItem username => exact Or.inl ⟨username, rfl⟩
  | scan => exact Or.inr (Or.inl rfl)
  | putIfAbsent row => exact Or.inr (Or.inr ⟨row, rfl⟩)
  | putItem row => exact h.elim
  | updateItem username u => exact h.elim
  | deleteItem username => exact h.elim

/-- The operation changes nothing. -/
def IsRead (op : Op String UserRow UserUpdate) : Prop :=
  (∃ username, op = .getItem username) ∨ op = .scan

variable {β : Type}

/-- Reading first does not change the shape. -/
theorem createsByPut_bind {p : UserProg slot β} {f : β → UserProg slot UserView} {T : β → Prop}
    (hp : p.Yields (fun _ _ => True) IsRead T) (hf : ∀ b, T b → CreatesByPut libs (f b)) :
    CreatesByPut libs (p.bind f) := by
  have hmeets := hp.meets
  clear hp
  induction p with
  | done b => exact hf b (hmeets b rfl)
  | raise e => trivial
  | read k ih => exact fun m => ih m (hmeets m)
  | write m k ih => exact ih hmeets
  | await op k ih =>
    obtain ⟨hop, hk⟩ := hmeets
    rcases hop with ⟨username, rfl⟩ | rfl
    · exact fun reply => ih reply (hk reply trivial)
    · exact fun reply => ih reply (hk reply trivial)

-- The shape of a program is shown by the rules above; unfolding would run the program instead.
attribute [irreducible] CreatesByPut

theorem reads_needsSetup :
    (needsSetup : UserProg slot _).Yields (fun _ _ => True) IsRead fun _ => True := by
  refine Prog.Yields.bind (T := fun _ => True) ?_ fun _ _ => Prog.yields_done trivial
  refine Prog.yields_await (Or.inr rfl) fun reply _ => ?_
  cases reply with
  | ok items => exact Prog.yields_done trivial
  | error f =>
    dsimp only
    split
    · exact Prog.yields_done trivial
    · exact Prog.yields_raise _

/-- The put and what follows it. -/
theorem createsByPut_putNew (username : String) (password : PyVal) (salt : String) (now : ℤ) :
    CreatesByPut libs (((putNew libs.bcrypt username password "admin" salt now :
      UserProg slot UserView).tryCatch fun e => .raise (setupError e)).bind fun user =>
        (Prog.ofExcept (issueJwt libs)).bind fun _ => Prog.done user) := by
  unfold putNew
  cases hashPassword libs.bcrypt password salt with
  | error e => exact createsByPut_raise _
  | ok h =>
    refine (createsByPut_putIfAbsent _ _).mpr ⟨rfl, ?_, fun f => ?_⟩
    · refine ⟨.http 503 (.text "auth unavailable (PyJWT missing)"), ?_⟩
      cases hjwt : libs.jwt <;> simp [issueJwt, hjwt]
    · cases f <;> exact ⟨_, rfl⟩

theorem createsByPut_createFirst (username : String) (password : PyVal) (salt : String) (now : ℤ) :
    CreatesByPut libs (createFirst libs username password salt now : UserProg slot UserView) := by
  have hrole : validRole? (.str "admin") = some "admin" := by decide
  unfold createFirst create getRaw
  simp only [hrole, Prog.bind_eq, Prog.throw_eq, Prog.pure_eq]
  split
  · exact createsByPut_raise _
  · split
    · exact createsByPut_raise _
    · refine (createsByPut_getItem _ _).mpr fun reply => ?_
      rcases reply with f | row
      · exact createsByPut_putNew _ _ _ _
      · cases row with
        | none => exact createsByPut_putNew _ _ _ _
        | some row => exact createsByPut_raise _

/-- `auth_setup` has the shape. -/
theorem createsByPut_authSetup (request : SetupRequest) :
    CreatesByPut libs (authSetup libs request : UserProg slot UserView) := by
  refine createsByPut_bind reads_needsSetup fun empty _ => ?_
  split
  · exact createsByPut_raise _
  · cases strippedField request.payload "username" with
    | error e => exact createsByPut_raise _
    | ok username =>
      simp only [Prog.bind_eq, Prog.ofExcept_ok, Prog.bind_done]
      split
      · exact createsByPut_raise _
      · exact createsByPut_createFirst _ _ _ _

end CreatesByPut

/-- What a program of that shape may have become. -/
def StageCreates (libs : AuthLibs) : SetupStage slot → Prop
  | .waiting op _ k => CreatesByPut libs (.await op k)
  | .applied (Op.putIfAbsent row) (.ok r) k => row.role = some "admin" ∧
      ∃ e, k (.ok r) = if libs.jwt then .done (safeView row) else .raise e
  | .applied _ reply k => CreatesByPut libs (k reply)
  | .finished _ => True

/-! ### Steps -/

/-- What a run of setup requests keeps as long as `SetupAlone` holds. -/
structure Opening (libs : AuthLibs) (s : SetupPool slot) : Prop where
  one : OneAdministrator s
  shape : ∀ task ∈ s.tasks, StageCreates libs task.stage
  /-- The row of a put that has taken effect is in the table. -/
  made : ∀ task ∈ s.tasks, ∀ row r k, task.stage = .applied (Op.putIfAbsent row) (.ok r) k →
    row ∈ s.store

variable {libs : AuthLibs}

/-- A program of the shape settles at an operation or fails. -/
theorem settle_createsByPut {p : UserProg slot UserView} (h : CreatesByPut libs p) (m : Unit) :
    (∃ op k, (p.settle m).2 = .waiting op ⟨[], none⟩ k ∧ CreatesByPut libs (.await op k)) ∨
      ∃ e, (p.settle m).2 = .finished (.error e) := by
  induction p with
  | done a =>
    unfold CreatesByPut at h
    exact h.elim
  | raise e => exact Or.inr ⟨e, rfl⟩
  | read k ih =>
    unfold CreatesByPut at h
    exact ih m (h m)
  | write m' k ih =>
    unfold CreatesByPut at h
    exact ih h
  | await op k => exact Or.inl ⟨op, k, rfl, h⟩

/-- Up to its first operation, a program of the shape makes no account. -/
theorem settle_quiet {p : UserProg slot UserView} (h : CreatesByPut libs p) (m : Unit) :
    madeAccount (p.settle m).2 = false ∧ StageCreates libs (p.settle m).2 ∧
      (∀ view, (p.settle m).2 ≠ .finished (.ok view)) ∧
      ∀ op reply k, (p.settle m).2 ≠ .applied op reply k := by
  have hsettle := settle_createsByPut h m
  generalize (p.settle m).2 = stage at hsettle
  rcases hsettle with ⟨op, k, rfl, hcreates⟩ | ⟨e, rfl⟩
  · exact ⟨rfl, hcreates, by simp, by simp⟩
  · exact ⟨rfl, trivial, by simp, by simp⟩

/-- Counting after one element is exchanged. -/
private theorem countP_set_add {α : Type} {p : α → Bool} {l : List α} {i : ℕ} {a b : α}
    (h : l[i]? = some a) :
    (l.set i b).countP p + (if p a then 1 else 0) = l.countP p + if p b then 1 else 0 := by
  induction l generalizing i with
  | nil => simp at h
  | cons x l ih =>
    cases i with
    | zero =>
      obtain rfl : x = a := by simpa using h
      simp only [List.set_cons_zero, List.countP_cons]
      omega
    | succ i =>
      have hrest := ih (by simpa using h)
      simp only [List.set_cons_succ, List.countP_cons]
      omega

/-- A task moves to another stage and the table gains at most the account it makes. -/
theorem Opening.set {s : SetupPool slot} (h : Opening libs s) {i : ℕ}
    {task : Task (service (userSchema slot)) SetupRequest Unit Exc UserView}
    (hi : s.tasks[i]? = some task) {store : UserTable slot} {stage : SetupStage slot}
    {history : List (ℕ × Op String UserRow UserUpdate × Mark)}
    (hlength : store.items.length + (if madeAccount task.stage then 1 else 0) =
      s.store.items.length + if madeAccount stage then 1 else 0)
    (hmost : store.items.length ≤ 1) (hsub : ∀ row ∈ s.store, row ∈ store)
    (hshape : StageCreates libs stage)
    (htold : ∀ view, stage = .finished (.ok view) →
      ∃ row ∈ store, safeView row = view ∧ row.role = some "admin")
    (hmade : ∀ row r k, stage = .applied (Op.putIfAbsent row) (.ok r) k → row ∈ store) :
    Opening libs
      { store, memory := (), tasks := s.tasks.set i { request := task.request, stage }, history } where
  one :=
    -- One account more in the store, or one task less that may still make one.
    { accounts := by
        have hcount := countP_set_add (p := fun task => madeAccount task.stage)
          (b := { request := task.request, stage := stage }) hi
        have hold := h.one.accounts
        simp only at hcount ⊢
        omega
      atMostOne := hmost
      told := fun task' htask' view hview => by
        rcases List.mem_or_eq_of_mem_set htask' with htask' | rfl
        · obtain ⟨row, hrow, hmatch⟩ := h.one.told task' htask' view hview
          exact ⟨row, hsub row hrow, hmatch⟩
        · exact htold view hview }
  shape := fun task' htask' => by
    rcases List.mem_or_eq_of_mem_set htask' with htask' | rfl
    · exact h.shape task' htask'
    · exact hshape
  made := fun task' htask' row r k hstage => by
    rcases List.mem_or_eq_of_mem_set htask' with htask' | rfl
    · exact hsub row (h.made task' htask' row r k hstage)
    · exact hmade row r k hstage

/-- A new request makes no account before its first operation. -/
theorem Opening.spawn {s : SetupPool slot} (h : Opening libs s) (request : SetupRequest) :
    Opening libs (s.step (authSetup libs) (.spawn request)) := by
  have hprog : CreatesByPut libs (authSetup libs request : UserProg slot UserView) :=
    createsByPut_authSetup request
  obtain ⟨hmade, hshape, hfinished, happlied⟩ := settle_quiet hprog s.memory
  generalize hstage : ((authSetup libs request : UserProg slot UserView).settle s.memory).2 = stage
    at hmade hshape hfinished happlied
  -- A new request has made no account, whatever it has read.
  have hnew : ∀ task ∈ (s.step (authSetup libs) (.spawn request)).tasks,
      task ∈ s.tasks ∨ task.stage = stage := by
    intro task htask
    rcases List.mem_append.mp htask with htask | htask
    · exact Or.inl htask
    · obtain rfl := List.mem_singleton.mp htask
      exact Or.inr hstage
  refine ⟨⟨?_, h.one.atMostOne, fun task htask view hview => ?_⟩, fun task htask => ?_,
    fun task htask row r k hk => ?_⟩
  · have hold := h.one.accounts
    simp only [Pool.step, List.countP_append, List.countP_singleton, hstage, hmade]
    simpa using hold
  · rcases hnew task htask with htask | hstage'
    · exact h.one.told task htask view hview
    · exact absurd (hstage'.symm.trans hview) (hfinished view)
  · rcases hnew task htask with htask | hstage'
    · exact h.shape task htask
    · rwa [hstage']
  · rcases hnew task htask with htask | hstage'
    · exact h.made task htask row r k hk
    · exact absurd (hstage'.symm.trans hk) (happlied _ _ _)

/-- A row that is put where its name is free joins the others. -/
theorem length_put_of_free {t : UserTable slot} {row : UserRow}
    (h : ∀ other ∈ t, other.username ≠ row.username) :
    (t.put row).items.length = t.items.length + 1 := by
  have hperm : (t.put row).items.Perm (row :: t.items) := by
    refine (List.perm_ext_iff_of_nodup ((t.put row).nodup_keys.of_map _)
      (List.nodup_cons.mpr ⟨fun hmem => h row hmem rfl, t.nodup_keys.of_map _⟩)).mpr fun other => ?_
    rw [← Table.mem_def, Table.mem_put, List.mem_cons]
    exact or_congr_right ⟨And.left, fun hmem => ⟨hmem, h other hmem⟩⟩
  simpa using hperm.length_eq

/-- The store works on the operation of a setup request. -/
theorem Opening.perform {s : SetupPool slot} (h : Opening libs s) (i : ℕ) (choice : Choice)
    (halone : SetupAlone libs s (.perform i choice)) :
    Opening libs (s.step (authSetup libs) (.perform i choice)) := by
  simp only [Pool.step]
  split
  · rename_i request op flight k hi
    have hshape : CreatesByPut libs (.await op k) := h.shape _ (List.mem_of_getElem? hi)
    cases choice with
    | page n =>
      -- A scan reads a page; nothing else happens.
      rcases hshape.op_cases with ⟨username, rfl⟩ | rfl | ⟨row, rfl⟩ <;>
        exact h.set hi rfl h.one.atMostOne (fun _ hrow => hrow) hshape
          (fun _ hview => by cases hview) fun _ _ _ hmade => by cases hmade
    | fault code =>
      rcases hshape.op_cases with ⟨username, rfl⟩ | rfl | ⟨row, rfl⟩
      · exact h.set hi rfl h.one.atMostOne (fun _ hrow => hrow)
          ((createsByPut_getItem _ _).mp hshape _) (fun _ hview => by cases hview) fun _ _ _ hmade => by cases hmade
      · exact h.set hi rfl h.one.atMostOne (fun _ hrow => hrow)
          ((createsByPut_scan _).mp hshape _) (fun _ hview => by cases hview) fun _ _ _ hmade => by cases hmade
      · refine h.set hi rfl h.one.atMostOne (fun _ hrow => hrow) ?_
          (fun _ hview => by cases hview) fun _ _ _ hmade => by cases hmade
        obtain ⟨e, he⟩ := ((createsByPut_putIfAbsent _ _).mp hshape).2.2 (.service code)
        exact (congrArg (CreatesByPut libs) he).mpr (createsByPut_raise e)
    | ok =>
      rcases hshape.op_cases with ⟨username, rfl⟩ | rfl | ⟨row, rfl⟩
      · exact h.set hi rfl h.one.atMostOne (fun _ hrow => hrow)
          ((createsByPut_getItem _ _).mp hshape _) (fun _ hview => by cases hview) fun _ _ _ hmade => by cases hmade
      · exact h.set hi rfl h.one.atMostOne (fun _ hrow => hrow)
          ((createsByPut_scan _).mp hshape _) (fun _ hview => by cases hview) fun _ _ _ hmade => by cases hmade
      · have hput := (createsByPut_putIfAbsent _ _).mp hshape
        have hsame := halone.1 request row flight ⟨i, k, rfl, hi⟩
        rw [KeyedTable.perform, complete]
        split
        · rename_i hperform
          split_ifs at hperform <;> cases hperform
        · rename_i store reply hperform
          split_ifs at hperform with hfree
          · cases hperform
            refine h.set hi rfl h.one.atMostOne (fun _ hrow => hrow) ?_
              (fun _ hview => by cases hview) fun _ _ _ hmade => by cases hmade
            obtain ⟨e, he⟩ := hput.2.2 .conditionalCheckFailed
            exact (congrArg (CreatesByPut libs) he).mpr (createsByPut_raise e)
          · -- Nobody has the name, and whoever is there has it: the table is empty.
            cases hperform
            have hnobody : ∀ other ∈ s.store, other.username ≠ row.username :=
              Table.get?_eq_none_iff.mp (Option.not_isSome_iff_eq_none.mp hfree)
            have hempty : s.store.items = [] := List.eq_nil_iff_forall_not_mem.mpr fun other ho =>
              hnobody other ho (hsame other ho)
            have hlength := length_put_of_free hnobody
            refine h.set hi ?_ ?_ (fun other ho => absurd (hsame other ho) (hnobody other ho))
              ⟨hput.1, hput.2.1⟩ (fun _ hview => by cases hview) ?_
            · simp [hlength, madeAccount]
            · simp [hlength, hempty]
            · rintro row' r k' hstage
              cases hstage
              exact Table.mem_put.mpr (Or.inl rfl)
  · exact h

/-- The put of a stage that made an account. -/
theorem exists_put_of_made {op : Op String UserRow UserUpdate} {reply : Except Fault op.Reply}
    {k : Except Fault op.Reply → UserProg slot UserView}
    (h : madeAccount (.applied op reply k : SetupStage slot) = true) :
    ∃ row k', (.applied op reply k : SetupStage slot) = .applied (Op.putIfAbsent row) (.ok ()) k' := by
  cases op with
  | putIfAbsent row =>
    cases reply with
    | ok r => exact ⟨row, k, rfl⟩
    | error f => cases h
  | _ => cases h

/-- A stage that made no account goes on with a program of the shape. -/
theorem StageCreates.of_not_made {op : Op String UserRow UserUpdate}
    {reply : Except Fault op.Reply} {k : Except Fault op.Reply → UserProg slot UserView}
    (h : StageCreates libs (.applied op reply k : SetupStage slot))
    (hmade : madeAccount (.applied op reply k : SetupStage slot) = false) :
    CreatesByPut libs (k reply) := by
  cases op with
  | putIfAbsent row =>
    cases reply with
    | ok r => cases hmade
    | error f => exact h
  | _ => exact h

/-- A setup request is resumed. -/
theorem Opening.resume {s : SetupPool slot} (h : Opening libs s) (i : ℕ)
    (halone : SetupAlone libs s (.resume i)) :
    Opening libs (s.step (authSetup libs) (.resume i)) := by
  simp only [Pool.step]
  split
  · rename_i request op reply k hi
    have hshape := h.shape _ (List.mem_of_getElem? hi)
    cases hmade : madeAccount (.applied op reply k : SetupStage slot) with
    | false =>
      rcases settle_createsByPut (hshape.of_not_made hmade) s.memory with
        ⟨op', k', hk, hcreates⟩ | ⟨e, he⟩
      · have hpair : (k reply).settle s.memory = ((), .waiting op' ⟨[], none⟩ k') := Prod.ext rfl hk
        rw [hpair]
        exact h.set hi (by dsimp only; rw [hmade]; rfl) h.one.atMostOne (fun _ hrow => hrow) hcreates
          (fun _ hview => by cases hview) fun _ _ _ hmade => by cases hmade
      · have hpair : (k reply).settle s.memory = ((), .finished (.error e)) := Prod.ext rfl he
        rw [hpair]
        exact h.set hi (by dsimp only; rw [hmade]; rfl) h.one.atMostOne (fun _ hrow => hrow) trivial
          (fun _ hview => by cases hview) fun _ _ _ hmade => by cases hmade
    | true =>
      obtain ⟨row, k', hstage⟩ := exists_put_of_made hmade
      cases hstage
      -- The account is made, and the answer is signed with it.
      have hjwt := halone.2 i request row k' rfl hi
      obtain ⟨hrole, e, hk⟩ := hshape
      rw [if_pos hjwt] at hk
      simp only [hk, settle_done]
      refine h.set hi rfl h.one.atMostOne (fun _ hrow => hrow) trivial (fun view hview => ?_)
        fun _ _ _ hmade => by cases hmade
      cases hview
      exact ⟨row, h.made _ (List.mem_of_getElem? hi) row () k' rfl, rfl, hrole⟩
  · exact h

/-- A step of setup requests that meets `SetupAlone` keeps the opening in order. -/
theorem Opening.step {s : SetupPool slot} (h : Opening libs s)
    (e : Event (service (userSchema slot)) SetupRequest) (halone : SetupAlone libs s e) :
    Opening libs (s.step (authSetup libs) e) := by
  cases e with
  | spawn request => exact h.spawn request
  | perform i choice => exact h.perform i choice halone
  | resume i => exact h.resume i halone

/-- A put that finds an account of another name makes a second account. -/
theorem Opening.not_one_of_put {s : SetupPool slot} (h : Opening libs s)
    {e : Event (service (userSchema slot)) SetupRequest} {request : SetupRequest} {row other : UserRow}
    {flight : Flight String UserRow}
    (hperforms : s.Performs e request (.putIfAbsent row) flight .ok) (hother : other ∈ s.store)
    (hname : other.username ≠ row.username) :
    ¬ OneAdministrator (s.step (authSetup libs) e) := by
  intro hone
  have hmost := hone.atMostOne
  have honly : ∀ o ∈ s.store, o = other := by
    intro o ho
    by_contra hne
    -- Two rows would be one too many before the put already.
    have htwo : [o, other].length ≤ s.store.items.length :=
      (List.subperm_of_subset (by simpa using hne) (by simp [← Table.mem_def, ho, hother])).length_le
    have := h.one.atMostOne
    simp only [List.length_cons, List.length_nil] at htwo
    omega
  have hfree : ∀ o ∈ s.store, o.username ≠ row.username := fun o ho => honly o ho ▸ hname
  have hget : s.store.get? row.username = none := Table.get?_eq_none_iff.mpr hfree
  have hkey : (userSchema slot).key row = row.username := rfl
  rw [Pool.store_of_performs hperforms] at hmost
  simp only [KeyedTable.perform, complete, hkey, hget, Option.isSome_none, Bool.false_eq_true,
    if_false] at hmost
  rw [length_put_of_free hfree] at hmost
  have hpos : 0 < s.store.items.length := List.length_pos_of_mem hother
  omega

/-- A request whose token cannot be issued fails and leaves its account behind. -/
theorem Opening.not_one_of_no_token {s : SetupPool slot} (h : Opening libs s) {i : ℕ}
    {request : SetupRequest} {row : UserRow} {k : Except Fault Unit → UserProg slot UserView}
    (hi : s.tasks[i]? = some { request, stage := .applied (Op.putIfAbsent row) (.ok ()) k })
    (hjwt : libs.jwt ≠ true) : ¬ OneAdministrator (s.step (authSetup libs) (.resume i)) := by
  intro hone
  have hcount := hone.accounts
  have hold := h.one.accounts
  obtain ⟨-, e, hk⟩ := h.shape _ (List.mem_of_getElem? hi)
  rw [if_neg hjwt] at hk
  have hset : (s.tasks.set i { request, stage := .finished (.error e) }).countP
      (fun task => madeAccount task.stage) + 1 =
      s.tasks.countP (fun task => madeAccount task.stage) + 0 := countP_set_add hi
  simp only [Pool.step, hi, hk, settle_raise] at hcount
  omega

/-- From an empty table, a run of setup requests makes at most one account, for the request that
succeeds, and leaves none behind for one that fails, exactly when every put that takes effect finds
no account of another name and the token of its request can be issued. -/
theorem oneAdministrator_iff (libs : AuthLibs)
    (es : List (Event (service (userSchema slot)) SetupRequest)) :
    Run.Always (Pool.step (authSetup libs)) OneAdministrator
        (Pool.start ∅ () : SetupPool slot) es ↔
      Run.Guarded (Pool.step (authSetup libs)) (SetupAlone libs)
        (Pool.start ∅ () : SetupPool slot) es := by
  refine Run.always_iff_guarded (fun _ h => Opening.one h) (fun _ e h => Opening.step h e)
    (fun s e h halone => ?_)
    ⟨⟨rfl, Nat.zero_le _, fun _ h => absurd h List.not_mem_nil⟩,
      fun _ h => absurd h List.not_mem_nil, fun _ h => absurd h List.not_mem_nil⟩ es
  simp only [SetupAlone, not_and_or, not_forall] at halone
  rcases halone with ⟨request, row, flight, hperforms, other, hother, hname⟩ |
    ⟨i, request, row, k, rfl, hi, hjwt⟩
  · exact h.not_one_of_put hperforms hother hname
  · exact h.not_one_of_no_token hi hjwt

/-- The libraries are all there. -/
def sampleLibs : AuthLibs := { bcrypt := sampleBcrypt, jwt := true }

/-- A request to set up `username`. -/
def setupOf (username : String) : SetupRequest :=
  { payload := [("username", .str username), ("password", .str "p")], salt := "s:", now := 0 }

/-- Two requests with different names, which both find the table empty. -/
def twoSetups : List (Event (service (userSchema stringSlot)) SetupRequest) :=
  [.spawn (setupOf "a"), .spawn (setupOf "b"), .perform 0 .ok, .perform 1 .ok, .resume 0, .resume 1,
    .perform 0 .ok, .perform 1 .ok, .resume 0, .resume 1, .perform 0 .ok, .perform 1 .ok, .resume 0,
    .resume 1]

/-- Both requests make an administrator and succeed. -/
theorem twoSetups_twoAdministrators :
    ¬ Run.Always (Pool.step (authSetup sampleLibs)) OneAdministrator
      (Pool.start ∅ () : SetupPool stringSlot) twoSetups := by
  intro h
  have hmost := h.last.atMostOne
  revert hmost
  decide +kernel

end Users
