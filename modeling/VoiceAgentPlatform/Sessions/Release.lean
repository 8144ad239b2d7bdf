import Mathlib.Data.List.Basic
import VoiceAgentPlatform.Lib.Raising
import VoiceAgentPlatform.Lib.Run
import VoiceAgentPlatform.Sessions.Endpoints

/-!
# What an endpoint leaves behind

The endpoints give up what they hold in one `finally`, which begins after the builder has returned and
whose first step may raise.

* `Released`: the session is unregistered, the history handed over, everything opened closed.
* `Plan.Orderly`: what must not raise; `released_iff` says that it is exactly this.
-/

namespace Sessions

open Raising

/-- The call has left `ACTIVE_SESSIONS`, its history is handed to the flush, and whatever was opened
has been closed or tried to be. -/
structure Released (callId : String) (i : ℕ) (w : World) : Prop where
  session : w.registry.activeSessions callId = none
  history : w.registry.history = true → ∃ c, w.registry.calls[i]? = some c ∧ c.phase = .closing
  resources : ∀ r ∈ w.opened, r ∈ w.closed

/-- No session that is registered has the monitor's emit. -/
def MonitorReleased (m : ℕ) (w : World) : Prop :=
  ∀ callId, Emit.monitor m ∉ w.registry.sessionEmits callId

namespace Plan

/-- The parameters of an MCP server are there, or the server is left out. -/
def ParamsReturn (p : Plan) (k : ℕ) (server : Server) : Prop :=
  p.raises (.mcpParams k) = none ∨ server.sigv4 = true ∧ p.raises (.mcpParams k) = some .exception

/-- Connecting an MCP server does not raise. -/
def ServerReturns (p : Plan) (k : ℕ) (server : Server) : Prop :=
  server.enabled = true → p.ParamsReturn k server ∧
    (p.raises (.mcpParams k) = none → p.raises (.mcpClient k) = none)

/-- The MCP server is connected, given that connecting the servers does not raise. -/
def Connects (p : Plan) (k : ℕ) (server : Server) : Prop :=
  server.enabled = true ∧ p.raises (.mcpParams k) = none ∧ p.raises (.mcpStart k) = none

/-- The builder returns. -/
structure BuilderReturns (p : Plan) : Prop where
  prepare : p.raises .prepare = none
  aioSession : p.sonic = false → p.raises .aioSession = none ∧ p.raises .tts = none
  toolsSchema : p.raises .toolsSchema = none
  servers : ∀ x ∈ p.servers.zipIdx, p.ServerReturns x.2 x.1
  assemble : p.raises .assemble = none

/-- Up to the builder nothing raises, attaching the history raises no more than an `Exception`, closing
the HTTP session does not raise and closing an MCP client no more than an `Exception`, and the flush
can be scheduled. -/
structure Orderly (p : Plan) (history : Bool) : Prop where
  descriptors : p.raises .descriptors = none
  activityStart : p.raises .activityStart = none
  attach : history = true → p.raises .attach ≠ some .cancelled
  builder : p.BuilderReturns
  closeAio : p.sonic = false → p.sessionClosed = false → p.raises .closeAio = none
  closeMcp : ∀ x ∈ p.servers.zipIdx, p.Connects x.2 x.1 → p.raises (.closeMcp x.2) ≠ some .cancelled
  schedule : history = true → p.raises .schedule = none

end Plan

/-! ### Single steps -/

section Steps

variable {p : Plan} {step : Step} {w w' : World} {α β : Type}

theorem call_ok (h : p.raises step = none) (w : World) : call p step w = .ok () w := by
  rw [call, h]
  rfl

theorem call_error {r : Raised} (h : p.raises step = some r) (w : World) :
    call p step w = .error r w := by
  rw [call, h]
  rfl

theorem exitWorld_ok {x : EndpointM α} {a : α} (h : x w = .ok a w') : exitWorld x w = w' := by
  rw [exitWorld, h]

theorem exitWorld_error {x : EndpointM α} {r : Raised} (h : x w = .error r w') :
    exitWorld x w = w' := by
  rw [exitWorld, h]

theorem exitWorld_congr {x y : EndpointM α} (h : x w = y w') : exitWorld x w = exitWorld y w' := by
  rw [exitWorld, h]
  rfl

/-- A `finally` runs in the world in which its body exits. -/
theorem exitWorld_tryFinally (x : EndpointM Unit) (fin : EndpointM Unit) (w : World) :
    exitWorld (tryFinally x fin) w = exitWorld fin (exitWorld x w) := by
  cases hx : x w with
  | ok a w' =>
    rw [exitWorld_ok hx]
    -- The last step runs either way; what it raises replaces what was raised before.
    cases hfin : fin w' with
    | ok b w'' =>
      rw [exitWorld_ok hfin]
      refine exitWorld_ok (a := a) ?_
      simp [tryFinally, MonadFinally.tryFinally', Functor.map, EStateM.map, hx, hfin]
    | error r w'' =>
      rw [exitWorld_error hfin]
      refine exitWorld_error (r := r) ?_
      simp [tryFinally, MonadFinally.tryFinally', Functor.map, EStateM.map, hx, hfin]
  | error r w' =>
    rw [exitWorld_error hx]
    cases hfin : fin w' with
    | ok b w'' =>
      rw [exitWorld_ok hfin]
      refine exitWorld_error (r := r) ?_
      simp [tryFinally, MonadFinally.tryFinally', Functor.map, EStateM.map, hx, hfin]
    | error r' w'' =>
      rw [exitWorld_error hfin]
      refine exitWorld_error (r := r') ?_
      simp [tryFinally, MonadFinally.tryFinally', Functor.map, EStateM.map, hx, hfin]

theorem exceptException_ok {x : EndpointM Unit} (h : x w = .ok () w') :
    exceptException x w = .ok () w' := by
  simp [exceptException, tryCatch, tryCatchThe, MonadExceptOf.tryCatch, EStateM.tryCatch, h]

theorem exceptException_exception {x : EndpointM Unit} (h : x w = .error .exception w') :
    exceptException x w = .ok () w' := by
  simp [exceptException, tryCatch, tryCatchThe, MonadExceptOf.tryCatch, EStateM.tryCatch, h]
  rfl

theorem exceptException_cancelled {x : EndpointM Unit} (h : x w = .error .cancelled w') :
    exceptException x w = .error .cancelled w' := by
  simp [exceptException, tryCatch, tryCatchThe, MonadExceptOf.tryCatch, EStateM.tryCatch, h]
  rfl

end Steps

/-! ### The builders -/

section Builders

variable {p : Plan} {w : World}

/-- What connecting the servers from the `k`-th on has done. -/
structure Connected (p : Plan) (k : ℕ) (servers : List Server) (w : World) (clients : List ℕ)
    (w' : World) : Prop where
  registry : w'.registry = w.registry
  mem_clients : ∀ j, j ∈ clients ↔ ∃ x ∈ servers.zipIdx k, x.2 = j ∧ p.Connects x.2 x.1
  opened : ∀ r ∈ w'.opened, r ∈ w.opened ∨ r ∈ w'.closed ∨ ∃ j ∈ clients, r = .mcpClient j
  closed : ∀ r ∈ w.closed, r ∈ w'.closed
  aioSession : .aioSession ∈ w'.closed → .aioSession ∈ w.closed

/-- A server that is left out, in a step that may open and close it at once. -/
theorem Connected.skip {k : ℕ} {server : Server} {rest : List Server} {w₁ w' : World}
    {clients : List ℕ} (h : Connected p (k + 1) rest w₁ clients w') (hnot : ¬ p.Connects k server)
    (hregistry : w₁.registry = w.registry) (hopened : ∀ r ∈ w₁.opened, r ∈ w.opened ∨ r ∈ w₁.closed)
    (hclosed : ∀ r ∈ w.closed, r ∈ w₁.closed)
    (haio : .aioSession ∈ w₁.closed → .aioSession ∈ w.closed) :
    Connected p k (server :: rest) w clients w' where
  registry := h.registry.trans hregistry
  mem_clients j := by
    rw [h.mem_clients, List.zipIdx_cons]
    simp [hnot]
  opened r hr := by
    rcases h.opened r hr with hr | hr
    · exact (hopened r hr).imp_right fun hr => Or.inl (h.closed r hr)
    · exact Or.inr hr
  closed r hr := h.closed r (hclosed r hr)
  aioSession h' := haio (h.aioSession h')

/-- A server that is connected. -/
theorem Connected.cons {k : ℕ} {server : Server} {rest : List Server} {w' : World}
    {clients : List ℕ}
    (h : Connected p (k + 1) rest { w with opened := w.opened ++ [.mcpClient k] } clients w')
    (hconnects : p.Connects k server) :
    Connected p k (server :: rest) w (k :: clients) w' where
  registry := h.registry
  mem_clients j := by
    rw [List.mem_cons, h.mem_clients, List.zipIdx_cons]
    simp [hconnects, eq_comm]
  opened r hr := by
    rcases h.opened r hr with hr | hr | ⟨j, hj, rfl⟩
    · -- The client of the first server, or one of the rest.
      rcases List.mem_append.mp hr with hr | hr
      · exact Or.inl hr
      · exact Or.inr (Or.inr ⟨k, List.mem_cons_self, List.mem_singleton.mp hr⟩)
    · exact Or.inr (Or.inl hr)
    · exact Or.inr (Or.inr ⟨j, List.mem_cons_of_mem _ hj, rfl⟩)
  closed r hr := h.closed r hr
  aioSession h' := h.aioSession h'

theorem mcpParams_ok {k : ℕ} {server : Server} (h : p.raises (.mcpParams k) = none) (w : World) :
    mcpParams p k server w = .ok true w := by
  unfold mcpParams
  split
  · rw [h]
    rfl
  · rw [bind_ok (call_ok h w)]
    rfl

theorem mcpParams_skip {k : ℕ} {server : Server} (hsigv4 : server.sigv4 = true)
    (h : p.raises (.mcpParams k) = some .exception) (w : World) :
    mcpParams p k server w = .ok false w := by
  rw [mcpParams, if_pos hsigv4, h]
  rfl

theorem mcpParams_error {k : ℕ} {server : Server} (h : ¬ p.ParamsReturn k server) (w : World) :
    ∃ r, mcpParams p k server w = .error r w := by
  simp only [Plan.ParamsReturn, not_or, not_and] at h
  obtain ⟨hraises, hsigv4⟩ := h
  obtain ⟨r, hr⟩ := Option.ne_none_iff_exists'.mp hraises
  unfold mcpParams
  split
  · rename_i hpos
    cases r with
    | exception => exact absurd hr (hsigv4 hpos)
    | cancelled =>
      rw [hr]
      exact ⟨_, rfl⟩
  · exact ⟨r, bind_error (call_error hr w) _⟩

/-- Connecting the servers returns if none of them raises. -/
theorem connectMcpClients_ok (servers : List Server) (k : ℕ) (w : World)
    (h : ∀ x ∈ servers.zipIdx k, p.ServerReturns x.2 x.1) :
    ∃ clients w', connectMcpClients p k servers w = .ok clients w' ∧
      Connected p k servers w clients w' := by
  induction servers generalizing k w with
  | nil => exact ⟨[], w, rfl, ⟨rfl, by simp, fun _ => Or.inl, fun _ h => h, id⟩⟩
  | cons server rest ih =>
    simp only [List.zipIdx_cons, List.forall_mem_cons] at h
    obtain ⟨hserver, hrest⟩ := h
    unfold connectMcpClients
    split
    · rename_i hdisabled
      obtain ⟨clients, w', hrun, hw'⟩ := ih (k + 1) w hrest
      refine ⟨clients, w', hrun, hw'.skip ?_ rfl (fun _ => Or.inl) (fun _ h => h) id⟩
      exact fun hconnects => absurd hconnects.1 (by simp [hdisabled])
    · rename_i henabled
      obtain ⟨hparams, hclient⟩ := hserver (by simpa using henabled)
      rcases hparams with hparams | ⟨hsigv4, hparams⟩
      · -- The client is made, and started.
        rw [bind_ok (mcpParams_ok hparams w), if_neg (by decide),
          bind_ok (call_ok (hclient hparams) w)]
        cases hstart : p.raises (.mcpStart k) with
        | some r =>
          obtain ⟨clients, w', hrun, hw'⟩ := ih (k + 1)
            { w with
              opened := w.opened ++ [.mcpClient k]
              closed := w.closed ++ [.mcpClient k] } hrest
          refine ⟨clients, w', hrun, hw'.skip ?_ rfl ?_ ?_ ?_⟩
          · exact fun hconnects => absurd hconnects.2.2 (by simp [hstart])
          · intro r hr
            rcases List.mem_append.mp hr with hr | hr
            · exact Or.inl hr
            · exact Or.inr (List.mem_append_right _ hr)
          · exact fun _ hr => List.mem_append_left _ hr
          · simp
        | none =>
          obtain ⟨clients, w', hrun, hw'⟩ := ih (k + 1)
            { w with opened := w.opened ++ [.mcpClient k] } hrest
          refine ⟨k :: clients, w', ?_, hw'.cons ⟨by simpa using henabled, hparams, hstart⟩⟩
          exact bind_ok hrun _
      · -- A signed server whose parameters fail is left out.
        rw [bind_ok (mcpParams_skip hsigv4 hparams w), if_pos rfl]
        obtain ⟨clients, w', hrun, hw'⟩ := ih (k + 1) w hrest
        refine ⟨clients, w', hrun, hw'.skip ?_ rfl (fun _ => Or.inl) (fun _ h => h) id⟩
        exact fun hconnects => absurd hconnects.2.1 (by simp [hparams])

/-- A server that raises ends the builder. -/
theorem connectMcpClients_error (servers : List Server) (k : ℕ) (w : World)
    (h : ¬ ∀ x ∈ servers.zipIdx k, p.ServerReturns x.2 x.1) :
    ∃ r w', connectMcpClients p k servers w = .error r w' ∧ w'.registry = w.registry := by
  induction servers generalizing k w with
  | nil => simp at h
  | cons server rest ih =>
    simp only [List.zipIdx_cons, List.forall_mem_cons] at h
    have hrest : p.ServerReturns k server →
        ¬ ∀ x ∈ rest.zipIdx (k + 1), p.ServerReturns x.2 x.1 := fun hs hr => h ⟨hs, hr⟩
    unfold connectMcpClients
    split
    · rename_i hdisabled
      exact ih (k + 1) w (hrest fun henabled => absurd henabled (by simp [hdisabled]))
    · -- The server raises in its parameters or in its client, or it is one of the rest that does.
      by_cases hparams : p.ParamsReturn k server
      · rcases hparams with hparams | ⟨hsigv4, hparams⟩
        · rw [bind_ok (mcpParams_ok hparams w), if_neg (by decide)]
          cases hclient : p.raises (.mcpClient k) with
          | some r => exact ⟨r, w, bind_error (call_error hclient w) _, rfl⟩
          | none =>
            have hrest' := hrest fun _ => ⟨Or.inl hparams, fun _ => hclient⟩
            rw [bind_ok (call_ok hclient w)]
            cases hstart : p.raises (.mcpStart k) with
            | some r =>
              exact ih (k + 1)
                { w with
                  opened := w.opened ++ [.mcpClient k]
                  closed := w.closed ++ [.mcpClient k] } hrest'
            | none =>
              obtain ⟨r, w', hrun, hw'⟩ :=
                ih (k + 1) { w with opened := w.opened ++ [.mcpClient k] } hrest'
              exact ⟨r, w', bind_error hrun _, hw'⟩
        · rw [bind_ok (mcpParams_skip hsigv4 hparams w), if_pos rfl]
          exact ih (k + 1) w (hrest fun _ => ⟨Or.inr ⟨hsigv4, hparams⟩, by simp [hparams]⟩)
      · obtain ⟨r, hr⟩ := mcpParams_error hparams w
        exact ⟨r, w, bind_error hr _, rfl⟩

/-- What a builder that returns has done. -/
structure Built (p : Plan) (w : World) (task : PipelineTask) (w' : World) : Prop where
  registry : w'.registry = w.registry
  task_aioSession : task.aioSession = !p.sonic
  mem_clients : ∀ j, j ∈ task.mcpClients ↔
    ∃ x ∈ p.servers.zipIdx, x.2 = j ∧ p.Connects x.2 x.1
  opened : ∀ r ∈ w'.opened, r ∈ w.opened ∨ r ∈ w'.closed ∨
    r = .aioSession ∧ task.aioSession = true ∨ ∃ j ∈ task.mcpClients, r = .mcpClient j
  aioSession : .aioSession ∈ w'.closed → .aioSession ∈ w.closed

/-- The builder returns if nothing in it raises. -/
theorem builder_ok (h : p.BuilderReturns) (w : World) :
    ∃ task w', builder p w = .ok task w' ∧ Built p w task w' := by
  unfold builder
  split
  · rename_i hsonic
    obtain ⟨clients, w', hrun, hw'⟩ := connectMcpClients_ok p.servers 0 w h.servers
    refine ⟨⟨false, clients⟩, w', ?_, hw'.registry, by simp [hsonic], hw'.mem_clients, ?_,
      hw'.aioSession⟩
    · rw [buildNovaSonicPipeline, bind_ok (call_ok h.prepare w), bind_ok (call_ok h.toolsSchema w),
        bind_ok hrun, bind_ok (call_ok h.assemble w')]
      rfl
    · exact fun r hr => (hw'.opened r hr).imp_right (Or.imp_right Or.inr)
  · rename_i hsonic
    -- The pipeline opens a session first, and then the clients.
    obtain ⟨haio, htts⟩ := h.aioSession (by simpa using hsonic)
    obtain ⟨clients, w', hrun, hw'⟩ := connectMcpClients_ok p.servers 0
      { w with opened := w.opened ++ [.aioSession] } h.servers
    refine ⟨⟨true, clients⟩, w', ?_, hw'.registry, by simp [hsonic], hw'.mem_clients, ?_,
      hw'.aioSession⟩
    · rw [buildPipeline, bind_ok (call_ok h.prepare w), bind_ok (call_ok haio w)]
      show (call p .tts >>= _) { w with opened := w.opened ++ [.aioSession] } = _
      rw [bind_ok (call_ok htts _), bind_ok (call_ok h.toolsSchema _), bind_ok hrun,
        bind_ok (call_ok h.assemble w')]
      rfl
    · intro r hr
      rcases hw'.opened r hr with hr | hr | hr
      · rcases List.mem_append.mp hr with hr | hr
        · exact Or.inl hr
        · exact Or.inr (Or.inr (Or.inl ⟨List.mem_singleton.mp hr, rfl⟩))
      · exact Or.inr (Or.inl hr)
      · exact Or.inr (Or.inr (Or.inr hr))

/-- A step that may raise, before one that is known to raise if it does not. -/
theorem call_bind_error {step : Step} {α : Type} {f : Unit → EndpointM α} {w : World}
    (h : p.raises step = none → ∃ r w', f () w = .error r w' ∧ w'.registry = w.registry) :
    ∃ r w', (call p step >>= f) w = .error r w' ∧ w'.registry = w.registry := by
  cases hstep : p.raises step with
  | none =>
    rw [bind_ok (call_ok hstep w)]
    exact h hstep
  | some r => exact ⟨r, w, bind_error (call_error hstep w) f, rfl⟩

/-- If something in the builder raises, it raises, with the registry as it was. -/
theorem builder_error (h : ¬ p.BuilderReturns) (w : World) :
    ∃ r w', builder p w = .error r w' ∧ w'.registry = w.registry := by
  -- The two builders end alike: the clients, and the assembly.
  have hconnect : ∀ (task : List ℕ → PipelineTask) (w₁ : World), w₁.registry = w.registry →
      (p.raises .prepare = none →
        (p.sonic = false → p.raises .aioSession = none ∧ p.raises .tts = none) →
        p.raises .toolsSchema = none →
      ∃ r w', (connectMcpClients p 0 p.servers >>= fun clients => do
          call p .assemble
          return task clients) w₁ = .error r w' ∧ w'.registry = w₁.registry) := by
    intro task w₁ hw₁ hprepare haio htools
    by_cases hservers : ∀ x ∈ p.servers.zipIdx, p.ServerReturns x.2 x.1
    · obtain ⟨clients, w', hrun, hw'⟩ := connectMcpClients_ok p.servers 0 w₁ hservers
      rw [bind_ok hrun, ← hw'.registry]
      exact call_bind_error fun hassemble =>
        absurd ⟨hprepare, haio, htools, hservers, hassemble⟩ h
    · obtain ⟨r, w', hrun, hw'⟩ := connectMcpClients_error p.servers 0 w₁ hservers
      exact ⟨r, w', bind_error hrun _, hw'⟩
  unfold builder
  split
  · rename_i hsonic
    refine call_bind_error fun hprepare => call_bind_error fun htools => ?_
    exact hconnect (fun clients => ⟨false, clients⟩) w rfl hprepare
      (fun hnot => absurd hnot (by simp [hsonic])) htools
  · refine call_bind_error fun hprepare => call_bind_error fun haio => ?_
    have hw₁ : ({ w with opened := w.opened ++ [.aioSession] } : World).registry = w.registry := rfl
    show ∃ r w', (call p .tts >>= _) { w with opened := w.opened ++ [.aioSession] } = .error r w' ∧ _
    refine call_bind_error fun htts => call_bind_error fun htools => ?_
    exact hconnect (fun clients => ⟨true, clients⟩) _ hw₁ hprepare (fun _ => ⟨haio, htts⟩) htools

end Builders

/-! ### The end of a call -/

section CleanUp

variable {p : Plan} {callId : String} {i : ℕ} {w : World}

/-- The session is registered, and its history is not handed over. -/
structure Entered (callId : String) (i : ℕ) (w : World) : Prop where
  session : w.registry.activeSessions callId = some i
  running : ∃ c, w.registry.calls[i]? = some c ∧ c.phase ≠ .closing

/-- A call that is still entered has not been released. -/
theorem Entered.not_released (h : Entered callId i w) : ¬ Released callId i w := by
  intro hreleased
  have hnone := hreleased.session
  rw [h.session] at hnone
  cases hnone

/-- `Entered` is a property of the registry. -/
theorem Entered.of_registry {w' : World} (h : Entered callId i w)
    (hw : w'.registry = w.registry) : Entered callId i w' := by
  constructor
  · rw [hw]
    exact h.session
  · rw [hw]
    exact h.running

/-- All MCP clients are closed if no closing is cancelled. -/
theorem closeMcpClients_ok (clients : List ℕ) (w : World)
    (h : ∀ k ∈ clients, p.raises (.closeMcp k) ≠ some .cancelled) :
    closeMcpClients p clients w =
      .ok () { w with closed := w.closed ++ clients.map .mcpClient } := by
  induction clients generalizing w with
  | nil => simp [closeMcpClients, pure, EStateM.pure]
  | cons k rest ih =>
    -- An exception of a client is caught.
    have hclose : ∀ w, exceptException (call p (.closeMcp k)) w = .ok () w := by
      intro w
      cases hraises : p.raises (.closeMcp k) with
      | none => exact exceptException_ok (call_ok hraises w)
      | some r =>
        cases r with
        | exception => exact exceptException_exception (call_error hraises w)
        | cancelled => exact absurd hraises (h k List.mem_cons_self)
    have hrest := ih { w with closed := w.closed ++ [.mcpClient k] }
      fun j hj => h j (List.mem_cons_of_mem _ hj)
    rw [closeMcpClients]
    show (exceptException (call p (.closeMcp k)) >>= _)
      { w with closed := w.closed ++ [.mcpClient k] } = _
    rw [bind_ok (hclose _), hrest]
    simp

/-- A closing that is cancelled ends the `finally`. -/
theorem closeMcpClients_error (clients : List ℕ) (w : World)
    (h : ∃ k ∈ clients, p.raises (.closeMcp k) = some .cancelled) :
    ∃ r w', closeMcpClients p clients w = .error r w' ∧ w'.registry = w.registry := by
  induction clients generalizing w with
  | nil => simp at h
  | cons k rest ih =>
    rw [closeMcpClients]
    show ∃ r w', (exceptException (call p (.closeMcp k)) >>= _)
      { w with closed := w.closed ++ [.mcpClient k] } = .error r w' ∧ _
    cases hraises : p.raises (.closeMcp k) with
    | none =>
      rw [bind_ok (exceptException_ok (call_ok hraises _))]
      -- The client that is cancelled is a later one.
      obtain ⟨j, hj, hcancelled⟩ := h
      rcases List.mem_cons.mp hj with rfl | hj
      · rw [hraises] at hcancelled
        cases hcancelled
      · exact ih _ ⟨j, hj, hcancelled⟩
    | some r =>
      cases r with
      | exception =>
        rw [bind_ok (exceptException_exception (call_error hraises _))]
        obtain ⟨j, hj, hcancelled⟩ := h
        rcases List.mem_cons.mp hj with rfl | hj
        · rw [hraises] at hcancelled
          cases hcancelled
        · exact ih _ ⟨j, hj, hcancelled⟩
      | cancelled =>
        exact ⟨_, _, bind_error (exceptException_cancelled (call_error hraises _)) _, rfl⟩

/-- The `finally` after the HTTP session. -/
def finishCall (p : Plan) (callId : String) (i : ℕ) (task : PipelineTask) : EndpointM Unit := do
  closeMcpClients p task.mcpClients
  modifyRegistry fun s => s.sessionUnregister callId
  scheduleFlush p i
  call p .activityEnd

/-- The end of the `finally` does not matter any more. -/
theorem exitWorld_activityEnd (w : World) : exitWorld (call p .activityEnd) w = w := by
  cases h : p.raises .activityEnd with
  | none => exact exitWorld_ok (call_ok h w)
  | some r => exact exitWorld_error (call_error h w)

theorem exitWorld_bind_ok {α β : Type} {x : EndpointM α} {a : α} {w w' : World} (h : x w = .ok a w')
    (f : α → EndpointM β) : exitWorld (x >>= f) w = exitWorld (f a) w' := by
  rw [exitWorld, bind_ok h]
  rfl

theorem exitWorld_bind_error {α β : Type} {x : EndpointM α} {r : Raised} {w w' : World}
    (h : x w = .error r w') (f : α → EndpointM β) : exitWorld (x >>= f) w = w' := by
  rw [exitWorld, bind_error h]

/-- The flush of an unregistered call is handed over exactly if it is scheduled. -/
theorem scheduleFlush_released_iff (hnone : w.registry.activeSessions callId = none)
    (hrunning : ∃ c, w.registry.calls[i]? = some c ∧ c.phase ≠ .closing)
    (hopened : ∀ r ∈ w.opened, r ∈ w.closed) :
    Released callId i (exitWorld (do scheduleFlush p i; call p .activityEnd) w) ↔
      (w.registry.history = true → p.raises .schedule = none) := by
  obtain ⟨c, hc, hphase⟩ := hrunning
  -- The call is not closing yet, so without the flush it stays as it is.
  have hstay : ¬ (w.registry.history = true → ∃ c, w.registry.calls[i]? = some c ∧
      c.phase = .closing) ↔ w.registry.history = true := by
    rw [Classical.not_imp, and_iff_left]
    rintro ⟨d, hd, hclosing⟩
    rw [Option.some.inj (hc.symm.trans hd)] at hphase
    exact hphase hclosing
  cases hhistory : w.registry.history with
  | false =>
    have hflush : scheduleFlush p i w = .ok ()
        { w with registry := w.registry.modifyCall i fun c => { c with phase := .flushed } } := by
      show (if w.registry.history = true then _ else _ : EndpointM Unit) w = _
      rw [if_neg (by simp [hhistory])]
      rfl
    rw [exitWorld_bind_ok hflush, exitWorld_activityEnd]
    exact ⟨fun _ h => absurd h (by simp), fun _ =>
      ⟨hnone, fun h => absurd (hhistory.symm.trans h) (by simp), hopened⟩⟩
  | true =>
    have hflush : scheduleFlush p i w = exceptException (do
        call p .schedule
        modifyRegistry fun s => s.modifyCall i fun c => { c with phase := .closing }) w := by
      show (if w.registry.history = true then _ else _ : EndpointM Unit) w = _
      rw [if_pos hhistory]
    cases hschedule : p.raises .schedule with
    | none =>
      have hrun := exceptException_ok (w := w)
        (bind_ok (call_ok hschedule w) fun _ => modifyRegistry fun s =>
          s.modifyCall i fun c => { c with phase := .closing })
      rw [← hflush] at hrun
      rw [exitWorld_bind_ok hrun, exitWorld_activityEnd]
      refine ⟨fun _ _ => rfl, fun _ => ⟨hnone, fun _ => ⟨{ c with phase := .closing }, ?_, rfl⟩,
        hopened⟩⟩
      show (w.registry.calls.modify i _)[i]? = _
      simp [hc]
    | some r =>
      have hraise := bind_error (call_error hschedule w) fun _ => modifyRegistry fun s =>
        s.modifyCall i fun c => { c with phase := .closing }
      -- A schedule that raises leaves the world, whether the exception is swallowed or not.
      have hexit : exitWorld (do scheduleFlush p i; call p .activityEnd) w = w := by
        cases r with
        | exception =>
          have hrun := exceptException_exception hraise
          rw [← hflush] at hrun
          rw [exitWorld_bind_ok hrun, exitWorld_activityEnd]
        | cancelled =>
          have hrun := exceptException_cancelled hraise
          rw [← hflush] at hrun
          rw [exitWorld_bind_error hrun]
      rw [hexit]
      refine ⟨fun h => absurd h.history (hstay.mpr hhistory), fun h => ?_⟩
      cases h rfl

/-- After the HTTP session, the call is released exactly if no closing of a client is cancelled and the
flush is scheduled. -/
theorem finishCall_released_iff {task : PipelineTask} (hentered : Entered callId i w)
    (hopened : ∀ r ∈ w.opened, r ∈ w.closed ∨ ∃ j ∈ task.mcpClients, r = .mcpClient j) :
    Released callId i (exitWorld (finishCall p callId i task) w) ↔
      (∀ k ∈ task.mcpClients, p.raises (.closeMcp k) ≠ some .cancelled) ∧
        (w.registry.history = true → p.raises .schedule = none) := by
  -- A close that is cancelled leaves the call before it is released.
  by_cases hclose : ∀ k ∈ task.mcpClients, p.raises (.closeMcp k) ≠ some .cancelled
  · rw [and_iff_right hclose, finishCall, exitWorld_bind_ok (closeMcpClients_ok _ w hclose)]
    refine scheduleFlush_released_iff (w := { w with
        registry := w.registry.sessionUnregister callId
        closed := w.closed ++ task.mcpClients.map .mcpClient }) (Function.update_self ..)
      hentered.running fun r hr => ?_
    rcases hopened r hr with hr | ⟨j, hj, rfl⟩
    · exact List.mem_append_left _ hr
    · exact List.mem_append_right _ (List.mem_map_of_mem hj)
  · refine iff_of_false ?_ fun h => hclose h.1
    push Not at hclose
    obtain ⟨r, w', hrun, hw'⟩ := closeMcpClients_error _ w hclose
    rw [finishCall, exitWorld_bind_error hrun]
    exact (hentered.of_registry hw').not_released

/-- The `finally` releases the call exactly if closing the HTTP session does not raise either. -/
theorem cleanUp_released_iff {task : PipelineTask} (hentered : Entered callId i w)
    (hopened : ∀ r ∈ w.opened, r ∈ w.closed ∨ r = .aioSession ∧ task.aioSession = true ∨
      ∃ j ∈ task.mcpClients, r = .mcpClient j) :
    Released callId i (exitWorld (cleanUp p callId i task) w) ↔
      (task.aioSession = true → .aioSession ∉ w.closed → p.raises .closeAio = none) ∧
        (∀ k ∈ task.mcpClients, p.raises (.closeMcp k) ≠ some .cancelled) ∧
        (w.registry.history = true → p.raises .schedule = none) := by
  -- The HTTP session is closed here only if the pipeline has not closed it.
  by_cases hopen : task.aioSession = true ∧ .aioSession ∉ w.closed
  · let w₁ : World := { w with closed := w.closed ++ [.aioSession] }
    have hentered₁ : Entered callId i w₁ := hentered.of_registry rfl
    have hexit : exitWorld (cleanUp p callId i task) w =
        exitWorld (do call p .closeAio; finishCall p callId i task) w₁ := by
      refine exitWorld_congr ?_
      show (if (task.aioSession && !w.closed.contains .aioSession) = true then _ else _ :
        EndpointM Unit) w = _
      rw [if_pos (by simpa using hopen)]
      rfl
    rw [hexit]
    cases hclose : p.raises .closeAio with
    | none =>
      rw [exitWorld_bind_ok (call_ok hclose _),
        finishCall_released_iff hentered₁ fun r hr => ?_]
      · exact (and_iff_right fun _ _ => rfl).symm
      · rcases hopened r hr with hr | ⟨rfl, -⟩ | hr
        · exact Or.inl (List.mem_append_left _ hr)
        · exact Or.inl (List.mem_append_right _ (List.mem_singleton_self _))
        · exact Or.inr hr
    | some r =>
      rw [exitWorld_bind_error (call_error hclose _)]
      -- A close that raises skips the rest of the `finally`.
      refine iff_of_false hentered₁.not_released fun h => ?_
      cases h.1 hopen.1 hopen.2
  · have hexit : exitWorld (cleanUp p callId i task) w =
        exitWorld (finishCall p callId i task) w := by
      refine exitWorld_congr ?_
      show (if (task.aioSession && !w.closed.contains .aioSession) = true then _ else _ :
        EndpointM Unit) w = _
      rw [if_neg (by simpa using hopen)]
      rfl
    rw [hexit, finishCall_released_iff hentered fun r hr => ?_]
    · exact (and_iff_right fun haio hclosed => absurd ⟨haio, hclosed⟩ hopen).symm
    · rcases hopened r hr with hr | ⟨rfl, haio⟩ | hr
      · exact Or.inl hr
      · by_contra hnot
        exact hopen ⟨haio, fun h => hnot (Or.inl h)⟩
      · exact Or.inr hr

/-- The run of the pipeline touches no more than the HTTP session. -/
theorem exitWorld_runPipeline (task : PipelineTask) (w : World) :
    exitWorld (runPipeline p task) w =
      if task.aioSession && p.sessionClosed then { w with closed := w.closed ++ [.aioSession] }
      else w := by
  -- The pipeline changes nothing here, whether it returns or raises.
  have hrun : ∀ w, exitWorld (call p .run) w = w := by
    intro w
    cases h : p.raises .run with
    | none => exact exitWorld_ok (call_ok h w)
    | some r => exact exitWorld_error (call_error h w)
  split
  · rename_i hclosed
    refine (exitWorld_congr ?_).trans (hrun { w with closed := w.closed ++ [.aioSession] })
    show (if (task.aioSession && p.sessionClosed) = true then _ else _ : EndpointM Unit) w = _
    rw [if_pos hclosed]
    rfl
  · rename_i hopen
    refine (exitWorld_congr ?_).trans (hrun w)
    show (if (task.aioSession && p.sessionClosed) = true then _ else _ : EndpointM Unit) w = _
    rw [if_neg hopen]

/-- A call that is entered when its builder begins is released exactly if the builder returns and the
`finally` goes through. -/
theorem runTask_released_iff (hentered : Entered callId i w) (hopened : w.opened = [])
    (hclosed : w.closed = []) :
    Released callId i (exitWorld (runTask p callId i) w) ↔
      p.BuilderReturns ∧
        (p.sonic = false → p.sessionClosed = false → p.raises .closeAio = none) ∧
        (∀ x ∈ p.servers.zipIdx, p.Connects x.2 x.1 →
          p.raises (.closeMcp x.2) ≠ some .cancelled) ∧
        (w.registry.history = true → p.raises .schedule = none) := by
  have hprog : runTask p callId i = builder p >>= fun task =>
      tryFinally (runPipeline p task) (cleanUp p callId i task) := rfl
  -- Before the builder has returned there is no `finally` yet.
  by_cases hbuilder : p.BuilderReturns
  · obtain ⟨task, w', hrun, hw'⟩ := builder_ok hbuilder w
    have hentered' := hentered.of_registry hw'.registry
    rw [hprog, exitWorld_bind_ok hrun, exitWorld_tryFinally, exitWorld_runPipeline,
      and_iff_right hbuilder]
    have hnotClosed : .aioSession ∉ w'.closed := fun h => by simpa [hclosed] using hw'.aioSession h
    -- The clients of the task are the servers that could be connected.
    have hmcp : (∀ k ∈ task.mcpClients, p.raises (.closeMcp k) ≠ some .cancelled) ↔
        ∀ x ∈ p.servers.zipIdx, p.Connects x.2 x.1 →
          p.raises (.closeMcp x.2) ≠ some .cancelled := by
      constructor
      · intro h x hx hconnects
        exact h x.2 ((hw'.mem_clients x.2).mpr ⟨x, hx, rfl, hconnects⟩)
      · intro h k hk
        obtain ⟨x, hx, rfl, hconnects⟩ := (hw'.mem_clients k).mp hk
        exact h x hx hconnects
    have hsonic : task.aioSession = true ↔ p.sonic = false := by
      rw [hw'.task_aioSession]
      simp
    have hleft : ∀ r ∈ w'.opened, r ∈ w'.closed ∨ r = .aioSession ∧ task.aioSession = true ∨
        ∃ j ∈ task.mcpClients, r = .mcpClient j := by
      intro r hr
      rcases hw'.opened r hr with hr | hr
      · simp [hopened] at hr
      · exact hr
    split
    -- The pipeline may have closed the HTTP session already.
    · rename_i hclosing
      simp only [Bool.and_eq_true] at hclosing
      have hentered'' : Entered callId i { w' with closed := w'.closed ++ [.aioSession] } :=
        hentered'.of_registry rfl
      rw [cleanUp_released_iff hentered'' fun r hr => ?_, hmcp]
      · rw [hw'.registry]
        simp [hclosing]
      · exact (hleft r hr).imp_left (List.mem_append_left _)
    · rename_i hopen
      rw [cleanUp_released_iff hentered' hleft, hmcp, hw'.registry]
      refine and_congr_left fun _ => ?_
      rw [hsonic]
      simp only [Bool.and_eq_true, hsonic, not_and, Bool.not_eq_true] at hopen
      exact ⟨fun h hs _ => h hs hnotClosed, fun h hs _ => h hs (hopen hs)⟩
  · obtain ⟨r, w', hrun, hw'⟩ := builder_error hbuilder w
    rw [hprog, exitWorld_bind_error hrun]
    exact iff_of_false (hentered.of_registry hw').not_released fun h => hbuilder h.1

/-- Attaching the history keeps the call entered, and returns unless it is cancelled. -/
theorem attachHistory_ok (hentered : Entered callId i w)
    (h : w.registry.history = true → p.raises .attach ≠ some .cancelled) :
    ∃ registry, attachHistory p i w = .ok () { w with registry } ∧
      Entered callId i { w with registry } ∧ registry.history = w.registry.history := by
  obtain ⟨hsession, c, hc, -⟩ := hentered
  have hrunning : ∀ s : Registry, ∀ d, s.activeSessions callId = some i → s.calls[i]? = some d →
      Entered callId i { w with registry := s.modifyCall i fun c => { c with phase := .running } } := by
    intro s d hs hd
    refine ⟨hs, { d with phase := .running }, ?_, by simp⟩
    show (s.calls.modify i _)[i]? = _
    simp [hd]
  -- Without a meta nothing but the phase changes.
  have hplain : attachHistory p i w = .ok ()
      { w with registry := w.registry.modifyCall i fun c => { c with phase := .running } } →
      ∃ registry, attachHistory p i w = .ok () { w with registry } ∧
        Entered callId i { w with registry } ∧ registry.history = w.registry.history :=
    fun hrun => ⟨_, hrun, hrunning w.registry c hsession hc, rfl⟩
  cases hhistory : w.registry.history with
  | false =>
    rw [← hhistory]
    refine hplain ?_
    show (if w.registry.history = true then _ else _ : EndpointM Unit) w = _
    rw [if_neg (by simp [hhistory])]
    rfl
  | true =>
    have hprog : attachHistory p i w = (do
        exceptException do
          call p .attach
          modifyRegistry fun s => (s.calls[i]?.map (s.attach i)).getD s
        modifyRegistry fun s => s.modifyCall i fun c => { c with phase := .running } :
          EndpointM Unit) w := by
      show (if w.registry.history = true then _ else _ : EndpointM Unit) w = _
      rw [if_pos hhistory]
    -- With a history the attachment returns, or its exception is swallowed.
    cases hattach : p.raises .attach with
    | none =>
      have hcall : (do
          call p .attach
          modifyRegistry fun s => (s.calls[i]?.map (s.attach i)).getD s : EndpointM Unit) w =
            .ok () { w with registry := w.registry.attach i c } := by
        rw [bind_ok (call_ok hattach w)]
        show EStateM.Result.ok () { w with registry := (w.registry.calls[i]?.map _).getD _ } = _
        rw [hc]
        rfl
      rw [hprog, bind_ok (exceptException_ok hcall)]
      refine ⟨_, rfl, hrunning (w.registry.attach i c)
        { c with phase := .running, callMeta := some (Registry.attachedMeta c) } ?_ ?_, ?_⟩
      · rw [Registry.attach, if_pos hhistory]
        exact hsession
      · rw [Registry.attach, if_pos hhistory]
        show (w.registry.calls.modify i _)[i]? = _
        simp [hc]
      · rw [Registry.attach, if_pos hhistory]
        exact hhistory
    | some r =>
      have hcall := bind_error (call_error hattach w) fun _ => modifyRegistry fun s =>
        (s.calls[i]?.map (s.attach i)).getD s
      cases r with
      | exception =>
        rw [← hhistory]
        refine hplain ?_
        rw [hprog, bind_ok (exceptException_exception hcall)]
        rfl
      | cancelled => exact absurd hattach (h hhistory)

/-- An attachment that is cancelled ends the endpoint. -/
theorem attachHistory_error (hhistory : w.registry.history = true)
    (h : p.raises .attach = some .cancelled) : ∃ r, attachHistory p i w = .error r w := by
  have hcall := bind_error (call_error h w) fun _ => modifyRegistry fun s =>
    (s.calls[i]?.map (s.attach i)).getD s
  refine ⟨.cancelled, ?_⟩
  show (if w.registry.history = true then _ else _ : EndpointM Unit) w = _
  rw [if_pos hhistory]
  exact bind_error (exceptException_cancelled hcall) _

/-- A step before the builder that may raise. -/
theorem released_call_iff {step : Step} {x : EndpointM Unit} (hentered : Entered callId i w) :
    Released callId i (exitWorld (do call p step; x) w) ↔
      p.raises step = none ∧ Released callId i (exitWorld x w) := by
  cases h : p.raises step with
  | none =>
    rw [exitWorld_bind_ok (call_ok h w)]
    simp
  | some r =>
    rw [exitWorld_bind_error (call_error h w)]
    exact iff_of_false hentered.not_released fun h => by cases h.1

/-- The attachment before the builder. -/
theorem released_attachHistory_iff {x : EndpointM Unit} {Q : Prop} (hentered : Entered callId i w)
    (hx : ∀ registry, Entered callId i { w with registry } →
      registry.history = w.registry.history →
      (Released callId i (exitWorld x { w with registry }) ↔ Q)) :
    Released callId i (exitWorld (do attachHistory p i; x) w) ↔
      (w.registry.history = true → p.raises .attach ≠ some .cancelled) ∧ Q := by
  by_cases h : w.registry.history = true → p.raises .attach ≠ some .cancelled
  · obtain ⟨registry, hrun, hentered', hhistory⟩ := attachHistory_ok hentered h
    rw [exitWorld_bind_ok hrun, hx registry hentered' hhistory, and_iff_right h]
  · rw [Classical.not_imp, not_not] at h
    obtain ⟨r, hrun⟩ := attachHistory_error (i := i) h.1 h.2
    rw [exitWorld_bind_error hrun]
    exact iff_of_false hentered.not_released fun hreleased => hreleased.1 h.1 h.2

end CleanUp

/-! ### Calls -/

section Calls

variable {p : Plan} {registry : Registry} {door : Door} {caller : Option String} {now : ℚ}
  {launch : Launch}

/-- The world before an endpoint. -/
def World.start (registry : Registry) : World := ⟨registry, [], []⟩

/-- A call that has registered its session is entered. -/
theorem entered_sessionRegister :
    Entered door.callId registry.calls.length
      (World.start (registry.sessionRegister door caller now launch)) := by
  refine ⟨Function.update_self .., _, List.getElem?_concat_length, ?_⟩
  simp [registeredCall]

/-- The parts of `Orderly` in the order of the endpoints. -/
theorem Plan.orderly_iff {history : Bool} :
    p.Orderly history ↔ p.raises .descriptors = none ∧ p.raises .activityStart = none ∧
      (history = true → p.raises .attach ≠ some .cancelled) ∧ p.BuilderReturns ∧
        (p.sonic = false → p.sessionClosed = false → p.raises .closeAio = none) ∧
        (∀ x ∈ p.servers.zipIdx, p.Connects x.2 x.1 →
          p.raises (.closeMcp x.2) ≠ some .cancelled) ∧
        (history = true → p.raises .schedule = none) :=
  ⟨fun h => ⟨h.descriptors, h.activityStart, h.attach, h.builder, h.closeAio, h.closeMcp, h.schedule⟩,
    fun ⟨h₁, h₂, h₃, h₄, h₅, h₆, h₇⟩ => ⟨h₁, h₂, h₃, h₄, h₅, h₆, h₇⟩⟩

/-- `os.environ["MINIMAX_API_KEY"]` raises, after the HTTP session has been opened. -/
def missingKey : Plan where
  raises step := if step = .tts then some .exception else none
  sonic := false
  servers := []
  sessionClosed := false

/-- A web call with a voice of MiniMax on a server without its key stays registered. -/
theorem not_released_missingKey :
    ¬ Released "a" 0 (exitWorld
      (wsEndpoint missingKey (some "a") 0 none 1000
        { engine := "pipeline", lang := "en-US", scenario := "default", provider := "minimax",
          voice := "default", model := "default", minimaxModel := "default", webUser := some "alice" })
      (World.start (Registry.init true))) := by
  intro h
  have hactive := h.session
  revert hactive
  decide

/-- A web call is released exactly if its run is orderly. -/
theorem wsEndpoint_released_iff (requested : Option String) (millis : ℕ) :
    Released (Door.web requested millis).callId registry.calls.length
        (exitWorld (wsEndpoint p requested millis caller now launch) (World.start registry)) ↔
      p.Orderly registry.history := by
  have hentered : Entered (Door.web requested millis).callId registry.calls.length
      (World.start (registry.sessionRegister (.web requested millis) caller now launch)) :=
    entered_sessionRegister
  have hprog : exitWorld (wsEndpoint p requested millis caller now launch) (World.start registry) =
      exitWorld (do
          call p .descriptors
          attachHistory p registry.calls.length
          call p .activityStart
          runTask p (Door.web requested millis).callId registry.calls.length)
        (World.start (registry.sessionRegister (.web requested millis) caller now launch)) := rfl
  -- Step by step, each of which may raise.
  rw [hprog, released_call_iff hentered, Plan.orderly_iff]
  refine and_congr_right fun _ => ?_
  rw [and_left_comm]
  refine released_attachHistory_iff hentered fun registry' hentered' hhistory => ?_
  rw [released_call_iff hentered', runTask_released_iff hentered' rfl rfl, hhistory]
  rfl

/-- A phone call is released exactly if its run is orderly. -/
theorem phoneEndpoint_released_iff :
    Released door.callId registry.calls.length
        (exitWorld (phoneEndpoint p door caller now launch) (World.start registry)) ↔
      p.Orderly registry.history := by
  have hentered : Entered door.callId registry.calls.length
      (World.start (registry.sessionRegister door caller now launch)) := entered_sessionRegister
  have hprog : exitWorld (phoneEndpoint p door caller now launch) (World.start registry) =
      exitWorld (do
          call p .descriptors
          call p .activityStart
          attachHistory p registry.calls.length
          runTask p door.callId registry.calls.length)
        (World.start (registry.sessionRegister door caller now launch)) := rfl
  -- Step by step, each of which may raise.
  rw [hprog, released_call_iff hentered, released_call_iff hentered, Plan.orderly_iff]
  refine and_congr_right fun _ => and_congr_right fun _ => ?_
  refine released_attachHistory_iff hentered fun registry' hentered' hhistory => ?_
  rw [runTask_released_iff hentered' rfl rfl, hhistory]
  rfl

end Calls

/-! ### Monitors -/

section Monitors

variable {s s' : Registry} {p : Plan}

/-- References lead to calls, and emits of monitors come from monitors that have been there. -/
structure Sound (s : Registry) : Prop where
  valid : ∀ callId i, s.activeSessions callId = some i → i < s.calls.length
  fresh : ∀ session ∈ s.calls.map Call.session, ∀ m, Emit.monitor m ∈ session.emits →
    m < s.watchers.length

/-- A step that changes no session and registers none. -/
structure Quiet (s s' : Registry) : Prop where
  sessions : s'.calls.map Call.session = s.calls.map Call.session
  watchers : s'.watchers = s.watchers
  active : ∀ callId i, s'.activeSessions callId = some i → s.activeSessions callId = some i

theorem Quiet.refl (s : Registry) : Quiet s s := ⟨rfl, rfl, fun _ _ h => h⟩

theorem Quiet.trans {s'' : Registry} (h : Quiet s s') (h' : Quiet s' s'') : Quiet s s'' :=
  ⟨h'.sessions.trans h.sessions, h'.watchers.trans h.watchers,
    fun callId i hi => h.active callId i (h'.active callId i hi)⟩

theorem Quiet.sound (h : Quiet s s') (hs : Sound s) : Sound s' where
  valid callId i hi := by
    have hlength := congrArg List.length h.sessions
    simp only [List.length_map] at hlength
    rw [hlength]
    exact hs.valid callId i (h.active callId i hi)
  fresh session hsession m hm := by
    rw [h.watchers]
    exact hs.fresh session (h.sessions ▸ hsession) m hm

/-- A change of calls that keeps their sessions. -/
theorem quiet_modifyCall (i : ℕ) {f : Call → Call} (hf : ∀ c, (f c).session = c.session) :
    Quiet s (s.modifyCall i f) where
  sessions := by
    refine List.ext_getElem? fun j => ?_
    simp only [List.getElem?_map, Registry.calls_modifyCall]
    split
    · simp [Option.map_map, Function.comp_def, hf]
    · rfl
  watchers := rfl
  active _ _ h := h

theorem quiet_attach (i : ℕ) (c : Call) : Quiet s (s.attach i c) := by
  have hrunning := quiet_modifyCall (s := s) i
    (f := fun c => { c with phase := .running, callMeta := some (Registry.attachedMeta c) })
    fun _ => rfl
  unfold Registry.attach
  split
  · exact ⟨hrunning.sessions, rfl, fun _ _ h => h⟩
  · exact quiet_modifyCall i fun _ => rfl

theorem quiet_outcomePut (held : ℕ) (ok : Bool) : Quiet s (s.outcomePut held ok) := by
  cases ok with
  | false => exact .refl s
  | true => exact quiet_modifyCall held fun _ => rfl

theorem quiet_popHistory (i : ℕ) (callId : String) : Quiet s (s.popHistory i callId) := by
  have hflushed := quiet_modifyCall (s := s) i (f := fun c => { c with phase := .flushed })
    fun _ => rfl
  exact ⟨hflushed.sessions, rfl, fun _ _ h => h⟩

/-- A call's steps change no session. -/
theorem quiet_callStep (i : ℕ) (c : Call) (e : Event) : Quiet s (s.callStep i c e) := by
  have hrefl := Quiet.refl s
  cases e with
  | «attach» j =>
    simp only [Registry.callStep]
    split
    · exact quiet_attach i c
    · exact hrefl
  | append j turn =>
    simp only [Registry.callStep]
    split
    · exact ⟨rfl, rfl, fun _ _ h => h⟩
    · exact hrefl
  | transfer j topic =>
    simp only [Registry.callStep, Registry.markTransfer]
    split
    · split
      · exact hrefl
      · exact quiet_modifyCall _ fun _ => rfl
    · exact hrefl
  | outcome j =>
    simp only [Registry.callStep]
    split
    · split
      · exact hrefl
      · exact quiet_modifyCall _ fun _ => rfl
    · exact hrefl
  -- The put comes from a writer that leaves the list; neither touches a session.
  | outcomePut j k ok =>
    simp only [Registry.callStep]
    split
    · exact hrefl
    · have hwriters := quiet_modifyCall (s := s) i
        (f := fun c => { c with writers := c.writers.eraseIdx k }) fun _ => rfl
      exact hwriters.trans (quiet_outcomePut _ ok)
  | hangUp j =>
    simp only [Registry.callStep]
    split
    · have hphase := quiet_modifyCall (s := s.sessionUnregister c.callId) i
        (f := fun c => { c with phase := if s.history then .closing else .flushed }) fun _ => rfl
      -- A hang-up takes out the session of its own id.
      have hunregister : Quiet s (s.sessionUnregister c.callId) := by
        refine ⟨rfl, rfl, fun callId k hk => ?_⟩
        have hk : Function.update s.activeSessions c.callId none callId = some k := hk
        rw [Function.update_apply] at hk
        split at hk
        · cases hk
        · exact hk
      exact hunregister.trans hphase
    · exact hrefl
  | flush j =>
    simp only [Registry.callStep]
    split
    · split
      · exact quiet_popHistory i _
      · exact quiet_modifyCall i fun _ => rfl
    · exact hrefl
  | flushPut j ok =>
    simp only [Registry.callStep]
    split
    · exact (quiet_outcomePut _ ok).trans (quiet_popHistory i _)
    · exact hrefl
  | _ => exact hrefl

/-- The registration of a session. -/
theorem Sound.sessionRegister (hs : Sound s) (door : Door) (caller : Option String) (now : ℚ)
    (launch : Launch) : Sound (s.sessionRegister door caller now launch) where
  valid callId i hi := by
    have hi : Function.update s.activeSessions door.callId (some s.calls.length) callId = some i := hi
    have hlength : (s.sessionRegister door caller now launch).calls.length = s.calls.length + 1 :=
      List.length_append
    rw [hlength]
    rw [Function.update_apply] at hi
    split at hi
    · exact (Option.some.inj hi).symm ▸ Nat.lt_succ_self _
    · exact (hs.valid callId i hi).trans (Nat.lt_succ_self _)
  fresh session hsession m hm := by
    have hsession : session ∈ (s.calls ++ [registeredCall _ door caller now launch]).map _ := hsession
    rw [List.map_append, List.mem_append] at hsession
    -- The new session has its own emit only.
    rcases hsession with hsession | hsession
    · exact hs.fresh session hsession m hm
    · rw [List.map_singleton, List.mem_singleton] at hsession
      subst hsession
      simp [registeredCall] at hm

/-- A change of one session's emits by a monitor that is there. -/
theorem Sound.modifySession (hs : Sound s) {watchers : List Monitor} {k : ℕ}
    {f : Session → Session} (hwatchers : s.watchers.length ≤ watchers.length)
    (hf : ∀ session m, Emit.monitor m ∈ (f session).emits →
      Emit.monitor m ∈ session.emits ∨ m < watchers.length) :
    Sound { s.modifyCall k fun c => { c with session := f c.session } with watchers } where
  valid callId i hi := by
    have hlength : (s.calls.modify k fun c => { c with session := f c.session }).length =
        s.calls.length := List.length_modify ..
    exact (hs.valid callId i hi).trans_eq hlength.symm
  fresh session hsession m hm := by
    obtain ⟨c, hc, rfl⟩ := List.mem_map.mp hsession
    obtain ⟨j, hj⟩ := List.mem_iff_getElem?.mp hc
    have hj : (s.modifyCall k fun c => { c with session := f c.session }).calls[j]? = some c := hj
    rw [Registry.calls_modifyCall] at hj
    split at hj
    · obtain ⟨d, hd, rfl⟩ := Option.map_eq_some_iff.mp hj
      -- The emit was there, or it belongs to a monitor that has come in.
      rcases hf _ m hm with hm | hm
      · exact (hs.fresh _ (List.mem_map_of_mem (List.mem_of_getElem? hd)) m hm).trans_le hwatchers
      · exact hm
    · exact (hs.fresh _ (List.mem_map_of_mem (List.mem_of_getElem? hj)) m hm).trans_le hwatchers

theorem Sound.attachMonitor (hs : Sound s) (callId : String) :
    Sound (s.sessionAttachMonitor callId) := by
  unfold Registry.sessionAttachMonitor
  split
  · exact ⟨hs.valid, fun session hsession m hm =>
      (hs.fresh session hsession m hm).trans_le (by simp)⟩
  · refine hs.modifySession (by simp) (f := fun session =>
      { session with
        emits := session.emits ++ [.monitor s.watchers.length]
        monitors := session.monitors ++ [.monitor s.watchers.length] }) fun session m hm => ?_
    rcases List.mem_append.mp hm with hm | hm
    · exact Or.inl hm
    · have hm : m = s.watchers.length := by simpa using hm
      exact Or.inr (by simp [hm])

theorem Sound.detachMonitor (hs : Sound s) (callId : String) (emit : Emit) :
    Sound (s.sessionDetachMonitor callId emit) := by
  unfold Registry.sessionDetachMonitor
  split
  · exact hs
  · exact hs.modifySession le_rfl (f := fun session =>
      { session with
        emits := session.emits.erase emit
        monitors := session.monitors.erase emit }) fun session m hm =>
      Or.inl (List.mem_of_mem_erase hm)

/-- Every step keeps the references and the emits sound. -/
theorem Sound.step (hs : Sound s) (e : Event) : Sound (s.step e) := by
  unfold Registry.step
  split
  · split
    · exact (quiet_callStep _ _ e).sound hs
    · exact hs
  · split
    · unfold Registry.connect
      rename_i door caller now launch _
      cases door with
      | web requested millis => exact (quiet_attach _ _).sound (hs.sessionRegister ..)
      | phone requested millis => exact hs.sessionRegister ..
      | twilio streamSid => exact hs.sessionRegister ..
    · exact hs.attachMonitor _
    · split
      · split
        · exact hs.detachMonitor ..
        · exact hs
      · exact hs
    · exact hs

theorem sound_init (history : Bool) : Sound (Registry.init history) := by
  constructor <;> simp [Registry.init]

/-- A monitor's emit before the monitor comes. -/
theorem Sound.not_mem_emits (hs : Sound s) (callId : String) :
    Emit.monitor s.watchers.length ∉ s.sessionEmits callId := by
  intro hmem
  unfold Registry.sessionEmits at hmem
  cases hsession : s.session? callId with
  | none => simp [hsession] at hmem
  | some session =>
    obtain ⟨i, -, hi⟩ := Option.bind_eq_some_iff.mp hsession
    obtain ⟨c, hc, hi⟩ := Option.bind_eq_some_iff.mp hi
    obtain rfl := Option.some.inj hi
    simp only [hsession, Option.map_some, Option.getD_some] at hmem
    exact lt_irrefl _ (hs.fresh _ (List.mem_map_of_mem (List.mem_of_getElem? hc)) _ hmem)

/-- The emits of the session that a reference leads to. -/
theorem sessionEmits_of_active {callId : String} {i : ℕ} (h : s.activeSessions callId = some i) :
    s.sessionEmits callId = ((s.calls[i]?.map Call.session).map Session.emits).getD [] := by
  simp only [Registry.sessionEmits, Registry.session?, h, bind, Option.bind]
  cases s.calls[i]? <;> rfl

theorem sessionEmits_of_none {callId : String} (h : s.activeSessions callId = none) :
    s.sessionEmits callId = [] := by
  simp [Registry.sessionEmits, Registry.session?, h]

/-- The monitor's emit is at the end of those of the session it watches. -/
theorem mem_attach (hs : Sound s) {watched : String} {k : ℕ}
    (hk : s.activeSessions watched = some k) :
    Emit.monitor s.watchers.length ∈ (s.sessionAttachMonitor watched).sessionEmits watched := by
  have hactive : (s.sessionAttachMonitor watched).activeSessions watched = some k := by
    simp only [Registry.sessionAttachMonitor, hk]
    exact hk
  obtain ⟨c, hc⟩ : ∃ c, s.calls[k]? = some c :=
    ⟨_, List.getElem?_eq_getElem (hs.valid watched k hk)⟩
  have hcall : (s.sessionAttachMonitor watched).calls[k]? = some
      { c with
        session.emits := c.session.emits ++ [.monitor s.watchers.length]
        session.monitors := c.session.monitors ++ [.monitor s.watchers.length] } := by
    simp only [Registry.sessionAttachMonitor, hk, Registry.calls_modifyCall, if_pos, hc,
      Option.map_some]
  rw [sessionEmits_of_active hactive, hcall]
  simp

/-- A monitor that leaves takes its emit out of every session. -/
theorem not_mem_detach (hs : Sound s) {watched : String} {k : ℕ}
    (hk : s.activeSessions watched = some k) (callId : String) :
    Emit.monitor s.watchers.length ∉ ((s.sessionAttachMonitor watched).sessionDetachMonitor watched
      (.monitor s.watchers.length)).sessionEmits callId := by
  have hactive : (s.sessionAttachMonitor watched).activeSessions = s.activeSessions := by
    simp only [Registry.sessionAttachMonitor, hk]
    rfl
  have hactive' : ((s.sessionAttachMonitor watched).sessionDetachMonitor watched
      (.monitor s.watchers.length)).activeSessions = s.activeSessions := by
    simp only [Registry.sessionDetachMonitor, hactive, hk]
    exact hactive
  cases hi : s.activeSessions callId with
  | none =>
    rw [sessionEmits_of_none (by rw [hactive', hi])]
    exact List.not_mem_nil
  | some i =>
    -- The emit of the monitor is new, so it is erased where it was appended.
    have hfresh := hs.not_mem_emits callId
    rw [sessionEmits_of_active hi] at hfresh
    rw [sessionEmits_of_active (by rw [hactive', hi])]
    simp only [Registry.sessionDetachMonitor, hactive, hk, Registry.calls_modifyCall]
    simp only [Registry.sessionAttachMonitor, hk, Registry.calls_modifyCall]
    cases hc : s.calls[i]? with
    | none => simp
    | some c =>
      rw [hc] at hfresh
      have hfresh : Emit.monitor s.watchers.length ∉ c.session.emits := hfresh
      split
      · simp [List.erase_append_right _ hfresh, hfresh]
      · exact hfresh

/-- A monitor's emit is gone exactly if the monitor found no session or its first message was sent. -/
theorem monitorWsEndpoint_released_iff (hs : Sound s) (watched : String) :
    MonitorReleased s.watchers.length (exitWorld (monitorWsEndpoint p watched) (World.start s)) ↔
      s.activeSessions watched = none ∨ p.raises .sendAttached = none := by
  let w₁ := World.start (s.sessionAttachMonitor watched)
  have hprog : exitWorld (monitorWsEndpoint p watched) (World.start s) =
      exitWorld (do
          call p .sendAttached
          if (s.activeSessions watched).isSome then
            tryFinally (listen p) (modifyRegistry fun r =>
              r.sessionDetachMonitor watched (.monitor s.watchers.length))) w₁ := rfl
  rw [hprog]
  cases hk : s.activeSessions watched with
  | none =>
    have hexit : exitWorld (do
        call p .sendAttached
        if (none : Option ℕ).isSome then
          tryFinally (listen p) (modifyRegistry fun r =>
            r.sessionDetachMonitor watched (.monitor s.watchers.length))) w₁ = w₁ := by
      cases h : p.raises .sendAttached with
      | none => exact exitWorld_bind_ok (call_ok h w₁) _
      | some r => exact exitWorld_bind_error (call_error h w₁) _
    rw [hexit]
    refine iff_of_true (fun callId => ?_) (Or.inl rfl)
    -- A monitor that finds no session is attached to none.
    have hsame : w₁.registry.sessionEmits callId = s.sessionEmits callId := by
      show (s.sessionAttachMonitor watched).sessionEmits callId = _
      simp only [Registry.sessionAttachMonitor, hk]
      rfl
    rw [hsame]
    exact hs.not_mem_emits callId
  | some k =>
    have hlisten : ∀ w, exitWorld (listen p) w = w := by
      intro w
      simp only [listen]
      split <;> rfl
    cases h : p.raises .sendAttached with
    | none =>
      rw [exitWorld_bind_ok (call_ok h w₁)]
      refine iff_of_true (fun callId => ?_) (Or.inr rfl)
      show Emit.monitor s.watchers.length ∉ (exitWorld (tryFinally (listen p) _) w₁).registry.sessionEmits _
      rw [exitWorld_tryFinally, hlisten]
      exact not_mem_detach hs hk callId
    | some r =>
      rw [exitWorld_bind_error (call_error h w₁)]
      refine iff_of_false (fun hreleased => hreleased watched (mem_attach hs hk)) ?_
      simp

end Monitors

/-- After any run of the registry, a web call, a phone call and a monitor that come in leave nothing
behind exactly under these conditions, however their steps return or raise. -/
theorem released_iff (history : Bool) (es : List Event) (p : Plan) :
    let s := Run.exec Registry.step (Registry.init history) es
    (∀ requested millis caller now launch,
      Released (Door.web requested millis).callId s.calls.length
          (exitWorld (wsEndpoint p requested millis caller now launch) (World.start s)) ↔
        p.Orderly s.history) ∧
    (∀ door caller now launch,
      Released door.callId s.calls.length
          (exitWorld (phoneEndpoint p door caller now launch) (World.start s)) ↔
        p.Orderly s.history) ∧
    (∀ callId,
      MonitorReleased s.watchers.length (exitWorld (monitorWsEndpoint p callId) (World.start s)) ↔
        s.activeSessions callId = none ∨ p.raises .sendAttached = none) := by
  intro s
  have hsound : Sound s :=
    Run.exec_invariant (I := Sound) (fun _ e hs => hs.step e) (sound_init history) es
  exact ⟨fun requested millis _ _ _ => wsEndpoint_released_iff requested millis,
    fun _ _ _ _ => phoneEndpoint_released_iff, fun callId => monitorWsEndpoint_released_iff hsound callId⟩

end Sessions
