import VoiceAgentPlatform.Sessions.Registry

/-!
# The endpoints of a call and of a monitor

`ws_endpoint`, `phone_ws_endpoint` with `_run_phone_session`, and `monitor_ws_endpoint` of `bot.py`,
from the registration on, as programs in which every step that is awaited or called may raise. The
steps of the other connections are not shown: they keep off the entries of this one as long as the ids
differ.

* `Step`: the steps that may raise; `Plan`: which of them do, and what the demo asks for.
* `World`: the registry, and what has been opened and closed.
* `buildPipeline`, `buildNovaSonicPipeline`: what the builders open.
* `wsEndpoint`, `phoneWsEndpoint`, `monitorWsEndpoint`.
-/

namespace Sessions

/-- What is raised: an `Exception`, or another `BaseException` such as a cancellation. -/
inductive Raised where
  | exception
  | cancelled
  deriving DecidableEq

/-- The steps that may raise. -/
inductive Step where
  /-- The runtime descriptors of the call: defaults, engine and voice. -/
  | descriptors
  | attach
  | activityStart
  /-- The builder before it opens anything: tools, prompts, credentials, transport, services. -/
  | prepare
  | aioSession
  | tts
  | toolsSchema
  /-- The parameters of the `k`-th MCP server. -/
  | mcpParams (k : ℕ)
  | mcpClient (k : ℕ)
  /-- `client.start()` and `client.get_tools_schema()`. -/
  | mcpStart (k : ℕ)
  /-- The builder after the MCP clients are connected: context, aggregators, pipeline, handlers. -/
  | assemble
  | run
  | closeAio
  | closeMcp (k : ℕ)
  | schedule
  | activityEnd
  /-- The first message to the monitor. -/
  | sendAttached
  /-- Reading the monitor's socket until it ends. -/
  | listen
  deriving DecidableEq

/-- An MCP server that a demo mounts. -/
structure Server where
  /-- It is configured and enabled. -/
  enabled : Bool
  sigv4 : Bool

/-- How a run goes. -/
structure Plan where
  raises : Step → Option Raised
  sonic : Bool
  servers : List Server
  /-- The run of the pipeline closes the HTTP session. -/
  sessionClosed : Bool

/-- What a builder opens. -/
inductive Resource where
  | aioSession
  | mcpClient (k : ℕ)
  deriving DecidableEq

/-- The registry, and what this connection has opened and has closed or tried to close. -/
structure World where
  registry : Registry
  opened : List Resource
  closed : List Resource

/-- A program of an endpoint. -/
abbrev EndpointM := EStateM Raised World

/-- The world in which an endpoint exits. -/
def exitWorld {α : Type} (x : EndpointM α) (w : World) : World :=
  match x w with
  | .ok _ w => w
  | .error _ w => w

/-- A step that may raise. -/
def call (p : Plan) (step : Step) : EndpointM Unit :=
  match p.raises step with
  | none => pure ()
  | some r => throw r

/-- `try: … except Exception: …`. -/
def exceptException (x : EndpointM Unit) : EndpointM Unit :=
  tryCatch x fun r => match r with
    | .exception => pure ()
    | .cancelled => throw .cancelled

def acquire (r : Resource) : EndpointM Unit :=
  modify fun w => { w with opened := w.opened ++ [r] }

/-- Close, or try to. -/
def release (r : Resource) : EndpointM Unit :=
  modify fun w => { w with closed := w.closed ++ [r] }

def modifyRegistry (f : Registry → Registry) : EndpointM Unit :=
  modify fun w => { w with registry := f w.registry }

/-! ### The builders -/

/-- What a builder returns of its task. -/
structure PipelineTask where
  /-- `_aio_session is not None`. -/
  aioSession : Bool
  mcpClients : List ℕ

/-- The parameters of an MCP server; `false` when the server is skipped. -/
def mcpParams (p : Plan) (k : ℕ) (server : Server) : EndpointM Bool :=
  if server.sigv4 then
    match p.raises (.mcpParams k) with
    | none => pure true
    -- Credentials that cannot be had skip the server, a cancellation goes on.
    | some .exception => pure false
    | some .cancelled => throw .cancelled
  else do
    call p (.mcpParams k)
    return true

/-- `_connect_mcp_clients`, from the `k`-th server on. -/
def connectMcpClients (p : Plan) : ℕ → List Server → EndpointM (List ℕ)
  | _, [] => pure []
  | k, server :: rest => do
    if server.enabled = false then connectMcpClients p (k + 1) rest
    else
      let ready ← mcpParams p k server
      if ready = false then connectMcpClients p (k + 1) rest
      else
        call p (.mcpClient k)
        acquire (.mcpClient k)
        match p.raises (.mcpStart k) with
        | some _ =>
          -- Every `BaseException` is caught, and the one of `close` suppressed.
          release (.mcpClient k)
          connectMcpClients p (k + 1) rest
        | none =>
          let clients ← connectMcpClients p (k + 1) rest
          return k :: clients

/-- `_build_nova_sonic_pipeline`. -/
def buildNovaSonicPipeline (p : Plan) : EndpointM PipelineTask := do
  call p .prepare
  call p .toolsSchema
  let clients ← connectMcpClients p 0 p.servers
  call p .assemble
  return { aioSession := false, mcpClients := clients }

/-- `_build_pipeline`. -/
def buildPipeline (p : Plan) : EndpointM PipelineTask := do
  call p .prepare
  call p .aioSession
  -- From here on a step that raises leaves the session open.
  acquire .aioSession
  call p .tts
  call p .toolsSchema
  let clients ← connectMcpClients p 0 p.servers
  call p .assemble
  return { aioSession := true, mcpClients := clients }

/-- The builder of the call's engine. -/
def builder (p : Plan) : EndpointM PipelineTask :=
  if p.sonic then buildNovaSonicPipeline p else buildPipeline p

/-! ### A call -/

/-- `_history.attach`, where there is a recorder. -/
def attachHistory (p : Plan) (i : ℕ) : EndpointM Unit := do
  let w ← get
  if w.registry.history then
    exceptException do
      call p .attach
      modifyRegistry fun s => (s.calls[i]?.map (s.attach i)).getD s
  modifyRegistry fun s => s.modifyCall i fun c => { c with phase := .running }

/-- `PipelineRunner.run`. -/
def runPipeline (p : Plan) (task : PipelineTask) : EndpointM Unit := do
  if task.aioSession && p.sessionClosed then release .aioSession
  call p .run

/-- The MCP clients are closed one after the other. -/
def closeMcpClients (p : Plan) : List ℕ → EndpointM Unit
  | [] => pure ()
  | k :: rest => do
    release (.mcpClient k)
    exceptException (call p (.closeMcp k))
    closeMcpClients p rest

/-- `asyncio.create_task(_history.flush_turns_and_summarize(call_id))`. -/
def scheduleFlush (p : Plan) (i : ℕ) : EndpointM Unit := do
  let w ← get
  if w.registry.history then
    exceptException do
      call p .schedule
      modifyRegistry fun s => s.modifyCall i fun c => { c with phase := .closing }
  else modifyRegistry fun s => s.modifyCall i fun c => { c with phase := .flushed }

/-- The `finally` of a call. -/
def cleanUp (p : Plan) (callId : String) (i : ℕ) (task : PipelineTask) : EndpointM Unit := do
  let w ← get
  -- `session and not session.closed`
  if task.aioSession && !w.closed.contains .aioSession then
    release .aioSession
    call p .closeAio
  closeMcpClients p task.mcpClients
  modifyRegistry fun s => s.sessionUnregister callId
  scheduleFlush p i
  call p .activityEnd

/-- From the builder to the end of the call. -/
def runTask (p : Plan) (callId : String) (i : ℕ) : EndpointM Unit := do
  let task ← builder p
  tryFinally (runPipeline p task) (cleanUp p callId i task)

/-- `ws_endpoint`, from the registration on. -/
def wsEndpoint (p : Plan) (requested : Option String) (millis : ℕ) (caller : Option String)
    (now : ℚ) (launch : Launch) : EndpointM Unit := do
  let w ← get
  let door := Door.web requested millis
  let i := w.registry.calls.length
  modifyRegistry fun s => s.sessionRegister door caller now launch
  -- The session is registered before the steps that can raise.
  call p .descriptors
  attachHistory p i
  call p .activityStart
  runTask p door.callId i

/-- `_run_phone_session`. -/
def runPhoneSession (p : Plan) (callId : String) (i : ℕ) : EndpointM Unit := do
  call p .descriptors
  call p .activityStart
  attachHistory p i
  runTask p callId i

/-- `phone_ws_endpoint` and `twilio_media_stream`, from the registration on. -/
def phoneEndpoint (p : Plan) (door : Door) (caller : Option String) (now : ℚ) (launch : Launch) :
    EndpointM Unit := do
  let w ← get
  let i := w.registry.calls.length
  modifyRegistry fun s => s.sessionRegister door caller now launch
  runPhoneSession p door.callId i

/-! ### A monitor -/

/-- Reading the monitor's socket: an `Exception` ends the loop. -/
def listen (p : Plan) : EndpointM Unit :=
  match p.raises .listen with
  | some .cancelled => throw .cancelled
  | _ => pure ()

/-- `monitor_ws_endpoint`, from `session_attach_monitor` on. -/
def monitorWsEndpoint (p : Plan) (callId : String) : EndpointM Unit := do
  let w ← get
  modifyRegistry fun s => s.sessionAttachMonitor callId
  -- Attached or not, a message is sent first.
  call p .sendAttached
  if (w.registry.activeSessions callId).isSome then
    tryFinally (listen p)
      (modifyRegistry fun s => s.sessionDetachMonitor callId (.monitor w.registry.watchers.length))

end Sessions
