import VoiceAgentPlatform.VoiceServer.PortPool
import VoiceAgentPlatform.VoiceServer.RtpSession
import VoiceAgentPlatform.VoiceServer.SipParser

/-!
# SIP server

The user agent server of `sip-server.ts` as an event-driven system. Every handler runs to its end
in one step except `handleInvite`, which is suspended at `await rtpSession.start()`; between the
two halves any other event can be handled, further INVITEs with the same Call-ID included.

* `SipServer` is the state of the server object, with the `RtpSession` objects it has created
  (`rtpSessions`, referred to by position), the suspended `handleInvite` calls (`invites`, `none`
  once resumed) and the record of what it sent and which callbacks it fired (`log`).
* `SipEvent` lists what can happen: a datagram arrives, the `start()` of a suspended INVITE
  resolves or rejects, the application ends a call.
* `step` is the transition function.

Random values (tags, branches, SDP session numbers) come with the event that draws them.
-/

namespace VoiceServer

/-- The sender of a datagram. The operating system reports a usable UDP port. -/
structure RemoteInfo where
  address : String
  port : ℕ
  port_valid : 0 < port ∧ port < 65536

/-- An established call. -/
structure SipDialog where
  callId : String
  fromHeader : String
  toHeader : String
  localTag : String
  remoteTag : String
  remoteAddress : String
  remotePort : ℕ
  viaHeader : String
  cseq : ℤ
  /-- The position of the call's session in `rtpSessions`. -/
  rtpSession : ℕ
  rtpPort : ℕ
  remoteTarget : String
  recordRoutes : List String

/-- The local variables of a `handleInvite` call suspended at `await rtpSession.start()`. -/
structure PendingInvite where
  msg : SipMessage
  remote : RemoteInfo
  rtpPort : ℕ
  remoteIp : String
  remotePort : ℤ
  rtpSession : ℕ

/-- What `onIncomingCall` is told about a call. -/
structure IncomingCallInfo where
  callId : String
  callerPhone : String
  calleePhone : String
  rtpSession : ℕ
  remoteIp : String
  remotePort : ℤ
  deriving DecidableEq

/-- An observable effect: a datagram sent or a callback fired. -/
inductive Output where
  | response (r : SipResponse) (ip : String) (port : ℕ)
  | request (r : SipRequest) (ip : String) (port : ℤ)
  | incomingCall (call : IncomingCallInfo)
  | callEnded (callId reason : String)
  deriving DecidableEq

/-- The state of the SIP server. -/
structure SipServer where
  publicIp : String
  sipPort : ℕ
  portPool : PortPool
  /-- The established calls by Call-ID. -/
  dialogs : OrderedMap String SipDialog
  rtpSessions : List RtpSession
  invites : List (Option PendingInvite)
  log : List Output

/-- The Call-ID of the INVITE a suspended handler works on. -/
def PendingInvite.callId (inv : PendingInvite) : String := inv.msg.header "call-id"

namespace SipServer

/-- A server that has just been started. -/
def new (publicIp : String) (sipPort rtpPortBase rtpPortCount : ℕ) : SipServer :=
  { publicIp
    sipPort := if sipPort = 0 then 5060 else sipPort
    portPool := PortPool.new rtpPortBase rtpPortCount
    dialogs := ∅
    rtpSessions := []
    invites := []
    log := [] }

/-- Record an observable effect. -/
def emit (s : SipServer) (o : Output) : SipServer := { s with log := s.log ++ [o] }

/-- The Via and Record-Route lines of a request, to be echoed in its responses. -/
def getEchoHeaders (msg : SipMessage) : List String :=
  msg.rawHeaders.filter fun line =>
    let lowerLine := JsText.toLower line.toList
    JsText.startsWith "via:".toList lowerLine || JsText.startsWith "v:".toList lowerLine ||
      JsText.startsWith "record-route:".toList lowerLine

/-- The To header of a response that establishes a dialog. -/
def toWithTag (toHeader localTag : String) : String :=
  if JsText.includes ";tag=".toList toHeader.toList then toHeader
  else toHeader ++ ";tag=" ++ localTag

/-- The 200 response to an INVITE, with an SDP body. -/
def okWithSdp (s : SipServer) (msg : SipMessage) (sdpBody localTag : String) : SipResponse :=
  { statusCode := 200
    reasonPhrase := "OK"
    rawHeaderLines := getEchoHeaders msg
    headers :=
      [("From", msg.header "from"),
        ("To", toWithTag (msg.header "to") localTag),
        ("Call-ID", msg.header "call-id"),
        ("CSeq", msg.header "cseq"),
        ("Contact", "<sip:" ++ s.publicIp ++ ":" ++ toString s.sipPort ++ ">"),
        ("Content-Type", "application/sdp"),
        ("Allow", "INVITE, ACK, BYE, CANCEL, OPTIONS"),
        ("User-Agent", "voice-agent-platform/1.0")]
    body := sdpBody }

/-- Answer an INVITE with 200 and an SDP body. -/
def send200Ok (s : SipServer) (msg : SipMessage) (to_ : RemoteInfo) (sdpBody localTag : String) :
    SipServer :=
  s.emit (.response (s.okWithSdp msg sdpBody localTag) to_.address to_.port)

/-- A response without a body. -/
def responseTo (msg : SipMessage) (statusCode : ℕ) (reasonPhrase : String) : SipResponse :=
  { statusCode
    reasonPhrase
    rawHeaderLines := getEchoHeaders msg
    headers :=
      [("From", msg.header "from"),
        ("To", msg.header "to"),
        ("Call-ID", msg.header "call-id"),
        ("CSeq", msg.header "cseq"),
        ("User-Agent", "voice-agent-platform/1.0")]
    body := "" }

/-- Send a response without a body. -/
def sendResponse (s : SipServer) (msg : SipMessage) (statusCode : ℕ) (reasonPhrase : String)
    (to_ : RemoteInfo) : SipServer :=
  s.emit (.response (responseTo msg statusCode reasonPhrase) to_.address to_.port)

/-- Change one of the session objects. -/
def modifySession (s : SipServer) (i : ℕ) (f : RtpSession → RtpSession) : SipServer :=
  { s with rtpSessions := s.rtpSessions.modify i f }

/-- `dialog.rtpSession.getLocalPort()`. -/
def getLocalPort (s : SipServer) (i : ℕ) : ℕ := (s.rtpSessions[i]?.map RtpSession.localPort).getD 0

/-- Stop a dialog's session, give its port back and forget it. -/
def cleanupDialog (s : SipServer) (callId : String) : SipServer :=
  match s.dialogs.get? callId with
  | none => s
  | some dialog =>
    { s.modifySession dialog.rtpSession RtpSession.stop with
      portPool := s.portPool.release dialog.rtpPort
      dialogs := s.dialogs.delete callId }

/-- `handleInvite` up to its `await`: answer a re-INVITE, or reject the call, or take a port,
create a session and suspend until it has started. -/
def handleInvite (s : SipServer) (msg : SipMessage) (remote : RemoteInfo) (sdpSession : String) :
    SipServer :=
  match s.dialogs.get? (msg.header "call-id") with
  -- An INVITE of a known dialog is answered again, with the port it has.
  | some dialog =>
    let sdpAnswer := buildSdpAnswer s.publicIp (s.getLocalPort dialog.rtpSession) sdpSession
    s.send200Ok msg remote sdpAnswer dialog.localTag
  | none =>
    match s.portPool.allocate with
    | none => s.sendResponse msg 503 "Service Unavailable" remote
    | some (rtpPort, pool) =>
      let remoteSdp := parseSdp msg.body
      let remotePort := remoteSdp.remotePort.getD 0
      if remoteSdp.remoteIp = "" ∨ remotePort = 0 then
        -- The port is given back, as no session was made for it.
        { s with portPool := pool.release rtpPort }.sendResponse msg 400 "Bad Request" remote
      else
        let s := { s with portPool := pool }.sendResponse msg 100 "Trying" remote
        { s with
          rtpSessions := s.rtpSessions ++ [(RtpSession.new rtpPort).start]
          invites := s.invites ++ [some
            { msg, remote, rtpPort, remoteIp := remoteSdp.remoteIp, remotePort
              rtpSession := s.rtpSessions.length }] }

/-- The dialog `handleInvite` stores for a call it has accepted. -/
def dialogOf (inv : PendingInvite) (localTag : String) : SipDialog :=
  let msg := inv.msg
  let contactUri := extractUriFromAngle (msg.header "contact")
  let cseq := (JsText.parseInt ((JsText.splitOn ' ' [] (msg.header "cseq").toList).headD [])).getD 0
  { callId := msg.header "call-id"
    fromHeader := msg.header "from"
    toHeader := toWithTag (msg.header "to") localTag
    localTag
    remoteTag := extractTag (msg.header "from")
    remoteAddress := inv.remote.address
    remotePort := inv.remote.port
    viaHeader := msg.header "via"
    -- Neither zero nor what is not a number is a sequence number here.
    cseq := if cseq = 0 then 1 else cseq
    rtpSession := inv.rtpSession
    rtpPort := inv.rtpPort
    remoteTarget :=
      -- Without a contact the remote target is where the INVITE came from.
      if contactUri = "" then "sip:" ++ inv.remote.address ++ ":" ++ toString inv.remote.port
      else contactUri
    recordRoutes := extractRecordRoutes msg.rawHeaders }

/-- What `onIncomingCall` is told when `handleInvite` has accepted the call. -/
def callInfoOf (inv : PendingInvite) : IncomingCallInfo :=
  { callId := inv.msg.header "call-id"
    callerPhone := extractPhoneFromHeader (inv.msg.header "from")
    calleePhone := extractPhoneFromHeader (inv.msg.header "to")
    rtpSession := inv.rtpSession
    remoteIp := inv.remoteIp
    remotePort := inv.remotePort }

/-- `handleInvite` after `start()` has resolved: answer 200, store the dialog without looking at
the map again, and notify the application. -/
def inviteStarted (s : SipServer) (inv : PendingInvite) (localTag sdpSession : String) :
    SipServer :=
  let s := s.modifySession inv.rtpSession fun r => r.listening.setRemote inv.remoteIp inv.remotePort
  let sdpAnswer := buildSdpAnswer s.publicIp inv.rtpPort sdpSession
  let s := s.send200Ok inv.msg inv.remote sdpAnswer localTag
  let s := { s with dialogs := s.dialogs.set inv.callId (dialogOf inv localTag) }
  s.emit (.incomingCall (callInfoOf inv))

/-- `handleInvite` after `start()` has rejected. -/
def inviteFailed (s : SipServer) (inv : PendingInvite) : SipServer :=
  { s with portPool := s.portPool.release inv.rtpPort }.sendResponse inv.msg 500
    "Internal Server Error" inv.remote

/-- Answer a BYE, drop its dialog and notify the application. -/
def handleBye (s : SipServer) (msg : SipMessage) (remote : RemoteInfo) : SipServer :=
  let callId := msg.header "call-id"
  ((s.sendResponse msg 200 "OK" remote).cleanupDialog callId).emit
    (.callEnded callId "remote_hangup")

/-- Answer a CANCEL and its INVITE, drop the dialog and notify the application. -/
def handleCancel (s : SipServer) (msg : SipMessage) (remote : RemoteInfo) : SipServer :=
  let callId := msg.header "call-id"
  let s := s.sendResponse msg 200 "OK" remote
  let s := s.sendResponse msg 487 "Request Terminated" remote
  (s.cleanupDialog callId).emit (.callEnded callId "cancelled")

/-- Answer a health check. -/
def handleOptions (s : SipServer) (msg : SipMessage) (remote : RemoteInfo) : SipServer :=
  s.sendResponse msg 200 "OK" remote

/-- Dispatch a parsed message on its method; an empty method is treated like a missing one. -/
def handleMessage (s : SipServer) (msg : SipMessage) (remote : RemoteInfo) (sdpSession : String) :
    SipServer :=
  match msg.method with
  | some "INVITE" => s.handleInvite msg remote sdpSession
  | some "ACK" => s
  | some "BYE" => s.handleBye msg remote
  | some "OPTIONS" => s.handleOptions msg remote
  | some "CANCEL" => s.handleCancel msg remote
  | _ => s

/-- Where the BYE of a dialog is sent: the last Record-Route entry if there is one, else the
remote target, else the source address of the INVITE. -/
def nextHop (dialog : SipDialog) : String × ℤ :=
  let firstHop :=
    match dialog.recordRoutes.getLast? with
    | some route => extractHostPortFromUri route
    | none => extractHostPortFromUri dialog.remoteTarget
  match firstHop with
  | none => (dialog.remoteAddress, dialog.remotePort)
  | some (host, port) => (host, if port = 0 then dialog.remotePort else port)

/-- The BYE the server sends for a dialog whose `cseq` has been advanced. -/
def byeOf (s : SipServer) (dialog : SipDialog) (branch : String) : SipRequest :=
  { method := "BYE"
    requestUri := dialog.remoteTarget
    rawHeaderLines := dialog.recordRoutes.reverse.map fun rr => "Route: " ++ rr
    headers :=
      [("Via", "SIP/2.0/UDP " ++ s.publicIp ++ ":" ++ toString s.sipPort ++ ";branch=" ++ branch),
        ("From", dialog.toHeader),
        ("To", dialog.fromHeader),
        ("Call-ID", dialog.callId),
        ("CSeq", toString dialog.cseq ++ " BYE"),
        ("Max-Forwards", "70")]
    body := "" }

/-- `socket.send` throws on a port outside this range. -/
def ValidPort (port : ℤ) : Prop := 0 < port ∧ port < 65536

instance (port : ℤ) : Decidable (ValidPort port) := inferInstanceAs (Decidable (_ ∧ _))

/-- End a call from our side: advance `cseq`, send the BYE, drop the dialog. When the next hop's
port is unusable, `send` throws and the dialog stays. -/
def endCall (s : SipServer) (callId branch : String) : SipServer :=
  match s.dialogs.get? callId with
  | none => s
  | some dialog =>
    let dialog := { dialog with cseq := dialog.cseq + 1 }
    let s := { s with dialogs := s.dialogs.set callId dialog }
    let (destAddress, destPort) := nextHop dialog
    if ValidPort destPort then
      (s.emit (.request (s.byeOf dialog branch) destAddress destPort)).cleanupDialog callId
    else s

/-- What can happen to the server. -/
inductive SipEvent where
  /-- A datagram arrives. -/
  | datagram (raw : String) (remote : RemoteInfo) (sdpSession : String)
  /-- The `start()` a suspended INVITE waits for resolves. -/
  | rtpStarted (i : ℕ) (localTag sdpSession : String)
  /-- The `start()` a suspended INVITE waits for rejects. -/
  | rtpFailed (i : ℕ)
  /-- The application ends a call, also when its duration timer fires. -/
  | endCall (callId branch : String)

/-- The INVITE suspended under number `i`. -/
def pending? (s : SipServer) (i : ℕ) : Option PendingInvite := s.invites[i]?.join

/-- Mark the suspended INVITE `i` as resumed. -/
def resumed (s : SipServer) (i : ℕ) : SipServer := { s with invites := s.invites.set i none }

/-- One event. Settling a promise nobody waits for changes nothing. -/
def step (s : SipServer) : SipEvent → SipServer
  | .datagram raw remote sdpSession => s.handleMessage (parseSipMessage raw) remote sdpSession
  | .rtpStarted i localTag sdpSession =>
    match s.pending? i with
    | some inv => (s.resumed i).inviteStarted inv localTag sdpSession
    | none => s
  | .rtpFailed i =>
    match s.pending? i with
    | some inv => (s.resumed i).inviteFailed inv
    | none => s
  | .endCall callId branch => s.endCall callId branch

/-- Session `i` has been started and not stopped. -/
def Running (s : SipServer) (i : ℕ) : Prop := ∃ r, s.rtpSessions[i]? = some r ∧ r.running = true

/-- What a step sent and fired. -/
def newOutputs (s s' : SipServer) : List Output := s'.log.drop s.log.length

/-- The message is a BYE or a CANCEL for the Call-ID `c`. -/
def HangsUp (msg : SipMessage) (c : String) : Prop :=
  (msg.method = some "BYE" ∨ msg.method = some "CANCEL") ∧ msg.header "call-id" = c

instance (msg : SipMessage) (c : String) : Decidable (HangsUp msg c) :=
  inferInstanceAs (Decidable (_ ∧ _))

end SipServer

end VoiceServer
