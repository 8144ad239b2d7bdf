import VoiceAgentPlatform.VoiceServer.SipServer

/-!
# The bridge of one call

The application side of `server.ts` and the WebSocket client of `pipecat-client.ts`, for one call
over the SIP server: the callback `onIncomingCall` with its closure `endCall`, the global callback
`onCallEnded`, the connect promise with its 10 s timeout, the maximum-duration timer, and the
ready state of the socket to the bot.

The state keeps the two global maps, in which other calls may have entries, and the SIP server
itself, whose functions it calls. The socket library reports a failed handshake or a broken
connection as an error that leaves the socket closing, and every socket ends with a close event.
-/

namespace VoiceServer

/-- The ready state of a WebSocket. -/
inductive ReadyState where
  | connecting
  | open
  | closing
  | closed
  deriving DecidableEq

/-- The promise of `PipecatClient.connect`. -/
inductive ConnectPromise where
  | pending
  | resolved
  | rejected
  deriving DecidableEq

/-- The fields of a `PipecatClient` that its connection uses. -/
structure PipecatClient where
  /-- `this.ws` is not `null`. -/
  ws : Bool
  active : Bool
  deriving DecidableEq

/-- An entry of `activeSessions`. -/
structure ActiveSession where
  callId : String
  callerPhone : String
  startTime : String

/-- The closure variables of one `onIncomingCall`, its client, its socket and its timers. -/
structure Call where
  /-- Tells this call's `endCall` from those of other calls in `callEnders`. -/
  number : ℕ
  callId : String
  rtpSession : ℕ
  ended : Bool
  /-- How often the body of `endCall` has run. -/
  endCallRuns : ℕ
  /-- The maximum-duration timer is armed. -/
  callTimer : Bool
  client : PipecatClient
  readyState : ReadyState
  connect : ConnectPromise
  /-- The connect timeout has not fired yet. -/
  connectTimer : Bool

/-- The voice server, seen from one call. -/
structure Bridge where
  sip : SipServer
  activeSessions : OrderedMap String ActiveSession
  callEnders : OrderedMap String ℕ
  call : Call

namespace Bridge

open SipServer

/-- `onIncomingCall` up to `await client.connect()`: register the call, arm its timer and open the
socket. -/
def onIncomingCall (sip : SipServer) (activeSessions : OrderedMap String ActiveSession)
    (callEnders : OrderedMap String ℕ) (number : ℕ) (info : IncomingCallInfo) (now : String) :
    Bridge :=
  { sip
    activeSessions := activeSessions.set info.callId
      { callId := info.callId, callerPhone := info.callerPhone, startTime := now }
    callEnders := callEnders.set info.callId number
    call :=
      { number
        callId := info.callId
        rtpSession := info.rtpSession
        ended := false
        endCallRuns := 0
        callTimer := true
        client := { ws := true, active := false }
        readyState := .connecting
        connect := .pending
        connectTimer := true } }

/-- `PipecatClient.close`: close the socket if it is open, and drop the reference to it. -/
def closeClient (c : Call) : Call :=
  { c with
    readyState := if c.client.ws ∧ c.readyState = .open then .closing else c.readyState
    client := { ws := false, active := false } }

/-- The closure `endCall`. -/
def endCall (b : Bridge) (branch : String) : Bridge :=
  if b.call.ended then b
  else
    { sip := b.sip.endCall b.call.callId branch
      activeSessions := b.activeSessions.delete b.call.callId
      callEnders := b.callEnders.delete b.call.callId
      call := closeClient
        { b.call with ended := true, endCallRuns := b.call.endCallRuns + 1, callTimer := false } }

/-- The global callback `onCallEnded`: run the teardown closure of the Call-ID if there is one. The
closure of another call does not concern this one. -/
def onCallEnded (b : Bridge) (callId branch : String) : Bridge :=
  match b.callEnders.get? callId with
  | some number => if number = b.call.number then b.endCall branch else b
  | none => { b with activeSessions := b.activeSessions.delete callId }

/-- The Call-IDs for which `onCallEnded` is fired. -/
def endedCalls (outs : List Output) : List String :=
  outs.filterMap fun
    | .callEnded callId _ => some callId
    | _ => none

/-- The socket opens: the client is active and the connect promise resolves. -/
def socketOpened (b : Bridge) : Bridge :=
  if b.call.readyState = .connecting then
    { b with
      call :=
        { b.call with
          readyState := .open
          client := { b.call.client with active := true }
          connect := if b.call.connect = .pending then .resolved else b.call.connect } }
  else b

/-- The socket reports an error, which is only logged, and starts closing. -/
def socketFailed (b : Bridge) : Bridge :=
  if b.call.readyState = .connecting ∨ b.call.readyState = .open then
    { b with call := { b.call with readyState := .closing } }
  else b

/-- The socket has closed: the client tells the call, which ends. -/
def socketClosed (b : Bridge) (branch : String) : Bridge :=
  if b.call.readyState = .closed then b
  else
    endCall
      { b with
        call :=
          { b.call with readyState := .closed, client := { b.call.client with active := false } } }
      branch

/-- The connect timeout fires: unless the client is active, the connect promise is rejected, and if
it was still pending the call ends. -/
def connectTimedOut (b : Bridge) (branch : String) : Bridge :=
  if b.call.connectTimer then
    let b := { b with call := { b.call with connectTimer := false } }
    if !b.call.client.active ∧ b.call.connect = .pending then
      endCall { b with call := { b.call with connect := .rejected } } branch
    else b
  else b

/-- The maximum-duration timer fires. -/
def durationReached (b : Bridge) (branch : String) : Bridge :=
  if b.call.callTimer then
    endCall { b with call := { b.call with callTimer := false } } branch
  else b

/-- A datagram arrives: the SIP server handles it and fires its callbacks. -/
def datagram (b : Bridge) (raw : String) (remote : RemoteInfo) (sdp branch : String) : Bridge :=
  let sip := b.sip.step (.datagram raw remote sdp)
  (endedCalls (newOutputs b.sip sip)).foldl (fun b callId => b.onCallEnded callId branch)
    { b with sip }

/-- The events of a call. `branch` is the random branch of the BYE that may be sent. -/
inductive CallEvent where
  | socketOpened
  | socketFailed
  | socketClosed (branch : String)
  | connectTimedOut (branch : String)
  | durationReached (branch : String)
  | datagram (raw : String) (remote : RemoteInfo) (sdp branch : String)

/-- One event. -/
def step (b : Bridge) : CallEvent → Bridge
  | .socketOpened => b.socketOpened
  | .socketFailed => b.socketFailed
  | .socketClosed branch => b.socketClosed branch
  | .connectTimedOut branch => b.connectTimedOut branch
  | .durationReached branch => b.durationReached branch
  | .datagram raw remote sdp branch => b.datagram raw remote sdp branch

end Bridge

end VoiceServer
