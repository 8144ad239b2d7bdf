import Mathlib.Data.Int.Notation
import Mathlib.Data.Nat.Notation

/-!
# RTP session lifecycle

The part of `rtp-session.ts` that a call's setup and teardown use: the socket, the send timer and
the `running` flag. `start` splits at its promise: `start` creates the socket and asks for the
port, `listening` is the bind callback that resolves the promise; a bind error rejects it and
changes nothing.
-/

namespace VoiceServer

/-- An RTP session. -/
structure RtpSession where
  localPort : ℕ
  /-- The socket field is not `null`. -/
  socket : Bool
  /-- The send timer is armed. -/
  sendTimer : Bool
  running : Bool
  remoteIp : String
  remotePort : ℤ
  deriving DecidableEq

namespace RtpSession

/-- `new RtpSession(localPort)`. -/
def new (localPort : ℕ) : RtpSession :=
  { localPort, socket := false, sendTimer := false, running := false, remoteIp := ""
    remotePort := 0 }

/-- The part of `start` before its promise settles. -/
def start (r : RtpSession) : RtpSession := { r with socket := true }

/-- The bind callback: the session runs and sends, and the promise of `start` resolves. -/
def listening (r : RtpSession) : RtpSession := { r with running := true, sendTimer := true }

/-- Stop the session and release its socket and timer. -/
def stop (r : RtpSession) : RtpSession :=
  { r with running := false, sendTimer := false, socket := false }

/-- Set the remote endpoint. -/
def setRemote (r : RtpSession) (ip : String) (port : ℤ) : RtpSession :=
  { r with remoteIp := ip, remotePort := port }

@[simp] theorem running_new (p : ℕ) : (new p).running = false := rfl
@[simp] theorem running_start (r : RtpSession) : r.start.running = r.running := rfl
@[simp] theorem running_listening (r : RtpSession) : r.listening.running = true := rfl
@[simp] theorem running_stop (r : RtpSession) : r.stop.running = false := rfl
@[simp] theorem running_setRemote (r : RtpSession) (ip : String) (port : ℤ) :
    (r.setRemote ip port).running = r.running := rfl

end RtpSession

end VoiceServer
