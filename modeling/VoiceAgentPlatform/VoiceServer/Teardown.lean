import VoiceAgentPlatform.VoiceServer.Bridge
import VoiceAgentPlatform.VoiceServer.PortConservation

/-!
# Teardown of a call

However a call ends, `endCall` runs once, takes the call out of both maps, stops its RTP session and
closes its client. Two things can go wrong: `PipecatClient.close` only closes an open socket, so a
socket that is still connecting is dropped without being closed and opens later; and a BYE whose
next hop has an unusable port makes `send` throw before the dialog is cleaned up.

* `TornDown`: `endCall` has run at most once, and if it has run the call is completely torn down.
* `tornDown_iff`: a run keeps `TornDown` exactly when `endCall` never runs in one of those two
  situations.
-/

namespace VoiceServer

namespace SipServer

@[simp] theorem dialogs_cleanupDialog (s : SipServer) (c : String) :
    (s.cleanupDialog c).dialogs = s.dialogs.delete c := by
  unfold cleanupDialog
  split
  · rename_i hd
    exact (OrderedMap.delete_eq_self hd).symm
  · rfl

/-- Dropping a dialog stops its session and no other. -/
theorem running_cleanupDialog {s : SipServer} {c : String} {i : ℕ} :
    (s.cleanupDialog c).Running i ↔
      s.Running i ∧ ∀ d, s.dialogs.get? c = some d → d.rtpSession ≠ i := by
  unfold cleanupDialog
  split
  · rename_i hd
    simp [hd]
  · rename_i d hd
    simp only [hd, Option.some.injEq, forall_eq', Running, modifySession, List.getElem?_modify]
    by_cases hi : d.rtpSession = i
    · simp [hi, Option.map_eq_some_iff]
    · simp [hi]

/-- `handleInvite` up to its `await` starts no session. -/
theorem running_handleInvite {s : SipServer} {msg : SipMessage} {r : RemoteInfo} {sdp : String}
    {i : ℕ} : (s.handleInvite msg r sdp).Running i ↔ s.Running i := by
  unfold handleInvite
  split
  · rfl
  · split
    · rfl
    · dsimp only
      split_ifs
      · rfl
      · refine ⟨fun h => running_append (by simp) h, ?_⟩
        rintro ⟨x, hx, hrun⟩
        exact ⟨x, List.getElem?_append_left (List.getElem?_eq_some_iff.mp hx).1 ▸ hx, hrun⟩

theorem dialogs_handleInvite (s : SipServer) (msg : SipMessage) (r : RemoteInfo) (sdp : String) :
    (s.handleInvite msg r sdp).dialogs = s.dialogs := by
  unfold handleInvite
  split
  · rfl
  · split
    · rfl
    · dsimp only
      split_ifs <;> rfl

@[simp] theorem log_cleanupDialog (s : SipServer) (c : String) : (s.cleanupDialog c).log = s.log := by
  unfold cleanupDialog
  split <;> rfl

/-- A BYE or CANCEL drops the dialog of its Call-ID, stops that dialog's session, and reports the
call as ended. -/
theorem step_datagram_of_hangsUp {s : SipServer} {raw c : String} (remote : RemoteInfo)
    (sdp : String) (h : HangsUp (parseSipMessage raw) c) :
    (s.step (.datagram raw remote sdp)).dialogs = s.dialogs.delete c ∧
      (∀ i, (s.step (.datagram raw remote sdp)).Running i ↔
        s.Running i ∧ ∀ d, s.dialogs.get? c = some d → d.rtpSession ≠ i) ∧
      Bridge.endedCalls (newOutputs s (s.step (.datagram raw remote sdp))) = [c] := by
  obtain ⟨hmethod | hmethod, rfl⟩ := h
  · simp only [step, handleMessage, hmethod, handleBye]
    refine ⟨dialogs_cleanupDialog _ _, fun i => running_cleanupDialog, ?_⟩
    simp [newOutputs, Bridge.endedCalls, sendResponse, emit]
  · simp only [step, handleMessage, hmethod, handleCancel]
    refine ⟨dialogs_cleanupDialog _ _, fun i => running_cleanupDialog, ?_⟩
    simp [newOutputs, Bridge.endedCalls, sendResponse, emit]

/-- No other datagram touches a dialog or a running session, or reports a call as ended. -/
theorem step_datagram_of_not_hangsUp {s : SipServer} {raw : String} (remote : RemoteInfo)
    (sdp : String) (h : ∀ c, ¬ HangsUp (parseSipMessage raw) c) :
    (s.step (.datagram raw remote sdp)).dialogs = s.dialogs ∧
      (∀ i, (s.step (.datagram raw remote sdp)).Running i ↔ s.Running i) ∧
      Bridge.endedCalls (newOutputs s (s.step (.datagram raw remote sdp))) = [] := by
  simp only [step, handleMessage]
  split
  · refine ⟨dialogs_handleInvite _ _ _ _, fun i => running_handleInvite, ?_⟩
    unfold handleInvite
    split
    · simp [newOutputs, Bridge.endedCalls, send200Ok, emit]
    · split
      · simp [newOutputs, Bridge.endedCalls, sendResponse, emit]
      · dsimp only
        split_ifs <;> simp [newOutputs, Bridge.endedCalls, sendResponse, emit]
  · exact ⟨rfl, fun i => Iff.rfl, by simp [newOutputs, Bridge.endedCalls]⟩
  · rename_i hmethod
    exact absurd ⟨Or.inl hmethod, rfl⟩ (h _)
  · exact ⟨rfl, fun i => Iff.rfl,
      by simp [newOutputs, Bridge.endedCalls, handleOptions, sendResponse, emit]⟩
  · rename_i hmethod
    exact absurd ⟨Or.inr hmethod, rfl⟩ (h _)
  · exact ⟨rfl, fun i => Iff.rfl, by simp [newOutputs, Bridge.endedCalls]⟩

/-- A BYE of our own that can be sent stops the dialog's session. -/
theorem running_endCall_of_validPort {s : SipServer} {c : String} {d : SipDialog} (branch : String)
    (hd : s.dialogs.get? c = some d) (hport : ValidPort (nextHop d).2) {i : ℕ} :
    (s.endCall c branch).Running i ↔ s.Running i ∧ d.rtpSession ≠ i := by
  have hport' : ValidPort (nextHop { d with cseq := d.cseq + 1 }).2 := hport
  simp only [endCall, hd]
  rw [if_pos hport', running_cleanupDialog]
  simp only [emit, OrderedMap.get?_set_self, Option.some.injEq, forall_eq']
  rfl

/-- A BYE of our own that cannot be sent stops no session. -/
theorem running_endCall_of_not_validPort {s : SipServer} {c : String} {d : SipDialog}
    (branch : String) (hd : s.dialogs.get? c = some d) (hport : ¬ ValidPort (nextHop d).2) {i : ℕ} :
    (s.endCall c branch).Running i ↔ s.Running i := by
  have hport' : ¬ ValidPort (nextHop { d with cseq := d.cseq + 1 }).2 := hport
  simp only [endCall, hd]
  rw [if_neg hport']
  rfl

/-- Ending a call leaves no dialog that was not there before; only its `cseq` may have advanced. -/
theorem dialogs_endCall {s : SipServer} {c c' branch : String} {d' : SipDialog}
    (h : (s.endCall c branch).dialogs.get? c' = some d') :
    ∃ d, s.dialogs.get? c' = some d ∧ d' = { d with cseq := d'.cseq } := by
  unfold endCall at h
  split at h
  · exact ⟨d', h, rfl⟩
  · rename_i d hd
    -- The dialog may be deleted; otherwise only its sequence number has changed.
    have hset : ({ s with dialogs := s.dialogs.set c { d with cseq := d.cseq + 1 } } :
        SipServer).dialogs.get? c' = some d' := by
      dsimp only at h
      split_ifs at h
      · rw [dialogs_cleanupDialog, OrderedMap.get?_delete] at h
        split_ifs at h
        exact h
      · exact h
    rw [OrderedMap.get?_set] at hset
    split_ifs at hset with hc
    · obtain rfl := Option.some.inj hset
      exact ⟨d, hc ▸ hd, rfl⟩
    · exact ⟨d', hset, rfl⟩

@[simp] theorem invites_cleanupDialog (s : SipServer) (c : String) :
    (s.cleanupDialog c).invites = s.invites := by
  unfold cleanupDialog
  split
  · rfl
  · rfl

/-- An INVITE that is suspended after a step was so before, or has just arrived and has a session of its
own. -/
theorem pending_step {s : SipServer} {e : SipEvent} {j : ℕ} {inv : PendingInvite}
    (h : (s.step e).pending? j = some inv) :
    s.pending? j = some inv ∨
      (∃ raw remote sdp, e = .datagram raw remote sdp ∧ inv.msg = parseSipMessage raw) ∧
        inv.msg.method = some "INVITE" ∧ inv.rtpSession = s.rtpSessions.length := by
  -- resuming an INVITE suspends none
  have hresumed (s : SipServer) (i : ℕ) (h : (s.resumed i).pending? j = some inv) :
      s.pending? j = some inv := by
    unfold pending? resumed at h
    rw [List.getElem?_set] at h
    split_ifs at h
    · cases h
    · cases h
    · exact h
  cases e with
  | datagram raw remote sdp =>
    simp only [step, handleMessage] at h
    split at h
    · rename_i hmethod
      unfold handleInvite at h
      split at h
      · exact Or.inl h
      · split at h
        · exact Or.inl h
        · dsimp only at h
          split_ifs at h
          · exact Or.inl h
          · simp only [pending?, sendResponse, emit, List.getElem?_append] at h
            split_ifs at h with hj
            · exact Or.inl h
            · rcases Option.join_eq_some_iff.mp h with hnew
              rw [List.getElem?_singleton] at hnew
              split_ifs at hnew
              obtain rfl := Option.some.inj (Option.some.inj hnew)
              exact Or.inr ⟨⟨raw, remote, sdp, rfl, rfl⟩, hmethod, rfl⟩
    · exact Or.inl h
    · exact Or.inl (by simpa [handleBye, pending?, invites_cleanupDialog, emit, sendResponse] using h)
    · exact Or.inl h
    · exact Or.inl (by simpa [handleCancel, pending?, invites_cleanupDialog, emit, sendResponse] using h)
    · exact Or.inl h
  | rtpStarted i tag sdp =>
    simp only [step] at h
    split at h
    · exact Or.inl (hresumed s i h)
    · exact Or.inl h
  | rtpFailed i =>
    simp only [step] at h
    split at h
    · exact Or.inl (hresumed s i h)
    · exact Or.inl h
  | endCall c branch =>
    simp only [step, endCall] at h
    split at h
    · exact Or.inl h
    · split_ifs at h
      · exact Or.inl (by simpa [pending?, invites_cleanupDialog, emit] using h)
      · exact Or.inl h

end SipServer

namespace Bridge

open SipServer

/-- The call is torn down: it is in neither map, its RTP session is stopped and its socket is
closed or closing. -/
structure Complete (b : Bridge) : Prop where
  notActive : b.activeSessions.get? b.call.callId = none
  noEnder : b.callEnders.get? b.call.callId = none
  rtpStopped : ¬ b.sip.Running b.call.rtpSession
  socketDown : b.call.readyState = .closing ∨ b.call.readyState = .closed

/-- The body of `endCall` has run at most once, and if it has run the call is torn down. -/
structure TornDown (b : Bridge) : Prop where
  once : b.call.endCallRuns ≤ 1
  complete : b.call.endCallRuns = 1 → b.Complete

/-- The event makes a call that has not ended run `endCall`. -/
def Triggers (b : Bridge) : CallEvent → Prop
  | .socketClosed _ => b.call.readyState ≠ .closed
  | .connectTimedOut _ =>
    b.call.connectTimer = true ∧ b.call.client.active = false ∧ b.call.connect = .pending
  | .durationReached _ => b.call.callTimer = true
  | .datagram raw _ _ _ => HangsUp (parseSipMessage raw) b.call.callId
  | _ => False

/-- The socket is not connecting any more when the event is handled. -/
def SocketSettled (b : Bridge) : CallEvent → Prop
  | .socketClosed _ => True
  | _ => b.call.readyState ≠ .connecting

/-- The BYE that ending the call sends can be sent. -/
def CanSendBye (b : Bridge) : Prop :=
  ∀ d, b.sip.dialogs.get? b.call.callId = some d → ValidPort (nextHop d).2

/-- The BYE that the event makes the server send, if any, can be sent. -/
def ByeSendable (b : Bridge) : CallEvent → Prop
  | .datagram _ _ _ _ => True
  | _ => b.CanSendBye

/-- If the event ends the call, the socket is settled and the BYE can be sent. -/
def EndsCleanly (b : Bridge) (e : CallEvent) : Prop :=
  b.call.ended = false → b.Triggers e → b.SocketSettled e ∧ b.ByeSendable e

/-- What a run keeps as long as the call ends cleanly. -/
structure Sound (b : Bridge) : Prop where
  runs : b.call.endCallRuns = if b.call.ended then 1 else 0
  /-- Until it ends, the call has its teardown closure, its client and its dialog, and its session
  runs. -/
  live : b.call.ended = false → b.callEnders.get? b.call.callId = some b.call.number ∧
    b.call.client.ws = true ∧ b.sip.Running b.call.rtpSession ∧
    ∃ d, b.sip.dialogs.get? b.call.callId = some d ∧ d.rtpSession = b.call.rtpSession
  /-- No other dialog uses the session. -/
  alone : ∀ c d, b.sip.dialogs.get? c = some d → d.rtpSession = b.call.rtpSession →
    c = b.call.callId
  /-- The closure is registered under no other Call-ID. -/
  ender : ∀ c, b.callEnders.get? c = some b.call.number → c = b.call.callId
  done : b.call.ended = true → b.Complete

theorem Sound.tornDown {b : Bridge} (h : b.Sound) : b.TornDown where
  once := by
    rw [h.runs]
    split_ifs <;> decide
  complete hruns := by
    refine h.done ?_
    by_contra hended
    simp [h.runs, hended] at hruns

/-! ### One run of `endCall` -/

@[simp] theorem runs_endCall {b : Bridge} (branch : String) (h : b.call.ended = false) :
    (b.endCall branch).call.endCallRuns = b.call.endCallRuns + 1 := by
  simp [endCall, h, closeClient]

theorem endCall_of_ended {b : Bridge} (branch : String) (h : b.call.ended = true) :
    b.endCall branch = b := by
  simp [endCall, h]

/-- `endCall` tears the call down when the socket is settled and the session is stopped by the
BYE, or was stopped before. -/
theorem complete_endCall {b : Bridge} (branch : String) (hended : b.call.ended = false)
    (hws : b.call.client.ws = true) (hsocket : b.call.readyState ≠ .connecting)
    (hrtp : ¬ (b.sip.endCall b.call.callId branch).Running b.call.rtpSession) :
    (b.endCall branch).Complete := by
  simp only [endCall, hended, Bool.false_eq_true, if_false]
  refine ⟨OrderedMap.get?_delete_self _ _, OrderedMap.get?_delete_self _ _, hrtp, ?_⟩
  simp only [closeClient, hws, true_and]
  cases hr : b.call.readyState <;> simp_all

/-- `endCall` does not tear the call down while the socket is connecting. -/
theorem not_complete_of_connecting {b : Bridge} (branch : String) (hended : b.call.ended = false)
    (hsocket : b.call.readyState = .connecting) : ¬ (b.endCall branch).Complete := by
  intro h
  have hdown := h.socketDown
  simp [endCall, hended, closeClient, hsocket] at hdown

/-- `endCall` does not tear the call down when the session goes on running. -/
theorem not_complete_of_running {b : Bridge} (branch : String) (hended : b.call.ended = false)
    (hrtp : (b.sip.endCall b.call.callId branch).Running b.call.rtpSession) :
    ¬ (b.endCall branch).Complete := by
  intro h
  have hstopped := h.rtpStopped
  simp only [endCall, hended, Bool.false_eq_true, if_false] at hstopped
  exact hstopped hrtp

/-- After a complete teardown the state is sound again. -/
theorem sound_endCall {b : Bridge} {branch : String} (hended : b.call.ended = false)
    (hruns : b.call.endCallRuns = 0)
    (halone : ∀ c d, b.sip.dialogs.get? c = some d → d.rtpSession = b.call.rtpSession →
      c = b.call.callId)
    (hender : ∀ c, b.callEnders.get? c = some b.call.number → c = b.call.callId)
    (hcomplete : (b.endCall branch).Complete) : (b.endCall branch).Sound where
  runs := by simp [endCall, hended, closeClient, hruns]
  live h := by simp [endCall, hended, closeClient] at h
  alone c d hd hsession := by
    simp only [endCall, hended, Bool.false_eq_true, if_false] at hd hsession ⊢
    obtain ⟨d', hd', heq⟩ := dialogs_endCall hd
    have hsame : d'.rtpSession = d.rtpSession := by rw [heq]
    exact halone c d' hd' (hsame.trans hsession)
  ender c hc := by
    simp only [endCall, hended, Bool.false_eq_true, if_false, OrderedMap.get?_delete] at hc ⊢
    split_ifs at hc
    exact hender c hc
  done _ := hcomplete

theorem Sound.runs_of_not_ended {b : Bridge} (h : b.Sound) (hended : b.call.ended = false) :
    b.call.endCallRuns = 0 := by
  simp [h.runs, hended]

/-- From a sound state, `endCall` is complete exactly when the socket is not connecting and the BYE
can be sent. -/
theorem Sound.complete_endCall_iff {b : Bridge} (h : b.Sound) (branch : String)
    (hended : b.call.ended = false) :
    (b.endCall branch).Complete ↔ b.call.readyState ≠ .connecting ∧ b.CanSendBye := by
  obtain ⟨-, hws, hrunning, d, hd, hsession⟩ := h.live hended
  constructor
  · intro hcomplete
    refine ⟨fun hsocket => not_complete_of_connecting branch hended hsocket hcomplete,
      fun d' hd' => ?_⟩
    obtain rfl : d = d' := Option.some.inj (hd.symm.trans hd')
    by_contra hport
    exact not_complete_of_running branch hended
      ((running_endCall_of_not_validPort branch hd hport).mpr hrunning) hcomplete
  · rintro ⟨hsocket, hbye⟩
    refine complete_endCall branch hended hws hsocket fun hrun => ?_
    exact ((running_endCall_of_validPort branch hd (hbye d hd)).mp hrun).2 hsession

/-- A run of `endCall` that is not complete breaks `TornDown`. -/
theorem not_tornDown_endCall {b : Bridge} {branch : String} (hended : b.call.ended = false)
    (hruns : b.call.endCallRuns = 0) (h : ¬ (b.endCall branch).Complete) :
    ¬ (b.endCall branch).TornDown := by
  intro htorn
  exact h (htorn.complete (by simp [hended, hruns]))

/-! ### The events -/

/-- The state of the socket, the connect promise and the timers do not matter, except that the
socket of an ended call stays down. -/
theorem Sound.frame {b : Bridge} (h : b.Sound) {call : Call} (hnumber : call.number = b.call.number)
    (hcallId : call.callId = b.call.callId) (hsession : call.rtpSession = b.call.rtpSession)
    (hended : call.ended = b.call.ended) (hruns : call.endCallRuns = b.call.endCallRuns)
    (hws : call.client.ws = b.call.client.ws)
    (hdown : b.call.ended = true → call.readyState = .closing ∨ call.readyState = .closed) :
    { b with call }.Sound where
  runs := by simp only [hruns, hended, h.runs]
  -- Each part is about fields that are the same.
  live hlive := by
    simp only [hended, hnumber, hcallId, hsession, hws] at hlive ⊢
    exact h.live hlive
  alone := by
    simp only [hcallId, hsession]
    exact h.alone
  ender := by
    simp only [hcallId, hnumber]
    exact h.ender
  done hdone := by
    simp only [hended] at hdone
    obtain ⟨hactive, hender, hstopped, -⟩ := h.done hdone
    refine ⟨?_, ?_, ?_, hdown hdone⟩ <;> simpa only [hcallId, hsession]

/-- Running `endCall` from a sound state keeps it sound when it tears the call down. -/
theorem Sound.endCall {b : Bridge} (h : b.Sound) (branch : String)
    (hclean : b.call.ended = false → b.call.readyState ≠ .connecting ∧ b.CanSendBye) :
    (b.endCall branch).Sound := by
  cases hended : b.call.ended with
  | true => rwa [endCall_of_ended branch hended]
  | false =>
    exact sound_endCall hended (h.runs_of_not_ended hended) h.alone h.ender
      ((h.complete_endCall_iff branch hended).mpr (hclean hended))

theorem Sound.not_tornDown {b : Bridge} (h : b.Sound) (branch : String)
    (hended : b.call.ended = false)
    (hclean : ¬ (b.call.readyState ≠ .connecting ∧ b.CanSendBye)) :
    ¬ (b.endCall branch).TornDown :=
  not_tornDown_endCall hended (h.runs_of_not_ended hended)
    (mt (h.complete_endCall_iff branch hended).mp hclean)

/-- A SIP server that keeps this call's dialog and session, and adds no dialog, keeps the state
sound. -/
theorem Sound.withSip {b : Bridge} (h : b.Sound) (sip : SipServer)
    (hdialogs : ∀ c d, sip.dialogs.get? c = some d → b.sip.dialogs.get? c = some d)
    (hstopped : sip.Running b.call.rtpSession → b.sip.Running b.call.rtpSession)
    (hlive : b.call.ended = false →
      sip.dialogs.get? b.call.callId = b.sip.dialogs.get? b.call.callId ∧
        sip.Running b.call.rtpSession) : { b with sip }.Sound where
  runs := h.runs
  live hended := by
    obtain ⟨hender, hws, -, hdialog⟩ := h.live hended
    obtain ⟨hsame, hrunning⟩ := hlive hended
    exact ⟨hender, hws, hrunning, hsame ▸ hdialog⟩
  alone c d hd := h.alone c d (hdialogs c d hd)
  ender := h.ender
  done hended := by
    obtain ⟨hactive, hender, hstop, hdown⟩ := h.done hended
    exact ⟨hactive, hender, mt hstopped hstop, hdown⟩

/-- Forgetting the active session of another or of an ended call keeps the state sound. -/
theorem Sound.forget {b : Bridge} (h : b.Sound) (c : String) :
    { b with activeSessions := b.activeSessions.delete c }.Sound where
  runs := h.runs
  live := h.live
  alone := h.alone
  ender := h.ender
  done hended := by
    obtain ⟨hactive, hender, hstop, hdown⟩ := h.done hended
    refine ⟨?_, hender, hstop, hdown⟩
    dsimp only
    rw [OrderedMap.get?_delete, hactive, ite_self]

/-- The end of another call does not concern this one. -/
theorem Sound.onCallEnded_of_ne {b : Bridge} (h : b.Sound) {c : String} (branch : String)
    (hc : c ≠ b.call.callId) : (b.onCallEnded c branch).Sound := by
  unfold onCallEnded
  split
  · rename_i number hnumber
    have hother : number ≠ b.call.number := fun heq => hc (h.ender c (heq ▸ hnumber))
    rwa [if_neg hother]
  · exact h.forget c

/-- A hang-up of an ended call changes nothing that matters. -/
theorem Sound.onCallEnded_of_ended {b : Bridge} (h : b.Sound) (branch : String)
    (hended : b.call.ended = true) : (b.onCallEnded b.call.callId branch).Sound := by
  unfold onCallEnded
  rw [(h.done hended).noEnder]
  exact h.forget _

/-- A BYE or CANCEL is handled by the SIP server, and then `onCallEnded` runs for its Call-ID. -/
theorem datagram_of_hangsUp {b : Bridge} {raw c : String} (remote : RemoteInfo)
    (sdp branch : String) (h : HangsUp (parseSipMessage raw) c) :
    b.datagram raw remote sdp branch =
      { b with sip := b.sip.step (.datagram raw remote sdp) }.onCallEnded c branch := by
  rw [datagram, (step_datagram_of_hangsUp remote sdp h).2.2]
  rfl

/-- The caller's BYE or CANCEL stops the session before `endCall` runs, which then has no dialog to
send a BYE for. -/
theorem Sound.complete_hangUp_iff {b : Bridge} (h : b.Sound) {raw : String} (remote : RemoteInfo)
    (sdp branch : String) (hended : b.call.ended = false)
    (hraw : HangsUp (parseSipMessage raw) b.call.callId) :
    ({ b with sip := b.sip.step (.datagram raw remote sdp) }.endCall branch).Complete ↔
      b.call.readyState ≠ .connecting := by
  obtain ⟨-, hws, -, d, hd, hsession⟩ := h.live hended
  obtain ⟨hdialogs, hrunning, -⟩ := step_datagram_of_hangsUp (s := b.sip) remote sdp hraw
  constructor
  · intro hcomplete hsocket
    refine not_complete_of_connecting branch ?_ ?_ hcomplete
    · exact hended
    · exact hsocket
  · intro hsocket
    refine complete_endCall branch hended hws hsocket fun hrun => ?_
    have hnone : (b.sip.step (.datagram raw remote sdp)).dialogs.get? b.call.callId = none := by
      rw [hdialogs, OrderedMap.get?_delete_self]
    simp only [SipServer.endCall, hnone] at hrun
    exact ((hrunning _).mp hrun).2 d hd hsession

/-- A datagram keeps a sound state sound unless it hangs up the call while the socket connects. -/
theorem Sound.datagram {b : Bridge} (h : b.Sound) {raw : String} (remote : RemoteInfo)
    (sdp branch : String) (hclean : b.call.ended = false →
      HangsUp (parseSipMessage raw) b.call.callId → b.call.readyState ≠ .connecting) :
    (b.datagram raw remote sdp branch).Sound := by
  by_cases hhang : ∃ c, HangsUp (parseSipMessage raw) c
  · obtain ⟨c, hraw⟩ := hhang
    rw [datagram_of_hangsUp remote sdp branch hraw]
    obtain ⟨hdialogs, hrunning, -⟩ := step_datagram_of_hangsUp (s := b.sip) remote sdp hraw
    -- A datagram that hangs up can only take a dialog away.
    have hsub : ∀ c' d, (b.sip.step (.datagram raw remote sdp)).dialogs.get? c' = some d →
        b.sip.dialogs.get? c' = some d := by
      intro c' d hd
      rw [hdialogs, OrderedMap.get?_delete] at hd
      split_ifs at hd
      exact hd
    -- It is the dialog of this call or that of another one.
    by_cases hc : c = b.call.callId
    · subst hc
      cases hended : b.call.ended with
      | true =>
        have hsip := h.withSip (b.sip.step (.datagram raw remote sdp)) hsub
          (fun hrun => ((hrunning _).mp hrun).1) (by simp [hended])
        exact hsip.onCallEnded_of_ended branch hended
      | false =>
        have hender := (h.live hended).1
        simp only [onCallEnded, hender, if_true]
        exact sound_endCall hended (h.runs_of_not_ended hended)
          (fun c' d hd => h.alone c' d (hsub c' d hd)) h.ender
          ((h.complete_hangUp_iff remote sdp branch hended hraw).mpr (hclean hended hraw))
    · refine Sound.onCallEnded_of_ne (h.withSip _ hsub (fun hrun => ((hrunning _).mp hrun).1) ?_)
        branch hc
      intro hended
      obtain ⟨-, -, hrun, -⟩ := h.live hended
      refine ⟨by rw [hdialogs, OrderedMap.get?_delete_of_ne _ (Ne.symm hc)],
        (hrunning _).mpr ⟨hrun, fun d hd hsession => hc (h.alone c d hd hsession)⟩⟩
  · push Not at hhang
    obtain ⟨hdialogs, hrunning, houts⟩ :=
      step_datagram_of_not_hangsUp (s := b.sip) remote sdp hhang
    simp only [Bridge.datagram, houts, List.foldl_nil]
    refine h.withSip _ (fun c d hd => hdialogs ▸ hd) (hrunning _).mp fun hended => ?_
    exact ⟨by rw [hdialogs], (hrunning _).mpr (h.live hended).2.2.1⟩

/-- A step that ends the call cleanly, if it ends it at all, keeps the state sound. -/
theorem Sound.step {b : Bridge} (h : b.Sound) (e : CallEvent) (hclean : b.EndsCleanly e) :
    (b.step e).Sound := by
  have hdown := fun hended => (h.done hended).socketDown
  cases e with
  | socketOpened =>
    simp only [Bridge.step, socketOpened]
    by_cases hsocket : b.call.readyState = .connecting
    · rw [if_pos hsocket]
      refine h.frame rfl rfl rfl rfl rfl rfl fun hended => ?_
      -- The socket of an ended call is not connecting.
      simpa [hsocket] using hdown hended
    · rwa [if_neg hsocket]
  | socketFailed =>
    simp only [Bridge.step, socketFailed]
    split_ifs
    · exact h.frame rfl rfl rfl rfl rfl rfl fun _ => Or.inl rfl
    · exact h
  | socketClosed branch =>
    simp only [Bridge.step, socketClosed]
    split_ifs with hsocket
    · exact h
    · refine Sound.endCall ?_ branch fun hended => ⟨nofun, (hclean hended hsocket).2⟩
      exact h.frame rfl rfl rfl rfl rfl rfl fun _ => Or.inr rfl
  | connectTimedOut branch =>
    simp only [Bridge.step, connectTimedOut]
    split_ifs with htimer hpending
    · simp only [Bool.not_eq_true'] at hpending
      refine Sound.endCall ?_ branch fun hended => ?_
      · exact h.frame rfl rfl rfl rfl rfl rfl hdown
      · exact hclean hended ⟨htimer, hpending.1, hpending.2⟩
    · exact h.frame rfl rfl rfl rfl rfl rfl hdown
    · exact h
  | durationReached branch =>
    simp only [Bridge.step, durationReached]
    split_ifs with htimer
    · refine Sound.endCall ?_ branch fun hended => hclean hended htimer
      exact h.frame rfl rfl rfl rfl rfl rfl hdown
    · exact h
  | datagram raw remote sdp branch =>
    exact h.datagram remote sdp branch fun hended hraw => (hclean hended hraw).1

/-- A step that ends the call in another way breaks `TornDown`. -/
theorem Sound.not_tornDown_step {b : Bridge} (h : b.Sound) (e : CallEvent)
    (hclean : ¬ b.EndsCleanly e) : ¬ (b.step e).TornDown := by
  have hdown := fun hended => (h.done hended).socketDown
  simp only [EndsCleanly, Classical.not_imp] at hclean
  obtain ⟨hended, htriggers, hclean⟩ := hclean
  cases e with
  | socketOpened => exact htriggers.elim
  | socketFailed => exact htriggers.elim
  | socketClosed branch =>
    rw [Bridge.step, socketClosed, if_neg htriggers]
    refine Sound.not_tornDown ?_ branch hended fun hsettled => hclean ⟨trivial, hsettled.2⟩
    exact h.frame rfl rfl rfl rfl rfl rfl fun _ => Or.inr rfl
  | connectTimedOut branch =>
    obtain ⟨htimer, hactive, hpending⟩ := htriggers
    simp only [Bridge.step, connectTimedOut, htimer, hactive, hpending, if_true, Bool.not_false,
      and_self]
    refine Sound.not_tornDown ?_ branch hended hclean
    exact h.frame rfl rfl rfl rfl rfl rfl hdown
  | durationReached branch =>
    have htimer : b.call.callTimer = true := htriggers
    rw [Bridge.step, durationReached, if_pos htimer]
    refine Sound.not_tornDown ?_ branch hended hclean
    exact h.frame rfl rfl rfl rfl rfl rfl hdown
  | datagram raw remote sdp branch =>
    have hender := (h.live hended).1
    simp only [Bridge.step, datagram_of_hangsUp remote sdp branch htriggers, onCallEnded, hender,
      if_true]
    -- The datagram has ended the dialog; whether the bridge follows is the condition.
    refine not_tornDown_endCall hended (h.runs_of_not_ended hended) fun hcomplete => ?_
    exact hclean
      ⟨(h.complete_hangUp_iff remote sdp branch hended htriggers).mp hcomplete, trivial⟩

/-! ### Runs -/

/-- The state in which the call begins: the session of the INVITE suspended under `i` has started,
and `onIncomingCall` has run up to its `await`. -/
def begin (s : SipServer) (i : ℕ) (localTag sdp : String) (inv : PendingInvite)
    (activeSessions : OrderedMap String ActiveSession) (callEnders : OrderedMap String ℕ)
    (number : ℕ) (now : String) : Bridge :=
  onIncomingCall (s.step (.rtpStarted i localTag sdp)) activeSessions callEnders number
    (callInfoOf inv) now

/-- A call begins in a sound state. -/
theorem sound_begin {s : SipServer} {i : ℕ} {inv : PendingInvite}
    {activeSessions : OrderedMap String ActiveSession} {callEnders : OrderedMap String ℕ}
    {number : ℕ} (localTag sdp now : String) (hdistinct : s.ledger.SessionsDistinct)
    (hinv : s.pending? i = some inv) (hnew : ∀ c, callEnders.get? c ≠ some number) :
    (begin s i localTag sdp inv activeSessions callEnders number now).Sound := by
  have hsip : s.step (.rtpStarted i localTag sdp) =
      (s.resumed i).inviteStarted inv localTag sdp := by
    simp only [SipServer.step, hinv]
  have hpending := pending_resumed hinv
  refine ⟨rfl, fun _ => ⟨OrderedMap.get?_set_self _ _ _, rfl, ?_, dialogOf inv localTag, ?_, rfl⟩,
    fun c d hd hsession => ?_, fun c hc => ?_, fun h => by cases h⟩
  · -- The session of a suspended INVITE exists, so starting it makes it run.
    have hlt : inv.rtpSession < s.rtpSessions.length := by
      refine hdistinct.session_lt inv.holding ?_
      rw [Ledger.holdings, hpending]
      exact Multiset.mem_add.mpr (Or.inr (Multiset.mem_cons_self _ _))
    simp only [begin, onIncomingCall, hsip, callInfoOf]
    refine ⟨((s.rtpSessions[inv.rtpSession]).listening.setRemote inv.remoteIp inv.remotePort), ?_,
      by simp⟩
    simp [inviteStarted, modifySession, send200Ok, emit, resumed, hlt]
  · simp only [begin, onIncomingCall, hsip, dialogs_inviteStarted]
    exact OrderedMap.get?_set_self _ _ _
  · simp only [begin, onIncomingCall, hsip, dialogs_inviteStarted, callInfoOf] at hd hsession ⊢
    by_contra hc
    rw [OrderedMap.get?_set_of_ne _ _ (show c ≠ inv.callId from hc)] at hd
    -- The session would be held by the dialog and by the suspended INVITE.
    have hnodup := hdistinct.nodup_sessions
    rw [Ledger.holdings, Multiset.map_add, Multiset.nodup_add] at hnodup
    refine Multiset.disjoint_left.mp hnodup.2.2 (?_ : inv.rtpSession ∈ _) ?_
    · refine Multiset.mem_map.mpr ⟨d.holding, Multiset.mem_coe.mpr ?_, hsession⟩
      refine List.mem_map_of_mem (List.mem_map.mpr ⟨(c, d), ?_, rfl⟩)
      exact OrderedMap.mem_entries_iff.mpr hd
    · rw [hpending, Multiset.map_cons]
      exact Multiset.mem_cons_self _ _
  · simp only [begin, onIncomingCall, callInfoOf] at hc ⊢
    by_contra hne
    rw [OrderedMap.get?_set_of_ne _ _ hne] at hc
    exact hnew c hc

/-- Let an INVITE be suspended in a reachable state of the SIP server. From the moment its call is
handed to the application, a run tears the call down completely, and at most once, exactly when
`endCall` never runs while the socket is connecting or with a BYE that cannot be sent. -/
theorem tornDown_iff (ip : String) (sipPort base count : ℕ) (pre : List SipEvent) (i : ℕ)
    (inv : PendingInvite) (localTag sdp : String)
    (activeSessions : OrderedMap String ActiveSession) (callEnders : OrderedMap String ℕ)
    (number : ℕ) (now : String) (es : List CallEvent)
    (hinv : (Run.exec SipServer.step (new ip sipPort base count) pre).pending? i = some inv)
    (hnew : ∀ c, callEnders.get? c ≠ some number) :
    Run.Always Bridge.step TornDown
        (begin (Run.exec SipServer.step (new ip sipPort base count) pre) i localTag sdp inv
          activeSessions callEnders number now) es ↔
      Run.Guarded step EndsCleanly
        (begin (Run.exec SipServer.step (new ip sipPort base count) pre) i localTag sdp inv
          activeSessions callEnders number now) es :=
  Run.always_iff_guarded (fun _ h => h.tornDown) (fun _ e h => h.step e)
    (fun _ e h => h.not_tornDown_step e)
    (sound_begin localTag sdp now (sessionsDistinct_exec ip sipPort base count pre) hinv hnew) es

/-- A server with one suspended INVITE. -/
def sampleServer : SipServer :=
  Run.exec SipServer.step (new "10.0.0.1" 5060 10000 4) [.datagram sampleInvite sampleRemote "1"]

/-- That INVITE. -/
def sampleSuspended : PendingInvite := (sampleServer.pending? 0).get (by decide +kernel)

/-- The beginning of its call. -/
def sampleBegin : Bridge :=
  begin sampleServer 0 "tag0" "2" sampleSuspended ∅ ∅ 0 "2026-01-01T00:00:00.000Z"

/-- A call whose socket opens and is closed by the bot. -/
theorem tornDown_openThenClosed :
    Run.Always Bridge.step TornDown sampleBegin [.socketOpened, .socketClosed "b"] ↔
      Run.Guarded Bridge.step EndsCleanly sampleBegin [.socketOpened, .socketClosed "b"] :=
  tornDown_iff "10.0.0.1" 5060 10000 4 [.datagram sampleInvite sampleRemote "1"] 0
    sampleSuspended "tag0" "2" ∅ ∅ 0 "2026-01-01T00:00:00.000Z" _ (Option.some_get _).symm
    (fun _ => nofun)

/-- The caller hangs up while the socket is connecting; the socket opens later. -/
def hangUpWhileConnecting : List CallEvent :=
  [.datagram "BYE sip:+2@h SIP/2.0\r\nCall-ID: a\r\nCSeq: 2 BYE\r\n\r\n" sampleRemote "3" "b",
    .socketOpened]

/-- The socket of the call stays open after the call has ended. -/
theorem hangUpWhileConnecting_staysOpen :
    ¬ Run.Always Bridge.step TornDown sampleBegin hangUpWhileConnecting := by
  intro h
  have hruns : (Run.exec Bridge.step sampleBegin hangUpWhileConnecting).call.endCallRuns = 1 := by
    decide +kernel
  have hopen : (Run.exec Bridge.step sampleBegin hangUpWhileConnecting).call.readyState = .open := by
    decide +kernel
  have hdown := (h.last.complete hruns).socketDown
  simp [hopen] at hdown

end Bridge

end VoiceServer
