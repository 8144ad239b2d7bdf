import Mathlib
import VoiceAgentPlatform.Lib.Run
import VoiceAgentPlatform.VoiceServer.SipServer

/-!
# Calls given up while their INVITE is suspended

`handleBye` and `handleCancel` look only at the dialog map, which a suspended `handleInvite` has not
written yet. A BYE or CANCEL that meets a suspended INVITE therefore stops nothing: when the
session starts, the INVITE is still answered with 200, a dialog is stored and the application is
handed a call the caller has given up.

* `GivenUp`: a BYE or CANCEL for the Call-ID of INVITE `i` was processed while `i` was suspended.
* `noZombie_iff`: a run hands over no given-up call exactly when no `start()` resolves for an
  INVITE that is given up and still suspended.
-/

namespace VoiceServer.SipServer

/-- During the events `es` a BYE or CANCEL for the Call-ID of INVITE `i` was processed while `i` was
suspended. -/
def GivenUp (s : SipServer) (es : List SipEvent) (i : ℕ) : Prop :=
  ∃ before raw remote sdp after inv, es = before ++ .datagram raw remote sdp :: after ∧
    (Run.exec step s before).pending? i = some inv ∧ HangsUp (parseSipMessage raw) inv.callId

/-- The event resumes the suspended INVITE `i`. -/
def Resumes (i : ℕ) : SipEvent → Prop
  | .rtpStarted j _ _ => j = i
  | .rtpFailed j => j = i
  | _ => False

/-- A step that hands over no call: it stores no dialog, sends no 200 and fires no
`onIncomingCall`. -/
structure HandsOverNothing (s s' : SipServer) : Prop where
  dialogs : s'.dialogs = s.dialogs
  no_ok : ∀ r ip port, Output.response r ip port ∈ newOutputs s s' → r.statusCode ≠ 200
  no_call : ∀ call, Output.incomingCall call ∉ newOutputs s s'

/-- Whenever an INVITE is resumed after it has been given up, it hands over no call. -/
def NoZombie (s : SipServer) (es : List SipEvent) : Prop :=
  ∀ pre e post, es = pre ++ e :: post → ∀ i, GivenUp s pre i → Resumes i e →
    HandsOverNothing (Run.exec step s pre) (step (Run.exec step s pre) e)

/-- No `start()` resolves for an INVITE that is given up and still suspended. -/
def NoLateStart (s : SipServer) (es : List SipEvent) : Prop :=
  ∀ pre e post, es = pre ++ e :: post → ∀ i, GivenUp s pre i → ∀ tag sdp,
    e = .rtpStarted i tag sdp → (Run.exec step s pre).pending? i = none

/-- An INVITE that is established sends a 200 and notifies the application. -/
theorem newOutputs_rtpStarted {s : SipServer} {i : ℕ} {inv : PendingInvite} (tag sdp : String)
    (h : s.pending? i = some inv) :
    newOutputs s (s.step (.rtpStarted i tag sdp)) =
      [.response (s.okWithSdp inv.msg (buildSdpAnswer s.publicIp inv.rtpPort sdp) tag)
          inv.remote.address inv.remote.port,
        .incomingCall (callInfoOf inv)] := by
  simp only [step, h, newOutputs, inviteStarted, send200Ok, emit, resumed, modifySession,
    List.append_assoc, List.drop_left']
  rfl

/-- An INVITE whose session does not start is answered with 500 and nothing else. -/
theorem newOutputs_rtpFailed {s : SipServer} {i : ℕ} {inv : PendingInvite}
    (h : s.pending? i = some inv) :
    newOutputs s (s.step (.rtpFailed i)) =
      [.response (responseTo inv.msg 500 "Internal Server Error") inv.remote.address
        inv.remote.port] := by
  simp only [step, h, newOutputs, inviteFailed, sendResponse, emit, resumed, List.drop_left']

/-- A step that changes nothing hands over nothing. -/
theorem HandsOverNothing.refl (s : SipServer) : HandsOverNothing s s :=
  ⟨rfl, by simp [newOutputs], by simp [newOutputs]⟩

/-- An INVITE whose session does not start hands over nothing. -/
theorem handsOverNothing_rtpFailed (s : SipServer) (i : ℕ) :
    HandsOverNothing s (s.step (.rtpFailed i)) := by
  cases hinv : s.pending? i with
  | none =>
    simp only [step, hinv]
    exact .refl s
  | some inv =>
    have hout := newOutputs_rtpFailed hinv
    refine ⟨by simp only [step, hinv]; rfl, fun r ip port hr => ?_, fun call hcall => ?_⟩
    · rw [hout, List.mem_singleton] at hr
      obtain ⟨rfl, -, -⟩ := Output.response.inj hr
      simp [responseTo]
    · simp [hout] at hcall

/-- A `start()` that resolves hands over nothing exactly when nobody waits for it any more. -/
theorem handsOverNothing_rtpStarted_iff (s : SipServer) (i : ℕ) (tag sdp : String) :
    HandsOverNothing s (s.step (.rtpStarted i tag sdp)) ↔ s.pending? i = none := by
  constructor
  · intro h
    cases hinv : s.pending? i with
    | none => rfl
    | some inv =>
      have hok := h.no_ok _ _ _ (newOutputs_rtpStarted tag sdp hinv ▸ List.mem_cons_self)
      exact absurd rfl hok
  · intro h
    simp only [step, h]
    exact .refl s

/-- A run never hands over a call that was given up while its INVITE was suspended exactly when no
`start()` resolves for an INVITE that is given up and still suspended. -/
theorem noZombie_iff (ip : String) (sipPort base count : ℕ) (es : List SipEvent) :
    NoZombie (new ip sipPort base count) es ↔ NoLateStart (new ip sipPort base count) es := by
  constructor
  · rintro h pre e post hes i hgiven tag sdp rfl
    have hquiet := h pre _ post hes i hgiven rfl
    exact (handsOverNothing_rtpStarted_iff _ i tag sdp).mp hquiet
  · intro h pre e post hes i hgiven hresumes
    cases e with
    | rtpStarted j tag sdp =>
      obtain rfl : j = i := hresumes
      exact (handsOverNothing_rtpStarted_iff _ j tag sdp).mpr (h pre _ post hes j hgiven tag sdp rfl)
    | rtpFailed j => exact handsOverNothing_rtpFailed _ j
    | datagram raw remote sdp => exact hresumes.elim
    | endCall c branch => exact hresumes.elim

theorem sipPort_valid : 0 < 5060 ∧ 5060 < 65536 := by decide

/-- An INVITE, a CANCEL for it while it is suspended, and the start of its session. -/
def cancelledInvite : List SipEvent :=
  let remote : RemoteInfo := ⟨"192.0.2.1", 5060, sipPort_valid⟩
  [.datagram ("INVITE sip:+2@h SIP/2.0\r\nCall-ID: a\r\nCSeq: 1 INVITE\r\n\r\n" ++
      "c=IN IP4 1.2.3.4\r\nm=audio 4000 RTP/AVP 0") remote "1",
    .datagram "CANCEL sip:+2@h SIP/2.0\r\nCall-ID: a\r\nCSeq: 1 CANCEL\r\n\r\n" remote "2",
    .rtpStarted 0 "tag0" "3"]

/-- The cancelled INVITE is still answered with 200 and handed to the application. -/
theorem cancelledInvite_handsOver :
    ¬ NoZombie (new "10.0.0.1" 5060 10000 4) cancelledInvite := by
  intro h
  have hgiven : GivenUp (new "10.0.0.1" 5060 10000 4) (cancelledInvite.take 2) 0 := by
    refine ⟨cancelledInvite.take 1, _, _, _, [], _, rfl, rfl, ?_⟩
    exact ⟨Or.inr (by decide +kernel), by decide +kernel⟩
  have hquiet := h (cancelledInvite.take 2) _ [] rfl 0 hgiven rfl
  have hcall : ∃ call, Output.incomingCall call ∈ newOutputs
      (Run.exec step (new "10.0.0.1" 5060 10000 4) (cancelledInvite.take 2))
      (Run.exec step (new "10.0.0.1" 5060 10000 4) cancelledInvite) :=
    ⟨⟨"a", "", "", 0, "1.2.3.4", 4000⟩, by decide +kernel⟩
  obtain ⟨call, hcall⟩ := hcall
  exact hquiet.no_call call hcall

end VoiceServer.SipServer
