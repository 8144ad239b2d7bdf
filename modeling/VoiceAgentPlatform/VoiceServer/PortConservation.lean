import Mathlib.Data.List.ReduceOption
import VoiceAgentPlatform.Lib.Run
import VoiceAgentPlatform.VoiceServer.PortLedger

/-!
# RTP port conservation

The ports in use are the ports of the established dialogs and of the suspended INVITEs. The
duplicate check on the Call-ID is made before the `await` of `handleInvite` and the dialog is
stored after it, so two INVITEs with one Call-ID can both pass the check; the second to resume
overwrites the first one's dialog, and the port and session of that dialog are lost.

* `ledger_step`: every step of the server is a move on its ledger, and it is a replacement exactly
  when a `start()` resolves for a Call-ID that has a dialog already.
* `portsConserved_iff`: a run conserves its ports exactly when that never happens.
-/

namespace VoiceServer

/-- The port and the session of a dialog. -/
def SipDialog.holding (d : SipDialog) : Holding := ⟨d.rtpPort, d.rtpSession⟩

/-- The port and the session of a suspended INVITE. -/
def PendingInvite.holding (inv : PendingInvite) : Holding := ⟨inv.rtpPort, inv.rtpSession⟩

namespace SipServer

open Ledger

/-- The INVITEs that are still suspended. -/
def pendingInvites (s : SipServer) : List PendingInvite := s.invites.reduceOption

/-- The ports of the established dialogs. -/
def dialogPorts (s : SipServer) : List ℕ := s.dialogs.values.map SipDialog.rtpPort

/-- The ports of the suspended INVITEs. -/
def pendingPorts (s : SipServer) : List ℕ := s.pendingInvites.map PendingInvite.rtpPort

/-- Port conservation in one state, for a server created with the ports `basePort`,
`basePort + 2`, … below `basePort + count`. -/
structure PortsConserved (basePort count : ℕ) (s : SipServer) : Prop where
  /-- In use are exactly the ports of dialogs and of suspended INVITEs. -/
  inUse_iff : ∀ p, p ∈ s.portPool.inUse ↔ p ∈ s.dialogPorts ++ s.pendingPorts
  /-- They are pairwise distinct. -/
  distinct : (s.dialogPorts ++ s.pendingPorts).Nodup
  /-- No port is available and in use at once. -/
  disjoint : ∀ p ∈ s.portPool.available, p ∉ s.portPool.inUse
  /-- Together they are the ports the pool was created with. -/
  complete : ∀ p, (p ∈ s.portPool.available ∨ p ∈ s.portPool.inUse) ↔
    p ∈ PortPool.evenPorts basePort count
  /-- Once nobody holds a port, every port is available and no session runs. -/
  idle : s.dialogs.entries = [] → s.pendingInvites = [] →
    (∀ p ∈ PortPool.evenPorts basePort count, p ∈ s.portPool.available) ∧
      ∀ r ∈ s.rtpSessions, r.running = false

/-- The event does not resolve the `start()` of an INVITE whose Call-ID has a dialog already. -/
def StartsFresh (s : SipServer) : SipEvent → Prop
  | .rtpStarted i _ _ => ∀ inv, s.pending? i = some inv → s.dialogs.get? inv.callId = none
  | _ => True

/-- The ledger of a server state. -/
def ledger (s : SipServer) : Ledger :=
  { pool := s.portPool
    dialogs := ↑(s.dialogs.values.map SipDialog.holding)
    pending := ↑(s.pendingInvites.map PendingInvite.holding)
    sessions := s.rtpSessions }

@[simp] theorem ledger_emit (s : SipServer) (o : Output) : (s.emit o).ledger = s.ledger := rfl

@[simp] theorem ledger_sendResponse (s : SipServer) (msg : SipMessage) (code : ℕ) (reason : String)
    (r : RemoteInfo) : (s.sendResponse msg code reason r).ledger = s.ledger := rfl

@[simp] theorem ledger_send200Ok (s : SipServer) (msg : SipMessage) (r : RemoteInfo)
    (body tag : String) : (s.send200Ok msg r body tag).ledger = s.ledger := rfl

/-- The holdings of a map of dialogs split off one entry. -/
private theorem holdings_of_perm {m m' : OrderedMap String SipDialog} {c : String} {d : SipDialog}
    (h : m.entries.Perm ((c, d) :: m'.entries)) :
    (↑(m.values.map SipDialog.holding) : Multiset Holding) =
      d.holding ::ₘ ↑(m'.values.map SipDialog.holding) := by
  rw [Multiset.cons_coe, Multiset.coe_eq_coe, OrderedMap.values, OrderedMap.values, List.map_map,
    List.map_map]
  exact h.map _

/-- A session other than the one changed runs only if it ran before. -/
private theorem running_modify {s : List RtpSession} {i j : ℕ} {f : RtpSession → RtpSession}
    (hne : j ≠ i) (h : ∃ r, (s.modify i f)[j]? = some r ∧ r.running = true) :
    ∃ r, s[j]? = some r ∧ r.running = true := by
  simpa [List.getElem?_modify, hne.symm] using h

/-- A session appended in a stopped state is not among the running ones. -/
theorem running_append {s : List RtpSession} {x : RtpSession} {j : ℕ}
    (hx : x.running = false) (h : ∃ r, (s ++ [x])[j]? = some r ∧ r.running = true) :
    ∃ r, s[j]? = some r ∧ r.running = true := by
  obtain ⟨r, hr, hrun⟩ := h
  rw [List.getElem?_append] at hr
  split_ifs at hr
  · exact ⟨r, hr, hrun⟩
  · obtain rfl : r = x := by simpa using List.mem_of_getElem? hr
    simp [hx] at hrun

/-- Clearing a filled slot removes its content from the filled ones. -/
private theorem perm_cons_set_none {α : Type*} {l : List (Option α)} {i : ℕ} {a : α}
    (h : l[i]? = some (some a)) : l.reduceOption.Perm (a :: (l.set i none).reduceOption) := by
  induction l generalizing i with
  | nil => simp at h
  | cons x l ih =>
    cases i with
    | zero =>
      obtain rfl : x = some a := by simpa using h
      simp [List.reduceOption_cons_of_some, List.reduceOption_cons_of_none]
    | succ i =>
      have hrest := ih (by simpa using h)
      cases x with
      | none => simpa [List.reduceOption_cons_of_none] using hrest
      | some b =>
        simp only [List.set_cons_succ, List.reduceOption_cons_of_some]
        exact (hrest.cons b).trans (List.Perm.swap a b _)

/-- Dropping a dialog closes its holding. -/
theorem ledger_cleanupDialog (s : SipServer) (c : String) :
    Step s.ledger (s.cleanupDialog c).ledger := by
  cases hd : s.dialogs.get? c with
  | none => exact .keep (by simp [cleanupDialog, hd])
  | some d =>
    have hs : s.cleanupDialog c =
        { s.modifySession d.rtpSession RtpSession.stop with
          portPool := s.portPool.release d.rtpPort
          dialogs := s.dialogs.delete c } := by
      simp [cleanupDialog, hd]
    rw [hs]
    refine .close d.holding rfl (holdings_of_perm (OrderedMap.perm_cons_delete hd)) rfl
      (List.length_modify ..) fun i hi => ?_
    -- The session of the dialog has been stopped.
    have hne : i ≠ d.rtpSession := by
      rintro rfl
      obtain ⟨r, hr, hrun⟩ := hi
      simp only [ledger, modifySession, List.getElem?_modify, if_true] at hr
      obtain ⟨r', -, rfl⟩ := Option.map_eq_some_iff.mp hr
      simp at hrun
    exact ⟨running_modify hne hi, hne⟩

/-- `handleInvite` up to its `await` acquires a holding, takes a port and gives it back, or changes
nothing. -/
theorem ledger_handleInvite (s : SipServer) (msg : SipMessage) (r : RemoteInfo) (sdp : String) :
    Step s.ledger (s.handleInvite msg r sdp).ledger := by
  unfold handleInvite
  split
  · exact .keep rfl
  · split
    · exact .keep rfl
    · rename_i port pool hpool
      dsimp only
      split_ifs
      · exact .bounce port pool hpool rfl
      · refine .acquire ⟨port, s.rtpSessions.length⟩ hpool rfl rfl ?_ ?_ fun i hi => ?_
        · refine Multiset.coe_eq_coe.mpr ?_
          rw [pendingInvites, List.reduceOption_append, List.map_append]
          exact List.perm_append_singleton _ _
        · exact List.length_append
        · exact running_append (by simp) hi

/-- Resuming a suspended INVITE takes its holding out of the pending ones. -/
theorem pending_resumed {s : SipServer} {i : ℕ} {inv : PendingInvite} (h : s.pending? i = some inv) :
    s.ledger.pending = inv.holding ::ₘ (s.resumed i).ledger.pending := by
  rw [pending?, Option.join_eq_some_iff] at h
  refine Multiset.coe_eq_coe.mpr ?_
  exact (perm_cons_set_none h).map PendingInvite.holding

/-- An INVITE whose session does not start gives its port back. -/
theorem ledger_inviteFailed {s : SipServer} {i : ℕ} {inv : PendingInvite}
    (h : s.pending? i = some inv) : Step s.ledger ((s.resumed i).inviteFailed inv).ledger :=
  .refuse inv.holding rfl rfl (pending_resumed h) rfl

/-- The dialogs after an INVITE has been established. -/
theorem dialogs_inviteStarted (s : SipServer) (inv : PendingInvite) (tag sdp : String) :
    (s.inviteStarted inv tag sdp).dialogs = s.dialogs.set inv.callId (dialogOf inv tag) := rfl

/-- An INVITE whose Call-ID has no dialog yet is established with its holding. -/
theorem ledger_inviteStarted {s : SipServer} {i : ℕ} {inv : PendingInvite} (tag sdp : String)
    (h : s.pending? i = some inv) (hfresh : s.dialogs.get? inv.callId = none) :
    Step s.ledger ((s.resumed i).inviteStarted inv tag sdp).ledger := by
  refine .establish inv.holding rfl ?_ (pending_resumed h) (List.length_modify ..) fun j hj => ?_
  · refine Multiset.coe_eq_coe.mpr ?_
    rw [dialogs_inviteStarted, OrderedMap.values,
      OrderedMap.entries_set_of_get?_eq_none (m := (s.resumed i).dialogs) _ hfresh,
      List.map_append, List.map_append]
    exact List.perm_append_singleton _ _
  · by_cases hji : j = inv.rtpSession
    · exact Or.inr hji
    · exact Or.inl (running_modify hji hj)

/-- An INVITE whose Call-ID has a dialog replaces that dialog's holding by its own. -/
theorem ledger_inviteStarted_replace {s : SipServer} {i : ℕ} {inv : PendingInvite} {d : SipDialog}
    (tag sdp : String) (h : s.pending? i = some inv) (hd : s.dialogs.get? inv.callId = some d) :
    Replace s.ledger ((s.resumed i).inviteStarted inv tag sdp).ledger where
  moved :=
    ⟨inv.holding, d.holding, rfl, List.length_modify .., pending_resumed h, _,
      holdings_of_perm (OrderedMap.perm_cons_delete hd),
      holdings_of_perm (d := dialogOf inv tag) (OrderedMap.perm_set_of_get?_eq_some _ hd)⟩

/-- Ending a call closes its holding, unless the BYE cannot be sent. -/
theorem ledger_endCall (s : SipServer) (c branch : String) :
    Step s.ledger (s.endCall c branch).ledger := by
  unfold endCall
  split
  · exact .keep rfl
  · rename_i d hd
    -- Advancing `cseq` does not touch the holding.
    have hkeep : { s with dialogs := s.dialogs.set c { d with cseq := d.cseq + 1 } }.ledger =
        s.ledger := by
      have hold := holdings_of_perm (OrderedMap.perm_cons_delete hd)
      have hnew := holdings_of_perm
        (OrderedMap.perm_set_of_get?_eq_some { d with cseq := d.cseq + 1 } hd)
      simp only [ledger, pendingInvites, Ledger.mk.injEq, true_and, and_true]
      rw [hold, hnew]
      rfl
    dsimp only
    split_ifs
    · have hclean := fun o => ledger_cleanupDialog
        ({ s with dialogs := s.dialogs.set c { d with cseq := d.cseq + 1 } }.emit o) c
      simp only [ledger_emit, hkeep] at hclean
      exact hclean _
    · exact .keep hkeep

/-- Every event that meets `StartsFresh` is a move of a call. -/
theorem ledger_step (s : SipServer) (e : SipEvent) (hfresh : s.StartsFresh e) :
    Step s.ledger (s.step e).ledger := by
  cases e with
  | datagram raw remote sdp =>
    simp only [step, handleMessage]
    split
    · exact ledger_handleInvite s _ _ _
    · exact .keep rfl
    · exact ledger_cleanupDialog (s.sendResponse _ _ _ _) _
    · exact .keep rfl
    · exact ledger_cleanupDialog ((s.sendResponse _ _ _ _).sendResponse _ _ _ _) _
    · exact .keep rfl
  | rtpStarted i tag sdp =>
    simp only [step]
    split
    · rename_i inv hinv
      exact ledger_inviteStarted tag sdp hinv (hfresh inv hinv)
    · exact .keep rfl
  | rtpFailed i =>
    simp only [step]
    split
    · rename_i inv hinv
      exact ledger_inviteFailed hinv
    · exact .keep rfl
  | endCall c branch => exact ledger_endCall s c branch

/-- An event that does not meet `StartsFresh` is a replacement. -/
theorem ledger_step_replace (s : SipServer) (e : SipEvent) (hfresh : ¬ s.StartsFresh e) :
    Replace s.ledger (s.step e).ledger := by
  cases e with
  | rtpStarted i tag sdp =>
    simp only [StartsFresh, not_forall] at hfresh
    obtain ⟨inv, hinv, hd⟩ := hfresh
    obtain ⟨d, hd⟩ := Option.ne_none_iff_exists'.mp hd
    simp only [step, hinv]
    exact ledger_inviteStarted_replace tag sdp hinv hd
  | datagram raw remote sdp => exact absurd trivial hfresh
  | rtpFailed i => exact absurd trivial hfresh
  | endCall c branch => exact absurd trivial hfresh

/-- The ports held, as the two lists of `PortsConserved`. -/
theorem map_port_holdings (s : SipServer) :
    s.ledger.holdings.map Holding.port = ↑(s.dialogPorts ++ s.pendingPorts) := by
  rw [holdings, ledger, Multiset.coe_add, Multiset.map_coe, List.map_append, List.map_map,
    List.map_map]
  rfl

/-- A balanced ledger is port conservation. -/
theorem portsConserved_of_balanced {base count : ℕ} {s : SipServer}
    (hb : Balanced (PortPool.evenPorts base count) s.ledger) : PortsConserved base count s := by
  have hports := map_port_holdings s
  have hinUse : ∀ p, p ∈ s.portPool.inUse ↔ p ∈ s.dialogPorts ++ s.pendingPorts := by
    intro p
    rw [← Multiset.mem_coe, ← hports]
    exact hb.inUse_iff p
  refine ⟨hinUse, ?_, s.portPool.disjoint, hb.has_iff, fun hdialogs hpending => ⟨?_, ?_⟩⟩
  · have := hb.nodup_ports
    rwa [hports, Multiset.coe_nodup] at this
  · intro p hp
    refine ((hb.has_iff p).mpr hp).resolve_right fun huse => ?_
    simpa [dialogPorts, pendingPorts, OrderedMap.values, hdialogs, hpending] using (hinUse p).mp huse
  · intro r hr
    obtain ⟨i, hi⟩ := List.mem_iff_getElem?.mp hr
    by_contra hrun
    obtain ⟨g, hg, -⟩ := hb.running_dialog i ⟨r, hi, by simpa using hrun⟩
    simp [ledger, OrderedMap.values, hdialogs] at hg

theorem balanced_new (ip : String) (sipPort base count : ℕ) :
    Balanced (PortPool.evenPorts base count) (new ip sipPort base count).ledger where
  inUse_iff p := by simp [new, ledger, PortPool.new, pendingInvites, holdings, OrderedMap.values]
  nodup_ports := by simp [new, ledger, pendingInvites, holdings, OrderedMap.values]
  has_iff p := by simp [new, ledger, PortPool.new, PortPool.Has]
  sessions :=
    { nodup_sessions := by simp [new, ledger, pendingInvites, holdings, OrderedMap.values]
      session_lt h hh := by simp [new, ledger, pendingInvites, holdings, OrderedMap.values] at hh }
  running_dialog i hi := by simp [new, ledger, Ledger.Running] at hi

/-- In every reachable state the sessions held are distinct. -/
theorem sessionsDistinct_exec (ip : String) (sipPort base count : ℕ) (es : List SipEvent) :
    (Run.exec step (new ip sipPort base count) es).ledger.SessionsDistinct := by
  refine Run.exec_invariant (I := fun s : SipServer => s.ledger.SessionsDistinct) (fun s e hd => ?_)
    (balanced_new ip sipPort base count).sessions es
  by_cases hfresh : s.StartsFresh e
  · exact hd.step (ledger_step s e hfresh)
  · exact hd.replace (ledger_step_replace s e hfresh)

/-- A run of the server conserves its ports exactly when no `start()` resolves for a Call-ID that
has a dialog already. -/
theorem portsConserved_iff (ip : String) (sipPort base count : ℕ) (es : List SipEvent) :
    Run.Always step (PortsConserved base count) (new ip sipPort base count) es ↔
      Run.Guarded step StartsFresh (new ip sipPort base count) es := by
  refine Run.always_iff_guarded (J := fun s => Balanced (PortPool.evenPorts base count) s.ledger)
    (fun s => portsConserved_of_balanced) (fun s e hb hfresh => hb.step (ledger_step s e hfresh))
    (fun s e hb hfresh hports => ?_) (balanced_new ip sipPort base count) es
  obtain ⟨p, huse, hfree⟩ := hb.leak_of_replace (ledger_step_replace s e hfresh)
  rw [map_port_holdings, Multiset.mem_coe] at hfree
  exact hfree ((hports.inUse_iff p).mp huse)

/-- An INVITE with an SDP body. -/
def sampleInvite : String :=
  "INVITE sip:+2@h SIP/2.0\r\nCall-ID: a\r\nCSeq: 1 INVITE\r\n\r\n" ++
    "c=IN IP4 1.2.3.4\r\nm=audio 4000 RTP/AVP 0"

/-- The sender of the sample datagrams. -/
def sampleRemote : RemoteInfo := ⟨"192.0.2.1", 5060, by decide⟩

/-- An INVITE, its retransmission while the first one is suspended, and the start of both
sessions. -/
def retransmittedInvite : List SipEvent :=
  [.datagram sampleInvite sampleRemote "1", .datagram sampleInvite sampleRemote "1",
    .rtpStarted 0 "tag0" "1", .rtpStarted 1 "tag1" "2"]

/-- A retransmitted INVITE leaves the first port in use with nobody holding it. -/
theorem retransmittedInvite_leaks :
    ¬ Run.Always step (PortsConserved 10000 4) (new "10.0.0.1" 5060 10000 4) retransmittedInvite := by
  intro h
  have huse : 10000 ∈ (Run.exec step (new "10.0.0.1" 5060 10000 4)
      retransmittedInvite).portPool.inUse := by decide +kernel
  have hheld := (h.last.inUse_iff 10000).mp huse
  revert hheld
  decide +kernel

end SipServer

end VoiceServer
