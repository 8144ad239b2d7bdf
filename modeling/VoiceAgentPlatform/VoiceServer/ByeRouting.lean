import Mathlib
import VoiceAgentPlatform.VoiceServer.NextHop
import VoiceAgentPlatform.VoiceServer.Teardown

/-!
# The route of a BYE

A dialog keeps the Record-Route entries of its INVITE in the order received, which is the order in which
a user agent server has to follow them. `endCall` follows them in reverse.

* `CallOf`: a dialog is the one that an INVITE has led to; `callOf_exec` carries it along a run.
* `FollowsRoutes`: a BYE has the Route entries of the INVITE in the order received, its request URI is
  that of the Contact, and it goes to the host and port of the first entry.
* `followsRoutes_iff`: it does so exactly if the entries read the same in both directions, and the first
  one leads to its own host and port.
-/

namespace VoiceServer

open JsText

namespace SipServer

/-! ### The dialog of an INVITE -/

/-- A dialog after a step was there before, or is the one of an INVITE that was suspended. -/
theorem dialogs_step {s : SipServer} {e : SipEvent} {c : String} {d' : SipDialog}
    (h : (s.step e).dialogs.get? c = some d') :
    (∃ d, s.dialogs.get? c = some d ∧ d' = { d with cseq := d'.cseq }) ∨
      ∃ i tag sdp inv, e = .rtpStarted i tag sdp ∧ s.pending? i = some inv ∧
        d' = dialogOf inv tag := by
  cases e with
  | datagram raw remote sdp =>
    by_cases hhangs : ∃ c', HangsUp (parseSipMessage raw) c'
    · obtain ⟨c', hc'⟩ := hhangs
      rw [(step_datagram_of_hangsUp remote sdp hc').1, OrderedMap.get?_delete] at h
      -- The dialog was there, or it is the one of the call that is accepted.
      split_ifs at h
      exact Or.inl ⟨d', h, rfl⟩
    · rw [(step_datagram_of_not_hangsUp remote sdp (not_exists.mp hhangs)).1] at h
      exact Or.inl ⟨d', h, rfl⟩
  | rtpStarted i tag sdp =>
    simp only [step] at h
    split at h
    · rename_i inv hinv
      rw [dialogs_inviteStarted, OrderedMap.get?_set] at h
      split_ifs at h
      · exact Or.inr ⟨i, tag, sdp, inv, rfl, hinv, (Option.some.inj h).symm⟩
      · exact Or.inl ⟨d', h, rfl⟩
    · exact Or.inl ⟨d', h, rfl⟩
  | rtpFailed i =>
    simp only [step] at h
    split at h
    · exact Or.inl ⟨d', h, rfl⟩
    · exact Or.inl ⟨d', h, rfl⟩
  | endCall c' branch => exact Or.inl (dialogs_endCall h)

/-- Session objects are never forgotten. -/
theorem length_rtpSessions_step (s : SipServer) (e : SipEvent) :
    s.rtpSessions.length ≤ (s.step e).rtpSessions.length := by
  by_cases hfresh : s.StartsFresh e
  · cases ledger_step s e hfresh with
    | keep h => exact (congrArg (fun l => l.sessions.length) h).ge
    | bounce port pool hallocate h => exact (congrArg (fun l => l.sessions.length) h).ge
    | acquire h hpool hsession hdialogs hpending hlength => exact hlength.ge.trans' (Nat.le_succ _)
    | refuse h hpool hdialogs hpending hsessions => exact (congrArg List.length hsessions).ge
    | establish h hpool hdialogs hpending hlength => exact hlength.ge
    | close h hpool hdialogs hpending hlength => exact hlength.ge
  · obtain ⟨h, old, -, hlength, -⟩ := (ledger_step_replace s e hfresh).moved
    exact hlength.ge

/-- Every dialog with the session of the INVITE `inv` is its dialog, and no suspended INVITE shares
that session. -/
structure CallOf (inv : PendingInvite) (tag : String) (s : SipServer) : Prop where
  dialog : ∀ c d, s.dialogs.get? c = some d → d.rtpSession = inv.rtpSession →
    d = { dialogOf inv tag with cseq := d.cseq }
  pending : ∀ j other, s.pending? j = some other → other.rtpSession ≠ inv.rtpSession
  session_lt : inv.rtpSession < s.rtpSessions.length

theorem CallOf.step {inv : PendingInvite} {tag : String} {s : SipServer} (h : CallOf inv tag s)
    (e : SipEvent) : CallOf inv tag (s.step e) where
  dialog c d' hd' hsession := by
    rcases dialogs_step hd' with ⟨d, hd, heq⟩ | ⟨i, tag', sdp, other, -, hother, rfl⟩
    · have hold := h.dialog c d hd (by rw [heq] at hsession; exact hsession)
      rw [heq, hold]
    · exact absurd hsession (h.pending i other hother)
  pending j other hother := by
    rcases pending_step hother with hother | ⟨-, -, hother⟩
    · exact h.pending j other hother
    · have := h.session_lt
      omega
  session_lt := h.session_lt.trans_le (length_rtpSessions_step s e)

/-- When an INVITE is accepted, no other dialog and no suspended INVITE has its session. -/
theorem callOf_accepted {s : SipServer} {i : ℕ} {inv : PendingInvite} (tag sdp : String)
    (hdistinct : s.ledger.SessionsDistinct) (hinv : s.pending? i = some inv) :
    CallOf inv tag (s.step (.rtpStarted i tag sdp)) := by
  have hstep : s.step (.rtpStarted i tag sdp) = (s.resumed i).inviteStarted inv tag sdp := by
    simp only [step, hinv]
  have hnodup := hdistinct.nodup_sessions
  rw [Ledger.holdings, pending_resumed hinv, Multiset.add_cons, Multiset.map_cons,
    Multiset.nodup_cons] at hnodup
  -- The session of the call is not that of a dialog or of another pending INVITE.
  have hother (g : Holding) (hg : g ∈ s.ledger.dialogs + (s.resumed i).ledger.pending) :
      g.session ≠ inv.rtpSession := fun heq =>
    hnodup.1 (Multiset.mem_map.mpr ⟨g, hg, heq⟩)
  refine ⟨fun c d hd hsession => ?_, fun j other hj => ?_, ?_⟩
  · rw [hstep, dialogs_inviteStarted, OrderedMap.get?_set] at hd
    split_ifs at hd
    · rw [← Option.some.inj hd]
    · refine absurd hsession (hother d.holding (Multiset.mem_add.mpr (Or.inl ?_)))
      have hentry : (c, d) ∈ s.dialogs.entries := OrderedMap.mem_entries_iff.mpr hd
      exact Multiset.mem_coe.mpr
        (List.mem_map_of_mem (List.mem_map_of_mem (f := Prod.snd) hentry))
  · rw [hstep] at hj
    refine hother other.holding (Multiset.mem_add.mpr (Or.inr ?_))
    have hmem : other ∈ (s.resumed i).pendingInvites :=
      List.reduceOption_mem_iff.mpr (List.mem_of_getElem? (Option.join_eq_some_iff.mp hj))
    exact Multiset.mem_coe.mpr (List.mem_map_of_mem hmem)
  · have hlt := hdistinct.session_lt inv.holding (by
      rw [Ledger.holdings, pending_resumed hinv]
      exact Multiset.mem_add.mpr (Or.inr (Multiset.mem_cons_self _ _)))
    exact hlt.trans_le (length_rtpSessions_step s _)

/-- As long as a call is up, its dialog is the one that its INVITE has led to. -/
theorem dialog_of_accepted (ip : String) (sipPort base count : ℕ) (pre post : List SipEvent) (i : ℕ)
    (tag sdp : String) {inv : PendingInvite} {c : String} {d : SipDialog}
    (hinv : (Run.exec step (new ip sipPort base count) pre).pending? i = some inv)
    (hd : (Run.exec step (new ip sipPort base count)
      (pre ++ .rtpStarted i tag sdp :: post)).dialogs.get? c = some d)
    (hsession : d.rtpSession = inv.rtpSession) :
    d = { dialogOf inv tag with cseq := d.cseq } := by
  have haccepted := callOf_accepted tag sdp (sessionsDistinct_exec ip sipPort base count pre) hinv
  rw [Run.exec_append, Run.exec_cons] at hd
  have hend := Run.exec_invariant (I := CallOf inv tag) (fun s e h => h.step e) haccepted post
  exact hend.dialog c d hd hsession

/-! ### Following the routes -/

/-- The BYE that ends the call `c` has the Route entries of the INVITE in the order received, its
request URI is that of the Contact, and it goes to the host and port of the first entry, or of the
Contact if there is none. -/
def FollowsRoutes (routes : List NameAddr) (contact : Contact) (s : SipServer) (c branch : String) :
    Prop :=
  ∃ bye ip port, newOutputs s (s.endCall c branch) = [.request bye ip port] ∧
    bye.rawHeaderLines = routes.map (fun a => "Route: " ++ String.ofList a.text) ∧
    bye.requestUri = String.ofList contact.uri.text ∧
    (ip, port) = ((routes.head?.map NameAddr.uri).getD contact.uri).address

/-- What is sent for a dialog with a usable next hop. -/
theorem newOutputs_endCall {s : SipServer} {c branch : String} {d : SipDialog}
    (hd : s.dialogs.get? c = some d) :
    newOutputs s (s.endCall c branch) =
      if ValidPort (nextHop d).2 then
        [.request (s.byeOf { d with cseq := d.cseq + 1 } branch) (nextHop d).1 (nextHop d).2]
      else [] := by
  have hhop : nextHop { d with cseq := d.cseq + 1 } = nextHop d := rfl
  simp only [endCall, hd, hhop]
  split_ifs
  · simp [newOutputs, emit, byeOf]
  · simp [newOutputs]

theorem nextHop_eq (d : SipDialog) :
    nextHop d = destination d.remoteAddress d.remotePort
      (match d.recordRoutes.getLast? with
      | some route => extractHostPortFromUri route
      | none => extractHostPortFromUri d.remoteTarget) := by
  unfold nextHop destination
  rfl

/-- A UDP port can be sent to. -/
theorem validPort_address (uri : SipUri) : ValidPort uri.address.2 := by
  rw [ValidPort, SipUri.address]
  cases hp : uri.port with
  | none => exact (by decide : (0 : ℤ) < 5060 ∧ (5060 : ℤ) < 65536)
  | some p =>
    have := uri.port_ok p hp
    simp only [Option.getD_some]
    omega

theorem route_injective : Function.Injective fun a : String => "Route: " ++ a := by
  intro a b h
  have hlist := congrArg String.toList h
  simp only [String.toList_append] at hlist
  exact String.toList_inj.mp (List.append_cancel_left hlist)

/-- The entries read the same in both directions. -/
def Mirrored (routes : List NameAddr) : Prop :=
  (routes.map NameAddr.text).reverse = routes.map NameAddr.text

/-- The Route lines in reverse are those in order if the entries read the same in both directions. -/
theorem mirrored_iff (routes : List NameAddr) :
    Mirrored routes ↔
      (routes.map fun a => String.ofList a.text).reverse.map (fun rr => "Route: " ++ rr) =
        routes.map fun a => "Route: " ++ String.ofList a.text := by
  have hright : (routes.map fun a => "Route: " ++ String.ofList a.text) =
      ((routes.map NameAddr.text).map String.ofList).map fun rr => "Route: " ++ rr := by
    simp only [List.map_map, Function.comp_def]
  have hleft : (routes.map fun a => String.ofList a.text).reverse =
      (routes.map NameAddr.text).reverse.map String.ofList := by
    simp only [List.map_reverse, List.map_map, Function.comp_def]
  rw [hright, hleft, (List.map_injective_iff.mpr route_injective).eq_iff,
    (List.map_injective_iff.mpr fun a b h => String.ofList_inj.mp h).eq_iff]
  rfl

/-- A BYE follows the routes of its INVITE exactly if they read the same in both directions, and the
first one leads to its own host and port. -/
theorem followsRoutes_iff (ip : String) (sipPort base count : ℕ) (pre post : List SipEvent) (i : ℕ)
    (tag sdp c branch : String) (inv : PendingInvite) (d : SipDialog) (lines : List HeaderLine)
    (contact : Contact)
    (hinv : (Run.exec step (new ip sipPort base count) pre).pending? i = some inv)
    (hd : (Run.exec step (new ip sipPort base count)
      (pre ++ .rtpStarted i tag sdp :: post)).dialogs.get? c = some d)
    (hsession : d.rtpSession = inv.rtpSession)
    (hlines : inv.msg.rawHeaders = lines.map HeaderLine.text)
    (hcontact : inv.msg.header "contact" = String.ofList contact.text)
    (hroutes : ∀ line ∈ lines, ∀ a ∈ line.routes, a.Plain) (hplain : contact.Plain) :
    FollowsRoutes (lines.flatMap HeaderLine.routes) contact
      (Run.exec step (new ip sipPort base count) (pre ++ .rtpStarted i tag sdp :: post)) c branch ↔
    Mirrored (lines.flatMap HeaderLine.routes) ∧
      ∀ a ∈ (lines.flatMap HeaderLine.routes).head?,
        a.LeadsHome inv.remote.address inv.remote.port := by
  have hdialog := dialog_of_accepted ip sipPort base count pre post i tag sdp hinv hd hsession
  have hread := extractRecordRoutes_lines lines hroutes
  have hallPlain : ∀ a ∈ lines.flatMap HeaderLine.routes, a.Plain := fun a ha => by
    obtain ⟨line, hline, hmem⟩ := List.mem_flatMap.mp ha
    exact hroutes line hline a hmem
  generalize lines.flatMap HeaderLine.routes = routes at hread hallPlain ⊢
  have hrecorded : d.recordRoutes = routes.map fun a => String.ofList a.text := by
    rw [hdialog]
    simp only [dialogOf, hlines, hread]
  have htarget : d.remoteTarget = String.ofList contact.uri.text := by
    have hne : String.ofList contact.uri.text ≠ "" := by
      intro h
      have := congrArg String.toList h
      rw [String.toList_ofList] at this
      exact contact.uri.text_ne_nil this
    rw [hdialog]
    simp only [dialogOf, hcontact, extractUriFromAngle_contact hplain, if_neg hne]
  have haddress : d.remoteAddress = inv.remote.address ∧ d.remotePort = inv.remote.port := by
    rw [hdialog]
    exact ⟨rfl, rfl⟩
  have hhop := nextHop_eq d
  rw [hrecorded, htarget, haddress.1, haddress.2] at hhop
  generalize Run.exec step (new ip sipPort base count) (pre ++ .rtpStarted i tag sdp :: post) = s
    at hd ⊢
  -- what the BYE says, once it can be sent
  have hfollows : FollowsRoutes routes contact s c branch ↔
      Mirrored routes ∧
        nextHop d = ((routes.head?.map NameAddr.uri).getD contact.uri).address := by
    rw [FollowsRoutes, newOutputs_endCall hd]
    constructor
    · rintro ⟨bye, ip', port, houts, hraw, -, hdest⟩
      split_ifs at houts
      obtain ⟨rfl, rfl, rfl⟩ : s.byeOf _ branch = bye ∧ (nextHop d).1 = ip' ∧ (nextHop d).2 = port := by
        simpa using houts
      refine ⟨(mirrored_iff routes).mpr ?_, hdest⟩
      simpa only [byeOf, hrecorded] using hraw
    · rintro ⟨hmirrored, hdest⟩
      have hvalid : ValidPort (nextHop d).2 := by
        rw [hdest]
        exact validPort_address _
      refine ⟨_, _, _, if_pos hvalid, ?_, htarget, hdest⟩
      simpa only [byeOf, hrecorded] using (mirrored_iff routes).mp hmirrored
  rw [hfollows]
  refine and_congr_right fun hmirrored => ?_
  cases routes with
  | nil =>
    rw [hhop]
    simp only [List.map_nil, List.getLast?_nil, List.head?_nil, Option.map_none, Option.getD_none,
      extractHostPortFromUri_text, destination_address]
    simp
  | cons a routes =>
    have hlast : ((a :: routes).map fun a => String.ofList a.text).getLast? =
        some (String.ofList a.text) := by
      have hreverse : ((a :: routes).map fun a => String.ofList a.text).reverse =
          (a :: routes).map fun a => String.ofList a.text := by
        have := congrArg (List.map String.ofList) hmirrored
        simpa only [List.map_reverse, List.map_map, Function.comp_def] using this
      rw [← List.head?_reverse, hreverse, List.map_cons, List.head?_cons]
    rw [hhop, hlast]
    simp only [List.head?_cons, Option.map_some, Option.getD_some, Option.mem_def,
      Option.some.injEq, forall_eq']
    exact destination_eq_iff (hallPlain a List.mem_cons_self)

/-! ### Samples -/

/-- A list of characters all of which pass a test. -/
theorem forall_mem_of_all {p : Char → Prop} [DecidablePred p] {l : List Char}
    (h : l.all (fun c => p c) = true) : ∀ c ∈ l, p c :=
  fun c hc => of_decide_eq_true (List.all_eq_true.mp h c hc)

/-- A URI of the sample network, with the loose-routing parameter. -/
def sampleUri (digit : Char) (hdigit : digit.isDigit = true) : SipUri where
  scheme := "sip".toList
  user := none
  host := .name ("192.0.2.".toList ++ [digit])
  port := none
  rest := ";lr".toList
  scheme_chars := forall_mem_of_all (by decide)
  scheme_ok := Or.inl (by decide)
  user_ok u h := by cases h
  host_ok := by
    refine ⟨List.cons_ne_nil _ _, fun c hc => ?_⟩
    have hnetwork : ∀ c ∈ "192.0.2.".toList,
        UriChar c ∧ c ≠ ':' ∧ c ≠ ';' ∧ c ≠ '?' ∧ c ≠ '[' := forall_mem_of_all (by decide)
    rcases List.mem_append.mp hc with hc | hc
    · exact hnetwork c hc
    · rw [List.mem_singleton.mp hc]
      refine ⟨uriChar_digit hdigit, ?_, ?_, ?_, ?_⟩ <;>
        · rintro rfl
          exact absurd hdigit (by decide)
  port_ok p h := by cases h
  rest_chars := forall_mem_of_all (by decide)
  rest_ok c h := Or.inl (Option.some.inj h).symm

/-- A URI in brackets. -/
def bareAddr (uri : SipUri) : NameAddr where
  display := []
  uri := uri
  params := []
  display_tight c h := by cases h
  params_tight c h := by cases h
  params_ok := Or.inl rfl

/-- An entry without white space around it. -/
def bareEntry (uri : SipUri) : RouteEntry where
  before := []
  route := bareAddr uri
  after := []
  blank_before := blank_nil
  blank_after := blank_nil

/-- A Record-Route line with the given entries. -/
def sampleRouteLine (uris : List SipUri) : HeaderLine :=
  .recordRoute ⟨"Record-Route".toList, uris.map bareEntry, recordRoute_name_ok⟩

/-- The header lines of a sample INVITE. -/
def sampleLines (uris : List SipUri) : List HeaderLine :=
  [.other "Call-ID: a" fun i hi => by
      obtain rfl : 7 = i := Option.some.inj hi
      decide,
    .other "Contact: <sip:192.0.2.9;lr>" fun i hi => by
      obtain rfl : 7 = i := Option.some.inj hi
      decide,
    sampleRouteLine uris]

/-- An INVITE with the given Record-Route line. -/
def routedInvite (routes : String) : String :=
  "INVITE sip:+2@h SIP/2.0\r\nCall-ID: a\r\nContact: <sip:192.0.2.9;lr>\r\nRecord-Route:" ++ routes ++
    "\r\n\r\nc=IN IP4 1.2.3.4\r\nm=audio 4000 RTP/AVP 0"

/-- The server while the INVITE with the given routes is suspended, and once it is accepted. -/
def routedPending (routes : String) : SipServer :=
  Run.exec step (new "10.0.0.1" 5060 10000 4) [.datagram (routedInvite routes) sampleRemote "1"]

def routedCall (routes : String) : SipServer :=
  Run.exec step (new "10.0.0.1" 5060 10000 4)
    ([.datagram (routedInvite routes) sampleRemote "1"] ++ .rtpStarted 0 "tag0" "1" :: [])

/-- With one proxy, the BYE follows the route. -/
theorem followsRoutes_oneProxy :
    FollowsRoutes [bareAddr (sampleUri '7' rfl)] (.nameAddr (bareAddr (sampleUri '9' rfl)))
      (routedCall "<sip:192.0.2.7;lr>") "a" "branch" := by
  -- one evaluation of the run gives everything that is asked of it
  have hrun : (((routedPending "<sip:192.0.2.7;lr>").pending? 0).any fun inv =>
      ((routedCall "<sip:192.0.2.7;lr>").dialogs.get? "a").any fun d =>
        decide (d.rtpSession = inv.rtpSession ∧
          inv.msg.rawHeaders = (sampleLines [sampleUri '7' rfl]).map HeaderLine.text ∧
          inv.msg.header "contact" = "<sip:192.0.2.9;lr>")) = true := by
    decide +kernel
  obtain ⟨inv, hinv, hcall⟩ := (Option.any_eq_true _ _).mp hrun
  obtain ⟨d, hd, hfacts⟩ := (Option.any_eq_true _ _).mp hcall
  obtain ⟨hsession, hlines, hcontact⟩ := of_decide_eq_true hfacts
  have hplain : (bareAddr (sampleUri '7' rfl)).Plain :=
    ⟨fun c hc => absurd hc List.not_mem_nil, fun c hc => absurd hc List.not_mem_nil⟩
  refine (followsRoutes_iff "10.0.0.1" 5060 10000 4
    [.datagram (routedInvite "<sip:192.0.2.7;lr>") sampleRemote "1"] [] 0 "tag0" "1" "a" "branch" inv d
    (sampleLines [sampleUri '7' rfl]) (.nameAddr (bareAddr (sampleUri '9' rfl))) hinv hd
    hsession hlines hcontact ?_ List.not_mem_nil).mpr ⟨rfl, ?_⟩
  · intro line hline a ha
    simp only [sampleLines, List.mem_cons, List.not_mem_nil, or_false] at hline
    rcases hline with rfl | rfl | rfl
    · exact absurd ha List.not_mem_nil
    · exact absurd ha List.not_mem_nil
    · rw [List.mem_singleton.mp ha]
      exact hplain
  · intro a ha
    rw [← Option.some.inj ha]
    exact Or.inl ⟨rfl, rfl⟩

/-- With two proxies, the BYE goes to the far one first. -/
theorem not_followsRoutes_twoProxies :
    ¬ FollowsRoutes [bareAddr (sampleUri '7' rfl), bareAddr (sampleUri '8' rfl)]
      (.nameAddr (bareAddr (sampleUri '9' rfl)))
      (routedCall "<sip:192.0.2.7;lr>,<sip:192.0.2.8;lr>") "a" "branch" := by
  rintro ⟨bye, ip, port, houts, hraw, -⟩
  -- The routes of one line are reversed as well.
  have hsent : newOutputs (routedCall "<sip:192.0.2.7;lr>,<sip:192.0.2.8;lr>")
      ((routedCall "<sip:192.0.2.7;lr>,<sip:192.0.2.8;lr>").endCall "a" "branch") =
      [.request
        { method := "BYE"
          requestUri := "sip:192.0.2.9;lr"
          rawHeaderLines := ["Route: <sip:192.0.2.8;lr>", "Route: <sip:192.0.2.7;lr>"]
          headers :=
            [("Via", "SIP/2.0/UDP 10.0.0.1:5060;branch=branch"), ("From", ";tag=tag0"), ("To", ""),
              ("Call-ID", "a"), ("CSeq", "2 BYE"), ("Max-Forwards", "70")]
          body := "" } "192.0.2.8" 5060] := by
    decide +kernel
  rw [hsent] at houts
  obtain ⟨rfl, -⟩ := Output.request.inj (List.cons.inj houts).1
  revert hraw
  decide +kernel

end SipServer

end VoiceServer
