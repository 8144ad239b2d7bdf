import VoiceAgentPlatform.VoiceServer.SipServer

/-!
# The routing headers of responses

The responses of the server echo the Via and Record-Route lines of the request. Which lines these are
is decided by the beginning of the line, where the parser trims the name in front of the colon.

* `headerName`, `routingLines`: the name of a header line as the parser reads it, and the lines of a
  request that are to be echoed.
* `TightName`: there are no blanks around the name.
* `echo_iff`: the routing headers are echoed exactly when no such line has blanks around its name.
-/

namespace VoiceServer

open JsText SipServer

/-- The name of a header line, as `parseSipMessage` reads it. -/
def headerName (line : String) : Option (List Char) :=
  (indexOf [':'] line.toList).map fun i => toLower (trim (line.toList.take i))

/-- The names of the routing headers. -/
def routingNames : List (List Char) :=
  [['v', 'i', 'a'], ['v'], ['r', 'e', 'c', 'o', 'r', 'd', '-', 'r', 'o', 'u', 't', 'e']]

/-- The line is a Via or a Record-Route. -/
def IsRouting (line : String) : Prop := ∃ name ∈ routingNames, headerName line = some name

instance (line : String) : Decidable (IsRouting line) :=
  inferInstanceAs (Decidable (∃ name ∈ routingNames, _))

/-- The routing headers of a message. -/
def routingLines (msg : SipMessage) : List String := msg.rawHeaders.filter fun line => IsRouting line

/-- There are no blanks around the name of the line. -/
def TightName (line : String) : Prop :=
  ∀ i, indexOf [':'] line.toList = some i → trim (line.toList.take i) = line.toList.take i

/-! ### One line -/

/-- A line up to its first colon, and what follows. -/
theorem exists_of_indexOf_colon {s : List Char} {i : ℕ} (h : indexOf [':'] s = some i) :
    ∃ name rest, ':' ∉ name ∧ s = name ++ ':' :: rest ∧ s.take i = name := by
  by_cases hmem : ':' ∈ s
  · obtain ⟨name, rest, rfl, hname⟩ := List.eq_append_cons_of_mem hmem
    rw [indexOf_append hname, Option.some.injEq] at h
    exact ⟨name, rest, hname, rfl, h ▸ List.take_left' rfl⟩
  · rw [indexOf_eq_none hmem] at h
    exact absurd h nofun

/-- The test of `getEchoHeaders`. -/
def isEchoed (line : String) : Bool :=
  let lowerLine := toLower line.toList
  startsWith "via:".toList lowerLine || startsWith "v:".toList lowerLine ||
    startsWith "record-route:".toList lowerLine

theorem isEchoed_iff_exists (line : String) :
    isEchoed line = true ↔
      ∃ name ∈ routingNames, startsWith (name ++ [':']) (toLower line.toList) = true := by
  have hvia : "via:".toList = ['v', 'i', 'a'] ++ [':'] := by simp
  have hcompact : "v:".toList = ['v'] ++ [':'] := by simp
  have hroute : "record-route:".toList =
      ['r', 'e', 'c', 'o', 'r', 'd', '-', 'r', 'o', 'u', 't', 'e'] ++ [':'] := by simp
  rw [isEchoed, hvia, hcompact, hroute]
  simp only [routingNames, List.mem_cons, List.not_mem_nil, or_false, or_and_right, exists_or,
    exists_eq_left, Bool.or_eq_true, or_assoc]

/-- A name that is a routing header's when it is lowered is one when it is trimmed too, and has no
blanks around it. -/
theorem trim_of_toLower_mem {name : List Char} (h : toLower name ∈ routingNames) :
    trim name = name := by
  have hspace : ∀ word ∈ routingNames, ∀ c ∈ word, isSpace c = false := by decide
  have hname : ∀ c ∈ name, isSpace c = false := fun c hc =>
    isSpace_of_isSpace_toLower (hspace _ h _ (List.mem_map_of_mem hc))
  refine trim_of_tight ⟨fun c hc => hname c ?_, fun c hc => hname c ?_⟩
  · exact List.mem_of_mem_head? hc
  · exact List.mem_of_getLast? hc

/-- A line is echoed exactly if it is a routing header without blanks around its name. -/
theorem isEchoed_iff (line : String) : isEchoed line = true ↔ IsRouting line ∧ TightName line := by
  rw [isEchoed_iff_exists]
  match hcolon : indexOf [':'] line.toList with
  | none =>
    -- There is no colon behind any name.
    have hnotMem : ':' ∉ line.toList := by
      intro hmem
      obtain ⟨name, rest, hline, hname⟩ := List.eq_append_cons_of_mem hmem
      rw [hline, indexOf_append hname] at hcolon
      exact absurd hcolon nofun
    refine iff_of_false ?_ ?_
    · rintro ⟨name, -, hstarts⟩
      have hlead := List.isPrefixOf_iff_prefix.mp hstarts
      exact colon_notMem_toLower hnotMem (hlead.subset (by simp))
    · rintro ⟨⟨name, -, hheader⟩, -⟩
      rw [headerName, hcolon] at hheader
      exact absurd hheader nofun
  | some i =>
    obtain ⟨name, rest, hname, hline, htake⟩ := exists_of_indexOf_colon hcolon
    have hheader : headerName line = some (toLower (trim name)) := by
      rw [headerName, hcolon, Option.map_some, htake]
    have htight : TightName line ↔ trim name = name := by
      rw [TightName, hcolon, ← htake]
      simp
    have hlower : toLower line.toList = toLower name ++ ':' :: toLower rest := by
      rw [hline, toLower_append]
      rfl
    have hnames : ∀ word ∈ routingNames, ':' ∉ word := by decide
    have hechoed : (∃ word ∈ routingNames,
        startsWith (word ++ [':']) (toLower line.toList) = true) ↔ toLower name ∈ routingNames := by
      rw [hlower]
      constructor
      · rintro ⟨word, hword, hstarts⟩
        rwa [(startsWith_word_iff (hnames word hword) (colon_notMem_toLower hname) _).mp hstarts]
      · intro hmem
        exact ⟨_, hmem, (startsWith_word_iff (hnames _ hmem) (colon_notMem_toLower hname) _).mpr rfl⟩
    rw [hechoed, htight, IsRouting, hheader]
    simp only [Option.some.injEq, exists_eq_right']
    constructor
    · intro hmem
      have htrim := trim_of_toLower_mem hmem
      exact ⟨htrim.symm ▸ hmem, htrim⟩
    · rintro ⟨hmem, htrim⟩
      rwa [htrim] at hmem

theorem filter_eq_filter_iff {α : Type} {p q : α → Bool} {xs : List α} :
    xs.filter p = xs.filter q ↔ ∀ x ∈ xs, (p x = true ↔ q x = true) := by
  constructor
  · intro h x hx
    have hmem := congrArg (x ∈ ·) h
    simpa [hx] using hmem
  · intro h
    exact List.filter_congr fun x hx => Bool.eq_iff_iff.mpr (h x hx)

/-! ### Responses -/

/-- The echo of a request has all its routing headers exactly if none has blanks around its name. -/
theorem getEchoHeaders_eq_iff (msg : SipMessage) :
    getEchoHeaders msg = routingLines msg ↔
      ∀ line ∈ msg.rawHeaders, IsRouting line → TightName line := by
  have hecho : getEchoHeaders msg = msg.rawHeaders.filter isEchoed := rfl
  rw [hecho, routingLines, filter_eq_filter_iff]
  refine forall₂_congr fun line _ => ?_
  rw [isEchoed_iff, decide_eq_true_eq]
  exact ⟨fun h hrouting => (h.mpr hrouting).2, fun h => ⟨And.left, fun hr => ⟨hr, h hr⟩⟩⟩

/-- Only routing headers have Record-Route entries. -/
theorem recordRoutesOfLine_eq_nil {line : String} (h : ¬ IsRouting line) :
    recordRoutesOfLine line = [] := by
  rw [recordRoutesOfLine]
  split
  · rfl
  · rename_i i hcolon
    have hroute : "record-route".toList =
        ['r', 'e', 'c', 'o', 'r', 'd', '-', 'r', 'o', 'u', 't', 'e'] := by simp
    refine if_neg fun hname => h ⟨"record-route".toList, ?_, ?_⟩
    · rw [hroute]
      decide
    · rw [headerName, hcolon, Option.map_some, hname]

/-- The routing headers of a message have all its Record-Route entries. -/
theorem extractRecordRoutes_routingLines (msg : SipMessage) :
    extractRecordRoutes (routingLines msg) = extractRecordRoutes msg.rawHeaders := by
  rw [extractRecordRoutes, extractRecordRoutes, routingLines]
  induction msg.rawHeaders with
  | nil => rfl
  | cons line lines ih =>
    rw [List.flatMap_cons, List.filter_cons]
    split_ifs with hrouting
    · rw [List.flatMap_cons, ih]
    · rw [recordRoutesOfLine_eq_nil (by simpa using hrouting), ih]
      rfl

/-- The responses to a request carry its routing headers, and the 200 to an INVITE the route set of
its dialog, exactly when no routing header of the request has blanks around its name. -/
theorem echo_iff (s : SipServer) (raw : String) (sdpBody localTag : String) (code : ℕ)
    (reason : String) :
    let msg := parseSipMessage raw
    ((s.okWithSdp msg sdpBody localTag).rawHeaderLines = routingLines msg ∧
        (responseTo msg code reason).rawHeaderLines = routingLines msg ∧
        ∀ inv : PendingInvite, inv.msg = msg →
          extractRecordRoutes (s.okWithSdp msg sdpBody localTag).rawHeaderLines =
            (dialogOf inv localTag).recordRoutes) ↔
      ∀ line ∈ msg.rawHeaders, IsRouting line → TightName line := by
  intro msg
  rw [← getEchoHeaders_eq_iff]
  constructor
  · exact fun h => h.1
  · intro hecho
    refine ⟨hecho, hecho, ?_⟩
    intro inv hinv
    show extractRecordRoutes (getEchoHeaders msg) = extractRecordRoutes inv.msg.rawHeaders
    rw [hecho, hinv, extractRecordRoutes_routingLines]

/-- A request with a blank behind the name of its Via. -/
def spacedVia : String := "OPTIONS sip:a SIP/2.0\r\nVia : SIP/2.0/UDP h\r\n\r\n"

/-- The Via is missing in the response. -/
theorem spacedVia_dropped :
    ¬ ∀ (raw : String) (code : ℕ) (reason : String),
      (responseTo (parseSipMessage raw) code reason).rawHeaderLines =
        routingLines (parseSipMessage raw) := by
  intro hall
  have hlines := hall spacedVia 200 "OK"
  have hraw : (parseSipMessage spacedVia).rawHeaders = ["Via : SIP/2.0/UDP h"] := by decide +kernel
  have hecho : getEchoHeaders (parseSipMessage spacedVia) = [] := by
    rw [getEchoHeaders, hraw]
    decide +kernel
  have hrouting : routingLines (parseSipMessage spacedVia) = ["Via : SIP/2.0/UDP h"] := by
    rw [routingLines, hraw]
    decide +kernel
  have hsame : getEchoHeaders (parseSipMessage spacedVia) = routingLines (parseSipMessage spacedVia) :=
    hlines
  rw [hecho, hrouting] at hsame
  exact absurd hsame nofun

end VoiceServer
