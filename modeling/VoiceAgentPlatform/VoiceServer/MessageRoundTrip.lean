import VoiceAgentPlatform.VoiceServer.FoldedHeaders

/-!
# Messages that are built and read back

`buildSipResponse` and `buildSipRequest` write messages that `parseSipMessage` reads. The parser keeps
the values in a plain object, which refuses the name `__proto__`; everything else comes back.

* `StartLine`, `Header`, `Outgoing`: what the two builders are given.
* `Outgoing.lines`: the header lines that they write, with the length of the body.
* `Recovers`: the parsed message has the fields, lines, values and body that were given.
* `recovers_iff`: the message comes back exactly when no name is `__proto__`.
-/

namespace VoiceServer

open JsText JsObject

/-! ### What the builders are given -/

/-- The start line of a message. A method is a token, which has neither blanks nor slashes. -/
inductive StartLine where
  | status (statusCode : ℕ) (reasonPhrase : List Char)
      (reason_ok : ∀ c ∈ reasonPhrase, c ≠ '\r' ∧ c ≠ '\n')
  | request (method requestUri : List Char)
      (method_ok : ∀ c ∈ method, c ≠ ' ' ∧ c ≠ '/' ∧ c ≠ '\r' ∧ c ≠ '\n')
      (uri_ok : ∀ c ∈ requestUri, c ≠ ' ' ∧ c ≠ '\r' ∧ c ≠ '\n')

/-- A header: a name without colon or white space, and a value without line breaks. -/
structure Header where
  name : List Char
  value : List Char
  name_ne : name ≠ []
  name_ok : ∀ c ∈ name, isSpace c = false ∧ c ≠ ':'
  value_ok : ∀ c ∈ value, c ≠ '\r' ∧ c ≠ '\n'

namespace Header

/-- The line of a header. -/
def text (h : Header) : List Char := h.name ++ ':' :: ' ' :: h.value

/-- The name under which the parser keeps the value. -/
def key (h : Header) : String := String.ofList (toLower h.name)

/-- The header as an entry of a map. -/
def entry (h : Header) : String × String := (String.ofList h.name, String.ofList h.value)

end Header

/-- The headers and the body of a message: header lines that are complete, and a map of headers. -/
structure Outgoing where
  rawHeaderLines : List Header
  headers : List Header
  body : String

/-- The text of a message. -/
def StartLine.build (start : StartLine) (o : Outgoing) : String :=
  let rawHeaderLines := o.rawHeaderLines.map fun h => String.ofList h.text
  let headers := o.headers.map Header.entry
  match start with
  | status statusCode reasonPhrase _ =>
    buildSipResponse
      { statusCode, reasonPhrase := String.ofList reasonPhrase, rawHeaderLines, headers
        body := o.body }
  | request method requestUri _ _ =>
    buildSipRequest
      { method := String.ofList method, requestUri := String.ofList requestUri, rawHeaderLines
        headers, body := o.body }

/-- The length of the body in bytes. -/
def contentLength (body : String) : Header where
  name := ['C', 'o', 'n', 't', 'e', 'n', 't', '-', 'L', 'e', 'n', 'g', 't', 'h']
  value := Nat.toDigits 10 body.utf8ByteSize
  name_ne := by decide
  name_ok := by decide
  value_ok c hc := by
    have hdigit : c.isDigit = true := isDigit_of_mem_toDigits hc
    constructor
    · rintro rfl
      exact absurd hdigit (by decide)
    · rintro rfl
      exact absurd hdigit (by decide)

/-- The header lines of a message, in order. -/
def Outgoing.lines (o : Outgoing) : List Header :=
  o.rawHeaderLines ++ o.headers ++ [contentLength o.body]

/-- The value of the last header with a name, up to the blanks around it. -/
def lastValue (lines : List Header) (key : String) : Option String :=
  (lines.reverse.find? fun h => h.key = key).map fun h => String.ofList (trim h.value)

/-- The fields of a start line. -/
def StartLine.ReadAs (start : StartLine) (msg : SipMessage) : Prop :=
  match start with
  | status statusCode reasonPhrase _ =>
    msg.method = none ∧ msg.requestUri = none ∧ msg.statusCode = some (statusCode : ℤ) ∧
      msg.reasonPhrase = some (String.ofList reasonPhrase)
  | request method requestUri _ _ =>
    msg.method = some (String.ofList method) ∧ msg.requestUri = some (String.ofList requestUri) ∧
      msg.statusCode = none ∧ msg.reasonPhrase = none

/-- The message is read as it was built. -/
structure Recovers (start : StartLine) (o : Outgoing) (msg : SipMessage) : Prop where
  start : start.ReadAs msg
  rawHeaders : msg.rawHeaders = o.lines.map fun h => String.ofList h.text
  values : ∀ h ∈ o.lines, msg.headers.get? h.key = lastValue o.lines h.key
  body : msg.body = o.body

/-! ### The text -/

/-- The version of SIP. -/
def sipVersion : List Char := ['S', 'I', 'P', '/', '2', '.', '0']

/-- The characters of a start line. -/
def StartLine.text : StartLine → List Char
  | status statusCode reasonPhrase _ =>
    sipVersion ++ ' ' :: (Nat.toDigits 10 statusCode ++ ' ' :: reasonPhrase)
  | request method requestUri _ _ => method ++ ' ' :: (requestUri ++ ' ' :: sipVersion)

theorem ne_break_of_isDigit {c : Char} (h : c.isDigit = true) : c ≠ '\r' ∧ c ≠ '\n' ∧ c ≠ ' ' := by
  refine ⟨?_, ?_, ?_⟩
  · rintro rfl
    exact absurd h (by decide)
  · rintro rfl
    exact absurd h (by decide)
  · rintro rfl
    exact absurd h (by decide)

theorem ne_break_of_mem_toDigits {n : ℕ} {c : Char} (h : c ∈ Nat.toDigits 10 n) :
    c ≠ '\r' ∧ c ≠ '\n' ∧ c ≠ ' ' :=
  ne_break_of_isDigit (isDigit_of_mem_toDigits h)

theorem StartLine.text_chars (start : StartLine) : '\r' ∉ start.text := by
  intro hmem
  match start with
  | status statusCode reasonPhrase reason_ok =>
    rw [text, List.mem_append, List.mem_cons, List.mem_append, List.mem_cons] at hmem
    rcases hmem with hmem | hmem | hmem | hmem | hmem
    · exact absurd hmem (by decide)
    · exact absurd hmem (by decide)
    · exact (ne_break_of_mem_toDigits hmem).1 rfl
    · exact absurd hmem (by decide)
    · exact (reason_ok _ hmem).1 rfl
  | request method requestUri method_ok uri_ok =>
    rw [text, List.mem_append, List.mem_cons, List.mem_append, List.mem_cons] at hmem
    rcases hmem with hmem | hmem | hmem | hmem | hmem
    · exact (method_ok _ hmem).2.2.1 rfl
    · exact absurd hmem (by decide)
    · exact (uri_ok _ hmem).2.1 rfl
    · exact absurd hmem (by decide)
    · exact absurd hmem (by decide)

/-- The message with this start line and body. -/
def StartLine.message (start : StartLine) (body : String) : FoldedMessage where
  startLine := start.text
  lines := []
  body := body.toList
  oneLine := .of_not_mem start.text_chars

/-- The lines of the headers and the body, behind the start line. -/
theorem toList_buildHeadersAndBody (o : Outgoing) :
    (buildHeadersAndBody (o.rawHeaderLines.map fun h => String.ofList h.text)
      (o.headers.map Header.entry) o.body).toList =
      (o.lines.flatMap fun h => h.text ++ ['\r', '\n']) ++ '\r' :: '\n' :: o.body.toList := by
  -- The raw lines, the headers, and the length of the body.
  have hraw : (String.join ((o.rawHeaderLines.map fun h => String.ofList h.text).map
      fun line => line ++ "\r\n")).toList =
      o.rawHeaderLines.flatMap fun h => h.text ++ ['\r', '\n'] := by
    rw [String.toList_join, List.map_map, List.flatMap_map]
    refine List.flatMap_congr fun h _ => ?_
    rw [Function.comp_apply, String.toList_append, String.toList_ofList]
    rfl
  have hheaders : (String.join ((o.headers.map Header.entry).map
      fun e => e.1 ++ ": " ++ e.2 ++ "\r\n")).toList =
      o.headers.flatMap fun h => h.text ++ ['\r', '\n'] := by
    rw [String.toList_join, List.map_map, List.flatMap_map]
    refine List.flatMap_congr fun h _ => ?_
    simp [Header.entry, Header.text]
  have hlength : (contentLength o.body).text =
      "Content-Length: ".toList ++ (toString o.body.utf8ByteSize).toList := by
    simp [Header.text, contentLength]
  rw [buildHeadersAndBody, String.toList_append, String.toList_append, String.toList_append,
    String.toList_append, String.toList_append, hraw, hheaders, Outgoing.lines, List.flatMap_append,
    List.flatMap_append, List.flatMap_singleton, hlength]
  simp

theorem StartLine.build_eq (start : StartLine) (o : Outgoing) :
    start.build o = (start.message o.body).render (o.lines.map Header.text) := by
  have hshift (lines : List Header) (t : List Char) :
      '\r' :: '\n' :: ((lines.flatMap fun h => h.text ++ ['\r', '\n']) ++ t) =
        (lines.map Header.text).flatMap (fun line => '\r' :: '\n' :: line) ++ '\r' :: '\n' :: t := by
    induction lines generalizing t with
    | nil => rfl
    | cons h lines ih => simp [← ih]
  apply String.toList_inj.mp
  match start with
  | status statusCode reasonPhrase _ =>
    rw [build, buildSipResponse, String.toList_append, toList_buildHeadersAndBody]
    simp [FoldedMessage.render, FoldedMessage.section_, message, text, sipVersion, hshift]
  | request method requestUri _ _ =>
    rw [build, buildSipRequest, String.toList_append, toList_buildHeadersAndBody]
    simp [FoldedMessage.render, FoldedMessage.section_, message, text, sipVersion, hshift]

/-! ### The headers -/

theorem Header.filledLine (h : Header) : FilledLine h.text := by
  refine ⟨.of_not_mem fun hmem => ?_, List.append_ne_nil_of_right_ne_nil _ (List.cons_ne_nil _ _)⟩
  rw [text, List.mem_append, List.mem_cons, List.mem_cons] at hmem
  rcases hmem with hmem | hmem | hmem | hmem
  · exact absurd (h.name_ok _ hmem).1 (by decide)
  · exact absurd hmem (by decide)
  · exact absurd hmem (by decide)
  · exact (h.value_ok _ hmem).1 rfl

theorem Header.tight_name (h : Header) : Tight h.name where
  head c hc := (h.name_ok c (List.mem_of_mem_head? hc)).1
  last c hc := (h.name_ok c (List.mem_of_getLast? hc)).1

/-- A header that was written is read as it is. -/
theorem addLine_header (lines : HeaderLines) (h : Header) :
    lines.addLine h.text =
      { headers := assign lines.headers h.key (String.ofList (trim h.value))
        rawHeaders := lines.rawHeaders ++ [String.ofList h.text] } := by
  -- A line that begins with its name is no continuation.
  have hfirst : (startsWith [' '] h.text || startsWith ['\t'] h.text) = false := by
    match hname : h.name with
    | [] => exact absurd hname h.name_ne
    | c :: name =>
      have hspace := (h.name_ok c (hname ▸ List.mem_cons_self)).1
      have hhead : h.text.head? = some c := by rw [Header.text, hname]; rfl
      rw [Bool.or_eq_false_iff, Bool.eq_false_iff, Bool.eq_false_iff, ne_eq, ne_eq,
        startsWith_singleton, startsWith_singleton, hhead, Option.some.injEq, Option.some.injEq]
      constructor
      · rintro rfl
        exact absurd hspace (by decide)
      · rintro rfl
        exact absurd hspace (by decide)
  have hcolon : indexOf [':'] h.text = some h.name.length :=
    indexOf_append (fun hmem => (h.name_ok _ hmem).2 rfl) _
  have hdrop : h.text.drop (h.name.length + 1) = ' ' :: h.value := by
    rw [Header.text, List.drop_append]
    simp
  have hvalue : trim (' ' :: h.value) = trim h.value :=
    trim_blank_append (a := [' ']) (fun c hc => by rw [List.mem_singleton.mp hc]; rfl) h.value
  rw [HeaderLines.addLine, if_neg (by rw [hfirst]; exact Bool.false_ne_true), hcolon]
  simp only [hdrop, hvalue]
  rw [Header.text, List.take_left' rfl, trim_of_tight h.tight_name]
  rfl

theorem lastValue_append_singleton (lines : List Header) (h : Header) (key : String) :
    lastValue (lines ++ [h]) key =
      if h.key = key then some (String.ofList (trim h.value)) else lastValue lines key := by
  rw [lastValue, List.reverse_append, List.reverse_singleton, List.singleton_append, List.find?_cons]
  split_ifs with hkey
  · simp [hkey]
  · simp [hkey, lastValue]

/-- The headers of a message, as they are read. -/
theorem read_headers (lines : List Header) :
    let read := (lines.map Header.text).foldl HeaderLines.addLine ⟨∅, []⟩
    read.rawHeaders = lines.map (fun h => String.ofList h.text) ∧
      ∀ key, read.headers.get? key = if key = "__proto__" then none else lastValue lines key := by
  induction lines using List.reverseRecOn with
  | nil => exact ⟨rfl, fun key => (ite_self _).symm⟩
  | append_singleton lines h ih =>
    obtain ⟨hraw, hvalues⟩ := ih
    simp only [List.map_append, List.map_singleton, List.foldl_append, List.foldl_cons,
      List.foldl_nil, addLine_header]
    refine ⟨by rw [hraw], fun key => ?_⟩
    rw [lastValue_append_singleton]
    by_cases hproto : h.key = "__proto__"
    · -- The object refuses the name.
      rw [assign, if_pos hproto, hvalues]
      split_ifs with hkey hsame
      · rfl
      · exact absurd (hsame.symm.trans hproto) hkey
      · rfl
    · rw [get?_assign hproto, hvalues]
      rcases eq_or_ne h.key key with rfl | hkey
      · rw [if_pos rfl, if_pos rfl, if_neg hproto]
      · rw [if_neg hkey.symm, if_neg hkey]

/-! ### Start lines -/

/-- What a message says besides its headers. -/
theorem parse_render_nil (m : FoldedMessage) :
    let parts := (splitOn ' ' [] m.startLine).map String.ofList
    let isResponse := startsWith ['S', 'I', 'P', '/'] m.startLine
    let msg := parseSipMessage (m.render [])
    msg.method = (if isResponse then none else parts[0]?) ∧
      msg.requestUri = (if isResponse then none else parts[1]?) ∧
      msg.statusCode =
        (if isResponse then parts[1]?.bind fun p => parseInt10 p.toList else none) ∧
      msg.reasonPhrase = (if isResponse then some (" ".intercalate (parts.drop 2)) else none) ∧
      msg.body = String.ofList m.body := by
  have hnone : ∀ line ∈ ([] : List (List Char)), FilledLine line :=
    fun _ h => absurd h List.not_mem_nil
  have hdrop : (m.section_ [] ++ '\r' :: '\n' :: '\r' :: '\n' :: m.body).drop
      ((m.section_ []).length + 4) = m.body := by
    rw [List.drop_append]
    simp
  intro parts isResponse msg
  have hversion : "SIP/".toList = ['S', 'I', 'P', '/'] := by simp
  -- The first empty line ends the header section.
  have hmsg : msg = parseSipMessage (m.render []) := rfl
  simp only [parseSipMessage, FoldedMessage.render, String.toList_ofList, m.indexOf_render hnone,
    Option.elim_some, List.take_left', m.splitCrlf_section hnone, hdrop, List.headD_cons] at hmsg
  rw [hversion] at hmsg
  rw [hmsg]
  exact ⟨rfl, rfl, rfl, rfl, rfl⟩

theorem splitOn_status (statusCode : ℕ) (reasonPhrase : List Char) :
    splitOn ' ' [] (sipVersion ++ ' ' :: (Nat.toDigits 10 statusCode ++ ' ' :: reasonPhrase)) =
      sipVersion :: Nat.toDigits 10 statusCode :: splitOn ' ' [] reasonPhrase := by
  rw [splitOn_append (by decide), splitOn_append fun hmem => (ne_break_of_mem_toDigits hmem).2.2 rfl]
  rfl

/-- A status line is read as it is; the blanks of its reason stay. -/
theorem readAs_status (statusCode : ℕ) (reasonPhrase : List Char)
    (reason_ok : ∀ c ∈ reasonPhrase, c ≠ '\r' ∧ c ≠ '\n') (body : String) :
    (StartLine.status statusCode reasonPhrase reason_ok).ReadAs
      (parseSipMessage (((StartLine.status statusCode reasonPhrase reason_ok).message body).render
        [])) := by
  obtain ⟨hmethod, huri, hcode, hreason, -⟩ :=
    parse_render_nil ((StartLine.status statusCode reasonPhrase reason_ok).message body)
  have hline : ((StartLine.status statusCode reasonPhrase reason_ok).message body).startLine =
      sipVersion ++ ' ' :: (Nat.toDigits 10 statusCode ++ ' ' :: reasonPhrase) := rfl
  have hresponse : startsWith ['S', 'I', 'P', '/']
      (sipVersion ++ ' ' :: (Nat.toDigits 10 statusCode ++ ' ' :: reasonPhrase)) = true := rfl
  rw [hline] at hmethod huri hcode hreason
  rw [hresponse, if_pos rfl] at hmethod huri hcode hreason
  rw [splitOn_status] at hcode hreason
  refine ⟨hmethod, huri, hcode.trans ?_, hreason.trans ?_⟩
  · rw [List.map_cons, List.map_cons]
    show parseInt10 (String.ofList (Nat.toDigits 10 statusCode)).toList = _
    rw [String.toList_ofList, ← List.append_nil (Nat.toDigits 10 statusCode)]
    exact parseInt10_toDigits statusCode nofun
  · refine congrArg some (String.toList_inj.mp ?_)
    have hblank : " ".toList = [' '] := by simp
    rw [String.toList_intercalate, hblank, List.map_cons, List.map_cons, List.drop_succ_cons,
      List.drop_succ_cons, List.drop_zero, List.map_map]
    -- The phrase is split at its blanks, and joined again.
    have hpieces : (String.toList ∘ String.ofList) = id := by
      ext1 s
      exact String.toList_ofList
    rw [hpieces, List.map_id, intercalate_splitOn, String.toList_ofList]
    rfl

/-- A line that begins with a method is none of a response. -/
theorem startsWith_version_eq_false {method : List Char} (hslash : ∀ c ∈ method, c ≠ '/')
    (s : List Char) : startsWith ['S', 'I', 'P', '/'] (method ++ ' ' :: s) = false := by
  rw [Bool.eq_false_iff]
  intro hstarts
  -- The slash would be in the method, or the blank behind the method in the version.
  match method with
  | [] | [_] | [_, _] | [_, _, _] => simp [startsWith, List.isPrefixOf] at hstarts
  | _ :: _ :: _ :: d :: _ =>
    refine hslash d (by simp) ?_
    simp only [startsWith, List.cons_append, List.isPrefixOf, Bool.and_eq_true, beq_iff_eq] at hstarts
    exact hstarts.2.2.2.1.symm

/-- A request line is read as it is. -/
theorem readAs_request (method requestUri : List Char)
    (method_ok : ∀ c ∈ method, c ≠ ' ' ∧ c ≠ '/' ∧ c ≠ '\r' ∧ c ≠ '\n')
    (uri_ok : ∀ c ∈ requestUri, c ≠ ' ' ∧ c ≠ '\r' ∧ c ≠ '\n') (body : String) :
    (StartLine.request method requestUri method_ok uri_ok).ReadAs
      (parseSipMessage (((StartLine.request method requestUri method_ok uri_ok).message body).render
        [])) := by
  obtain ⟨hmethod, huri, hcode, hreason, -⟩ :=
    parse_render_nil ((StartLine.request method requestUri method_ok uri_ok).message body)
  have hline : ((StartLine.request method requestUri method_ok uri_ok).message body).startLine =
      method ++ ' ' :: (requestUri ++ ' ' :: sipVersion) := rfl
  have hrequest := startsWith_version_eq_false (fun c hc => (method_ok c hc).2.1)
    (requestUri ++ ' ' :: sipVersion)
  -- Neither the method nor the URI has a blank.
  have hparts : splitOn ' ' [] (method ++ ' ' :: (requestUri ++ ' ' :: sipVersion)) =
      [method, requestUri, sipVersion] := by
    rw [splitOn_append fun hmem => (method_ok _ hmem).1 rfl,
      splitOn_append fun hmem => (uri_ok _ hmem).1 rfl]
    rfl
  rw [hline] at hmethod huri hcode hreason
  rw [hrequest, if_neg Bool.false_ne_true] at hmethod huri hcode hreason
  rw [hparts] at hmethod huri
  exact ⟨hmethod, huri, hcode, hreason⟩

theorem StartLine.readAs_parse (start : StartLine) (body : String) :
    start.ReadAs (parseSipMessage ((start.message body).render [])) := by
  cases start with
  | status statusCode reasonPhrase reason_ok =>
    exact readAs_status statusCode reasonPhrase reason_ok body
  | request method requestUri method_ok uri_ok =>
    exact readAs_request method requestUri method_ok uri_ok body

/-! ### Whole messages -/

/-- A message that was built is read line by line. -/
theorem parse_build (start : StartLine) (o : Outgoing) :
    parseSipMessage (start.build o) =
      { parseSipMessage ((start.message o.body).render []) with
        headers := ((o.lines.map Header.text).foldl HeaderLines.addLine ⟨∅, []⟩).headers
        rawHeaders := ((o.lines.map Header.text).foldl HeaderLines.addLine ⟨∅, []⟩).rawHeaders } := by
  rw [start.build_eq, FoldedMessage.parse_render]
  intro line hline
  obtain ⟨h, -, rfl⟩ := List.mem_map.mp hline
  exact h.filledLine

theorem readAs_parse_build (start : StartLine) (o : Outgoing) :
    start.ReadAs (parseSipMessage (start.build o)) := by
  have hstart := start.readAs_parse o.body
  rw [parse_build]
  cases start with
  | status => simpa only [StartLine.ReadAs] using hstart
  | request => simpa only [StartLine.ReadAs] using hstart

theorem rawHeaders_parse_build (start : StartLine) (o : Outgoing) :
    (parseSipMessage (start.build o)).rawHeaders = o.lines.map fun h => String.ofList h.text := by
  rw [parse_build]
  exact (read_headers o.lines).1

theorem get?_parse_build (start : StartLine) (o : Outgoing) (key : String) :
    (parseSipMessage (start.build o)).headers.get? key =
      if key = "__proto__" then none else lastValue o.lines key := by
  rw [parse_build]
  exact (read_headers o.lines).2 key

theorem lastValue_ne_none {lines : List Header} {h : Header} (hmem : h ∈ lines) :
    lastValue lines h.key ≠ none := by
  rw [lastValue, ne_eq, Option.map_eq_none_iff, List.find?_eq_none]
  intro hall
  exact hall h (List.mem_reverse.mpr hmem) (by simp)

theorem contentLength_key_ne (body : String) : (contentLength body).key ≠ "__proto__" := by
  intro hkey
  have hchars := congrArg (fun s : String => s.toList.head?) hkey
  simp [Header.key, contentLength, toLower] at hchars

/-- A message comes back as it was built exactly when no header has the name `__proto__`, in any
letter case. -/
theorem recovers_iff (start : StartLine) (o : Outgoing) :
    Recovers start o (parseSipMessage (start.build o)) ↔
      ∀ h ∈ o.rawHeaderLines ++ o.headers, h.key ≠ "__proto__" := by
  constructor
  · intro hrecovers h hmem hproto
    -- An assignment to this name sets no header.
    have hline : h ∈ o.lines := List.mem_append_left _ hmem
    have hvalue := hrecovers.values h hline
    rw [get?_parse_build, if_pos hproto] at hvalue
    exact lastValue_ne_none hline hvalue.symm
  · intro hnames
    refine ⟨?_, rawHeaders_parse_build start o, fun h hmem => ?_, ?_⟩
    · exact readAs_parse_build start o
    · rw [get?_parse_build, if_neg]
      rcases List.mem_append.mp hmem with hmem | hmem
      · exact hnames h hmem
      · rw [List.mem_singleton.mp hmem]
        exact contentLength_key_ne o.body
    · have hbody := (parse_render_nil (start.message o.body)).2.2.2.2
      have hmsg : (parseSipMessage (start.build o)).body =
          (parseSipMessage ((start.message o.body).render [])).body := by rw [parse_build]
      exact hmsg.trans (hbody.trans String.ofList_toList)

/-- A header whose name the parser's object refuses. -/
def protoHeader : Header where
  name := ['_', '_', 'p', 'r', 'o', 't', 'o', '_', '_']
  value := ['x']
  name_ne := by decide
  name_ok := by decide
  value_ok := by decide

/-- Its value is lost. -/
theorem protoHeader_lost :
    ¬ ∀ (start : StartLine) (o : Outgoing), Recovers start o (parseSipMessage (start.build o)) := by
  intro hall
  have hrecovers := hall (.status 200 [] (by decide)) ⟨[protoHeader], [], ""⟩
  have hvalue := hrecovers.values protoHeader (List.mem_cons_self ..)
  rw [get?_parse_build, if_pos (by decide +kernel)] at hvalue
  exact absurd hvalue.symm (lastValue_ne_none List.mem_cons_self)

end VoiceServer
