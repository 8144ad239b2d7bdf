import VoiceAgentPlatform.Lib.JsNumber
import VoiceAgentPlatform.Lib.JsObject

/-!
# SIP messages and SDP bodies

The parser and the generator of `sip-parser.ts` and `sdp-parser.ts`. Header values are strings; an
optional field is `none` where the source leaves it `undefined`, and a `NaN` number is `none` too.

* `parseSipMessage` reads a datagram into a `SipMessage`.
* `extractTag`, `extractUriFromAngle`, `extractPhoneFromHeader`, `extractHostPortFromUri` and
  `extractRecordRoutes` take header values apart.
* `SipResponse` and `SipRequest` carry the arguments of `buildSipResponse` and `buildSipRequest`,
  whose texts are what goes on the wire.
* `parseSdp` and `buildSdpAnswer` read and write the media description.
-/

namespace VoiceServer

open JsText

/-- A parsed SIP message. -/
structure SipMessage where
  method : Option String
  requestUri : Option String
  statusCode : Option ℤ
  reasonPhrase : Option String
  /-- Single-value headers under their lowercase names; the last line of a name wins. -/
  headers : OrderedMap String String
  /-- The header lines in the order received. -/
  rawHeaders : List String
  body : String

/-- `msg.headers[name] || ''`. -/
def SipMessage.header (msg : SipMessage) (name : String) : String :=
  (msg.headers.get? name).getD ""

/-- The headers read so far by the loop of `parseSipMessage`. -/
structure HeaderLines where
  headers : OrderedMap String String
  rawHeaders : List String

/-- One turn of the header loop: a line that starts with a blank continues the header before it,
any other line with a colon is a header. -/
def HeaderLines.addLine (h : HeaderLines) (line : List Char) : HeaderLines :=
  if startsWith [' '] line || startsWith ['\t'] line then
    let more := " " ++ String.ofList (trim line)
    { headers :=
        -- `if (lastKey)` is false of the empty name
        match JsObject.lastKey h.headers.keys with
        | some lastKey =>
          if lastKey = "" then h.headers
          else JsObject.assign h.headers lastKey ((h.headers.get? lastKey).getD "" ++ more)
        | none => h.headers
      rawHeaders :=
        match h.rawHeaders.getLast? with
        | some last => h.rawHeaders.dropLast ++ [last ++ more]
        | none => [] }
  else
    match indexOf [':'] line with
    | none => h
    | some colonIdx =>
      let key := trim (line.take colonIdx)
      let value := trim (line.drop (colonIdx + 1))
      { headers := JsObject.assign h.headers (String.ofList (toLower key)) (String.ofList value)
        rawHeaders := h.rawHeaders ++ [String.ofList line] }

/-- Parse a datagram. A first line that starts with `SIP/` makes it a response, any other one a
request. -/
def parseSipMessage (raw : String) : SipMessage :=
  let text := raw.toList
  let headerEnd := indexOf ['\r', '\n', '\r', '\n'] text
  let headerSection := headerEnd.elim text text.take
  let body := headerEnd.elim [] fun i => text.drop (i + 4)
  -- The first line is the request or the status line, the rest are the headers.
  let lines := splitCrlf [] headerSection
  let firstLine := lines.headD []
  let parts := (splitOn ' ' [] firstLine).map String.ofList
  let isResponse := startsWith "SIP/".toList firstLine
  let parsed := lines.tail.foldl HeaderLines.addLine ⟨∅, []⟩
  { method := if isResponse then none else parts[0]?
    requestUri := if isResponse then none else parts[1]?
    statusCode := if isResponse then parts[1]?.bind fun p => parseInt10 p.toList else none
    reasonPhrase := if isResponse then some (" ".intercalate (parts.drop 2)) else none
    headers := parsed.headers
    rawHeaders := parsed.rawHeaders
    body := String.ofList body }

/-- The phone number in a From or To value: what stands between `sip:` and `@`, or after `tel:`. -/
def extractPhoneFromHeader (headerValue : String) : String :=
  let text := headerValue.toList
  match capture "sip:".toList (fun c => c = '@' || c = '>') (some '@') text with
  | some phone => String.ofList phone
  | none =>
    match capture "tel:".toList (fun c => c = '>') none text with
    | some phone => String.ofList phone
    | none => ""

/-- The tag parameter of a From or To value. -/
def extractTag (headerValue : String) : String :=
  match capture ";tag=".toList (fun c => isSpace c || c = ';' || c = '>') none headerValue.toList with
  | some tag => String.ofList tag
  | none => ""

/-- The URI inside angle brackets; without brackets, the value up to its first `;`, trimmed. -/
def extractUriFromAngle (headerValue : String) : String :=
  let text := headerValue.toList
  match capture ['<'] (fun c => c = '>') (some '>') text with
  | some uri => String.ofList uri
  | none =>
    match indexOf [';'] text with
    | some semi => String.ofList (trim (text.take semi))
    | none => String.ofList (trim text)

/-- `s.replace(/^sips?:/i, '')`. -/
def dropSipScheme (s : List Char) : List Char :=
  if startsWith "sip:".toList (toLower s) then s.drop 4
  else if startsWith "sips:".toList (toLower s) then s.drop 5
  else s

/-- The host and port of a `sip:user@host:port;params` URI, `none` when there is no usable host or
the port is not a number. -/
def extractHostPortFromUri (uri : String) : Option (String × ℤ) :=
  let s := trim uri.toList
  let s := if startsWith ['<'] s && s.getLast? = some '>' then (s.drop 1).dropLast else s
  let s := dropSipScheme s
  let s := (indexOf ['@'] s).elim s fun atIdx => s.drop (atIdx + 1)
  let s := s.takeWhile fun c => !(c = ';' || c = '?')
  if s = [] then none
  else
    let hostPort : Option (List Char × List Char) :=
      if startsWith ['['] s then
        (indexOf [']'] s).map fun close =>
          ((s.take close).drop 1, if s[close + 1]? = some ':' then s.drop (close + 2) else [])
      else
        match lastIndexOf ':' s with
        | some colonIdx => some (s.take colonIdx, s.drop (colonIdx + 1))
        | none => some (s, [])
    match hostPort with
    | none => none
    | some (host, portStr) =>
      match if portStr = [] then some 5060 else parseInt10 portStr with
      | none => none
      | some port => if host = [] then none else some (String.ofList host, port)

/-- The pieces of a header value between the commas outside angle brackets; `depth` is the bracket
depth and `cur` the current piece, reversed. -/
def splitRoutes : ℤ → List Char → List Char → List (List Char)
  | _, cur, [] => [cur.reverse]
  | depth, cur, c :: s =>
    if c = '<' then splitRoutes (depth + 1) (c :: cur) s
    else if c = '>' then splitRoutes (depth - 1) (c :: cur) s
    else if c = ',' ∧ depth = 0 then cur.reverse :: splitRoutes depth [] s
    else splitRoutes depth (c :: cur) s

/-- The Record-Route entries of one header line; none for any other header. -/
def recordRoutesOfLine (line : String) : List String :=
  let text := line.toList
  match indexOf [':'] text with
  | none => []
  | some colonIdx =>
    if toLower (trim (text.take colonIdx)) = "record-route".toList then
      (((splitRoutes 0 [] (trim (text.drop (colonIdx + 1)))).map trim).filter (· ≠ [])).map
        String.ofList
    else []

/-- Every Record-Route entry of the raw header lines, in the order received. -/
def extractRecordRoutes (rawHeaders : List String) : List String :=
  rawHeaders.flatMap recordRoutesOfLine

/-- The arguments of `buildSipResponse`. -/
structure SipResponse where
  statusCode : ℕ
  reasonPhrase : String
  rawHeaderLines : List String
  headers : List (String × String)
  body : String
  deriving DecidableEq

/-- The arguments of `buildSipRequest`. -/
structure SipRequest where
  method : String
  requestUri : String
  rawHeaderLines : List String
  headers : List (String × String)
  body : String
  deriving DecidableEq

/-- The part of a message after its first line, which responses and requests share. -/
def buildHeadersAndBody (rawHeaderLines : List String) (headers : List (String × String))
    (body : String) : String :=
  String.join (rawHeaderLines.map fun line => line ++ "\r\n") ++
    String.join (headers.map fun e => e.1 ++ ": " ++ e.2 ++ "\r\n") ++
    "Content-Length: " ++ toString body.utf8ByteSize ++ "\r\n\r\n" ++ body

/-- The text of a response. -/
def buildSipResponse (r : SipResponse) : String :=
  "SIP/2.0 " ++ toString r.statusCode ++ " " ++ r.reasonPhrase ++ "\r\n" ++
    buildHeadersAndBody r.rawHeaderLines r.headers r.body

/-- The text of a request. -/
def buildSipRequest (r : SipRequest) : String :=
  r.method ++ " " ++ r.requestUri ++ " SIP/2.0\r\n" ++
    buildHeadersAndBody r.rawHeaderLines r.headers r.body

/-- The remote media endpoint: the address of the `c=` line, and the port and the payload types of the
`m=` line. A missing address is empty, a missing port is `some 0` and a malformed one `none`. -/
structure SdpMediaInfo where
  remoteIp : String
  remotePort : Option ℤ
  payloadTypes : List JsNumber
  deriving DecidableEq

/-- The variables of the loop of `parseSdp`. -/
structure SdpScan where
  remotePort : Option ℤ
  payloadTypes : List JsNumber
  sessionIp : List Char
  mediaIp : List Char
  inMediaSection : Bool

/-- The address of a `c=` line, without a multicast suffix. -/
def connectionIp (line : List Char) : List Char :=
  (splitOn '/' [] (trim (line.drop "c=IN IP4 ".length))).headD []

/-- The loop of `parseSdp`; a second media section ends it. -/
def scanSdp (st : SdpScan) : List (List Char) → SdpScan
  | [] => st
  | line :: lines =>
    if startsWith "c=IN IP4 ".toList line || startsWith "c=IN IP6 ".toList line then
      -- The connection of a section overrides that of the session.
      if st.inMediaSection then scanSdp { st with mediaIp := connectionIp line } lines
      else scanSdp { st with sessionIp := connectionIp line } lines
    else if startsWith "m=audio ".toList line then
      let parts := splitSpaces false [] line
      scanSdp
        { st with
          inMediaSection := true
          remotePort := parts[1]?.bind parseInt10
          payloadTypes := (parts.drop 3).filterMap number } lines
    else if startsWith "m=".toList line && !startsWith "m=audio".toList line && st.inMediaSection then
      st
    else scanSdp st lines

/-- Read the remote media endpoint from an SDP body. -/
def parseSdp (sdp : String) : SdpMediaInfo :=
  let st := scanSdp ⟨some 0, [], [], [], false⟩ (splitLines [] sdp.toList)
  { remoteIp := String.ofList (if st.mediaIp = [] then st.sessionIp else st.mediaIp)
    remotePort := st.remotePort
    payloadTypes := st.payloadTypes }

/-- The SDP answer for a local RTP endpoint; `sessionId` is the random session number. -/
def buildSdpAnswer (localIp : String) (localPort : ℕ) (sessionId : String) : String :=
  "\r\n".intercalate
    ["v=0",
      "o=- " ++ sessionId ++ " " ++ sessionId ++ " IN IP4 " ++ localIp,
      "s=voice-agent",
      "c=IN IP4 " ++ localIp,
      "t=0 0",
      "m=audio " ++ toString localPort ++ " RTP/AVP 0",
      "a=rtpmap:0 PCMU/8000",
      "a=ptime:20",
      "a=sendrecv",
      ""]

end VoiceServer
