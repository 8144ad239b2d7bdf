import Mathlib.Data.List.Infix
import VoiceAgentPlatform.Demos.Patch
import VoiceAgentPlatform.Lib.AtomicFile
import VoiceAgentPlatform.Lib.DictUpdate
import VoiceAgentPlatform.Lib.Json
import VoiceAgentPlatform.Lib.Raising

/-!
# The registry of MCP servers

`mcp_config.py`: the servers, kept in memory and in a JSON file that is written on the first change.

* `validateServer`: the canonical server of a body.
* `listServers`, `get`, `upsert`, `delete`: the methods of `McpConfig`.
-/

namespace Mcp

open AtomicFile Raising

/-- What a call raises. The values that a message interpolates are kept beside it, each in the place of
a `%`. -/
inductive Exc where
  | valueError (message : String) (args : List PyVal)
  | typeError
  | update (e : UpdateError)
  | write (s : WriteStep)

/-- `ALLOWED_TRANSPORTS`. -/
def allowedTransports : List String := ["sse", "streamable_http"]

/-- `HEADER_MASK`. -/
def headerMask : String := "***"

/-- `ALLOWED_AUTH_TYPES`. -/
def allowedAuthTypes : List String := ["none", "header", "sigv4"]

/-- `value in texts`. -/
def isOneOf (texts : List String) (value : PyVal) : Bool := texts.any fun t => value = .str t

/-- What `urlparse` takes from the libraries below it. -/
structure UrlLib where
  /-- The message for a network location with brackets whose host is no IP literal, if it is refused. -/
  checkBracketedNetloc : String → Option String
  /-- `unicodedata.normalize` with NFKC. -/
  normalize : String → String

/-- The scheme and the network location of a URL, unchecked. -/
def splitUrl (url : String) : String × String :=
  let cs := (url.toList.dropWhile fun c => c.toNat ≤ 32).filter fun c => c ≠ '\t' && c ≠ '\r' && c ≠ '\n'
  let head := cs.takeWhile (· ≠ ':')
  -- A scheme begins with a letter.
  let isScheme := (cs.dropWhile (· ≠ ':')) ≠ [] && (head.head?.any fun c => c.isAlpha) &&
    head.all fun c => c.isAlphanum || c = '+' || c = '-' || c = '.'
  let (scheme, rest) :=
    if isScheme then (head.map Char.toLower, (cs.dropWhile (· ≠ ':')).tail) else ([], cs)
  match rest with
  | '/' :: '/' :: rest =>
    (String.ofList scheme, String.ofList (rest.takeWhile fun c => c ≠ '/' && c ≠ '?' && c ≠ '#'))
  | _ => (String.ofList scheme, "")

/-- The check of the brackets around an IPv6 literal. -/
def checkBrackets (lib : UrlLib) (netloc : String) : Except Exc Unit :=
  let opens := netloc.toList.contains '['
  if opens != netloc.toList.contains ']' then .error (.valueError "Invalid IPv6 URL" [])
  else if opens then
    match lib.checkBracketedNetloc netloc with
    | some message => .error (.valueError message [])
    | none => .ok ()
  else .ok ()

/-- `_checknetloc`: no character stands for one that delimits. -/
def checkNetloc (lib : UrlLib) (netloc : String) : Except Exc Unit :=
  let name := String.ofList (netloc.toList.filter fun c => c ∉ ['@', ':', '#', '?'])
  let normal := lib.normalize name
  if netloc.toList.all fun c => c.toNat < 128 then .ok ()
  else if name = normal then .ok ()
  else if normal.toList.any ['/', '?', '#', '@', ':'].contains then
    .error (.valueError ("netloc '" ++ netloc ++ "' contains invalid characters under NFKC normalization")
      [])
  else .ok ()

/-- The scheme and the network location of a URL: `urlparse`. -/
def urlparse (lib : UrlLib) (url : String) : Except Exc (String × String) := do
  checkBrackets lib (splitUrl url).2
  checkNetloc lib (splitUrl url).2
  return splitUrl url

/-- The URL is of HTTP and has a network location. -/
def isHttpUrl (lib : UrlLib) (url : String) : Except Exc Bool := do
  let (scheme, netloc) ← urlparse lib url
  return (scheme = "http" || scheme = "https") && netloc ≠ ""

/-- A setting of SigV4: a non-empty string, or a default where there is none. -/
def sigv4Setting (auth : PyDict) (key default : String) : Except Exc PyVal :=
  match auth.get key with
  | .none => .ok (.str default)
  | .str s =>
    if s = "" then .error (.valueError ("auth." ++ key ++ " must be a non-empty string for sigv4") [])
    else .ok (.str s)
  | _ => .error (.valueError ("auth." ++ key ++ " must be a non-empty string for sigv4") [])

/-- `validate_auth`. -/
def validateAuth : PyVal → Except Exc PyDict
  | .none => .ok [("type", .str "none")]
  | .dict auth => do
    let atype := (PyDict.get? auth "type").getD (.str "none")
    if !isOneOf allowedAuthTypes atype then
      throw (.valueError "invalid auth.type %: must be one of %"
        [atype, .list (allowedAuthTypes.map .str)])
    -- Settings are kept for this type only.
    if atype = .str "sigv4" then
      let service ← sigv4Setting auth "service" "bedrock-agentcore"
      let region ← sigv4Setting auth "region" "us-east-1"
      return [("type", .str "sigv4"), ("service", service), ("region", region)]
    return [("type", atype)]
  | _ => .error (.valueError "auth must be an object" [])

/-- The check of a label, and `(label or "").strip() or sid`. -/
def validateLabel (sid : String) : PyVal → Except Exc String
  | .none => .ok sid
  | .str label => .ok (if PyText.strip label = "" then sid else PyText.strip label)
  | _ => .error (.valueError "label must be a string" [])

/-- The check of one header. -/
def validateHeader (e : String × PyVal) : Except Exc Unit :=
  match e.2 with
  | .str _ =>
    if e.1 = "" then
      .error (.valueError "invalid header entry %: keys and values must be strings" [.str e.1])
    else .ok ()
  | _ => .error (.valueError "invalid header entry %: keys and values must be strings" [.str e.1])

/-- The check of the headers. -/
def validateHeaders : PyVal → Except Exc PyDict
  | .none => .ok []
  | .dict headers => do
    headers.forM validateHeader
    return headers
  | _ => .error (.valueError "headers must be an object of string -> string" [])

/-- A server in its canonical form. -/
structure Server where
  id : String
  label : String
  transport : PyVal
  url : String
  headers : PyDict
  enabled : Bool
  auth : PyDict

/-- The dictionary of a server. -/
def Server.toDict (s : Server) : PyDict :=
  [("id", .str s.id), ("label", .str s.label), ("transport", s.transport), ("url", .str s.url),
    ("headers", .dict s.headers), ("enabled", .bool s.enabled), ("auth", .dict s.auth)]

/-- The check of an id. -/
def validateId (sid : PyVal) : Except Exc String :=
  let error := Exc.valueError "invalid server id %: must match % (lowercase slug, 2-63 chars)"
    [sid, .str "^[a-z0-9][a-z0-9-]\x7b1,62\x7d$"]
  match sid with
  | .str s => if Demos.isServerId s then .ok s else .error error
  | _ => .error error

/-- The check of a transport. -/
def validateTransport (transport : PyVal) : Except Exc Unit :=
  if transport = .str "stdio" then
    .error (.valueError "transport 'stdio' is not supported (security: no command execution)" [])
  else if !isOneOf allowedTransports transport then
    .error (.valueError "invalid transport %: must be one of %"
      [transport, .list (allowedTransports.map .str)])
  else .ok ()

/-- The check of a URL. -/
def validateUrl (lib : UrlLib) : PyVal → Except Exc String
  | .str url =>
    if url = "" then .error (.valueError "url is required" [])
    else do
      if !(← isHttpUrl lib url) then
        throw (.valueError "invalid url %: must be http(s) with a host" [.str url])
      return url
  | _ => .error (.valueError "url is required" [])

/-- The check of the flag. -/
def validateEnabled : PyVal → Except Exc Bool
  | .bool enabled => .ok enabled
  | _ => .error (.valueError "enabled must be a boolean" [])

/-- `validate_server`. -/
def validateServer (lib : UrlLib) : PyVal → Except Exc Server
  | .dict server => do
    let sid ← validateId (PyDict.get server "id")
    validateTransport (PyDict.get server "transport")
    let url ← validateUrl lib (PyDict.get server "url")
    let label ← validateLabel sid (PyDict.get server "label")
    let headers ← validateHeaders (PyDict.get server "headers")
    let enabled ← validateEnabled ((PyDict.get? server "enabled").getD (.bool true))
    let auth ← validateAuth (PyDict.get server "auth")
    return { id := sid, label, transport := PyDict.get server "transport", url, headers, enabled, auth }
  | _ => .error (.valueError "server must be an object" [])

theorem eq_of_validateId {v : PyVal} {sid : String} (h : validateId v = .ok sid) : v = .str sid := by
  cases v with
  | str s =>
    simp only [validateId] at h
    split_ifs at h
    rw [Except.ok.inj h]
  | _ => cases h

/-- A URL that is not refused is split as it stands. -/
theorem eq_of_urlparse {lib : UrlLib} {url : String} {p : String × String}
    (h : urlparse lib url = .ok p) : p = splitUrl url := by
  obtain ⟨⟨⟩, -, h⟩ := ok_of_bind h
  obtain ⟨⟨⟩, -, h⟩ := ok_of_bind h
  exact (Except.ok.inj h).symm

/-- Nothing is refused that is all ASCII and has no brackets. -/
theorem urlparse_of_plain (lib : UrlLib) {url : String}
    (hascii : ((splitUrl url).2.toList.all fun c => c.toNat < 128) = true)
    (hopen : (splitUrl url).2.toList.contains '[' = false)
    (hclose : (splitUrl url).2.toList.contains ']' = false) : urlparse lib url = .ok (splitUrl url) := by
  have hbrackets : checkBrackets lib (splitUrl url).2 = .ok () := by
    simp only [checkBrackets, hopen, hclose]
    rfl
  have hnetloc : checkNetloc lib (splitUrl url).2 = .ok () := if_pos hascii
  rw [urlparse, hbrackets, hnetloc]
  rfl

/-- An accepted URL is kept, and its scheme is one of HTTP. -/
theorem of_validateUrl {lib : UrlLib} {v : PyVal} {url : String} (h : validateUrl lib v = .ok url) :
    v = .str url ∧ ((splitUrl url).1 = "http" ∨ (splitUrl url).1 = "https") := by
  cases v with
  | str u =>
    rw [validateUrl] at h
    split_ifs at h
    obtain ⟨isHttp, hhttp, h⟩ := ok_of_bind h
    cases isHttp with
    | false => cases h
    | true =>
      obtain rfl := Except.ok.inj h
      -- What is parsed without an exception is what the URL splits into.
      obtain ⟨p, hp, hhttp⟩ := ok_of_bind hhttp
      obtain rfl := eq_of_urlparse hp
      have hscheme := Except.ok.inj hhttp
      simp only [Bool.and_eq_true, Bool.or_eq_true, decide_eq_true_eq] at hscheme
      exact ⟨rfl, hscheme.1⟩
  | _ => cases h

/-- The id of a server is that of its body. -/
theorem id_of_validateServer {lib : UrlLib} {body : PyVal} {s : Server}
    (h : validateServer lib body = .ok s) :
    ∃ d, body = .dict d ∧ PyDict.get d "id" = .str s.id := by
  cases body with
  | dict d =>
    refine ⟨d, rfl, ?_⟩
    obtain ⟨sid, hsid, h⟩ := ok_of_bind h
    obtain ⟨-, -, h⟩ := ok_of_bind h
    obtain ⟨url, -, h⟩ := ok_of_bind h
    obtain ⟨label, -, h⟩ := ok_of_bind h
    obtain ⟨headers, -, h⟩ := ok_of_bind h
    obtain ⟨enabled, -, h⟩ := ok_of_bind h
    obtain ⟨auth, -, h⟩ := ok_of_bind h
    obtain rfl := Except.ok.inj h
    exact eq_of_validateId hsid
  | _ => cases h

/-- The content of the registry: the servers, and the entries under other keys. -/
structure Registry where
  servers : List PyDict
  rest : PyDict

/-- The state of an `McpConfig`. -/
abbrev McpState := Backed Registry

/-- Programs over the registry. -/
abbrev McpM := FileM Registry Exc

/-- The registry without servers. -/
def emptyRegistry : Registry := ⟨[], []⟩

/-- A value that is an object. -/
def dict? : PyVal → Option PyDict
  | .dict d => some d
  | _ => none

/-- The registry that a file holds: `_load`. -/
def readRegistry [Json.Python] : Option (FileText Registry) → Registry
  | none => emptyRegistry
  | some (.dumped registry) => registry
  | some (.bytes b) =>
    match Json.loadBytes b with
    | some (.dict d) =>
      match PyDict.get d "servers" with
      | .list servers =>
        -- An entry that is not an object is dropped, and so it is lost at the next save.
        { servers := servers.filterMap dict?, rest := d.filter fun e => e.1 ≠ "servers" }
      | _ => emptyRegistry
    | _ => emptyRegistry

/-- The registry in memory, or that of the file. -/
def registryOf [Json.Python] (b : McpState) : Registry := b.cache.getD (readRegistry b.file)

def setCache (registry : Registry) : McpM Unit := modify fun b => { b with cache := some registry }

/-- `_ensure_loaded`. -/
def ensureLoaded [Json.Python] : McpM Registry := do
  let registry := registryOf (← MonadState.get)
  setCache registry
  return registry

/-- Raise what a check raises. -/
def ofExcept {α : Type} : Except Exc α → McpM α
  | .ok a => pure a
  | .error e => throw e

/-- `dict(s, headers=dict(s.get("headers") or {}))`: the other fields and the headers. -/
def copyServer (s : PyDict) : Except Exc (PyDict × PyMap) :=
  match PyMap.ofVal ((s.get "headers").orElse (.dict [])) with
  | .ok headers => .ok (s.filter fun e => e.1 ≠ "headers", headers)
  | .error e => .error (.update e)

/-- `list_servers`. -/
def listServers [Json.Python] : McpM (List (PyDict × PyMap)) := do
  let registry ← ensureLoaded
  ofExcept (registry.servers.mapM copyServer)

/-- The server with an id. -/
def findServer (servers : List PyDict) (id : String) : Option PyDict :=
  servers.find? fun s => s.get "id" = .str id

/-- `get`. -/
def get [Json.Python] (id : String) : McpM (Option (PyDict × PyMap)) := do
  let registry ← ensureLoaded
  match findServer registry.servers id with
  | none => return none
  | some s => return some (← ofExcept (copyServer s))

/-- `old_headers[k]`, if `k in old_headers`. -/
def oldHeader? (oldHeaders : PyVal) (key : String) : Except Exc (Option PyVal) :=
  match oldHeaders with
  | .dict d => .ok (PyDict.get? d key)
  | .list xs => if xs.contains (.str key) then .error .typeError else .ok none
  | .str s =>
    if s.toList.tails.any key.toList.isPrefixOf then .error .typeError else .ok none
  | _ => .error .typeError

/-- The headers with the values that are already stored in the place of masks; a mask without one is
dropped. -/
def resolveHeaders (oldHeaders : PyVal) : PyDict → Except Exc PyDict
  | [] => .ok []
  | (key, value) :: rest => do
    if value = .str headerMask then
      match ← oldHeader? oldHeaders key with
      | none => resolveHeaders oldHeaders rest
      | some old => return (key, old) :: (← resolveHeaders oldHeaders rest)
    else return (key, value) :: (← resolveHeaders oldHeaders rest)

/-- The server that an upsert stores. -/
def resolved (lib : UrlLib) (servers : List PyDict) (body : PyVal) : Except Exc Server := do
  let normalized ← validateServer lib body
  let existing := (findServer servers normalized.id).getD []
  let headers ← resolveHeaders ((existing.get "headers").orElse (.dict [])) normalized.headers
  return { normalized with headers }

/-- Store a server in the place of the first one with its id, or at the end. -/
def putServer (s : Server) : List PyDict → List PyDict
  | [] => [s.toDict]
  | x :: xs => if x.get "id" = .str s.id then s.toDict :: xs else x :: putServer s xs

/-- `_SCHEMA_VERSION` and the time of a write. -/
def metaEntry (now : String) : PyVal := .dict [("version", .int 1), ("updated_at", .str now)]

/-- `_persist`. The store is the one in memory, so the assignments to it stay if the write fails. -/
def persist (registry : Registry) (fault : Option WriteStep) (now : String) : McpM Unit := do
  let registry := { registry with rest := registry.rest.set "_meta" (metaEntry now) }
  setCache registry
  writeAtomic fault .write registry
  setCache registry

/-- `upsert`. A body that is no server raises before the file is read. -/
def upsert [Json.Python] (lib : UrlLib) (body : PyVal) (fault : Option WriteStep) (now : String) :
    McpM Server := do
  let _ ← ofExcept (validateServer lib body)
  let registry ← ensureLoaded
  let server ← ofExcept (resolved lib registry.servers body)
  persist { registry with servers := putServer server registry.servers } fault now
  return server

/-- `delete`. -/
def delete [Json.Python] (id : String) (fault : Option WriteStep) (now : String) : McpM Bool := do
  let registry ← ensureLoaded
  let servers := registry.servers.filter fun s => s.get "id" ≠ .str id
  if servers.length = registry.servers.length then return false
  else
    persist { registry with servers } fault now
    return true

end Mcp
