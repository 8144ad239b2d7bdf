import VoiceAgentPlatform.Lib.Run
import VoiceAgentPlatform.Mcp.Calls

/-!
# What the MCP registry holds

The registry over any sequence of calls whose writes succeed, from the empty registry on.

* `call`, `serversAfter`: a call on the state of `McpConfig`, and what it does to the list of servers.
* `Validates`, `resolveHeaders_dict`: what the validator accepts, and the headers that are stored.
* `WellFormed`: the representation invariant; `PlainBody`: a body with a clean id and a host.
* `registry_iff`: the invariant holds throughout a run exactly when all bodies that were accepted in it
  are plain.
-/

namespace Mcp

open AtomicFile Raising Run

variable {lib : UrlLib}

/-! ### Calls -/

/-- A call of the registry; `now` is the time of its write. -/
inductive Call where
  | upsert (body : PyVal) (now : String)
  | delete (id : String) (now : String)

/-- The id that a call names. -/
def Call.id : Call → PyVal
  | .upsert body _ => bodyId body
  | .delete id _ => .str id

/-- The state after a call, whether it returns or raises. -/
def call [Json.Python] (lib : UrlLib) (b : McpState) : Call → McpState
  | .upsert body now => exitState (upsert lib body none now) b
  | .delete id now => exitState (delete id none now) b

/-- A registry whose file does not exist. -/
def newRegistry : McpState := { cache := none, file := none }

/-- What a call does to the servers. -/
def serversAfter (lib : UrlLib) (servers : List PyDict) : Call → List PyDict
  | .upsert body _ =>
    match resolved lib servers body with
    | .ok s => putServer s servers
    | .error _ => servers
  | .delete id _ => servers.filter fun s => s.get "id" ≠ .str id

/-- The servers of a state, in memory or in the file. -/
def serversOf [Json.Python] (b : McpState) : List PyDict := (registryOf b).servers

theorem serversOf_call [Json.Python] (b : McpState) (c : Call) :
    serversOf (call lib b c) = serversAfter lib (serversOf b) c := by
  cases c with
  | upsert body now =>
    simp only [serversAfter, serversOf]
    cases hresolved : resolved lib (registryOf b).servers body with
    | ok server =>
      rw [call, exitState, upsert_ok hresolved]
      rfl
    | error e =>
      -- the call raises before it writes, and may have read the file
      obtain ⟨cache, hupsert, hcache⟩ := @upsert_resolve_error lib b body none now _ e hresolved
      rw [call, exitState, hupsert]
      rcases hcache with rfl | rfl
      · rfl
      · rfl
  | delete id now =>
    simp only [serversAfter, serversOf]
    by_cases heq : (registryOf b).servers.filter (fun s => s.get "id" ≠ .str id) =
        (registryOf b).servers
    · rw [call, exitState, delete_eq_of_eq heq, heq]
      rfl
    · rw [call, exitState, delete_eq_of_ne heq, bind_ok (persist_none b _ now)]
      rfl

/-! ### The validator -/

/-- The server `s` is the canonical form of the object `d`. -/
structure Validates (lib : UrlLib) (d : PyDict) (s : Server) : Prop where
  id : validateId (d.get "id") = .ok s.id
  transport : validateTransport (d.get "transport") = .ok ()
  transport_eq : s.transport = d.get "transport"
  url : validateUrl lib (d.get "url") = .ok s.url
  label : validateLabel s.id (d.get "label") = .ok s.label
  headers : validateHeaders (d.get "headers") = .ok s.headers
  enabled : validateEnabled ((d.get? "enabled").getD (.bool true)) = .ok s.enabled
  auth : validateAuth (d.get "auth") = .ok s.auth

/-- What `validate_server` returns. -/
theorem validateServer_eq_ok_iff {body : PyVal} {s : Server} :
    validateServer lib body = .ok s ↔ ∃ d, body = .dict d ∧ Validates lib d s := by
  constructor
  · intro h
    cases body with
    | dict d =>
      obtain ⟨sid, hsid, h⟩ := ok_of_bind h
      obtain ⟨⟨⟩, htransport, h⟩ := ok_of_bind h
      obtain ⟨url, hurl, h⟩ := ok_of_bind h
      obtain ⟨label, hlabel, h⟩ := ok_of_bind h
      obtain ⟨headers, hheaders, h⟩ := ok_of_bind h
      obtain ⟨enabled, henabled, h⟩ := ok_of_bind h
      obtain ⟨auth, hauth, h⟩ := ok_of_bind h
      obtain rfl := Except.ok.inj h
      exact ⟨d, rfl, hsid, htransport, rfl, hurl, hlabel, hheaders, henabled, hauth⟩
    | _ => cases h
  · rintro ⟨d, rfl, h⟩
    -- The transport is kept as it was given.
    have htransport := h.transport
    rw [← h.transport_eq] at htransport
    simp only [validateServer, h.id, htransport, h.url, h.label, h.headers, h.enabled, h.auth, bind,
      Except.bind, ← h.transport_eq]
    rfl

/-- The header that is stored for one of a body: the value that is already there in the place of a
mask. -/
def storedHeader (old : PyDict) (e : String × PyVal) : Option (String × PyVal) :=
  if e.2 = .str headerMask then (old.get? e.1).map fun value => (e.1, value) else some e

theorem resolveHeaders_dict (old headers : PyDict) :
    resolveHeaders (.dict old) headers = .ok (headers.filterMap (storedHeader old)) := by
  induction headers with
  | nil => rfl
  | cons e headers ih =>
    obtain ⟨key, value⟩ := e
    rw [resolveHeaders, List.filterMap_cons, ih]
    by_cases hmask : value = .str headerMask
    · simp only [storedHeader, hmask, if_true, oldHeader?]
      cases old.get? key with
      | none => rfl
      | some v => rfl
    · simp only [storedHeader, if_neg hmask]
      rfl

/-- A list of servers in their canonical form. -/
def Canonical (servers : List PyDict) : Prop := ∀ x ∈ servers, ∃ s : Server, x = s.toDict

/-- The headers that are stored under an id. -/
def headersOf (servers : List PyDict) (id : String) : PyDict :=
  match findServer servers id with
  | none => []
  | some x =>
    match x.get "headers" with
    | .dict headers => headers
    | _ => []

/-- What an upsert stores in a canonical registry. -/
theorem resolved_eq (lib : UrlLib) {servers : List PyDict} (h : Canonical servers) (body : PyVal) :
    resolved lib servers body = (validateServer lib body).map fun s =>
      { s with headers := s.headers.filterMap (storedHeader (headersOf servers s.id)) } := by
  rw [resolved]
  cases validateServer lib body with
  | error e => rfl
  | ok s =>
    -- The headers of the old server, or none.
    have hold : (((findServer servers s.id).getD []).get "headers").orElse (.dict []) =
        .dict (headersOf servers s.id) := by
      rw [headersOf]
      cases hfind : findServer servers s.id with
      | none => rfl
      | some x =>
        obtain ⟨t, rfl⟩ := h x (List.mem_of_find?_eq_some hfind)
        show (PyVal.dict t.headers).orElse (.dict []) = .dict t.headers
        cases t.headers <;> rfl
    simp only [bind, Except.bind, hold, resolveHeaders_dict]
    rfl

/-- The server that an accepted body becomes. -/
def stored (servers : List PyDict) (s : Server) : Server :=
  { s with headers := s.headers.filterMap (storedHeader (headersOf servers s.id)) }

theorem serversAfter_upsert_ok {servers : List PyDict} (h : Canonical servers) {body : PyVal}
    {s : Server} (hvalid : validateServer lib body = .ok s) (now : String) :
    serversAfter lib servers (.upsert body now) = putServer (stored servers s) servers := by
  rw [serversAfter, resolved_eq lib h, hvalid]
  rfl

theorem serversAfter_upsert_error (servers : List PyDict) {body : PyVal} {e : Exc}
    (hvalid : validateServer lib body = .error e) (now : String) :
    serversAfter lib servers (.upsert body now) = servers := by
  rw [serversAfter, resolved, hvalid]
  rfl

/-! ### The invariant -/

/-- 2 to 63 lowercase letters, digits and hyphens, the first one no hyphen. -/
structure IsSlug (s : String) : Prop where
  length : 2 ≤ s.toList.length ∧ s.toList.length ≤ 63
  chars : ∀ c ∈ s.toList, ('a' ≤ c ∧ c ≤ 'z') ∨ ('0' ≤ c ∧ c ≤ '9') ∨ c = '-'
  head : s.toList.head? ≠ some '-'

/-- The host of a network location, without user and port: `hostname` of `urlparse`. -/
def hostname (netloc : String) : String :=
  let hostinfo := (netloc.toList.reverse.takeWhile (· ≠ '@')).reverse
  match hostinfo.dropWhile (· ≠ '[') with
  | _ :: bracketed => String.ofList (bracketed.takeWhile (· ≠ ']'))
  | [] => String.ofList (hostinfo.takeWhile (· ≠ ':'))

/-- The three canonical shapes. -/
inductive CanonicalAuth : PyDict → Prop where
  | none : CanonicalAuth [("type", .str "none")]
  | header : CanonicalAuth [("type", .str "header")]
  | sigv4 (service region : String) (hservice : service ≠ "") (hregion : region ≠ "") :
    CanonicalAuth [("type", .str "sigv4"), ("service", .str service), ("region", .str region)]

/-- What the registry promises of a server. -/
structure Server.WellFormed (s : Server) : Prop where
  id : IsSlug s.id
  transport : s.transport = .str "sse" ∨ s.transport = .str "streamable_http"
  scheme : (splitUrl s.url).1 = "http" ∨ (splitUrl s.url).1 = "https"
  host : hostname (splitUrl s.url).2 ≠ ""
  headers : ∀ e ∈ s.headers, e.2 ≠ .str headerMask
  auth : CanonicalAuth s.auth

/-- What the registry promises of its servers. -/
structure WellFormed (servers : List PyDict) : Prop where
  distinct : (servers.map fun x => x.get "id").Nodup
  server : ∀ x ∈ servers, ∃ s : Server, x = s.toDict ∧ s.WellFormed

/-- The servers that a call does not name. -/
def others (id : PyVal) (servers : List PyDict) : List PyDict := servers.filter fun x => x.get "id" ≠ id

/-- What a body names under a key. -/
def bodyField (key : String) : PyVal → PyVal
  | .dict d => PyDict.get d key
  | _ => .none

/-- The id does not end in a line feed, and the URL has a host. -/
structure PlainBody (body : PyVal) : Prop where
  id : ∀ s, bodyField "id" body = .str s → s.toList.getLast? ≠ some '\n'
  host : ∀ url, bodyField "url" body = .str url → hostname (splitUrl url).2 ≠ ""

/-- An upsert whose body is not accepted, or is plain; any deletion. -/
def Call.Plain (lib : UrlLib) : Call → Prop
  | .upsert body _ => (validateServer lib body).isOk → PlainBody body
  | .delete _ _ => True

theorem canonical_of_wellFormed {servers : List PyDict} (h : WellFormed servers) :
    Canonical servers := by
  intro x hx
  obtain ⟨s, hs, -⟩ := h.server x hx
  exact ⟨s, hs⟩

/-- What the id pattern lets through is a slug, except for a line feed at its end. -/
theorem isSlug_iff {s : String} (h : Demos.isServerId s = true) :
    IsSlug s ↔ s.toList.getLast? ≠ some '\n' := by
  constructor
  · intro hslug hlast
    rcases hslug.chars _ (List.mem_of_getLast? hlast) with hc | hc | hc
    · exact absurd hc (by decide)
    · exact absurd hc (by decide)
    · exact absurd hc (by decide)
  · intro hlast
    -- The check drops a newline at the end before it matches.
    simp only [Demos.isServerId, if_neg hlast] at h
    cases hs : s.toList with
    | nil =>
      rw [hs] at h
      cases h
    | cons c rest =>
      rw [hs] at h
      simp only [Bool.and_eq_true, Bool.or_eq_true, decide_eq_true_eq, List.all_eq_true] at h
      obtain ⟨⟨⟨hc, hmin⟩, hmax⟩, hrest⟩ := h
      refine ⟨?_, ?_, ?_⟩
      · rw [hs, List.length_cons]
        omega
      · intro d hd
        rw [hs] at hd
        rcases List.mem_cons.mp hd with rfl | hd
        · exact hc.imp id Or.inl
        · rcases hrest d hd with hslug | rfl
          · exact hslug.imp id Or.inl
          · exact Or.inr (Or.inr rfl)
      · rw [hs, List.head?_cons]
        intro heq
        rw [Option.some.inj heq] at hc
        exact absurd hc (by decide)

theorem exists_of_sigv4Setting {auth : PyDict} {key default : String} {v : PyVal}
    (hdefault : default ≠ "") (h : sigv4Setting auth key default = .ok v) :
    ∃ s, v = .str s ∧ s ≠ "" := by
  unfold sigv4Setting at h
  split at h
  · exact ⟨default, (Except.ok.inj h).symm, hdefault⟩
  · split_ifs at h with hs
    exact ⟨_, (Except.ok.inj h).symm, hs⟩
  · cases h

theorem canonicalAuth_of_validateAuth {v : PyVal} {auth : PyDict} (h : validateAuth v = .ok auth) :
    CanonicalAuth auth := by
  match v with
  | .none =>
    rw [← Except.ok.inj h]
    exact .none
  | .dict d =>
    simp only [validateAuth] at h
    by_cases htype : isOneOf allowedAuthTypes ((PyDict.get? d "type").getD (.str "none")) = true
    · rw [htype] at h
      -- Only this type has settings.
      by_cases hsigv4 : (PyDict.get? d "type").getD (.str "none") = .str "sigv4"
      · simp only [hsigv4, if_true] at h
        obtain ⟨service, hservice, h⟩ := ok_of_bind h
        obtain ⟨region, hregion, h⟩ := ok_of_bind h
        obtain ⟨service, rfl, hs⟩ := exists_of_sigv4Setting (by decide) hservice
        obtain ⟨region, rfl, hr⟩ := exists_of_sigv4Setting (by decide) hregion
        rw [← Except.ok.inj h]
        exact .sigv4 service region hs hr
      · simp only [if_neg hsigv4] at h
        rw [← Except.ok.inj h]
        simp only [isOneOf, allowedAuthTypes, List.any_cons, List.any_nil, Bool.or_false,
          Bool.or_eq_true, decide_eq_true_eq] at htype
        rcases htype with htype | htype | htype
        · rw [htype]
          exact .none
        · rw [htype]
          exact .header
        · exact absurd htype hsigv4
    · rw [Bool.eq_false_iff.mpr htype] at h
      cases h
  | .bool _ | .int _ | .float _ | .nan | .infinity _ | .decimal _ | .str _ | .list _ => cases h

/-- What the validator lets through keeps the promises, except for the line feed and the host. -/
theorem Validates.wellFormed_iff {d : PyDict} {s : Server} (h : Validates lib d s) {headers : PyDict}
    (hheaders : ∀ e ∈ headers, e.2 ≠ .str headerMask) :
    Server.WellFormed { s with headers } ↔ PlainBody (.dict d) := by
  have hid := eq_of_validateId h.id
  -- What validation says of the id and of the URL, before either direction.
  have hserver : Demos.isServerId s.id = true := by
    have := h.id
    rw [hid, validateId] at this
    by_contra hne
    rw [if_neg hne] at this
    cases this
  have hurl := of_validateUrl h.url
  constructor
  · intro hwf
    refine ⟨fun id hbody => ?_, fun url hbody => ?_⟩
    · obtain rfl := PyVal.str.inj (hid.symm.trans hbody)
      exact (isSlug_iff hserver).mp hwf.id
    · obtain rfl := PyVal.str.inj (hurl.1.symm.trans hbody)
      exact hwf.host
  · intro hplain
    have htransport := h.transport
    rw [← h.transport_eq, validateTransport] at htransport
    split_ifs at htransport with hstdio hone
    simp only [isOneOf, allowedTransports, List.any_cons, List.any_nil, Bool.or_false,
      Bool.not_eq_true', Bool.not_eq_false, Bool.or_eq_true, decide_eq_true_eq] at hone
    exact {
      id := (isSlug_iff hserver).mpr (hplain.id _ hid)
      transport := hone
      scheme := hurl.2
      host := hplain.host _ hurl.1
      headers := hheaders
      auth := canonicalAuth_of_validateAuth h.auth }

/-! ### One call -/

theorem mem_putServer {s : Server} {servers : List PyDict} {x : PyDict}
    (h : x ∈ putServer s servers) : x = s.toDict ∨ x ∈ servers := by
  induction servers with
  | nil => exact Or.inl (List.mem_singleton.mp h)
  | cons y servers ih =>
    rw [putServer] at h
    split_ifs at h with hy
    · rcases List.mem_cons.mp h with rfl | hx
      · exact Or.inl rfl
      · exact Or.inr (List.mem_cons_of_mem _ hx)
    · rcases List.mem_cons.mp h with rfl | hx
      · exact Or.inr List.mem_cons_self
      · exact (ih hx).imp id (List.mem_cons_of_mem _)

theorem toDict_mem_putServer (s : Server) (servers : List PyDict) :
    s.toDict ∈ putServer s servers := by
  induction servers with
  | nil => exact List.mem_singleton_self _
  | cons y servers ih =>
    rw [putServer]
    split_ifs
    · exact List.mem_cons_self
    · exact List.mem_cons_of_mem _ ih

/-- The ids after a server was stored: its own is new, or was there. -/
theorem ids_putServer (s : Server) (servers : List PyDict) :
    (putServer s servers).map (fun x => x.get "id") =
      if PyVal.str s.id ∈ servers.map (fun x => x.get "id") then servers.map fun x => x.get "id"
      else servers.map (fun x => x.get "id") ++ [.str s.id] := by
  have hself : s.toDict.get "id" = .str s.id := rfl
  induction servers with
  | nil => rfl
  | cons y servers ih =>
    rw [putServer]
    -- The first server with the id is replaced.
    by_cases hy : y.get "id" = .str s.id
    · simp [hy, hself]
    · have hne : PyVal.str s.id ≠ y.get "id" := fun h => hy h.symm
      rw [if_neg hy, List.map_cons, List.map_cons, ih]
      simp only [List.mem_cons, hne, false_or]
      split_ifs
      · rfl
      · rfl

/-- A server that is stored leaves the others alone. -/
theorem others_putServer (s : Server) (servers : List PyDict) :
    others (.str s.id) (putServer s servers) = others (.str s.id) servers := by
  have hself : s.toDict.get "id" = .str s.id := rfl
  unfold others
  induction servers with
  | nil => simp [putServer, hself]
  | cons y servers ih =>
    rw [putServer]
    split_ifs with hy
    · rw [List.filter_cons_of_neg (by simp [hself]), List.filter_cons_of_neg (by simp [hy])]
    · rw [List.filter_cons_of_pos (by simp [hy]), List.filter_cons_of_pos (by simp [hy]), ih]

/-- The id under which an accepted body is stored is the one that it names. -/
theorem bodyId_of_resolved {servers : List PyDict} {body : PyVal} {s : Server}
    (h : resolved lib servers body = .ok s) : bodyId body = .str s.id := by
  obtain ⟨t, hvalid, hid⟩ := exists_valid_of_resolved h
  obtain ⟨d, rfl, hd⟩ := id_of_validateServer hvalid
  rw [hid]
  exact hd

/-- The servers that a call does not name are unchanged and keep their order. -/
theorem others_serversAfter (servers : List PyDict) (c : Call) :
    others c.id (serversAfter lib servers c) = others c.id servers := by
  cases c with
  | upsert body now =>
    simp only [serversAfter]
    cases hresolved : resolved lib servers body with
    | error e => rfl
    | ok s =>
      rw [Call.id, bodyId_of_resolved hresolved]
      exact others_putServer s servers
  | delete id now =>
    rw [serversAfter, others, others, Call.id, List.filter_filter]
    simp

/-- What holds of the headers of all servers holds of those under one id. -/
theorem of_mem_headersOf {P : String × PyVal → Prop} {servers : List PyDict}
    (h : ∀ x ∈ servers, ∃ s : Server, x = s.toDict ∧ ∀ e ∈ s.headers, P e) {id : String}
    {e : String × PyVal} (he : e ∈ headersOf servers id) : P e := by
  unfold headersOf at he
  split at he
  · cases he
  · rename_i x hfind
    obtain ⟨s, rfl, hs⟩ := h x (List.mem_of_find?_eq_some hfind)
    exact hs e he

/-- A header is stored as it came, or it is one that was there. -/
theorem mem_of_storedHeader {old : PyDict} {e e' : String × PyVal}
    (h : storedHeader old e = some e') :
    e' = e ∧ e.2 ≠ .str headerMask ∨ e'.1 = e.1 ∧ e' ∈ old := by
  rw [storedHeader] at h
  split_ifs at h with hmask
  · obtain ⟨v, hv, rfl⟩ := Option.map_eq_some_iff.mp h
    exact Or.inr ⟨rfl, PyDict.mem_of_get? hv⟩
  · obtain rfl := Option.some.inj h
    exact Or.inl ⟨rfl, hmask⟩

/-- No mask is stored. -/
theorem storedHeaders_ne_mask {servers : List PyDict} (h : WellFormed servers) (id : String)
    (headers : PyDict) {e : String × PyVal}
    (he : e ∈ headers.filterMap (storedHeader (headersOf servers id))) :
    e.2 ≠ .str headerMask := by
  obtain ⟨e', -, he'⟩ := List.mem_filterMap.mp he
  rcases mem_of_storedHeader he' with ⟨rfl, hmask⟩ | ⟨-, hold⟩
  · exact hmask
  · refine of_mem_headersOf (P := fun e => e.2 ≠ .str headerMask) (fun x hx => ?_) hold
    obtain ⟨s, rfl, hs⟩ := h.server x hx
    exact ⟨s, rfl, hs.headers⟩

/-- A plain call keeps the invariant. -/
theorem wellFormed_serversAfter {servers : List PyDict} (h : WellFormed servers) {c : Call}
    (hc : c.Plain lib) : WellFormed (serversAfter lib servers c) := by
  cases c with
  | upsert body now =>
    cases hvalid : validateServer lib body with
    | error e =>
      rw [serversAfter_upsert_error servers hvalid]
      exact h
    | ok s =>
      obtain ⟨d, rfl, hd⟩ := validateServer_eq_ok_iff.mp hvalid
      have hplain : PlainBody (.dict d) := hc (by rw [hvalid]; rfl)
      rw [serversAfter_upsert_ok (canonical_of_wellFormed h) hvalid]
      constructor
      · -- The id is there already, or it is new.
        rw [ids_putServer]
        split_ifs with hmem
        · exact h.distinct
        · exact h.distinct.append (List.nodup_singleton _) (by simpa using hmem)
      · intro x hx
        rcases mem_putServer hx with rfl | hx
        · refine ⟨_, rfl, (hd.wellFormed_iff fun e he => ?_).mpr hplain⟩
          exact storedHeaders_ne_mask h s.id s.headers he
        · exact h.server x hx
  | delete id now =>
    constructor
    · exact (List.filter_sublist.map _).nodup h.distinct
    · exact fun x hx => h.server x (List.mem_filter.mp hx).1

theorem Server.toDict_inj {s t : Server} (h : s.toDict = t.toDict) : s = t := by
  cases s
  cases t
  simpa [Server.toDict] using h

/-- A call that is not plain breaks it. -/
theorem not_wellFormed_serversAfter {servers : List PyDict} (h : WellFormed servers) {c : Call}
    (hc : ¬ c.Plain lib) : ¬ WellFormed (serversAfter lib servers c) := by
  cases c with
  | upsert body now =>
    obtain ⟨hok, hplain⟩ := Classical.not_imp.mp hc
    cases hvalid : validateServer lib body with
    | error e =>
      rw [hvalid] at hok
      cases hok
    | ok s =>
      obtain ⟨d, rfl, hd⟩ := validateServer_eq_ok_iff.mp hvalid
      rw [serversAfter_upsert_ok (canonical_of_wellFormed h) hvalid]
      intro hafter
      -- what was stored is well formed, so the body was plain
      obtain ⟨t, ht, hwf⟩ := hafter.server _ (toDict_mem_putServer _ servers)
      rw [← Server.toDict_inj ht] at hwf
      exact hplain ((hd.wellFormed_iff fun e he => storedHeaders_ne_mask h s.id s.headers he).mp hwf)
  | delete id now => exact absurd trivial hc

/-! ### Runs -/

/-- Every state of a run has a well-formed registry, and every call leaves the servers that it does not
name unchanged and in their order. -/
structure KeepsRegistry [Json.Python] (lib : UrlLib) (calls : List Call) : Prop where
  wellFormed : Always (call lib) (fun b => WellFormed (serversOf b)) newRegistry calls
  others : ∀ pre c post, calls = pre ++ c :: post →
    others c.id (serversOf (call lib (exec (call lib) newRegistry pre) c)) =
      others c.id (serversOf (exec (call lib) newRegistry pre))

theorem wellFormed_newRegistry [Json.Python] : WellFormed (serversOf newRegistry) :=
  ⟨List.nodup_nil, fun _ h => absurd h List.not_mem_nil⟩

/-- A run keeps the registry well formed exactly when every body that the validator accepts in it has an
id without a line feed at its end and a URL with a host. -/
theorem keepsRegistry_iff [Json.Python] (lib : UrlLib) (calls : List Call) :
    KeepsRegistry lib calls ↔ ∀ c ∈ calls, c.Plain lib := by
  have hiff : Always (call lib) (fun b => WellFormed (serversOf b)) newRegistry calls ↔
      ∀ c ∈ calls, c.Plain lib := by
    rw [always_map serversOf serversOf_call,
      always_iff_guarded (J := WellFormed) (G := fun _ c => c.Plain lib) (fun _ h => h)
        (fun _ _ h hc => wellFormed_serversAfter h hc)
        (fun _ _ h hc => not_wellFormed_serversAfter h hc)
        wellFormed_newRegistry, guarded_iff_forall]
  constructor
  · exact fun h => hiff.mp h.wellFormed
  · refine fun h => ⟨hiff.mpr h, fun pre c post _ => ?_⟩
    rw [serversOf_call]
    exact others_serversAfter _ c

/-- A server whose id ends in a line feed. -/
def lineFeedBody : PyVal :=
  .dict [("id", .str "ab\n"), ("transport", .str "sse"), ("url", .str "http://host/")]

theorem lineFeed_stored : ¬ ∃ (_ : Json.Python) (lib : UrlLib), ∀ calls, KeepsRegistry lib calls := by
  rintro ⟨_, lib, h⟩
  have hlast := (h [.upsert lineFeedBody "t"]).wellFormed.last
  have hservers : serversOf (exec (call lib) newRegistry [.upsert lineFeedBody "t"]) =
      serversAfter lib [] (.upsert lineFeedBody "t") :=
    serversOf_call newRegistry (.upsert lineFeedBody "t")
  have hvalid : validateServer lib lineFeedBody = .ok (plainServer "ab\n") :=
    validateServer_plainBody lib (by decide +kernel)
  rw [hservers, serversAfter_upsert_ok (fun _ h => absurd h List.not_mem_nil) hvalid] at hlast
  obtain ⟨s, hs, hwf⟩ := hlast.server _ (toDict_mem_putServer _ [])
  obtain rfl := Server.toDict_inj hs
  exact absurd (hwf.id.chars '\n' (by decide)) (by decide)

end Mcp
