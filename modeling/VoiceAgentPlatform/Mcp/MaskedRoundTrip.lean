import VoiceAgentPlatform.Mcp.WellFormed

/-!
# Saving masked servers back

The admin page receives the servers with masked headers and sends them back. The values that were not
typed again are still masks then, which stand for the values that are stored.

* `maskHeaders`, `retype`: what the page receives, and what it sends back.
* `SavesBack`: saving back keeps everything that was not typed again.
* `Storable`: what every server in a registry is like; `Settled`: its label survives another check.
* `savesBack_iff`: all servers of a run can be saved back, and the validator is idempotent on its bodies,
  exactly when no label was taken from an id that ends in a line feed.
-/

namespace Mcp

open AtomicFile Raising Run

variable {lib : UrlLib}

/-- `mask_headers`. -/
def maskHeaders (server : PyDict) : PyDict :=
  match server.get "headers" with
  | .dict (e :: headers) =>
    server.set "headers" (.dict (PyDict.mapValues (fun _ => .str headerMask) (e :: headers)))
  | _ => server

/-- The server with the values of some headers typed again. -/
def retype (typed : String → Option String) (server : PyDict) : PyDict :=
  match server.get "headers" with
  | .dict headers =>
    server.set "headers" (.dict (headers.map fun e => (e.1, (typed e.1).elim e.2 .str)))
  | _ => server

/-- The headers `typed` in the place of the old ones. A mask is not a value. -/
def retypedHeaders (typed : String → Option String) (headers : PyDict) : PyDict :=
  headers.map fun e => (e.1, ((typed e.1).filter (· ≠ headerMask)).elim e.2 .str)

/-- An upsert that succeeds and leaves these servers. -/
def UpsertsTo [Json.Python] (lib : UrlLib) (b : McpState) (body : PyDict) (servers : List PyDict) :
    Prop :=
  ∀ now, ∃ s b', upsert lib (.dict body) none now b = .ok s b' ∧ serversOf b' = servers

/-- Every server can be saved back as it was received, which changes nothing, and with any of its header
values typed again, which changes these values. -/
def SavesBack [Json.Python] (lib : UrlLib) (b : McpState) : Prop :=
  ∀ x ∈ serversOf b, ∃ s : Server, x = s.toDict ∧
    UpsertsTo lib b (maskHeaders x) (serversOf b) ∧
    ∀ typed, UpsertsTo lib b (retype typed (maskHeaders x))
      ((serversOf b).map fun y =>
        if y.get "id" = .str s.id then
          Server.toDict { s with headers := retypedHeaders typed s.headers }
        else y)

/-- A call whose body, an object, has no header key twice. -/
structure JsonCall where
  toCall : Call
  distinct : ∀ body now, toCall = .upsert body now → ∀ headers, bodyField "headers" body = .dict headers →
    (headers.map Prod.fst).Nodup

/-- The text of a label, without the blanks around it. -/
def labelText : PyVal → String
  | .str label => PyText.strip label
  | _ => ""

/-- A label is given, or the id, which stands for it, does not end in a line feed. -/
def LabelKept (body : PyVal) : Prop :=
  labelText (bodyField "label" body) ≠ "" ∨
    ∀ id, bodyField "id" body = .str id → id.toList.getLast? ≠ some '\n'

/-- An upsert whose body is not accepted, or keeps its label; any deletion. -/
def Call.LabelKept (lib : UrlLib) : Call → Prop
  | .upsert body _ => (validateServer lib body).isOk → Mcp.LabelKept body
  | .delete _ _ => True

/-- The validator returns a server that it accepts and returns as it is. -/
def Idempotent (lib : UrlLib) (body : PyVal) : Prop :=
  ∀ s, validateServer lib body = .ok s → validateServer lib (.dict s.toDict) = .ok s

/-- The validator is idempotent on the body of a call. -/
def Call.Idempotent (lib : UrlLib) : Call → Prop
  | .upsert body _ => Mcp.Idempotent lib body
  | .delete _ _ => True

/-! ### The validator on what it returns -/

/-- Headers that the validator accepts. -/
def ValidHeaders (headers : PyDict) : Prop := ∀ e ∈ headers, e.1 ≠ "" ∧ ∃ v, e.2 = .str v

theorem validateHeader_ok_iff {e : String × PyVal} :
    validateHeader e = .ok () ↔ e.1 ≠ "" ∧ ∃ v, e.2 = .str v := by
  obtain ⟨key, value⟩ := e
  cases value with
  | str v =>
    simp only [validateHeader]
    split_ifs with h
    · simp [h]
    · simp [h]
  | _ => simp [validateHeader]

theorem validateHeaders_dict {headers : PyDict} (h : ValidHeaders headers) :
    validateHeaders (.dict headers) = .ok headers := by
  have hall : headers.forM validateHeader = .ok () := by
    induction headers with
    | nil => rfl
    | cons e headers ih =>
      rw [List.forM, validateHeader_ok_iff.mpr (h e List.mem_cons_self)]
      exact ih fun e' he' => h e' (List.mem_cons_of_mem _ he')
  rw [validateHeaders, hall]
  rfl

theorem validHeaders_of_forM {headers : PyDict} (h : headers.forM validateHeader = .ok ()) :
    ValidHeaders headers := by
  induction headers with
  | nil => exact fun _ he => absurd he List.not_mem_nil
  | cons e headers ih =>
    rw [List.forM] at h
    obtain ⟨⟨⟩, he, hrest⟩ := ok_of_bind h
    exact List.forall_mem_cons.mpr ⟨validateHeader_ok_iff.mp he, ih hrest⟩

theorem validHeaders_of_validateHeaders {v : PyVal} {headers : PyDict}
    (h : validateHeaders v = .ok headers) :
    ValidHeaders headers ∧ (v = .dict headers ∨ headers = []) := by
  match v with
  | .none =>
    obtain rfl := Except.ok.inj h
    exact ⟨fun _ he => absurd he List.not_mem_nil, Or.inr rfl⟩
  | .dict d =>
    obtain ⟨⟨⟩, hall, h⟩ := ok_of_bind h
    obtain rfl := Except.ok.inj h
    exact ⟨validHeaders_of_forM hall, Or.inl rfl⟩
  | .bool _ | .int _ | .float _ | .nan | .infinity _ | .decimal _ | .str _ | .list _ => cases h

theorem sigv4Setting_str {auth : PyDict} {key s : String} (hget : auth.get key = .str s)
    (hne : s ≠ "") (default : String) : sigv4Setting auth key default = .ok (.str s) := by
  rw [sigv4Setting, hget]
  exact if_neg hne

theorem validateAuth_of_canonical {auth : PyDict} (h : CanonicalAuth auth) :
    validateAuth (.dict auth) = .ok auth := by
  cases h with
  | none => simp [validateAuth, isOneOf, allowedAuthTypes, PyDict.get?, pure, Except.pure]
  | header => simp [validateAuth, isOneOf, allowedAuthTypes, PyDict.get?, pure, Except.pure]
  | sigv4 service region hservice hregion =>
    have hs := @sigv4Setting_str [("type", .str "sigv4"), ("service", .str service),
      ("region", .str region)] "service" service rfl hservice "bedrock-agentcore"
    have hr := @sigv4Setting_str [("type", .str "sigv4"), ("service", .str service),
      ("region", .str region)] "region" region rfl hregion "us-east-1"
    simp [validateAuth, isOneOf, allowedAuthTypes, PyDict.get?, pure, Except.pure, hs, hr, bind,
      Except.bind]

/-- The parts of a server that another check lets through as they are. -/
structure Server.Checked (lib : UrlLib) (s : Server) : Prop where
  id : Demos.isServerId s.id = true
  transport : validateTransport s.transport = .ok ()
  url : validateUrl lib (.str s.url) = .ok s.url
  headers : ValidHeaders s.headers
  auth : validateAuth (.dict s.auth) = .ok s.auth

/-- The label is what another check makes of it. -/
def Server.Settled (s : Server) : Prop := validateLabel s.id (.str s.label) = .ok s.label

theorem isServerId_of_validateId {v : PyVal} {id : String} (h : validateId v = .ok id) :
    Demos.isServerId id = true := by
  rw [eq_of_validateId h, validateId] at h
  by_contra hne
  rw [if_neg hne] at h
  cases h

theorem Validates.checked {d : PyDict} {s : Server} (h : Validates lib d s) : s.Checked lib where
  id := isServerId_of_validateId h.id
  transport := h.transport_eq ▸ h.transport
  url := (of_validateUrl h.url).1 ▸ h.url
  headers := (validHeaders_of_validateHeaders h.headers).1
  auth := validateAuth_of_canonical (canonicalAuth_of_validateAuth h.auth)

theorem Server.Checked.validates {s : Server} (h : s.Checked lib) (hlabel : s.Settled) :
    Validates lib s.toDict s where
  id := if_pos h.id
  transport := h.transport
  transport_eq := rfl
  url := h.url
  label := hlabel
  headers := validateHeaders_dict h.headers
  enabled := rfl
  auth := h.auth

/-- A server that was checked passes another check exactly when its label does. -/
theorem Server.Checked.validateServer_iff {s : Server} (h : s.Checked lib) :
    validateServer lib (.dict s.toDict) = .ok s ↔ s.Settled := by
  rw [validateServer_eq_ok_iff]
  constructor
  · rintro ⟨d, hd, hvalid⟩
    obtain rfl := PyVal.dict.inj hd
    exact hvalid.label
  · exact fun hlabel => ⟨s.toDict, rfl, h.validates hlabel⟩

theorem not_isSpace_of_slug {c : Char}
    (h : ('a' ≤ c ∧ c ≤ 'z') ∨ ('0' ≤ c ∧ c ≤ '9') ∨ c = '-') : PyText.isSpace c = false := by
  have hrange : (97 ≤ c.toNat ∧ c.toNat ≤ 122) ∨ (48 ≤ c.toNat ∧ c.toNat ≤ 57) ∨ c.toNat = 45 := by
    rcases h with ⟨hlow, hhigh⟩ | ⟨hlow, hhigh⟩ | rfl
    · exact Or.inl ⟨hlow, hhigh⟩
    · exact Or.inr (Or.inl ⟨hlow, hhigh⟩)
    · exact Or.inr (Or.inr rfl)
  simp only [PyText.isSpace, Bool.or_eq_false_iff, Bool.and_eq_false_iff, decide_eq_false_iff_not]
  omega

/-- An id has something in it that is not stripped. -/
theorem exists_not_isSpace {id : String} (h : Demos.isServerId id = true) :
    ∃ c ∈ id.toList, PyText.isSpace c = false := by
  simp only [Demos.isServerId] at h
  split at h
  · cases h
  · rename_i c rest hid
    simp only [Bool.and_eq_true, Bool.or_eq_true, decide_eq_true_eq] at h
    refine ⟨c, ?_, not_isSpace_of_slug (h.1.1.1.imp_right Or.inl)⟩
    have hmem : c ∈ c :: rest := List.mem_cons_self
    rw [← hid] at hmem
    split_ifs at hmem
    · exact List.mem_of_mem_dropLast hmem
    · exact hmem

theorem strip_id_ne_empty {id : String} (h : Demos.isServerId id = true) : PyText.strip id ≠ "" := by
  obtain ⟨c, hmem, hc⟩ := exists_not_isSpace h
  intro hempty
  apply Trimming.trimBoth_ne_nil hc hmem
  rw [PyText.strip_eq] at hempty
  rw [← String.toList_ofList (l := Trimming.trimBoth PyText.isSpace id.toList), hempty]
  rfl

/-- Stripping changes an id exactly when it ends in a line feed. -/
theorem strip_id_eq_iff {id : String} (h : Demos.isServerId id = true) :
    PyText.strip id = id ↔ id.toList.getLast? ≠ some '\n' := by
  constructor
  · intro hstrip hlast
    rw [← hstrip, PyText.strip_eq, String.toList_ofList] at hlast
    exact absurd (Trimming.not_of_getLast?_trimBoth hlast) (by decide)
  · intro hlast
    have hslug := (isSlug_iff h).mpr hlast
    rw [PyText.strip_eq, Trimming.trimBoth_eq_self, String.ofList_toList]
    · exact fun c hc => not_isSpace_of_slug (hslug.chars c (List.mem_of_mem_head? hc))
    · exact fun c hc => not_isSpace_of_slug (hslug.chars c (List.mem_of_getLast? hc))

theorem strip_labelText (v : PyVal) : PyText.strip (labelText v) = labelText v := by
  have hempty : PyText.strip "" = "" := by decide +kernel
  match v with
  | .str label => exact PyText.strip_strip label
  | .none | .bool _ | .int _ | .float _ | .nan | .infinity _ | .decimal _ | .list _ | .dict _ =>
    exact hempty

/-- The label that the validator returned passes another check exactly when the body kept it. -/
theorem Validates.settled_iff {d : PyDict} {s : Server} (h : Validates lib d s) :
    s.Settled ↔ LabelKept (.dict d) := by
  have hid := isServerId_of_validateId h.id
  have hbody : bodyField "id" (.dict d) = .str s.id := eq_of_validateId h.id
  have hlabel : s.label =
      if labelText (bodyField "label" (.dict d)) = "" then s.id
      else labelText (bodyField "label" (.dict d)) := by
    have := h.label
    rw [show bodyField "label" (.dict d) = d.get "label" from rfl]
    match hd : d.get "label" with
    | .none =>
      rw [hd] at this
      exact (Except.ok.inj this).symm
    | .str label =>
      rw [hd] at this
      exact (Except.ok.inj this).symm
    | .bool _ | .int _ | .float _ | .nan | .infinity _ | .decimal _ | .list _ | .dict _ =>
      rw [hd] at this
      cases this
  rw [Server.Settled, validateLabel, Except.ok.injEq, LabelKept]
  by_cases hempty : labelText (bodyField "label" (.dict d)) = ""
  · -- the label is the id
    rw [if_pos hempty] at hlabel
    rw [hlabel, if_neg (strip_id_ne_empty hid), strip_id_eq_iff hid]
    constructor
    · intro hlast
      refine Or.inr fun id hid' => ?_
      rwa [← PyVal.str.inj (hbody.symm.trans hid')]
    · rintro (hne | hlast)
      · exact absurd hempty hne
      · exact hlast _ hbody
  · rw [if_neg hempty] at hlabel
    have hstrip : PyText.strip s.label = s.label := by
      rw [hlabel, strip_labelText]
    rw [hstrip, if_neg (hlabel ▸ hempty)]
    exact ⟨fun _ => Or.inl hempty, fun _ => rfl⟩

/-! ### What is stored -/

/-- A server in a registry. -/
structure Server.Storable (lib : UrlLib) (s : Server) : Prop where
  checked : s.Checked lib
  distinct : (s.headers.map Prod.fst).Nodup
  noMask : ∀ e ∈ s.headers, e.2 ≠ .str headerMask

/-- The servers of a registry. -/
structure Storable (lib : UrlLib) (servers : List PyDict) : Prop where
  distinct : (servers.map fun x => x.get "id").Nodup
  server : ∀ x ∈ servers, ∃ s : Server, x = s.toDict ∧ s.Storable lib

theorem Storable.canonical {servers : List PyDict} (h : Storable lib servers) : Canonical servers := by
  intro x hx
  obtain ⟨s, hs, -⟩ := h.server x hx
  exact ⟨s, hs⟩

theorem Storable.of_mem_headersOf {servers : List PyDict} (h : Storable lib servers) {id : String}
    {e : String × PyVal} (he : e ∈ headersOf servers id) :
    (e.1 ≠ "" ∧ ∃ v, e.2 = .str v) ∧ e.2 ≠ .str headerMask := by
  refine Mcp.of_mem_headersOf
    (P := fun e => (e.1 ≠ "" ∧ ∃ v, e.2 = .str v) ∧ e.2 ≠ .str headerMask) (fun x hx => ?_) he
  obtain ⟨s, rfl, hs⟩ := h.server x hx
  exact ⟨s, rfl, fun e he => ⟨hs.checked.headers e he, hs.noMask e he⟩⟩

/-- The keys that are stored are keys of the body. -/
theorem keys_storedHeaders (old headers : PyDict) :
    ((headers.filterMap (storedHeader old)).map Prod.fst).Sublist (headers.map Prod.fst) := by
  induction headers with
  | nil => exact List.Sublist.refl _
  | cons e headers ih =>
    rw [List.filterMap_cons, List.map_cons]
    cases he : storedHeader old e with
    | none => exact ih.cons _
    | some e' =>
      have hkey : e'.1 = e.1 := by
        rcases mem_of_storedHeader he with ⟨rfl, -⟩ | ⟨hkey, -⟩
        · rfl
        · exact hkey
      rw [List.map_cons, hkey]
      exact ih.cons_cons _

/-- A checked server is storable with the headers that an upsert gives it. -/
theorem Storable.stored {servers : List PyDict} (h : Storable lib servers) {s : Server}
    (hs : s.Checked lib) (hdistinct : (s.headers.map Prod.fst).Nodup) :
    (stored servers s).Storable lib where
  checked := {
    id := hs.id
    transport := hs.transport
    url := hs.url
    auth := hs.auth
    headers := by
      intro e he
      obtain ⟨e', he', hstored⟩ := List.mem_filterMap.mp he
      -- A header is the new one, or the old one in its place.
      rcases mem_of_storedHeader hstored with ⟨rfl, -⟩ | ⟨-, hold⟩
      · exact hs.headers e he'
      · exact (h.of_mem_headersOf hold).1 }
  distinct := (keys_storedHeaders _ _).nodup hdistinct
  noMask := by
    intro e he
    obtain ⟨e', -, hstored⟩ := List.mem_filterMap.mp he
    rcases mem_of_storedHeader hstored with ⟨rfl, hmask⟩ | ⟨-, hold⟩
    · exact hmask
    · exact (h.of_mem_headersOf hold).2

/-- Storing a storable server keeps the registry. -/
theorem Storable.putServer {servers : List PyDict} (h : Storable lib servers) {s : Server}
    (hs : s.Storable lib) : Storable lib (putServer s servers) := by
  constructor
  · rw [ids_putServer]
    split_ifs with hmem
    · exact h.distinct
    · exact h.distinct.append (List.nodup_singleton _) (by simpa using hmem)
  · intro x hx
    rcases mem_putServer hx with rfl | hx
    · exact ⟨s, rfl, hs⟩
    · exact h.server x hx

theorem storable_serversAfter {servers : List PyDict} (h : Storable lib servers) (c : JsonCall) :
    Storable lib (serversAfter lib servers c.toCall) := by
  obtain ⟨c, hdistinct⟩ := c
  cases c with
  | upsert body now =>
    cases hvalid : validateServer lib body with
    | error e =>
      rw [serversAfter_upsert_error servers hvalid]
      exact h
    | ok s =>
      obtain ⟨d, rfl, hd⟩ := validateServer_eq_ok_iff.mp hvalid
      rw [serversAfter_upsert_ok h.canonical hvalid]
      refine h.putServer (h.stored hd.checked ?_)
      -- The keys of a JSON object are distinct.
      rcases (validHeaders_of_validateHeaders hd.headers).2 with hheaders | hnil
      · exact hdistinct _ _ rfl s.headers hheaders
      · rw [hnil]
        exact List.nodup_nil
  | delete id now =>
    constructor
    · exact (List.filter_sublist.map _).nodup h.distinct
    · exact fun x hx => h.server x (List.mem_filter.mp hx).1

/-- All labels survive another check. -/
def Settled (servers : List PyDict) : Prop := ∀ s : Server, s.toDict ∈ servers → s.Settled

theorem settled_serversAfter {servers : List PyDict} (h : Storable lib servers) (hsettled : Settled servers)
    {c : Call} (hc : c.LabelKept lib) : Settled (serversAfter lib servers c) := by
  cases c with
  | upsert body now =>
    cases hvalid : validateServer lib body with
    | error e =>
      rw [serversAfter_upsert_error servers hvalid]
      exact hsettled
    | ok s =>
      obtain ⟨d, rfl, hd⟩ := validateServer_eq_ok_iff.mp hvalid
      rw [serversAfter_upsert_ok h.canonical hvalid]
      -- The server that was put is settled, and so are those that were there.
      intro t ht
      rcases mem_putServer ht with heq | ht
      · rw [Server.toDict_inj heq]
        exact hd.settled_iff.mpr (hc (by rw [hvalid]; rfl))
      · exact hsettled t ht
  | delete id now => exact fun t ht => hsettled t (List.mem_filter.mp ht).1

/-- A call that loses a label leaves a server with it. -/
theorem not_settled_serversAfter {servers : List PyDict} (h : Storable lib servers) {c : Call}
    (hc : ¬ c.LabelKept lib) : ¬ Settled (serversAfter lib servers c) := by
  cases c with
  | upsert body now =>
    obtain ⟨hok, hkept⟩ := Classical.not_imp.mp hc
    cases hvalid : validateServer lib body with
    | error e =>
      rw [hvalid] at hok
      cases hok
    | ok s =>
      obtain ⟨d, rfl, hd⟩ := validateServer_eq_ok_iff.mp hvalid
      rw [serversAfter_upsert_ok h.canonical hvalid]
      intro hsettled
      exact hkept (hd.settled_iff.mp (hsettled (stored servers s) (toDict_mem_putServer _ _)))
  | delete id now => exact absurd trivial hc

/-! ### Saving back -/

/-- The headers that the page sends: masks, and what was typed. -/
def maskedHeaders (typed : String → Option String) (headers : PyDict) : PyDict :=
  headers.map fun e => (e.1, .str ((typed e.1).getD headerMask))

theorem set_headers (s : Server) (headers : PyDict) :
    s.toDict.set "headers" (.dict headers) = Server.toDict { s with headers } := by
  simp [PyDict.set, Server.toDict]

theorem get_headers (s : Server) : s.toDict.get "headers" = .dict s.headers := rfl

theorem maskHeaders_toDict (s : Server) :
    maskHeaders s.toDict = Server.toDict { s with headers := maskedHeaders (fun _ => none) s.headers } := by
  obtain ⟨id, label, transport, url, headers, enabled, auth⟩ := s
  match headers with
  | [] => rfl
  | e :: headers =>
    simp only [maskHeaders, get_headers, set_headers]
    rfl

theorem retype_maskHeaders (typed : String → Option String) (s : Server) :
    retype typed (maskHeaders s.toDict) =
      Server.toDict { s with headers := maskedHeaders typed s.headers } := by
  rw [maskHeaders_toDict, retype, get_headers]
  simp only [set_headers, maskedHeaders, List.map_map]
  congr 2
  apply List.map_congr_left
  intro e _
  simp only [Function.comp_apply, Option.getD_none]
  match typed e.1 with
  | none => rfl
  | some v => rfl

/-- The masks are replaced by the values that they stand for. -/
theorem filterMap_storedHeader {headers : PyDict} (h : (headers.map Prod.fst).Nodup)
    (typed : String → Option String) :
    (maskedHeaders typed headers).filterMap (storedHeader headers) = retypedHeaders typed headers := by
  rw [maskedHeaders, List.filterMap_map, retypedHeaders, ← List.filterMap_eq_map]
  apply List.filterMap_congr
  intro e he
  have hget := PyDict.get?_of_mem h he
  simp only [Function.comp_apply, storedHeader, PyVal.str.injEq]
  cases typed e.1 with
  | none => simp [hget]
  | some v =>
    by_cases hmask : v = headerMask
    · simp [hmask, hget, Option.filter]
    · simp [hmask, Option.filter]

/-- The server with an id is the only one with it. -/
theorem Storable.eq_of_id {servers : List PyDict} (h : Storable lib servers) {s : Server}
    (hs : s.toDict ∈ servers) {x : PyDict} (hx : x ∈ servers) (hid : x.get "id" = .str s.id) :
    x = s.toDict :=
  List.inj_on_of_nodup_map h.distinct hx hs hid

theorem headersOf_eq {servers : List PyDict} (h : Storable lib servers) {s : Server}
    (hs : s.toDict ∈ servers) : headersOf servers s.id = s.headers := by
  have hfind : findServer servers s.id = some s.toDict := by
    match hfound : findServer servers s.id with
    | none =>
      rw [findServer, List.find?_eq_none] at hfound
      have hne : s.toDict.get "id" ≠ .str s.id := by simpa using hfound _ hs
      exact absurd rfl hne
    | some x =>
      have hid : x.get "id" = .str s.id := by simpa using List.find?_some hfound
      rw [h.eq_of_id hs (List.mem_of_find?_eq_some hfound) hid]
  rw [headersOf, hfind]
  rfl

theorem putServer_eq_map {servers : List PyDict} {s : Server} (hs : s.toDict ∈ servers)
    (hdistinct : (servers.map fun x => x.get "id").Nodup) {t : Server} (hid : t.id = s.id) :
    putServer t servers =
      servers.map fun y => if y.get "id" = .str s.id then t.toDict else y := by
  induction servers with
  | nil => cases hs
  | cons y servers ih =>
    rw [List.map_cons, List.nodup_cons] at hdistinct
    rw [putServer, hid, List.map_cons]
    by_cases hy : y.get "id" = .str s.id
    · -- no other server has this id
      have hrest : servers.map (fun y => if y.get "id" = .str s.id then t.toDict else y) = servers := by
        refine (List.map_congr_left fun x hx => ?_).trans (List.map_id servers)
        refine if_neg fun hxid => hdistinct.1 ?_
        rw [hy, ← hxid]
        exact List.mem_map_of_mem (f := fun x : PyDict => x.get "id") hx
      rw [if_pos hy, if_pos hy, hrest]
    · have hmem : s.toDict ∈ servers := by
        rcases List.mem_cons.mp hs with rfl | hmem
        · exact absurd rfl hy
        · exact hmem
      rw [if_neg hy, if_neg hy, ih hmem hdistinct.2]

/-- An upsert of an accepted server succeeds. -/
theorem upsertsTo_of_validates [Json.Python] {b : McpState} (h : Storable lib (serversOf b)) {s : Server}
    (hvalid : validateServer lib (.dict s.toDict) = .ok s) :
    UpsertsTo lib b s.toDict (putServer (stored (serversOf b) s) (serversOf b)) := by
  intro now
  have hresolved : resolved lib (registryOf b).servers (.dict s.toDict) =
      .ok (stored (serversOf b) s) := by
    have heq := resolved_eq lib h.canonical (.dict s.toDict)
    rw [hvalid] at heq
    exact heq
  exact ⟨_, _, upsert_ok hresolved, rfl⟩

theorem validHeaders_maskedHeaders {headers : PyDict} (h : ValidHeaders headers)
    (typed : String → Option String) : ValidHeaders (maskedHeaders typed headers) := by
  intro e he
  obtain ⟨e', he', rfl⟩ := List.mem_map.mp he
  exact ⟨(h e' he').1, _, rfl⟩

/-- Saving back a settled server, with some headers typed again. -/
theorem upsertsTo_retyped [Json.Python] {b : McpState} (h : Storable lib (serversOf b)) {s : Server}
    (hs : s.toDict ∈ serversOf b) (hsettled : s.Settled) (typed : String → Option String) :
    UpsertsTo lib b (Server.toDict { s with headers := maskedHeaders typed s.headers })
      ((serversOf b).map fun y =>
        if y.get "id" = .str s.id then
          Server.toDict { s with headers := retypedHeaders typed s.headers }
        else y) := by
  obtain ⟨t, ht, hstorable⟩ := h.server _ hs
  obtain rfl := Server.toDict_inj ht
  have hchecked : Server.Checked lib { s with headers := maskedHeaders typed s.headers } :=
    { hstorable.checked with
      headers := validHeaders_maskedHeaders hstorable.checked.headers typed }
  have hupsert := upsertsTo_of_validates h (hchecked.validateServer_iff.mpr hsettled)
  -- A masked value is replaced by the stored one, a typed one stays.
  have hstored : stored (serversOf b) { s with headers := maskedHeaders typed s.headers } =
      { s with headers := retypedHeaders typed s.headers } := by
    simp only [stored, headersOf_eq h hs, filterMap_storedHeader hstorable.distinct]
  have hmap := putServer_eq_map hs h.distinct
    (t := { s with headers := retypedHeaders typed s.headers }) rfl
  rw [hstored, hmap] at hupsert
  exact hupsert

theorem retypedHeaders_none (headers : PyDict) : retypedHeaders (fun _ => none) headers = headers := by
  refine (List.map_congr_left fun e _ => ?_).trans (List.map_id headers)
  rfl

/-- All servers of a settled registry can be saved back. -/
theorem savesBack_of_settled [Json.Python] {b : McpState} (h : Storable lib (serversOf b))
    (hsettled : Settled (serversOf b)) : SavesBack lib b := by
  intro x hx
  obtain ⟨s, rfl, -⟩ := h.server x hx
  refine ⟨s, rfl, ?_, fun typed => ?_⟩
  · have hsame := upsertsTo_retyped h hx (hsettled s hx) fun _ => none
    rw [← maskHeaders_toDict, retypedHeaders_none] at hsame
    -- Saving the server as it is shown changes nothing.
    have hid : (serversOf b).map (fun y => if y.get "id" = .str s.id then s.toDict else y) =
        serversOf b := by
      refine (List.map_congr_left fun y hy => ?_).trans (List.map_id _)
      by_cases hyid : y.get "id" = .str s.id
      · rw [if_pos hyid, h.eq_of_id hx hy hyid]
        rfl
      · rw [if_neg hyid]
        rfl
    rwa [hid] at hsame
  · rw [retype_maskHeaders]
    exact upsertsTo_retyped h hx (hsettled s hx) typed

/-- A server that can be saved back is settled. -/
theorem settled_of_savesBack [Json.Python] {b : McpState} (h : Storable lib (serversOf b))
    (hsaves : SavesBack lib b) : Settled (serversOf b) := by
  intro s hs
  obtain ⟨t, ht, hsame, -⟩ := hsaves _ hs
  obtain rfl := Server.toDict_inj ht
  obtain ⟨r, b', hupsert, hservers⟩ := hsame ""
  rw [maskHeaders_toDict] at hupsert
  cases hvalid : validateServer lib (.dict (Server.toDict
      { s with headers := maskedHeaders (fun _ => none) s.headers })) with
  | error e =>
    rw [upsert_invalid hvalid] at hupsert
    cases hupsert
  | ok t =>
    obtain ⟨d, hd, hvalidates⟩ := validateServer_eq_ok_iff.mp hvalid
    obtain rfl := PyVal.dict.inj hd
    have hid : t.id = s.id := (PyVal.str.inj (eq_of_validateId hvalidates.id)).symm
    have hresolved : resolved lib (registryOf b).servers (.dict (Server.toDict
        { s with headers := maskedHeaders (fun _ => none) s.headers })) =
          .ok (stored (serversOf b) t) := by
      have heq := resolved_eq lib h.canonical (.dict (Server.toDict
        { s with headers := maskedHeaders (fun _ => none) s.headers }))
      rw [hvalid] at heq
      exact heq
    rw [upsert_ok hresolved] at hupsert
    obtain ⟨-, rfl⟩ := EStateM.Result.ok.inj hupsert
    -- what was stored in its place is the server itself
    have hput : putServer (stored (serversOf b) t) (serversOf b) = serversOf b := hservers
    have hmem := toDict_mem_putServer (stored (serversOf b) t) (serversOf b)
    rw [hput] at hmem
    have hsame : stored (serversOf b) t = s :=
      Server.toDict_inj (h.eq_of_id hs hmem (congrArg PyVal.str hid))
    have hlabel : (stored (serversOf b) t).label = s.label := congrArg Server.label hsame
    change t.label = s.label at hlabel
    have hchecked := hvalidates.label
    rw [hid, hlabel] at hchecked
    exact hchecked

/-! ### Runs -/

/-- In a run, every server of every registry can be saved back, and the validator is idempotent on all
bodies, exactly when every accepted body either has a label or an id without a line feed at its end. -/
theorem savesBack_iff [Json.Python] (lib : UrlLib) (calls : List JsonCall) :
    (Always (fun b c => call lib b c.toCall) (SavesBack lib) newRegistry calls ∧
        ∀ c ∈ calls, c.toCall.Idempotent lib) ↔
      ∀ c ∈ calls, c.toCall.LabelKept lib := by
  have hstorable (b : McpState) (c : JsonCall) (h : Storable lib (serversOf b)) :
      Storable lib (serversOf (call lib b c.toCall)) := by
    rw [serversOf_call]
    exact storable_serversAfter h c
  -- The run rule: as long as the labels are kept every state is settled, and then saves back.
  have hiff : Always (fun b c => call lib b (JsonCall.toCall c)) (SavesBack lib) newRegistry calls ↔
      ∀ c ∈ calls, c.toCall.LabelKept lib := by
    rw [always_iff_guarded (J := fun b => Storable lib (serversOf b) ∧ Settled (serversOf b))
      (G := fun _ c => c.toCall.LabelKept lib), guarded_iff_forall]
    · exact fun b h => savesBack_of_settled h.1 h.2
    · intro b c h hc
      refine ⟨hstorable b c h.1, ?_⟩
      rw [serversOf_call]
      exact settled_serversAfter h.1 h.2 hc
    · intro b c h hc hsaves
      have hsettled := settled_of_savesBack (hstorable b c h.1) hsaves
      rw [serversOf_call] at hsettled
      exact not_settled_serversAfter h.1 hc hsettled
    · exact ⟨⟨List.nodup_nil, fun _ h => absurd h List.not_mem_nil⟩,
        fun _ h => absurd h List.not_mem_nil⟩
  constructor
  · exact fun h => hiff.mp h.1
  · refine fun h => ⟨hiff.mpr h, fun c hc => ?_⟩
    have hkept := h c hc
    match hcall : c.toCall with
    | .delete id now => trivial
    | .upsert body now =>
      rw [hcall] at hkept
      intro s hvalid
      obtain ⟨d, rfl, hd⟩ := validateServer_eq_ok_iff.mp hvalid
      rw [hd.checked.validateServer_iff]
      exact hd.settled_iff.mpr (hkept (by rw [hvalid]; rfl))

/-- A server without a label whose id ends in a line feed. -/
def unlabelledCall : JsonCall where
  toCall := .upsert lineFeedBody "t"
  distinct := by
    rintro body now heq headers hheaders
    obtain ⟨rfl, -⟩ := Call.upsert.inj heq
    cases hheaders

theorem unlabelled_changes :
    ¬ ∃ (_ : Json.Python) (lib : UrlLib), ∀ calls : List JsonCall,
      Always (fun b c => call lib b c.toCall) (SavesBack lib) newRegistry calls ∧
        ∀ c ∈ calls, c.toCall.Idempotent lib := by
  rintro ⟨_, lib, h⟩
  obtain ⟨-, hidempotent⟩ := h [unlabelledCall]
  have hbody : Idempotent lib lineFeedBody := hidempotent unlabelledCall List.mem_cons_self
  have hvalid : validateServer lib lineFeedBody = .ok (plainServer "ab\n") :=
    validateServer_plainBody lib (by decide +kernel)
  obtain ⟨d, hbody', hd⟩ := validateServer_eq_ok_iff.mp hvalid
  -- The body has no label, and the id ends with a line feed.
  have hsettled := hd.checked.validateServer_iff.mp (hbody _ hvalid)
  have hkept := hd.settled_iff.mp hsettled
  rw [← hbody'] at hkept
  rcases hkept with hlabel | hid
  · exact hlabel rfl
  · exact hid "ab\n" rfl (by decide)

end Mcp
