import VoiceAgentPlatform.Mcp.McpConfig

/-!
# Calls of the MCP registry

What `upsert` and `delete` leave behind, by what they find and by whether their write fails.
-/

namespace Mcp

open AtomicFile Raising

variable {lib : UrlLib} {b : McpState} {body : PyVal} {fault : Option WriteStep} {now id : String}

/-- The id that a body names. -/
def bodyId : PyVal → PyVal
  | .dict d => PyDict.get d "id"
  | _ => .none

/-- A server that is stored is a valid one. -/
theorem exists_valid_of_resolved {servers : List PyDict} {server : Server}
    (h : resolved lib servers body = .ok server) :
    ∃ normalized, validateServer lib body = .ok normalized ∧ server.id = normalized.id := by
  rw [resolved] at h
  cases hvalid : validateServer lib body with
  | error e =>
    rw [hvalid] at h
    cases h
  | ok normalized =>
    refine ⟨normalized, rfl, ?_⟩
    -- Only the headers of the valid server are replaced.
    simp only [hvalid, bind, Except.bind] at h
    cases hheaders : resolveHeaders ((((findServer servers normalized.id).getD []).get
        "headers").orElse (.dict [])) normalized.headers with
    | error e =>
      rw [hheaders] at h
      cases h
    | ok headers =>
      rw [hheaders] at h
      obtain rfl := Except.ok.inj h
      rfl

section

variable [Json.Python]

/-- The registry that a write is about. -/
def edited (b : McpState) (servers : List PyDict) (now : String) : Registry :=
  { servers, rest := (registryOf b).rest.set "_meta" (metaEntry now) }

theorem ensureLoaded_eq (b : McpState) :
    ensureLoaded b = .ok (registryOf b) { b with cache := some (registryOf b) } := rfl

theorem persist_none (b : McpState) (servers : List PyDict) (now : String) :
    persist { registryOf b with servers } none now { b with cache := some (registryOf b) } =
      .ok () { b with
        cache := some (edited b servers now), file := some (.dumped (edited b servers now)) } := rfl

theorem persist_some (b : McpState) (servers : List PyDict) (s : WriteStep) (now : String) :
    persist { registryOf b with servers } (some s) now { b with cache := some (registryOf b) } =
      .error (.write s) { b with cache := some (edited b servers now) } :=
  bind_error (writeAtomic_some s Exc.write (edited b servers now) _) _

/-- A body that is no server. -/
theorem upsert_invalid {e : Exc} (h : validateServer lib body = .error e) :
    upsert lib body fault now b = .error e b := by
  rw [upsert, h]
  rfl

/-- The part of `upsert` behind the check of the body. -/
theorem upsert_valid {server : Server} (h : validateServer lib body = .ok server) :
    upsert lib body fault now b =
      (ofExcept (resolved lib (registryOf b).servers body) >>= fun server =>
        persist { registryOf b with servers := putServer server (registryOf b).servers } fault now >>=
          fun _ => pure server) { b with cache := some (registryOf b) } := by
  rw [upsert, h]
  rfl

/-- An upsert whose write succeeds. -/
theorem upsert_ok {server : Server} (h : resolved lib (registryOf b).servers body = .ok server) :
    upsert lib body none now b =
      .ok server { b with
        cache := some (edited b (putServer server (registryOf b).servers) now)
        file := some (.dumped (edited b (putServer server (registryOf b).servers) now)) } := by
  obtain ⟨normalized, hvalid, -⟩ := exists_valid_of_resolved h
  rw [upsert_valid hvalid, h]
  rfl

/-- An upsert whose write fails. -/
theorem upsert_write_error {server : Server} {s : WriteStep}
    (h : resolved lib (registryOf b).servers body = .ok server) :
    upsert lib body (some s) now b =
      .error (.write s)
        { b with cache := some (edited b (putServer server (registryOf b).servers) now) } := by
  obtain ⟨normalized, hvalid, -⟩ := exists_valid_of_resolved h
  rw [upsert_valid hvalid, h]
  exact bind_error (persist_some b _ s now) _

/-- An upsert that raises before the write. -/
theorem upsert_resolve_error {e : Exc} (h : resolved lib (registryOf b).servers body = .error e) :
    ∃ cache, upsert lib body fault now b = .error e { b with cache } ∧
      (cache = b.cache ∨ cache = some (registryOf b)) := by
  cases hvalid : validateServer lib body with
  | error e' =>
    rw [resolved, hvalid] at h
    cases h
    exact ⟨b.cache, upsert_invalid hvalid, Or.inl rfl⟩
  | ok normalized =>
    refine ⟨some (registryOf b), ?_, Or.inr rfl⟩
    rw [upsert_valid hvalid, h]
    rfl

/-- A deletion of a server that is there. -/
theorem delete_eq_of_ne
    (h : (registryOf b).servers.filter (fun s => s.get "id" ≠ .str id) ≠ (registryOf b).servers) :
    delete id fault now b =
      (persist { registryOf b with
          servers := (registryOf b).servers.filter fun s => s.get "id" ≠ .str id } fault now >>=
        fun _ => pure true) { b with cache := some (registryOf b) } := by
  have hlength : ((registryOf b).servers.filter fun s => s.get "id" ≠ .str id).length ≠
      (registryOf b).servers.length := fun heq => h (List.filter_sublist.eq_of_length heq)
  rw [delete, bind_ok (ensureLoaded_eq b)]
  simp only [if_neg hlength]

/-- A deletion of a server that is not there. -/
theorem delete_eq_of_eq
    (h : (registryOf b).servers.filter (fun s => s.get "id" ≠ .str id) = (registryOf b).servers) :
    delete id fault now b = .ok false { b with cache := some (registryOf b) } := by
  rw [delete, bind_ok (ensureLoaded_eq b)]
  simp only [h, if_true]
  rfl

end

/-! ### A server that every library lets through -/

/-- A server without headers, credentials or label. -/
def plainBody (id : String) : PyVal :=
  .dict [("id", .str id), ("transport", .str "sse"), ("url", .str "http://host/")]

/-- What `plainBody` becomes. -/
def plainServer (id : String) : Server where
  id
  label := id
  transport := .str "sse"
  url := "http://host/"
  headers := []
  enabled := true
  auth := [("type", .str "none")]

theorem validateUrl_host (lib : UrlLib) : validateUrl lib (.str "http://host/") = .ok "http://host/" := by
  have hparse := @urlparse_of_plain lib "http://host/" (by decide +kernel) (by decide +kernel)
    (by decide +kernel)
  have hsplit : splitUrl "http://host/" = ("http", "host") := by decide +kernel
  have hhttp : isHttpUrl lib "http://host/" = .ok true := by
    rw [isHttpUrl, hparse, hsplit]
    rfl
  rw [validateUrl, if_neg (by decide), hhttp]
  rfl

theorem validateServer_plainBody (lib : UrlLib) (h : Demos.isServerId id = true) :
    validateServer lib (plainBody id) = .ok (plainServer id) := by
  have hid : validateId (.str id) = .ok id := if_pos h
  have htransport : validateTransport (.str "sse") = .ok () := by
    rw [validateTransport, if_neg (by decide +kernel), if_neg (by decide +kernel)]
  have hparts : validateServer lib (plainBody id) =
      (validateId (.str id) >>= fun sid => validateTransport (.str "sse") >>= fun _ =>
        validateUrl lib (.str "http://host/") >>= fun url =>
          .ok { plainServer sid with url }) := rfl
  rw [hparts, hid, htransport, validateUrl_host]
  rfl

end Mcp
