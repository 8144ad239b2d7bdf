import VoiceAgentPlatform.Talk.LaunchParams
import VoiceAgentPlatform.Tokens.Provenance

/-!
# From a guest link to the call of the guest

An administrator fills in the form of a link; the fields travel in the claims of its token, in the response
of the guest login and in the query of the Talk page, which starts the call with them. Fields of the JSON
bodies are texts or missing.

* `guestLinkBody`, `guestLaunchQuery`, `wsQuery`: as the sources have them.
* `guestLogin`: the response of `auth_guest_login`.
* `mountedCall`: what the Talk page starts when it is opened.
* `RunsAsLinked`: the session of a call has what the link names.
* `guestLaunch_call`: in every run, the call of a guest runs with what the link names.
-/

namespace Talk

open Launch Tokens

/-! ### The code -/

/-- The form of the page of users. -/
structure GuestLinkForm where
  ttl : PyVal
  scenario : Option String
  lang : Option String
  engine : Option String
  voice : Option String
  provider : Option String

/-- `guestLinkBody`. -/
def guestLinkBody (f : GuestLinkForm) : GuestLinkBody where
  ttlMinutes := some f.ttl
  scenario := truthy f.scenario
  launch :=
    { lang := truthy f.lang, engine := truthy f.engine, voice := truthy f.voice
      provider := truthy f.provider }

/-- The response of `auth_guest_login`. -/
structure GuestLogin where
  username : String
  role : String
  scenario : PyVal
  lang : PyVal
  engine : PyVal
  voice : PyVal
  provider : PyVal

/-- The response that `auth_guest_login` makes of the claims. -/
def guestLogin (claims : PyDict) : GuestLogin where
  username := "guest"
  role := "guest"
  scenario := claims.get "scenario"
  lang := claims.get "lang"
  engine := claims.get "engine"
  voice := claims.get "voice"
  provider := claims.get "provider"

/-- A JSON value that is a text which is not empty. -/
def queryText : PyVal → Option String
  | .str s => truthy (some s)
  | _ => none

/-- `guestLaunchQuery`; no query counts as an empty one, as it does for the router. -/
def guestLaunchQuery (r : GuestLogin) : LaunchQuery where
  scenario := queryText r.scenario
  lang := queryText r.lang
  engine := queryText r.engine
  voice := queryText r.voice
  provider := queryText r.provider

/-- What `onMounted` of the Talk page starts: a call if the query has a scenario, and otherwise none, so that
the query has only seeded the selection. -/
def mountedCall (config : TalkConfig) (persisted : PrevSelection) (cfg : LaunchQuery) : Option LaunchQuery :=
  (truthy cfg.scenario).map fun _ => started config persisted cfg

/-- The launch fields that `openTalkWs` sends. -/
def wsQuery (params : LaunchQuery) : LaunchConfig where
  lang := truthy params.lang
  engine := truthy params.engine
  voice := truthy params.voice
  provider := truthy params.provider

/-! ### What the link names -/

/-- The fields of the body of a link that are not empty. -/
def linkQuery (body : GuestLinkBody) : LaunchQuery where
  scenario := truthy body.scenario
  lang := truthy body.launch.lang
  engine := truthy body.launch.engine
  voice := truthy body.launch.voice
  provider := truthy body.launch.provider

/-- What the form of the page of users names. -/
def formQuery (f : GuestLinkForm) : LaunchQuery where
  scenario := truthy f.scenario
  lang := truthy f.lang
  engine := truthy f.engine
  voice := truthy f.voice
  provider := truthy f.provider

/-- The parameters have every field that the link names. -/
structure LaunchQuery.Keeps (link params : LaunchQuery) : Prop where
  scenario : ∀ s, link.scenario = some s → params.scenario = some s
  lang : ∀ l, link.lang = some l → params.lang = some l
  engine : ∀ e, link.engine = some e → params.engine = some e
  voice : ∀ v, link.voice = some v → params.voice = some v
  provider : ∀ p, link.provider = some p → params.provider = some p

@[simp] theorem truthy_truthy (value : Option String) : truthy (truthy value) = truthy value := by
  rw [truthy, truthy, Option.filter_filter]
  simp

theorem linkQuery_guestLinkBody (f : GuestLinkForm) :
    linkQuery (guestLinkBody f) = formQuery f := by
  simp [linkQuery, guestLinkBody, formQuery]

theorem queryText_getD (value : Option String) :
    queryText (((value.filter (· ≠ "")).map PyVal.str).getD .none) = truthy value := by
  cases hvalue : value.filter (· ≠ "") with
  | none => exact hvalue.symm
  | some s =>
    have hs : s ≠ "" := by simpa using (Option.filter_eq_some_iff.mp hvalue).2
    rw [truthy, hvalue]
    simp [queryText, truthy, hs]

/-- The landing page reads the fields of a link off the claims of its token. -/
theorem guestLaunchQuery_claims {now : ℚ} {ttl : ℤ} (scenario : Option String) (launch : LaunchConfig) :
    guestLaunchQuery (guestLogin
        (payloadOf "guest" "guest" now ttl (guestExtra scenario launch))) =
      { scenario := truthy scenario, lang := truthy launch.lang, engine := truthy launch.engine
        voice := truthy launch.voice, provider := truthy launch.provider } := by
  have hfield (e : String × Option String) (he : e ∈ [("scenario", scenario), ("lang", launch.lang),
      ("engine", launch.engine), ("voice", launch.voice), ("provider", launch.provider)]) :
      queryText (PyDict.get (payloadOf "guest" "guest" now ttl (guestExtra scenario launch)) e.1) =
        truthy e.2 := by
    rw [get_guestPayload_field he, queryText_getD]
  rw [guestLaunchQuery, guestLogin]
  congr 1
  · exact hfield ("scenario", scenario) (by simp)
  · exact hfield ("lang", launch.lang) (by simp)
  · exact hfield ("engine", launch.engine) (by simp)
  · exact hfield ("voice", launch.voice) (by simp)
  · exact hfield ("provider", launch.provider) (by simp)

theorem override_of_truthy {a b : Option String} {s : String} (h : truthy b = some s) :
    override a b = some s := by
  rw [override, h, Option.some_or]

/-- What the page is opened with comes before its selection. -/
theorem keeps_started (config : TalkConfig) (persisted : PrevSelection) (body : GuestLinkBody) :
    (linkQuery body).Keeps (started config persisted (linkQuery body)) := by
  constructor <;>
    exact fun v hv => override_of_truthy (by rw [linkQuery, truthy_truthy]; exact hv)

/-! ### The call of a guest -/

/-- What a link was checked against. -/
theorem accepted_of_checkedGuestLink {catalog : Catalog} {body : GuestLinkBody} {ttl : ℤ}
    {scenario : Option String} {launch : LaunchConfig}
    (h : checkedGuestLink catalog body = some (ttl, scenario, launch)) :
    scenario = body.scenario ∧ launch = body.launch ∧ Accepted catalog.voices body.launch := by
  simp only [checkedGuestLink] at h
  cases hgiven : guestTtl body with
  | none => simp [hgiven] at h
  | some ttl' =>
    simp only [hgiven] at h
    split_ifs at h
    cases hvalid : validateLaunchConfig catalog.voices body.launch with
    | error e => simp [hvalid] at h
    | ok clean =>
      simp only [hvalid, Option.some.injEq, Prod.mk.injEq] at h
      obtain ⟨-, rfl, rfl⟩ := h
      obtain ⟨rfl, haccepted⟩ := accepted_of_validateLaunchConfig hvalid
      exact ⟨rfl, rfl, haccepted⟩

/-- The session has what the link names: its engine and its language, and its voice if the link names the
engine that it goes with, and the provider for the pipeline. -/
structure RunsAsLinked (reg : Demos.Registries) (link : LaunchQuery) (session : Session) : Prop where
  engine : ∀ e, link.engine = some e → session.engine = e
  lang : ∀ l, link.lang = some l → session.lang = .str l
  nova : ∀ v, link.engine = some "nova-sonic" → link.voice = some v →
    session.voice = ⟨"nova-sonic", Demos.novaSonicVoice v⟩
  pipeline : ∀ p v, link.engine = some "pipeline" → link.provider = some p → link.voice = some v →
    v ∈ reg.voicesFor p → session.voice = ⟨p, v⟩

theorem wsEndpoint_lang (reg : Demos.Registries) (web : PyMap.View) (q : LaunchConfig) :
    (wsEndpoint reg web q).lang = wsLang web q := by
  rw [wsEndpoint]
  split_ifs <;> rfl

/-- A field of the link that is not empty is sent. -/
theorem truthy_of_kept {value param : Option String} {v : String}
    (hkept : ∀ v, truthy value = some v → param = some v) (hv : truthy value = some v) :
    truthy param = some v := by
  rw [hkept v hv]
  exact truthy_eq_some_iff.mpr ⟨rfl, (truthy_eq_some_iff.mp hv).2⟩

/-- Parameters that keep what an accepted link names. -/
theorem runsAsLinked_of_keeps {reg : Demos.Registries} {body : GuestLinkBody} {params : LaunchQuery}
    (haccepted : Accepted reg body.launch) (hkeeps : (linkQuery body).Keeps params) (web : PyMap.View) :
    RunsAsLinked reg (linkQuery body) (wsEndpoint reg web (wsQuery params)) := by
  have hgiven {value : Option String} {v : String} (hv : truthy value = some v) : value = some v :=
    (truthy_eq_some_iff.mp hv).1
  have hengine (e : String) (he : (linkQuery body).engine = some e) :
      wsEngine web (wsQuery params) = .str e := by
    rw [wsEngine, wsQuery, truthy_of_kept hkeeps.engine he]
    rfl
  constructor
  · intro e he
    exact (wsEndpoint_engine reg (hengine e he) (haccepted.engine e (hgiven he))).1
  · intro l hl
    rw [wsEndpoint_lang, wsLang, wsQuery, truthy_of_kept hkeeps.lang hl]
    rfl
  · intro v he hv
    refine wsEndpoint_nova (hengine _ he) (truthy_of_kept hkeeps.voice hv) ?_
    exact haccepted.nova v (hgiven hv) (by rw [hgiven he]; rfl)
  · -- The provider falls back to another voice only for one that is not of its own.
    intro p v he hp hv hmem
    have hprovider : wsProvider web (wsQuery params) = .str p := by
      rw [wsProvider, wsQuery, truthy_of_kept hkeeps.provider hp]
      rfl
    have hproviders := haccepted.provider p (hgiven hp)
    have hvoice : Demos.voiceInProviderTable reg v p = true := by
      have hchecked := haccepted.pipeline v (hgiven hv) (by rw [hgiven he]; decide)
      rwa [hgiven hp] at hchecked
    rw [wsEndpoint_pipeline (hengine _ he) (truthy_of_kept hkeeps.voice hv) hprovider hproviders]
    have hid := (buildTts_id_iff (wsLang web (wsQuery params)) hproviders hvoice).mpr
      fun heq hnot => absurd (heq ▸ hmem) hnot
    have htable := buildTts_table reg hproviders (.str v) (wsLang web (wsQuery params))
    generalize buildTts reg p (.str v) (wsLang web (wsQuery params)) = voice at hid htable ⊢
    obtain ⟨table, id⟩ := voice
    exact congrArg₂ Voice.mk htable hid

section Runs

variable {slot : String ↪ ℕ} {s : Server} {w : World slot} {es : List (Event slot)}

/-- A guest who logs in comes to the Talk page with what the link of an administrator names. If that is a
scenario too, the page starts a call, which runs with it whatever the guest had selected before and however
the defaults are configured, as long as the voices are those that the link was checked against; otherwise
it waits for the guest. What the link names is what the administrator filled in, if the form has posted
it. -/
theorem guestLaunch_call (hw : w.issued = []) {payload : PyDict} {token : String}
    (hgiven : payload.get "token" = .str token) (hstrip : PyText.strip token = token)
    (htoken : Unforged s (Run.exec s.step w es) token) {cookie : PyVal} {claims : PyDict}
    (h : authGuestLogin s.jwt (Run.exec s.step w es).now payload = .ok (cookie, claims)) :
    ∃ pre cookie' catalog body post admin, es = pre ++ .guestLink cookie' catalog body :: post ∧
      s.adminSession (Run.exec s.step w pre) cookie' = .ok admin ∧
      guestLaunchQuery (guestLogin claims) = linkQuery body ∧
      (∀ form, body = guestLinkBody form → guestLaunchQuery (guestLogin claims) = formQuery form) ∧
      ∀ config persisted,
        (mountedCall config persisted (linkQuery body) = none ↔ (linkQuery body).scenario = none) ∧
        ∀ params, mountedCall config persisted (linkQuery body) = some params →
          (linkQuery body).Keeps params ∧
          ∀ web, RunsAsLinked catalog.voices (linkQuery body)
            (wsEndpoint catalog.voices web (wsQuery params)) := by
  rw [authGuestLogin_eq hgiven hstrip] at h
  cases hdecode : decodeJwt s.jwt (Run.exec s.step w es).now token with
  | none => simp [hdecode] at h
  | some claims' =>
    simp only [hdecode] at h
    split_ifs at h with hguest
    obtain rfl : claims' = claims := (Prod.mk.inj (Except.ok.inj h)).2
    obtain ⟨pre, e, post, hes, hminted⟩ := exists_minted hw (decodeJwt_eq_some htoken hdecode).1
    -- The claims are those of a link, and a link holds what its form was checked for.
    rcases minted_cases hminted with ⟨_, _, rfl⟩ |
      ⟨cookie', catalog, body, admin, ttl, scenario, launch, rfl, hadmin, hchecked, rfl⟩ |
      ⟨_, _, -, -, rfl⟩
    · cases hguest
    · obtain ⟨rfl, rfl, haccepted⟩ := accepted_of_checkedGuestLink hchecked
      have hquery := @guestLaunchQuery_claims (Run.exec s.step w pre).now (guestSeconds ttl) body.scenario
        body.launch
      refine ⟨pre, cookie', catalog, body, post, admin, hes, hadmin, hquery, fun form hform => ?_, ?_⟩
      · rw [← linkQuery_guestLinkBody, ← hform]
        exact hquery
      intro config persisted
      refine ⟨?_, fun params hparams => ?_⟩
      · rw [mountedCall, Option.map_eq_none_iff, linkQuery, truthy_truthy]
      · obtain ⟨-, -, rfl⟩ := Option.map_eq_some_iff.mp hparams
        have hkeeps := keeps_started config persisted body
        exact ⟨hkeeps, runsAsLinked_of_keeps haccepted hkeeps⟩
    · cases hguest

/-- The link of the sample run is the only one, so the call of its guest runs with what it names. -/
theorem guestLaunch_call_link :
    guestLaunchQuery (guestLogin linkPayload) = linkQuery sampleLink ∧
      ∀ config persisted web, ∃ params,
        mountedCall config persisted (linkQuery sampleLink) = some params ∧
        params.scenario = some "shop" ∧
        (wsEndpoint sampleCatalog.voices web (wsQuery params)).engine = "pipeline" ∧
        (wsEndpoint sampleCatalog.voices web (wsQuery params)).lang = .str "zh-HK" ∧
        (wsEndpoint sampleCatalog.voices web (wsQuery params)).voice = ⟨"polly", "Zhiyu"⟩ := by
  obtain ⟨pre, cookie, catalog, body, post, _, hes, _, hquery, -, hcall⟩ := guestLaunch_call rfl rfl
    (by decide +kernel) (sample_unforged "link" (by simp)) sample_authGuestLogin
  have hmem : Event.guestLink cookie catalog body ∈ sampleEvents :=
    hes ▸ List.mem_append_right _ List.mem_cons_self
  obtain ⟨rfl, rfl⟩ : catalog = sampleCatalog ∧ body = sampleLink := by
    simp only [sampleEvents, List.mem_cons, List.not_mem_nil, reduceCtorEq, or_false, false_or,
      Event.guestLink.injEq] at hmem
    exact hmem.2
  refine ⟨hquery, fun config persisted web => ?_⟩
  obtain ⟨hnone, hsome⟩ := hcall config persisted
  -- The scenario makes the page start the call.
  obtain ⟨params, hparams⟩ := Option.ne_none_iff_exists'.mp
    (mt hnone.mp (show (linkQuery sampleLink).scenario ≠ none by decide))
  obtain ⟨hkeeps, hruns⟩ := hsome params hparams
  exact ⟨params, hparams, hkeeps.scenario "shop" rfl, (hruns web).engine "pipeline" rfl,
    (hruns web).lang "zh-HK" rfl,
    (hruns web).pipeline "polly" "Zhiyu" rfl rfl rfl (by simp [sampleCatalog])⟩

end Runs

end Talk
