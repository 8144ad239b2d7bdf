import VoiceAgentPlatform.Lib.Run
import VoiceAgentPlatform.Sessions.Registry

/-!
# Who owns an entry of the registry

The maps are keyed by an id that the client may choose, so two calls can have one id. While they do
not, every call owns what the maps hold of its id.

* `Owned`: the entry of every live call is the session that it registered.
* `Isolated`: a step leaves what the maps hold of the other live calls alone.
* `Exclusive`: no live call has the id that a call comes in with, or that a call writes the history
  of; `owned_of_exclusive` is the run rule.
-/

namespace Sessions

open History

/-- The session without the emit of one monitor. -/
def Session.except (session : Session) : Option Emit → Session
  | none => session
  | some emit =>
    { session with
      emits := session.emits.filter (· ≠ emit)
      monitors := session.monitors.filter (· ≠ emit) }

/-- The dictionaries that the tools and the flush of the call hold. -/
def Call.held (c : Call) : List ℕ :=
  match c.phase with
  | .writing held => held :: c.writers
  | _ => c.writers

namespace Registry

/-! ### Ownership and isolation -/

/-- `ACTIVE_SESSIONS[call_id]` is the dictionary that the live call registered, with its own emit. -/
structure Owned (s : Registry) : Prop where
  session : ∀ (i : ℕ) (c : Call), s.calls[i]? = some c → c.Live → s.activeSessions c.callId = some i
  emit : ∀ (i : ℕ) (c : Call), s.calls[i]? = some c → c.Live → Emit.primary i ∈ s.sessionEmits c.callId

/-- The emit of the monitor that takes the step, if it watches `callId`. -/
def ownEmit (s : Registry) (callId : String) : Event → Option Emit
  | .monitorOpen watched =>
    if watched = callId then some (.monitor s.watchers.length) else none
  | .monitorClose m =>
    if (s.watchers[m]?.map Monitor.callId) = some callId then some (.monitor m) else none
  | _ => none

/-- What the maps hold of a call stays the same, up to the emit of a monitor that comes or goes. -/
structure LeftAlone (s s' : Registry) (own : Option Emit) (c : Call) : Prop where
  reference : s'.activeSessions c.callId = s.activeSessions c.callId
  session : (s'.session? c.callId).map (·.except own) = (s.session? c.callId).map (·.except own)
  callMeta : c.phase = .running →
    s'.metaOf c.callId = s.metaOf c.callId ∧ s'.callMeta? c.callId = s.callMeta? c.callId
  turns : c.phase = .running → s'.historyBuffers c.callId = s.historyBuffers c.callId

/-- The step leaves the entries of every live call alone that is not the one that takes it. -/
def Isolated (s : Registry) (e : Event) : Prop :=
  ∀ (i : ℕ) (c : Call), s.calls[i]? = some c → c.Live → e.call? ≠ some i →
    LeftAlone s (s.step e) (s.ownEmit c.callId e) c

/-- No call but `i` that runs has this id. -/
def NoOther (s : Registry) (i : ℕ) (callId : String) : Prop :=
  ∀ (j : ℕ) (c : Call), s.calls[j]? = some c → j ≠ i → c.phase = .running → c.callId ≠ callId

/-- A call comes in under an id that no live call has, and a call reads or writes the history of its
id while no other call with that id runs. -/
def Exclusive (s : Registry) : Event → Prop
  | .connect door _ _ _ => ∀ (i : ℕ) (c : Call), s.calls[i]? = some c → c.Live → c.callId ≠ door.callId
  | .append i _ => ∀ c : Call, s.calls[i]? = some c → s.NoOther i c.callId
  | .transfer i _ => ∀ c : Call, s.calls[i]? = some c → s.NoOther i c.callId
  | .outcome i => ∀ c : Call, s.calls[i]? = some c → s.NoOther i c.callId
  | .flush i => ∀ c : Call, s.calls[i]? = some c → s.NoOther i c.callId
  | .flushPut i _ => ∀ c : Call, s.calls[i]? = some c → s.NoOther i c.callId
  | _ => True

/-- A property of all calls by number. -/
theorem forall_zipIdx {s : Registry} {p : ℕ → Call → Prop} :
    (∀ x ∈ s.calls.zipIdx, p x.2 x.1) ↔ ∀ (i : ℕ) (c : Call), s.calls[i]? = some c → p i c := by
  constructor
  · intro h i c hc
    exact h (c, i) (List.mk_mem_zipIdx_iff_getElem?.mpr hc)
  · rintro h ⟨c, i⟩ hmem
    exact h i c (List.mk_mem_zipIdx_iff_getElem?.mp hmem)

instance (s : Registry) (i : ℕ) (callId : String) : Decidable (s.NoOther i callId) :=
  decidable_of_iff _ (forall_zipIdx (p := fun j c => j ≠ i → c.phase = .running → c.callId ≠ callId))

/-- What is asked of the call with a number. -/
instance (s : Registry) (i : ℕ) (p : Call → Prop) [DecidablePred p] :
    Decidable (∀ c : Call, s.calls[i]? = some c → p c) :=
  match s.calls[i]? with
  | none => isTrue fun _ h => by cases h
  | some c => decidable_of_iff (p c) ⟨fun h _ hc => Option.some.inj hc ▸ h, fun h => h c rfl⟩

instance (s : Registry) : DecidablePred s.Exclusive
  | .connect door _ _ _ =>
    decidable_of_iff _ (forall_zipIdx (p := fun _ c => c.Live → c.callId ≠ door.callId))
  | .append i _ => inferInstanceAs (Decidable (∀ c : Call, s.calls[i]? = some c → _))
  | .transfer i _ => inferInstanceAs (Decidable (∀ c : Call, s.calls[i]? = some c → _))
  | .outcome i => inferInstanceAs (Decidable (∀ c : Call, s.calls[i]? = some c → _))
  | .flush i => inferInstanceAs (Decidable (∀ c : Call, s.calls[i]? = some c → _))
  | .flushPut i _ => inferInstanceAs (Decidable (∀ c : Call, s.calls[i]? = some c → _))
  | .attach _ => isTrue trivial
  | .outcomePut _ _ _ => isTrue trivial
  | .hangUp _ => isTrue trivial
  | .monitorOpen _ => isTrue trivial
  | .monitorClose _ => isTrue trivial

/-! ### Consistency -/

/-- Call `i` is over. -/
def Over (s : Registry) (i : ℕ) : Prop := ∃ c, s.calls[i]? = some c ∧ ¬ c.Live

/-- Every reference leads to a call with the id it is stored under, and the live calls own what is
stored under theirs. -/
structure Consistent (s : Registry) : Prop where
  active_call : ∀ callId i, s.activeSessions callId = some i →
    ∃ c, s.calls[i]? = some c ∧ c.callId = callId
  own_session : ∀ (i : ℕ) (c : Call), s.calls[i]? = some c → c.Live →
    s.activeSessions c.callId = some i
  own_emit : ∀ (i : ℕ) (c : Call), s.calls[i]? = some c → Emit.primary i ∈ c.session.emits
  meta_call : ∀ callId i, s.metaOf callId = some i →
    ∃ c, s.calls[i]? = some c ∧ c.callId = callId ∧ c.phase ≠ .starting
  no_meta : s.history = false → ∀ callId, s.metaOf callId = none
  own_meta : s.history = true → ∀ (i : ℕ) (c : Call), s.calls[i]? = some c → c.phase = .running →
    s.metaOf c.callId = some i
  held : ∀ (i : ℕ) (c : Call), s.calls[i]? = some c → ∀ r ∈ c.held, r = i ∨ s.Over r

theorem consistent_init (history : Bool) : Consistent (init history) := by
  constructor <;> simp [init]

/-- In a consistent registry every live call owns its entry. -/
theorem Consistent.owned {s : Registry} (hs : s.Consistent) : s.Owned where
  session := hs.own_session
  emit i c hc hlive := by
    have hactive := hs.own_session i c hc hlive
    simp [sessionEmits, session?, hactive, hc, hs.own_emit i c hc]

/-- Live calls have different ids. -/
theorem Consistent.noOther {s : Registry} (hs : s.Consistent) {i : ℕ} {c : Call}
    (hc : s.calls[i]? = some c) (hlive : c.Live) : s.NoOther i c.callId := by
  intro j d hd hne hrunning hid
  have hi := hs.own_session i c hc hlive
  have hj := hs.own_session j d hd (Or.inr hrunning)
  rw [hid, hi] at hj
  exact hne (Option.some.inj hj).symm

/-! ### Steps of a call -/

section CallStep

variable {s s' s'' : Registry} {i : ℕ} {c c' c'' : Call}

/-- What a step of call `i` can change: the call itself, what the maps hold of its id, and the metadata
of a call that is over. -/
structure CallStep (s s' : Registry) (i : ℕ) (c c' : Call) : Prop where
  history : s'.history = s.history
  self : s'.calls[i]? = some c'
  callId : c'.callId = c.callId
  session : c'.session = c.session
  live : c'.Live → c.Live
  starting : c'.phase = .starting → c.phase = .starting
  held : ∀ r ∈ c'.held, r ∈ c.held ∨ r = i ∨ s.Over r
  others : ∀ (j : ℕ) (d : Call), j ≠ i → s.calls[j]? = some d →
    ∃ m, s'.calls[j]? = some { d with callMeta := m } ∧ (d.Live → m = d.callMeta)
  none_new : ∀ j : ℕ, s.calls[j]? = none → s'.calls[j]? = none
  active : s'.activeSessions = s.activeSessions ∨
    c.Live ∧ ¬ c'.Live ∧ s'.activeSessions = Function.update s.activeSessions c.callId none
  maps : ∀ callId, (callId = c.callId → ¬ s.NoOther i c.callId) →
    s'.metaOf callId = s.metaOf callId ∧ s'.historyBuffers callId = s.historyBuffers callId
  meta_self : s'.metaOf c.callId = s.metaOf c.callId ∨ s'.metaOf c.callId = none ∨
    s'.metaOf c.callId = some i ∧ c'.phase ≠ .starting ∧ s.history = true
  own_meta : s'.history = true → c'.phase = .running →
    c.phase = .running ∧ s'.metaOf c.callId = s.metaOf c.callId ∨ s'.metaOf c.callId = some i

/-- A step backwards from a call that is not the one that took it. -/
theorem CallStep.others_back (h : CallStep s s' i c c') {j : ℕ} {d : Call} (hne : j ≠ i)
    (hd : s'.calls[j]? = some d) :
    ∃ d₀, s.calls[j]? = some d₀ ∧ d = { d₀ with callMeta := d.callMeta } ∧
      (d₀.Live → d.callMeta = d₀.callMeta) := by
  cases hd₀ : s.calls[j]? with
  | none => rw [h.none_new j hd₀] at hd; cases hd
  | some d₀ =>
    obtain ⟨m, hm, hlive⟩ := h.others j d₀ hne hd₀
    obtain rfl := Option.some.inj (hm.symm.trans hd)
    exact ⟨d₀, rfl, rfl, hlive⟩

/-- The same calls run before and after. -/
theorem CallStep.noOther_iff (h : CallStep s s' i c c') (callId : String) :
    s'.NoOther i callId ↔ s.NoOther i callId := by
  constructor
  · intro hother j d hd hne hrunning
    obtain ⟨m, hm, -⟩ := h.others j d hne hd
    exact hother j { d with callMeta := m } hm hne hrunning
  · intro hother j d hd hne hrunning
    obtain ⟨d₀, hd₀, hd', -⟩ := h.others_back hne hd
    rw [hd'] at hrunning ⊢
    exact hother j d₀ hd₀ hne hrunning

/-- No other call comes to its end. -/
theorem CallStep.over_back (h : CallStep s s' i c c') {r : ℕ} (hover : s'.Over r) :
    r = i ∨ s.Over r := by
  by_cases hr : r = i
  · exact Or.inl hr
  · obtain ⟨d, hd, hdead⟩ := hover
    obtain ⟨d₀, hd₀, hd', -⟩ := h.others_back hr hd
    rw [hd'] at hdead
    exact Or.inr ⟨d₀, hd₀, hdead⟩

/-- A call that is over stays so. -/
theorem CallStep.over (h : CallStep s s' i c c') (hc : s.calls[i]? = some c) {r : ℕ}
    (hover : s.Over r) : s'.Over r := by
  obtain ⟨d, hd, hdead⟩ := hover
  by_cases hr : r = i
  · subst hr
    obtain rfl := Option.some.inj (hc.symm.trans hd)
    exact ⟨c', h.self, fun hlive => hdead (h.live hlive)⟩
  · obtain ⟨m, hm, -⟩ := h.others r d hr hd
    exact ⟨_, hm, hdead⟩

/-- Two steps in a row. -/
theorem CallStep.trans (h : CallStep s s' i c c') (h' : CallStep s' s'' i c' c'') :
    CallStep s s'' i c c'' where
  history := h'.history.trans h.history
  self := h'.self
  callId := h'.callId.trans h.callId
  session := h'.session.trans h.session
  live hlive := h.live (h'.live hlive)
  starting hstarting := h.starting (h'.starting hstarting)
  held r hr := by
    rcases h'.held r hr with hr | hr | hr
    · exact h.held r hr
    · exact Or.inr (Or.inl hr)
    · exact Or.inr (h.over_back hr)
  others j d hne hd := by
    obtain ⟨m, hm, hlive⟩ := h.others j d hne hd
    obtain ⟨m', hm', hlive'⟩ := h'.others j _ hne hm
    exact ⟨m', hm', fun hd => (hlive' hd).trans (hlive hd)⟩
  none_new j hj := h'.none_new j (h.none_new j hj)
  active := by
    -- The session is given up in one of the two steps at most.
    rcases h.active with hactive | ⟨hlive, hdead, hactive⟩
    · rcases h'.active with hactive' | ⟨hlive', hdead', hactive'⟩
      · exact Or.inl (hactive'.trans hactive)
      · rw [hactive, h.callId] at hactive'
        exact Or.inr ⟨h.live hlive', hdead', hactive'⟩
    · rcases h'.active with hactive' | ⟨hlive', -, -⟩
      · exact Or.inr ⟨hlive, fun hlive'' => hdead (h'.live hlive''), hactive'.trans hactive⟩
      · exact absurd hlive' hdead
  maps callId hother := by
    have hmaps := h.maps callId hother
    have hmaps' := h'.maps callId (by rwa [h.callId, h.noOther_iff])
    exact ⟨hmaps'.1.trans hmaps.1, hmaps'.2.trans hmaps.2⟩
  meta_self := by
    have hmeta' := h'.meta_self
    rw [h.callId] at hmeta'
    rcases hmeta' with hmeta' | hmeta'
    · rw [hmeta']
      refine h.meta_self.imp_right (Or.imp_right fun hmeta => ⟨hmeta.1, fun hstarting => ?_, hmeta.2.2⟩)
      exact hmeta.2.1 (h'.starting hstarting)
    · exact Or.inr (hmeta'.imp_right fun hmeta => ⟨hmeta.1, hmeta.2.1, h.history ▸ hmeta.2.2⟩)
  own_meta hhistory hrunning := by
    have hown' := h'.own_meta hhistory hrunning
    rw [h.callId] at hown'
    rcases hown' with ⟨hrunning', hmeta'⟩ | hmeta'
    · rw [hmeta']
      exact h.own_meta (h'.history ▸ hhistory) hrunning'
    · exact Or.inr hmeta'

/-- A change of the call itself. -/
theorem callStep_modifyCall (hc : s.calls[i]? = some c) {f : Call → Call}
    (hid : (f c).callId = c.callId) (hsession : (f c).session = c.session)
    (hphase : (f c).phase = c.phase ∨ ¬ (f c).Live)
    (hheld : ∀ r ∈ (f c).held, r ∈ c.held ∨ r = i ∨ s.Over r) :
    CallStep s (s.modifyCall i f) i c (f c) where
  history := rfl
  self := by simp [hc]
  callId := hid
  session := hsession
  -- A call does not come back to life.
  live hlive := by
    rcases hphase with hphase | hdead
    · simpa only [Call.Live, hphase] using hlive
    · exact absurd hlive hdead
  starting hstarting := by
    rcases hphase with hphase | hdead
    · rwa [hphase] at hstarting
    · exact absurd (Or.inl hstarting) hdead
  held := hheld
  others j d hne hd := ⟨d.callMeta, by simp [Ne.symm hne, hd], fun _ => rfl⟩
  none_new j hj := by simp [hj]
  active := Or.inl rfl
  maps _ _ := ⟨rfl, rfl⟩
  meta_self := Or.inl rfl
  own_meta _ hrunning := by
    rcases hphase with hphase | hdead
    · exact Or.inl ⟨hphase ▸ hrunning, rfl⟩
    · exact absurd (Or.inr hrunning) hdead

/-- A step that does not happen. -/
theorem CallStep.refl (hc : s.calls[i]? = some c) : CallStep s s i c c where
  history := rfl
  self := hc
  callId := rfl
  session := rfl
  live h := h
  starting h := h
  held _ hr := Or.inl hr
  others _ d _ hd := ⟨d.callMeta, hd, fun _ => rfl⟩
  none_new _ h := h
  active := Or.inl rfl
  maps _ _ := ⟨rfl, rfl⟩
  meta_self := Or.inl rfl
  own_meta _ h := Or.inl ⟨h, rfl⟩

/-- A change of the metadata of the call itself or of a call that is over. -/
theorem callStep_modifyMeta (hc : s.calls[i]? = some c) {r : ℕ} (hr : r = i ∨ s.Over r)
    (f : CallMeta → CallMeta) : ∃ c', CallStep s (s.modifyMeta r f) i c c' := by
  by_cases hri : r = i
  · subst hri
    exact ⟨_, callStep_modifyCall hc rfl rfl (Or.inl rfl) fun r hr => Or.inl hr⟩
  · have hover := hr.resolve_left hri
    refine ⟨c, { CallStep.refl hc with
      self := by simp [modifyMeta, hri, hc]
      others := fun j d hne hd => ?_
      none_new := fun j hj => by simp [modifyMeta, hj] }⟩
    by_cases hrj : r = j
    · subst hrj
      -- Only a call that is over is written to.
      obtain ⟨d', hd', hdead⟩ := hover
      obtain rfl := Option.some.inj (hd.symm.trans hd')
      exact ⟨d.callMeta.map f, by simp [modifyMeta, hd], fun hlive => absurd hlive hdead⟩
    · exact ⟨d.callMeta, by simp [modifyMeta, hrj, hd], fun _ => rfl⟩

/-- The put of an outcome row returns. -/
theorem callStep_outcomePut (hc : s.calls[i]? = some c) {r : ℕ} (hr : r = i ∨ s.Over r)
    (ok : Bool) : ∃ c', CallStep s (s.outcomePut r ok) i c c' := by
  cases ok with
  | false => exact ⟨c, .refl hc⟩
  | true => exact callStep_modifyMeta hc hr _

/-- What a tool holds is held by its call. -/
theorem mem_held_of_writer {r : ℕ} (hr : r ∈ c.writers) : r ∈ c.held := by
  unfold Call.held
  split
  · exact List.mem_cons_of_mem _ hr
  · exact hr

/-- A call that has been flushed holds what its tools hold. -/
theorem held_flushed : ∀ r ∈ { c with phase := .flushed }.held, r ∈ c.held ∨ r = i ∨ s.Over r :=
  fun _ hr => Or.inl (mem_held_of_writer hr)

/-- One more tool holds a dictionary. -/
theorem held_addWriter {held : ℕ} (hheld : held = i ∨ s.Over held) :
    ∀ r ∈ { c with writers := c.writers ++ [held] }.held, r ∈ c.held ∨ r = i ∨ s.Over r := by
  intro r hr
  have hmem : r ∈ c.held ∨ r = held := by
    simp only [Call.held] at hr ⊢
    split at hr <;> simp_all [or_assoc]
  rcases hmem with hmem | rfl
  · exact Or.inl hmem
  · exact Or.inr hheld

/-- A tool lets its dictionary go. -/
theorem held_eraseWriter {k : ℕ} :
    ∀ r ∈ { c with writers := c.writers.eraseIdx k }.held, r ∈ c.held ∨ r = i ∨ s.Over r := by
  intro r hr
  have hsub := (List.eraseIdx_sublist c.writers k).subset
  refine Or.inl ?_
  simp only [Call.held] at hr ⊢
  split at hr
  · exact List.cons_subset_cons _ hsub hr
  · exact hsub hr

/-- The flush holds a dictionary. -/
theorem held_writing {held : ℕ} (hheld : held = i ∨ s.Over held) :
    ∀ r ∈ { c with phase := .writing held }.held, r ∈ c.held ∨ r = i ∨ s.Over r := by
  intro r hr
  rcases List.mem_cons.mp hr with rfl | hr
  · exact Or.inr hheld
  · exact Or.inl (mem_held_of_writer hr)

/-- The turns and the metadata are taken out while no other call with the id runs. -/
theorem callStep_popHistory (hc : s.calls[i]? = some c) (hother : s.NoOther i c.callId) :
    ∃ c', CallStep s (s.popHistory i c.callId) i c c' := by
  have hstep := callStep_modifyCall (f := fun c => { c with phase := .flushed }) hc rfl rfl
    (Or.inr (by simp [Call.Live])) held_flushed
  refine ⟨_, { hstep with
    maps := fun callId hid => ?_
    meta_self := Or.inr (Or.inl (by simp [popHistory]))
    own_meta := fun _ h => by cases h }⟩
  have hne : callId ≠ c.callId := fun h => hid h hother
  simp [popHistory, modifyCall, hne]

/-- While no other call with the id runs, its metadata is that of the call itself or of a call that is
over. -/
theorem Consistent.meta_over (hs : s.Consistent) (hother : s.NoOther i c.callId) {r : ℕ}
    (hmeta : s.metaOf c.callId = some r) : r = i ∨ s.Over r := by
  obtain ⟨d, hd, hid, hstarting⟩ := hs.meta_call _ _ hmeta
  by_cases hri : r = i
  · exact Or.inl hri
  · refine Or.inr ⟨d, hd, ?_⟩
    rintro (hlive | hlive)
    · exact hstarting hlive
    · exact hother r d hd hri hlive hid

/-- The outcome row that is written is that of the metadata. -/
theorem metaOf_of_outcomeToWrite {callId : String} {r : ℕ}
    (hr : s.outcomeToWrite callId = some r) : s.metaOf callId = some r := by
  obtain ⟨r', hmeta, hr⟩ := Option.bind_eq_some_iff.mp hr
  obtain ⟨d, -, hr⟩ := Option.bind_eq_some_iff.mp hr
  obtain ⟨m, -, hr⟩ := Option.bind_eq_some_iff.mp hr
  split at hr
  · cases hr
  · rwa [Option.some.inj hr] at hmeta

/-- A phone call that is starting attaches its history. -/
theorem callStep_attach (hs : s.Consistent) (hc : s.calls[i]? = some c)
    (hstarting : c.phase = .starting) : ∃ c', CallStep s (s.attach i c) i c c' := by
  have hlive : c.Live := Or.inl hstarting
  have hother := hs.noOther hc hlive
  -- What the call holds afterwards are its writers, which it held before.
  have hheld : ∀ m : Option CallMeta,
      ∀ r ∈ { c with phase := .running, callMeta := m }.held, r ∈ c.held ∨ r = i ∨ s.Over r := by
    intro m r hr
    have hwriters : r ∈ c.writers := hr
    exact Or.inl (by simp [Call.held, hstarting, hwriters])
  have hrefl := CallStep.refl hc
  unfold attach
  split
  · refine ⟨{ c with phase := .running, callMeta := some (attachedMeta c) },
      { hrefl with
        self := by simp [hc]
        live := fun _ => hlive
        starting := fun h => by cases h
        held := hheld _
        others := fun j d hne hd => ⟨d.callMeta, by simp [Ne.symm hne, hd], fun _ => rfl⟩
        none_new := fun j hj => by simp [hj]
        active := Or.inl rfl
        maps := fun callId hid => ?_
        meta_self := Or.inr (Or.inr ⟨by simp, by simp, ‹_›⟩)
        own_meta := fun _ _ => Or.inr (by simp) }⟩
    have hne : callId ≠ c.callId := fun h => hid h hother
    simp [hne]
  · rename_i hhistory
    exact ⟨{ c with phase := .running },
      { hrefl with
        self := by simp [hc]
        live := fun _ => hlive
        starting := fun h => by cases h
        held := hheld _
        others := fun j d hne hd => ⟨d.callMeta, by simp [Ne.symm hne, hd], fun _ => rfl⟩
        none_new := fun j hj => by simp [hj]
        active := Or.inl rfl
        maps := fun _ _ => ⟨rfl, rfl⟩
        meta_self := Or.inl rfl
        own_meta := fun h _ => absurd h hhistory }⟩

/-- The session of a call that runs is unregistered. -/
theorem callStep_hangUp (hc : s.calls[i]? = some c) (hrunning : c.phase = .running) {phase : Phase}
    (hphase : phase = .closing ∨ phase = .flushed) :
    ∃ c', CallStep s ((s.sessionUnregister c.callId).modifyCall i fun c => { c with phase }) i c
      c' := by
  have hdead : ¬ { c with phase }.Live := by
    rcases hphase with rfl | rfl <;> simp [Call.Live]
  have hheld : ∀ r ∈ { c with phase }.held, r ∈ c.held ∨ r = i ∨ s.Over r := by
    intro r hr
    have hwriters : r ∈ c.writers := by rcases hphase with rfl | rfl <;> exact hr
    exact Or.inl (by simp [Call.held, hrunning, hwriters])
  have hstep := callStep_modifyCall (f := fun c => { c with phase }) hc rfl rfl (Or.inr hdead) hheld
  exact ⟨_, { hstep with active := Or.inr ⟨Or.inr hrunning, hdead, rfl⟩ }⟩

/-- What one step of a call does. -/
theorem callStep_spec (hs : s.Consistent) (hc : s.calls[i]? = some c) {e : Event}
    (he : e.call? = some i) (hG : s.Exclusive e) :
    ∃ c', CallStep s (s.callStep i c e) i c c' := by
  have hrefl : ∃ c', CallStep s s i c c' := ⟨c, .refl hc⟩
  cases e with
  | connect door caller now launch => cases he
  | monitorOpen watched => cases he
  | monitorClose m => cases he
  | «attach» j =>
    obtain rfl := Option.some.inj he
    simp only [callStep]
    split
    · exact callStep_attach hs hc ‹_›
    · exact hrefl
  | «append» j turn =>
    obtain rfl := Option.some.inj he
    simp only [callStep]
    split
    · refine ⟨c, { CallStep.refl hc with maps := fun callId hid => ?_ }⟩
      have hne : callId ≠ c.callId := fun h => hid h (hG c hc)
      simp [append, hne]
    · exact hrefl
  | transfer j topic =>
    obtain rfl := Option.some.inj he
    simp only [callStep]
    split
    · unfold markTransfer
      cases hmeta : s.metaOf c.callId with
      | none => exact hrefl
      | some r => exact callStep_modifyMeta hc (hs.meta_over (hG c hc) hmeta) _
    · exact hrefl
  | outcome j =>
    obtain rfl := Option.some.inj he
    simp only [callStep]
    split
    · cases hwrite : s.outcomeToWrite c.callId with
      | none => exact hrefl
      | some r =>
        have hr := hs.meta_over (hG c hc) (metaOf_of_outcomeToWrite hwrite)
        exact ⟨_, callStep_modifyCall hc rfl rfl (Or.inl rfl) (held_addWriter hr)⟩
    · exact hrefl
  | «outcomePut» j k ok =>
    obtain rfl := Option.some.inj he
    simp only [callStep]
    cases hheld : c.writers[k]? with
    | none => exact hrefl
    | some r =>
      -- What the tool holds was the call's own or is the metadata of a call that is over.
      have hr := hs.held _ c hc r (mem_held_of_writer (List.mem_of_getElem? hheld))
      have hstep := callStep_modifyCall (f := fun c => { c with writers := c.writers.eraseIdx k })
        hc rfl rfl (Or.inl rfl) held_eraseWriter
      obtain ⟨c', hstep'⟩ := callStep_outcomePut hstep.self
        (hr.imp_right fun hover => hstep.over hc hover) ok
      exact ⟨c', hstep.trans hstep'⟩
  | hangUp j =>
    obtain rfl := Option.some.inj he
    simp only [callStep]
    split
    · exact callStep_hangUp hc ‹_› (by cases s.history <;> simp)
    · exact hrefl
  | flush j =>
    obtain rfl := Option.some.inj he
    simp only [callStep]
    split
    · cases hwrite : s.outcomeToWrite c.callId with
      | none => exact callStep_popHistory hc (hG c hc)
      | some r =>
        have hr := hs.meta_over (hG c hc) (metaOf_of_outcomeToWrite hwrite)
        exact ⟨_, callStep_modifyCall hc rfl rfl (Or.inr (by simp [Call.Live])) (held_writing hr)⟩
    · exact hrefl
  | flushPut j ok =>
    obtain rfl := Option.some.inj he
    simp only [callStep]
    split
    · rename_i r hphase
      have hr := hs.held _ c hc r (by simp [Call.held, hphase])
      obtain ⟨c', hstep⟩ := callStep_outcomePut hc hr ok
      have hpop := callStep_popHistory hstep.self
        (by rw [hstep.callId, hstep.noOther_iff]; exact hG c hc)
      rw [hstep.callId] at hpop
      obtain ⟨c'', hstep'⟩ := hpop
      exact ⟨c'', hstep.trans hstep'⟩
    · exact hrefl

/-- Where a call is after the step. -/
theorem CallStep.call (h : CallStep s s' i c c') (hc : s.calls[i]? = some c) {j : ℕ} {d : Call}
    (hd : s.calls[j]? = some d) :
    ∃ d', s'.calls[j]? = some d' ∧ d'.callId = d.callId ∧
      (d.phase ≠ .starting → d'.phase ≠ .starting) := by
  by_cases hj : j = i
  · subst hj
    obtain rfl := Option.some.inj (hc.symm.trans hd)
    exact ⟨c', h.self, h.callId, fun hphase hstarting => hphase (h.starting hstarting)⟩
  · obtain ⟨m, hm, -⟩ := h.others j d hj hd
    exact ⟨_, hm, rfl, fun hphase => hphase⟩

/-- The entries of the other live calls are under other ids, or untouched. -/
theorem CallStep.active_other (hs : s.Consistent) (hc : s.calls[i]? = some c)
    (h : CallStep s s' i c c') {j : ℕ} {d : Call} (hne : j ≠ i) (hd : s.calls[j]? = some d)
    (hlive : d.Live) : s'.activeSessions d.callId = s.activeSessions d.callId := by
  rcases h.active with hactive | ⟨hlive', -, hactive⟩
  · rw [hactive]
  · rw [hactive, Function.update_of_ne]
    intro hid
    have hj := hs.own_session j d hd hlive
    rw [hid, hs.own_session i c hc hlive'] at hj
    exact hne (Option.some.inj hj).symm

/-- What the maps hold for another running call is untouched. -/
theorem CallStep.maps_other (h : CallStep s s' i c c') {j : ℕ} {d : Call} (hne : j ≠ i)
    (hd : s.calls[j]? = some d) (hrunning : d.phase = .running) :
    s'.metaOf d.callId = s.metaOf d.callId ∧
      s'.historyBuffers d.callId = s.historyBuffers d.callId :=
  h.maps d.callId fun hid hother => hother j d hd hne hrunning hid

/-- A step of a call keeps the registry consistent. -/
theorem CallStep.consistent (hs : s.Consistent) (hc : s.calls[i]? = some c)
    (h : CallStep s s' i c c') : s'.Consistent where
  active_call callId j hj := by
    -- An entry after the step was there before: a step removes sessions, it never adds one.
    have hold : s.activeSessions callId = some j := by
      rcases h.active with hactive | ⟨-, -, hactive⟩
      · rwa [hactive] at hj
      · rw [hactive, Function.update_apply] at hj
        split at hj
        · cases hj
        · exact hj
    obtain ⟨d, hd, hid⟩ := hs.active_call callId j hold
    obtain ⟨d', hd', hid', -⟩ := h.call hc hd
    exact ⟨d', hd', hid'.trans hid⟩
  own_session j d hd hlive := by
    by_cases hj : j = i
    · subst hj
      obtain rfl := Option.some.inj (h.self.symm.trans hd)
      -- The session of the call itself only goes when the call is no longer live.
      rcases h.active with hactive | ⟨-, hdead, -⟩
      · rw [hactive, h.callId]
        exact hs.own_session j c hc (h.live hlive)
      · exact absurd hlive hdead
    · obtain ⟨d₀, hd₀, heq, -⟩ := h.others_back hj hd
      rw [heq] at hlive ⊢
      exact (h.active_other hs hc hj hd₀ hlive).trans (hs.own_session j d₀ hd₀ hlive)
  own_emit j d hd := by
    by_cases hj : j = i
    · subst hj
      obtain rfl := Option.some.inj (h.self.symm.trans hd)
      rw [h.session]
      exact hs.own_emit j c hc
    · obtain ⟨d₀, hd₀, heq, -⟩ := h.others_back hj hd
      rw [heq]
      exact hs.own_emit j d₀ hd₀
  meta_call callId j hj := by
    -- A meta is the old one, or the call of the step has just attached its own.
    have hcases : s.metaOf callId = some j ∨ j = i ∧ c.callId = callId ∧ c'.phase ≠ .starting := by
      by_cases hid : callId = c.callId
      · subst hid
        rcases h.meta_self with hmeta | hmeta | ⟨hmeta, hphase, -⟩
        · exact Or.inl (hmeta ▸ hj)
        · rw [hmeta] at hj; cases hj
        · rw [hmeta] at hj
          exact Or.inr ⟨(Option.some.inj hj).symm, rfl, hphase⟩
      · exact Or.inl ((h.maps callId fun h => absurd h hid).1 ▸ hj)
    rcases hcases with hold | ⟨rfl, rfl, hphase⟩
    · obtain ⟨d, hd, hid, hphase⟩ := hs.meta_call callId j hold
      obtain ⟨d', hd', hid', hphase'⟩ := h.call hc hd
      exact ⟨d', hd', hid'.trans hid, hphase' hphase⟩
    · exact ⟨c', h.self, h.callId, hphase⟩
  no_meta hhistory callId := by
    rw [h.history] at hhistory
    by_cases hid : callId = c.callId
    · subst hid
      rcases h.meta_self with hmeta | hmeta | ⟨-, -, htrue⟩
      · exact hmeta.trans (hs.no_meta hhistory _)
      · exact hmeta
      · rw [hhistory] at htrue; cases htrue
    · exact (h.maps callId fun h => absurd h hid).1.trans (hs.no_meta hhistory _)
  own_meta hhistory j d hd hrunning := by
    by_cases hj : j = i
    · subst hj
      obtain rfl := Option.some.inj (h.self.symm.trans hd)
      rw [h.callId]
      -- It kept its meta, or it has just got it.
      rcases h.own_meta hhistory hrunning with ⟨hrunning', hmeta⟩ | hmeta
      · exact hmeta.trans (hs.own_meta (h.history ▸ hhistory) j c hc hrunning')
      · exact hmeta
    · obtain ⟨d₀, hd₀, heq, -⟩ := h.others_back hj hd
      rw [heq] at hrunning ⊢
      exact (h.maps_other hj hd₀ hrunning).1.trans
        (hs.own_meta (h.history ▸ hhistory) j d₀ hd₀ hrunning)
  held j d hd r hr := by
    by_cases hj : j = i
    · subst hj
      obtain rfl := Option.some.inj (h.self.symm.trans hd)
      rcases h.held r hr with hr | hr | hover
      · exact (hs.held j c hc r hr).imp_right (h.over hc)
      · exact Or.inl hr
      · exact Or.inr (h.over hc hover)
    · obtain ⟨d₀, hd₀, heq, -⟩ := h.others_back hj hd
      rw [heq] at hr
      exact (hs.held j d₀ hd₀ r hr).imp_right (h.over hc)

/-- A step of a call leaves what the maps hold of the other live calls alone. -/
theorem CallStep.leftAlone (hs : s.Consistent) (hc : s.calls[i]? = some c)
    (h : CallStep s s' i c c') {j : ℕ} {d : Call} (hne : j ≠ i) (hd : s.calls[j]? = some d)
    (hlive : d.Live) : LeftAlone s s' none d := by
  obtain ⟨m, hm, hmeta⟩ := h.others j d hne hd
  have hactive := h.active_other hs hc hne hd hlive
  have hown := hs.own_session j d hd hlive
  refine ⟨hactive, ?_, fun hrunning => ?_, fun hrunning => (h.maps_other hne hd hrunning).2⟩
  · simp [session?, hactive, hown, hm, hd]
  · have hmaps := (h.maps_other hne hd hrunning).1
    refine ⟨hmaps, ?_⟩
    cases hhistory : s.history with
    | false => simp [callMeta?, hmaps, hs.no_meta hhistory]
    | true => simp [callMeta?, hmaps, hs.own_meta hhistory j d hd hrunning, hm, hd, hmeta hlive]

end CallStep

/-! ### A call comes in -/

section Connect

variable {s : Registry} {door : Door} {caller : Option String} {now : ℚ} {launch : Launch}

/-- The calls that were there stay what they are. -/
theorem calls_sessionRegister {i : ℕ} {c : Call} (hc : s.calls[i]? = some c) :
    (s.sessionRegister door caller now launch).calls[i]? = some c := by
  show (s.calls ++ [_])[i]? = some c
  rw [List.getElem?_append_left (List.getElem?_eq_some_iff.mp hc).1, hc]

/-- A call is one that was there or the one that comes in. -/
theorem calls_sessionRegister_inv {i : ℕ} {c : Call}
    (hc : (s.sessionRegister door caller now launch).calls[i]? = some c) :
    s.calls[i]? = some c ∨
      i = s.calls.length ∧ c = registeredCall s.calls.length door caller now launch := by
  have hc : (s.calls ++ [registeredCall s.calls.length door caller now launch])[i]? = some c := hc
  rw [List.getElem?_append] at hc
  split at hc
  · exact Or.inl hc
  · obtain ⟨hlt, hget⟩ := List.getElem?_eq_some_iff.mp hc
    simp only [List.length_singleton] at hlt
    exact Or.inr ⟨by omega, by simpa using hget.symm⟩

/-- A registration under an id that no live call has keeps the registry consistent. -/
theorem Consistent.sessionRegister (hs : s.Consistent)
    (hfree : ∀ (i : ℕ) (c : Call), s.calls[i]? = some c → c.Live → c.callId ≠ door.callId) :
    (s.sessionRegister door caller now launch).Consistent := by
  -- The id is free among the live calls, so the new session takes nothing away from them.
  have hnew : (s.sessionRegister door caller now launch).calls[s.calls.length]? =
      some (registeredCall s.calls.length door caller now launch) := List.getElem?_concat_length
  constructor
  · intro callId i hi
    have hi : Function.update s.activeSessions door.callId (some s.calls.length) callId = some i := hi
    rw [Function.update_apply] at hi
    split at hi
    · obtain rfl := Option.some.inj hi
      exact ⟨_, hnew, Eq.symm ‹_›⟩
    · obtain ⟨c, hc, hid⟩ := hs.active_call callId i hi
      exact ⟨c, calls_sessionRegister hc, hid⟩
  · intro i c hc hlive
    show Function.update s.activeSessions door.callId (some s.calls.length) c.callId = some i
    rcases calls_sessionRegister_inv hc with hc | ⟨rfl, rfl⟩
    · rw [Function.update_of_ne (hfree i c hc hlive)]
      exact hs.own_session i c hc hlive
    · exact Function.update_self ..
  · intro i c hc
    rcases calls_sessionRegister_inv hc with hc | ⟨rfl, rfl⟩
    · exact hs.own_emit i c hc
    · exact List.mem_singleton_self _
  · intro callId i hi
    obtain ⟨c, hc, hid, hphase⟩ := hs.meta_call callId i hi
    exact ⟨c, calls_sessionRegister hc, hid, hphase⟩
  · exact hs.no_meta
  · intro hhistory i c hc hrunning
    rcases calls_sessionRegister_inv hc with hc | ⟨rfl, rfl⟩
    · exact hs.own_meta hhistory i c hc hrunning
    · cases hrunning
  · intro i c hc r hr
    rcases calls_sessionRegister_inv hc with hc | ⟨rfl, rfl⟩
    · refine (hs.held i c hc r hr).imp_right fun ⟨d, hd, hdead⟩ => ?_
      exact ⟨d, calls_sessionRegister hd, hdead⟩
    · cases hr

/-- It leaves what the maps hold of the live calls alone. -/
theorem leftAlone_sessionRegister (hs : s.Consistent) {i : ℕ} {c : Call}
    (hc : s.calls[i]? = some c) (hlive : c.Live) (hid : c.callId ≠ door.callId) :
    LeftAlone s (s.sessionRegister door caller now launch) none c := by
  have hactive : (s.sessionRegister door caller now launch).activeSessions c.callId =
      s.activeSessions c.callId := Function.update_of_ne hid _ _
  refine ⟨hactive, ?_, fun hrunning => ⟨rfl, ?_⟩, fun _ => rfl⟩
  · simp [session?, hactive, hs.own_session i c hc hlive, calls_sessionRegister hc, hc]
  · show (s.metaOf c.callId).bind _ = (s.metaOf c.callId).bind _
    cases hmeta : s.metaOf c.callId with
    | none => rfl
    | some r =>
      obtain ⟨d, hd, -⟩ := hs.meta_call _ _ hmeta
      simp [calls_sessionRegister hd, hd]

/-- What is left alone twice is left alone. -/
theorem LeftAlone.trans {s' s'' : Registry} {c : Call} (h : LeftAlone s s' none c)
    (h' : LeftAlone s' s'' none c) : LeftAlone s s'' none c where
  reference := h'.reference.trans h.reference
  session := h'.session.trans h.session
  callMeta hrunning :=
    ⟨(h'.callMeta hrunning).1.trans (h.callMeta hrunning).1,
      (h'.callMeta hrunning).2.trans (h.callMeta hrunning).2⟩
  turns hrunning := (h'.turns hrunning).trans (h.turns hrunning)

/-- What a call that comes in does. -/
theorem connect_spec (hs : s.Consistent)
    (hfree : ∀ (i : ℕ) (c : Call), s.calls[i]? = some c → c.Live → c.callId ≠ door.callId) :
    (s.connect door caller now launch).Consistent ∧
      ∀ (i : ℕ) (c : Call), s.calls[i]? = some c → c.Live →
        LeftAlone s (s.connect door caller now launch) none c := by
  have hregistered : (s.sessionRegister door caller now launch).Consistent :=
    hs.sessionRegister hfree
  have hleft : ∀ (i : ℕ) (c : Call), s.calls[i]? = some c → c.Live →
      LeftAlone s (s.sessionRegister door caller now launch) none c :=
    fun i c hc hlive => leftAlone_sessionRegister hs hc hlive (hfree i c hc hlive)
  cases door with
  | web requested millis =>
    -- The history is attached by the call that has just been registered.
    obtain ⟨c', hstep⟩ := callStep_attach hregistered List.getElem?_concat_length rfl
    refine ⟨hstep.consistent hregistered List.getElem?_concat_length, fun i c hc hlive => ?_⟩
    have hne : i ≠ s.calls.length := (List.getElem?_eq_some_iff.mp hc).1.ne
    exact (hleft i c hc hlive).trans (hstep.leftAlone hregistered List.getElem?_concat_length hne
      (calls_sessionRegister hc) hlive)
  | phone requested millis => exact ⟨hregistered, hleft⟩
  | twilio streamSid => exact ⟨hregistered, hleft⟩

end Connect

/-! ### Monitors come and go -/

section Monitors

variable {s s' : Registry}

/-- A step of a monitor: the emits of one session change, the calls' own ones apart. -/
structure MonitorStep (s s' : Registry) (k : ℕ) (f : Session → Session) : Prop where
  history : s'.history = s.history
  active : s'.activeSessions = s.activeSessions
  metaOf : s'.metaOf = s.metaOf
  buffers : s'.historyBuffers = s.historyBuffers
  calls : s'.calls = s.calls.modify k fun c => { c with session := f c.session }
  primary : ∀ session i, Emit.primary i ∈ session.emits → Emit.primary i ∈ (f session).emits

/-- The calls after a monitor's step. -/
theorem MonitorStep.getElem? {k : ℕ} {f : Session → Session} (h : MonitorStep s s' k f) (i : ℕ) :
    s'.calls[i]? =
      s.calls[i]?.map fun c => { c with session := if k = i then f c.session else c.session } := by
  rw [h.calls, List.getElem?_modify]
  split <;> simp [*]

/-- A call after a monitor's step was there before it. -/
theorem MonitorStep.back {k : ℕ} {f : Session → Session} (h : MonitorStep s s' k f) {i : ℕ}
    {c : Call} (hc : s'.calls[i]? = some c) :
    ∃ c₀, s.calls[i]? = some c₀ ∧ c = { c₀ with session := c.session } ∧
      (∀ j, Emit.primary j ∈ c₀.session.emits → Emit.primary j ∈ c.session.emits) := by
  rw [h.getElem?] at hc
  obtain ⟨c₀, hc₀, rfl⟩ := Option.map_eq_some_iff.mp hc
  refine ⟨c₀, hc₀, rfl, fun j hj => ?_⟩
  show Emit.primary j ∈ Session.emits (if k = i then f c₀.session else c₀.session)
  split
  · exact h.primary _ j hj
  · exact hj

/-- A call keeps its number. -/
theorem MonitorStep.call {k : ℕ} {f : Session → Session} (h : MonitorStep s s' k f) {i : ℕ}
    {c : Call} (hc : s.calls[i]? = some c) :
    ∃ session, s'.calls[i]? = some { c with session } := by
  exact ⟨_, by rw [h.getElem?, hc, Option.map_some]⟩

/-- A monitor's step keeps the registry consistent. -/
theorem MonitorStep.consistent {k : ℕ} {f : Session → Session} (h : MonitorStep s s' k f)
    (hs : s.Consistent) : s'.Consistent where
  -- A monitor touches the session of one call, and of this only its listeners.
  active_call callId i hi := by
    rw [h.active] at hi
    obtain ⟨c, hc, hid⟩ := hs.active_call callId i hi
    obtain ⟨session, hc'⟩ := h.call hc
    exact ⟨_, hc', hid⟩
  own_session i c hc hlive := by
    obtain ⟨c₀, hc₀, heq, -⟩ := h.back hc
    rw [heq] at hlive ⊢
    rw [h.active]
    exact hs.own_session i c₀ hc₀ hlive
  own_emit i c hc := by
    obtain ⟨c₀, hc₀, -, hprimary⟩ := h.back hc
    exact hprimary i (hs.own_emit i c₀ hc₀)
  meta_call callId i hi := by
    rw [h.metaOf] at hi
    obtain ⟨c, hc, hid, hphase⟩ := hs.meta_call callId i hi
    obtain ⟨session, hc'⟩ := h.call hc
    exact ⟨_, hc', hid, hphase⟩
  no_meta hhistory callId := by
    rw [h.metaOf]
    exact hs.no_meta (h.history ▸ hhistory) callId
  own_meta hhistory i c hc hrunning := by
    obtain ⟨c₀, hc₀, heq, -⟩ := h.back hc
    rw [heq] at hrunning ⊢
    rw [h.metaOf]
    exact hs.own_meta (h.history ▸ hhistory) i c₀ hc₀ hrunning
  held i c hc r hr := by
    obtain ⟨c₀, hc₀, heq, -⟩ := h.back hc
    rw [heq] at hr
    refine (hs.held i c₀ hc₀ r hr).imp_right fun ⟨d, hd, hdead⟩ => ?_
    obtain ⟨session, hd'⟩ := h.call hd
    exact ⟨_, hd', hdead⟩

/-- A monitor's step leaves what the maps hold of a call alone, up to an emit that the change of the
session under the call's id passes over. -/
theorem MonitorStep.leftAlone {k : ℕ} {f : Session → Session} (h : MonitorStep s s' k f) (c : Call)
    (own : Option Emit)
    (hf : s.activeSessions c.callId = some k → ∀ session, (f session).except own = session.except own) :
    LeftAlone s s' own c := by
  have hactive : s'.activeSessions c.callId = s.activeSessions c.callId := by rw [h.active]
  refine ⟨hactive, ?_, fun _ => ⟨by rw [h.metaOf], ?_⟩, fun _ => by rw [h.buffers]⟩
  · simp only [session?, hactive, bind, Option.bind]
    cases hi : s.activeSessions c.callId with
    | none => rfl
    | some i =>
      simp only [h.getElem?]
      cases s.calls[i]? with
      | none => rfl
      | some d =>
        show some (Session.except (if k = i then f d.session else d.session) own) = _
        -- The session that the monitor watches is changed by the monitor only.
        split
        · rename_i hki
          rw [hf (hki ▸ hi)]
          rfl
        · rfl
  · simp only [callMeta?, h.metaOf, bind, Option.bind]
    cases s.metaOf c.callId with
    | none => rfl
    | some r =>
      simp only [h.getElem?]
      cases s.calls[r]? <;> rfl

/-- One more emit of a monitor makes no difference without it. -/
theorem except_append (session : Session) (emit : Emit) :
    Session.except
      { session with emits := session.emits ++ [emit], monitors := session.monitors ++ [emit] }
      (some emit) = session.except (some emit) := by
  simp [Session.except]

/-- Nor does one emit less. -/
theorem except_erase (session : Session) (emit : Emit) :
    Session.except
      { session with emits := session.emits.erase emit, monitors := session.monitors.erase emit }
      (some emit) = session.except (some emit) := by
  have herase : ∀ l : List Emit, (l.erase emit).filter (· ≠ emit) = l.filter (· ≠ emit) := by
    intro l
    rw [← List.erase_filter, List.erase_of_not_mem (by simp)]
  simp only [Session.except, herase]

/-- A monitor that finds no session changes none. -/
theorem monitorStep_none {watchers : List Monitor} :
    MonitorStep s { s with watchers } s.calls.length id where
  history := rfl
  active := rfl
  metaOf := rfl
  buffers := rfl
  calls := by
    show s.calls = s.calls.modify s.calls.length id
    rw [List.modify_id]
  primary _ _ h := h

/-- A session is registered under one id. -/
theorem Consistent.callId_unique (hs : s.Consistent) {callId callId' : String} {k : ℕ}
    (h : s.activeSessions callId = some k) (h' : s.activeSessions callId' = some k) :
    callId = callId' := by
  obtain ⟨c, hc, hid⟩ := hs.active_call _ _ h
  obtain ⟨d, hd, hid'⟩ := hs.active_call _ _ h'
  obtain rfl := Option.some.inj (hc.symm.trans hd)
  exact hid.symm.trans hid'

/-- What a monitor that comes in does. -/
theorem attachMonitor_spec (hs : s.Consistent) (watched : String) :
    ∃ k f, MonitorStep s (s.sessionAttachMonitor watched) k f ∧
      ∀ c : Call, s.activeSessions c.callId = some k → ∀ session,
        (f session).except (s.ownEmit c.callId (.monitorOpen watched)) =
          session.except (s.ownEmit c.callId (.monitorOpen watched)) := by
  unfold sessionAttachMonitor
  cases hactive : s.activeSessions watched with
  | none => exact ⟨_, _, monitorStep_none, fun _ _ _ => rfl⟩
  | some k =>
    let f (session : Session) : Session :=
      { session with
        emits := session.emits ++ [.monitor s.watchers.length]
        monitors := session.monitors ++ [.monitor s.watchers.length] }
    refine ⟨k, f, ⟨rfl, rfl, rfl, rfl, rfl, fun _ _ hi => List.mem_append_left _ hi⟩, ?_⟩
    intro c hk session
    rw [ownEmit, if_pos (hs.callId_unique hactive hk)]
    exact except_append session _

/-- What a monitor that leaves does. -/
theorem detachMonitor_spec (hs : s.Consistent) {m : ℕ} {w : Monitor}
    (hw : s.watchers[m]? = some w) :
    ∃ k f, MonitorStep s (s.sessionDetachMonitor w.callId (.monitor m)) k f ∧
      ∀ c : Call, s.activeSessions c.callId = some k → ∀ session,
        (f session).except (s.ownEmit c.callId (.monitorClose m)) =
          session.except (s.ownEmit c.callId (.monitorClose m)) := by
  unfold sessionDetachMonitor
  cases hactive : s.activeSessions w.callId with
  | none => exact ⟨_, _, monitorStep_none, fun _ _ _ => rfl⟩
  | some k =>
    let f (session : Session) : Session :=
      { session with
        emits := session.emits.erase (.monitor m)
        monitors := session.monitors.erase (.monitor m) }
    refine ⟨k, f, ⟨rfl, rfl, rfl, rfl, rfl, fun _ _ hi => ?_⟩, fun c hk session => ?_⟩
    · exact (List.mem_erase_of_ne (by simp)).mpr hi
    · rw [ownEmit, hw, Option.map_some, if_pos (congrArg some (hs.callId_unique hactive hk))]
      exact except_erase session _

end Monitors

/-! ### Runs -/

/-- A step that changes nothing leaves everything alone. -/
theorem LeftAlone.refl (s : Registry) (own : Option Emit) (c : Call) : LeftAlone s s own c :=
  ⟨rfl, rfl, fun _ => ⟨rfl, rfl⟩, fun _ => rfl⟩

/-- An event that is not possible. -/
theorem isolated_of_step_eq {s : Registry} {e : Event} (h : s.step e = s) : s.Isolated e := by
  intro i c _ _ _
  rw [h]
  exact .refl s _ c

/-- One step of one connection, by the connection that takes it. -/
theorem step_spec {s : Registry} (hs : s.Consistent) {e : Event} (hG : s.Exclusive e) :
    (s.step e).Consistent ∧ s.Isolated e := by
  cases hcall : e.call? with
  | some i =>
    -- A call: its endpoint, its tools or its flush.
    cases hc : s.calls[i]? with
    | none =>
      have hstep : s.step e = s := by simp only [step, hcall, hc]
      exact ⟨hstep.symm ▸ hs, isolated_of_step_eq hstep⟩
    | some c =>
      have hstep : s.step e = s.callStep i c e := by simp only [step, hcall, hc]
      obtain ⟨c', h⟩ := callStep_spec hs hc hcall hG
      rw [← hstep] at h
      refine ⟨h.consistent hs hc, fun j d hd hlive hne => ?_⟩
      have hown : s.ownEmit d.callId e = none := by
        cases e <;> first | rfl | cases hcall
      rw [hown]
      exact h.leftAlone hs hc (fun hj => hne (by rw [hcall, hj])) hd hlive
  | none =>
    cases e with
    | connect door caller now launch =>
      obtain ⟨hconsistent, hleft⟩ := connect_spec hs hG
      exact ⟨hconsistent, fun i c hc hlive _ => hleft i c hc hlive⟩
    | monitorOpen watched =>
      obtain ⟨k, f, h, hf⟩ := attachMonitor_spec hs watched
      exact ⟨h.consistent hs, fun i c hc hlive _ => h.leftAlone c _ (hf c)⟩
    | monitorClose m =>
      cases hw : s.watchers[m]? with
      | none =>
        have hstep : s.step (.monitorClose m) = s := by simp only [step, Event.call?, hw]
        exact ⟨hstep.symm ▸ hs, isolated_of_step_eq hstep⟩
      | some w =>
        cases hattached : w.attached with
        | false =>
          have hstep : s.step (.monitorClose m) = s := by
            simp [step, Event.call?, hw, hattached]
          exact ⟨hstep.symm ▸ hs, isolated_of_step_eq hstep⟩
        | true =>
          have hstep : s.step (.monitorClose m) = s.sessionDetachMonitor w.callId (.monitor m) := by
            simp [step, Event.call?, hw, hattached]
          obtain ⟨k, f, h, hf⟩ := detachMonitor_spec hs hw
          rw [← hstep] at h
          exact ⟨h.consistent hs, fun i c hc hlive _ => h.leftAlone c _ (hf c)⟩
    | _ => cases hcall

/-- In a run in which no call comes in under the id of a live call, and none uses the history of its id
while another call with that id runs, every live call owns its entries. -/
theorem owned_of_exclusive (history : Bool) (es : List Event)
    (h : Run.Guarded step Exclusive (init history) es) :
    Run.Always step Owned (init history) es ∧ Run.Guarded step Isolated (init history) es := by
  have hstep : ∀ s e, Consistent s → Exclusive s e → Consistent (s.step e) :=
    fun s e hs hG => (step_spec hs hG).1
  constructor
  · exact (Run.always_of_guarded hstep (consistent_init history) h).mono fun s hs => hs.owned
  · exact Run.Guarded.mono hstep (fun _ _ (hs : Consistent _) hG => (step_spec hs hG).2)
      (consistent_init history) h

/-! ### Two calls with one id -/

/-- The launch of a web call. -/
def sampleLaunch (user : String) : Launch where
  engine := "nova-sonic"
  lang := "en-US"
  scenario := "default"
  provider := ""
  voice := "tiffany"
  model := ""
  minimaxModel := ""
  webUser := some user

/-- A web call with the id that its client asks for. -/
def webCall (callId user : String) : Event :=
  .connect (.web (some callId) 0) none 1000 (sampleLaunch user)

/-- Two web calls with different ids to their ends, one of them watched by a monitor. -/
def twoCalls : List Event :=
  [webCall "a" "alice", webCall "b" "bob", .monitorOpen "a", .append 0 (.str "hello"), .hangUp 0,
    .monitorClose 0, .flush 0, .append 1 (.str "hi"), .flushPut 0 true, .hangUp 1]

/-- They own their entries throughout. -/
theorem owned_twoCalls :
    Run.Guarded step Exclusive (init true) twoCalls ∧
      Run.Always step Owned (init true) twoCalls ∧
        Run.Guarded step Isolated (init true) twoCalls :=
  have hG : Run.Guarded step Exclusive (init true) twoCalls := by decide +kernel
  ⟨hG, owned_of_exclusive true twoCalls hG⟩

/-- A second web call that asks for the id of a live one takes its entry over. -/
theorem not_owned_sameId :
    ¬ (Run.Always step Owned (init true) [webCall "a" "alice", webCall "a" "bob"] ∧
      Run.Guarded step Isolated (init true) [webCall "a" "alice", webCall "a" "bob"]) := by
  rintro ⟨howned, -⟩
  -- Both calls live, and the entry is the second one's.
  have hsession := howned.last.session 0 _ rfl (by decide)
  have hother : (Run.exec step (init true)
      [webCall "a" "alice", webCall "a" "bob"]).activeSessions "a" = some 1 := by decide
  exact absurd (hsession.symm.trans hother) (by decide)

end Registry

end Sessions
