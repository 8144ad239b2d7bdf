import Mathlib.Data.Multiset.MapFold
import Mathlib.Data.Multiset.AddSub
import Mathlib.Data.Multiset.UnionInter
import VoiceAgentPlatform.VoiceServer.SipServer

/-!
# Who holds which RTP port

An abstract view of the SIP server: a pool of ports, the holdings of established dialogs, the
holdings of suspended INVITEs, and which sessions run. A holding is a port together with the
session bound to it.

* `Ledger.Step` lists the moves of a call: a holding is acquired, refused, established or closed.
* `Ledger.Replace` is the move that goes wrong: a holding takes the place of another one, which
  nobody holds from then on.
* `Ledger.Balanced` says that the pool and the holdings agree. Every `Step` keeps it
  (`Balanced.step`), a `Replace` leaks a port (`Balanced.leak_of_replace`).
* `Ledger.SessionsDistinct`, that nobody shares a session, survives both.
-/

namespace VoiceServer

/-- A port taken from the pool and the session bound to it. -/
structure Holding where
  port : ℕ
  session : ℕ

/-- The pool, the holdings of dialogs and of suspended INVITEs, and the session objects. -/
structure Ledger where
  pool : PortPool
  dialogs : Multiset Holding
  pending : Multiset Holding
  sessions : List RtpSession

namespace Ledger

/-- Session `i` has been started and not stopped. -/
def Running (l : Ledger) (i : ℕ) : Prop := ∃ r, l.sessions[i]? = some r ∧ r.running = true

/-- All holdings, of dialogs and of suspended INVITEs. -/
def holdings (l : Ledger) : Multiset Holding := l.dialogs + l.pending

/-- The moves on a ledger. -/
inductive Step (l l' : Ledger) : Prop where
  /-- Nothing changes. -/
  | keep (h : l' = l)
  /-- A port is taken for an INVITE that is then turned away, and given back at once. -/
  | bounce (port : ℕ) (pool : PortPool) (hallocate : l.pool.allocate = some (port, pool))
      (h : l' = { l with pool := pool.release port })
  /-- An INVITE takes a port, creates a session for it and is suspended. -/
  | acquire (h : Holding) (hpool : l.pool.allocate = some (h.port, l'.pool))
      (hsession : h.session = l.sessions.length) (hdialogs : l'.dialogs = l.dialogs)
      (hpending : l'.pending = h ::ₘ l.pending)
      (hlength : l'.sessions.length = l.sessions.length + 1)
      (hrunning : ∀ i, l'.Running i → l.Running i)
  /-- The session of a suspended INVITE does not start. -/
  | refuse (h : Holding) (hpool : l'.pool = l.pool.release h.port)
      (hdialogs : l'.dialogs = l.dialogs) (hpending : l.pending = h ::ₘ l'.pending)
      (hsessions : l'.sessions = l.sessions)
  /-- The session of a suspended INVITE starts and its call is established. -/
  | establish (h : Holding) (hpool : l'.pool = l.pool) (hdialogs : l'.dialogs = h ::ₘ l.dialogs)
      (hpending : l.pending = h ::ₘ l'.pending)
      (hlength : l'.sessions.length = l.sessions.length)
      (hrunning : ∀ i, l'.Running i → l.Running i ∨ i = h.session)
  /-- A call ends. -/
  | close (h : Holding) (hpool : l'.pool = l.pool.release h.port)
      (hdialogs : l.dialogs = h ::ₘ l'.dialogs) (hpending : l'.pending = l.pending)
      (hlength : l'.sessions.length = l.sessions.length)
      (hrunning : ∀ i, l'.Running i → l.Running i ∧ i ≠ h.session)

/-- A suspended INVITE is established in the place of a call with the same Call-ID, whose holding
`old` is forgotten. -/
structure Replace (l l' : Ledger) : Prop where
  moved : ∃ h old, l'.pool = l.pool ∧ l'.sessions.length = l.sessions.length ∧
    l.pending = h ::ₘ l'.pending ∧ ∃ rest, l.dialogs = old ::ₘ rest ∧ l'.dialogs = h ::ₘ rest

/-- The sessions held exist, and nobody shares one. -/
structure SessionsDistinct (l : Ledger) : Prop where
  nodup_sessions : (l.holdings.map Holding.session).Nodup
  session_lt : ∀ h ∈ l.holdings, h.session < l.sessions.length

/-- The pool and the holdings agree: the ports in use are the ports held, nobody shares a port, the
pool has the ports it was created with, and only the sessions of dialogs run. -/
structure Balanced (initial : OrderedSet ℕ) (l : Ledger) : Prop where
  inUse_iff : ∀ p, p ∈ l.pool.inUse ↔ p ∈ l.holdings.map Holding.port
  nodup_ports : (l.holdings.map Holding.port).Nodup
  has_iff : ∀ p, l.pool.Has p ↔ p ∈ initial
  sessions : l.SessionsDistinct
  running_dialog : ∀ i, l.Running i → ∃ h ∈ l.dialogs, h.session = i

variable {initial : OrderedSet ℕ} {l l' : Ledger}

/-- Dropping a holding keeps the sessions distinct. -/
private theorem SessionsDistinct.drop (hd : l.SessionsDistinct) {h : Holding}
    (hholdings : l.holdings = h ::ₘ l'.holdings)
    (hlength : l'.sessions.length = l.sessions.length) : l'.SessionsDistinct := by
  have hsessions := hd.nodup_sessions
  rw [hholdings, Multiset.map_cons, Multiset.nodup_cons] at hsessions
  refine ⟨hsessions.2, fun g hg => ?_⟩
  rw [hlength]
  exact hd.session_lt g (hholdings ▸ Multiset.mem_cons_of_mem hg)

/-- A new session is distinct from the ones held. -/
private theorem SessionsDistinct.add (hd : l.SessionsDistinct) {h : Holding}
    (hholdings : l'.holdings = h ::ₘ l.holdings) (hsession : h.session = l.sessions.length)
    (hlength : l'.sessions.length = l.sessions.length + 1) : l'.SessionsDistinct := by
  refine ⟨?_, fun g hg => ?_⟩
  · rw [hholdings, Multiset.map_cons]
    refine Multiset.nodup_cons.mpr ⟨fun hmem => ?_, hd.nodup_sessions⟩
    obtain ⟨g, hg, hgs⟩ := Multiset.mem_map.mp hmem
    have := hd.session_lt g hg
    omega
  · rw [hholdings, Multiset.mem_cons] at hg
    rcases hg with rfl | hg
    · omega
    · have := hd.session_lt g hg
      omega

/-- What a move does to the holdings. -/
private theorem Step.holdings_cases (hstep : Step l l') :
    (l'.holdings = l.holdings ∧ l'.sessions.length = l.sessions.length) ∨
      (∃ h, l.holdings = h ::ₘ l'.holdings ∧ l'.sessions.length = l.sessions.length) ∨
      (∃ h, l'.holdings = h ::ₘ l.holdings ∧ h.session = l.sessions.length ∧
        l'.sessions.length = l.sessions.length + 1) := by
  cases hstep with
  | keep h => exact Or.inl ⟨by rw [h], by rw [h]⟩
  | bounce port pool hallocate h => exact Or.inl ⟨by rw [h]; rfl, by rw [h]⟩
  | acquire h hpool hsession hdialogs hpending hlength hrunning =>
    exact Or.inr (Or.inr ⟨h, by rw [holdings, holdings, hdialogs, hpending, Multiset.add_cons],
      hsession, hlength⟩)
  | refuse h hpool hdialogs hpending hsessions =>
    exact Or.inr (Or.inl ⟨h, by rw [holdings, holdings, hdialogs, hpending, Multiset.add_cons],
      by rw [hsessions]⟩)
  | establish h hpool hdialogs hpending hlength hrunning =>
    exact Or.inl ⟨by rw [holdings, holdings, hdialogs, hpending, Multiset.add_cons,
      Multiset.cons_add], hlength⟩
  | close h hpool hdialogs hpending hlength hrunning =>
    exact Or.inr (Or.inl ⟨h, by rw [holdings, holdings, hdialogs, hpending, Multiset.cons_add],
      hlength⟩)

/-- Every move keeps the sessions distinct. -/
theorem SessionsDistinct.step (hd : l.SessionsDistinct) (hstep : Step l l') :
    l'.SessionsDistinct := by
  rcases hstep.holdings_cases with ⟨hholdings, hlength⟩ | ⟨h, hholdings, hlength⟩ |
    ⟨h, hholdings, hsession, hlength⟩
  · exact ⟨hholdings ▸ hd.nodup_sessions, hholdings ▸ hlength ▸ hd.session_lt⟩
  · exact hd.drop hholdings hlength
  · exact hd.add hholdings hsession hlength

/-- What a replacement does to the holdings: one of them is gone. -/
private theorem Replace.holdings (hreplace : Replace l l') :
    ∃ old, l.holdings = old ::ₘ l'.holdings ∧ l'.pool = l.pool ∧
      l'.sessions.length = l.sessions.length := by
  obtain ⟨h, old, hpool, hlength, hpending, rest, hdialogs, hdialogs'⟩ := hreplace.moved
  refine ⟨old, ?_, hpool, hlength⟩
  rw [Ledger.holdings, Ledger.holdings, hdialogs, hdialogs', hpending, Multiset.add_cons,
    Multiset.cons_add, Multiset.cons_add, Multiset.cons_swap]

/-- A replacement keeps the sessions distinct. -/
theorem SessionsDistinct.replace (hd : l.SessionsDistinct) (hreplace : Replace l l') :
    l'.SessionsDistinct := by
  obtain ⟨old, hholdings, -, hlength⟩ := hreplace.holdings
  exact hd.drop hholdings hlength

/-- A balanced ledger after one of its holdings is dropped and its port released. -/
private theorem balanced_drop (hb : Balanced initial l) {h : Holding}
    (hholdings : l.holdings = h ::ₘ l'.holdings) (hpool : l'.pool = l.pool.release h.port)
    (hsessions : l'.SessionsDistinct)
    (hrunning : ∀ i, l'.Running i → ∃ g ∈ l'.dialogs, g.session = i) : Balanced initial l' := by
  have hports := hb.nodup_ports
  rw [hholdings, Multiset.map_cons, Multiset.nodup_cons] at hports
  refine ⟨fun p => ?_, hports.2, fun p => ?_, hsessions, hrunning⟩
  · rw [hpool, PortPool.mem_inUse_release, hb.inUse_iff, hholdings, Multiset.map_cons,
      Multiset.mem_cons]
    constructor
    · rintro ⟨hp | hp, hne⟩
      · exact absurd hp hne
      · exact hp
    · intro hp
      exact ⟨Or.inr hp, fun hpp => hports.1 (hpp ▸ hp)⟩
  · rw [hpool, PortPool.has_release, hb.has_iff]

/-- Every move but a replacement keeps the ledger balanced. -/
theorem Balanced.step (hb : Balanced initial l) (hstep : Step l l') : Balanced initial l' := by
  have hsessions := hb.sessions.step hstep
  cases hstep with
  | keep h => exact h ▸ hb
  | bounce port pool hallocate h =>
    subst h
    -- The port that bounces was available, so nobody held it.
    obtain ⟨havailable, hinUse, -⟩ := PortPool.allocate_spec hallocate
    refine ⟨fun p => ?_, hb.nodup_ports, fun p => ?_, hsessions, hb.running_dialog⟩
    · refine Iff.trans ?_ (hb.inUse_iff p)
      rw [PortPool.mem_inUse_release, hinUse]
      constructor
      · rintro ⟨hp | hp, hne⟩
        · exact hp
        · exact absurd hp hne
      · intro hp
        exact ⟨Or.inl hp, fun hpp => l.pool.disjoint port havailable (hpp ▸ hp)⟩
    · rw [PortPool.has_release, PortPool.has_allocate hallocate, hb.has_iff]
  | acquire h hpool hsession hdialogs hpending hlength hrunning =>
    have hholdings : l'.holdings = h ::ₘ l.holdings := by
      rw [holdings, holdings, hdialogs, hpending, Multiset.add_cons]
    obtain ⟨havailable, hinUse, -⟩ := PortPool.allocate_spec hpool
    -- A port that was available is in no holding.
    have hfresh : h.port ∉ l.holdings.map Holding.port := fun hmem =>
      l.pool.disjoint h.port havailable ((hb.inUse_iff _).mpr hmem)
    refine ⟨fun p => ?_, ?_, fun p => ?_, hsessions, fun i hi => ?_⟩
    · rw [hinUse, hb.inUse_iff, hholdings, Multiset.map_cons, Multiset.mem_cons, or_comm]
    · rw [hholdings, Multiset.map_cons]
      exact Multiset.nodup_cons.mpr ⟨hfresh, hb.nodup_ports⟩
    · rw [PortPool.has_allocate hpool, hb.has_iff]
    · obtain ⟨g, hg, hgs⟩ := hb.running_dialog i (hrunning i hi)
      exact ⟨g, hdialogs ▸ hg, hgs⟩
  | refuse h hpool hdialogs hpending hsame =>
    refine balanced_drop hb (h := h) ?_ hpool hsessions fun i hi => ?_
    · rw [holdings, holdings, hdialogs, hpending, Multiset.add_cons]
    · rw [hdialogs]
      exact hb.running_dialog i (by rwa [Running, ← hsame])
  | establish h hpool hdialogs hpending hlength hrunning =>
    -- The holding only moves from the pending ones to the dialogs.
    have hholdings : l'.holdings = l.holdings := by
      rw [holdings, holdings, hdialogs, hpending, Multiset.add_cons, Multiset.cons_add]
    refine ⟨?_, hholdings ▸ hb.nodup_ports, ?_, hsessions, fun i hi => ?_⟩
    · rw [hpool, hholdings]
      exact hb.inUse_iff
    · rw [hpool]
      exact hb.has_iff
    · rw [hdialogs]
      rcases hrunning i hi with hi | rfl
      · obtain ⟨g, hg, hgs⟩ := hb.running_dialog i hi
        exact ⟨g, Multiset.mem_cons_of_mem hg, hgs⟩
      · exact ⟨h, Multiset.mem_cons_self h _, rfl⟩
  | close h hpool hdialogs hpending hlength hrunning =>
    refine balanced_drop hb (h := h) ?_ hpool hsessions fun i hi => ?_
    · rw [holdings, holdings, hdialogs, hpending, Multiset.cons_add]
    · obtain ⟨hrun, hne⟩ := hrunning i hi
      obtain ⟨g, hg, hgs⟩ := hb.running_dialog i hrun
      rw [hdialogs, Multiset.mem_cons] at hg
      rcases hg with rfl | hg
      · exact absurd hgs.symm hne
      · exact ⟨g, hg, hgs⟩

/-- After a replacement some port is in use that nobody holds. -/
theorem Balanced.leak_of_replace (hb : Balanced initial l) (hreplace : Replace l l') :
    ∃ p ∈ l'.pool.inUse, p ∉ l'.holdings.map Holding.port := by
  obtain ⟨old, hholdings, hpool, -⟩ := hreplace.holdings
  have hports := hb.nodup_ports
  rw [hholdings, Multiset.map_cons, Multiset.nodup_cons] at hports
  refine ⟨old.port, ?_, hports.1⟩
  rw [hpool, hb.inUse_iff, hholdings]
  exact Multiset.mem_map_of_mem _ (Multiset.mem_cons_self old _)

end Ledger

end VoiceServer
