import VoiceAgentPlatform.Lib.Ordered

/-!
# RTP port pool

The pool of `port-pool.ts`: the ports of a range, handed out in insertion order and taken back at
the end of the queue. A port is never available and in use at once, which the structure carries
as a field.
-/

namespace VoiceServer

/-- The ports that can be handed out and the ports handed out. -/
structure PortPool where
  available : OrderedSet ℕ
  inUse : OrderedSet ℕ
  disjoint : ∀ p ∈ available, p ∉ inUse

namespace PortPool

/-- Every second port from `basePort` on, below `basePort + count`. -/
def evenPorts (basePort count : ℕ) : OrderedSet ℕ where
  toList := (List.range ((count + 1) / 2)).map fun i => basePort + 2 * i
  nodup := List.nodup_range.map fun i j (h : basePort + 2 * i = basePort + 2 * j) => by omega

/-- `new PortPool(basePort, count)`. -/
def new (basePort count : ℕ) : PortPool where
  available := evenPorts basePort count
  inUse := ∅
  disjoint _ _ := OrderedSet.notMem_empty _

/-- Hand out the oldest available port, `none` when the pool is exhausted. -/
def allocate (pool : PortPool) : Option (ℕ × PortPool) :=
  match pool.available.first with
  | none => none
  | some port =>
    some (port,
      { available := pool.available.delete port
        inUse := pool.inUse.add port
        disjoint := by
          intro p hp
          obtain ⟨hav, hne⟩ := OrderedSet.mem_delete.mp hp
          simpa [hne] using pool.disjoint p hav })

/-- Take a port back; a port that is not in use is ignored. -/
def release (pool : PortPool) (port : ℕ) : PortPool :=
  if port ∈ pool.inUse then
    { available := pool.available.add port
      inUse := pool.inUse.delete port
      disjoint := by
        intro p hp hin
        obtain ⟨huse, hne⟩ := OrderedSet.mem_delete.mp hin
        exact (OrderedSet.mem_add.mp hp).elim (fun hav => pool.disjoint p hav huse) hne }
  else pool

/-- The port belongs to the pool, handed out or not. -/
def Has (pool : PortPool) (port : ℕ) : Prop := port ∈ pool.available ∨ port ∈ pool.inUse

/-- The port handed out was available, and it is the only one that changes sides. -/
theorem allocate_spec {pool pool' : PortPool} {port : ℕ} (h : pool.allocate = some (port, pool')) :
    port ∈ pool.available ∧ (∀ p, p ∈ pool'.inUse ↔ p ∈ pool.inUse ∨ p = port) ∧
      (∀ p, p ∈ pool'.available ↔ p ∈ pool.available ∧ p ≠ port) := by
  unfold allocate at h
  split at h
  · cases h
  · rename_i q hfirst
    obtain ⟨rfl, rfl⟩ := Prod.mk.inj (Option.some.inj h)
    exact ⟨OrderedSet.mem_of_first hfirst, fun p => OrderedSet.mem_add,
      fun p => OrderedSet.mem_delete⟩

/-- Allocation keeps the ports of the pool. -/
theorem has_allocate {pool pool' : PortPool} {port : ℕ} (h : pool.allocate = some (port, pool'))
    (p : ℕ) : pool'.Has p ↔ pool.Has p := by
  obtain ⟨hport, huse, hav⟩ := allocate_spec h
  rw [Has, Has, huse, hav]
  by_cases hp : p = port
  · simp [hp, hport]
  · simp [hp]

theorem mem_inUse_release {pool : PortPool} {port p : ℕ} :
    p ∈ (pool.release port).inUse ↔ p ∈ pool.inUse ∧ p ≠ port := by
  unfold release
  split_ifs with h
  · exact OrderedSet.mem_delete
  · exact ⟨fun hp => ⟨hp, fun hpp => h (hpp ▸ hp)⟩, And.left⟩

/-- Releasing keeps the ports of the pool. -/
theorem has_release {pool : PortPool} {port p : ℕ} : (pool.release port).Has p ↔ pool.Has p := by
  unfold release Has
  split_ifs with h
  · rw [OrderedSet.mem_add, OrderedSet.mem_delete]
    by_cases hp : p = port
    · simp [hp, h]
    · simp [hp]
  · rfl

end PortPool

end VoiceServer
