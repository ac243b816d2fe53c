import DigRelay.Server.Change
import DigRelay.Server.Script

/-!
# The connected counter and the capacity

The counter is moved by the two critical sections that add and remove records, and by nothing
else. It therefore equals the number of records whenever the registry lock is free, the
capacity check bounds both, and a removal never takes the counter below zero.
-/

namespace DigRelay

open Common

variable {crates : Crates} {setup : Setup} {sys sys' : System crates} {label : Label crates}

/-- The counter values on which a sweep's removals decrement, in order. -/
def pruneDecrements : List (String × String) → Relay crates → List UInt64
  | [], _ => []
  | (peerId, networkId) :: rest, relay =>
    match removeLocked relay peerId networkId with
    | some (_, relay') => relay.connected :: pruneDecrements rest relay'
    | none => pruneDecrements rest relay

/-- The counter values on which a teardown's removal decrements. -/
def deregisterDecrements (relay : Relay crates) (session : Session) : List UInt64 :=
  match session.peerId, session.networkId with
  | some peerId, some networkId => pruneDecrements [(peerId, networkId)] relay
  | _, _ => []

/-- The counter values on which a transition decrements the connected counter, in order. -/
def decrements (setup : Setup) (sys : System crates) : Label crates → List UInt64
  | .exec c _ =>
    match sys.conns[c]? with
    | some conn =>
      match conn.outbox, conn.phase with
      | [], .deregister => deregisterDecrements sys.relay conn.session
      | _, _ => []
    | none => []
  | .sweep now =>
    pruneDecrements
      (sys.relay.registry.deadOrStale (isClosed sys.conns) (activity sys.conns) now
        setup.config.livenessDeadline.asSecs)
      sys.relay
  | _ => []

/-- The counter equals the number of records, which is at most the bound. -/
def Counted (bound : ℕ) (registry : Registry) (connected : UInt64) : Prop :=
  connected.toNat = registry.size ∧ registry.size ≤ bound

/-- The connected counter of a system is exact and within the configured capacity. -/
def System.Counted (setup : Setup) (sys : System crates) : Prop :=
  DigRelay.Counted setup.config.maxConnections.toNat sys.relay.registry sys.relay.connected

/-- Erasing a counted record finds a positive counter and stays counted. -/
theorem Counted.erase {bound : ℕ} {registry : Registry} {connected : UInt64} {peerId : String}
    {peer : Peer} (h : Counted bound registry connected)
    (hpeer : registry.lookup peerId = some peer) :
    connected ≠ 0 ∧ Counted bound (registry.erase peerId) (connected - 1) := by
  have hsize := Table.size_erase_of_some hpeer
  obtain ⟨hconnected, hbound⟩ := h
  have hpositive : connected ≠ 0 := by
    rintro rfl
    simp only [UInt64.toNat_zero] at hconnected
    omega
  have hone : 1 ≤ connected := by
    rw [UInt64.le_iff_toNat_le, UInt64.toNat_one]
    omega
  refine ⟨hpositive, ?_, by omega⟩
  rw [UInt64.toNat_sub_of_le _ _ hone, UInt64.toNat_one]
  omega

/-- A counted sweep decrements only positive counters and stays counted. -/
theorem pruneLocked_counted {bound : ℕ} (victims : List (String × String)) {relay : Relay crates}
    (hcounted : Counted bound relay.registry relay.connected) :
    (∀ value ∈ pruneDecrements victims relay, value ≠ 0) ∧
      Counted bound (pruneLocked victims relay).2.registry
        (pruneLocked victims relay).2.connected := by
  induction victims generalizing relay with
  | nil => exact ⟨by simp [pruneDecrements], hcounted⟩
  | cons victim rest ih =>
    obtain ⟨peerId, networkId⟩ := victim
    cases hremove : removeLocked relay peerId networkId with
    | none =>
      simp only [pruneDecrements, pruneLocked, hremove]
      exact ih hcounted
    | some removed =>
      obtain ⟨targets, relay'⟩ := removed
      obtain ⟨⟨peer, hpeer⟩, hrelay', -⟩ := removeLocked_some hremove
      obtain ⟨hpositive, herased⟩ := hcounted.erase hpeer
      have hcounted' : Counted bound relay'.registry relay'.connected := by
        rw [hrelay']
        exact herased
      obtain ⟨hrest, hfinal⟩ := ih hcounted'
      simp only [pruneDecrements, pruneLocked, hremove, List.forall_mem_cons]
      exact ⟨⟨hpositive, hrest⟩, hfinal⟩

/-- An accepted registration below the bound stays counted. -/
theorem registerVerdict_counted {config : RelayServerConfig} {closed : ConnId → Bool}
    {relay relay' : Relay crates} {request : RegisterRequest} {identity : Option String}
    {addr : SocketAddr} {unix : ℕ} {c : ConnId} {connectedPeers : ℕ}
    {targets : List (String × ConnId)}
    (hcounted : Counted config.maxConnections.toNat relay.registry relay.connected)
    (h : registerVerdict config closed relay request identity addr unix c =
      .accepted connectedPeers targets relay') :
    Counted config.maxConnections.toNat relay'.registry relay'.connected := by
  obtain ⟨-, hroom, hregistry, -, hrelay⟩ := registerVerdict_accepted h
  obtain ⟨hconnected, hbound⟩ := hcounted
  have hmax : config.maxConnections.toNat < 2 ^ 64 := config.maxConnections.toNat_lt
  rcases hrelay with ⟨hfree, hrelay⟩ | ⟨⟨existing, hexisting, -⟩, hrelay⟩
  · have hsize : relay'.registry.size = relay.registry.size + 1 := by
      rw [hregistry]
      exact Table.size_insert_of_none hfree
    rw [hrelay]
    simp only [Counted, UInt64.toNat_add, UInt64.toNat_one]
    omega
  · have hsize : relay'.registry.size = relay.registry.size := by
      rw [hregistry]
      exact Table.size_insert_of_some hexisting
    rw [hrelay]
    simp only [Counted]
    omega

/-- Every change of the ledger keeps the counter exact and within the capacity. -/
theorem change_counted {ledger : Ledger} (hcounted : sys.Counted setup)
    (h : Change setup sys label ledger) :
    Counted setup.config.maxConnections.toNat ledger.registry ledger.connected := by
  cases h with
  | entered hconn houtbox hphase hverdict => exact registerVerdict_counted hcounted hverdict
  | removed hconn houtbox hphase hseat hpeer => exact (hcounted.erase hpeer).2
  | swept now => exact (pruneLocked_counted _ hcounted).2
  | rehashed hrehash => exact ⟨hcounted.1.trans hrehash.size_eq, hrehash.size_eq ▸ hcounted.2⟩
  | _ => exact hcounted

/-- In every reachable state the counter is exact and within the capacity. -/
theorem counted_of_reachable (h : IsReachable setup sys) : sys.Counted setup :=
  h.invariant (·.Counted setup) ⟨rfl, Nat.zero_le _⟩ fun _ _ _ hreach hcounted hnext =>
    change_counted hcounted (next_change (wellFormed_of_reachable hreach) hnext)

/-- In a counted state no decrement of a transition underflows. -/
theorem decrements_ne_zero (hcounted : sys.Counted setup) :
    ∀ value ∈ decrements setup sys label, value ≠ 0 := by
  unfold decrements
  split
  · split
    · split
      · unfold deregisterDecrements
        split
        · exact (pruneLocked_counted _ hcounted).1
        · simp
      · simp
    · simp
  · exact (pruneLocked_counted _ hcounted).1
  · simp

/-- In every run, whenever the registry lock is free the connected counter equals the number of
records and both are within the capacity, and no decrement of the counter underflows. -/
theorem connected_eq_size_le_capacity
    {trace : List (System crates × Label crates × System crates)} (hrun : Run setup trace sys) :
    sys.relay.connected.toNat = sys.relay.registry.size ∧
      sys.relay.registry.size ≤ setup.config.maxConnections.toNat ∧
      ∀ t ∈ trace, ∀ value ∈ decrements setup t.1 t.2.1, value ≠ 0 := by
  obtain ⟨hconnected, hbound⟩ := counted_of_reachable ⟨trace, hrun⟩
  refine ⟨hconnected, hbound, fun t ht => ?_⟩
  exact decrements_ne_zero (counted_of_reachable (hrun.mem_trace ht).1)

/-- After a registration and a sweep that prunes it, the counter is back at zero. -/
theorem connected_eq_size_after_prune :
    ∃ trace sys, @Run silentCrates standardSetup trace sys ∧
      (∃ t ∈ trace, decrements standardSetup t.1 t.2.1 = [1]) ∧
      sys.relay.connected.toNat = sys.relay.registry.size ∧
      sys.relay.registry.size ≤ standardSetup.config.maxConnections.toNat ∧
      ∀ t ∈ trace, ∀ value ∈ decrements standardSetup t.1 t.2.1, value ≠ 0 := by
  obtain ⟨trace, sys, sys', hrun, hdecrement⟩ := @exists_run_step silentCrates
    standardSetup (Script.connect 0 0 ++ Script.register 0 "p" "net" 0 0) (.sweep 91)
    (fun sys _ => decrements standardSetup sys (.sweep 91) = [1]) (by decide)
  refine ⟨_, sys', hrun, ⟨_, List.mem_append_right _ (List.mem_singleton_self _), ?_⟩,
    connected_eq_size_le_capacity hrun⟩
  simpa using hdecrement

end DigRelay
