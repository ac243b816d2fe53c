import DigRelay.Common.Channel
import DigRelay.Dial
import DigRelay.DhtView
import DigRelay.Dispatch
import DigRelay.Limits

/-!
# Shared state and connection tasks

The relay is a set of concurrent tasks around one shared state: a task per connection, a
writer per connection, the health sweep, the exchange tick and the DHT sweep. A task is
represented by its local variables and by a phase that names its next access to shared state.
One transition performs one such access, so every interleaving of lock acquisitions, atomic
operations and channel sends is an interleaving of transitions. Sends that a task has
committed to but not yet performed wait in its outbox and are performed in order before the
task goes on.
-/

namespace DigRelay

open Common

/-- The validated configuration and whether the listener terminates TLS itself. -/
structure Setup where
  config : RelayServerConfig
  tls : Bool

/-- The readings a task takes of its clocks: wall-clock milliseconds, monotonic seconds and
unix seconds. -/
structure Clock where
  ms : ℕ
  secs : ℕ
  unix : ℕ
  deriving DecidableEq

/-- The state shared by all tasks. -/
structure Relay (crates : Crates) where
  registry : Registry
  pex : PexRelay crates
  connected : UInt64
  openConnections : UInt64
  stunRequests : UInt64
  holePunchRequests : UInt64
  holePunchSuccesses : UInt64
  holePunchFailures : UInt64
  bytesRelayed : UInt64
  abuse : AbuseState
  dhtView : DhtView
  dhtAnswers : List PeerAnswer

/-- The shared state of a relay that has just started. -/
def Relay.new (crates : Crates) : Relay crates :=
  { registry := ∅
    pex := PexRelay.new crates
    connected := 0
    openConnections := 0
    stunRequests := 0
    holePunchRequests := 0
    holePunchSuccesses := 0
    holePunchFailures := 0
    bytesRelayed := 0
    abuse := AbuseState.default
    dhtView := buildDhtView [] 0
    dhtAnswers := [] }

/-- A pending non-blocking send on a connection's relay or exchange channel. -/
inductive Send (crates : Crates)
  | relay (tx : ConnId) (msg : RelayMessage)
  | pex (tx : ConnId) (msg : crates.Message)

/-- The next shared access of a connection task. The first five phases accept the connection;
from `deregister` on the connection is being torn down. -/
inductive Phase (crates : Crates)
  | checkBan
  | checkOpen
  | acquireOpen
  | acquireConn
  | refuseConn
  | readHead
  | idle
  | strike (replies : List RelayMessage)
  | record (msg : RelayMessage)
  | intercept (msg : RelayMessage)
  | getPeers (networkId : Option String)
  | forwardTo (target : String) (msg : RelayMessage)
  | broadcast (sender : String) (exclude : List String) (msg : RelayMessage)
  | registerLoad (request : RegisterRequest)
  | registerRate (request : RegisterRequest) (connectedNow : ℕ)
  | registerCap (request : RegisterRequest) (connectedNow : ℕ)
  | registerLocked (request : RegisterRequest) (slot : Slot)
  | registerPex (request : RegisterRequest) (slot : Slot)
  | registerCommit (request : RegisterRequest) (slot : Slot)
  | refuse (slot : Slot)
  | pexHandshake (msg : crates.Message)
  | pexData (msg : crates.Message)
  | pexBadFrame
  | deregister
  | deregisterPex (peerId networkId : String)
  | awaitWriter
  | dropReg
  | dropConn
  | dropOpen
  | ended

/-- A connection task: its local variables, its two outbound channels, its outbox and its
phase. -/
structure Conn (crates : Crates) where
  addr : SocketAddr
  identity : Option String
  connSlot : Option Slot
  regSlot : Option Slot
  session : Session
  limiter : PerConnLimiter
  lastActivity : ℕ
  out : Channel RelayMessage
  pexOut : Channel crates.Message
  outbox : List (Send crates)
  phase : Phase crates

/-- A connection that has just been accepted. Its budgets and activity are set once the
connection turns out to speak the relay wire. -/
def Conn.accepted {crates : Crates} (config : RelayServerConfig) (addr : SocketAddr)
    (identity : Option String) : Conn crates :=
  { addr
    identity
    connSlot := none
    regSlot := none
    session := {}
    limiter := PerConnLimiter.new config 0
    lastActivity := 0
    out := Channel.empty config.outboundQueueCapacity
    pexOut := Channel.empty config.outboundQueueCapacity
    outbox := []
    phase := .checkBan }

/-- A record removed by the sweep: its id, its network and the channels to be told. -/
abbrev PrunedPeer := String × String × List (String × ConnId)

/-- The relay with all its tasks. The two background sweeps keep what they still have to do. -/
structure System (crates : Crates) where
  relay : Relay crates
  conns : List (Conn crates)
  pruned : List PrunedPeer
  asked : List ConnId

/-- A relay that has just started listening. -/
def System.new (crates : Crates) : System crates :=
  { relay := Relay.new crates, conns := [], pruned := [], asked := [] }

variable {crates : Crates}

/-- Whether the receiver of a connection's relay channel is gone. -/
def isClosed (conns : List (Conn crates)) (tx : ConnId) : Bool :=
  (conns[tx]?.map fun conn => conn.out.closed).getD true

/-- The last inbound activity stamped by a connection. -/
def activity (conns : List (Conn crates)) (tx : ConnId) : ℕ :=
  (conns[tx]?.map Conn.lastActivity).getD 0

/-- Perform a non-blocking send. -/
def deliver (send : Send crates) (conns : List (Conn crates)) : List (Conn crates) :=
  match send with
  | .relay tx msg => conns.modify tx fun conn => { conn with out := conn.out.trySend msg }
  | .pex tx msg => conns.modify tx fun conn => { conn with pexOut := conn.pexOut.trySend msg }

/-- Drop both receivers of a connection. -/
def Conn.closeChannels (conn : Conn crates) : Conn crates :=
  { conn with out := conn.out.close, pexOut := conn.pexOut.close }

/-- Fold one inbound message into the traffic counters. -/
def Relay.recordRelayed (relay : Relay crates) : RelayMessage → Relay crates
  | .relayGossipMessage _ _ payload _ | .broadcast _ payload _ =>
    { relay with bytesRelayed := relay.bytesRelayed + UInt64.ofNat payload.length }
  | .holePunchRequest _ _ _ => { relay with holePunchRequests := relay.holePunchRequests + 1 }
  | .holePunchResult _ success =>
    if success then { relay with holePunchSuccesses := relay.holePunchSuccesses + 1 }
    else { relay with holePunchFailures := relay.holePunchFailures + 1 }
  | _ => relay

/-- Remove a record and count it out, returning who is to be told. -/
def removeLocked (relay : Relay crates) (peerId networkId : String) :
    Option (List (String × ConnId) × Relay crates) :=
  match relay.registry.unregister peerId with
  | (some _, reg) =>
    some (reg.broadcastTargets peerId networkId [],
      { relay with registry := reg, connected := relay.connected - 1 })
  | (none, _) => none

/-- Remove every victim of a sweep, in one critical section. -/
def pruneLocked : List (String × String) → Relay crates → List PrunedPeer × Relay crates
  | [], relay => ([], relay)
  | (peerId, networkId) :: rest, relay =>
    match removeLocked relay peerId networkId with
    | some (targets, relay) =>
      let later := pruneLocked rest relay
      ((peerId, networkId, targets) :: later.1, later.2)
    | none => pruneLocked rest relay

/-- A removal finds a record, erases it, counts it out and names everyone else on the network. -/
theorem removeLocked_some {relay relay' : Relay crates} {peerId networkId : String}
    {targets : List (String × ConnId)}
    (h : removeLocked relay peerId networkId = some (targets, relay')) :
    (∃ peer, relay.registry.lookup peerId = some peer) ∧
      relay' = { relay with
        registry := relay.registry.erase peerId
        connected := relay.connected - 1 } ∧
      targets = relay'.registry.broadcastTargets peerId networkId [] := by
  unfold removeLocked Registry.unregister at h
  split at h
  · rename_i peer reg hfound
    obtain ⟨hlookup, rfl⟩ := Prod.mk.injEq _ _ _ _ ▸ hfound
    obtain ⟨rfl, rfl⟩ := Prod.mk.injEq _ _ _ _ ▸ Option.some.inj h
    exact ⟨⟨peer, hlookup⟩, rfl, rfl⟩
  · cases h

/-- Nothing is removed exactly when there is no record. -/
theorem removeLocked_eq_none_iff {relay : Relay crates} {peerId networkId : String} :
    removeLocked relay peerId networkId = none ↔ relay.registry.lookup peerId = none := by
  unfold removeLocked Registry.unregister
  cases relay.registry.lookup peerId <;> simp

/-- A sweep changes the registry and its counter and nothing else that is shared. -/
theorem pruneLocked_frame (victims : List (String × String)) (relay : Relay crates) :
    (pruneLocked victims relay).2 =
      { relay with
        registry := (pruneLocked victims relay).2.registry
        connected := (pruneLocked victims relay).2.connected } := by
  induction victims generalizing relay with
  | nil => rfl
  | cons victim rest ih =>
    obtain ⟨peerId, networkId⟩ := victim
    cases hremove : removeLocked relay peerId networkId with
    | none =>
      simp only [pruneLocked, hremove]
      exact ih relay
    | some removed =>
      obtain ⟨targets, relay'⟩ := removed
      obtain ⟨-, hrelay', -⟩ := removeLocked_some hremove
      simp only [pruneLocked, hremove]
      rw [ih relay', hrelay']

/-- After a sweep exactly the victims are gone from the registry. -/
theorem pruneLocked_lookup (victims : List (String × String)) (relay : Relay crates)
    (key : String) :
    (pruneLocked victims relay).2.registry.lookup key =
      if key ∈ victims.map Prod.fst then none else relay.registry.lookup key := by
  induction victims generalizing relay with
  | nil => simp [pruneLocked]
  | cons victim rest ih =>
    obtain ⟨peerId, networkId⟩ := victim
    have hcons : key ∈ ((peerId, networkId) :: rest).map Prod.fst ↔
        key = peerId ∨ key ∈ rest.map Prod.fst := by simp
    have hlater : ∀ relay' : Relay crates,
        relay'.registry.lookup key = (if key = peerId then none else relay.registry.lookup key) →
        (pruneLocked rest relay').2.registry.lookup key =
          if key ∈ ((peerId, networkId) :: rest).map Prod.fst then none
          else relay.registry.lookup key := by
      intro relay' hrelay'
      rw [ih relay', hrelay']
      by_cases hmem : key ∈ rest.map Prod.fst
      · rw [if_pos hmem, if_pos (hcons.mpr (.inr hmem))]
      · by_cases hkey : key = peerId
        · rw [if_neg hmem, if_pos hkey, if_pos (hcons.mpr (.inl hkey))]
        · rw [if_neg hmem, if_neg hkey, if_neg (hcons.not.mpr (not_or.mpr ⟨hkey, hmem⟩))]
    cases hremove : removeLocked relay peerId networkId with
    | none =>
      have hnone := removeLocked_eq_none_iff.mp hremove
      simp only [pruneLocked, hremove]
      refine hlater relay ?_
      by_cases hkey : key = peerId
      · rw [if_pos hkey, hkey, hnone]
      · rw [if_neg hkey]
    | some removed =>
      obtain ⟨targets, relay'⟩ := removed
      obtain ⟨-, rfl, -⟩ := removeLocked_some hremove
      simp only [pruneLocked, hremove]
      exact hlater _ (Table.lookup_erase_eq _ _ _)

end DigRelay
