import DigRelay.Common.Table
import DigRelay.Wire
import Mathlib.Data.List.Sort

/-!
# The peer registry

The registry maps a peer id to the network it registered on, its public description and two
handles of the connection that registered it: the outbound channel and the liveness stamp.
A handle is the number of the connection; whether its channel is closed and when it was last
active is read through the handle, so both are parameters here.

Only a record whose channel is closed may be replaced. A health sweep also selects records
that have been silent for longer than the deadline.
-/

namespace DigRelay

open Common

/-- Connections are numbered in the order they are accepted. -/
abbrev ConnId := ℕ

/-- The record of a registered peer. -/
structure Peer where
  networkId : String
  info : RelayPeerInfo
  tx : ConnId
  lastActivity : ConnId
  deriving DecidableEq

/-- Registered peers by id. -/
abbrev Registry := Table String Peer

/-- The outcome of a registration attempt. -/
inductive RegisterOutcome
  | registered
  | reconnected
  | occupied
  deriving DecidableEq

namespace Registry

/-- Insert the record unless an open channel already holds the id. -/
def register (closed : ConnId → Bool) (reg : Registry) (peerId : String) (peer : Peer) :
    RegisterOutcome × Registry :=
  match reg.lookup peerId with
  | some existing =>
    if closed existing.tx = false then (.occupied, reg)
    else (.reconnected, reg.insert peerId peer)
  | none => (.registered, reg.insert peerId peer)

/-- The ids and networks of the records whose channel is closed or which have been silent for
longer than the deadline. -/
def deadOrStale (closed : ConnId → Bool) (activity : ConnId → ℕ) (reg : Registry)
    (nowSecs deadlineSecs : ℕ) : List (String × String) :=
  (reg.toPairs.filter fun entry =>
    closed entry.2.tx || decide (nowSecs - activity entry.2.lastActivity > deadlineSecs)).map
    fun entry => (entry.1, entry.2.networkId)

/-- Remove the record of an id, returning it if there was one. -/
def unregister (reg : Registry) (peerId : String) : Option Peer × Registry :=
  (reg.lookup peerId, reg.erase peerId)

/-- The channel of an id, provided its record is on the network. -/
def senderInNetwork (reg : Registry) (peerId networkId : String) : Option ConnId :=
  ((reg.lookup peerId).filter fun peer => peer.networkId = networkId).map Peer.tx

/-- The public descriptions on one network, or on all of them, sorted by id. -/
def peers (reg : Registry) (networkId : Option String) : List RelayPeerInfo :=
  (((reg.toPairs.map Prod.snd).filter fun peer =>
    networkId.all fun network => peer.networkId = network).map Peer.info).insertionSort
    fun a b => a.peerId ≤ b.peerId

/-- Everyone on the network except the sender and the excluded ids. -/
def broadcastTargets (reg : Registry) (sender networkId : String) (exclude : List String) :
    List (String × ConnId) :=
  (reg.toPairs.filter fun entry =>
    entry.2.networkId = networkId ∧ entry.1 ≠ sender ∧ entry.1 ∉ exclude).map
    fun entry => (entry.1, entry.2.tx)

/-- Every registered channel. -/
def allSenders (reg : Registry) : List (String × ConnId) :=
  reg.toPairs.map fun entry => (entry.1, entry.2.tx)

variable {closed : ConnId → Bool} {activity : ConnId → ℕ} {reg reg' : Registry}
  {peerId networkId : String} {peer : Peer}

/-- What a registration attempt does: it is refused by an open channel, replaces a record whose
channel is closed, or adds a record for an unused id. -/
theorem register_cases {outcome : RegisterOutcome}
    (h : reg.register closed peerId peer = (outcome, reg')) :
    (outcome = .occupied ∧ reg' = reg ∧
        ∃ existing, reg.lookup peerId = some existing ∧ closed existing.tx = false) ∨
      (outcome = .reconnected ∧ reg' = reg.insert peerId peer ∧
        ∃ existing, reg.lookup peerId = some existing ∧ closed existing.tx = true) ∨
      (outcome = .registered ∧ reg' = reg.insert peerId peer ∧ reg.lookup peerId = none) := by
  unfold register at h
  split at h
  · rename_i existing hfound
    split at h
    · rename_i hopen
      obtain ⟨rfl, rfl⟩ := Prod.mk.injEq _ _ _ _ ▸ h
      exact .inl ⟨rfl, rfl, existing, hfound, hopen⟩
    · rename_i hopen
      obtain ⟨rfl, rfl⟩ := Prod.mk.injEq _ _ _ _ ▸ h
      exact .inr (.inl ⟨rfl, rfl, existing, hfound, by simpa using hopen⟩)
  · rename_i hfound
    obtain ⟨rfl, rfl⟩ := Prod.mk.injEq _ _ _ _ ▸ h
    exact .inr (.inr ⟨rfl, rfl, hfound⟩)

/-- A lookup scoped to a network finds the record's channel exactly when the record is on it. -/
theorem senderInNetwork_eq_some_iff {tx : ConnId} :
    reg.senderInNetwork peerId networkId = some tx ↔
      ∃ peer, reg.lookup peerId = some peer ∧ peer.networkId = networkId ∧ peer.tx = tx := by
  simp only [senderInNetwork, Option.map_eq_some_iff, Option.filter_eq_some_iff, decide_eq_true_eq,
    and_assoc]

/-- The targets of a broadcast are the records on the network that are neither the sender's nor
excluded. -/
theorem mem_broadcastTargets_iff {sender id : String} {exclude : List String} {tx : ConnId} :
    (id, tx) ∈ reg.broadcastTargets sender networkId exclude ↔
      ∃ peer, reg.lookup id = some peer ∧ peer.networkId = networkId ∧ id ≠ sender ∧
        id ∉ exclude ∧ peer.tx = tx := by
  simp only [broadcastTargets, List.mem_map, List.mem_filter, Prod.exists, decide_eq_true_eq,
    Prod.mk.injEq]
  constructor
  · rintro ⟨key, peer, ⟨hmem, hnet, hsender, hexclude⟩, rfl, rfl⟩
    exact ⟨peer, (reg.mem_toPairs_iff key peer).mp hmem, hnet, hsender, hexclude, rfl⟩
  · rintro ⟨peer, hlookup, hnet, hsender, hexclude, rfl⟩
    exact ⟨id, peer, ⟨(reg.mem_toPairs_iff id peer).mpr hlookup, hnet, hsender, hexclude⟩, rfl, rfl⟩

/-- A broadcast names each target once. -/
theorem broadcastTargets_nodup (sender networkId : String) (exclude : List String) :
    ((reg.broadcastTargets sender networkId exclude).map Prod.fst).Nodup := by
  simp only [broadcastTargets, List.map_map, Function.comp_def]
  exact (reg.toPairs_keys_nodup.sublist (List.filter_sublist.map Prod.fst))

/-- A sweep selects exactly the records that are closed or silent past the deadline. -/
theorem mem_deadOrStale_iff {nowSecs deadlineSecs : ℕ} :
    (peerId, networkId) ∈ reg.deadOrStale closed activity nowSecs deadlineSecs ↔
      ∃ peer, reg.lookup peerId = some peer ∧ peer.networkId = networkId ∧
        (closed peer.tx = true ∨ nowSecs - activity peer.lastActivity > deadlineSecs) := by
  simp only [deadOrStale, List.mem_map, List.mem_filter, Prod.exists, Bool.or_eq_true,
    decide_eq_true_eq, Prod.mk.injEq]
  constructor
  · rintro ⟨key, peer, ⟨hmem, hdead⟩, rfl, rfl⟩
    exact ⟨peer, (reg.mem_toPairs_iff key peer).mp hmem, rfl, hdead⟩
  · rintro ⟨peer, hlookup, rfl, hdead⟩
    exact ⟨peerId, peer, ⟨(reg.mem_toPairs_iff peerId peer).mpr hlookup, hdead⟩, rfl, rfl⟩

end Registry

end DigRelay
