import DigRelay.Server.State

/-!
# Registration under the registry lock

The critical section of a registration: the claimed id is compared with the verified identity
if there is one, the capacity is checked, and the registry decides whether the id is free. A
refusal names its reason twice, in the failing acknowledgement and in the error after it.
-/

namespace DigRelay

open Common

variable {crates : Crates}

/-- The answer to a refused registration. -/
def refusal (code : UInt32) (message : String) (connectedPeers : ℕ) : List RelayMessage :=
  [.registerAck false message connectedPeers, .error code message]

/-- The refusal of a source that registers too often. -/
def rateRefusal (connectedPeers : ℕ) : List RelayMessage :=
  refusal ErrCode.rateLimited "registration rate limit exceeded for your address" connectedPeers

/-- The refusal of a source that holds too many registrations. -/
def capRefusal (connectedPeers : ℕ) : List RelayMessage :=
  refusal ErrCode.rateLimited "too many concurrent registrations from your address" connectedPeers

/-- The refusal of an id other than the verified one. -/
def identityRefusal (connectedPeers : ℕ) : List RelayMessage :=
  refusal ErrCode.identityMismatch "peer_id does not match the mTLS client certificate presented"
    connectedPeers

/-- The refusal of a full relay. -/
def capacityRefusal (connectedPeers : ℕ) : List RelayMessage :=
  refusal ErrCode.capacity "relay at capacity" connectedPeers

/-- The refusal of an id that an open connection holds. -/
def occupiedRefusal (connectedPeers : ℕ) : List RelayMessage :=
  refusal ErrCode.idInUse "peer_id already registered by a live connection" connectedPeers

/-- The public description of a registrant. -/
def registrantInfo (crates : Crates) (request : RegisterRequest) (addr : SocketAddr) (unix : ℕ) :
    RelayPeerInfo :=
  { RelayPeerInfo.new request.peerId request.networkId request.protocolVersion unix with
    addresses := resolveDialable crates.familyRank request.listenAddrs addr.ip }

/-- The record a connection registers. -/
def registrant (crates : Crates) (request : RegisterRequest) (addr : SocketAddr) (unix : ℕ)
    (c : ConnId) : Peer :=
  { networkId := request.networkId
    info := registrantInfo crates request addr unix
    tx := c
    lastActivity := c }

/-- What the critical section of a registration decides. -/
inductive Verdict (crates : Crates)
  | refused (replies : List RelayMessage)
  | accepted (connectedPeers : ℕ) (targets : List (String × ConnId)) (relay : Relay crates)

/-- The critical section of a registration. -/
def registerVerdict (config : RelayServerConfig) (closed : ConnId → Bool) (relay : Relay crates)
    (request : RegisterRequest) (identity : Option String) (addr : SocketAddr) (unix : ℕ)
    (c : ConnId) : Verdict crates :=
  if identity.any fun verified => verified ≠ request.peerId then
    .refused (identityRefusal relay.registry.size)
  else if relay.registry.size ≥ config.maxConnections.toNat then
    .refused (capacityRefusal relay.registry.size)
  else
    match relay.registry.register closed request.peerId
        (registrant crates request addr unix c) with
    | (.occupied, reg) => .refused (occupiedRefusal reg.size)
    | (.reconnected, reg) =>
      .accepted reg.size (reg.broadcastTargets request.peerId request.networkId [])
        { relay with registry := reg }
    | (.registered, reg) =>
      .accepted reg.size (reg.broadcastTargets request.peerId request.networkId [])
        { relay with registry := reg, connected := relay.connected + 1 }

/-- An accepted registration passed the identity and capacity checks and entered its record,
either for an unused id, counting it, or in place of a record whose channel is closed. -/
theorem registerVerdict_accepted {config : RelayServerConfig} {closed : ConnId → Bool}
    {relay relay' : Relay crates} {request : RegisterRequest} {identity : Option String}
    {addr : SocketAddr} {unix : ℕ} {c : ConnId} {connectedPeers : ℕ}
    {targets : List (String × ConnId)}
    (h : registerVerdict config closed relay request identity addr unix c =
      .accepted connectedPeers targets relay') :
    (∀ verified, identity = some verified → verified = request.peerId) ∧
      relay.registry.size < config.maxConnections.toNat ∧
      relay'.registry =
        relay.registry.insert request.peerId (registrant crates request addr unix c) ∧
      targets = relay'.registry.broadcastTargets request.peerId request.networkId [] ∧
      (relay.registry.lookup request.peerId = none ∧
          relay' = { relay with registry := relay'.registry, connected := relay.connected + 1 } ∨
        (∃ existing, relay.registry.lookup request.peerId = some existing ∧
            closed existing.tx = true) ∧
          relay' = { relay with registry := relay'.registry }) := by
  unfold registerVerdict at h
  split at h
  · cases h
  · rename_i hidentity
    split at h
    · cases h
    · rename_i hsize
      have hverified : ∀ verified, identity = some verified → verified = request.peerId := by
        rintro verified rfl
        simpa using hidentity
      split at h
      · cases h
      · rename_i reg hregister
        obtain ⟨rfl, rfl, rfl⟩ := Verdict.accepted.injEq .. ▸ h
        rcases Registry.register_cases hregister with ⟨hne, -⟩ | ⟨-, hreg, hdead⟩ | ⟨hne, -⟩
        · cases hne
        · exact ⟨hverified, by omega, hreg, rfl, .inr ⟨hdead, rfl⟩⟩
        · cases hne
      · rename_i reg hregister
        obtain ⟨rfl, rfl, rfl⟩ := Verdict.accepted.injEq .. ▸ h
        rcases Registry.register_cases hregister with ⟨hne, -⟩ | ⟨hne, -⟩ | ⟨-, hreg, hfree⟩
        · cases hne
        · cases hne
        · exact ⟨hverified, by omega, hreg, rfl, .inl ⟨hfree, rfl⟩⟩

/-- After an accepted registration its record stands under its id, and every other one as before. -/
theorem lookup_of_registerVerdict {config : RelayServerConfig} {closed : ConnId → Bool}
    {relay relay' : Relay crates} {request : RegisterRequest} {identity : Option String}
    {addr : SocketAddr} {unix : ℕ} {c : ConnId} {connectedPeers : ℕ}
    {targets : List (String × ConnId)}
    (h : registerVerdict config closed relay request identity addr unix c =
      .accepted connectedPeers targets relay') (peerId : String) :
    relay'.registry.lookup peerId =
      if peerId = request.peerId then some (registrant crates request addr unix c)
      else relay.registry.lookup peerId := by
  rw [(registerVerdict_accepted h).2.2.1, Table.lookup_insert_eq]

end DigRelay
