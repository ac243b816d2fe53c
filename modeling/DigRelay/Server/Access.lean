import DigRelay.Server.Run

/-!
# What a shared access does

A connection task makes one shared access per move, named by its phase. Every access is listed
with the condition it is made under, the shared state it leaves and the task's state after it.
-/

namespace DigRelay

open Common

variable {crates : Crates}

/-- The shared accesses, by the phase that names them. -/
inductive Access (setup : Setup) (clock : Clock) (closed : ConnId → Bool) (c : ConnId)
    (relay : Relay crates) (conn : Conn crates) : Phase crates → Relay crates → Conn crates → Prop
  | banned (hbanned : (relay.abuse.isBanned setup.config conn.addr.ip clock.ms).1 = true) :
      Access setup clock closed c relay conn .checkBan
        { relay with abuse := (relay.abuse.isBanned setup.config conn.addr.ip clock.ms).2 }
        { conn with phase := .ended }
  | notBanned (hbanned : (relay.abuse.isBanned setup.config conn.addr.ip clock.ms).1 = false) :
      Access setup clock closed c relay conn .checkBan
        { relay with abuse := (relay.abuse.isBanned setup.config conn.addr.ip clock.ms).2 }
        { conn with phase := .checkOpen }
  | full (hfull : relay.openConnections.toNat ≥ setup.config.maxConnections.toNat) :
      Access setup clock closed c relay conn .checkOpen relay { conn with phase := .ended }
  | notFull (hroom : relay.openConnections.toNat < setup.config.maxConnections.toNat) :
      Access setup clock closed c relay conn .checkOpen relay { conn with phase := .acquireOpen }
  | opened :
      Access setup clock closed c relay conn .acquireOpen
        { relay with openConnections := relay.openConnections + 1 }
        { conn with phase := .acquireConn }
  | acquired {slot : Slot} {abuse : AbuseState}
      (hslot : relay.abuse.tryAcquireConn setup.config conn.addr.ip = some (slot, abuse)) :
      Access setup clock closed c relay conn .acquireConn { relay with abuse }
        { conn with connSlot := some slot, phase := .readHead }
  | notAcquired (hslot : relay.abuse.tryAcquireConn setup.config conn.addr.ip = none) :
      Access setup clock closed c relay conn .acquireConn relay { conn with phase := .refuseConn }
  | refusedConn :
      Access setup clock closed c relay conn .refuseConn
        { relay with abuse := relay.abuse.recordStrike setup.config conn.addr.ip clock.ms }
        { conn with phase := .dropOpen }
  | struck {replies : List RelayMessage} :
      Access setup clock closed c relay conn (.strike replies)
        { relay with abuse := relay.abuse.recordStrike setup.config conn.addr.ip clock.ms }
        { conn with outbox := toSelf c replies, phase := .deregister }
  | recorded {msg : RelayMessage} :
      Access setup clock closed c relay conn (.record msg) (relay.recordRelayed msg)
        { conn with phase := .intercept msg }
  | intercepted {msg : RelayMessage} :
      Access setup clock closed c relay conn (.intercept msg)
        (relay.recordDhtAnswer conn.session msg) (conn.intercept c msg)
  | listed {networkId : Option String} :
      Access setup clock closed c relay conn (.getPeers networkId) relay
        { conn with outbox := toSelf c [.peers (relay.registry.peers networkId)], phase := .idle }
  | forwarded {target networkId : String} {msg : RelayMessage} {tx : ConnId}
      (hnetworkId : conn.session.networkId = some networkId)
      (hsender : relay.registry.senderInNetwork target networkId = some tx) :
      Access setup clock closed c relay conn (.forwardTo target msg) relay
        { conn with outbox := [.relay tx msg], phase := .idle }
  | notFound {target networkId : String} {msg : RelayMessage}
      (hnetworkId : conn.session.networkId = some networkId)
      (hsender : relay.registry.senderInNetwork target networkId = none) :
      Access setup clock closed c relay conn (.forwardTo target msg) relay
        { conn with
          outbox := toSelf c
            [.error ErrCode.peerNotFound ("peer " ++ target ++ " not connected to this relay")]
          phase := .idle }
  | notForwarded {target : String} {msg : RelayMessage}
      (hnetworkId : conn.session.networkId = none) :
      Access setup clock closed c relay conn (.forwardTo target msg) relay { conn with phase := .idle }
  | broadcast {sender networkId : String} {exclude : List String} {msg : RelayMessage}
      (hnetworkId : conn.session.networkId = some networkId) :
      Access setup clock closed c relay conn (.broadcast sender exclude msg) relay
        { conn with
          outbox := toTargets (relay.registry.broadcastTargets sender networkId exclude) msg
          phase := .idle }
  | notBroadcast {sender : String} {exclude : List String} {msg : RelayMessage}
      (hnetworkId : conn.session.networkId = none) :
      Access setup clock closed c relay conn (.broadcast sender exclude msg) relay
        { conn with phase := .idle }
  | loaded {request : RegisterRequest} :
      Access setup clock closed c relay conn (.registerLoad request) relay
        { conn with phase := .registerRate request relay.connected.toNat }
  | allowed {request : RegisterRequest} {connectedNow : ℕ}
      (hallowed : (relay.abuse.allowRegistration setup.config conn.addr.ip clock.ms).1 = true) :
      Access setup clock closed c relay conn (.registerRate request connectedNow)
        { relay with abuse := (relay.abuse.allowRegistration setup.config conn.addr.ip clock.ms).2 }
        { conn with phase := .registerCap request connectedNow }
  | notAllowed {request : RegisterRequest} {connectedNow : ℕ}
      (hallowed : (relay.abuse.allowRegistration setup.config conn.addr.ip clock.ms).1 = false) :
      Access setup clock closed c relay conn (.registerRate request connectedNow)
        { relay with abuse := (relay.abuse.allowRegistration setup.config conn.addr.ip clock.ms).2 }
        { conn with phase := .strike (rateRefusal connectedNow) }
  | reserved {request : RegisterRequest} {connectedNow : ℕ} {slot : Slot} {abuse : AbuseState}
      (hslot : relay.abuse.tryAcquireRegistration setup.config conn.addr.ip = some (slot, abuse)) :
      Access setup clock closed c relay conn (.registerCap request connectedNow) { relay with abuse }
        { conn with phase := .registerLocked request slot }
  | notReserved {request : RegisterRequest} {connectedNow : ℕ}
      (hslot : relay.abuse.tryAcquireRegistration setup.config conn.addr.ip = none) :
      Access setup clock closed c relay conn (.registerCap request connectedNow) relay
        { conn with phase := .strike (capRefusal connectedNow) }
  | entered {request : RegisterRequest} {slot : Slot} {connectedPeers : ℕ}
      {targets : List (String × ConnId)} {relay' : Relay crates}
      (hverdict : registerVerdict setup.config closed relay request conn.identity conn.addr
        clock.unix c = .accepted connectedPeers targets relay') :
      Access setup clock closed c relay conn (.registerLocked request slot) relay'
        { conn with
          outbox := .relay c (.registerAck true "registered" connectedPeers) ::
            toTargets targets (.peerConnected (registrantInfo crates request conn.addr clock.unix))
          phase := .registerPex request slot }
  | notEntered {request : RegisterRequest} {slot : Slot} {replies : List RelayMessage}
      (hverdict : registerVerdict setup.config closed relay request conn.identity conn.addr
        clock.unix c = .refused replies) :
      Access setup clock closed c relay conn (.registerLocked request slot) relay
        { conn with outbox := toSelf c replies, phase := .refuse slot }
  | mirrored {request : RegisterRequest} {slot : Slot} :
      Access setup clock closed c relay conn (.registerPex request slot)
        { relay with
          pex := relay.pex.onRegister request.peerId request.networkId conn.addr c clock.ms }
        { conn with phase := .registerCommit request slot }
  | committed {request : RegisterRequest} {slot : Slot} :
      Access setup clock closed c relay conn (.registerCommit request slot)
        (commitAccess relay conn request slot).1 (commitAccess relay conn request slot).2
  | refused {slot : Slot} :
      Access setup clock closed c relay conn (.refuse slot)
        { relay with abuse := relay.abuse.dropReg slot } { conn with phase := .deregister }
  | handshook {msg : crates.Message} :
      Access setup clock closed c relay conn (.pexHandshake msg)
        (handshakeAccess clock.ms c relay conn msg).1 (handshakeAccess clock.ms c relay conn msg).2
  | data {msg : crates.Message} :
      Access setup clock closed c relay conn (.pexData msg)
        { relay with
          pex := (relay.pex.onNodeMessage (conn.session.peerId.getD "")
            (conn.session.networkId.getD "") msg clock.ms).2 }
        { conn with
          outbox := toSelfPex c (relay.pex.onNodeMessage (conn.session.peerId.getD "")
            (conn.session.networkId.getD "") msg clock.ms).1
          phase := .idle }
  | badFrame :
      Access setup clock closed c relay conn .pexBadFrame
        { relay with
          pex := (relay.pex.onNodeBadFrame (conn.session.peerId.getD "")
            (conn.session.networkId.getD "") clock.ms).2 }
        { conn with
          outbox := toSelfPex c (relay.pex.onNodeBadFrame (conn.session.peerId.getD "")
            (conn.session.networkId.getD "") clock.ms).1
          phase := .idle }
  | removed {peerId networkId : String} {targets : List (String × ConnId)} {relay' : Relay crates}
      (hpeerId : conn.session.peerId = some peerId)
      (hnetworkId : conn.session.networkId = some networkId)
      (hremove : removeLocked relay peerId networkId = some (targets, relay')) :
      Access setup clock closed c relay conn .deregister relay'
        { conn with
          outbox := toTargets targets (.peerDisconnected peerId)
          phase := .deregisterPex peerId networkId }
  | absent (habsent : ∀ peerId networkId, conn.session.peerId = some peerId →
        conn.session.networkId = some networkId → removeLocked relay peerId networkId = none) :
      Access setup clock closed c relay conn .deregister relay { conn with phase := .awaitWriter }
  | unmirrored {peerId networkId : String} :
      Access setup clock closed c relay conn (.deregisterPex peerId networkId)
        { relay with pex := relay.pex.onUnregister peerId networkId }
        { conn with phase := .awaitWriter }
  | written (hclosed : conn.out.closed = true) :
      Access setup clock closed c relay conn .awaitWriter relay { conn with phase := .dropReg }
  | releasedReg :
      Access setup clock closed c relay conn .dropReg
        { relay with abuse := conn.regSlot.elim relay.abuse relay.abuse.dropReg }
        { conn with regSlot := none, phase := .dropConn }
  | releasedConn :
      Access setup clock closed c relay conn .dropConn
        { relay with abuse := conn.connSlot.elim relay.abuse relay.abuse.dropConn }
        { conn with connSlot := none, phase := .dropOpen }
  | closed :
      Access setup clock closed c relay conn .dropOpen
        { relay with openConnections := relay.openConnections - 1 } { conn with phase := .ended }

variable {setup : Setup} {clock : Clock} {closed : ConnId → Bool} {c : ConnId}
  {relay relay' : Relay crates} {conn conn' : Conn crates}

/-- The forwarding of a message by the sender's network and the target's channel there. -/
theorem forwardTo_access (target : String) (msg : RelayMessage) :
    Access setup clock closed c relay conn (.forwardTo target msg) relay
      (conn.forwardTo c relay.registry target msg) := by
  unfold Conn.forwardTo
  split
  · exact .notForwarded ‹_›
  · split
    · exact .forwarded ‹_› ‹_›
    · exact .notFound ‹_› ‹_›

/-- The fan-out of a message by the sender's network. -/
theorem broadcast_access (sender : String) (exclude : List String) (msg : RelayMessage) :
    Access setup clock closed c relay conn (.broadcast sender exclude msg) relay
      (conn.broadcast relay.registry sender exclude msg) := by
  unfold Conn.broadcast
  split
  · exact .notBroadcast ‹_›
  · exact .broadcast ‹_›

/-- The registry access of a registration by its verdict. -/
theorem registerAccess_access {request : RegisterRequest} {slot : Slot}
    (h : registerAccess setup.config closed clock.unix c relay conn request slot = (relay', conn')) :
    Access setup clock closed c relay conn (.registerLocked request slot) relay' conn' := by
  unfold registerAccess at h
  split at h
  · cases h
    exact .notEntered ‹_›
  · cases h
    exact .entered ‹_›

/-- The registry access of a teardown by the session and the record. -/
theorem deregisterAccess_access (h : deregisterAccess relay conn = (relay', conn')) :
    Access setup clock closed c relay conn .deregister relay' conn' := by
  unfold deregisterAccess at h
  split at h
  · rename_i id network hpeerId hnetworkId
    split at h
    · cases h
      exact .removed hpeerId hnetworkId ‹_›
    · rename_i hremove
      cases h
      refine .absent fun peerId networkId hsame hnetwork => ?_
      obtain rfl := Option.some.inj (hpeerId.symm.trans hsame)
      obtain rfl := Option.some.inj (hnetworkId.symm.trans hnetwork)
      exact hremove
  · rename_i hnot
    cases h
    exact .absent fun peerId networkId hpeerId hnetworkId => absurd hnetworkId (hnot _ _ hpeerId)

/-- Every access is one of those listed. -/
theorem access_cases (h : access setup clock closed c relay conn = some (relay', conn')) :
    ∃ phase, conn.phase = phase ∧ Access setup clock closed c relay conn phase relay' conn' := by
  refine ⟨conn.phase, rfl, ?_⟩
  cases hphase : conn.phase <;>
    simp only [access, hphase, reduceCtorEq, Option.some.injEq, Prod.mk.injEq] at h
  case checkBan =>
    obtain ⟨rfl, rfl⟩ := h
    split
    · exact .banned ‹_›
    · exact .notBanned (Bool.eq_false_iff.mpr ‹_›)
  case checkOpen =>
    obtain ⟨rfl, rfl⟩ := h
    split
    · exact .full ‹_›
    · exact .notFull (not_le.mp ‹_›)
  case acquireConn =>
    split at h <;> cases h
    · exact .acquired ‹_›
    · exact .notAcquired ‹_›
  case forwardTo target msg =>
    obtain ⟨rfl, rfl⟩ := h
    exact forwardTo_access target msg
  case broadcast sender exclude msg =>
    obtain ⟨rfl, rfl⟩ := h
    exact broadcast_access sender exclude msg
  case registerRate request connectedNow =>
    obtain ⟨rfl, rfl⟩ := h
    split
    · exact .allowed ‹_›
    · exact .notAllowed (Bool.eq_false_iff.mpr ‹_›)
  case registerCap request connectedNow =>
    split at h <;> cases h
    · exact .reserved ‹_›
    · exact .notReserved ‹_›
  case registerLocked request slot => exact registerAccess_access h
  case deregister => exact deregisterAccess_access h
  case registerCommit request slot =>
    cases h
    exact .committed
  case pexHandshake msg =>
    cases h
    exact .handshook
  case awaitWriter =>
    split at h <;> cases h
    exact .written ‹_›
  all_goals
    obtain ⟨rfl, rfl⟩ := h
    constructor

/-- The access a given phase names. -/
theorem access_cases_of_phase {phase : Phase crates} (hphase : conn.phase = phase)
    (h : access setup clock closed c relay conn = some (relay', conn')) :
    Access setup clock closed c relay conn phase relay' conn' := by
  obtain ⟨_, hsame, haccess⟩ := access_cases h
  rwa [← hphase, hsame]

end DigRelay
