import DigRelay.Common.Transition
import DigRelay.Server.Register

/-!
# Transitions of the relay

Each label names the task that moves and the readings or inputs it receives. A connection
task performs its pending sends first and then the shared access its phase names; inputs are
only taken while the task waits for one. Clock readings are arbitrary. Hash maps may change
their enumeration order between any two transitions.
-/

namespace DigRelay

open Common

variable {crates : Crates}

/-- What reading the request head came to: a failed read or handshake, a plain HTTP request
that is answered and closed, or a completed upgrade to the relay wire. -/
inductive HeadOutcome
  | failed
  | http
  | upgraded
  deriving DecidableEq

/-- The transitions of the relay's tasks. -/
inductive Label (crates : Crates)
  | accept (addr : SocketAddr) (identity : Option String)
  | exec (c : ConnId) (clock : Clock)
  | head (c : ConnId) (outcome : HeadOutcome) (clock : Clock)
  | message (c : ConnId) (frame : Frame crates) (clock : Clock)
  | control (c : ConnId)
  | hangup (c : ConnId)
  | writeRelay (c : ConnId) (ok : Bool)
  | writePex (c : ConnId) (ok : Bool)
  | writerDone (c : ConnId)
  | sweep (now : ℕ)
  | sweepExec
  | pexTick (nowMs : ℕ)
  | dhtAsk
  | dhtExec
  | dhtBuild (now : ℕ)
  | stun
  | rehash

/-- The number of keys each peer is asked for. -/
def dhtMaxKeysPerPeer : ℕ := 500

/-- Replies to the connection itself. -/
def toSelf (c : ConnId) (msgs : List RelayMessage) : List (Send crates) := msgs.map (Send.relay c)

/-- One message to every target. -/
def toTargets (targets : List (String × ConnId)) (msg : RelayMessage) : List (Send crates) :=
  targets.map fun target => .relay target.2 msg

/-- Exchange replies to the connection itself. -/
def toSelfPex (c : ConnId) (msgs : List crates.Message) : List (Send crates) := msgs.map (Send.pex c)

/-- Replies to the connection itself go to no other channel. -/
@[simp] theorem mem_toSelf {c tx : ConnId} {msgs : List RelayMessage} {msg : RelayMessage} :
    (Send.relay tx msg : Send crates) ∈ toSelf c msgs ↔ tx = c ∧ msg ∈ msgs := by
  simp only [toSelf, List.mem_map, Send.relay.injEq]
  constructor
  · rintro ⟨_, hmem, rfl, rfl⟩
    exact ⟨rfl, hmem⟩
  · rintro ⟨rfl, hmem⟩
    exact ⟨msg, hmem, rfl, rfl⟩

/-- A fan-out sends its one message to its targets. -/
@[simp] theorem mem_toTargets {targets : List (String × ConnId)} {tx : ConnId}
    {sent msg : RelayMessage} :
    (Send.relay tx sent : Send crates) ∈ toTargets targets msg ↔
      sent = msg ∧ ∃ peerId, (peerId, tx) ∈ targets := by
  simp only [toTargets, List.mem_map, Send.relay.injEq, Prod.exists]
  constructor
  · rintro ⟨peerId, _, hmem, rfl, rfl⟩
    exact ⟨rfl, peerId, hmem⟩
  · rintro ⟨rfl, peerId, hmem⟩
    exact ⟨peerId, tx, hmem, rfl, rfl⟩

/-- Exchange replies are no relay messages. -/
@[simp] theorem relay_notMem_toSelfPex {c tx : ConnId} {msgs : List crates.Message}
    {msg : RelayMessage} : (Send.relay tx msg : Send crates) ∉ toSelfPex c msgs := by
  simp [toSelfPex]

/-- Store a registered peer's DHT answer; nothing else about an inbound message is shared
before it is dispatched. -/
def Relay.recordDhtAnswer (relay : Relay crates) (session : Session) : RelayMessage → Relay crates
  | .dhtRecords records _ truncated =>
    if session.peerId.isSome then
      { relay with dhtAnswers := relay.dhtAnswers ++ [{ records, truncated }] }
    else relay
  | _ => relay

/-- Carry out the decision on a parsed message, up to its next shared access. -/
def Conn.carryOut (c : ConnId) (conn : Conn crates) : Action → Conn crates
  | .register request => { conn with phase := .registerLoad request }
  | .forwardTo target msg => { conn with phase := .forwardTo target msg }
  | .broadcast sender exclude msg => { conn with phase := .broadcast sender exclude msg }
  | .replyToSelf msgs => { conn with outbox := toSelf c msgs, phase := .idle }
  | .error code message => { conn with outbox := toSelf c [.error code message], phase := .idle }
  | .close => { conn with phase := .deregister }
  | .nothing => { conn with phase := .idle }

/-- Take a parsed message: a peer list request goes to the registry, anything else is
dispatched. -/
def Conn.intercept (c : ConnId) (conn : Conn crates) : RelayMessage → Conn crates
  | .getPeers networkId =>
    { conn with phase := .getPeers (networkId.or conn.session.networkId) }
  | msg => conn.carryOut c (dispatch conn.session msg)

/-- Take an exchange frame. -/
def Conn.takePexFrame (c : ConnId) (conn : Conn crates) (decoded : Option crates.Message) :
    Conn crates :=
  match pexDispatch conn.session decoded with
  | .notRegistered =>
    { conn with
      outbox := toSelf c [.error ErrCode.notRegistered "register before sending PEX (RLY-001)"] }
  | .handshake msg => { conn with phase := .pexHandshake msg }
  | .data msg => { conn with phase := .pexData msg }
  | .badFrame => { conn with phase := .pexBadFrame }
  | .ignorePreHandshake => conn

/-- What charging a frame of some length to a connection comes to. -/
def Conn.charge (config : RelayServerConfig) (conn : Conn crates) (frameLen nowMs : ℕ) :
    Admit × PerConnLimiter :=
  conn.limiter.admit config frameLen nowMs

/-- Take an inbound frame: stamp the activity, charge the limiter, then route the frame. -/
def Conn.takeFrame (config : RelayServerConfig) (c : ConnId) (conn : Conn crates)
    (frame : Frame crates) (clock : Clock) : Conn crates :=
  let admitted := conn.limiter.admit config frame.len clock.ms
  let conn := { conn with lastActivity := clock.secs, limiter := admitted.2 }
  match admitted.1 with
  | .disconnect => { conn with phase := .strike [] }
  | .ok =>
    if isPexFrame frame then conn.takePexFrame c frame.pex
    else
      match frame.relay with
      | some msg => { conn with phase := .record msg }
      | none =>
        { conn with outbox := toSelf c [.error ErrCode.badMessage "invalid relay JSON"] }

/-- Look the target up on the sender's network and forward, or tell the sender. -/
def Conn.forwardTo (c : ConnId) (reg : Registry) (conn : Conn crates) (target : String)
    (msg : RelayMessage) : Conn crates :=
  match conn.session.networkId with
  | none => { conn with phase := .idle }
  | some networkId =>
    match reg.senderInNetwork target networkId with
    | some tx => { conn with outbox := [.relay tx msg], phase := .idle }
    | none =>
      { conn with
        outbox := toSelf c
          [.error ErrCode.peerNotFound ("peer " ++ target ++ " not connected to this relay")]
        phase := .idle }

/-- Fan a message out on the sender's network. -/
def Conn.broadcast (reg : Registry) (conn : Conn crates) (sender : String)
    (exclude : List String) (msg : RelayMessage) : Conn crates :=
  match conn.session.networkId with
  | none => { conn with phase := .idle }
  | some networkId =>
    { conn with
      outbox := toTargets (reg.broadcastTargets sender networkId exclude) msg
      phase := .idle }

/-- The registry access of a registration. -/
def registerAccess (config : RelayServerConfig) (closed : ConnId → Bool) (unix : ℕ) (c : ConnId)
    (relay : Relay crates) (conn : Conn crates) (request : RegisterRequest) (slot : Slot) :
    Relay crates × Conn crates :=
  match registerVerdict config closed relay request conn.identity conn.addr unix c with
  | .refused replies => (relay, { conn with outbox := toSelf c replies, phase := .refuse slot })
  | .accepted connectedPeers targets relay =>
    (relay,
      { conn with
        outbox := .relay c (.registerAck true "registered" connectedPeers) ::
          toTargets targets (.peerConnected (registrantInfo crates request conn.addr unix))
        phase := .registerPex request slot })

/-- The registry access of a teardown. Without a session there is nothing to do, and without a
record the exchange is left alone. -/
def deregisterAccess (relay : Relay crates) (conn : Conn crates) : Relay crates × Conn crates :=
  match conn.session.peerId, conn.session.networkId with
  | some peerId, some networkId =>
    match removeLocked relay peerId networkId with
    | some (targets, relay) =>
      (relay,
        { conn with
          outbox := toTargets targets (.peerDisconnected peerId)
          phase := .deregisterPex peerId networkId })
    | none => (relay, { conn with phase := .awaitWriter })
  | _, _ => (relay, { conn with phase := .awaitWriter })

/-- The end of a successful registration: keep its slot, dropping the one held before, and
remember who the connection is. -/
def commitAccess (relay : Relay crates) (conn : Conn crates) (request : RegisterRequest)
    (slot : Slot) : Relay crates × Conn crates :=
  ({ relay with abuse := conn.regSlot.elim relay.abuse relay.abuse.dropReg },
    { conn with
      regSlot := some slot
      session := { conn.session with
        peerId := some request.peerId
        networkId := some request.networkId }
      phase := .idle })

/-- A node's first exchange handshake: mirror the registration again, let the engine judge the
handshake and queue its replies. -/
def handshakeAccess (nowMs : ℕ) (c : ConnId) (relay : Relay crates) (conn : Conn crates)
    (msg : crates.Message) : Relay crates × Conn crates :=
  let peerId := conn.session.peerId.getD ""
  let networkId := conn.session.networkId.getD ""
  let pex := relay.pex.onRegister peerId networkId conn.addr c nowMs
  let outcome := pex.onNodeHandshake peerId networkId msg nowMs
  ({ relay with pex := outcome.2 },
    { conn with
      session := { conn.session with pexActive := true }
      outbox := toSelfPex c outcome.1
      phase := .idle })

/-- The shared access a phase names, with the task's state after it. A task that waits for an
input or for its writer has none. -/
def access (setup : Setup) (clock : Clock) (closed : ConnId → Bool) (c : ConnId)
    (relay : Relay crates) (conn : Conn crates) : Option (Relay crates × Conn crates) :=
  match conn.phase with
  | .checkBan =>
    let outcome := relay.abuse.isBanned setup.config conn.addr.ip clock.ms
    some ({ relay with abuse := outcome.2 },
      { conn with phase := if outcome.1 then .ended else .checkOpen })
  | .checkOpen =>
    some (relay,
      { conn with
        phase :=
          if relay.openConnections.toNat ≥ setup.config.maxConnections.toNat then .ended
          else .acquireOpen })
  | .acquireOpen =>
    some ({ relay with openConnections := relay.openConnections + 1 },
      { conn with phase := .acquireConn })
  | .acquireConn =>
    match relay.abuse.tryAcquireConn setup.config conn.addr.ip with
    | some (slot, abuse) =>
      some ({ relay with abuse }, { conn with connSlot := some slot, phase := .readHead })
    | none => some (relay, { conn with phase := .refuseConn })
  | .refuseConn =>
    some ({ relay with abuse := relay.abuse.recordStrike setup.config conn.addr.ip clock.ms },
      { conn with phase := .dropOpen })
  | .readHead => none
  | .idle => none
  | .strike replies =>
    some ({ relay with abuse := relay.abuse.recordStrike setup.config conn.addr.ip clock.ms },
      { conn with outbox := toSelf c replies, phase := .deregister })
  | .record msg => some (relay.recordRelayed msg, { conn with phase := .intercept msg })
  | .intercept msg => some (relay.recordDhtAnswer conn.session msg, conn.intercept c msg)
  | .getPeers networkId =>
    some (relay,
      { conn with outbox := toSelf c [.peers (relay.registry.peers networkId)], phase := .idle })
  | .forwardTo target msg => some (relay, conn.forwardTo c relay.registry target msg)
  | .broadcast sender exclude msg => some (relay, conn.broadcast relay.registry sender exclude msg)
  | .registerLoad request =>
    some (relay, { conn with phase := .registerRate request relay.connected.toNat })
  | .registerRate request connectedNow =>
    let outcome := relay.abuse.allowRegistration setup.config conn.addr.ip clock.ms
    some ({ relay with abuse := outcome.2 },
      { conn with
        phase :=
          if outcome.1 then .registerCap request connectedNow
          else .strike (rateRefusal connectedNow) })
  | .registerCap request connectedNow =>
    match relay.abuse.tryAcquireRegistration setup.config conn.addr.ip with
    | some (slot, abuse) =>
      some ({ relay with abuse }, { conn with phase := .registerLocked request slot })
    | none => some (relay, { conn with phase := .strike (capRefusal connectedNow) })
  | .registerLocked request slot =>
    some (registerAccess setup.config closed clock.unix c relay conn request slot)
  | .registerPex request slot =>
    some
      ({ relay with
        pex := relay.pex.onRegister request.peerId request.networkId conn.addr c clock.ms },
      { conn with phase := .registerCommit request slot })
  | .registerCommit request slot => some (commitAccess relay conn request slot)
  | .refuse slot =>
    some ({ relay with abuse := relay.abuse.dropReg slot }, { conn with phase := .deregister })
  | .pexHandshake msg => some (handshakeAccess clock.ms c relay conn msg)
  | .pexData msg =>
    let outcome := relay.pex.onNodeMessage (conn.session.peerId.getD "")
      (conn.session.networkId.getD "") msg clock.ms
    some ({ relay with pex := outcome.2 },
      { conn with outbox := toSelfPex c outcome.1, phase := .idle })
  | .pexBadFrame =>
    let outcome := relay.pex.onNodeBadFrame (conn.session.peerId.getD "")
      (conn.session.networkId.getD "") clock.ms
    some ({ relay with pex := outcome.2 },
      { conn with outbox := toSelfPex c outcome.1, phase := .idle })
  | .deregister => some (deregisterAccess relay conn)
  | .deregisterPex peerId networkId =>
    some ({ relay with pex := relay.pex.onUnregister peerId networkId },
      { conn with phase := .awaitWriter })
  | .awaitWriter => if conn.out.closed then some (relay, { conn with phase := .dropReg }) else none
  | .dropReg =>
    some ({ relay with abuse := conn.regSlot.elim relay.abuse relay.abuse.dropReg },
      { conn with regSlot := none, phase := .dropConn })
  | .dropConn =>
    some ({ relay with abuse := conn.connSlot.elim relay.abuse relay.abuse.dropConn },
      { conn with connSlot := none, phase := .dropOpen })
  | .dropOpen =>
    some ({ relay with openConnections := relay.openConnections - 1 }, { conn with phase := .ended })
  | .ended => none

end DigRelay
