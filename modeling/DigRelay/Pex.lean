import DigRelay.Registry

/-!
# The introducer side of peer exchange

The relay keeps one exchange engine per network and, per peer id, the sender of the connection
that last mirrored its registration. The engines come from another crate; what the relay calls
on them is collected in `Crates`, together with the two smaller things it takes from outside:
the text form of an address and the order of address families.
-/

namespace DigRelay

open Common

/-- The id the introducer uses for itself. -/
def introducerLocalId : String := "dig-relay-introducer"

/-- The flag an introducer advertises. -/
def flagIntroducer : String := "introducer"

/-- The flag of a peer known only through the relay. -/
def flagRelayOnly : String := "relay-only"

/-- Where an entry was learned. The relay only enters what registered with it. -/
inductive Provenance
  | introducer
  deriving DecidableEq

/-- The kind of an entry's address. The relay only knows observed source addresses. -/
inductive AddressKind
  | reflexive
  deriving DecidableEq

/-- An address of an exchange entry. -/
structure PexAddress where
  host : String
  port : UInt16
  kind : AddressKind
  deriving DecidableEq

/-- One peer of the set an introducer advertises. -/
structure PeerEntry where
  peerId : String
  networkId : String
  lastSeen : ℕ
  via : Provenance
  addresses : List PexAddress
  flags : List String
  deriving DecidableEq

/-- What the relay uses from other crates. Operations of an engine return the replies they
produce together with the engine's next state. -/
structure Crates where
  Message : Type
  Engine : Type
  isHandshake : Message → Bool
  newEngine : (localId networkId : String) → (flags : List String) → Engine
  upsertKnown : Engine → PeerEntry → Engine
  removeKnown : Engine → String → Engine
  linkUp : Engine → String → ℕ → List Message × Engine
  linkDown : Engine → String → Engine
  onMessage : Engine → String → Message → ℕ → List Message × Engine
  isMuted : Engine → String → Bool
  recordBadMessage : Engine → String → ℕ → List Message × Engine
  tick : Engine → ℕ → List (String × Message) × Engine
  ipText : IpAddr → String
  familyRank : SocketAddr → ℕ

/-- The engines per network and the exchange senders per peer id. -/
structure PexRelay (crates : Crates) where
  engines : Table String crates.Engine
  conns : Table String ConnId

variable (crates : Crates)

/-- No network has been seen yet. -/
def PexRelay.new : PexRelay crates := ⟨∅, ∅⟩

/-- The first-hand entry for a registrant, with its observed source address. -/
def introducerEntry (peerId networkId : String) (observed : SocketAddr) (nowSecs : ℕ) : PeerEntry :=
  { peerId, networkId, lastSeen := nowSecs, via := .introducer
    addresses := [{ host := crates.ipText observed.ip, port := observed.port, kind := .reflexive }]
    flags := [flagRelayOnly] }

namespace PexRelay

variable {crates} (pex : PexRelay crates)

/-- The engine of a network, created on first use. -/
def engineFor (networkId : String) : crates.Engine :=
  (pex.engines.lookup networkId).getD
    (crates.newEngine introducerLocalId networkId [flagIntroducer])

/-- Store the next state of a network's engine. -/
def setEngine (networkId : String) (engine : crates.Engine) : PexRelay crates :=
  { pex with engines := pex.engines.insert networkId engine }

/-- Mirror a registration: enter the registrant and retain its sender. -/
def onRegister (peerId networkId : String) (observed : SocketAddr) (pexTx : ConnId) (nowMs : ℕ) :
    PexRelay crates :=
  let entry := introducerEntry crates peerId networkId observed (nowMs / 1000)
  let pex := pex.setEngine networkId (crates.upsertKnown (pex.engineFor networkId) entry)
  { pex with conns := pex.conns.insert peerId pexTx }

/-- Mirror a departure: forget the peer in its network's engine and drop its sender. -/
def onUnregister (peerId networkId : String) : PexRelay crates :=
  let pex := match pex.engines.lookup networkId with
    | some engine => pex.setEngine networkId (crates.linkDown (crates.removeKnown engine peerId) peerId)
    | none => pex
  { pex with conns := pex.conns.erase peerId }

/-- A node's handshake: let the engine judge it, and bring the link up unless the node is
muted. -/
def onNodeHandshake (peerId networkId : String) (msg : crates.Message) (nowMs : ℕ) :
    List crates.Message × PexRelay crates :=
  let outcome := crates.onMessage (pex.engineFor networkId) peerId msg nowMs
  if crates.isMuted outcome.2 peerId then (outcome.1, pex.setEngine networkId outcome.2)
  else
    let up := crates.linkUp outcome.2 peerId nowMs
    (up.1 ++ outcome.1, pex.setEngine networkId up.2)

/-- A later message of a node, judged by its network's engine if there is one. -/
def onNodeMessage (peerId networkId : String) (msg : crates.Message) (nowMs : ℕ) :
    List crates.Message × PexRelay crates :=
  match pex.engines.lookup networkId with
  | some engine =>
    let outcome := crates.onMessage engine peerId msg nowMs
    (outcome.1, pex.setEngine networkId outcome.2)
  | none => ([], pex)

/-- An undecodable exchange frame, struck against the node if its network has an engine. -/
def onNodeBadFrame (peerId networkId : String) (nowMs : ℕ) : List crates.Message × PexRelay crates :=
  match pex.engines.lookup networkId with
  | some engine =>
    let outcome := crates.recordBadMessage engine peerId nowMs
    (outcome.1, pex.setEngine networkId outcome.2)
  | none => ([], pex)

/-- Advance every engine and route what is due to the retained senders. -/
def tick (nowMs : ℕ) : List (ConnId × crates.Message) × PexRelay crates :=
  let routed := pex.engines.toPairs.flatMap fun entry => (crates.tick entry.2 nowMs).1
  (routed.filterMap fun (peerId, msg) => (pex.conns.lookup peerId).map fun tx => (tx, msg),
    { pex with engines := pex.engines.mapValues fun engine => (crates.tick engine nowMs).2 })

/-- Mirroring a registration retains the sender under the registrant's id. -/
@[simp] theorem onRegister_conns (peerId networkId : String) (observed : SocketAddr)
    (pexTx : ConnId) (nowMs : ℕ) :
    (pex.onRegister peerId networkId observed pexTx nowMs).conns =
      pex.conns.insert peerId pexTx := rfl

/-- Mirroring a departure drops the sender under the peer's id. -/
@[simp] theorem onUnregister_conns (peerId networkId : String) :
    (pex.onUnregister peerId networkId).conns = pex.conns.erase peerId := by
  unfold onUnregister
  split <;> rfl

/-- A handshake is judged by the engines alone. -/
@[simp] theorem onNodeHandshake_conns (peerId networkId : String) (msg : crates.Message)
    (nowMs : ℕ) : (pex.onNodeHandshake peerId networkId msg nowMs).2.conns = pex.conns := by
  dsimp only [onNodeHandshake]
  split <;> rfl

/-- A later message is judged by the engines alone. -/
@[simp] theorem onNodeMessage_conns (peerId networkId : String) (msg : crates.Message)
    (nowMs : ℕ) : (pex.onNodeMessage peerId networkId msg nowMs).2.conns = pex.conns := by
  unfold onNodeMessage
  split <;> rfl

/-- An undecodable frame is judged by the engines alone. -/
@[simp] theorem onNodeBadFrame_conns (peerId networkId : String) (nowMs : ℕ) :
    (pex.onNodeBadFrame peerId networkId nowMs).2.conns = pex.conns := by
  unfold onNodeBadFrame
  split <;> rfl

end PexRelay

end DigRelay
