import DigRelay.Net

/-!
# The relay wire

The message kinds of RLY-001 to RLY-007 and RLY-009 with all their fields. Messages travel
as JSON. The relay depends on an inbound frame only through its length and what the parsers make
of its bytes, and so this is what represents a frame.
-/

namespace DigRelay

/-- The public description of a registered peer. -/
structure RelayPeerInfo where
  peerId : String
  networkId : String
  protocolVersion : UInt32
  connectedAt : ℕ
  lastSeen : ℕ
  addresses : List SocketAddr
  deriving DecidableEq

/-- A description stamped with the current unix time and no dialable address yet. -/
def RelayPeerInfo.new (peerId networkId : String) (protocolVersion : UInt32) (now : ℕ) :
    RelayPeerInfo :=
  { peerId, networkId, protocolVersion, connectedAt := now, lastSeen := now, addresses := [] }

/-- One content key of a DHT answer and the number of live providers behind it. -/
structure DhtRecordEntry where
  contentKey : String
  providers : ℕ
  deriving DecidableEq

/-- The relay protocol messages. -/
inductive RelayMessage
  | register (peerId networkId : String) (protocolVersion : UInt32) (listenAddrs : List SocketAddr)
  | registerAck (success : Bool) (message : String) (connectedPeers : ℕ)
  | unregister (peerId : String)
  | relayGossipMessage (sender target : String) (payload : List UInt8) (seq : UInt64)
  | broadcast (sender : String) (payload : List UInt8) (exclude : List String)
  | peerConnected (peer : RelayPeerInfo)
  | peerDisconnected (peerId : String)
  | getPeers (networkId : Option String)
  | peers (peers : List RelayPeerInfo)
  | ping (timestamp : UInt64)
  | pong (timestamp : UInt64)
  | holePunchRequest (peerId targetPeerId : String) (externalAddr : SocketAddr)
  | holePunchCoordinate (peerId : String) (externalAddr : SocketAddr)
  | holePunchResult (peerId : String) (success : Bool)
  | error (code : UInt32) (message : String)
  | getDhtRecords (maxKeys : ℕ)
  | dhtRecords (records : List DhtRecordEntry) (totalKeys : ℕ) (truncated : Bool)
  deriving DecidableEq

/-- The peer a forwarded message names as its sender. -/
def RelayMessage.originator : RelayMessage → Option String
  | .relayGossipMessage sender _ _ _ => some sender
  | .broadcast sender _ _ => some sender
  | .holePunchCoordinate peerId _ => some peerId
  | _ => none

namespace ErrCode

/-- A message arrived before the connection registered. -/
def notRegistered : UInt32 := 1

/-- The frame was not valid relay JSON. -/
def badMessage : UInt32 := 2

/-- The target is not on the sender's network. -/
def peerNotFound : UInt32 := 3

/-- The relay holds its maximum number of registrations. -/
def capacity : UInt32 := 4

/-- A live connection holds the claimed id. -/
def idInUse : UInt32 := 5

/-- The claimed id is not the one of the client certificate. -/
def identityMismatch : UInt32 := 6

/-- A per-source registration limit was exceeded. -/
def rateLimited : UInt32 := 7

end ErrCode

end DigRelay
