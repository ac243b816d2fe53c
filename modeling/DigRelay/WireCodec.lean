import DigRelay.Dispatch

/-!
# The codec of the relay wire

Messages travel as texts that the derived code of the message types and a JSON library write and read.
Neither is part of the relay: they are a parameter here, with the laws that the relay relies on. The
names of the kinds and the types of the fields are the relay's own.
-/

namespace DigRelay

/-- The name of the kind of a message, under `type`. -/
def RelayMessage.tag : RelayMessage → String
  | register .. => "register"
  | registerAck .. => "register_ack"
  | unregister .. => "unregister"
  | relayGossipMessage .. => "relay_message"
  | broadcast .. => "broadcast"
  | peerConnected .. => "peer_connected"
  | peerDisconnected .. => "peer_disconnected"
  | getPeers .. => "get_peers"
  | peers .. => "peers"
  | ping .. => "ping"
  | pong .. => "pong"
  | holePunchRequest .. => "hole_punch_request"
  | holePunchCoordinate .. => "hole_punch_coordinate"
  | holePunchResult .. => "hole_punch_result"
  | error .. => "error"
  | getDhtRecords .. => "get_dht_records"
  | dhtRecords .. => "dht_records"

/-- Only an IPv6 address has a scope. -/
def SocketAddr.Scoped (addr : SocketAddr) : Prop := addr.ip.isIpv4 = true → addr.scopeId = 0

/-- The numbers of a description fit their fields. -/
def RelayPeerInfo.Fits (info : RelayPeerInfo) : Prop :=
  info.connectedAt < UInt64.size ∧ info.lastSeen < UInt64.size ∧ ∀ addr ∈ info.addresses, addr.Scoped

/-- The numbers of a message fit their fields. -/
def RelayMessage.Fits : RelayMessage → Prop
  | register _ _ _ listenAddrs => ∀ addr ∈ listenAddrs, addr.Scoped
  | registerAck _ _ connectedPeers => connectedPeers < UInt64.size
  | peerConnected peer => peer.Fits
  | peers known => ∀ peer ∈ known, peer.Fits
  | holePunchRequest _ _ externalAddr => externalAddr.Scoped
  | holePunchCoordinate _ externalAddr => externalAddr.Scoped
  | getDhtRecords maxKeys => maxKeys < UInt64.size
  | dhtRecords records totalKeys _ =>
    (∀ entry ∈ records, entry.providers < UInt64.size) ∧ totalKeys < UInt64.size
  | _ => True

instance : DecidablePred SocketAddr.Scoped := fun addr =>
  inferInstanceAs (Decidable (addr.ip.isIpv4 = true → addr.scopeId = 0))

instance : DecidablePred RelayPeerInfo.Fits := fun info =>
  inferInstanceAs (Decidable (info.connectedAt < UInt64.size ∧ info.lastSeen < UInt64.size ∧
    ∀ addr ∈ info.addresses, addr.Scoped))

instance : DecidablePred RelayMessage.Fits
  | .register _ _ _ listenAddrs => inferInstanceAs (Decidable (∀ addr ∈ listenAddrs, addr.Scoped))
  | .registerAck _ _ connectedPeers => inferInstanceAs (Decidable (connectedPeers < UInt64.size))
  | .peerConnected peer => inferInstanceAs (Decidable peer.Fits)
  | .peers known => inferInstanceAs (Decidable (∀ peer ∈ known, peer.Fits))
  | .holePunchRequest _ _ externalAddr => inferInstanceAs (Decidable externalAddr.Scoped)
  | .holePunchCoordinate _ externalAddr => inferInstanceAs (Decidable externalAddr.Scoped)
  | .getDhtRecords maxKeys => inferInstanceAs (Decidable (maxKeys < UInt64.size))
  | .dhtRecords records totalKeys _ =>
    inferInstanceAs (Decidable ((∀ entry ∈ records, entry.providers < UInt64.size) ∧ totalKeys < UInt64.size))
  | .unregister _ | .relayGossipMessage .. | .broadcast .. | .peerDisconnected _ | .getPeers _ | .ping _
  | .pong _ | .holePunchResult .. | .error .. => .isTrue trivial

/-- What the codec makes of messages and of the texts of frames. -/
structure Codec (crates : Crates) where
  Text : Type
  len : Text → ℕ
  /-- The string under the key `type`, when the text is an object with one. -/
  typeTag : Text → Option String
  read : Text → Option RelayMessage
  write : RelayMessage → Text
  readPex : Text → Option crates.Message
  /-- A message whose numbers fit their fields is read back. -/
  read_write : ∀ msg, msg.Fits → read (write msg) = some msg
  /-- The fields that are read are of their types. -/
  fits_of_read : ∀ text msg, read text = some msg → msg.Fits
  /-- A message is read by the name of its kind. -/
  tag_of_read : ∀ text msg tag, read text = some msg → typeTag text = some tag → tag = msg.tag

variable {crates : Crates}

/-- A text as the relay sees it when it arrives. -/
def Codec.frame (codec : Codec crates) (text : codec.Text) : Frame crates where
  len := codec.len text
  typeTag := codec.typeTag text
  relay := codec.read text
  pex := codec.readPex text

/-- No name of a kind begins as those of the exchange do. -/
theorem RelayMessage.tag_not_pex (msg : RelayMessage) :
    "pex_".toList.isPrefixOf msg.tag.toList = false := by
  cases msg <;> rw [tag] <;> decide

/-- A text that is read as a message is no exchange frame. -/
theorem Codec.not_isPexFrame {codec : Codec crates} {text : codec.Text} {msg : RelayMessage}
    (h : codec.read text = some msg) : isPexFrame (codec.frame text) = false := by
  cases htag : codec.typeTag text with
  | none => rw [isPexFrame, frame, htag, Option.any_none]
  | some tag =>
    rw [isPexFrame, frame, htag, Option.any_some, codec.tag_of_read text msg tag h htag]
    exact msg.tag_not_pex

end DigRelay
