import DigRelay.Pex

/-!
# Dispatching inbound frames

The decision what to do with a frame is pure: it depends on the connection's session and on
what the parsers make of the frame's bytes. Before registration only a register message and
nothing else is acted on here; afterwards the sender named in a forwarded message is always
replaced by the session's own id.
-/

namespace DigRelay

/-- The registration state of a connection. -/
structure Session where
  peerId : Option String := none
  networkId : Option String := none
  pexActive : Bool := false
  deriving DecidableEq

/-- The contents of a register message. -/
structure RegisterRequest where
  peerId : String
  networkId : String
  protocolVersion : UInt32
  listenAddrs : List SocketAddr
  deriving DecidableEq

/-- What is to be done with a parsed message. -/
inductive Action
  | replyToSelf (msgs : List RelayMessage)
  | register (request : RegisterRequest)
  | forwardTo (target : String) (msg : RelayMessage)
  | broadcast (sender : String) (exclude : List String) (msg : RelayMessage)
  | close
  | nothing
  | error (code : UInt32) (message : String)
  deriving DecidableEq

/-- Decide on a message of a registered connection other than a registration. -/
def dispatchRegistered (session : Session) : RelayMessage → Action
  | .register peerId networkId protocolVersion listenAddrs =>
    .register { peerId, networkId, protocolVersion, listenAddrs }
  | .unregister _ => .close
  | .relayGossipMessage _ target payload seq =>
    .forwardTo target (.relayGossipMessage (session.peerId.getD "") target payload seq)
  | .broadcast _ payload exclude =>
    .broadcast (session.peerId.getD "") exclude (.broadcast (session.peerId.getD "") payload [])
  | .getPeers _ => .replyToSelf [.peers []]
  | .dhtRecords _ _ _ => .nothing
  | .getDhtRecords _ => .error ErrCode.badMessage "get_dht_records is relay-to-node only (RLY-009)"
  | .ping timestamp => .replyToSelf [.pong timestamp]
  | .pong _ => .nothing
  | .holePunchRequest _ targetPeerId externalAddr =>
    .forwardTo targetPeerId (.holePunchCoordinate (session.peerId.getD "") externalAddr)
  | .holePunchResult peerId success => .forwardTo peerId (.holePunchResult peerId success)
  | .registerAck _ _ _ => .nothing
  | .peers _ => .nothing
  | .peerConnected _ => .nothing
  | .peerDisconnected _ => .nothing
  | .holePunchCoordinate _ _ => .nothing
  | .error _ _ => .nothing

/-- Decide on a message: registrations always, anything else only once registered. -/
def dispatch (session : Session) (msg : RelayMessage) : Action :=
  match msg with
  | .register peerId networkId protocolVersion listenAddrs =>
    .register { peerId, networkId, protocolVersion, listenAddrs }
  | _ =>
    if session.peerId.isNone then
      .error ErrCode.notRegistered "register before sending other messages (RLY-001)"
    else dispatchRegistered session msg

variable {crates : Crates}

/-- What is to be done with an exchange frame. -/
inductive PexAction (crates : Crates)
  | notRegistered
  | handshake (msg : crates.Message)
  | data (msg : crates.Message)
  | badFrame
  | ignorePreHandshake

/-- Decide on an exchange frame from the session and the decoded message. -/
def pexDispatch (session : Session) (decoded : Option crates.Message) : PexAction crates :=
  if session.peerId.isNone then .notRegistered
  else
    match decoded with
    | some msg =>
      if crates.isHandshake msg && !session.pexActive then .handshake msg
      else if session.pexActive then .data msg
      else .ignorePreHandshake
    | none => if session.pexActive then .badFrame else .ignorePreHandshake

/-- A handshake is taken from a registered connection. -/
theorem pexDispatch_handshake {session : Session} {decoded : Option crates.Message}
    {msg : crates.Message} (h : pexDispatch session decoded = .handshake msg) :
    session.peerId.isSome = true ∧ decoded = some msg ∧ crates.isHandshake msg = true := by
  unfold pexDispatch at h
  split at h
  · cases h
  · rename_i hsome
    refine ⟨by simpa [Option.isSome_iff_ne_none] using hsome, ?_⟩
    split at h
    · split at h
      · rename_i hhandshake
        obtain rfl := PexAction.handshake.inj h
        exact ⟨rfl, (Bool.and_eq_true_iff.mp hhandshake).1⟩
      · split at h <;> cases h
    · split at h <;> cases h

/-- Anything else is only taken once the exchange is active. -/
theorem pexDispatch_active {session : Session} {decoded : Option crates.Message}
    (h : (∃ msg, pexDispatch session decoded = .data msg) ∨
      pexDispatch session decoded = .badFrame) : session.pexActive = true := by
  cases hactive : session.pexActive with
  | true => rfl
  | false =>
    have hneither : pexDispatch session decoded = .notRegistered ∨
        pexDispatch session decoded = .ignorePreHandshake ∨
        ∃ msg, pexDispatch session decoded = .handshake msg := by
      unfold pexDispatch
      split
      · exact .inl rfl
      · split
        · rename_i msg
          cases crates.isHandshake msg <;> simp [hactive]
        · simp [hactive]
    rcases hneither with hdecided | hdecided | ⟨msg, hdecided⟩ <;> simp [hdecided] at h

/-- An inbound text or binary frame: its length, the string under its `type` key when it is
JSON with one, and what the two message parsers return on it. -/
structure Frame (crates : Crates) where
  len : ℕ
  typeTag : Option String
  relay : Option RelayMessage
  pex : Option crates.Message

/-- Whether the frame is tagged as an exchange message. -/
def isPexFrame (frame : Frame crates) : Bool :=
  frame.typeTag.any fun tag => "pex_".toList.isPrefixOf tag.toList

/-- A targeted forward names no sender or the session's own id. -/
theorem dispatch_forwardTo_originator {session : Session} {msg out : RelayMessage} {target : String}
    (h : dispatch session msg = .forwardTo target out) :
    session.peerId.isSome ∧
      (out.originator = none ∨ out.originator = some (session.peerId.getD "")) := by
  unfold dispatch at h
  split at h
  · cases h
  · split at h
    · cases h
    · rename_i hsome
      refine ⟨by simpa [Option.isSome_iff_ne_none] using hsome, ?_⟩
      cases msg <;> simp only [dispatchRegistered, reduceCtorEq, Action.forwardTo.injEq] at h
      all_goals
        obtain ⟨-, rfl⟩ := h
        simp [RelayMessage.originator]

/-- A broadcast is sent under the session's own id. -/
theorem dispatch_broadcast_originator {session : Session} {msg out : RelayMessage}
    {sender : String} {exclude : List String}
    (h : dispatch session msg = .broadcast sender exclude out) :
    session.peerId = some sender ∧ out.originator = some sender := by
  unfold dispatch at h
  split at h
  · cases h
  · split at h
    · cases h
    · rename_i hsome
      obtain ⟨own, hown⟩ := Option.ne_none_iff_exists'.mp (by simpa using hsome)
      cases msg <;> simp only [dispatchRegistered, reduceCtorEq, Action.broadcast.injEq] at h
      obtain ⟨rfl, -, rfl⟩ := h
      simp [RelayMessage.originator, hown]

end DigRelay
