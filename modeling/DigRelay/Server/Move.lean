import DigRelay.Server.Run

/-!
# What a transition does

Every transition falls under one of the moves listed here, each with the state it is taken in and
the exact system it produces. Facts about single transitions are proved by cases on this list.
-/

namespace DigRelay

open Common

variable {crates : Crates}

/-- The label belongs to a writer, to the exchange tick, to the DHT rounds or to STUN. -/
def Label.isBackground : Label crates → Bool
  | .writeRelay _ _ => true
  | .writePex _ _ => true
  | .writerDone _ => true
  | .pexTick _ => true
  | .dhtAsk => true
  | .dhtExec => true
  | .dhtBuild _ => true
  | .stun => true
  | _ => false

/-- The moves of the relay. -/
inductive Move (setup : Setup) (sys : System crates) : Label crates → System crates → Prop
  | accepted (addr : SocketAddr) (identity : Option String) :
      Move setup sys (.accept addr identity)
        { sys with
          conns := sys.conns ++
            [Conn.accepted setup.config addr (if setup.tls then identity else none)] }
  | sent {c : ConnId} {clock : Clock} {conn : Conn crates} {send : Send crates}
      {rest : List (Send crates)} (hconn : sys.conns[c]? = some conn)
      (houtbox : conn.outbox = send :: rest) :
      Move setup sys (.exec c clock)
        { sys with conns := deliver send (sys.conns.set c { conn with outbox := rest }) }
  | accessed {c : ConnId} {clock : Clock} {conn conn' : Conn crates} {relay : Relay crates}
      (hconn : sys.conns[c]? = some conn) (houtbox : conn.outbox = [])
      (haccess : access setup clock (isClosed sys.conns) c sys.relay conn = some (relay, conn')) :
      Move setup sys (.exec c clock) { sys with relay, conns := sys.conns.set c conn' }
  | head {c : ConnId} {conn : Conn crates} (outcome : HeadOutcome) (clock : Clock)
      (hconn : sys.conns[c]? = some conn) (hphase : conn.phase = .readHead)
      (houtbox : conn.outbox = []) :
      Move setup sys (.head c outcome clock)
        (sys.setConn c (conn.takeHead setup.config clock outcome))
  | message {c : ConnId} {conn : Conn crates} (frame : Frame crates) (clock : Clock)
      (hconn : sys.conns[c]? = some conn) (hphase : conn.phase = .idle)
      (houtbox : conn.outbox = []) :
      Move setup sys (.message c frame clock)
        (sys.setConn c (conn.takeFrame setup.config c frame clock))
  | control {c : ConnId} {conn : Conn crates} (hconn : sys.conns[c]? = some conn)
      (hphase : conn.phase = .idle) (houtbox : conn.outbox = []) :
      Move setup sys (.control c) (sys.setConn c conn)
  | hangup {c : ConnId} {conn : Conn crates} (hconn : sys.conns[c]? = some conn)
      (hphase : conn.phase = .idle) (houtbox : conn.outbox = []) :
      Move setup sys (.hangup c) (sys.setConn c { conn with phase := .deregister })
  | wrote {label : Label crates} {c : ConnId} {conn : Conn crates} {out : Channel RelayMessage}
      {pexOut : Channel crates.Message} (hlabel : label.isBackground = true)
      (hconn : sys.conns[c]? = some conn) (hclosed : out.closed = conn.out.closed) :
      Move setup sys label (sys.setConn c { conn with out, pexOut })
  | closed {label : Label crates} {c : ConnId} {conn : Conn crates}
      (hlabel : label.isBackground = true) (hconn : sys.conns[c]? = some conn) :
      Move setup sys label (sys.setConn c conn.closeChannels)
  | swept (now : ℕ) (hdone : sys.pruned = []) :
      Move setup sys (.sweep now)
        { sys with
          relay := (sweepLocked setup sys now).2
          pruned := (sweepLocked setup sys now).1 }
  | noticed {peerId networkId : String} {target : String × ConnId}
      {targets : List (String × ConnId)} {rest : List PrunedPeer}
      (hpruned : sys.pruned = (peerId, networkId, target :: targets) :: rest) :
      Move setup sys .sweepExec
        { sys with
          conns := deliver (.relay target.2 (.peerDisconnected peerId)) sys.conns
          pruned := (peerId, networkId, targets) :: rest }
  | forgotten {peerId networkId : String} {rest : List PrunedPeer}
      (hpruned : sys.pruned = (peerId, networkId, []) :: rest) :
      Move setup sys .sweepExec
        { sys with
          relay := { sys.relay with pex := sys.relay.pex.onUnregister peerId networkId }
          pruned := rest }
  | background {label : Label crates} {relay : Relay crates} {asked : List ConnId}
      (sends : List (Send crates)) (hlabel : label.isBackground = true)
      (hregistry : relay.registry = sys.relay.registry)
      (hconnected : relay.connected = sys.relay.connected)
      (hsenders : relay.pex.conns = sys.relay.pex.conns) (habuse : relay.abuse = sys.relay.abuse) :
      Move setup sys label { sys with relay, conns := deliverAll sends sys.conns, asked }
  | rehashed {relay : Relay crates} (h : Relay.Rehashed sys.relay relay) :
      Move setup sys .rehash { sys with relay }

variable {setup : Setup} {sys sys' : System crates} {label : Label crates}

/-- A writer takes a message of one of its channels or closes both. -/
theorem writeStep_move {c : ConnId} {ok : Bool} {take : Conn crates → Option (Conn crates)}
    (hlabel : label.isBackground = true)
    (htake : ∀ conn taken, take conn = some taken → ∃ out pexOut,
      out.closed = conn.out.closed ∧ taken = { conn with out, pexOut })
    (h : writeStep sys c ok take = some sys') : Move setup sys label sys' := by
  obtain ⟨conn, taken, hconn, htaken, rfl⟩ := writeStep_some h
  cases ok with
  | false => exact .closed hlabel hconn
  | true =>
    obtain ⟨out, pexOut, hclosed, rfl⟩ := htake conn taken htaken
    exact .wrote hlabel hconn hclosed

/-- Every transition is one of the moves. -/
theorem next_move (h : Next setup sys label sys') : Move setup sys label sys' := by
  cases h with
  | rehash hrehash => exact .rehashed hrehash
  | step h =>
    cases label <;> simp only [step] at h
    case accept addr identity =>
      obtain rfl := Option.some.inj h
      exact .accepted addr identity
    case exec c clock =>
      obtain ⟨conn, hconn, hexec⟩ := Option.bind_eq_some_iff.mp h
      rcases execStep_some hexec with ⟨send, rest, houtbox, rfl⟩ | ⟨houtbox, relay, conn', haccess, rfl⟩
      · exact .sent hconn houtbox
      · exact .accessed hconn houtbox haccess
    case head c outcome clock =>
      obtain ⟨conn, hconn, hhead, houtbox, rfl⟩ := inputStep_some h
      exact .head outcome clock hconn (isReadHead_iff.mp hhead) houtbox
    case message c frame clock =>
      obtain ⟨conn, hconn, hidle, houtbox, rfl⟩ := inputStep_some h
      exact .message frame clock hconn (isIdle_iff.mp hidle) houtbox
    case control c =>
      obtain ⟨conn, hconn, hidle, houtbox, rfl⟩ := inputStep_some h
      exact .control hconn (isIdle_iff.mp hidle) houtbox
    case hangup c =>
      obtain ⟨conn, hconn, hidle, houtbox, rfl⟩ := inputStep_some h
      exact .hangup hconn (isIdle_iff.mp hidle) houtbox
    case writeRelay c ok =>
      refine writeStep_move rfl (fun conn taken htaken => ?_) h
      obtain ⟨⟨msg, out⟩, hrecv, rfl⟩ := Option.map_eq_some_iff.mp htaken
      exact ⟨out, conn.pexOut, Channel.recv_closed hrecv, rfl⟩
    case writePex c ok =>
      refine writeStep_move rfl (fun conn taken htaken => ?_) h
      obtain ⟨⟨msg, pexOut⟩, -, rfl⟩ := Option.map_eq_some_iff.mp htaken
      exact ⟨conn.out, pexOut, rfl, rfl⟩
    case writerDone c =>
      obtain ⟨conn, hconn, hdone⟩ := Option.bind_eq_some_iff.mp h
      split at hdone
      · obtain rfl := Option.some.inj hdone
        exact .closed rfl hconn
      · cases hdone
    case sweep now =>
      split at h
      · rename_i hdone
        obtain rfl := Option.some.inj h
        exact .swept now (List.isEmpty_iff.mp hdone)
      · cases h
    case sweepExec =>
      unfold sweepStep at h
      split at h
      · cases h
      · rename_i hpruned
        obtain rfl := Option.some.inj h
        exact .noticed hpruned
      · rename_i hpruned
        obtain rfl := Option.some.inj h
        exact .forgotten hpruned
    case pexTick nowMs =>
      obtain rfl := Option.some.inj h
      exact .background _ rfl rfl rfl rfl rfl
    case dhtExec =>
      split at h
      · cases h
      · rename_i tx rest hasked
        obtain rfl := Option.some.inj h
        exact .background [.relay tx (.getDhtRecords dhtMaxKeysPerPeer)] rfl rfl rfl rfl rfl
    case stun =>
      obtain rfl := Option.some.inj h
      exact .background [] rfl rfl rfl rfl rfl
    case rehash => cases h
    all_goals
      split at h
      · obtain rfl := Option.some.inj h
        exact .background [] rfl rfl rfl rfl rfl
      · cases h

end DigRelay
