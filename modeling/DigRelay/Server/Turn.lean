import DigRelay.Server.Change
import DigRelay.Server.Outbox
import DigRelay.Server.Touch

/-!
# Registry, exchange and tasks

Registrations live in two places: the registry, which is changed under its own lock, and the
exchange, which follows in a later step. The view keeps both, together with the session, the
pending sends and the phase of every connection task and with what the health sweep still has to
do. Every transition is listed with what it does to the view.
-/

namespace DigRelay

open Common

variable {crates : Crates}

/-- The part of the state that registrations and the exchange live in. -/
structure View (crates : Crates) where
  registry : Registry
  pex : PexRelay crates
  tasks : List (Session × List (Send crates) × Phase crates)
  pruned : List PrunedPeer

/-- The view of a system. -/
def System.view (sys : System crates) : View crates :=
  { registry := sys.relay.registry
    pex := sys.relay.pex
    tasks := sys.conns.map Conn.task
    pruned := sys.pruned }

/-- Replace one task. -/
def View.setTask (view : View crates) (c : ConnId)
    (task : Session × List (Send crates) × Phase crates) : View crates :=
  { view with tasks := view.tasks.set c task }

/-- The phase is about to touch the exchange or has just mirrored a registration there. -/
def Phase.isExchanging : Phase crates → Bool
  | .registerPex _ _ | .registerCommit _ _ | .pexHandshake _ | .pexData _ | .pexBadFrame
  | .deregisterPex _ _ => true
  | _ => false

/-- The phase stands between a registry access and the access that mirrors it. -/
def Phase.isMirroring : Phase crates → Bool
  | .registerPex _ _ | .deregisterPex _ _ => true
  | _ => false

/-- No task stands between its registry access and the access that mirrors it. -/
def System.isSettled (sys : System crates) : Bool :=
  (sys.conns.all fun conn => !conn.phase.isMirroring) && sys.pruned.isEmpty

/-- The send is neither a notice of a peer's arrival or departure nor an exchange message. -/
def Send.isPlain : Send crates → Bool
  | .relay _ (.peerConnected _) => false
  | .relay _ (.peerDisconnected _) => false
  | .relay _ _ => true
  | .pex _ _ => false

/-- The message tells of a peer's arrival or departure. -/
def RelayMessage.isNotice : RelayMessage → Bool
  | .peerConnected _ => true
  | .peerDisconnected _ => true
  | _ => false

/-- The phase carries no notice of a peer's arrival or departure. -/
def Phase.isPlain : Phase crates → Bool
  | .strike replies => replies.all fun msg => !msg.isNotice
  | .forwardTo _ msg => !msg.isNotice
  | .broadcast _ _ msg => !msg.isNotice
  | _ => true

/-- What taking a frame leads to: the session stays, any answer is plain, and the exchange is
only entered by a handshake on a registered connection or by a later frame after one. -/
structure TakesFrame (frame : Frame crates) (conn conn' : Conn crates) : Prop where
  session : conn'.session = conn.session
  plain : conn'.phase.isPlain = true
  outbox : ∀ send ∈ conn'.outbox, send.isPlain = true
  phase : conn'.phase.isExchanging = true →
    (∃ msg, conn'.phase = .pexHandshake msg ∧ isPexFrame frame = true ∧ frame.pex = some msg ∧
        crates.isHandshake msg = true ∧ conn.session.peerId.isSome = true) ∨
      ((∃ msg, conn'.phase = .pexData msg) ∨ conn'.phase = .pexBadFrame) ∧
        conn.session.pexActive = true

/-- What a transition does to the view. -/
inductive Turn (setup : Setup) (sys : System crates) : Label crates → View crates → Prop
  | still (label : Label crates) : Turn setup sys label sys.view
  | arrived (addr : SocketAddr) (identity : Option String) :
      Turn setup sys (.accept addr identity)
        { sys.view with tasks := sys.view.tasks ++ [({}, [], .checkBan)] }
  | sent {c : ConnId} {clock : Clock} {conn : Conn crates} {send : Send crates}
      {rest : List (Send crates)} (hconn : sys.conns[c]? = some conn)
      (houtbox : conn.outbox = send :: rest) :
      Turn setup sys (.exec c clock) (sys.view.setTask c (conn.session, rest, conn.phase))
  | took {c : ConnId} {conn conn' : Conn crates} (frame : Frame crates) (clock : Clock)
      (hconn : sys.conns[c]? = some conn) (hphase : conn.phase = .idle)
      (houtbox : conn.outbox = []) (htakes : TakesFrame frame conn conn') :
      Turn setup sys (.message c frame clock) (sys.view.setTask c conn'.task)
  | moved {label : Label crates} {c : ConnId} {conn : Conn crates} {outbox : List (Send crates)}
      {phase : Phase crates} (hconn : sys.conns[c]? = some conn) (houtbox : conn.outbox = [])
      (hbefore : conn.phase.isExchanging = false) (hafter : phase.isExchanging = false)
      (hplain : ∀ send ∈ outbox, send.isPlain = true) :
      Turn setup sys label (sys.view.setTask c (conn.session, outbox, phase))
  | entered {c : ConnId} {clock : Clock} {conn : Conn crates} {request : RegisterRequest}
      {slot : Slot} {connectedPeers : ℕ} {targets : List (String × ConnId)} {relay : Relay crates}
      (hconn : sys.conns[c]? = some conn) (houtbox : conn.outbox = [])
      (hphase : conn.phase = .registerLocked request slot)
      (hverdict : registerVerdict setup.config (isClosed sys.conns) sys.relay request conn.identity
        conn.addr clock.unix c = .accepted connectedPeers targets relay) :
      Turn setup sys (.exec c clock)
        { sys.view.setTask c
            (conn.session,
              .relay c (.registerAck true "registered" connectedPeers) ::
                toTargets targets
                  (.peerConnected (registrantInfo crates request conn.addr clock.unix)),
              .registerPex request slot) with
          registry := relay.registry }
  | mirrored {c : ConnId} {clock : Clock} {conn : Conn crates} {request : RegisterRequest}
      {slot : Slot} (hconn : sys.conns[c]? = some conn) (houtbox : conn.outbox = [])
      (hphase : conn.phase = .registerPex request slot) :
      Turn setup sys (.exec c clock)
        { sys.view.setTask c (conn.session, [], .registerCommit request slot) with
          pex := sys.relay.pex.onRegister request.peerId request.networkId conn.addr c clock.ms }
  | committed {c : ConnId} {clock : Clock} {conn : Conn crates} {request : RegisterRequest}
      {slot : Slot} (hconn : sys.conns[c]? = some conn) (houtbox : conn.outbox = [])
      (hphase : conn.phase = .registerCommit request slot) :
      Turn setup sys (.exec c clock)
        (sys.view.setTask c
          ({ conn.session with peerId := some request.peerId, networkId := some request.networkId },
            [], .idle))
  | handshook {c : ConnId} {clock : Clock} {conn : Conn crates} {msg : crates.Message}
      {peerId networkId : String} (hconn : sys.conns[c]? = some conn) (houtbox : conn.outbox = [])
      (hphase : conn.phase = .pexHandshake msg) (hpeerId : conn.session.peerId = some peerId)
      (hnetworkId : conn.session.networkId = some networkId) :
      Turn setup sys (.exec c clock)
        { sys.view.setTask c
            ({ conn.session with pexActive := true },
              toSelfPex c
                ((sys.relay.pex.onRegister peerId networkId conn.addr c clock.ms).onNodeHandshake
                  peerId networkId msg clock.ms).1,
              .idle) with
          pex := ((sys.relay.pex.onRegister peerId networkId conn.addr c clock.ms).onNodeHandshake
            peerId networkId msg clock.ms).2 }
  | data {c : ConnId} {clock : Clock} {conn : Conn crates} {msg : crates.Message}
      (hconn : sys.conns[c]? = some conn) (houtbox : conn.outbox = [])
      (hphase : conn.phase = .pexData msg) :
      Turn setup sys (.exec c clock)
        { sys.view.setTask c
            (conn.session,
              toSelfPex c
                (sys.relay.pex.onNodeMessage (conn.session.peerId.getD "")
                  (conn.session.networkId.getD "") msg clock.ms).1,
              .idle) with
          pex := (sys.relay.pex.onNodeMessage (conn.session.peerId.getD "")
            (conn.session.networkId.getD "") msg clock.ms).2 }
  | badFrame {c : ConnId} {clock : Clock} {conn : Conn crates}
      (hconn : sys.conns[c]? = some conn) (houtbox : conn.outbox = [])
      (hphase : conn.phase = .pexBadFrame) :
      Turn setup sys (.exec c clock)
        { sys.view.setTask c
            (conn.session,
              toSelfPex c
                (sys.relay.pex.onNodeBadFrame (conn.session.peerId.getD "")
                  (conn.session.networkId.getD "") clock.ms).1,
              .idle) with
          pex := (sys.relay.pex.onNodeBadFrame (conn.session.peerId.getD "")
            (conn.session.networkId.getD "") clock.ms).2 }
  | removed {c : ConnId} {clock : Clock} {conn : Conn crates} {peerId networkId : String}
      {targets : List (String × ConnId)} {relay : Relay crates}
      (hconn : sys.conns[c]? = some conn) (houtbox : conn.outbox = [])
      (hphase : conn.phase = .deregister) (hpeerId : conn.session.peerId = some peerId)
      (hnetworkId : conn.session.networkId = some networkId)
      (hremove : removeLocked sys.relay peerId networkId = some (targets, relay)) :
      Turn setup sys (.exec c clock)
        { sys.view.setTask c
            (conn.session, toTargets targets (.peerDisconnected peerId),
              .deregisterPex peerId networkId) with
          registry := relay.registry }
  | unmirrored {c : ConnId} {clock : Clock} {conn : Conn crates} {peerId networkId : String}
      (hconn : sys.conns[c]? = some conn) (houtbox : conn.outbox = [])
      (hphase : conn.phase = .deregisterPex peerId networkId) :
      Turn setup sys (.exec c clock)
        { sys.view.setTask c (conn.session, [], .awaitWriter) with
          pex := sys.relay.pex.onUnregister peerId networkId }
  | swept (now : ℕ) (hdone : sys.pruned = []) :
      Turn setup sys (.sweep now)
        { sys.view with
          registry := (sweepLocked setup sys now).2.registry
          pruned := (sweepLocked setup sys now).1 }
  | noticed {peerId networkId : String} {target : String × ConnId}
      {targets : List (String × ConnId)} {rest : List PrunedPeer}
      (hpruned : sys.pruned = (peerId, networkId, target :: targets) :: rest) :
      Turn setup sys .sweepExec { sys.view with pruned := (peerId, networkId, targets) :: rest }
  | forgotten {peerId networkId : String} {rest : List PrunedPeer}
      (hpruned : sys.pruned = (peerId, networkId, []) :: rest) :
      Turn setup sys .sweepExec
        { sys.view with
          pex := sys.relay.pex.onUnregister peerId networkId
          pruned := rest }
  | ticked (nowMs : ℕ) :
      Turn setup sys (.pexTick nowMs) { sys.view with pex := (sys.relay.pex.tick nowMs).2 }
  | rehashed {registry : Registry} {engines : Table String crates.Engine}
      (hregistry : Table.Rehashed sys.relay.registry registry)
      (hengines : Table.Rehashed sys.relay.pex.engines engines) :
      Turn setup sys .rehash
        { sys.view with registry, pex := { sys.relay.pex with engines } }

variable {setup : Setup} {sys sys' : System crates} {label : Label crates} {c : ConnId}
  {conn : Conn crates}

/-- Replacing a connection replaces its task. -/
theorem view_set (sys : System crates) (relay : Relay crates) (c : ConnId) (conn : Conn crates) :
    System.view { sys with relay, conns := sys.conns.set c conn } =
      { sys.view.setTask c conn.task with registry := relay.registry, pex := relay.pex } := by
  simp only [System.view, View.setTask, List.map_set]

/-- A connection that keeps its task, and shared state that keeps registry and exchange, leave the
view as it is. -/
theorem view_of_tasks_eq (hregistry : sys'.relay.registry = sys.relay.registry)
    (hpex : sys'.relay.pex = sys.relay.pex)
    (htasks : sys'.conns.map Conn.task = sys.conns.map Conn.task)
    (hpruned : sys'.pruned = sys.pruned) : sys'.view = sys.view := by
  simp only [System.view, hregistry, hpex, htasks, hpruned]

/-- A relay send is plain when its message is no notice. -/
theorem isPlain_relay {tx : ConnId} {msg : RelayMessage} :
    (Send.relay tx msg : Send crates).isPlain = !msg.isNotice := by
  cases msg <;> rfl

/-- A decision on a message carries and answers no notice. -/
theorem carryOut_plain {msg : RelayMessage} (houtbox : conn.outbox = []) :
    let conn' := conn.carryOut c (dispatch conn.session msg)
    conn'.session = conn.session ∧ conn'.phase.isExchanging = false ∧ conn'.phase.isPlain = true ∧
      ∀ send ∈ conn'.outbox, send.isPlain = true := by
  unfold dispatch
  split
  · simp [Conn.carryOut, houtbox, Phase.isExchanging, Phase.isPlain]
  · split
    · simp [Conn.carryOut, toSelf, Phase.isExchanging, Phase.isPlain, Send.isPlain]
    · cases msg <;>
        simp [dispatchRegistered, Conn.carryOut, toSelf, houtbox, Phase.isExchanging, Phase.isPlain,
          Send.isPlain, RelayMessage.isNotice]

/-- Taking a parsed message carries and answers no notice. -/
theorem intercept_plain (c : ConnId) (msg : RelayMessage) (houtbox : conn.outbox = []) :
    let conn' := conn.intercept c msg
    conn'.session = conn.session ∧ conn'.phase.isExchanging = false ∧ conn'.phase.isPlain = true ∧
      ∀ send ∈ conn'.outbox, send.isPlain = true := by
  unfold Conn.intercept
  split
  · simp [houtbox, Phase.isExchanging, Phase.isPlain]
  · exact carryOut_plain houtbox

/-- Taking a frame on a waiting connection. -/
theorem takeFrame_spec {config : RelayServerConfig} {frame : Frame crates} {clock : Clock}
    (hphase : conn.phase = .idle) (houtbox : conn.outbox = []) :
    TakesFrame frame conn (conn.takeFrame config c frame clock) := by
  dsimp only [Conn.takeFrame]
  split
  · exact ⟨rfl, rfl, by simp [houtbox], by simp [Phase.isExchanging]⟩
  · split
    · rename_i hpex
      unfold Conn.takePexFrame
      split
      · refine ⟨rfl, by simp [hphase, Phase.isPlain], ?_, by simp [hphase, Phase.isExchanging]⟩
        simp [toSelf, Send.isPlain]
      · rename_i msg hdispatch
        obtain ⟨hsome, hdecoded, hhandshake⟩ := pexDispatch_handshake hdispatch
        exact ⟨rfl, rfl, by simp [houtbox], fun _ => .inl ⟨msg, rfl, hpex, hdecoded, hhandshake, hsome⟩⟩
      · rename_i msg hdispatch
        exact ⟨rfl, rfl, by simp [houtbox],
          fun _ => .inr ⟨.inl ⟨msg, rfl⟩, pexDispatch_active (.inl ⟨msg, hdispatch⟩)⟩⟩
      · rename_i hdispatch
        exact ⟨rfl, rfl, by simp [houtbox],
          fun _ => .inr ⟨.inr rfl, pexDispatch_active (.inr hdispatch)⟩⟩
      · exact ⟨rfl, by simp [hphase, Phase.isPlain], by simp [houtbox],
          by simp [hphase, Phase.isExchanging]⟩
    · split
      · exact ⟨rfl, rfl, by simp [houtbox], by simp [Phase.isExchanging]⟩
      · refine ⟨rfl, by simp [hphase, Phase.isPlain], ?_, by simp [hphase, Phase.isExchanging]⟩
        simp [toSelf, Send.isPlain]

/-- A refusal is no notice. -/
theorem registerVerdict_refused_plain {config : RelayServerConfig} {closed : ConnId → Bool}
    {relay : Relay crates} {request : RegisterRequest} {identity : Option String}
    {addr : SocketAddr} {unix : ℕ} {replies : List RelayMessage}
    (h : registerVerdict config closed relay request identity addr unix c = .refused replies) :
    ∀ send ∈ (toSelf c replies : List (Send crates)), send.isPlain = true := by
  unfold registerVerdict at h
  split at h
  · obtain rfl := Verdict.refused.inj h
    simp [toSelf, identityRefusal, refusal, Send.isPlain]
  · split at h
    · obtain rfl := Verdict.refused.inj h
      simp [toSelf, capacityRefusal, refusal, Send.isPlain]
    · split at h
      · obtain rfl := Verdict.refused.inj h
        simp [toSelf, occupiedRefusal, refusal, Send.isPlain]
      · cases h
      · cases h

/-- An access that keeps session, registry and exchange, leaves the phases of the exchange alone
and queues plain sends only. -/
theorem Turn.of_access {conn' : Conn crates} {relay' : Relay crates}
    (hconn : sys.conns[c]? = some conn) (houtbox : conn.outbox = [])
    (hbefore : conn.phase.isExchanging = false)
    (hregistry : relay'.registry = sys.relay.registry) (hpex : relay'.pex = sys.relay.pex)
    (hsession : conn'.session = conn.session) (hafter : conn'.phase.isExchanging = false)
    (hplain : ∀ send ∈ conn'.outbox, send.isPlain = true) :
    Turn setup sys label
      (System.view { sys with relay := relay', conns := sys.conns.set c conn' }) := by
  rw [view_set, hregistry, hpex]
  have hmoved : Turn setup sys label _ := .moved hconn houtbox hbefore hafter hplain
  rwa [← hsession] at hmoved

/-- What each shared access does to the view. -/
theorem access_turn {clock : Clock} {conn' : Conn crates} {relay' : Relay crates}
    (hwf : conn.WellFormed) (hplain : conn.phase.isPlain = true)
    (hconn : sys.conns[c]? = some conn) (houtbox : conn.outbox = [])
    (h : access setup clock (isClosed sys.conns) c sys.relay conn = some (relay', conn')) :
    Turn setup sys (.exec c clock)
      (System.view { sys with relay := relay', conns := sys.conns.set c conn' }) := by
  have hphased := hwf.phased
  obtain ⟨phase, hphase, haccess⟩ := access_cases h
  rw [hphase] at hplain hphased
  have hsame (hbefore : phase.isExchanging = false) (hafter : conn'.phase.isExchanging = false)
      (hregistry : relay'.registry = sys.relay.registry) (hpex : relay'.pex = sys.relay.pex)
      (hsession : conn'.session = conn.session)
      (hsends : ∀ send ∈ conn'.outbox, send.isPlain = true) :
      Turn setup sys (.exec c clock)
        (System.view { sys with relay := relay', conns := sys.conns.set c conn' }) :=
    .of_access hconn houtbox (hphase ▸ hbefore) hregistry hpex hsession hafter hsends
  cases haccess with
  | mirrored =>
    rw [view_set]
    simp only [Conn.task, houtbox]
    exact .mirrored hconn houtbox hphase
  | committed =>
    rw [view_set]
    simp only [Conn.task, commitAccess, houtbox]
    exact .committed hconn houtbox hphase
  | unmirrored =>
    rw [view_set]
    simp only [Conn.task, houtbox]
    exact .unmirrored hconn houtbox hphase
  | handshook =>
    obtain ⟨peerId, hpeerId⟩ := Option.isSome_iff_exists.mp hphased
    obtain ⟨networkId, hnetworkId⟩ := Option.isSome_iff_exists.mp (hwf.paired ▸ hphased)
    obtain rfl : peerId = conn.session.peerId.getD "" := by rw [hpeerId]; rfl
    obtain rfl : networkId = conn.session.networkId.getD "" := by rw [hnetworkId]; rfl
    rw [view_set]
    exact .handshook hconn houtbox hphase hpeerId hnetworkId
  | data =>
    rw [view_set]
    exact .data hconn houtbox hphase
  | badFrame =>
    rw [view_set]
    exact .badFrame hconn houtbox hphase
  | entered hverdict =>
    have hpex : relay'.pex = sys.relay.pex := by
      obtain ⟨-, -, -, -, hrelay⟩ := registerVerdict_accepted hverdict
      rcases hrelay with ⟨-, hrelay⟩ | ⟨-, hrelay⟩ <;> rw [hrelay]
    rw [view_set, hpex]
    have hturn : Turn setup sys (.exec c clock) _ := .entered hconn houtbox hphase hverdict
    exact hturn
  | removed hpeerId hnetworkId hremove =>
    have hpex : relay'.pex = sys.relay.pex := by
      obtain ⟨-, hrelay, -⟩ := removeLocked_some hremove
      rw [hrelay]
    rw [view_set, hpex]
    have hturn : Turn setup sys (.exec c clock) _ :=
      .removed hconn houtbox hphase hpeerId hnetworkId hremove
    exact hturn
  | @recorded msg =>
    obtain ⟨hregistry, -, hpex, -⟩ := recordRelayed_frame sys.relay msg
    exact hsame rfl rfl hregistry hpex rfl (by simp [houtbox])
  | @intercepted msg =>
    obtain ⟨hregistry, -, hpex, -⟩ := recordDhtAnswer_frame sys.relay conn.session msg
    obtain ⟨hsession, hafter, -, hsends⟩ := intercept_plain c msg houtbox
    exact hsame rfl hafter hregistry hpex hsession hsends
  | struck =>
    refine hsame rfl rfl rfl rfl rfl ?_
    simpa [toSelf, isPlain_relay, Phase.isPlain] using hplain
  | listed | notFound => exact hsame rfl rfl rfl rfl rfl (by simp [toSelf, Send.isPlain])
  | forwarded =>
    refine hsame rfl rfl rfl rfl rfl ?_
    simpa [isPlain_relay, Phase.isPlain] using hplain
  | broadcast =>
    refine hsame rfl rfl rfl rfl rfl fun send hsend => ?_
    obtain ⟨target, -, rfl⟩ := List.mem_map.mp hsend
    rw [isPlain_relay]
    exact hplain
  | notEntered hverdict => exact hsame rfl rfl rfl rfl rfl (registerVerdict_refused_plain hverdict)
  | _ => exact hsame rfl rfl rfl rfl rfl (by simp [houtbox])

/-- Every connection's phase carries no notice. -/
def System.Plain (sys : System crates) : Prop := ∀ conn ∈ sys.conns, conn.phase.isPlain = true

/-- No access begins to carry a notice. -/
theorem access_plain {clock : Clock} {closed : ConnId → Bool} {relay relay' : Relay crates}
    {conn' : Conn crates} (houtbox : conn.outbox = [])
    (h : access setup clock closed c relay conn = some (relay', conn')) :
    conn'.phase.isPlain = true := by
  obtain ⟨phase, -, haccess⟩ := access_cases h
  cases haccess with
  | intercepted => exact (intercept_plain c _ houtbox).2.2.1
  | _ => rfl

/-- Every transition keeps every phase free of notices. -/
theorem next_plain (hplain : sys.Plain) (h : Next setup sys label sys') : sys'.Plain := by
  have hset {c : ConnId} {conn' : Conn crates} (hconn' : conn'.phase.isPlain = true) :
      ∀ conn ∈ sys.conns.set c conn', conn.phase.isPlain = true := by
    intro conn hmem
    rcases List.mem_or_eq_of_mem_set hmem with hold | rfl
    · exact hplain conn hold
    · exact hconn'
  have hphases {conns conns' : List (Conn crates)}
      (hsame : conns'.map Conn.phase = conns.map Conn.phase)
      (hconns : ∀ conn ∈ conns, conn.phase.isPlain = true) :
      ∀ conn ∈ conns', conn.phase.isPlain = true := by
    intro conn hmem
    have hphase : conn.phase ∈ conns.map Conn.phase := hsame ▸ List.mem_map_of_mem hmem
    obtain ⟨old, hold, heq⟩ := List.mem_map.mp hphase
    rw [← heq]
    exact hconns old hold
  have hdeliver (send : Send crates) (conns : List (Conn crates)) :
      (deliver send conns).map Conn.phase = conns.map Conn.phase :=
    deliver_map Conn.phase (fun _ _ => rfl) (fun _ _ => rfl) send conns
  have hkept {c : ConnId} {conn conn' : Conn crates} (hconn : sys.conns[c]? = some conn)
      (hphase : conn'.phase = conn.phase) :
      ∀ conn ∈ sys.conns.set c conn', conn.phase.isPlain = true :=
    hset (hphase ▸ hplain conn (List.mem_of_getElem? hconn))
  cases next_move h with
  | accepted addr identity =>
    intro conn hmem
    rcases List.mem_append.mp hmem with hold | hnew
    · exact hplain conn hold
    · rw [List.mem_singleton.mp hnew]
      rfl
  | sent hconn houtbox =>
    exact hphases (hdeliver _ _) (hkept hconn rfl)
  | accessed hconn houtbox haccess => exact hset (access_plain houtbox haccess)
  | head outcome clock hconn hphase houtbox => exact hset (by cases outcome <;> rfl)
  | message frame clock hconn hphase houtbox => exact hset (takeFrame_spec hphase houtbox).plain
  | control hconn => exact hkept hconn rfl
  | hangup hconn => exact hset rfl
  | wrote hback hconn | closed hback hconn => exact hkept hconn rfl
  | noticed hpruned => exact hphases (by rw [hdeliver]) hplain
  | background sends =>
    exact hphases (deliverAll_map Conn.phase (fun _ _ => rfl) (fun _ _ => rfl) _ _) hplain
  | swept | forgotten | rehashed => exact hplain

/-- In every reachable state every phase is free of notices. -/
theorem plain_of_reachable (h : IsReachable setup sys) : sys.Plain :=
  h.invariant System.Plain (by simp [System.Plain, System.new]) fun _ _ _ _ hplain hnext =>
    next_plain hplain hnext

/-- What each transition does to the view. -/
theorem next_turn (hwf : sys.WellFormed) (hplain : sys.Plain) (h : Next setup sys label sys') :
    Turn setup sys label sys'.view := by
  have hstill (hregistry : sys'.relay.registry = sys.relay.registry)
      (hpex : sys'.relay.pex = sys.relay.pex)
      (htasks : sys'.conns.map Conn.task = sys.conns.map Conn.task)
      (hpruned : sys'.pruned = sys.pruned) : Turn setup sys label sys'.view := by
    rw [view_of_tasks_eq hregistry hpex htasks hpruned]
    exact .still label
  by_cases hlabel : label.isBackground = true
  · cases next_background h hlabel with
    | wrote hconn | finished hconn => exact hstill rfl rfl (map_set_of_eq Conn.task hconn rfl) rfl
    | asked => exact hstill rfl rfl (by rw [tasks_deliver]) rfl
    | asking | built | stunned => exact hstill rfl rfl rfl rfl
    | ticked nowMs =>
      simp only [System.view, deliverAll_map Conn.task (fun _ _ => rfl) (fun _ _ => rfl)]
      exact .ticked nowMs
  · cases next_move h with
    | wrote hback | closed hback | background _ hback => exact absurd hback hlabel
    | accepted addr identity =>
      have hturn : Turn setup sys (.accept addr identity) _ := .arrived addr identity
      simpa [System.view, Conn.task, Conn.accepted] using hturn
    | @sent c clock conn send rest hconn houtbox =>
      simp only [System.view, tasks_deliver, List.map_set]
      have hturn : Turn setup sys (.exec c clock) _ := .sent hconn houtbox
      exact hturn
    | accessed hconn houtbox haccess =>
      have hmem := List.mem_of_getElem? hconn
      exact access_turn (hwf _ hmem) (hplain _ hmem) hconn houtbox haccess
    | head outcome clock hconn hphase houtbox =>
      have hbefore := congrArg Phase.isExchanging hphase
      cases outcome <;> exact .of_access hconn houtbox hbefore rfl rfl rfl rfl
        (by simp [Conn.takeHead, Conn.upgrade, houtbox])
    | message frame clock hconn hphase houtbox =>
      simp only [System.view, System.setConn, List.map_set]
      exact .took frame clock hconn hphase houtbox (takeFrame_spec hphase houtbox)
    | control hconn => exact hstill rfl rfl (map_set_of_eq Conn.task hconn rfl) rfl
    | hangup hconn hphase houtbox =>
      have hbefore := congrArg Phase.isExchanging hphase
      exact .of_access hconn houtbox hbefore rfl rfl rfl rfl (by simp [houtbox])
    | swept now hdone =>
      have hpex : (sweepLocked setup sys now).2.pex = sys.relay.pex := by
        rw [sweepLocked, pruneLocked_frame]
      simp only [System.view, hpex]
      exact .swept now hdone
    | noticed hpruned =>
      simp only [System.view, tasks_deliver]
      exact .noticed hpruned
    | forgotten hpruned => exact .forgotten hpruned
    | rehashed hrehash =>
      obtain ⟨registry, engines, _, _, _, hregistry, hengines, -, -, -, rfl⟩ := hrehash
      exact .rehashed hregistry hengines

end DigRelay
