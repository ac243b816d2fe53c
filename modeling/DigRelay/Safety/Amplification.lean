import DigRelay.Safety.Counter
import DigRelay.Server.Script
import DigRelay.Server.Tasks

/-!
# How much one frame can cause

A frame is answered with a few messages, passed on to one peer, or fanned out to the peers of one
network, of which there are never more than the capacity. A connection that goes away is announced to
them once. So however a client behaves, the number of messages it makes the relay send is at most a
fixed multiple of the number of frames it sends, and one announcement.
-/

namespace DigRelay

open Common

variable {crates : Crates} {setup : Setup} {sys sys' : System crates} {label : Label crates}
  {c d : ConnId} {conn conn' : Conn crates}

/-- The send is one on the relay wire. -/
def Send.isRelay : Send crates → Bool
  | .relay _ _ => true
  | .pex _ _ => false

/-- The most messages that one frame causes: one per record, or the two of a refusal. -/
def Setup.fanout (setup : Setup) : ℕ := max setup.config.maxConnections.toNat 2

/-- The most messages that a task in this phase sends before it waits for the next frame, and those of
its teardown. -/
def Phase.potential (setup : Setup) : Phase crates → ℕ
  | .strike replies => replies.length + setup.config.maxConnections.toNat
  | .record _ => setup.fanout + setup.config.maxConnections.toNat
  | .intercept _ => setup.fanout + setup.config.maxConnections.toNat
  | .getPeers _ => setup.fanout + setup.config.maxConnections.toNat
  | .forwardTo _ _ => setup.fanout + setup.config.maxConnections.toNat
  | .broadcast _ _ _ => setup.fanout + setup.config.maxConnections.toNat
  | .registerLoad _ => setup.fanout + setup.config.maxConnections.toNat
  | .registerRate _ _ => setup.fanout + setup.config.maxConnections.toNat
  | .registerCap _ _ => setup.fanout + setup.config.maxConnections.toNat
  | .registerLocked _ _ => setup.fanout + setup.config.maxConnections.toNat
  | .deregisterPex _ _ => 0
  | .awaitWriter => 0
  | .dropReg => 0
  | .dropConn => 0
  | .dropOpen => 0
  | .ended => 0
  | _ => setup.config.maxConnections.toNat

/-- The potential of a connection, whether it has been accepted yet or not. -/
def System.potential (setup : Setup) (sys : System crates) (c : ConnId) : ℕ :=
  (sys.conns[c]?.map fun conn => conn.phase.potential setup).getD setup.config.maxConnections.toNat

/-- The relay messages that a transition queues for a connection's task. -/
def queuedRelay (c : ConnId) (t : System crates × Label crates × System crates) : List (Send crates) :=
  (queued c t).filter Send.isRelay

/-- The transition is a frame of the connection. -/
def isFrameOf (c : ConnId) (t : System crates × Label crates × System crates) : Bool :=
  match t.2.1 with
  | .message d _ _ => d = c
  | _ => false

/-- One frame causes at least two messages' worth, for a refusal, and one per record. -/
theorem fanout_bounds (setup : Setup) :
    2 ≤ setup.fanout ∧ setup.config.maxConnections.toNat ≤ setup.fanout :=
  ⟨le_max_right _ _, le_max_left _ _⟩

section Sends

theorem length_filter_toSelf_le (c : ConnId) (msgs : List RelayMessage) :
    ((toSelf c msgs : List (Send crates)).filter Send.isRelay).length ≤ msgs.length := by
  refine (List.length_filter_le _ _).trans ?_
  rw [toSelf, List.length_map]

theorem length_filter_toTargets_le (targets : List (String × ConnId)) (msg : RelayMessage) :
    ((toTargets targets msg : List (Send crates)).filter Send.isRelay).length ≤ targets.length := by
  refine (List.length_filter_le _ _).trans ?_
  rw [toTargets, List.length_map]

@[simp] theorem filter_isRelay_toSelfPex (c : ConnId) (msgs : List crates.Message) :
    (toSelfPex c msgs : List (Send crates)).filter Send.isRelay = [] := by
  simp [toSelfPex, Send.isRelay]

/-- A fan-out has no more targets than there are records. -/
theorem length_broadcastTargets_le (reg : Registry) (sender networkId : String) (exclude : List String) :
    (reg.broadcastTargets sender networkId exclude).length ≤ reg.size := by
  rw [Registry.broadcastTargets, List.length_map]
  refine (List.length_filter_le _ _).trans ?_
  rw [Table.toPairs, List.length_map, Table.size]

/-- A fan-out of a sender that has a record leaves that record out. -/
theorem length_broadcastTargets_lt {reg : Registry} {sender : String} {peer : Peer}
    (h : reg.lookup sender = some peer) (networkId : String) (exclude : List String) :
    (reg.broadcastTargets sender networkId exclude).length < reg.size := by
  have hmem := (reg.mem_toPairs_iff sender peer).mpr h
  have hsize : reg.toPairs.length = reg.size := List.length_map _
  rw [Registry.broadcastTargets, List.length_map, ← hsize]
  exact List.length_filter_lt_length_iff_exists.mpr ⟨(sender, peer), hmem, by simp⟩

end Sends

/-- A message is answered with one message at most. -/
theorem length_replies_le {session : Session} {msg : RelayMessage} {replies : List RelayMessage}
    (h : dispatch session msg = .replyToSelf replies) : replies.length ≤ 1 := by
  unfold dispatch at h
  split at h
  · cases h
  · split at h
    · cases h
    · cases msg <;> cases h <;> exact le_rfl

/-- A task that takes a parsed message stays within what a frame may cause. -/
theorem intercept_potential {msg : RelayMessage} (houtbox : conn.outbox = []) :
    ((conn.intercept c msg).outbox.filter Send.isRelay).length + (conn.intercept c msg).phase.potential setup ≤
      setup.fanout + setup.config.maxConnections.toNat := by
  have htwo := (fanout_bounds setup).1
  have hself {msgs : List RelayMessage} (hone : msgs.length ≤ 1) :
      ((toSelf c msgs : List (Send crates)).filter Send.isRelay).length + setup.config.maxConnections.toNat ≤
        setup.fanout + setup.config.maxConnections.toNat := by
    have hlength : ((toSelf c msgs : List (Send crates)).filter Send.isRelay).length ≤ msgs.length :=
      length_filter_toSelf_le c msgs
    omega
  unfold Conn.intercept
  split
  · simp [houtbox, Phase.potential]
  · cases haction : dispatch conn.session msg with
    | replyToSelf msgs => exact hself (length_replies_le haction)
    | error code message => exact hself le_rfl
    | _ => simp [Conn.carryOut, houtbox, Phase.potential]

/-- A task that takes a frame stays within what a frame may cause. -/
theorem takeFrame_potential {frame : Frame crates} {clock : Clock} (hphase : conn.phase = .idle)
    (houtbox : conn.outbox = []) :
    ((conn.takeFrame setup.config c frame clock).outbox.filter Send.isRelay).length +
        (conn.takeFrame setup.config c frame clock).phase.potential setup ≤
      setup.fanout + setup.config.maxConnections.toNat := by
  have htwo := (fanout_bounds setup).1
  have hself (msg : RelayMessage) :
      ((toSelf c [msg] : List (Send crates)).filter Send.isRelay).length ≤ 1 := length_filter_toSelf_le c [msg]
  dsimp only [Conn.takeFrame]
  split
  · simp [houtbox, Phase.potential]
  · split
    · unfold Conn.takePexFrame
      split
      · have hone := hself (.error ErrCode.notRegistered "register before sending PEX (RLY-001)")
        simp only [hphase, Phase.potential]
        omega
      all_goals simp [houtbox, hphase, Phase.potential]
    · split
      · simp [houtbox, Phase.potential]
      · have hone := hself (.error ErrCode.badMessage "invalid relay JSON")
        simp only [hphase, Phase.potential]
        omega

/-- The replies of a refused registration are two. -/
theorem length_refused {config : RelayServerConfig} {closed : ConnId → Bool}
    {relay : Relay crates} {request : RegisterRequest} {identity : Option String} {addr : SocketAddr}
    {unix : ℕ} {replies : List RelayMessage}
    (h : registerVerdict config closed relay request identity addr unix c = .refused replies) :
    replies.length = 2 := by
  unfold registerVerdict at h
  split at h
  · cases h
    rfl
  · split at h
    · cases h
      rfl
    · split at h <;> cases h
      rfl

/-- A shared access uses up potential for what it queues. -/
theorem access_potential {clock : Clock} {relay' : Relay crates} (hcounted : sys.Counted setup)
    (houtbox : conn.outbox = [])
    (h : access setup clock (isClosed sys.conns) c sys.relay conn = some (relay', conn')) :
    (conn'.outbox.filter Send.isRelay).length + conn'.phase.potential setup ≤ conn.phase.potential setup := by
  obtain ⟨htwo, hmax⟩ := fanout_bounds setup
  have hself (msgs : List RelayMessage) :
      ((toSelf c msgs : List (Send crates)).filter Send.isRelay).length ≤ msgs.length :=
    length_filter_toSelf_le c msgs
  have htargets (targets : List (String × ConnId)) (msg : RelayMessage) :
      ((toTargets targets msg : List (Send crates)).filter Send.isRelay).length ≤ targets.length :=
    length_filter_toTargets_le targets msg
  have hsize := hcounted.2
  obtain ⟨phase, hphase, haccess⟩ := access_cases h
  rw [hphase]
  cases haccess with
  | struck =>
    have hreplies := hself ‹_›
    simp only [Phase.potential]
    omega
  | intercepted => exact intercept_potential houtbox
  | @listed networkId =>
    have hone := hself [.peers (sys.relay.registry.peers networkId)]
    simp only [Phase.potential]
    rw [List.length_singleton] at hone
    omega
  | forwarded =>
    simp only [Phase.potential, List.filter_cons, List.filter_nil, Send.isRelay, if_true, List.length_singleton]
    omega
  | @notFound target =>
    have hone := hself [.error ErrCode.peerNotFound ("peer " ++ target ++ " not connected to this relay")]
    simp only [Phase.potential]
    rw [List.length_singleton] at hone
    omega
  | @broadcast sender networkId exclude msg =>
    have hall := htargets (sys.relay.registry.broadcastTargets sender networkId exclude) msg
    have hless := length_broadcastTargets_le sys.relay.registry sender networkId exclude
    simp only [Phase.potential]
    omega
  | notAllowed | notReserved =>
    simp only [Phase.potential, houtbox, rateRefusal, capRefusal, refusal, List.filter_nil, List.length_nil,
      List.length_cons]
    omega
  | @entered request slot connectedPeers targets _ hverdict =>
    obtain ⟨-, -, hregistry, htargetsEq, -⟩ := registerVerdict_accepted hverdict
    have hall := htargets targets (.peerConnected (registrantInfo crates request conn.addr clock.unix))
    have hown : relay'.registry.lookup request.peerId = some (registrant crates request conn.addr clock.unix c) := by
      rw [hregistry, AList.lookup_insert]
    have hless := length_broadcastTargets_lt hown request.networkId []
    rw [← htargetsEq] at hless
    have hroom := (registerVerdict_counted hcounted hverdict).2
    simp only [Phase.potential, List.filter_cons, Send.isRelay, if_true, List.length_cons]
    omega
  | notEntered hverdict =>
    have hreplies := hself ‹_›
    rw [length_refused hverdict] at hreplies
    simp only [Phase.potential]
    omega
  | @removed peerId networkId targets _ _ _ hremove =>
    obtain ⟨⟨peer, hpeer⟩, hrelay, htargetsEq⟩ := removeLocked_some hremove
    have hall := htargets targets (.peerDisconnected peerId)
    have hless := length_broadcastTargets_le relay'.registry peerId networkId []
    have herase := Table.size_erase_of_some hpeer
    have hregistry : relay'.registry = sys.relay.registry.erase peerId := by rw [hrelay]
    rw [← htargetsEq, hregistry] at hless
    simp only [Phase.potential]
    omega
  | handshook | data | badFrame => simp [handshakeAccess, Phase.potential]
  | _ => simp [houtbox, commitAccess, Phase.potential]

/-- What a transition queues for a connection is paid for by its potential or by a frame. -/
theorem next_potential (hcounted : sys.Counted setup) (h : Next setup sys label sys') :
    (queuedRelay d (sys, label, sys')).length + sys'.potential setup d ≤
      sys.potential setup d + if isFrameOf d (sys, label, sys') then setup.fanout else 0 := by
  cases hconn : sys.conns[d]? with
  | none =>
    have hbefore : sys.potential setup d = setup.config.maxConnections.toNat := by
      rw [System.potential, hconn]
      rfl
    rcases next_conn_of_none hconn h with hstill | ⟨addr, identity, haccepted⟩
    · have hqueued : queuedRelay d (sys, label, sys') = [] := by
        simp [queuedRelay, queued, System.pending, hconn, hstill]
      rw [hqueued, hbefore, System.potential, hstill]
      simp
    · have hqueued : queuedRelay d (sys, label, sys') = [] := by
        simp [queuedRelay, queued, System.pending, hconn, haccepted, Conn.accepted]
      rw [hqueued, hbefore, System.potential, haccepted]
      simp [Conn.accepted, Phase.potential]
  | some conn =>
    obtain ⟨conn', hconn', hmove⟩ := next_taskMove hconn h
    have hbefore : sys.potential setup d = conn.phase.potential setup := by
      rw [System.potential, hconn]
      rfl
    have hafter : sys'.potential setup d = conn'.task.2.2.potential setup := by
      rw [System.potential, hconn']
      rfl
    have hqueued : queuedRelay d (sys, label, sys') =
        if conn.outbox = [] then conn'.task.2.1.filter Send.isRelay else [] := by
      rw [queuedRelay, queued, pending_of_outbox hconn, pending_of_outbox hconn']
      split <;> rfl
    rw [hbefore, hafter, hqueued]
    generalize conn'.task = task at hmove
    cases hmove with
    | still =>
      split
      · rename_i houtbox
        simp [Conn.task, houtbox]
      · simp [Conn.task]
    | sent houtbox => simp [houtbox]
    | accessed houtbox haccess =>
      rw [if_pos houtbox]
      exact (access_potential hcounted houtbox haccess).trans (Nat.le_add_right _ _)
    | head hphase houtbox =>
      rw [hphase]
      split <;> split <;> simp [Phase.potential]
    | message hphase houtbox =>
      have hframe (frame : Frame crates) (clock : Clock) :
          isFrameOf d (sys, .message d frame clock, sys') = true := decide_eq_true rfl
      rw [if_pos houtbox, hframe, if_pos rfl, hphase, Nat.add_comm (Phase.potential setup .idle)]
      exact takeFrame_potential hphase houtbox
    | control hphase houtbox => simp [Conn.task, houtbox]
    | hangup hphase houtbox => simp [hphase, Phase.potential]

/-- Along every run, the number of messages that a connection makes the relay send is at most one per
record, or two if there is room for one alone, for each frame it has sent, and once more one per record
for its teardown. -/
theorem run_queuedRelay_le {trace : List (System crates × Label crates × System crates)}
    (hrun : Run setup trace sys) (d : ConnId) :
    ((trace.flatMap (queued d)).filter Send.isRelay).length ≤
      setup.fanout * trace.countP (isFrameOf d) + setup.config.maxConnections.toNat := by
  have hbound := hrun.length_flatMap_le (queuedRelay d) (isFrameOf d) setup.fanout (System.potential setup · d)
    fun _ _ _ hreach hnext => next_potential (counted_of_reachable hreach) hnext
  have hstart : (System.new crates).potential setup d = setup.config.maxConnections.toNat := rfl
  rw [List.filter_flatMap]
  rw [hstart] at hbound
  exact (Nat.le_add_right _ _).trans (hbound.trans_eq (Nat.add_comm _ _))

/-- A relay with room for two peers. -/
def pairSetup : Setup := ⟨{ maxConnections := 2, maxConnectionsPerIp := 2 }, false⟩

/-- Two peers register, and the second sends a broadcast: an acknowledgement, the notice of its arrival
and the broadcast, for two frames. -/
theorem run_queuedRelay_le_pair :
    ∃ trace sys, @Run silentCrates pairSetup trace sys ∧
      ((trace.flatMap (queued 1)).filter Send.isRelay).length = 3 ∧ trace.countP (isFrameOf 1) = 2 ∧
      ((trace.flatMap (queued 1)).filter Send.isRelay).length ≤
        pairSetup.fanout * trace.countP (isFrameOf 1) + pairSetup.config.maxConnections.toNat := by
  obtain ⟨trace, sys, hrun, hcounts⟩ := @exists_traced_run silentCrates pairSetup
    (Script.connect 0 0 ++ Script.connect 1 0 ++ Script.register 0 "p" "net" 0 0 ++ Script.register 1 "q" "net" 0 1 ++
      Script.send 1 (.broadcast "q" [1] []) 0 4)
    (fun trace _ => ((trace.flatMap (queued 1)).filter Send.isRelay).length = 3 ∧
      trace.countP (isFrameOf 1) = 2) (by decide +kernel)
  obtain ⟨hqueued, hframes⟩ := of_decide_eq_true hcounts
  exact ⟨trace, sys, hrun, hqueued, hframes, run_queuedRelay_le hrun 1⟩

end DigRelay
