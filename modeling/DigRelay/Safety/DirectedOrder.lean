import DigRelay.Safety.DeliveryOrder
import DigRelay.Server.Script

/-!
# Messages from peer to peer arrive in order

A peer has another one told something by a gossip message, by a request to punch a hole, or by the
outcome of one. The task of its connection handles one frame at a time and passes each of these on at
most once. So what a socket is sent of them is, for each connection they come from, a part of what that
connection has sent in, in the same order: nothing is made up, repeated or overtaken.
-/

namespace DigRelay

open Common

variable {crates : Crates} {setup : Setup} {sys sys' : System crates} {label : Label crates}
  {c d : ConnId} {conn conn' : Conn crates}

/-- What one peer has another one told. -/
inductive Directed
  | gossip (target : String) (payload : List UInt8) (seq : UInt64)
  | punch (externalAddr : SocketAddr)
  | result (peerId : String) (success : Bool)
  deriving DecidableEq

/-- What an inbound message asks to be passed on. -/
def RelayMessage.asked : RelayMessage → Option Directed
  | relayGossipMessage _ target payload seq => some (.gossip target payload seq)
  | holePunchRequest _ _ externalAddr => some (.punch externalAddr)
  | holePunchResult peerId success => some (.result peerId success)
  | _ => none

/-- What an outbound message passes on. -/
def RelayMessage.carried : RelayMessage → Option Directed
  | relayGossipMessage _ target payload seq => some (.gossip target payload seq)
  | holePunchCoordinate _ externalAddr => some (.punch externalAddr)
  | holePunchResult peerId success => some (.result peerId success)
  | _ => none

/-- What a decision passes on. -/
def Action.carried : Action → List Directed
  | .replyToSelf msgs => msgs.filterMap RelayMessage.carried
  | .forwardTo _ msg => msg.carried.toList
  | _ => []

/-- What a send passes on. -/
def Send.carried : Send crates → Option Directed
  | .relay _ msg => msg.carried
  | .pex _ _ => none

/-- What a phase still has to pass on. -/
def Phase.carried : Phase crates → List Directed
  | .strike replies => replies.filterMap RelayMessage.carried
  | .record msg => msg.asked.toList
  | .intercept msg => msg.asked.toList
  | .forwardTo _ msg => msg.carried.toList
  | _ => []

/-- What a task still has to pass on. -/
def taskCarried (task : Session × List (Send crates) × Phase crates) : List Directed :=
  task.2.1.filterMap Send.carried ++ task.2.2.carried

/-- What a connection still has to pass on. -/
def System.carried (sys : System crates) (c : ConnId) : List Directed :=
  (sys.conns[c]?.map fun conn => taskCarried conn.task).getD []

/-- What an origin is asked to pass on by a transition. -/
def askedOf (origin : Origin) (t : System crates × Label crates × System crates) : List Directed :=
  match origin, t.2.1 with
  | .task d, .message c frame _ => if c = d then (frame.relay.bind RelayMessage.asked).toList else []
  | _, _ => []

/-- A task that fans a message out passes nothing on with it. -/
def PlainFanout (task : Session × List (Send crates) × Phase crates) : Prop :=
  ∀ sender exclude msg, task.2.2 = .broadcast sender exclude msg → msg.carried = none

section Sends

@[simp] theorem filterMap_carried_toSelf (c : ConnId) (msgs : List RelayMessage) :
    (toSelf c msgs : List (Send crates)).filterMap Send.carried = msgs.filterMap RelayMessage.carried := by
  rw [toSelf, List.filterMap_map]
  rfl

@[simp] theorem filterMap_carried_toSelfPex (c : ConnId) (msgs : List crates.Message) :
    (toSelfPex c msgs : List (Send crates)).filterMap Send.carried = [] := by
  simp [toSelfPex, Send.carried]

@[simp] theorem carried_relay (tx : ConnId) (msg : RelayMessage) :
    (Send.relay tx msg : Send crates).carried = msg.carried := rfl

theorem filterMap_carried_toTargets (targets : List (String × ConnId)) {msg : RelayMessage}
    (h : msg.carried = none) :
    (toTargets targets msg : List (Send crates)).filterMap Send.carried = [] := by
  simp [toTargets, Send.carried, h]

end Sends

/-- A message is passed on as it asks to be, or not at all. -/
theorem dispatch_carried (session : Session) (msg : RelayMessage) :
    (dispatch session msg).carried.Sublist msg.asked.toList := by
  unfold dispatch
  split
  · exact List.nil_sublist _
  · split
    · exact List.nil_sublist _
    · cases msg <;> simp [dispatchRegistered, Action.carried, RelayMessage.carried, RelayMessage.asked]

/-- What is fanned out is nothing that one peer has another one told. -/
theorem carried_of_dispatch_broadcast {session : Session} {msg out : RelayMessage} {sender : String}
    {exclude : List String} (h : dispatch session msg = .broadcast sender exclude out) :
    out.carried = none := by
  unfold dispatch at h
  split at h
  · cases h
  · split at h
    · cases h
    · cases msg <;> cases h
      rfl

/-- A task that takes a parsed message passes on what the message asks for, or nothing. -/
theorem intercept_carried (houtbox : conn.outbox = []) (msg : RelayMessage) :
    (taskCarried (conn.intercept c msg).task).Sublist msg.asked.toList := by
  unfold Conn.intercept
  split
  · simp [taskCarried, Conn.task, houtbox, Phase.carried]
  · refine List.Sublist.trans ?_ (dispatch_carried conn.session msg)
    cases dispatch conn.session msg <;>
      simp [Conn.carryOut, taskCarried, Conn.task, houtbox, Phase.carried, Action.carried,
        RelayMessage.carried]

/-- A task fans out only what a broadcast asks for. -/
theorem intercept_plainFanout (msg : RelayMessage) : PlainFanout (conn.intercept c msg).task := by
  intro sender exclude out hphase
  unfold Conn.intercept at hphase
  split at hphase
  · cases hphase
  · cases haction : dispatch conn.session msg with
    | broadcast =>
      rw [haction] at hphase
      cases hphase
      exact carried_of_dispatch_broadcast haction
    | _ =>
      rw [haction] at hphase
      cases hphase

/-- A task that takes a frame passes on what the message in it asks for, or nothing. -/
theorem takeFrame_carried {config : RelayServerConfig} {frame : Frame crates} {clock : Clock}
    (hphase : conn.phase = .idle) (houtbox : conn.outbox = []) :
    (taskCarried (conn.takeFrame config c frame clock).task).Sublist
      (frame.relay.bind RelayMessage.asked).toList := by
  dsimp only [Conn.takeFrame]
  split
  · simp [taskCarried, Conn.task, houtbox, Phase.carried]
  · split
    · unfold Conn.takePexFrame
      split <;> simp [taskCarried, Conn.task, houtbox, hphase, Phase.carried, List.filterMap_cons, RelayMessage.carried]
    · split
      · rename_i msg hmsg
        simp [taskCarried, Conn.task, houtbox, Phase.carried, hmsg]
      · simp [taskCarried, Conn.task, hphase, Phase.carried, List.filterMap_cons, RelayMessage.carried]

/-- A frame is never fanned out at once. -/
theorem takeFrame_plainFanout {config : RelayServerConfig} {frame : Frame crates} {clock : Clock}
    (hphase : conn.phase = .idle) : PlainFanout (conn.takeFrame config c frame clock).task := by
  intro sender exclude msg hbroadcast
  dsimp only [Conn.takeFrame] at hbroadcast
  split at hbroadcast
  · cases hbroadcast
  · split at hbroadcast
    · unfold Conn.takePexFrame at hbroadcast
      split at hbroadcast <;> simp [Conn.task, hphase] at hbroadcast
    · split at hbroadcast <;> simp [Conn.task, hphase] at hbroadcast

/-- A refusal passes nothing on. -/
theorem filterMap_carried_refusal (code : UInt32) (message : String) (connectedPeers : ℕ) :
    (refusal code message connectedPeers).filterMap RelayMessage.carried = [] := rfl

/-- The refusals of a registration pass nothing on. -/
theorem filterMap_carried_of_refused {config : RelayServerConfig} {closed : ConnId → Bool}
    {relay : Relay crates} {request : RegisterRequest} {identity : Option String} {addr : SocketAddr}
    {unix : ℕ} {replies : List RelayMessage}
    (h : registerVerdict config closed relay request identity addr unix c = .refused replies) :
    replies.filterMap RelayMessage.carried = [] := by
  unfold registerVerdict at h
  split at h
  · cases h
    rfl
  · split at h
    · cases h
      rfl
    · split at h <;> cases h
      rfl

/-- A shared access passes on what its phase had to pass on, or less. -/
theorem access_carried {clock : Clock} {relay' : Relay crates} (houtbox : conn.outbox = [])
    (hfanout : PlainFanout conn.task)
    (h : access setup clock (isClosed sys.conns) c sys.relay conn = some (relay', conn')) :
    (taskCarried conn'.task).Sublist (taskCarried conn.task) ∧ PlainFanout conn'.task := by
  obtain ⟨phase, hphase, haccess⟩ := access_cases h
  have hbefore : taskCarried conn.task = phase.carried := by
    rw [taskCarried, Conn.task, houtbox, hphase]
    rfl
  rw [hbefore]
  cases haccess with
  | intercepted => exact ⟨intercept_carried houtbox _, intercept_plainFanout _⟩
  | broadcast =>
    refine ⟨?_, by simp [PlainFanout, Conn.task]⟩
    have hplain := hfanout _ _ _ hphase
    simp [taskCarried, Conn.task, Phase.carried, filterMap_carried_toTargets _ hplain]
  | notEntered hverdict =>
    refine ⟨?_, by simp [PlainFanout, Conn.task]⟩
    simp [taskCarried, Conn.task, Phase.carried, filterMap_carried_of_refused hverdict]
  | entered | removed =>
    refine ⟨?_, by simp [PlainFanout, Conn.task]⟩
    simp only [taskCarried, Conn.task, Phase.carried, List.filterMap_cons, carried_relay,
      RelayMessage.carried, List.append_nil]
    rw [filterMap_carried_toTargets _ rfl]
  | notAllowed | notReserved =>
    refine ⟨?_, by simp [PlainFanout, Conn.task]⟩
    simp [taskCarried, Conn.task, houtbox, Phase.carried, rateRefusal, capRefusal,
      filterMap_carried_refusal]
  | forwarded =>
    refine ⟨?_, by simp [PlainFanout, Conn.task]⟩
    simp only [taskCarried, Conn.task, Phase.carried, List.append_nil]
    rw [List.filterMap_cons, List.filterMap_nil, Send.carried]
    cases RelayMessage.carried _ <;> simp
  | _ =>
    refine ⟨?_, by simp [PlainFanout, Conn.task, commitAccess, handshakeAccess]⟩
    simp [taskCarried, Conn.task, houtbox, Phase.carried, List.filterMap_cons, RelayMessage.carried,
      commitAccess, handshakeAccess]

/-- A transition passes on, in order, what a connection still had to pass on and what it is asked to. -/
theorem next_carried (hfanout : ∀ conn ∈ sys.conns, PlainFanout conn.task)
    (h : Next setup sys label sys') :
    ((performed d (sys, label, sys')).filterMap Send.carried ++ sys'.carried d).Sublist
      (sys.carried d ++ askedOf (.task d) (sys, label, sys')) := by
  cases hconn : sys.conns[d]? with
  | none =>
    have hnone : performed d (sys, label, sys') = [] := by
      cases label <;> simp [performed, System.pending, hconn]
    have hafter : sys'.carried d = [] := by
      rcases next_conn_of_none hconn h with hstill | ⟨addr, identity, haccepted⟩
      · rw [System.carried, hstill]
        rfl
      · rw [System.carried, haccepted]
        rfl
    rw [hnone, hafter]
    exact List.nil_sublist _
  | some conn =>
    obtain ⟨conn', hconn', hmove⟩ := next_taskMove hconn h
    have hpending := pending_of_outbox hconn
    have hbefore : sys.carried d = taskCarried conn.task := by rw [System.carried, hconn]; rfl
    have hafter : sys'.carried d = taskCarried conn'.task := by rw [System.carried, hconn']; rfl
    rw [hbefore, hafter]
    generalize conn'.task = task at hmove
    cases hmove with
    | still hexec hinputs =>
      have hnone : performed d (sys, label, sys') = [] := by
        cases label <;> simp only [performed]
        case exec e clock => exact if_neg fun he => hexec clock (by rw [he])
      rw [hnone]
      exact List.sublist_append_left _ _
    | @sent clock send rest houtbox =>
      have hfirst : performed d (sys, .exec d clock, sys') = [send] := by
        simp [performed, hpending, houtbox]
      have hall : taskCarried conn.task = [send].filterMap Send.carried ++
          taskCarried (conn.session, rest, conn.phase) := by
        rw [taskCarried, taskCarried, ← List.append_assoc, ← List.filterMap_append, Conn.task, houtbox]
        rfl
      rw [hfirst, hall]
      exact List.sublist_append_left _ _
    | @accessed clock relay' moved houtbox haccess =>
      have hnone : performed d (sys, .exec d clock, sys') = [] := by simp [performed, hpending, houtbox]
      rw [hnone]
      have haccessed := access_carried houtbox (hfanout conn (List.mem_of_getElem? hconn)) haccess
      exact haccessed.1.trans (List.sublist_append_left _ _)
    | head =>
      split <;> exact List.nil_sublist _
    | message hphase houtbox =>
      have hasked (frame : Frame crates) (clock : Clock) : askedOf (.task d) (sys, .message d frame clock, sys') =
          (frame.relay.bind RelayMessage.asked).toList := if_pos rfl
      rw [hasked]
      exact (takeFrame_carried hphase houtbox).trans (List.sublist_append_right _ _)
    | control => exact List.sublist_append_left _ _
    | hangup => exact List.nil_sublist _

/-- In every reachable state, what is fanned out is nothing that one peer has another one told. -/
theorem plainFanout_of_reachable (h : IsReachable setup sys) :
    ∀ conn ∈ sys.conns, PlainFanout conn.task := by
  refine h.invariant (fun sys => ∀ conn ∈ sys.conns, PlainFanout conn.task) (List.forall_mem_nil _) ?_
  intro s label s' _ hfanout hnext
  have hplain {session : Session} {outbox : List (Send crates)} {phase : Phase crates}
      (hphase : ∀ sender exclude msg, phase ≠ .broadcast sender exclude msg) :
      PlainFanout (session, outbox, phase) :=
    fun sender exclude msg hbroadcast => absurd hbroadcast (hphase sender exclude msg)
  refine next_tasks (hplain (by simp)) (fun c conn task _ hmove htask => ?_) hfanout hnext
  cases hmove with
  | still => exact htask
  | sent => exact htask
  | accessed houtbox haccess => exact (access_carried houtbox htask haccess).2
  | head => exact hplain (by split <;> simp)
  | message hphase => exact takeFrame_plainFanout hphase
  | control => exact htask
  | hangup => exact hplain (by simp)

/-- What an origin passes on along a run is part of what it was asked to, in order. The sweep and the
DHT round pass nothing on. -/
theorem run_carried {trace : List (System crates × Label crates × System crates)}
    (hrun : Run setup trace sys) (origin : Origin) :
    ((trace.flatMap (performedBy origin)).filterMap Send.carried).Sublist
      (trace.flatMap (askedOf origin)) := by
  rw [List.filterMap_flatMap]
  cases origin with
  | task d =>
    have hbalance := hrun.sublist_balance (fun t => (performed d t).filterMap Send.carried)
      (askedOf (.task d)) (System.carried · d)
      fun _ _ _ hreach hnext => next_carried (plainFanout_of_reachable hreach) hnext
    exact (List.sublist_append_left _ _).trans hbalance
  | sweep =>
    refine flatMap_sublist trace fun t _ => ?_
    simp only [performedBy, performedNotices]
    split <;> exact List.nil_sublist _
  | dht =>
    refine flatMap_sublist trace fun t _ => ?_
    simp only [performedBy, performedAsks]
    split <;> exact List.nil_sublist _

/-- What sends to one connection pass on is part of what all sends do. -/
theorem filterMap_relayTo_carried (c : ConnId) (sends : List (Send crates)) :
    ((sends.filterMap (Send.relayTo c)).filterMap RelayMessage.carried).Sublist
      (sends.filterMap Send.carried) := by
  induction sends with
  | nil => exact List.Sublist.refl _
  | cons send sends ih =>
    have hsend : (([send].filterMap (Send.relayTo c)).filterMap RelayMessage.carried).Sublist
        ([send].filterMap Send.carried) := by
      cases send with
      | relay tx msg =>
        by_cases htx : tx = c
        · simp [Send.relayTo, htx, List.filterMap_cons]
        · simp [Send.relayTo, htx]
      | pex tx msg => exact List.nil_sublist _
    have hall := hsend.append ih
    rwa [← List.filterMap_append, ← List.filterMap_append, ← List.filterMap_append] at hall

/-- Along every run, whatever the interleaving, the messages from peer to peer that are written to a
socket are, for each origin, part of what that origin was asked to pass on, in the same order. -/
theorem run_directed_in_order {trace : List (System crates × Label crates × System crates)}
    (hrun : Run setup trace sys) (c : ConnId) :
    ∃ sent : List (Origin × RelayMessage), sent.map Prod.snd = trace.flatMap (written c) ∧
      ∀ origin, (((sent.filter (·.1 = origin)).map Prod.snd).filterMap RelayMessage.carried).Sublist
        (trace.flatMap (askedOf origin)) := by
  have hfirst := Channel.taken_prefix_admitted setup.config.outboundQueueCapacity
    (trace.flatMap (pipeEvents c))
  refine ⟨_, (run_written hrun c).symm, fun origin => ?_⟩
  have hsent := (sublist_of_admitted origin hfirst.sublist).filterMap RelayMessage.carried
  exact hsent.trans ((filterMap_relayTo_carried c _).trans (run_carried hrun origin))

/-- Two gossip messages of one peer arrive as it has sent them. -/
theorem run_directed_in_order_two :
    ∃ trace sys, @Run silentCrates standardSetup trace sys ∧
      (trace.flatMap (written 1)).filterMap RelayMessage.carried = [.gossip "q" [1] 1, .gossip "q" [2] 2] ∧
      ∃ sent : List (Origin × RelayMessage), sent.map Prod.snd = trace.flatMap (written 1) ∧
        ∀ origin, (((sent.filter (·.1 = origin)).map Prod.snd).filterMap RelayMessage.carried).Sublist
          (trace.flatMap (askedOf origin)) := by
  obtain ⟨trace, sys, hrun, hcarried⟩ := @exists_traced_run silentCrates standardSetup
    (twoMessages ++ List.replicate 3 (.writeRelay 1 true))
    (fun trace _ => (trace.flatMap (written 1)).filterMap RelayMessage.carried =
      [.gossip "q" [1] 1, .gossip "q" [2] 2]) (by decide +kernel)
  exact ⟨trace, sys, hrun, of_decide_eq_true hcarried, run_directed_in_order hrun 1⟩

end DigRelay
