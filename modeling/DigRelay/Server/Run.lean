import DigRelay.Server.Step

/-!
# Runs of the relay

The step function gives the successor of a system under a label, if the task it names can
move. The transition relation adds rehashing, after which a hash map may enumerate its entries
in another order. A run is an execution of this relation from a freshly started relay.
-/

namespace DigRelay

open Common

variable {crates : Crates}

/-- Replace the state of one connection task. -/
def System.setConn (sys : System crates) (c : ConnId) (conn : Conn crates) : System crates :=
  { sys with conns := sys.conns.set c conn }

/-- Perform several sends in order. -/
def deliverAll (sends : List (Send crates)) (conns : List (Conn crates)) : List (Conn crates) :=
  sends.foldl (fun conns send => deliver send conns) conns

/-- Whether a pending send goes to the connection's relay channel. -/
def Send.targets (c : ConnId) : Send crates → Bool
  | .relay tx _ => tx = c
  | .pex _ _ => false

/-- Whether every sender of the connection's relay channel is gone and the channel is drained:
its task waits for the writer, no record refers to it and no pending send is addressed to it. -/
def sendersGone (sys : System crates) (c : ConnId) (conn : Conn crates) : Bool :=
  (match conn.phase with
    | .awaitWriter => true
    | _ => false) &&
    conn.outbox.isEmpty && conn.out.queue.isEmpty &&
    (sys.relay.registry.toPairs.all fun entry => entry.2.tx ≠ c) &&
    (sys.conns.all fun other => other.outbox.all fun send => !send.targets c) &&
    (sys.pruned.all fun pruned => pruned.2.2.all fun target => target.2 ≠ c) &&
    (sys.asked.all fun tx => tx ≠ c)

/-- Begin serving the relay wire with fresh budgets and activity. The channels and the empty
session exist since the connection was accepted, and nothing could reach them before. -/
def Conn.upgrade (config : RelayServerConfig) (conn : Conn crates) (clock : Clock) : Conn crates :=
  { conn with
    limiter := PerConnLimiter.new config clock.ms
    lastActivity := clock.secs
    phase := .idle }

/-- Take the outcome of reading the request head. -/
def Conn.takeHead (config : RelayServerConfig) (conn : Conn crates) (clock : Clock) :
    HeadOutcome → Conn crates
  | .upgraded => conn.upgrade config clock
  | .http => { conn with phase := .dropConn }
  | .failed => { conn with phase := .dropConn }

/-- One move of a connection task: its next pending send, or its next shared access. -/
def execStep (setup : Setup) (sys : System crates) (c : ConnId) (conn : Conn crates)
    (clock : Clock) : Option (System crates) :=
  match conn.outbox with
  | send :: rest =>
    some { sys with conns := deliver send (sys.conns.set c { conn with outbox := rest }) }
  | [] =>
    (access setup clock (isClosed sys.conns) c sys.relay conn).map fun (relay, conn) =>
      { sys with relay, conns := sys.conns.set c conn }

/-- An input of a connection task, taken only while it waits for one with nothing pending. -/
def inputStep (sys : System crates) (c : ConnId) (waiting : Phase crates → Bool)
    (take : Conn crates → Conn crates) : Option (System crates) :=
  sys.conns[c]?.bind fun conn =>
    if waiting conn.phase && conn.outbox.isEmpty then some (sys.setConn c (take conn)) else none

/-- Waiting for the next frame. -/
def Phase.isIdle : Phase crates → Bool
  | .idle => true
  | _ => false

/-- Waiting for the request head. -/
def Phase.isReadHead : Phase crates → Bool
  | .readHead => true
  | _ => false

/-- One move of a connection's writer: take the next message of one of the two channels and
write it. A failed write ends the writer and drops both receivers. -/
def writeStep (sys : System crates) (c : ConnId) (ok : Bool)
    (take : Conn crates → Option (Conn crates)) : Option (System crates) :=
  sys.conns[c]?.bind fun conn =>
    (take conn).map fun taken => sys.setConn c (if ok then taken else conn.closeChannels)

/-- Take the oldest message of the relay channel. -/
def Conn.recvRelay (conn : Conn crates) : Option (Conn crates) :=
  conn.out.recv.map fun (_, out) => { conn with out }

/-- Take the oldest message of the exchange channel. -/
def Conn.recvPex (conn : Conn crates) : Option (Conn crates) :=
  conn.pexOut.recv.map fun (_, pexOut) => { conn with pexOut }

/-- The critical section of a health sweep. -/
def sweepLocked (setup : Setup) (sys : System crates) (now : ℕ) : List PrunedPeer × Relay crates :=
  pruneLocked
    (sys.relay.registry.deadOrStale (isClosed sys.conns) (activity sys.conns) now
      setup.config.livenessDeadline.asSecs)
    sys.relay

/-- One move of the health sweep after its critical section: the next notice, or the mirrored
departure of a peer whose notices are out. -/
def sweepStep (sys : System crates) : Option (System crates) :=
  match sys.pruned with
  | [] => none
  | (peerId, networkId, target :: targets) :: rest =>
    some { sys with
      conns := deliver (.relay target.2 (.peerDisconnected peerId)) sys.conns
      pruned := (peerId, networkId, targets) :: rest }
  | (peerId, networkId, []) :: rest =>
    some { sys with
      relay := { sys.relay with pex := sys.relay.pex.onUnregister peerId networkId }
      pruned := rest }

/-- The successor of a system under a label. -/
def step (setup : Setup) (sys : System crates) : Label crates → Option (System crates)
  | .accept addr identity =>
    let verified := if setup.tls then identity else none
    some { sys with conns := sys.conns ++ [Conn.accepted setup.config addr verified] }
  | .exec c clock => sys.conns[c]?.bind fun conn => execStep setup sys c conn clock
  | .head c outcome clock =>
    inputStep sys c Phase.isReadHead fun conn => conn.takeHead setup.config clock outcome
  | .message c frame clock =>
    inputStep sys c Phase.isIdle fun conn => conn.takeFrame setup.config c frame clock
  | .control c => inputStep sys c Phase.isIdle id
  | .hangup c => inputStep sys c Phase.isIdle fun conn => { conn with phase := .deregister }
  | .writeRelay c ok => writeStep sys c ok Conn.recvRelay
  | .writePex c ok => writeStep sys c ok Conn.recvPex
  | .writerDone c =>
    sys.conns[c]?.bind fun conn =>
      if sendersGone sys c conn then some (sys.setConn c conn.closeChannels) else none
  | .sweep now =>
    if sys.pruned.isEmpty then
      some { sys with relay := (sweepLocked setup sys now).2, pruned := (sweepLocked setup sys now).1 }
    else none
  | .sweepExec => sweepStep sys
  | .pexTick nowMs =>
    let outcome := sys.relay.pex.tick nowMs
    some { sys with
      relay := { sys.relay with pex := outcome.2 }
      conns := deliverAll (outcome.1.map fun (tx, msg) => .pex tx msg) sys.conns }
  | .dhtAsk =>
    if sys.asked.isEmpty then
      some { sys with asked := sys.relay.registry.allSenders.map Prod.snd }
    else none
  | .dhtExec =>
    match sys.asked with
    | [] => none
    | tx :: rest =>
      some { sys with
        conns := deliver (.relay tx (.getDhtRecords dhtMaxKeysPerPeer)) sys.conns
        asked := rest }
  | .dhtBuild now =>
    if sys.asked.isEmpty then
      some { sys with
        relay := { sys.relay with
          dhtView := buildDhtView sys.relay.dhtAnswers now
          dhtAnswers := [] } }
    else none
  | .stun => some { sys with relay := { sys.relay with stunRequests := sys.relay.stunRequests + 1 } }
  | .rehash => none

/-- Two relays that differ in the enumeration order of the maps that are iterated over. -/
def Relay.Rehashed (relay relay' : Relay crates) : Prop :=
  ∃ registry engines regBuckets strikes bans,
    Table.Rehashed relay.registry registry ∧
      Table.Rehashed relay.pex.engines engines ∧
      Table.Rehashed relay.abuse.regBuckets regBuckets ∧
      Table.Rehashed relay.abuse.strikes strikes ∧
      Table.Rehashed relay.abuse.bans bans ∧
      relay' =
        { relay with
          registry
          pex := { relay.pex with engines }
          abuse := { relay.abuse with regBuckets, strikes, bans } }

/-- The transition relation: a step, or a rehash of the shared maps. -/
inductive Next (setup : Setup) : System crates → Label crates → System crates → Prop
  | step {sys : System crates} {label : Label crates} {sys' : System crates}
      (h : step setup sys label = some sys') : Next setup sys label sys'
  | rehash {sys : System crates} {relay : Relay crates} (h : Relay.Rehashed sys.relay relay) :
      Next setup sys .rehash { sys with relay }

/-- A run of the relay from its start. -/
abbrev Run (setup : Setup) (trace : List (System crates × Label crates × System crates))
    (sys : System crates) : Prop :=
  Execution (Next setup) (System.new crates) trace sys

/-- A state of some run. -/
abbrev IsReachable (setup : Setup) (sys : System crates) : Prop :=
  Reachable (Next setup) (System.new crates) sys

/-- A send changes nothing but the queues of the channel it is addressed to. -/
theorem deliver_map {A : Type*} (view : Conn crates → A)
    (hout : ∀ conn msg, view { conn with out := conn.out.trySend msg } = view conn)
    (hpexOut : ∀ conn msg, view { conn with pexOut := conn.pexOut.trySend msg } = view conn)
    (send : Send crates) (conns : List (Conn crates)) :
    (deliver send conns).map view = conns.map view := by
  apply List.ext_getElem?
  intro i
  cases send with
  | relay tx msg =>
    simp only [deliver, List.getElem?_map, List.getElem?_modify]
    split <;> cases conns[i]? <;> simp [hout]
  | pex tx msg =>
    simp only [deliver, List.getElem?_map, List.getElem?_modify]
    split <;> cases conns[i]? <;> simp [hpexOut]

/-- Several sends change nothing but queues. -/
theorem deliverAll_map {A : Type*} (view : Conn crates → A)
    (hout : ∀ conn msg, view { conn with out := conn.out.trySend msg } = view conn)
    (hpexOut : ∀ conn msg, view { conn with pexOut := conn.pexOut.trySend msg } = view conn)
    (sends : List (Send crates)) (conns : List (Conn crates)) :
    (deliverAll sends conns).map view = conns.map view := by
  induction sends generalizing conns with
  | nil => rfl
  | cons send rest ih =>
    have hrest := ih (deliver send conns)
    rw [deliver_map view hout hpexOut] at hrest
    exact hrest

/-- A connection task either performs its next pending send or its next shared access. -/
theorem execStep_some {setup : Setup} {sys sys' : System crates} {c : ConnId} {conn : Conn crates}
    {clock : Clock} (h : execStep setup sys c conn clock = some sys') :
    (∃ send rest, conn.outbox = send :: rest ∧
        sys' = { sys with conns := deliver send (sys.conns.set c { conn with outbox := rest }) }) ∨
      (conn.outbox = [] ∧ ∃ relay conn',
        access setup clock (isClosed sys.conns) c sys.relay conn = some (relay, conn') ∧
          sys' = { sys with relay, conns := sys.conns.set c conn' }) := by
  unfold execStep at h
  split at h
  · rename_i send rest houtbox
    exact .inl ⟨send, rest, houtbox, (Option.some.inj h).symm⟩
  · rename_i houtbox
    obtain ⟨⟨relay, conn'⟩, haccess, hsys⟩ := Option.map_eq_some_iff.mp h
    exact .inr ⟨houtbox, relay, conn', haccess, hsys.symm⟩

/-- An input is taken by a waiting connection with nothing pending. -/
theorem inputStep_some {sys sys' : System crates} {c : ConnId} {waiting : Phase crates → Bool}
    {take : Conn crates → Conn crates} (h : inputStep sys c waiting take = some sys') :
    ∃ conn, sys.conns[c]? = some conn ∧ waiting conn.phase = true ∧ conn.outbox = [] ∧
      sys' = sys.setConn c (take conn) := by
  obtain ⟨conn, hconn, htaken⟩ := Option.bind_eq_some_iff.mp h
  split at htaken
  · rename_i hwaiting
    obtain ⟨hphase, houtbox⟩ := Bool.and_eq_true_iff.mp hwaiting
    exact ⟨conn, hconn, hphase, List.isEmpty_iff.mp houtbox, (Option.some.inj htaken).symm⟩
  · cases htaken

/-- A write takes a message off a channel or ends the writer. -/
theorem writeStep_some {sys sys' : System crates} {c : ConnId} {ok : Bool}
    {take : Conn crates → Option (Conn crates)} (h : writeStep sys c ok take = some sys') :
    ∃ conn taken, sys.conns[c]? = some conn ∧ take conn = some taken ∧
      sys' = sys.setConn c (if ok then taken else conn.closeChannels) := by
  obtain ⟨conn, hconn, htaken⟩ := Option.bind_eq_some_iff.mp h
  obtain ⟨taken, htake, hsys⟩ := Option.map_eq_some_iff.mp htaken
  exact ⟨conn, taken, hconn, htake, hsys.symm⟩

/-- A connection waiting for a frame is idle. -/
@[simp] theorem isIdle_iff {phase : Phase crates} : phase.isIdle = true ↔ phase = .idle := by
  cases phase <;> simp [Phase.isIdle]

/-- A connection waiting for its request head is in that phase. -/
@[simp] theorem isReadHead_iff {phase : Phase crates} :
    phase.isReadHead = true ↔ phase = .readHead := by
  cases phase <;> simp [Phase.isReadHead]

/-- Whatever the step function computes along a list of labels that pass a check, and one further
step, is a run whose transitions pass the check. -/
theorem exists_checked_run (setup : Setup) (check : System crates → Label crates → Bool)
    (labels : List (Label crates)) (label : Label crates)
    (P : System crates → System crates → Bool)
    (h : ((runLabels (checkedStep check (step setup)) (System.new crates) labels).any fun sys =>
      (checkedStep check (step setup) sys label).any (P sys)) = true) :
    ∃ trace sys sys', Run setup (trace ++ [(sys, label, sys')]) sys' ∧
      (∀ t ∈ trace ++ [(sys, label, sys')], check t.1 t.2.1 = true) ∧ P sys sys' = true :=
  exists_checked_execution (fun _ _ _ => Next.step) labels label P h

/-- Whatever the step function computes along a list of labels, and one further step, is a
run. -/
theorem exists_run_step (setup : Setup) (labels : List (Label crates)) (label : Label crates)
    (P : System crates → System crates → Bool)
    (h : ((runLabels (checkedStep (fun _ _ => true) (step setup)) (System.new crates) labels).any
      fun sys => (checkedStep (fun _ _ => true) (step setup) sys label).any (P sys)) = true) :
    ∃ trace sys sys', Run setup (trace ++ [(sys, label, sys')]) sys' ∧ P sys sys' = true := by
  obtain ⟨trace, sys, sys', hrun, -, hP⟩ := exists_checked_run setup _ labels label P h
  exact ⟨trace, sys, sys', hrun, hP⟩

/-- Whatever the step function computes along a list of labels is a run with the transitions it
records. -/
theorem exists_traced_run (setup : Setup) (labels : List (Label crates))
    (P : List (System crates × Label crates × System crates) → System crates → Bool)
    (h : ((traceLabels (step setup) (System.new crates) labels).any fun run => P run.1 run.2) = true) :
    ∃ trace sys, Run setup trace sys ∧ P trace sys = true := by
  obtain ⟨⟨trace, sys⟩, htrace, hP⟩ := (Option.any_eq_true _ _).mp h
  have hrun := Execution.append_traceLabels (fun _ _ _ => Next.step) labels .nil htrace
  exact ⟨trace, sys, hrun, hP⟩

end DigRelay
