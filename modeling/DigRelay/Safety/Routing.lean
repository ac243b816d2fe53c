import DigRelay.Server.Ledger
import DigRelay.Server.Outbox
import DigRelay.Server.Script
import DigRelay.Server.Sweep
import DigRelay.Server.WellFormed

/-!
# Routing and fan-out

Every registry lookup that routes a message is scoped to one network. A targeted forward goes
to the target's channel if its record is on the sender's network and otherwise comes back as an
error; a broadcast and the notices of arrivals and departures go to every other record on the
network, each once. What is looked up is then performed send by send, each on its own channel.
-/

namespace DigRelay

open Common

variable {crates : Crates} {setup : Setup} {sys sys' : System crates} {label : Label crates}
  {c : ConnId} {conn : Conn crates} {clock : Clock}

/-- The connection takes its next shared access. -/
def Accesses (sys : System crates) (label : Label crates) (c : ConnId) (conn : Conn crates) : Prop :=
  (∃ clock, label = .exec c clock) ∧ sys.conns[c]? = some conn ∧ conn.outbox = []

/-- What a transition looks up is routed exactly, and what it sends it delivers to one channel. -/
structure RoutesExactly (sys : System crates) (label : Label crates) (sys' : System crates) :
    Prop where
  /-- A targeted forward goes to the target's record on the sender's network or nowhere. -/
  forwarded : ∀ c conn target msg, Accesses sys label c conn → conn.phase = .forwardTo target msg →
    ∃ peerId networkId, conn.session.seat = some (peerId, networkId) ∧
      ((∃ peer, sys.relay.registry.lookup target = some peer ∧ peer.networkId = networkId ∧
          sys'.pending c = [.relay peer.tx msg]) ∨
        ((∀ peer, sys.relay.registry.lookup target = some peer → peer.networkId ≠ networkId) ∧
          sys'.pending c = [.relay c (.error ErrCode.peerNotFound
            ("peer " ++ target ++ " not connected to this relay"))]))
  /-- A broadcast goes to everyone else on the sender's network who is not excluded. -/
  broadcast : ∀ c conn sender exclude msg, Accesses sys label c conn →
    conn.phase = .broadcast sender exclude msg →
    ∃ networkId targets, conn.session.seat = some (sender, networkId) ∧
      ExactFanOut sys.relay.registry sender networkId exclude targets ∧
      sys'.pending c = toTargets targets msg
  /-- A registration is refused, or announced to everyone else on its network. -/
  connected : ∀ c conn request slot, Accesses sys label c conn →
    conn.phase = .registerLocked request slot →
    (sys'.relay.registry = sys.relay.registry ∧ ∃ replies, sys'.pending c = toSelf c replies) ∨
      ∃ peer targets connectedPeers info, info.peerId = request.peerId ∧
        sys'.relay.registry = sys.relay.registry.insert request.peerId peer ∧ peer.tx = c ∧
        ExactFanOut sys'.relay.registry request.peerId request.networkId [] targets ∧
        sys'.pending c =
          .relay c (.registerAck true "registered" connectedPeers) ::
            toTargets targets (.peerConnected info)
  /-- A teardown finds no record, or is announced to everyone else on its network. -/
  disconnected : ∀ c conn, Accesses sys label c conn → conn.phase = .deregister →
    (sys'.relay.registry = sys.relay.registry ∧ sys'.pending c = []) ∨
      ∃ peerId networkId targets, conn.session.seat = some (peerId, networkId) ∧
        sys'.relay.registry = sys.relay.registry.erase peerId ∧
        ExactFanOut sys'.relay.registry peerId networkId [] targets ∧
        sys'.pending c = toTargets targets (.peerDisconnected peerId)
  /-- Each removal of a sweep is announced to everyone on its network who is still registered
  after the removals before it. -/
  swept : ∀ now earlier peerId networkId targets later, label = .sweep now →
    sys'.pruned = earlier ++ (peerId, networkId, targets) :: later →
    ∃ reg : Registry,
      (∀ id, reg.lookup id = if id = peerId ∨ id ∈ earlier.map Prod.fst then none
        else sys.relay.registry.lookup id) ∧
      ExactFanOut reg peerId networkId [] targets
  /-- A pending send is delivered by its connection's next move, which does nothing else. -/
  sent : ∀ c clock conn send rest, label = .exec c clock → sys.conns[c]? = some conn →
    conn.outbox = send :: rest →
    sys'.relay = sys.relay ∧
      Delivers send (sys.conns.set c { conn with outbox := rest }) sys'.conns
  /-- A pending notice is delivered by the sweep's next move, which does nothing else. -/
  noticed : ∀ peerId networkId target targets rest, label = .sweepExec →
    sys.pruned = (peerId, networkId, target :: targets) :: rest →
    sys'.relay = sys.relay ∧
      Delivers (.relay target.2 (.peerDisconnected peerId)) sys.conns sys'.conns

/-- A shared access leaves its result. -/
theorem next_accesses (haccesses : Accesses sys label c conn) (h : Next setup sys label sys') :
    ∃ clock conn',
      access setup clock (isClosed sys.conns) c sys.relay conn = some (sys'.relay, conn') ∧
        sys'.pending c = conn'.outbox := by
  obtain ⟨⟨clock, rfl⟩, hconn, houtbox⟩ := haccesses
  cases h with
  | step h =>
    simp only [step, hconn, Option.bind_some] at h
    rcases execStep_some h with ⟨_, _, hsend, -⟩ | ⟨-, relay, conn', haccess, rfl⟩
    · rw [houtbox] at hsend
      cases hsend
    · have hlt := (List.getElem?_eq_some_iff.mp hconn).1
      exact ⟨clock, conn', haccess, pending_of_outbox (List.getElem?_set_self hlt)⟩

/-- A targeted forward is routed exactly. -/
theorem forwarded_exact {target : String} {msg : RelayMessage} (hwf : sys.WellFormed)
    (haccesses : Accesses sys label c conn) (hphase : conn.phase = .forwardTo target msg)
    (h : Next setup sys label sys') :
    ∃ peerId networkId, conn.session.seat = some (peerId, networkId) ∧
      ((∃ peer, sys.relay.registry.lookup target = some peer ∧ peer.networkId = networkId ∧
          sys'.pending c = [.relay peer.tx msg]) ∨
        ((∀ peer, sys.relay.registry.lookup target = some peer → peer.networkId ≠ networkId) ∧
          sys'.pending c = [.relay c (.error ErrCode.peerNotFound
            ("peer " ++ target ++ " not connected to this relay"))])) := by
  have hconnWf := hwf conn (List.mem_of_getElem? haccesses.2.1)
  obtain ⟨peerId, hpeerId, -⟩ : ∃ peerId, conn.session.peerId = some peerId ∧ _ := by
    simpa [hphase] using hconnWf.phased
  obtain ⟨networkId, hnetworkId⟩ : ∃ networkId, conn.session.networkId = some networkId :=
    Option.isSome_iff_exists.mp (hconnWf.paired ▸ by simp [hpeerId])
  refine ⟨peerId, networkId, by simp [Session.seat, hpeerId, hnetworkId], ?_⟩
  obtain ⟨clock, conn', haccess, hpending⟩ := next_accesses haccesses h
  generalize sys'.relay = relay' at haccess
  cases access_cases_of_phase hphase haccess with
  | forwarded hnetwork hfound =>
    obtain rfl := Option.some.inj (hnetworkId.symm.trans hnetwork)
    obtain ⟨peer, hpeer, hsame, rfl⟩ := Registry.senderInNetwork_eq_some_iff.mp hfound
    exact .inl ⟨peer, hpeer, hsame, hpending⟩
  | notFound hnetwork hnone =>
    obtain rfl := Option.some.inj (hnetworkId.symm.trans hnetwork)
    refine .inr ⟨fun peer hpeer hsame => ?_, hpending⟩
    have hfound := Registry.senderInNetwork_eq_some_iff.mpr ⟨peer, hpeer, hsame, rfl⟩
    rw [hnone] at hfound
    cases hfound
  | notForwarded hnone =>
    rw [hnetworkId] at hnone
    cases hnone

/-- A broadcast is routed exactly. -/
theorem broadcast_exact {sender : String} {exclude : List String} {msg : RelayMessage}
    (hwf : sys.WellFormed) (haccesses : Accesses sys label c conn)
    (hphase : conn.phase = .broadcast sender exclude msg) (h : Next setup sys label sys') :
    ∃ networkId targets, conn.session.seat = some (sender, networkId) ∧
      ExactFanOut sys.relay.registry sender networkId exclude targets ∧
      sys'.pending c = toTargets targets msg := by
  have hconnWf := hwf conn (List.mem_of_getElem? haccesses.2.1)
  obtain ⟨hsender, -⟩ : conn.session.peerId = some sender ∧ _ := by
    simpa [hphase] using hconnWf.phased
  obtain ⟨clock, conn', haccess, hpending⟩ := next_accesses haccesses h
  generalize sys'.relay = relay' at haccess
  cases access_cases_of_phase hphase haccess with
  | broadcast hnetworkId =>
    exact ⟨_, _, by simp [Session.seat, hsender, hnetworkId], broadcastTargets_exact _ _ _ _,
      hpending⟩
  | notBroadcast hnone =>
    have hpaired := hconnWf.paired
    simp [hsender, hnone] at hpaired

/-- In every reachable state every transition routes exactly. -/
theorem next_routesExactly (hwf : sys.WellFormed) (h : Next setup sys label sys') :
    RoutesExactly sys label sys' where
  forwarded c conn target msg haccesses hphase := forwarded_exact hwf haccesses hphase h
  broadcast c conn sender exclude msg haccesses hphase := broadcast_exact hwf haccesses hphase h
  connected c conn request slot haccesses hphase := by
    obtain ⟨clock, conn', haccess, hpending⟩ := next_accesses haccesses h
    generalize sys'.relay = relay' at haccess ⊢
    cases access_cases_of_phase hphase haccess with
    | notEntered => exact .inl ⟨rfl, _, hpending⟩
    | entered hverdict =>
      obtain ⟨-, -, hregistry, htargets, -⟩ := registerVerdict_accepted hverdict
      refine .inr ⟨_, _, _, _, rfl, hregistry, rfl, ?_, hpending⟩
      rw [htargets]
      exact broadcastTargets_exact _ _ _ _
  disconnected c conn haccesses hphase := by
    obtain ⟨clock, conn', haccess, hpending⟩ := next_accesses haccesses h
    have houtbox := haccesses.2.2
    generalize sys'.relay = relay' at haccess ⊢
    cases access_cases_of_phase hphase haccess with
    | @removed peerId networkId _ _ hpeerId hnetworkId hremove =>
      obtain ⟨-, hremoved, htargets⟩ := removeLocked_some hremove
      refine .inr ⟨peerId, networkId, _, by simp [Session.seat, hpeerId, hnetworkId], ?_, ?_,
        hpending⟩
      · rw [hremoved]
      · rw [htargets]
        exact broadcastTargets_exact _ _ _ _
    | absent => exact .inl ⟨rfl, hpending.trans houtbox⟩
  swept now earlier peerId networkId targets later hlabel hpruned := by
    subst hlabel
    cases h with
    | step h =>
      simp only [step] at h
      split at h
      · obtain rfl := Option.some.inj h
        exact pruneLocked_exact _ sys.relay hpruned
      · cases h
  sent c clock conn send rest hlabel hconn houtbox := by
    subst hlabel
    cases h with
    | step h =>
      simp only [step, hconn, Option.bind_some, execStep, houtbox, Option.some.injEq] at h
      subst h
      exact ⟨rfl, delivers_deliver send _⟩
  noticed peerId networkId target targets rest hlabel hpruned := by
    subst hlabel
    cases h with
    | step h =>
      simp only [step, sweepStep, hpruned, Option.some.injEq] at h
      subst h
      exact ⟨rfl, delivers_deliver _ _⟩

/-- Along every run, every lookup is routed exactly, every send is delivered to its own channel
alone, and the sends performed and still pending are exactly those queued by the lookups, for
every connection and for the health sweep. -/
theorem run_routesExactly {trace : List (System crates × Label crates × System crates)}
    (hrun : Run setup trace sys) :
    (∀ t ∈ trace, RoutesExactly t.1 t.2.1 t.2.2) ∧
      (∀ c, trace.flatMap (performed c) ++ sys.pending c = trace.flatMap (queued c)) ∧
      trace.flatMap performedNotices ++ sys.pendingNotices = trace.flatMap queuedNotices := by
  refine ⟨fun t ht => ?_, run_performed hrun, run_performedNotices hrun⟩
  obtain ⟨hreach, hnext⟩ := hrun.mem_trace ht
  exact next_routesExactly (wellFormed_of_reachable hreach) hnext

/-- With two peers on one network and one on another, a broadcast is pending for the one other
peer of the sender's network alone. -/
theorem run_routesExactly_broadcast :
    ∃ trace sys, @Run silentCrates standardSetup trace sys ∧
      (sys.pending 0).map Send.target = [1] ∧ ∀ t ∈ trace, RoutesExactly t.1 t.2.1 t.2.2 := by
  obtain ⟨trace, sys, sys', hrun, hpending⟩ := @exists_run_step silentCrates standardSetup
    (Script.connect 0 0 ++ Script.register 0 "p" "net" 0 0 ++ Script.connect 1 0 ++ Script.register 1 "q" "net" 0 1 ++
      Script.connect 2 0 ++ Script.register 2 "r" "other" 0 0 ++ Script.send 0 (.broadcast "anyone" [7] []) 1 2)
    (.exec 0 (atSecond 1)) (fun _ sys' => (sys'.pending 0).map Send.target = [1]) (by decide)
  exact ⟨_, sys', hrun, of_decide_eq_true hpending, (run_routesExactly hrun).1⟩

end DigRelay
