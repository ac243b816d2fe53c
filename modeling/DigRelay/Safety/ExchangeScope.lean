import DigRelay.Safety.ExchangeGate
import DigRelay.Server.ListExchange
import DigRelay.Server.Script

/-!
# The exchange keeps to its network

Replies come from the engine of the network the connection's session is on. A tick runs every engine
and routes by peer id alone, so it keeps to networks as long as an id has links in no engine but that
of the network its retained sender is registered on.
-/

namespace DigRelay

open Common

variable {crates : Crates} {setup : Setup} {sys sys' : System crates} {label : Label crates}
  {c : ConnId} {conn : Conn crates}

/-- In the transition the engine of the network produces a message for the connection: a reply in an
access of the connection's own task, or on a tick for an id whose retained sender it is. -/
inductive Produces (sys : System crates) : Label crates → String → ConnId → crates.Message → Prop
  | reply {c : ConnId} {clock : Clock} {conn : Conn crates} {networkId : String}
      {msg : crates.Message} (hconn : sys.conns[c]? = some conn) (houtbox : conn.outbox = [])
      (hnetworkId : conn.session.networkId = some networkId)
      (hmsg : msg ∈ conn.exchangeReplies sys.relay.pex clock c) :
      Produces sys (.exec c clock) networkId c msg
  | delta {nowMs : ℕ} {networkId peerId : String} {engine : crates.Engine} {c : ConnId}
      {msg : crates.Message} (hengine : sys.relay.pex.engines.lookup networkId = some engine)
      (hemit : (peerId, msg) ∈ (crates.tick engine nowMs).1)
      (hsender : sys.relay.pex.conns.lookup peerId = some c) :
      Produces sys (.pexTick nowMs) networkId c msg

/-- A message that a transition sends to a connection was produced by the engine of the network, in
the same transition or in the one that queued the sends the connection is still working off. -/
def ProducedOn (before : List (System crates × Label crates × System crates))
    (t : System crates × Label crates × System crates) (networkId : String) (c : ConnId)
    (msg : crates.Message) : Prop :=
  Produces t.1 t.2.1 networkId c msg ∨
    ∃ earlier u between, before = earlier ++ u :: between ∧ Produces u.1 u.2.1 networkId c msg ∧
      ∀ v ∈ between, v.1.pending c ≠ []

/-- The transition lets an id or a connection change networks while a link is up: it mirrors a
registration under an id some engine has a link to, it completes a registration of a connection that
another network's engine has a route to, or it takes a handshake under an id another network's engine
has a link to. -/
def CrossesNetworks (laws : LinkLaws crates) (sys : System crates) (label : Label crates) : Prop :=
  ∃ c clock conn, label = .exec c clock ∧ sys.conns[c]? = some conn ∧ conn.outbox = [] ∧
    ((∃ request slot networkId, conn.phase = .registerPex request slot ∧
        laws.Linked sys.relay.pex networkId request.peerId) ∨
      (∃ request slot networkId peerId, conn.phase = .registerCommit request slot ∧
        Route laws sys.relay.pex networkId peerId c ∧ networkId ≠ request.networkId) ∨
      ∃ msg networkId peerId, conn.phase = .pexHandshake msg ∧ conn.session.peerId = some peerId ∧
        laws.Linked sys.relay.pex networkId peerId ∧ conn.session.networkId ≠ some networkId)

/-- A tick of a network's engine speaks to connections registered on that network alone. -/
def Scoped (laws : LinkLaws crates) (sys : System crates) : Prop :=
  ∀ networkId peerId c, Route laws sys.relay.pex networkId peerId c →
    ∃ conn, sys.conns[c]? = some conn ∧ conn.session.networkId = some networkId

/-- A connection's task changes its network by completing a registration alone. -/
theorem TaskTurn.networkId {task : Session × List (Send crates) × Phase crates}
    (h : TaskTurn sys c conn label task) :
    task.1.networkId = conn.session.networkId ∨
      ∃ clock request slot, label = .exec c clock ∧ conn.outbox = [] ∧
        conn.phase = .registerCommit request slot ∧ task.1.networkId = some request.networkId := by
  cases h with
  | took frame clock houtbox htakes => exact .inl (congrArg Session.networkId htakes.session)
  | committed clock houtbox hphase => exact .inr ⟨clock, _, _, rfl, houtbox, hphase, rfl⟩
  | sent | moved | handshook | replied => exact .inl rfl

/-- Every transition that lets nothing change networks while a link is up keeps ticks to their
network. -/
theorem next_scoped {laws : LinkLaws crates} (hreach : IsReachable setup sys)
    (hguard : ¬ CrossesNetworks laws sys label) (hscoped : Scoped laws sys)
    (h : Next setup sys label sys') : Scoped laws sys' := by
  have hturn := next_turn (wellFormed_of_reachable hreach) (plain_of_reachable hreach) h
  have hafter {c : ConnId} {task : Session × List (Send crates) × Phase crates} {networkId : String}
      (htask : sys'.view.tasks[c]? = some task) (hnetwork : task.1.networkId = some networkId) :
      ∃ conn, sys'.conns[c]? = some conn ∧ conn.session.networkId = some networkId := by
    rw [System.view, List.getElem?_map] at htask
    obtain ⟨after, hafter, rfl⟩ := Option.map_eq_some_iff.mp htask
    exact ⟨after, hafter, hnetwork⟩
  intro networkId peerId c hroute
  rcases hturn.route hroute with hold |
    ⟨clock, conn, request, slot, rfl, hconn, houtbox, hphase, rfl, hlinked⟩ |
    ⟨clock, conn, msg, outbox, rfl, hconn, houtbox, hphase, hid, htask, hlinked⟩
  · obtain ⟨conn, hconn, hnetwork⟩ := hscoped networkId peerId c hold
    obtain ⟨task, htask, rfl | hmoved⟩ := hturn.task_of_conn hconn
    · exact hafter htask hnetwork
    · rcases hmoved.networkId with hsame | ⟨clock, request, slot, rfl, houtbox, hphase, hcommitted⟩
      · exact hafter htask (hsame.trans hnetwork)
      · refine hafter htask (hcommitted.trans (congrArg some ?_))
        by_contra hne
        exact hguard ⟨c, clock, conn, rfl, hconn, houtbox,
          .inr (.inl ⟨request, slot, networkId, peerId, hphase, hold, Ne.symm hne⟩)⟩
  · exact absurd ⟨c, clock, conn, rfl, hconn, houtbox,
      .inl ⟨request, slot, networkId, hphase, hlinked⟩⟩ hguard
  · refine hafter htask ?_
    rcases hlinked with hnetwork | hlinked
    · exact hnetwork
    · by_contra hne
      exact hguard ⟨c, clock, conn, rfl, hconn, houtbox,
        .inr (.inr ⟨msg, networkId, peerId, hphase, hid, hlinked, hne⟩)⟩

/-- Every exchange reply a connection still has to send came from the engine of the network its
session is on. -/
theorem run_reply_produced {trace : List (System crates × Label crates × System crates)}
    {tx : ConnId} {msg : crates.Message} (hrun : Run setup trace sys)
    (hconn : sys.conns[c]? = some conn) (hmem : .pex tx msg ∈ conn.outbox) :
    ∃ networkId, conn.session.networkId = some networkId ∧
      ∃ earlier u between, trace = earlier ++ u :: between ∧ Produces u.1 u.2.1 networkId c msg ∧
        ∀ v ∈ between, v.1.pending c ≠ [] := by
  induction hrun generalizing conn with
  | nil => simp [System.new] at hconn
  | @snoc trace s label s' hrun hnext ih =>
    have hreach : IsReachable setup s := ⟨trace, hrun⟩
    have hturn := next_turn (wellFormed_of_reachable hreach) (plain_of_reachable hreach) hnext
    have htask : s'.view.tasks[c]? = some conn.task := by simp [System.view, hconn]
    -- The reply was pending before: whoever produced it did so before this transition.
    have hlater {before : Conn crates} (hbefore : s.conns[c]? = some before)
        (hpending : .pex tx msg ∈ before.outbox) :
        ∃ networkId, before.session.networkId = some networkId ∧
          ∃ earlier u between, trace ++ [(s, label, s')] = earlier ++ u :: between ∧
            Produces u.1 u.2.1 networkId c msg ∧ ∀ v ∈ between, v.1.pending c ≠ [] := by
      obtain ⟨networkId, hnetwork, earlier, u, between, rfl, hproduces, hbusy⟩ := ih hbefore hpending
      refine ⟨networkId, hnetwork, earlier, u, between ++ [(s, label, s')], by simp, hproduces,
        fun v hv => ?_⟩
      rcases List.mem_append.mp hv with hold | hnew
      · exact hbusy v hold
      · rw [List.mem_singleton.mp hnew]
        simpa [System.pending, hbefore] using List.ne_nil_of_mem hpending
    have hnow {before : Conn crates} {clock : Clock} {networkId : String}
        (hlabel : label = .exec c clock) (hbefore : s.conns[c]? = some before)
        (houtbox : before.outbox = []) (hnetwork : before.session.networkId = some networkId)
        (hreply : msg ∈ before.exchangeReplies s.relay.pex clock c) :
        ∃ earlier u between, trace ++ [(s, label, s')] = earlier ++ u :: between ∧
          Produces u.1 u.2.1 networkId c msg ∧ ∀ v ∈ between, v.1.pending c ≠ [] := by
      subst hlabel
      exact ⟨trace, _, [], rfl, .reply hbefore houtbox hnetwork hreply, by simp⟩
    have hsession : conn.session = conn.task.1 := rfl
    have hmem : .pex tx msg ∈ conn.task.2.1 := hmem
    rw [hsession]
    generalize conn.task = task at htask hmem
    rcases hturn.task_cases htask with rfl | ⟨before, hbefore, rfl | hmoved⟩
    · cases hmem
    · exact hlater hbefore hmem
    · cases hmoved with
      | sent clock houtbox => exact hlater hbefore (houtbox ▸ List.mem_cons_of_mem _ hmem)
      | took frame clock houtbox htakes =>
        exact absurd hmem (pex_notMem_of_isPlain htakes.outbox tx msg)
      | moved houtbox hphase hplain => exact absurd hmem (hplain tx msg)
      | committed => cases hmem
      | handshook clock houtbox hphase hnetwork =>
        exact ⟨_, hnetwork, hnow rfl hbefore houtbox hnetwork (mem_toSelfPex.mp hmem).2⟩
      | replied clock houtbox hphase =>
        have hexchanging := exchanging_of_reachable hreach hbefore
        obtain ⟨networkId, hnetwork⟩ :=
          Option.isSome_iff_exists.mp (hexchanging.networked (hexchanging.asking hphase))
        exact ⟨networkId, hnetwork, hnow rfl hbefore houtbox hnetwork (mem_toSelfPex.mp hmem).2⟩

/-- In every run in which nothing changes networks while a link is up, every exchange message that a
transition sends to a connection was produced by the engine of the network the connection's session
is on, and a tick of another network's engine sends it nothing. -/
theorem run_exchange_scoped (laws : LinkLaws crates)
    {trace before after : List (System crates × Label crates × System crates)}
    {t : System crates × Label crates × System crates} (hrun : Run setup trace sys)
    (hguard : ∀ t ∈ trace, ¬ CrossesNetworks laws t.1 t.2.1) (htrace : trace = before ++ t :: after) :
    (∀ c msg, (c, msg) ∈ pexSends t.1 t.2.1 → ∃ conn networkId, t.1.conns[c]? = some conn ∧
      conn.session.networkId = some networkId ∧ ProducedOn before t networkId c msg) ∧
    ∀ nowMs networkId c msg, t.2.1 = .pexTick nowMs → Produces t.1 t.2.1 networkId c msg →
      ∃ conn, t.1.conns[c]? = some conn ∧ conn.session.networkId = some networkId := by
  subst htrace
  have hbefore := hrun.before.1
  have hreach : IsReachable setup t.1 := ⟨before, hbefore⟩
  have hscoped : Scoped laws t.1 := by
    refine (hbefore.invariant_of_guard (fun sys label => ¬ CrossesNetworks laws sys label)
      (Scoped laws) (fun u hu => hguard u (List.mem_append_left _ hu)) ?_
      fun s label s' hreach hmet hscoped hnext => next_scoped hreach hmet hscoped hnext).1
    rintro networkId peerId c ⟨⟨engine, hengine, -⟩, -⟩
    cases hengine
  constructor
  · intro c msg hsend
    rcases mem_pexSends hreach hsend with ⟨clock, conn, rest, -, hconn, houtbox, -⟩ | ⟨nowMs, hlabel, htick⟩
    · obtain ⟨networkId, hnetwork, hproduced⟩ := run_reply_produced hbefore hconn
        (houtbox ▸ List.mem_cons_self)
      exact ⟨conn, networkId, hconn, hnetwork, .inr hproduced⟩
    · obtain ⟨networkId, engine, peerId, hengine, hemit, hsender⟩ := mem_tick.mp htick
      obtain ⟨conn, hconn, hnetwork⟩ :=
        hscoped networkId peerId c (route_of_emits hengine hemit hsender)
      exact ⟨conn, networkId, hconn, hnetwork, .inl (hlabel ▸ .delta hengine hemit hsender)⟩
  · intro nowMs networkId c msg hlabel hproduces
    rw [hlabel] at hproduces
    cases hproduces with
    | delta hengine hemit hsender => exact hscoped _ _ c (route_of_emits hengine hemit hsender)

/-- The exchange messages a transition of the written-out exchange sends. -/
def listSends (sys : System listCrates) (label : Label listCrates) : List (ConnId × ListMessage) :=
  pexSends sys label

/-- Whether a transition lets an id or a connection change networks while a link is up, as a
check. -/
def crossesNetworks (sys : System listCrates) : Label listCrates → Bool
  | .exec c _ => sys.conns[c]?.any fun conn =>
    match conn.phase with
    | .registerPex request _ => linksPeerOn sys (fun _ => true) request.peerId
    | .registerCommit request _ => sys.relay.pex.conns.toPairs.any fun entry =>
      entry.2 = c && linksPeerOn sys (fun networkId => networkId ≠ request.networkId) entry.1
    | .pexHandshake _ => conn.session.peerId.any
      (linksPeerOn sys fun networkId => conn.session.networkId ≠ some networkId)
    | _ => false
  | _ => false

/-- A transition that passes the check lets nothing change networks. -/
theorem crossesNetworks_sound {sys : System listCrates} {label : Label listCrates}
    (h : crossesNetworks sys label = false) : ¬ CrossesNetworks listLinks sys label := by
  rintro ⟨c, clock, conn, rfl, hconn, -, ⟨request, slot, networkId, hphase, hlinked⟩ |
    ⟨request, slot, networkId, peerId, hphase, ⟨hlinked, hsender⟩, hne⟩ |
    ⟨msg, networkId, peerId, hphase, hid, hlinked, hne⟩⟩
  · rw [crossesNetworks, hconn, Option.any_some, hphase] at h
    have hnone : linksPeerOn sys (fun _ => true) request.peerId = false := h
    exact Bool.eq_false_iff.mp hnone (linksPeerOn_of_linked hlinked rfl)
  · rw [crossesNetworks, hconn, Option.any_some, hphase] at h
    refine List.any_eq_false.mp h (peerId, c) ((Table.mem_toPairs_iff _ _ _).mpr hsender) ?_
    exact Bool.and_eq_true_iff.mpr ⟨decide_eq_true rfl,
      linksPeerOn_of_linked hlinked (decide_eq_true hne)⟩
  · rw [crossesNetworks, hconn, Option.any_some, hphase] at h
    simp only [hid, Option.any_some] at h
    exact Bool.eq_false_iff.mp h (linksPeerOn_of_linked hlinked (decide_eq_true hne))

/-- Two peers on two networks have started the exchange. When a further peer has registered on each
network, a tick sends each of the two the delta of its own network. -/
theorem run_exchange_scoped_two_networks :
    ∃ before t, @Run listCrates standardSetup (before ++ [t]) t.2.2 ∧
      listSends t.1 t.2.1 = [(1, .delta ["s"] []), (0, .delta ["r"] [])] ∧
      ∀ c msg, (c, msg) ∈ pexSends t.1 t.2.1 → ∃ conn networkId, t.1.conns[c]? = some conn ∧
        conn.session.networkId = some networkId ∧ ProducedOn before t networkId c msg := by
  obtain ⟨trace, sys, sys', hrun, hcheck, hends⟩ := @exists_checked_run listCrates standardSetup
    (fun sys label => !crossesNetworks sys label)
    (Script.connect 0 0 ++ Script.register 0 "p" "a" 0 0 ++
      Script.handshake 0 (ListMessage.handshake "a") 1 3 ++
      Script.connect 1 0 ++ Script.register 1 "q" "b" 0 0 ++
      Script.handshake 1 (ListMessage.handshake "b") 1 3 ++
      Script.connect 2 2 ++ Script.register 2 "r" "a" 2 1 ++
      Script.connect 3 2 ++ Script.register 3 "s" "b" 2 1)
    (.pexTick 70000)
    (fun sys _ => listSends sys (.pexTick 70000) = [(1, .delta ["s"] []), (0, .delta ["r"] [])])
    (by decide +kernel)
  refine ⟨trace, _, hrun, of_decide_eq_true hends, ?_⟩
  exact (run_exchange_scoped listLinks hrun
    (fun t ht => crossesNetworks_sound (by simpa using hcheck t ht)) rfl).1

/-- Whether on a tick the engine of the network emits the message for the peer and the connection is
the peer's retained sender, as a check. -/
def producesOnTick (sys : System listCrates) (nowMs : ℕ) (networkId peerId : String) (c : ConnId)
    (msg : ListMessage) : Bool :=
  ((sys.relay.pex.engines.lookup networkId).any fun engine =>
    (peerId, msg) ∈ (ListEngine.tick engine nowMs).1) && sys.relay.pex.conns.lookup peerId = some c

/-- The check finds produced deltas. -/
theorem produces_of_producesOnTick {sys : System listCrates} {nowMs : ℕ} {networkId peerId : String}
    {c : ConnId} {msg : ListMessage} (h : producesOnTick sys nowMs networkId peerId c msg = true) :
    Produces sys (.pexTick nowMs) networkId c msg := by
  obtain ⟨hemits, hsender⟩ := Bool.and_eq_true_iff.mp h
  obtain ⟨engine, hengine, hemit⟩ := (Option.any_eq_true _ _).mp hemits
  have hemitted : (peerId, msg) ∈ (ListEngine.tick engine nowMs).1 := of_decide_eq_true hemit
  exact .delta hengine hemitted (of_decide_eq_true hsender)

/-- A connection that has started the exchange on one network and registers on another gets the
first network's delta when a further peer registers there. So does a connection that reclaims, on another
network, the id of a peer that had started the exchange. -/
theorem exists_run_exchange_not_scoped :
    (∃ trace sys nowMs sys' conn,
      @Run listCrates standardSetup (trace ++ [(sys, .pexTick nowMs, sys')]) sys' ∧
      sys.conns[0]? = some conn ∧ conn.session.networkId = some "b" ∧
      Produces sys (.pexTick nowMs) "a" 0 (ListMessage.delta ["r"] []) ∧
      ListMessage.delta ["r"] [] ∈ listQueue sys' 0) ∧
    ∃ trace sys nowMs sys' conn,
      @Run listCrates standardSetup (trace ++ [(sys, .pexTick nowMs, sys')]) sys' ∧
      sys.conns[1]? = some conn ∧ conn.session.networkId = some "b" ∧
      Produces sys (.pexTick nowMs) "a" 1 (ListMessage.delta ["r"] []) ∧
      ListMessage.delta ["r"] [] ∈ listQueue sys' 1 := by
  constructor
  · obtain ⟨trace, sys, sys', hrun, hends⟩ := @exists_run_step listCrates standardSetup
      (Script.connect 0 0 ++ Script.register 0 "p" "a" 0 0 ++
        Script.handshake 0 (ListMessage.handshake "a") 1 3 ++ Script.register 0 "q" "b" 2 0 ++
        Script.connect 1 3 ++ Script.register 1 "r" "a" 3 1)
      (.pexTick 70000)
      (fun sys sys' => (sys.conns[0]?.any fun conn => conn.session.networkId = some "b") &&
        producesOnTick sys 70000 "a" "p" 0 (.delta ["r"] []) &&
        ListMessage.delta ["r"] [] ∈ listQueue sys' 0) (by decide +kernel)
    simp only [Bool.and_eq_true, decide_eq_true_eq, Option.any_eq_true] at hends
    obtain ⟨⟨⟨conn, hconn, hnetwork⟩, hdelta⟩, hqueue⟩ := hends
    exact ⟨trace, sys, 70000, sys', conn, hrun, hconn, hnetwork, produces_of_producesOnTick hdelta,
      hqueue⟩
  · obtain ⟨trace, sys, sys', hrun, hends⟩ := @exists_run_step listCrates standardSetup
      (Script.connect 0 0 ++ Script.register 0 "p" "a" 0 0 ++
        Script.handshake 0 (ListMessage.handshake "a") 1 3 ++ [.writeRelay 0 false] ++
        Script.connect 1 2 ++ Script.register 1 "p" "b" 2 0 ++
        Script.connect 2 3 ++ Script.register 2 "r" "a" 3 0)
      (.pexTick 70000)
      (fun sys sys' => (sys.conns[1]?.any fun conn => conn.session.networkId = some "b") &&
        producesOnTick sys 70000 "a" "p" 1 (.delta ["r"] []) &&
        ListMessage.delta ["r"] [] ∈ listQueue sys' 1) (by decide +kernel)
    simp only [Bool.and_eq_true, decide_eq_true_eq, Option.any_eq_true] at hends
    obtain ⟨⟨⟨conn, hconn, hnetwork⟩, hdelta⟩, hqueue⟩ := hends
    exact ⟨trace, sys, 70000, sys', conn, hrun, hconn, hnetwork, produces_of_producesOnTick hdelta,
      hqueue⟩

end DigRelay
