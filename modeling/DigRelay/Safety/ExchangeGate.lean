import DigRelay.Server.Exchange
import DigRelay.Server.ListExchange
import DigRelay.Server.Script

/-!
# No exchange before a handshake

A connection takes part in the exchange once it has sent a handshake after registering. Replies keep
to this by themselves: they answer the connection's own frames. A tick goes by peer id, so it keeps
to it as long as no registration is mirrored under an id an engine still has a link to.
-/

namespace DigRelay

open Common

variable {crates : Crates} {setup : Setup} {sys sys' : System crates} {label : Label crates}
  {c : ConnId} {conn : Conn crates}

/-- The connection has sent an exchange handshake after it had registered. -/
def Handshaken (trace : List (System crates × Label crates × System crates)) (c : ConnId) : Prop :=
  ∃ t ∈ trace, ∃ frame clock conn msg, t.2.1 = .message c frame clock ∧ t.1.conns[c]? = some conn ∧
    conn.session.peerId.isSome = true ∧ isPexFrame frame = true ∧ frame.pex = some msg ∧
    crates.isHandshake msg = true

/-- The transition mirrors the registration of a connection that has not started the exchange, under
an id some engine has a link to. -/
def InheritsLink (laws : LinkLaws crates) (sys : System crates) (label : Label crates) : Prop :=
  ∃ c clock conn request slot networkId, label = .exec c clock ∧ sys.conns[c]? = some conn ∧
    conn.outbox = [] ∧ conn.phase = .registerPex request slot ∧ conn.session.pexActive = false ∧
    laws.Linked sys.relay.pex networkId request.peerId

/-- Whoever a tick may speak to and whoever has something in its exchange channel has started the
exchange. -/
structure Gated (laws : LinkLaws crates) (sys : System crates) : Prop where
  routes : ∀ networkId peerId c, Route laws sys.relay.pex networkId peerId c →
    ∃ conn, sys.conns[c]? = some conn ∧ conn.session.pexActive = true
  queues : ∀ c msg, msg ∈ pexQueue sys.conns c →
    ∃ conn, sys.conns[c]? = some conn ∧ conn.session.pexActive = true

/-- A connection that has started the exchange, or is about to, has sent a handshake after it had
registered. -/
theorem run_handshaken {trace : List (System crates × Label crates × System crates)}
    (hrun : Run setup trace sys) (hconn : sys.conns[c]? = some conn)
    (hstarted : conn.session.pexActive = true ∨ ∃ msg, conn.phase = .pexHandshake msg) :
    Handshaken trace c := by
  induction hrun generalizing conn with
  | nil => simp [System.new] at hconn
  | @snoc trace s label s' hrun hnext ih =>
    have hkept (hbefore : Handshaken trace c) : Handshaken (trace ++ [(s, label, s')]) c := by
      obtain ⟨t, ht, hsent⟩ := hbefore
      exact ⟨t, List.mem_append_left _ ht, hsent⟩
    have hreach : IsReachable setup s := ⟨trace, hrun⟩
    have hturn := next_turn (wellFormed_of_reachable hreach) (plain_of_reachable hreach) hnext
    have htask : s'.view.tasks[c]? = some conn.task := by simp [System.view, hconn]
    have hstarted : conn.task.1.pexActive = true ∨ ∃ msg, conn.task.2.2 = .pexHandshake msg := hstarted
    generalize conn.task = task at htask hstarted
    rcases hturn.task_cases htask with rfl | ⟨before, hbefore, rfl | hmoved⟩
    · simp at hstarted
    · exact hkept (ih hbefore hstarted)
    · cases hmoved with
      | sent => exact hkept (ih hbefore hstarted)
      | @took frame clock after houtbox htakes =>
        rw [Conn.task, htakes.session] at hstarted
        rcases hstarted with hactive | ⟨msg, hphase⟩
        · exact hkept (ih hbefore (.inl hactive))
        · have hshake : after.phase = .pexHandshake msg := hphase
          rcases htakes.phase (by rw [hshake]; rfl) with
            ⟨msg', hphase', hframe, hdecoded, hhandshake, hregistered⟩ | ⟨hlater, -⟩
          · exact ⟨_, List.mem_append_right _ (List.mem_singleton_self _), frame, clock, before, msg',
              rfl, hbefore, hregistered, hframe, hdecoded, hhandshake⟩
          · simp [hshake] at hlater
      | moved houtbox hphase hplain =>
        rcases hstarted with hactive | ⟨msg, rfl⟩
        · exact hkept (ih hbefore (.inl hactive))
        · cases hphase
      | handshook clock houtbox hphase => exact hkept (ih hbefore (.inr ⟨_, hphase⟩))
      | committed | replied => exact hkept (ih hbefore (.inl (by simpa using hstarted)))

/-- Every transition that inherits no link keeps the exchange to connections that have started it. -/
theorem next_gated {laws : LinkLaws crates} (hreach : IsReachable setup sys)
    (hguard : ¬ InheritsLink laws sys label) (hgated : Gated laws sys)
    (h : Next setup sys label sys') : Gated laws sys' := by
  have hturn := next_turn (wellFormed_of_reachable hreach) (plain_of_reachable hreach) h
  have hlater {c : ConnId} (hbefore : ∃ conn, sys.conns[c]? = some conn ∧
      conn.session.pexActive = true) :
      ∃ conn, sys'.conns[c]? = some conn ∧ conn.session.pexActive = true := by
    obtain ⟨conn, hconn, hactive⟩ := hbefore
    obtain ⟨task, htask, htaskActive⟩ := hturn.active hconn hactive
    rw [System.view, List.getElem?_map] at htask
    obtain ⟨after, hafter, rfl⟩ := Option.map_eq_some_iff.mp htask
    exact ⟨after, hafter, htaskActive⟩
  constructor
  · intro networkId peerId c hroute
    rcases hturn.route hroute with hold |
      ⟨clock, conn, request, slot, rfl, hconn, houtbox, hphase, rfl, hlinked⟩ |
      ⟨clock, conn, msg, outbox, rfl, hconn, houtbox, hphase, hid, htask, -⟩
    · exact hlater (hgated.routes networkId peerId c hold)
    · refine hlater ⟨conn, hconn, ?_⟩
      by_contra hinactive
      exact hguard ⟨c, clock, conn, request, slot, networkId, rfl, hconn, houtbox, hphase,
        by simpa using hinactive, hlinked⟩
    · rw [System.view, List.getElem?_map] at htask
      obtain ⟨after, hafter, hsession⟩ := Option.map_eq_some_iff.mp htask
      exact ⟨after, hafter, by rw [show after.session = _ from congrArg Prod.fst hsession]⟩
  · intro c msg hmem
    rcases mem_pexQueue_of_next h hmem with hold | hsend
    · exact hlater (hgated.queues c msg hold)
    · refine hlater ?_
      rcases mem_pexSends hreach hsend with
        ⟨clock, conn, rest, rfl, hconn, houtbox, hactive⟩ | ⟨nowMs, rfl, htick⟩
      · exact ⟨conn, hconn, hactive⟩
      · obtain ⟨networkId, engine, peerId, hengine, hemit, hsender⟩ := mem_tick.mp htick
        exact hgated.routes networkId peerId c (route_of_emits hengine hemit hsender)

/-- In every run in which no registration inherits a link, nothing is in a connection's exchange
channel unless the connection has sent a handshake after it had registered. -/
theorem run_exchange_after_handshake (laws : LinkLaws crates)
    {trace : List (System crates × Label crates × System crates)} (hrun : Run setup trace sys)
    (hguard : ∀ t ∈ trace, ¬ InheritsLink laws t.1 t.2.1) (hconn : sys.conns[c]? = some conn)
    (hqueue : conn.pexOut.queue ≠ []) : Handshaken trace c := by
  have hgated : Gated laws sys := by
    refine (hrun.invariant_of_guard (fun sys label => ¬ InheritsLink laws sys label)
      (Gated laws) hguard ?_ fun s label s' hreach hmet hgated hnext =>
        next_gated hreach hmet hgated hnext).1
    constructor
    · rintro networkId peerId c ⟨⟨engine, hengine, -⟩, -⟩
      cases hengine
    · intro c msg hmem
      simp [pexQueue, System.new] at hmem
  obtain ⟨msg, hmem⟩ := List.exists_mem_of_ne_nil _ hqueue
  obtain ⟨conn', hconn', hactive⟩ := hgated.queues c msg (by simpa [pexQueue, hconn] using hmem)
  exact run_handshaken hrun hconn' (.inl hactive)

/-- Whether some engine of a network that passes the test has a link to the peer, as a check. -/
def linksPeerOn (sys : System listCrates) (test : String → Bool) (peerId : String) : Bool :=
  sys.relay.pex.engines.toPairs.any fun entry => test entry.1 && peerId ∈ ListEngine.linked entry.2

/-- The check finds every link. -/
theorem linksPeerOn_of_linked {sys : System listCrates} {test : String → Bool}
    {networkId peerId : String} (hlinked : listLinks.Linked sys.relay.pex networkId peerId)
    (htest : test networkId = true) : linksPeerOn sys test peerId = true := by
  obtain ⟨engine, hengine, hmem⟩ := hlinked
  refine List.any_eq_true.mpr ⟨(networkId, engine), (Table.mem_toPairs_iff _ _ _).mpr hengine, ?_⟩
  exact Bool.and_eq_true_iff.mpr ⟨htest, decide_eq_true hmem⟩

/-- Whether a registration under the id of a link is mirrored, as a check. -/
def inheritsLink (sys : System listCrates) : Label listCrates → Bool
  | .exec c _ => sys.conns[c]?.any fun conn =>
    match conn.phase with
    | .registerPex request _ => linksPeerOn sys (fun _ => true) request.peerId
    | _ => false
  | _ => false

/-- A transition that passes the check inherits no link. -/
theorem inheritsLink_sound {sys : System listCrates} {label : Label listCrates}
    (h : inheritsLink sys label = false) : ¬ InheritsLink listLinks sys label := by
  rintro ⟨c, clock, conn, request, slot, networkId, rfl, hconn, -, hphase, -, hlinked⟩
  simp only [inheritsLink, hconn, hphase, Option.any_some] at h
  exact Bool.eq_false_iff.mp h (linksPeerOn_of_linked hlinked rfl)

/-- What waits in the exchange channel of a connection of the written-out exchange. -/
def listQueue (sys : System listCrates) (c : ConnId) : List ListMessage := pexQueue sys.conns c

/-- A connection with something in its exchange channel exists. -/
theorem exists_conn_of_listQueue {sys : System listCrates} {c : ConnId} {queue : List ListMessage}
    (h : listQueue sys c = queue) (hne : queue ≠ []) :
    ∃ conn, sys.conns[c]? = some conn ∧ conn.pexOut.queue = queue := by
  unfold listQueue pexQueue at h
  cases hconn : sys.conns[c]? with
  | none =>
    rw [hconn] at h
    exact absurd h.symm hne
  | some conn =>
    rw [hconn] at h
    exact ⟨conn, rfl, h⟩

/-- A peer registers, sends a handshake and gets the engine's own handshake and its snapshot. -/
theorem run_exchange_after_handshake_snapshot :
    ∃ trace sys conn, @Run listCrates standardSetup trace sys ∧ sys.conns[0]? = some conn ∧
      conn.pexOut.queue = [ListMessage.handshake "net", .snapshot ["q"]] ∧ Handshaken trace 0 := by
  obtain ⟨trace, sys, sys', hrun, hcheck, hends⟩ := @exists_checked_run listCrates standardSetup
    (fun sys label => !inheritsLink sys label)
    (Script.connect 0 0 ++ Script.register 0 "p" "net" 0 0 ++ Script.connect 1 0 ++
      Script.register 1 "q" "net" 0 1 ++ Script.handshake 0 (ListMessage.handshake "net") 1 3)
    .stun (fun _ sys' => listQueue sys' 0 = [ListMessage.handshake "net", .snapshot ["q"]])
    (by decide +kernel)
  obtain ⟨conn, hconn, hqueue⟩ := exists_conn_of_listQueue (of_decide_eq_true hends) (by simp)
  refine ⟨_, sys', conn, hrun, hconn, hqueue, run_exchange_after_handshake listLinks hrun
    (fun t ht => inheritsLink_sound (by simpa using hcheck t ht)) hconn ?_⟩
  rw [hqueue]
  exact List.cons_ne_nil _ _

/-- Whether a transition is an exchange frame of the connection, as a check. -/
def isPexFrameOf (c : ConnId) : Label crates → Bool
  | .message d frame _ => d = c && isPexFrame frame
  | _ => false

/-- A connection without any exchange frame has sent no handshake. -/
theorem not_handshaken {trace : List (System crates × Label crates × System crates)}
    (h : (trace.any fun t => isPexFrameOf c t.2.1) = false) : ¬ Handshaken trace c := by
  rintro ⟨t, ht, frame, clock, conn, msg, hlabel, -, -, hframe, -⟩
  exact List.any_eq_false.mp h t ht (by simp [hlabel, isPexFrameOf, hframe])

/-- A peer has started the exchange when its channel closes; another connection reclaims its id on
the same network. When a further peer registers there, the delta that tells of it goes to the second
connection, which has not sent any exchange frame. -/
theorem exists_run_exchange_without_handshake :
    ∃ trace sys conn, @Run listCrates standardSetup trace sys ∧ sys.conns[1]? = some conn ∧
      conn.pexOut.queue = [ListMessage.delta ["r"] []] ∧ ¬ Handshaken trace 1 := by
  obtain ⟨trace, sys, hrun, hends⟩ := @exists_traced_run listCrates standardSetup
    (Script.connect 0 0 ++ Script.register 0 "p" "net" 0 0 ++
      Script.handshake 0 (ListMessage.handshake "net") 1 3 ++ [.writeRelay 0 false] ++
      Script.connect 1 2 ++ Script.register 1 "p" "net" 2 0 ++
      Script.connect 2 3 ++ Script.register 2 "r" "net" 3 1 ++ [.pexTick 70000])
    (fun trace sys => listQueue sys 1 = [ListMessage.delta ["r"] []] &&
      !trace.any fun t => isPexFrameOf 1 t.2.1) (by decide +kernel)
  simp only [Bool.and_eq_true, decide_eq_true_eq, Bool.not_eq_true'] at hends
  obtain ⟨conn, hconn, hqueue⟩ := exists_conn_of_listQueue hends.1 (by simp)
  exact ⟨trace, sys, conn, hrun, hconn, hqueue, not_handshaken hends.2⟩

end DigRelay
