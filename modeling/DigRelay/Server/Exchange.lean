import DigRelay.PexLaws
import DigRelay.Server.Turn

/-!
# The exchange side of a connection

An exchange message reaches a connection's channel in two ways: as a reply that the connection's own
task has queued, or on a tick, through the sender retained under a peer id. What a transition does
to the exchange state of one connection, and which retained senders it makes reachable from an
engine, is read off the list of turns once.
-/

namespace DigRelay

open Common

variable {crates : Crates} {setup : Setup} {sys sys' : System crates} {label : Label crates}
  {c : ConnId} {conn : Conn crates}

/-- The exchange messages a transition sends, each with the connection whose channel it goes to. -/
def pexSends (sys : System crates) : Label crates → List (ConnId × crates.Message)
  | .exec c _ =>
    match sys.pending c with
    | .pex tx msg :: _ => [(tx, msg)]
    | _ => []
  | .pexTick nowMs => (sys.relay.pex.tick nowMs).1
  | _ => []

/-- What waits in the exchange channel of a connection. -/
def pexQueue (conns : List (Conn crates)) (c : ConnId) : List crates.Message :=
  (conns[c]?.map fun conn => conn.pexOut.queue).getD []

/-- What the engine of the session's network answers in the connection's next access. -/
def Conn.exchangeReplies (pex : PexRelay crates) (clock : Clock) (c : ConnId) (conn : Conn crates) :
    List crates.Message :=
  let peerId := conn.session.peerId.getD ""
  let networkId := conn.session.networkId.getD ""
  match conn.phase with
  | .pexHandshake msg =>
    ((pex.onRegister peerId networkId conn.addr c clock.ms).onNodeHandshake peerId networkId msg
      clock.ms).1
  | .pexData msg => (pex.onNodeMessage peerId networkId msg clock.ms).1
  | .pexBadFrame => (pex.onNodeBadFrame peerId networkId clock.ms).1
  | _ => []

/-- The next access asks an engine. -/
def Phase.isAsking : Phase crates → Bool
  | .pexHandshake _ | .pexData _ | .pexBadFrame => true
  | _ => false

/-- What a transition does to the task of one connection, as far as the exchange is concerned. -/
inductive TaskTurn (sys : System crates) (c : ConnId) (conn : Conn crates) :
    Label crates → Session × List (Send crates) × Phase crates → Prop
  | sent (clock : Clock) {send : Send crates} {rest : List (Send crates)}
      (houtbox : conn.outbox = send :: rest) :
      TaskTurn sys c conn (.exec c clock) (conn.session, rest, conn.phase)
  | took (frame : Frame crates) (clock : Clock) {conn' : Conn crates} (houtbox : conn.outbox = [])
      (htakes : TakesFrame frame conn conn') :
      TaskTurn sys c conn (.message c frame clock) conn'.task
  | moved {label : Label crates} {outbox : List (Send crates)} {phase : Phase crates}
      (houtbox : conn.outbox = []) (hphase : phase.isAsking = false)
      (hsends : ∀ tx msg, .pex tx msg ∉ outbox) :
      TaskTurn sys c conn label (conn.session, outbox, phase)
  | committed (clock : Clock) {request : RegisterRequest} {slot : Slot} (houtbox : conn.outbox = [])
      (hphase : conn.phase = .registerCommit request slot) :
      TaskTurn sys c conn (.exec c clock)
        ({ conn.session with peerId := some request.peerId, networkId := some request.networkId },
          [], .idle)
  | handshook (clock : Clock) {msg : crates.Message} {networkId : String}
      (houtbox : conn.outbox = []) (hphase : conn.phase = .pexHandshake msg)
      (hnetworkId : conn.session.networkId = some networkId) :
      TaskTurn sys c conn (.exec c clock)
        ({ conn.session with pexActive := true },
          toSelfPex c (conn.exchangeReplies sys.relay.pex clock c), .idle)
  | replied (clock : Clock) (houtbox : conn.outbox = [])
      (hphase : (∃ msg, conn.phase = .pexData msg) ∨ conn.phase = .pexBadFrame) :
      TaskTurn sys c conn (.exec c clock)
        (conn.session, toSelfPex c (conn.exchangeReplies sys.relay.pex clock c), .idle)

/-- A plain outbox holds no exchange message. -/
theorem pex_notMem_of_isPlain {outbox : List (Send crates)}
    (h : ∀ send ∈ outbox, send.isPlain = true) (tx : ConnId) (msg : crates.Message) :
    .pex tx msg ∉ outbox := fun hmem => by cases h _ hmem

/-- A phase outside the exchange asks no engine. -/
theorem isAsking_of_not_isExchanging {phase : Phase crates} (h : phase.isExchanging = false) :
    phase.isAsking = false := by
  cases phase <;> first | rfl | cases h

/-- Every transition keeps all tasks, adds a fresh one or replaces one. -/
theorem Turn.tasks_eq {view : View crates} (h : Turn setup sys label view) :
    view.tasks = sys.view.tasks ∨
      view.tasks = sys.view.tasks ++ [(({} : Session), [], .checkBan)] ∨
      ∃ c conn task, sys.conns[c]? = some conn ∧ TaskTurn sys c conn label task ∧
        view.tasks = sys.view.tasks.set c task := by
  cases h with
  | still | swept | noticed | forgotten | ticked | rehashed => exact .inl rfl
  | arrived => exact .inr (.inl rfl)
  | sent hconn houtbox => exact .inr (.inr ⟨_, _, _, hconn, .sent _ houtbox, rfl⟩)
  | took frame clock hconn hphase houtbox htakes =>
    exact .inr (.inr ⟨_, _, _, hconn, .took frame clock houtbox htakes, rfl⟩)
  | moved hconn houtbox hbefore hafter hplain =>
    exact .inr (.inr ⟨_, _, _, hconn, .moved houtbox (isAsking_of_not_isExchanging hafter)
      (pex_notMem_of_isPlain hplain), rfl⟩)
  | entered hconn houtbox =>
    exact .inr (.inr ⟨_, _, _, hconn, .moved houtbox rfl (by simp [toTargets]), rfl⟩)
  | mirrored hconn houtbox =>
    exact .inr (.inr ⟨_, _, _, hconn, .moved houtbox rfl (by simp), rfl⟩)
  | committed hconn houtbox hphase =>
    exact .inr (.inr ⟨_, _, _, hconn, .committed _ houtbox hphase, rfl⟩)
  | @handshook c clock conn msg peerId networkId hconn houtbox hphase hpeerId hnetworkId =>
    have hturn : TaskTurn sys c conn (.exec c clock) _ := .handshook clock houtbox hphase hnetworkId
    have hreplies : conn.exchangeReplies sys.relay.pex clock c =
        ((sys.relay.pex.onRegister peerId networkId conn.addr c clock.ms).onNodeHandshake peerId
          networkId msg clock.ms).1 := by
      simp only [Conn.exchangeReplies, hphase, hpeerId, hnetworkId, Option.getD_some]
    rw [hreplies] at hturn
    exact .inr (.inr ⟨c, conn, _, hconn, hturn, rfl⟩)
  | @data c clock conn msg hconn houtbox hphase =>
    have hturn : TaskTurn sys c conn (.exec c clock) _ := .replied clock houtbox (.inl ⟨msg, hphase⟩)
    simp only [Conn.exchangeReplies, hphase] at hturn
    exact .inr (.inr ⟨c, conn, _, hconn, hturn, rfl⟩)
  | @badFrame c clock conn hconn houtbox hphase =>
    have hturn : TaskTurn sys c conn (.exec c clock) _ := .replied clock houtbox (.inr hphase)
    simp only [Conn.exchangeReplies, hphase] at hturn
    exact .inr (.inr ⟨c, conn, _, hconn, hturn, rfl⟩)
  | removed hconn houtbox =>
    exact .inr (.inr ⟨_, _, _, hconn, .moved houtbox rfl (by simp [toTargets]), rfl⟩)
  | unmirrored hconn houtbox =>
    exact .inr (.inr ⟨_, _, _, hconn, .moved houtbox rfl (by simp), rfl⟩)

/-- A connection's task is kept or moved by its own turn. -/
theorem Turn.task_of_conn {view : View crates} (h : Turn setup sys label view)
    (hconn : sys.conns[c]? = some conn) :
    ∃ task, view.tasks[c]? = some task ∧ (task = conn.task ∨ TaskTurn sys c conn label task) := by
  have htask : sys.view.tasks[c]? = some conn.task := by simp [System.view, hconn]
  rcases h.tasks_eq with hsame | hadded | ⟨d, before, task, hbefore, hturn, hset⟩
  · exact ⟨conn.task, hsame ▸ htask, .inl rfl⟩
  · refine ⟨conn.task, ?_, .inl rfl⟩
    rw [hadded, List.getElem?_append_left (List.getElem?_eq_some_iff.mp htask).1, htask]
  · by_cases hd : d = c
    · subst hd
      obtain rfl := Option.some.inj (hbefore.symm.trans hconn)
      refine ⟨task, ?_, .inr hturn⟩
      rw [hset, List.getElem?_set_self (List.getElem?_eq_some_iff.mp htask).1]
    · refine ⟨conn.task, ?_, .inl rfl⟩
      rw [hset, List.getElem?_set_ne hd, htask]

/-- A task that was not there before is a fresh one. -/
theorem Turn.task_new {view : View crates} {task : Session × List (Send crates) × Phase crates}
    (h : Turn setup sys label view) (hnone : sys.conns[c]? = none)
    (htask : view.tasks[c]? = some task) : task = ({}, [], .checkBan) := by
  have hbefore : sys.view.tasks[c]? = none := by simp [System.view, hnone]
  rcases h.tasks_eq with hsame | hadded | ⟨d, before, after, hconn, -, hset⟩
  · rw [hsame, hbefore] at htask
    cases htask
  · rw [hadded, List.getElem?_append_right (List.getElem?_eq_none_iff.mp hbefore)] at htask
    exact List.mem_singleton.mp (List.mem_of_getElem? htask)
  · have hd : d ≠ c := fun hd => by rw [hd, hnone] at hconn; cases hconn
    rw [hset, List.getElem?_set_ne hd, hbefore] at htask
    cases htask

/-- Every task after a transition is a fresh one, or kept or moved by its own turn. -/
theorem Turn.task_cases {view : View crates} {task : Session × List (Send crates) × Phase crates}
    (h : Turn setup sys label view) (htask : view.tasks[c]? = some task) :
    task = ({}, [], .checkBan) ∨
      ∃ conn, sys.conns[c]? = some conn ∧ (task = conn.task ∨ TaskTurn sys c conn label task) := by
  cases hconn : sys.conns[c]? with
  | none => exact .inl (h.task_new hconn htask)
  | some conn =>
    obtain ⟨after, hafter, hturn⟩ := h.task_of_conn hconn
    obtain rfl := Option.some.inj (hafter.symm.trans htask)
    exact .inr ⟨conn, rfl, hturn⟩

/-- A connection that has started the exchange stays in it. -/
theorem Turn.active {view : View crates} (h : Turn setup sys label view)
    (hconn : sys.conns[c]? = some conn) (hactive : conn.session.pexActive = true) :
    ∃ task, view.tasks[c]? = some task ∧ task.1.pexActive = true := by
  obtain ⟨task, htask, rfl | hturn⟩ := h.task_of_conn hconn
  · exact ⟨_, htask, hactive⟩
  · refine ⟨task, htask, ?_⟩
    cases hturn with
    | took frame clock houtbox htakes =>
      rw [Conn.task, htakes.session]
      exact hactive
    | handshook => rfl
    | sent | moved | committed | replied => exact hactive

/-- The engine of the network may speak to the connection on a tick: it has a link to an id whose
retained sender is the connection. -/
def Route (laws : LinkLaws crates) (pex : PexRelay crates) (networkId peerId : String) (c : ConnId) :
    Prop :=
  laws.Linked pex networkId peerId ∧ pex.conns.lookup peerId = some c

/-- A route is an old one, or the mirror of a registration that finds a link under its id, or comes
with a handshake. -/
theorem Turn.route {laws : LinkLaws crates} {view : View crates} {networkId peerId : String}
    (h : Turn setup sys label view) (hroute : Route laws view.pex networkId peerId c) :
    Route laws sys.relay.pex networkId peerId c ∨
    (∃ clock conn request slot, label = .exec c clock ∧ sys.conns[c]? = some conn ∧
      conn.outbox = [] ∧ conn.phase = .registerPex request slot ∧ request.peerId = peerId ∧
      laws.Linked sys.relay.pex networkId peerId) ∨
    ∃ clock conn msg outbox, label = .exec c clock ∧ sys.conns[c]? = some conn ∧
      conn.outbox = [] ∧ conn.phase = .pexHandshake msg ∧ conn.session.peerId = some peerId ∧
      view.tasks[c]? = some ({ conn.session with pexActive := true }, outbox, .idle) ∧
      (conn.session.networkId = some networkId ∨ laws.Linked sys.relay.pex networkId peerId) := by
  obtain ⟨hlinked, hsender⟩ := hroute
  cases h with
  | @mirrored d clock conn request slot hconn houtbox hphase =>
    have hbefore := LinkLaws.linked_of_onRegister hlinked
    rw [PexRelay.onRegister_conns, Table.lookup_insert_eq] at hsender
    split at hsender
    · rename_i hid
      obtain rfl := Option.some.inj hsender
      exact .inr (.inl ⟨clock, conn, request, slot, rfl, hconn, houtbox, hphase, hid.symm, hbefore⟩)
    · exact .inl ⟨hbefore, hsender⟩
  | @handshook d clock conn msg id network hconn houtbox hphase hid hnetwork =>
    have hbefore := LinkLaws.linked_of_onNodeHandshake hlinked
    rw [PexRelay.onNodeHandshake_conns, PexRelay.onRegister_conns, Table.lookup_insert_eq] at hsender
    split at hsender
    · rename_i hsame
      subst hsame
      obtain rfl := Option.some.inj hsender
      have htask : sys.view.tasks[d]? = some conn.task := by simp [System.view, hconn]
      refine .inr (.inr ⟨clock, conn, msg, _, rfl, hconn, houtbox, hphase, hid,
        List.getElem?_set_self (List.getElem?_eq_some_iff.mp htask).1, ?_⟩)
      rcases hbefore with hold | ⟨hnew, -⟩
      · exact .inr (LinkLaws.linked_of_onRegister hold)
      · exact .inl (hnew ▸ hnetwork)
    · rename_i hother
      rcases hbefore with hold | ⟨-, hsame⟩
      · exact .inl ⟨LinkLaws.linked_of_onRegister hold, hsender⟩
      · exact absurd hsame hother
  | data =>
    rw [PexRelay.onNodeMessage_conns] at hsender
    exact .inl ⟨LinkLaws.linked_of_onNodeMessage hlinked, hsender⟩
  | badFrame =>
    rw [PexRelay.onNodeBadFrame_conns] at hsender
    exact .inl ⟨LinkLaws.linked_of_onNodeBadFrame hlinked, hsender⟩
  | unmirrored | forgotten =>
    rw [PexRelay.onUnregister_conns] at hsender
    exact .inl ⟨(LinkLaws.linked_of_onUnregister hlinked).1, (Table.lookup_erase_eq_some hsender).2⟩
  | ticked => exact .inl ⟨LinkLaws.linked_of_tick hlinked, hsender⟩
  | rehashed _ hengines =>
    exact .inl ⟨(PexRelay.inEngine_rehashed hengines).mp hlinked, hsender⟩
  | _ => exact .inl ⟨hlinked, hsender⟩

/-- What a tick sends was emitted by some engine for an id whose retained sender is the target. -/
theorem mem_tick {pex : PexRelay crates} {nowMs : ℕ} {msg : crates.Message} :
    (c, msg) ∈ (pex.tick nowMs).1 ↔ ∃ networkId engine peerId,
      pex.engines.lookup networkId = some engine ∧ (peerId, msg) ∈ (crates.tick engine nowMs).1 ∧
        pex.conns.lookup peerId = some c := by
  simp only [PexRelay.tick, List.mem_filterMap, List.mem_flatMap, Option.map_eq_some_iff, Prod.mk.injEq,
    Prod.exists]
  constructor
  · rintro ⟨peerId, _, ⟨networkId, engine, hengine, hemit⟩, tx, hsender, rfl, rfl⟩
    exact ⟨networkId, engine, peerId, (Table.mem_toPairs_iff _ _ _).mp hengine, hemit, hsender⟩
  · rintro ⟨networkId, engine, peerId, hengine, hemit, hsender⟩
    exact ⟨peerId, msg, ⟨networkId, engine, (Table.mem_toPairs_iff _ _ _).mpr hengine, hemit⟩, c,
      hsender, rfl, rfl⟩

/-- What a tick sends runs along a route. -/
theorem route_of_emits {laws : LinkLaws crates} {pex : PexRelay crates} {nowMs : ℕ}
    {networkId peerId : String} {engine : crates.Engine} {msg : crates.Message}
    (hengine : pex.engines.lookup networkId = some engine)
    (hemit : (peerId, msg) ∈ (crates.tick engine nowMs).1)
    (hsender : pex.conns.lookup peerId = some c) : Route laws pex networkId peerId c :=
  ⟨⟨engine, hengine, laws.emits engine nowMs peerId msg hemit⟩, hsender⟩

/-- The exchange state of a task: once active it has a network, it asks an engine about a later
frame only when active, and it queues exchange messages for itself alone and only when active. -/
structure Exchanging (c : ConnId) (task : Session × List (Send crates) × Phase crates) : Prop where
  networked : task.1.pexActive = true → task.1.networkId.isSome = true
  asking : ((∃ msg, task.2.2 = .pexData msg) ∨ task.2.2 = .pexBadFrame) → task.1.pexActive = true
  sends : ∀ tx msg, .pex tx msg ∈ task.2.1 → tx = c ∧ task.1.pexActive = true

/-- An exchange reply of a connection goes to the connection itself. -/
theorem mem_toSelfPex {tx : ConnId} {msgs : List crates.Message} {msg : crates.Message} :
    (Send.pex tx msg : Send crates) ∈ toSelfPex c msgs ↔ tx = c ∧ msg ∈ msgs := by
  simp only [toSelfPex, List.mem_map, Send.pex.injEq]
  constructor
  · rintro ⟨_, hmem, rfl, rfl⟩
    exact ⟨rfl, hmem⟩
  · rintro ⟨rfl, hmem⟩
    exact ⟨msg, hmem, rfl, rfl⟩

/-- A task in a phase that asks no engine meets no condition for asking. -/
theorem not_asking {phase : Phase crates} (h : phase.isAsking = false) :
    ¬ ((∃ msg, phase = .pexData msg) ∨ phase = .pexBadFrame) := by
  rintro (⟨msg, rfl⟩ | rfl) <;> cases h

/-- A task's own turn keeps its exchange state. -/
theorem TaskTurn.exchanging {task : Session × List (Send crates) × Phase crates}
    (h : TaskTurn sys c conn label task) (hexchanging : Exchanging c conn.task) :
    Exchanging c task := by
  obtain ⟨hnetworked, hasking, hsends⟩ := hexchanging
  cases h with
  | sent clock houtbox =>
    refine ⟨hnetworked, hasking, fun tx msg hmem => hsends tx msg ?_⟩
    rw [Conn.task, houtbox]
    exact List.mem_cons_of_mem _ hmem
  | @took frame clock conn' houtbox htakes =>
    refine ⟨?_, fun hlater => ?_, fun tx msg hmem =>
      absurd hmem (pex_notMem_of_isPlain htakes.outbox tx msg)⟩
    · rw [Conn.task, htakes.session]
      exact hnetworked
    · have hphase : (∃ msg, conn'.phase = .pexData msg) ∨ conn'.phase = .pexBadFrame := hlater
      have hexchanging : conn'.phase.isExchanging = true := by
        rcases hphase with ⟨msg, hphase⟩ | hphase <;> rw [hphase] <;> rfl
      rw [Conn.task, htakes.session]
      rcases htakes.phase hexchanging with ⟨msg, hshake, -⟩ | ⟨-, hactive⟩
      · exact absurd hphase (by simp [hshake])
      · exact hactive
  | moved houtbox hphase hplain =>
    exact ⟨hnetworked, fun hlater => absurd hlater (not_asking hphase), fun tx msg hmem =>
      absurd hmem (hplain tx msg)⟩
  | committed => exact ⟨fun _ => rfl, by simp, by simp⟩
  | handshook clock houtbox hphase hnetworkId =>
    refine ⟨fun _ => by simp [hnetworkId], by simp, fun tx msg hmem => ?_⟩
    exact ⟨(mem_toSelfPex.mp hmem).1, rfl⟩
  | replied clock houtbox hphase =>
    exact ⟨hnetworked, by simp, fun tx msg hmem => ⟨(mem_toSelfPex.mp hmem).1, hasking hphase⟩⟩

/-- In every reachable state every task's exchange state is in order. -/
theorem exchanging_of_reachable (h : IsReachable setup sys) (hconn : sys.conns[c]? = some conn) :
    Exchanging c conn.task := by
  have hall : ∀ c task, sys.view.tasks[c]? = some task → Exchanging c task := by
    refine h.invariant (fun sys => ∀ c task, sys.view.tasks[c]? = some task → Exchanging c task)
      (by simp [System.view, System.new]) fun s label s' hreach hbefore hnext c task htask => ?_
    have hturn := next_turn (wellFormed_of_reachable hreach) (plain_of_reachable hreach) hnext
    rcases hturn.task_cases htask with rfl | ⟨conn, hconn, rfl | hmoved⟩
    · exact ⟨by simp, by simp, by simp⟩
    · exact hbefore c conn.task (by simp [System.view, hconn])
    · exact hmoved.exchanging (hbefore c conn.task (by simp [System.view, hconn]))
  exact hall c conn.task (by simp [System.view, hconn])

/-- An exchange message is sent by the connection it goes to, which has started the exchange, or by
a tick. -/
theorem mem_pexSends {msg : crates.Message} (hreach : IsReachable setup sys)
    (h : (c, msg) ∈ pexSends sys label) :
    (∃ clock conn rest, label = .exec c clock ∧ sys.conns[c]? = some conn ∧
        conn.outbox = .pex c msg :: rest ∧ conn.session.pexActive = true) ∨
      ∃ nowMs, label = .pexTick nowMs ∧ (c, msg) ∈ (sys.relay.pex.tick nowMs).1 := by
  unfold pexSends at h
  split at h
  · rename_i d clock
    split at h
    · rename_i tx other rest hpending
      obtain ⟨rfl, rfl⟩ := Prod.mk.injEq .. ▸ List.mem_singleton.mp h
      obtain ⟨conn, hconn, houtbox⟩ : ∃ conn, sys.conns[d]? = some conn ∧
          conn.outbox = .pex c msg :: rest := by
        unfold System.pending at hpending
        cases hconn : sys.conns[d]? with
        | none => simp [hconn] at hpending
        | some conn => exact ⟨conn, rfl, by simpa [hconn] using hpending⟩
      obtain ⟨rfl, hactive⟩ := (exchanging_of_reachable hreach hconn).sends c msg
        (by rw [Conn.task, houtbox]; exact List.mem_cons_self)
      exact .inl ⟨clock, conn, rest, rfl, hconn, houtbox, hactive⟩
    · cases h
  · exact .inr ⟨_, rfl, h⟩
  · cases h

/-- Replacing a connection by one with nothing more in its exchange channel enqueues nothing. -/
theorem mem_pexQueue_of_set {conns : List (Conn crates)} {d : ConnId} {before after : Conn crates}
    {msg : crates.Message} (hbefore : conns[d]? = some before)
    (hqueue : after.pexOut.queue ⊆ before.pexOut.queue)
    (h : msg ∈ pexQueue (conns.set d after) c) : msg ∈ pexQueue conns c := by
  unfold pexQueue at h ⊢
  by_cases hd : d = c
  · subst hd
    rw [List.getElem?_set_self (List.getElem?_eq_some_iff.mp hbefore).1] at h
    rw [hbefore]
    exact hqueue h
  · rwa [List.getElem?_set_ne hd] at h

/-- A send enqueues an exchange message on the channel it is addressed to and nothing else. -/
theorem mem_pexQueue_of_deliver {conns : List (Conn crates)} {send : Send crates}
    {msg : crates.Message} (h : msg ∈ pexQueue (deliver send conns) c) :
    msg ∈ pexQueue conns c ∨ send = .pex c msg := by
  have hdelivers := delivers_deliver send conns
  by_cases hc : c = send.target
  · subst hc
    unfold pexQueue at h ⊢
    rw [hdelivers.target] at h
    cases hconn : conns[send.target]? with
    | none =>
      rw [hconn] at h
      cases h
    | some conn =>
      rw [hconn] at h
      cases send with
      | relay tx other => exact .inl h
      | pex tx other =>
        rcases Channel.mem_of_mem_trySend h with hold | hnew
        · exact .inl hold
        · exact .inr (by rw [hnew]; rfl)
  · unfold pexQueue at h ⊢
    rw [hdelivers.others c hc] at h
    exact .inl h

/-- Several sends enqueue exchange messages on the channels they are addressed to and nothing
else. -/
theorem mem_pexQueue_of_deliverAll {conns : List (Conn crates)} {sends : List (Send crates)}
    {msg : crates.Message} (h : msg ∈ pexQueue (deliverAll sends conns) c) :
    msg ∈ pexQueue conns c ∨ .pex c msg ∈ sends := by
  induction sends generalizing conns with
  | nil => exact .inl h
  | cons send rest ih =>
    rcases ih h with hdelivered | hmem
    · rcases mem_pexQueue_of_deliver hdelivered with hold | rfl
      · exact .inl hold
      · exact .inr List.mem_cons_self
    · exact .inr (List.mem_cons_of_mem _ hmem)

/-- Taking a frame leaves the exchange channel alone. -/
theorem takeFrame_pexOut {config : RelayServerConfig} {frame : Frame crates} {clock : Clock} :
    (conn.takeFrame config c frame clock).pexOut = conn.pexOut := by
  dsimp only [Conn.takeFrame]
  split
  · rfl
  · split
    · unfold Conn.takePexFrame
      split <;> rfl
    · split <;> rfl

/-- Everything in an exchange channel was there before or is sent by the transition. -/
theorem mem_pexQueue_of_next {msg : crates.Message} (h : Next setup sys label sys')
    (hmem : msg ∈ pexQueue sys'.conns c) :
    msg ∈ pexQueue sys.conns c ∨ (c, msg) ∈ pexSends sys label := by
  have hset {d : ConnId} {before after : Conn crates} (hbefore : sys.conns[d]? = some before)
      (hmem : msg ∈ pexQueue (sys.conns.set d after) c) (hqueue : after.pexOut = before.pexOut) :
      msg ∈ pexQueue sys.conns c :=
    mem_pexQueue_of_set hbefore (by rw [hqueue]; exact List.Subset.refl _) hmem
  by_cases hlabel : label.isBackground = true
  · cases next_background h hlabel with
    | wrote hconn _ hqueue => exact .inl (mem_pexQueue_of_set hconn hqueue hmem)
    | finished hconn => exact .inl (mem_pexQueue_of_set hconn (List.nil_subset _) hmem)
    | asked =>
      dsimp only at hmem
      rcases mem_pexQueue_of_deliver hmem with hold | hsend
      · exact .inl hold
      · cases hsend
    | asking | built | stunned => exact .inl hmem
    | ticked nowMs =>
      rcases mem_pexQueue_of_deliverAll hmem with hold | hsend
      · exact .inl hold
      · obtain ⟨⟨tx, other⟩, htick, heq⟩ := List.mem_map.mp hsend
        obtain ⟨rfl, rfl⟩ := Send.pex.injEq .. ▸ heq
        exact .inr htick
  · cases next_move h with
    | wrote hback | closed hback | background _ hback => exact absurd hback hlabel
    | accepted addr identity =>
      refine .inl ?_
      unfold pexQueue at hmem ⊢
      rw [List.getElem?_append] at hmem
      split at hmem
      · exact hmem
      · cases hd : c - sys.conns.length <;> simp [hd, Conn.accepted, Channel.empty] at hmem
    | @sent d clock conn send rest hconn houtbox =>
      rcases mem_pexQueue_of_deliver hmem with hold | rfl
      · exact .inl (hset hconn hold rfl)
      · refine .inr ?_
        simp [pexSends, System.pending, hconn, houtbox]
    | accessed hconn houtbox haccess =>
      have hsurface := access_surface haccess
      simp only [Conn.surface, Prod.mk.injEq] at hsurface
      exact .inl (hset hconn hmem hsurface.2.2.2.2.2)
    | head outcome clock hconn =>
      refine .inl (hset hconn hmem ?_)
      cases outcome <;> rfl
    | message frame clock hconn => exact .inl (hset hconn hmem takeFrame_pexOut)
    | control hconn => exact .inl (hset hconn hmem rfl)
    | hangup hconn => exact .inl (hset hconn hmem rfl)
    | noticed hpruned =>
      dsimp only at hmem
      rcases mem_pexQueue_of_deliver hmem with hold | hsend
      · exact .inl hold
      · cases hsend
    | swept | forgotten | rehashed => exact .inl hmem

end DigRelay
