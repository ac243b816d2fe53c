import DigRelay.Server.Outbox
import DigRelay.Server.Script

/-!
# The gate before registration

A connection that has not registered should get nothing done: whatever it sends, other than a
registration, is answered with one error, and nothing shared changes. The dispatcher keeps to
this. But the frame loop counts relayed payloads and hole punches before it dispatches, and
answers a request for the peer list by itself. A frame is handled as the gate demands exactly
when neither concerns it.
-/

namespace DigRelay

open Common

variable {crates : Crates} {setup : Setup} {sys sys' : System crates} {label : Label crates}
  {c : ConnId} {conn : Conn crates} {frame : Frame crates} {clock : Clock}

/-- The frame is a register message. -/
def Frame.isRegister (frame : Frame crates) : Bool :=
  !isPexFrame frame &&
    match frame.relay with
    | some (.register _ _ _ _) => true
    | _ => false

/-- The message moves one of the traffic counters. -/
def RelayMessage.isCounted : RelayMessage → Bool
  | .relayGossipMessage _ _ payload _ => UInt64.ofNat payload.length ≠ 0
  | .broadcast _ payload _ => UInt64.ofNat payload.length ≠ 0
  | .holePunchRequest _ _ _ => true
  | .holePunchResult _ _ => true
  | _ => false

/-- The frame is an exchange frame, does not parse, or is a message that is neither counted nor
a request for the peer list. -/
def Frame.isGated (frame : Frame crates) : Bool :=
  isPexFrame frame ||
    match frame.relay with
    | none => true
    | some (.getPeers _) => false
    | some msg => !msg.isCounted

/-- The code of the one error that answers a frame before registration. -/
def Frame.gateCode (frame : Frame crates) : UInt32 :=
  if !isPexFrame frame && frame.relay.isNone then ErrCode.badMessage else ErrCode.notRegistered

/-- The connection's limiter lets the frame through. -/
def Conn.allows (config : RelayServerConfig) (conn : Conn crates) (frame : Frame crates)
    (clock : Clock) : Bool :=
  let admitted := conn.limiter.admit config frame.len clock.ms
  admitted.1 = .ok

/-- The transition is a move of the connection's task. -/
def Label.moves (c : ConnId) : Label crates → Bool
  | .exec d _ => d = c
  | label => label.inputs c

/-- The transition changes nothing shared and no other connection. -/
def ConfinedTo (c : ConnId) (t : System crates × Label crates × System crates) : Prop :=
  t.2.2.relay = t.1.relay ∧ t.2.2.pruned = t.1.pruned ∧ t.2.2.asked = t.1.asked ∧
    ∀ d, d ≠ c → t.2.2.conns[d]? = t.1.conns[d]?

/-- The connection takes the frame and handles it, interleaved with all other tasks, up to some
point before it takes its next input. -/
def Handles (setup : Setup) (c : ConnId) (frame : Frame crates) (clock : Clock)
    (sys : System crates) (trace : List (System crates × Label crates × System crates))
    (sys' : System crates) : Prop :=
  ∃ taken rest, Next setup sys (.message c frame clock) taken ∧
    Execution (Next setup) taken rest sys' ∧ (∀ t ∈ rest, t.2.1.inputs c = false) ∧
    trace = (sys, .message c frame clock, taken) :: rest

/-- Every move of the connection is confined to it, and altogether it sends one error to itself
and nothing else: not yet, while it is still busy, or now. -/
def AnswersOneError (c : ConnId) (frame : Frame crates)
    (trace : List (System crates × Label crates × System crates)) (sys' : System crates) : Prop :=
  (∀ t ∈ trace, t.2.1.moves c = true → ConfinedTo c t) ∧
    ((trace.flatMap (performed c) ++ sys'.pending c = [] ∧
        ∃ conn, sys'.conns[c]? = some conn ∧ conn.phase.isIdle = false) ∨
      ∃ text, trace.flatMap (performed c) ++ sys'.pending c =
        [.relay c (.error frame.gateCode text)])

/-- Counting a message changes the relay exactly when the message is counted. -/
theorem recordRelayed_eq_self_iff {relay : Relay crates} {msg : RelayMessage} :
    relay.recordRelayed msg = relay ↔ msg.isCounted = false := by
  cases msg <;> simp only [Relay.recordRelayed, RelayMessage.isCounted, decide_eq_false_iff_not,
    not_not, reduceCtorEq, iff_false]
  case relayGossipMessage sender target payload seq =>
    constructor
    · intro h
      simpa using congrArg Relay.bytesRelayed h
    · intro h
      rw [h, UInt64.add_zero]
  case broadcast sender payload exclude =>
    constructor
    · intro h
      simpa using congrArg Relay.bytesRelayed h
    · intro h
      rw [h, UInt64.add_zero]
  case holePunchRequest =>
    intro h
    simpa using congrArg Relay.holePunchRequests h
  case holePunchResult peerId success =>
    intro h
    cases success
    · simpa using congrArg Relay.holePunchFailures h
    · simpa using congrArg Relay.holePunchSuccesses h

/-- How far the handling of a gated frame has come: the message is on its way to the dispatcher
and nothing is sent, or the one error is pending or sent. -/
def Handling (c : ConnId) (frame : Frame crates) (conn : Conn crates) (sent : List (Send crates)) :
    Prop :=
  conn.session.peerId = none ∧
    ((sent = [] ∧ conn.outbox = [] ∧ isPexFrame frame = false ∧
        ∃ msg, frame.relay = some msg ∧ (conn.phase = .record msg ∨ conn.phase = .intercept msg)) ∨
      (conn.phase = .idle ∧ ∃ text, sent ++ conn.outbox = [.relay c (.error frame.gateCode text)]))

/-- Taking a frame before registration begins to handle it. -/
theorem takeFrame_handling (hunregistered : conn.session.peerId = none)
    (hidle : conn.phase = .idle) (houtbox : conn.outbox = [])
    (hallows : conn.allows setup.config frame clock = true) :
    Handling c frame (conn.takeFrame setup.config c frame clock) [] := by
  have hadmitted := of_decide_eq_true hallows
  unfold Conn.takeFrame
  simp only [hadmitted]
  split
  · rename_i hpex
    simp only [Conn.takePexFrame, pexDispatch, hunregistered, Option.isNone_none, if_true]
    exact ⟨hunregistered, .inr ⟨hidle, "register before sending PEX (RLY-001)",
      by simp [toSelf, Frame.gateCode, hpex]⟩⟩
  · rename_i hpex
    split
    · rename_i msg hmsg
      exact ⟨hunregistered, .inl ⟨rfl, houtbox, by simpa using hpex, msg, hmsg, .inl rfl⟩⟩
    · rename_i hnone
      exact ⟨hunregistered, .inr ⟨hidle, "invalid relay JSON",
        by simp [toSelf, Frame.gateCode, hpex, hnone]⟩⟩

/-- An unregistered connection's message, other than a registration or a request for the peer
list, is answered by the dispatcher's error. -/
theorem intercept_handling {msg : RelayMessage} (hunregistered : conn.session.peerId = none)
    (hpex : isPexFrame frame = false) (hmsg : frame.relay = some msg)
    (hregister : frame.isRegister = false) (hgated : frame.isGated = true) :
    Handling c frame (conn.intercept c msg) [] := by
  have hcode : frame.gateCode = ErrCode.notRegistered := by simp [Frame.gateCode, hmsg]
  refine ⟨?_, .inr ⟨?_, "register before sending other messages (RLY-001)", ?_⟩⟩ <;>
    cases msg <;>
      simp_all [Conn.intercept, Conn.carryOut, dispatch, Frame.isRegister, Frame.isGated, toSelf]

/-- A shared access carries the handling of a gated frame on and changes nothing shared. -/
theorem access_handling {closed : ConnId → Bool} {relay relay' : Relay crates}
    {conn' : Conn crates} {sent : List (Send crates)} (hregister : frame.isRegister = false)
    (hgated : frame.isGated = true) (hhandling : Handling c frame conn sent)
    (haccess : access setup clock closed c relay conn = some (relay', conn')) :
    relay' = relay ∧ Handling c frame conn' sent := by
  obtain ⟨hunregistered, ⟨rfl, houtbox, hpex, msg, hmsg, hphase | hphase⟩ | ⟨hidle, -⟩⟩ := hhandling
  · have hcounted : relay.recordRelayed msg = relay := by
      refine recordRelayed_eq_self_iff.mpr ?_
      cases msg <;> simp_all [Frame.isGated, RelayMessage.isCounted]
    simp only [access, hphase, hcounted, Option.some.injEq, Prod.mk.injEq] at haccess
    obtain ⟨rfl, rfl⟩ := haccess
    exact ⟨rfl, hunregistered, .inl ⟨rfl, houtbox, hpex, msg, hmsg, .inr rfl⟩⟩
  · have hanswer : relay.recordDhtAnswer conn.session msg = relay := by
      unfold Relay.recordDhtAnswer
      split
      · simp [hunregistered]
      · rfl
    simp only [access, hphase, hanswer, Option.some.injEq, Prod.mk.injEq] at haccess
    obtain ⟨rfl, rfl⟩ := haccess
    exact ⟨rfl, intercept_handling hunregistered hpex hmsg hregister hgated⟩
  · simp [access, hidle] at haccess

/-- Performing the one error completes the handling of a gated frame. -/
theorem deliver_handling {send : Send crates} {rest sent : List (Send crates)}
    (hconn : sys.conns[c]? = some conn) (houtbox : conn.outbox = send :: rest)
    (hhandling : Handling c frame conn sent) :
    (∀ d, d ≠ c → (deliver send (sys.conns.set c { conn with outbox := rest }))[d]? = sys.conns[d]?) ∧
      ∃ conn', (deliver send (sys.conns.set c { conn with outbox := rest }))[c]? = some conn' ∧
        Handling c frame conn' (sent ++ [send]) := by
  obtain ⟨hunregistered, ⟨-, hempty, -⟩ | ⟨hidle, text, hsent⟩⟩ := hhandling
  · rw [houtbox] at hempty
    cases hempty
  · obtain ⟨rfl, rfl, rfl⟩ : sent = [] ∧ send = .relay c (.error frame.gateCode text) ∧
        rest = [] := by
      cases sent <;> simp_all
    have hdelivers := delivers_deliver (.relay c (.error frame.gateCode text) : Send crates)
      (sys.conns.set c { conn with outbox := [] })
    have htarget := hdelivers.target
    have hlt := (List.getElem?_eq_some_iff.mp hconn).1
    simp only [Send.target, List.getElem?_set_self hlt, Option.map_some] at htarget
    refine ⟨fun d hd => ?_, _, htarget, hunregistered, .inr ⟨hidle, text, rfl⟩⟩
    exact (hdelivers.others d hd).trans (List.getElem?_set_ne (Ne.symm hd))

/-- One transition carries the handling of a gated frame on, and is confined to the connection if
it is one of its moves. -/
theorem handling_next {sent : List (Send crates)} (hregister : frame.isRegister = false)
    (hgated : frame.isGated = true) (hconn : sys.conns[c]? = some conn)
    (hhandling : Handling c frame conn sent) (hinputs : label.inputs c = false)
    (h : Next setup sys label sys') :
    (label.moves c = true → ConfinedTo c (sys, label, sys')) ∧
      ∃ conn', sys'.conns[c]? = some conn' ∧
        Handling c frame conn' (sent ++ performed c (sys, label, sys')) := by
  by_cases hexec : ∃ clock, label = .exec c clock
  · obtain ⟨clock, rfl⟩ := hexec
    have hperformed : performed c (sys, .exec c clock, sys') = conn.outbox.take 1 := by
      simp [performed, pending_of_outbox hconn]
    rw [hperformed]
    cases next_move h with
    | sent hfound houtbox =>
      obtain rfl := Option.some.inj (hconn.symm.trans hfound)
      obtain ⟨hothers, hself⟩ := deliver_handling hconn houtbox hhandling
      rw [houtbox]
      exact ⟨fun _ => ⟨rfl, rfl, rfl, hothers⟩, hself⟩
    | accessed hfound houtbox haccess =>
      obtain rfl := Option.some.inj (hconn.symm.trans hfound)
      obtain ⟨rfl, hafter⟩ := access_handling hregister hgated hhandling haccess
      have hlt := (List.getElem?_eq_some_iff.mp hconn).1
      refine ⟨fun _ => ⟨rfl, rfl, rfl, fun d hd => List.getElem?_set_ne (Ne.symm hd)⟩, _,
        List.getElem?_set_self hlt, ?_⟩
      rw [houtbox, List.take_nil, List.append_nil]
      exact hafter
    | wrote hlabel | closed hlabel | background _ hlabel => cases hlabel
  · obtain ⟨conn', hconn', htask⟩ :=
      next_task (fun clock hlabel => hexec ⟨clock, hlabel⟩) hinputs hconn h
    simp only [Conn.task, Prod.mk.injEq] at htask
    obtain ⟨hsession, houtbox, hphase⟩ := htask
    have hmoves : label.moves c = false ∧ performed c (sys, label, sys') = [] := by
      cases label <;> simp_all [Label.moves, performed]
    refine ⟨fun hmove => ?_, conn', hconn', ?_⟩
    · rw [hmoves.1] at hmove
      cases hmove
    · rw [hmoves.2, List.append_nil]
      unfold Handling
      rw [hsession, houtbox, hphase]
      exact hhandling

/-- Up to its next input, a connection handles a gated frame within itself. -/
theorem handling_execution {start : System crates}
    {trace : List (System crates × Label crates × System crates)}
    (hregister : frame.isRegister = false) (hgated : frame.isGated = true)
    (hconn : start.conns[c]? = some conn) (hhandling : Handling c frame conn [])
    (hrun : Execution (Next setup) start trace sys) (hinputs : ∀ t ∈ trace, t.2.1.inputs c = false) :
    (∀ t ∈ trace, t.2.1.moves c = true → ConfinedTo c t) ∧
      ∃ conn', sys.conns[c]? = some conn' ∧
        Handling c frame conn' (trace.flatMap (performed c)) := by
  induction hrun with
  | nil => exact ⟨fun t ht => (nomatch ht), conn, hconn, hhandling⟩
  | @snoc trace s label s' hrun hnext ih =>
    obtain ⟨hconfined, conn', hconn', hhandling'⟩ :=
      ih fun t ht => hinputs t (List.mem_append_left _ ht)
    have hlast := hinputs _ (List.mem_append_right _ (List.mem_singleton_self _))
    obtain ⟨hmove, conn'', hconn'', hhandling''⟩ :=
      handling_next hregister hgated hconn' hhandling' hlast hnext
    refine ⟨fun t ht => ?_, conn'', hconn'', by simpa using hhandling''⟩
    rcases List.mem_append.mp ht with hold | hnew
    · exact hconfined t hold
    · rw [List.mem_singleton.mp hnew]
      exact hmove

/-- A gated frame is answered by one error. -/
theorem answersOneError_of_gated {trace : List (System crates × Label crates × System crates)}
    (hconn : sys.conns[c]? = some conn) (hunregistered : conn.session.peerId = none)
    (hallows : conn.allows setup.config frame clock = true)
    (hregister : frame.isRegister = false) (hgated : frame.isGated = true)
    (h : Handles setup c frame clock sys trace sys') : AnswersOneError c frame trace sys' := by
  obtain ⟨taken, rest, hfirst, hrest, hinputs, rfl⟩ := h
  cases hfirst with
  | step hfirst =>
    simp only [step] at hfirst
    obtain ⟨found, hfound, hidle, houtbox, rfl⟩ := inputStep_some hfirst
    obtain rfl := Option.some.inj (hconn.symm.trans hfound)
    have hlt := (List.getElem?_eq_some_iff.mp hconn).1
    obtain ⟨hconfined, conn', hconn', -, hstage⟩ := handling_execution hregister hgated
      (List.getElem?_set_self hlt)
      (takeFrame_handling hunregistered (isIdle_iff.mp hidle) houtbox hallows) hrest hinputs
    have hsends : ((sys, Label.message c frame clock,
        sys.setConn c (conn.takeFrame setup.config c frame clock)) :: rest).flatMap (performed c) ++
          sys'.pending c = rest.flatMap (performed c) ++ conn'.outbox := by
      rw [pending_of_outbox hconn']
      rfl
    refine ⟨fun t ht hmove => ?_, ?_⟩
    · rcases List.mem_cons.mp ht with rfl | hlater
      · exact ⟨rfl, rfl, rfl, fun d hd => List.getElem?_set_ne (Ne.symm hd)⟩
      · exact hconfined t hlater hmove
    · rw [hsends]
      rcases hstage with ⟨hsent, houtbox', -, msg, -, hphase⟩ | ⟨-, hanswer⟩
      · refine .inl ⟨by rw [hsent, houtbox']; rfl, conn', hconn', ?_⟩
        rcases hphase with hphase | hphase <;> rw [hphase] <;> rfl
      · exact .inr hanswer

/-- A connection with nothing pending can take its shared access. -/
theorem exists_next_of_access {relay : Relay crates} {conn' : Conn crates}
    (hconn : sys.conns[c]? = some conn) (houtbox : conn.outbox = [])
    (h : access setup clock (isClosed sys.conns) c sys.relay conn = some (relay, conn')) :
    ∃ sys', Next setup sys (.exec c clock) sys' ∧ sys'.relay = relay ∧
      sys'.conns[c]? = some conn' := by
  have hlt := (List.getElem?_eq_some_iff.mp hconn).1
  refine ⟨{ sys with relay, conns := sys.conns.set c conn' }, .step ?_, rfl,
    List.getElem?_set_self hlt⟩
  simp [step, hconn, execStep, houtbox, h]

/-- A request for the peer list leads to an answer that lists peers. -/
theorem exists_execution_getPeers {networkId : Option String} (setup : Setup) (clock : Clock)
    (hconn : sys.conns[c]? = some conn) (houtbox : conn.outbox = [])
    (hphase : conn.phase = .record (.getPeers networkId)) :
    ∃ trace sys', Execution (Next setup) sys trace sys' ∧ (∀ t ∈ trace, t.2.1.inputs c = false) ∧
      ∃ peers, .relay c (.peers peers) ∈ sys'.pending c := by
  have hrecord : access setup clock (isClosed sys.conns) c sys.relay conn =
      some (sys.relay, { conn with phase := .intercept (.getPeers networkId) }) := by
    simp only [access, hphase, Relay.recordRelayed]
  obtain ⟨first, hfirst, -, hconn₁⟩ := exists_next_of_access hconn houtbox hrecord
  have hintercept : access setup clock (isClosed first.conns) c first.relay
      { conn with phase := .intercept (.getPeers networkId) } =
        some (first.relay, { conn with phase := .getPeers (networkId.or conn.session.networkId) }) :=
    rfl
  obtain ⟨second, hsecond, -, hconn₂⟩ := exists_next_of_access hconn₁ houtbox hintercept
  obtain ⟨third, hthird, -, hconn₃⟩ :
      ∃ third, Next setup second (.exec c clock) third ∧ third.relay = second.relay ∧ _ :=
    exists_next_of_access hconn₂ houtbox rfl
  refine ⟨_, third, .snoc (.snoc (.snoc .nil hfirst) hsecond) hthird, ?_, ?_⟩
  · intro t ht
    simp only [List.nil_append, List.cons_append, List.mem_cons, List.not_mem_nil, or_false] at ht
    rcases ht with rfl | rfl | rfl <;> rfl
  · rw [pending_of_outbox hconn₃]
    exact ⟨_, List.mem_singleton_self _⟩

/-- A frame that is not gated is handled otherwise: a counted message moves a counter, and a
request for the peer list is answered with the peers. -/
theorem exists_handles_of_not_gated (hconn : sys.conns[c]? = some conn)
    (hidle : conn.phase = .idle) (houtbox : conn.outbox = [])
    (hallows : conn.allows setup.config frame clock = true)
    (hgated : frame.isGated = false) :
    ∃ trace sys', Handles setup c frame clock sys trace sys' ∧
      ¬ AnswersOneError c frame trace sys' := by
  have hlt := (List.getElem?_eq_some_iff.mp hconn).1
  obtain ⟨hpex, msg, hmsg, hkind⟩ : isPexFrame frame = false ∧ ∃ msg, frame.relay = some msg ∧
      (msg.isCounted = true ∨ ∃ networkId, msg = .getPeers networkId) := by
    cases hmsg : frame.relay with
    | none => simp [Frame.isGated, hmsg] at hgated
    | some msg => cases msg <;> simp_all [Frame.isGated]
  have hfirst : Next setup sys (.message c frame clock)
      (sys.setConn c (conn.takeFrame setup.config c frame clock)) := by
    refine .step ?_
    simp [step, inputStep, hconn, hidle, houtbox]
  obtain ⟨taken, htaken, hphase, houtbox'⟩ : ∃ taken,
      conn.takeFrame setup.config c frame clock = taken ∧ taken.phase = .record msg ∧
        taken.outbox = [] := by
    have hadmitted := of_decide_eq_true hallows
    refine ⟨_, rfl, ?_, ?_⟩ <;> simp [Conn.takeFrame, hadmitted, hpex, hmsg, houtbox]
  rw [htaken] at hfirst
  have hconn' : (sys.setConn c taken).conns[c]? = some taken := List.getElem?_set_self hlt
  rcases hkind with hcounted | ⟨networkId, rfl⟩
  · have hrecord : access setup clock (isClosed (sys.setConn c taken).conns) c sys.relay taken =
        some (sys.relay.recordRelayed msg, { taken with phase := .intercept msg }) := by
      simp only [access, hphase]
    obtain ⟨counted, hcount, hrelay, -⟩ := exists_next_of_access hconn' houtbox' hrecord
    refine ⟨_, counted, ⟨_, _, hfirst, .snoc .nil hcount, ?_, rfl⟩, fun hanswers => ?_⟩
    · intro t ht
      rw [List.mem_singleton.mp ht]
      rfl
    · have hconfined := hanswers.1 _ (List.mem_cons_of_mem _ (List.mem_singleton_self _))
        (by simp [Label.moves])
      have hsame : sys.relay.recordRelayed msg = sys.relay := hrelay.symm.trans hconfined.1
      rw [recordRelayed_eq_self_iff.mp hsame] at hcounted
      cases hcounted
  · obtain ⟨rest, last, hrest, hinputs, peers, hpeers⟩ :=
      exists_execution_getPeers setup clock hconn' houtbox' hphase
    refine ⟨_, last, ⟨_, rest, hfirst, hrest, hinputs, rfl⟩, fun hanswers => ?_⟩
    have hsent := List.mem_append_right
      (((sys, Label.message c frame clock, sys.setConn c taken) :: rest).flatMap (performed c)) hpeers
    rcases hanswers.2 with ⟨hnone, -⟩ | ⟨text, hone⟩
    · rw [hnone] at hsent
      cases hsent
    · rw [hone] at hsent
      simp at hsent

/-- Before registration, an admitted frame other than a registration is answered by one error to
the sender, however its handling is interleaved, with no other effect, exactly when it is an
exchange frame, does not parse, or is a message that is neither counted nor a request for the
peer list. -/
theorem answersOneError_iff_gated (hconn : sys.conns[c]? = some conn) (hidle : conn.phase = .idle)
    (houtbox : conn.outbox = []) (hunregistered : conn.session.peerId = none)
    (hallows : conn.allows setup.config frame clock = true)
    (hregister : frame.isRegister = false) :
    (∀ trace sys', Handles setup c frame clock sys trace sys' → AnswersOneError c frame trace sys') ↔
      frame.isGated = true := by
  constructor
  · intro hall
    by_contra hgated
    obtain ⟨trace, sys', hhandles, hnot⟩ := exists_handles_of_not_gated hconn hidle houtbox hallows
      (Bool.eq_false_iff.mpr hgated)
    exact hnot (hall trace sys' hhandles)
  · intro hgated trace sys' hhandles
    exact answersOneError_of_gated hconn hunregistered hallows hregister hgated hhandles

/-- A freshly connected client waits for its first frame and has budget for it. -/
theorem exists_run_unregistered :
    ∃ trace sys conn, @Run silentCrates standardSetup trace sys ∧ sys.conns[0]? = some conn ∧
      conn.phase = .idle ∧ conn.outbox = [] ∧ conn.session.peerId = none ∧
      ∀ msg, conn.allows standardSetup.config (relayFrame msg) (atSecond 0) = true := by
  obtain ⟨trace, sys, sys', hrun, hwaits⟩ := @exists_run_step silentCrates standardSetup
    (Script.connect 0 0) (.control 0) (fun _ sys' => sys'.conns[0]?.any fun conn =>
      conn.phase.isIdle && (conn.outbox.isEmpty && (conn.session.peerId.isNone &&
        conn.allows standardSetup.config (relayFrame (.ping 0)) (atSecond 0)))) (by decide)
  obtain ⟨conn, hconn, hready⟩ := (Option.any_eq_true _ _).mp hwaits
  simp only [Bool.and_eq_true, isIdle_iff, List.isEmpty_iff, Option.isNone_iff_eq_none] at hready
  obtain ⟨hidle, houtbox, hunregistered, hallows⟩ := hready
  exact ⟨_, sys', conn, hrun, hconn, hidle, houtbox, hunregistered, fun _ => hallows⟩

/-- A ping before registration is answered by one error, and nothing else. -/
theorem answersOneError_ping :
    ∃ trace sys, @Run silentCrates standardSetup trace sys ∧
      ∀ trace' sys', Handles standardSetup 0 (relayFrame (.ping 7)) (atSecond 0) sys trace' sys' →
        AnswersOneError 0 (relayFrame (.ping 7)) trace' sys' := by
  obtain ⟨trace, sys, conn, hrun, hconn, hidle, houtbox, hunregistered, hallows⟩ :=
    exists_run_unregistered
  refine ⟨trace, sys, hrun, ?_⟩
  exact (answersOneError_iff_gated hconn hidle houtbox hunregistered (hallows _) (by decide)).mpr
    (by decide)

/-- Before registration, a request for the peer list is answered with peers, and a broadcast and
the two hole punch messages move the counters. -/
theorem exists_run_not_answersOneError :
    ∃ trace sys conn, @Run silentCrates standardSetup trace sys ∧ sys.conns[0]? = some conn ∧
      conn.session.peerId = none ∧
      ∀ msg ∈ [.getPeers none, .broadcast "p" [7] [], .holePunchRequest "p" "q" sampleAddr,
          .holePunchResult "p" true],
        (relayFrame msg : Frame silentCrates).isRegister = false ∧
          ∃ trace' sys', Handles standardSetup 0 (relayFrame msg) (atSecond 0) sys trace' sys' ∧
            ¬ AnswersOneError 0 (relayFrame msg) trace' sys' := by
  obtain ⟨trace, sys, conn, hrun, hconn, hidle, houtbox, hunregistered, hallows⟩ :=
    exists_run_unregistered
  have hungated : ∀ msg ∈ [RelayMessage.getPeers none, .broadcast "p" [7] [],
      .holePunchRequest "p" "q" sampleAddr, .holePunchResult "p" true],
      (relayFrame msg : Frame silentCrates).isRegister = false ∧
        (relayFrame msg : Frame silentCrates).isGated = false := by decide
  refine ⟨trace, sys, conn, hrun, hconn, hunregistered, fun msg hmsg => ⟨(hungated msg hmsg).1, ?_⟩⟩
  exact exists_handles_of_not_gated hconn hidle houtbox (hallows msg) (hungated msg hmsg).2

end DigRelay
