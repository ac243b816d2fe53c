import DigRelay.Server.Access
import DigRelay.Server.Outbox

/-!
# A registration call from beginning to end

A task that is asked to register moves through the checks and then either returns to its loop or
leaves it. Here the call is followed while no other task moves. Each move finds a clock reading of
its own, and the call has returned once its sends are out and the task waits for the next frame or
begins the teardown.
-/

namespace DigRelay

open Common

variable {crates : Crates} {setup : Setup} {sys sys' : System crates} {c : ConnId}
  {conn conn' : Conn crates} {relay relay' : Relay crates} {readings : ℕ → Clock}
  {request : RegisterRequest}

/-- Waiting for the next frame, or at the beginning of the teardown. -/
def Phase.endsCall : Phase crates → Bool
  | .idle | .deregister => true
  | _ => false

/-- The task has nothing to send and waits for the next frame or begins the teardown. -/
def Returned (c : ConnId) (sys : System crates) : Prop :=
  ∃ conn, sys.conns[c]? = some conn ∧ conn.outbox = [] ∧ conn.phase.endsCall = true

/-- A call of a connection's task that runs by itself and returns. -/
def CallReturns (setup : Setup) (c : ConnId) (readings : ℕ → Clock) (sys sys' : System crates) :
    Prop :=
  RunsUntil (fun sys clock => step setup sys (.exec c clock)) (Returned c) readings sys sys'

/-- The call has succeeded: the task is back in its frame loop. -/
def Succeeded (c : ConnId) (sys : System crates) : Prop :=
  ∃ conn, sys.conns[c]? = some conn ∧ conn.phase = .idle

/-- The call has failed: the task leaves its frame loop. -/
def Failed (c : ConnId) (sys : System crates) : Prop :=
  ∃ conn, sys.conns[c]? = some conn ∧ conn.phase = .deregister

/-- The task is about to register. -/
structure Conn.Calls (conn : Conn crates) (request : RegisterRequest) : Prop where
  phase : conn.phase = .registerLoad request
  outbox : conn.outbox = []

/-- The shared state and one task after a move of the task. -/
def System.move (sys : System crates) (relay : Relay crates) (c : ConnId) (conn : Conn crates) :
    System crates :=
  { sys with relay, conns := sys.conns.set c conn }

/-- A move to the present state changes nothing. -/
theorem move_self (hconn : sys.conns[c]? = some conn) : sys.move sys.relay c conn = sys := by
  have hset : sys.conns.set c conn = sys.conns := by
    obtain ⟨hlt, rfl⟩ := List.getElem?_eq_some_iff.mp hconn
    exact List.set_getElem_self hlt
  rw [System.move, hset]

/-- The later of two moves counts. -/
@[simp] theorem move_move (sys : System crates) (relay relay' : Relay crates) (c : ConnId)
    (conn conn' : Conn crates) :
    (sys.move relay c conn).move relay' c conn' = sys.move relay' c conn' := by
  simp [System.move]

/-- A task that has moved is found in its new state. -/
theorem move_getElem? (hconn : sys.conns[c]? = some conn) (relay : Relay crates)
    (conn' : Conn crates) : (sys.move relay c conn').conns[c]? = some conn' := by
  obtain ⟨hlt, -⟩ := List.getElem?_eq_some_iff.mp hconn
  exact List.getElem?_set_self hlt

/-- A move to another phase closes and opens no channel. -/
theorem isClosed_move (hconn : sys.conns[c]? = some conn) (relay : Relay crates)
    (phase : Phase crates) :
    isClosed (sys.move relay c { conn with phase }).conns = isClosed sys.conns := by
  funext tx
  unfold isClosed System.move
  dsimp only
  rw [List.getElem?_set]
  split
  · rename_i htx
    subst htx
    obtain ⟨hlt, -⟩ := List.getElem?_eq_some_iff.mp hconn
    rw [if_pos hlt, hconn, Option.map_some, Option.map_some]
  · rfl

/-- A task in the middle of a call has not returned. -/
theorem not_returned (hconn : sys.conns[c]? = some conn)
    (h : conn.outbox ≠ [] ∨ conn.phase.endsCall = false) : ¬Returned c sys := by
  rintro ⟨other, hother, houtbox, hphase⟩
  obtain rfl := Option.some.inj (hconn.symm.trans hother)
  rcases h with hne | hgoes
  · exact hne houtbox
  · rw [hgoes] at hphase
    cases hphase

/-- A call that has come to its end returns there. -/
theorem callReturns_iff_of_endsCall (hconn : sys.conns[c]? = some conn) (houtbox : conn.outbox = [])
    (hphase : conn.phase.endsCall = true) : CallReturns setup c readings sys sys' ↔ sys' = sys :=
  runsUntil_iff_of_done ⟨conn, hconn, houtbox, hphase⟩

/-- A task with nothing to send performs the shared access its phase names. -/
theorem step_of_access {clock : Clock} (hconn : sys.conns[c]? = some conn) (houtbox : conn.outbox = [])
    (haccess : access setup clock (isClosed sys.conns) c sys.relay conn = some (relay', conn')) :
    step setup sys (.exec c clock) = some (sys.move relay' c conn') := by
  simp [step, hconn, execStep, houtbox, haccess, System.move]

/-- A call goes on with the shared access its phase names. -/
theorem callReturns_iff_of_access (hconn : sys.conns[c]? = some conn) (houtbox : conn.outbox = [])
    (hphase : conn.phase.endsCall = false)
    (haccess : access setup (readings 0) (isClosed sys.conns) c sys.relay conn =
      some (relay', conn')) :
    CallReturns setup c readings sys sys' ↔
      CallReturns setup c (fun n => readings (n + 1)) (sys.move relay' c conn') sys' := by
  apply runsUntil_iff_of_step (not_returned hconn (.inr hphase))
  exact step_of_access hconn houtbox haccess

/-- A call that has moved goes on with the next shared access. -/
theorem callReturns_iff_of_move {next : Conn crates} (hconn : sys.conns[c]? = some conn)
    (conn' : Conn crates) (houtbox : conn'.outbox = []) (hphase : conn'.phase.endsCall = false)
    (haccess : access setup (readings 0) (isClosed (sys.move relay c conn').conns) c relay conn' =
      some (relay', next)) :
    CallReturns setup c readings (sys.move relay c conn') sys' ↔
      CallReturns setup c (fun n => readings (n + 1)) (sys.move relay' c next) sys' := by
  rw [← move_move sys relay relay' c conn' next]
  exact callReturns_iff_of_access (move_getElem? hconn relay conn') houtbox hphase haccess

/-- A send to a task that has just been replaced is offered to its replacement. -/
theorem deliver_set (send : Send crates) (conns : List (Conn crates)) (c : ConnId)
    (conn : Conn crates) :
    deliver send (conns.set c conn) =
      (deliver send conns).set c (if send.target = c then conn.offer send else conn) := by
  apply List.ext_getElem?
  intro i
  simp only [deliver_eq_modify, List.getElem?_modify, List.getElem?_set, List.length_modify]
  by_cases hi : c = i
  · subst hi
    by_cases hlt : c < conns.length
    · by_cases htarget : send.target = c
      · simp [hlt, htarget]
      · simp [hlt, htarget]
    · simp [hlt]
  · by_cases htarget : send.target = i
    · simp [hi, htarget]
    · simp [hi, htarget]

/-- An offer does not touch the outbox. -/
theorem offer_outbox (conn : Conn crates) (outbox : List (Send crates)) (send : Send crates) :
    { conn with outbox }.offer send = { conn.offer send with outbox } := by
  cases send <;> rfl

/-- A call performs its pending sends before anything else. -/
theorem callReturns_iff_of_outbox (hconn : sys.conns[c]? = some conn) :
    CallReturns setup c readings sys sys' ↔
      CallReturns setup c (fun n => readings (n + conn.outbox.length))
        { sys with conns := deliverAll conn.outbox (sys.conns.set c { conn with outbox := [] }) }
        sys' := by
  generalize hpending : conn.outbox = outbox
  induction outbox generalizing sys conn readings with
  | nil =>
    have hsame : { conn with outbox := [] } = conn := by
      rw [← hpending]
    have hself := move_self hconn
    unfold System.move at hself
    rw [hsame, deliverAll, List.foldl_nil, hself]
    rfl
  | cons send rest ih =>
    obtain ⟨hlt, -⟩ := List.getElem?_eq_some_iff.mp hconn
    let sent := if send.target = c then conn.offer send else conn
    have hsent (outbox : List (Send crates)) :
        deliver send (sys.conns.set c { conn with outbox }) =
          (deliver send sys.conns).set c { sent with outbox } := by
      rw [deliver_set, offer_outbox]
      dsimp only [sent]
      split <;> rfl
    have hfound : (deliver send (sys.conns.set c { conn with outbox := rest }))[c]? =
        some { sent with outbox := rest } := by
      rw [hsent, List.getElem?_set_self]
      rwa [deliver_eq_modify, List.length_modify]
    have hstep : step setup sys (.exec c (readings 0)) = some
        { sys with conns := deliver send (sys.conns.set c { conn with outbox := rest }) } := by
      simp [step, hconn, execStep, hpending]
    have hgoes : ¬Returned c sys := not_returned hconn (.inl (by rw [hpending]; exact List.cons_ne_nil _ _))
    have hfirst : CallReturns setup c readings sys sys' ↔ CallReturns setup c _ _ sys' :=
      runsUntil_iff_of_step hgoes hstep
    rw [hfirst, @ih { sys with conns := deliver send (sys.conns.set c { conn with outbox := rest }) } _
      (fun n => readings (n + 1)) hfound rfl]
    have hrest : deliverAll (send :: rest) (sys.conns.set c { conn with outbox := [] }) =
        deliverAll rest (deliver send (sys.conns.set c { conn with outbox := [] })) := rfl
    rw [hrest, hsent, hsent, List.set_set]
    rfl

/-- Replies to the task itself are sent on its own channel. -/
theorem deliverAll_toSelf (msgs : List RelayMessage) (conns : List (Conn crates)) (c : ConnId)
    (conn : Conn crates) :
    deliverAll (toSelf c msgs) (conns.set c conn) =
      conns.set c { conn with out := conn.out.sendAll msgs } := by
  induction msgs generalizing conn with
  | nil => rfl
  | cons msg rest ih =>
    have hfirst : deliver (.relay c msg) (conns.set c conn) =
        conns.set c { conn with out := conn.out.trySend msg } := by
      apply List.ext_getElem?
      intro i
      by_cases hi : c = i
      · subst hi
        by_cases hlt : c < conns.length <;> simp [deliver, hlt]
      · simp [deliver, hi]
    have hunfold : deliverAll (toSelf c (msg :: rest)) (conns.set c conn) =
        deliverAll (toSelf c rest) (deliver (.relay c msg) (conns.set c conn)) := rfl
    rw [hunfold, hfirst, ih]
    rfl

/-- A call that replies to its own task goes on once the replies are sent. -/
theorem callReturns_iff_of_replies {msgs : List RelayMessage} (hconn : sys.conns[c]? = some conn)
    (relay : Relay crates) (conn' : Conn crates) :
    CallReturns setup c readings (sys.move relay c { conn' with outbox := toSelf c msgs }) sys' ↔
      CallReturns setup c (fun n => readings (n + msgs.length))
        (sys.move relay c { conn' with out := conn'.out.sendAll msgs, outbox := [] }) sys' := by
  rw [callReturns_iff_of_outbox (move_getElem? hconn relay _)]
  have hlength : (toSelf c msgs : List (Send crates)).length = msgs.length := List.length_map _
  dsimp only [System.move]
  rw [hlength, List.set_set, deliverAll_toSelf]

section

variable (hconn : sys.conns[c]? = some conn) (houtbox : conn.outbox = [])

include hconn houtbox

/-- A registration begins by reading the counter and spending a token of its source. -/
theorem callReturns_iff_of_load (hphase : conn.phase = .registerLoad request) :
    let rate := sys.relay.abuse.allowRegistration setup.config conn.addr.ip (readings 1).ms
    CallReturns setup c readings sys sys' ↔
      CallReturns setup c (fun n => readings (n + 2))
        (sys.move { sys.relay with abuse := rate.2 } c
          { conn with
            phase :=
              if rate.1 then .registerCap request sys.relay.connected.toNat
              else .strike (rateRefusal sys.relay.connected.toNat) })
        sys' := by
  intro rate
  have hload : access setup (readings 0) (isClosed sys.conns) c sys.relay conn =
      some (sys.relay, { conn with phase := .registerRate request sys.relay.connected.toNat }) := by
    simp only [access, hphase]
  have hgoes : conn.phase.endsCall = false := by
    rw [hphase]
    rfl
  refine (callReturns_iff_of_access hconn houtbox hgoes hload).trans ?_
  exact callReturns_iff_of_move hconn
    { conn with phase := .registerRate request sys.relay.connected.toNat } houtbox rfl rfl

/-- A refusal that counts as a strike records it and replies. -/
theorem callReturns_iff_of_strike (replies : List RelayMessage) :
    CallReturns setup c readings (sys.move relay c { conn with phase := .strike replies }) sys' ↔
      sys' = sys.move
        { relay with
          abuse := relay.abuse.recordStrike setup.config conn.addr.ip (readings 0).ms }
        c { conn with out := conn.out.sendAll replies, phase := .deregister } := by
  refine (callReturns_iff_of_move hconn { conn with phase := .strike replies } houtbox rfl rfl).trans ?_
  refine (callReturns_iff_of_replies hconn _ { conn with phase := .deregister }).trans ?_
  rw [houtbox]
  exact callReturns_iff_of_endsCall (move_getElem? hconn _ _) rfl rfl

/-- A registration that holds a slot goes on to the registry. -/
theorem callReturns_iff_of_reserved {connectedNow : ℕ} {slot : Slot} {abuse : AbuseState}
    (hslot : relay.abuse.tryAcquireRegistration setup.config conn.addr.ip = some (slot, abuse)) :
    CallReturns setup c readings
        (sys.move relay c { conn with phase := .registerCap request connectedNow }) sys' ↔
      CallReturns setup c (fun n => readings (n + 1))
        (sys.move { relay with abuse } c { conn with phase := .registerLocked request slot }) sys' := by
  apply callReturns_iff_of_move hconn { conn with phase := .registerCap request connectedNow } houtbox rfl
  simp only [access, hslot]

/-- A registration whose source holds too many is struck. -/
theorem callReturns_iff_of_not_reserved {connectedNow : ℕ}
    (hslot : relay.abuse.tryAcquireRegistration setup.config conn.addr.ip = none) :
    CallReturns setup c readings
        (sys.move relay c { conn with phase := .registerCap request connectedNow }) sys' ↔
      CallReturns setup c (fun n => readings (n + 1))
        (sys.move relay c { conn with phase := .strike (capRefusal connectedNow) }) sys' := by
  apply callReturns_iff_of_move hconn { conn with phase := .registerCap request connectedNow } houtbox rfl
  simp only [access, hslot]

/-- The registry access of a registration finds the channels as they were when the call began. -/
theorem callReturns_iff_of_locked (slot : Slot) :
    let outcome := registerAccess setup.config (isClosed sys.conns) (readings 0).unix c relay
      { conn with phase := .registerLocked request slot } request slot
    CallReturns setup c readings
        (sys.move relay c { conn with phase := .registerLocked request slot }) sys' ↔
      CallReturns setup c (fun n => readings (n + 1)) (sys.move outcome.1 c outcome.2) sys' := by
  intro outcome
  apply callReturns_iff_of_move hconn { conn with phase := .registerLocked request slot } houtbox rfl
  rw [isClosed_move hconn]
  rfl

/-- A registration that the registry refuses gives its slot back. -/
theorem callReturns_iff_of_refused {slot : Slot} {replies : List RelayMessage}
    (hverdict : registerVerdict setup.config (isClosed sys.conns) relay request conn.identity
      conn.addr (readings 0).unix c = .refused replies) :
    CallReturns setup c readings
        (sys.move relay c { conn with phase := .registerLocked request slot }) sys' ↔
      sys' = sys.move { relay with abuse := relay.abuse.dropReg slot } c
        { conn with out := conn.out.sendAll replies, phase := .deregister } := by
  refine (callReturns_iff_of_locked hconn houtbox slot).trans ?_
  simp only [registerAccess, hverdict]
  refine (callReturns_iff_of_replies hconn _ { conn with phase := .refuse slot }).trans ?_
  refine (callReturns_iff_of_move hconn _ rfl rfl rfl).trans ?_
  rw [houtbox]
  exact callReturns_iff_of_endsCall (move_getElem? hconn _ _) rfl rfl

/-- A registration that is in the registry enters the exchange, keeps its slot and returns to the
frame loop. -/
theorem callReturns_iff_of_entered {slot : Slot} (hphase : conn.phase = .registerPex request slot) :
    let pex := sys.relay.pex.onRegister request.peerId request.networkId conn.addr c (readings 0).ms
    let committed := commitAccess { sys.relay with pex }
      { conn with phase := .registerCommit request slot } request slot
    CallReturns setup c readings sys sys' ↔ sys' = sys.move committed.1 c committed.2 := by
  intro pex committed
  have hgoes : conn.phase.endsCall = false := by
    rw [hphase]
    rfl
  have hmirror : access setup (readings 0) (isClosed sys.conns) c sys.relay conn =
      some ({ sys.relay with pex }, { conn with phase := .registerCommit request slot }) := by
    simp only [access, hphase]
    rfl
  refine (callReturns_iff_of_access hconn houtbox hgoes hmirror).trans ?_
  refine (callReturns_iff_of_move hconn { conn with phase := .registerCommit request slot } houtbox rfl
    rfl).trans ?_
  exact callReturns_iff_of_endsCall (move_getElem? hconn _ _) houtbox rfl

/-- A registration that the registry accepts tells the others, enters the exchange, keeps its slot
and returns to the frame loop. -/
theorem callReturns_of_accepted (readings : ℕ → Clock) (slot : Slot) {connectedPeers : ℕ}
    {targets : List (String × ConnId)}
    (hverdict : registerVerdict setup.config (isClosed sys.conns) relay request conn.identity
      conn.addr (readings 0).unix c = .accepted connectedPeers targets relay') :
    ∃ returned : System crates, returned.relay.registry = relay'.registry ∧
      returned.relay.connected = relay'.connected ∧ Succeeded c returned ∧ ∀ sys',
        CallReturns setup c readings
            (sys.move relay c { conn with phase := .registerLocked request slot }) sys' ↔
          sys' = returned := by
  let sends : List (Send crates) := .relay c (.registerAck true "registered" connectedPeers) ::
    toTargets targets (.peerConnected (registrantInfo crates request conn.addr (readings 0).unix))
  let entered : Conn crates := { conn with outbox := [], phase := .registerPex request slot }
  let told : System crates := { sys with
    relay := relay'
    conns := deliverAll sends (sys.conns.set c entered) }
  obtain ⟨hlt, -⟩ := List.getElem?_eq_some_iff.mp hconn
  have htasks : told.conns.map (fun conn => (conn.outbox, conn.phase)) =
      (sys.conns.set c entered).map fun conn => (conn.outbox, conn.phase) :=
    deliverAll_map _ (fun _ _ => rfl) (fun _ _ => rfl) _ _
  obtain ⟨sent, hsent, hsame⟩ := exists_getElem?_of_map_eq htasks (List.getElem?_set_self hlt)
  obtain ⟨hsent_outbox, hsent_phase⟩ := Prod.mk.injEq .. ▸ hsame
  have hends (sys' : System crates) := @callReturns_iff_of_entered _ setup told sys' c sent
    (fun n => readings (n + sends.length + 1)) request hsent hsent_outbox slot hsent_phase
  refine ⟨_, rfl, rfl, ⟨_, move_getElem? hsent _ _, rfl⟩, fun sys' => Iff.trans ?_ (hends sys')⟩
  refine (callReturns_iff_of_locked hconn houtbox slot).trans ?_
  simp only [registerAccess, hverdict]
  refine (callReturns_iff_of_outbox (move_getElem? hconn _ _)).trans ?_
  have htold : { sys.move relay' c { entered with outbox := sends } with
      conns := deliverAll sends ((sys.conns.set c { entered with outbox := sends }).set c entered) } =
        told := by
    rw [List.set_set]
    rfl
  exact iff_of_eq (congrArg
    (CallReturns setup c (fun n => readings (n + sends.length + 1)) · sys') htold)

end

end DigRelay
