import DigRelay.Common.TaskPool
import DigRelay.Server.Access
import DigRelay.Server.Background
import DigRelay.Server.Outbox
import Mathlib.Order.WellFounded

/-!
# The relay comes to rest

A frame, an accepted connection or a tick of a timer sets off work: the task of a connection goes from
one shared access to the next, pending sends are performed, writers drain their channels, the sweeps
tell those they have to tell. None of this goes on forever, in whichever order the tasks are scheduled.
When nothing more can be done every message has been written, every task waits for its client or has
ended, and the only one that can still be waiting is a torn-down connection whose channel a record left
in the registry holds open.
-/

namespace DigRelay

open Common

variable {crates : Crates} {setup : Setup} {sys sys' : System crates} {label : Label crates}
  {c : ConnId} {conn conn' : Conn crates}

/-- The moves that the relay makes on its own: those of connection tasks, of writers, and of the two
sweeps once they have begun. -/
def Label.isOwn : Label crates → Bool
  | .exec _ _ => true
  | .writeRelay _ _ => true
  | .writePex _ _ => true
  | .writerDone _ => true
  | .sweepExec => true
  | .dhtExec => true
  | _ => false

/-- The moves that finish what has begun: the relay's own, and clients that complete their request or go
away. -/
def Label.isReaction : Label crates → Bool
  | .head _ _ _ => true
  | .hangup _ => true
  | label => label.isOwn

/-- A reaction that changes something. -/
def Reaction (setup : Setup) (sys : System crates) (label : Label crates) (sys' : System crates) : Prop :=
  label.isReaction = true ∧ sys' ≠ sys ∧ Next setup sys label sys'

/-- A bound on the shared accesses that a task has before it until it ends, if no frame comes. -/
def Phase.rank : Phase crates → ℕ
  | .checkBan => 12
  | .checkOpen => 11
  | .acquireOpen => 10
  | .acquireConn => 9
  | .refuseConn => 2
  | .readHead => 8
  | .idle => 7
  | .strike _ => 8
  | .record _ => 15
  | .intercept _ => 14
  | .getPeers _ => 8
  | .forwardTo _ _ => 8
  | .broadcast _ _ _ => 8
  | .registerLoad _ => 13
  | .registerRate _ _ => 12
  | .registerCap _ _ => 11
  | .registerLocked _ _ => 10
  | .registerPex _ _ => 9
  | .registerCommit _ _ => 8
  | .refuse _ => 8
  | .pexHandshake _ => 8
  | .pexData _ => 8
  | .pexBadFrame => 8
  | .deregister => 6
  | .deregisterPex _ _ => 5
  | .awaitWriter => 4
  | .dropReg => 3
  | .dropConn => 2
  | .dropOpen => 1
  | .ended => 0

/-- What a connection has to send and to write, with its channel still to be closed. A send counts twice,
as what it enqueues has yet to be written. -/
def Conn.backlog (conn : Conn crates) : ℕ :=
  2 * conn.outbox.length + conn.out.queue.length + conn.pexOut.queue.length +
    if conn.out.closed ∧ conn.pexOut.closed then 0 else 1

/-- The shared accesses that all tasks have before them. -/
def System.accesses (sys : System crates) : ℕ := poolTotal (fun conn => conn.phase.rank) sys.conns

/-- What is left to be sent and written by connections and sweeps. -/
def System.backlog (sys : System crates) : ℕ :=
  poolTotal Conn.backlog sys.conns +
    poolTotal (fun pruned : PrunedPeer => 2 * pruned.2.2.length + 1) sys.pruned + 2 * sys.asked.length

/-- Less work is left: there are fewer accesses to come, or as many and less to be sent and written. -/
def Closer (sys' sys : System crates) : Prop :=
  sys'.accesses < sys.accesses ∨ sys'.accesses = sys.accesses ∧ sys'.backlog < sys.backlog

/-- Work does not decrease forever. -/
theorem wellFounded_closer : WellFounded (Closer : System crates → System crates → Prop) := by
  have hlex := InvImage.wf (fun sys : System crates => (sys.accesses, sys.backlog))
    (Prod.lex Nat.lt_wfRel Nat.lt_wfRel).wf
  refine Subrelation.wf ?_ hlex
  intro sys' sys h
  exact Prod.lex_def.mpr h

/-- Less work is left after a change to the connections that leaves the phases alone and takes away from
what has to be sent and written. -/
theorem closer_of_backlog {sys' : System crates} (hphases : sys'.conns.map Conn.phase = sys.conns.map Conn.phase)
    (h : sys'.backlog < sys.backlog) : Closer sys' sys := by
  refine .inr ⟨?_, h⟩
  have hranks := congrArg (List.map Phase.rank) hphases
  rw [List.map_map, List.map_map] at hranks
  exact congrArg List.sum hranks

/-- Less work is left after a task has moved closer to its end. -/
theorem closer_of_rank {relay : Relay crates} (hconn : sys.conns[c]? = some conn)
    (h : conn'.phase.rank < conn.phase.rank) :
    Closer { sys with relay, conns := sys.conns.set c conn' } sys := by
  have htotal := poolTotal_set (fun conn : Conn crates => conn.phase.rank) sys.conns c conn conn' hconn
  refine .inl ?_
  change poolTotal _ (sys.conns.set c conn') < poolTotal _ sys.conns
  omega

/-- Less work is left after a connection has less to send and to write. -/
theorem closer_of_conn (hconn : sys.conns[c]? = some conn) (hphase : conn'.phase = conn.phase)
    (h : conn'.backlog < conn.backlog) : Closer (sys.setConn c conn') sys := by
  refine closer_of_backlog (map_set_of_eq Conn.phase hconn hphase) ?_
  have htotal := poolTotal_set Conn.backlog sys.conns c conn conn' hconn
  simp only [System.backlog, System.setConn]
  omega

/-- A send adds at most one message to what has to be written. -/
theorem backlog_deliver_le (send : Send crates) (conns : List (Conn crates)) :
    poolTotal Conn.backlog (deliver send conns) ≤ poolTotal Conn.backlog conns + 1 := by
  rw [deliver_eq_modify]
  refine poolTotal_modify_le Conn.backlog _ 1 (fun conn => ?_) conns send.target
  cases send with
  | relay tx msg =>
    have hlength := conn.out.trySend_length_le msg
    simp only [Conn.offer, Conn.backlog, Channel.trySend_closed]
    omega
  | pex tx msg =>
    have hlength := conn.pexOut.trySend_length_le msg
    simp only [Conn.offer, Conn.backlog, Channel.trySend_closed]
    omega

/-- Every access brings the task closer to its end. -/
theorem access_rank {clock : Clock} {closed : ConnId → Bool} {relay relay' : Relay crates}
    (h : access setup clock closed c relay conn = some (relay', conn')) :
    conn'.phase.rank < conn.phase.rank := by
  obtain ⟨phase, hphase, haccess⟩ := access_cases h
  rw [hphase]
  cases haccess with
  | @intercepted msg =>
    unfold Conn.intercept
    split
    · simp [Phase.rank]
    · cases dispatch conn.session msg <;> simp [Conn.carryOut, Phase.rank]
  | _ => simp [Phase.rank, commitAccess, handshakeAccess]

/-- A writer that takes a message leaves less behind, whether it manages to write it or not. -/
theorem writeStep_closer {ok : Bool} {take : Conn crates → Option (Conn crates)}
    (htake : ∀ conn taken, take conn = some taken →
      taken.phase = conn.phase ∧ taken.backlog < conn.backlog ∧
        0 < conn.out.queue.length + conn.pexOut.queue.length)
    (h : writeStep sys c ok take = some sys') : Closer sys' sys := by
  obtain ⟨conn, taken, hconn, htaken, rfl⟩ := writeStep_some h
  obtain ⟨hphase, hless, hsome⟩ := htake conn taken htaken
  cases ok with
  | true => exact closer_of_conn hconn hphase hless
  | false =>
    refine closer_of_conn hconn rfl ?_
    change 2 * conn.outbox.length < conn.backlog
    unfold Conn.backlog
    omega

/-- A writer that ends leaves less behind, unless it had ended before. -/
theorem closeChannels_closer (hconn : sys.conns[c]? = some conn) :
    sys.setConn c conn.closeChannels = sys ∨ Closer (sys.setConn c conn.closeChannels) sys := by
  by_cases hless : conn.closeChannels.backlog < conn.backlog
  · exact .inr (closer_of_conn hconn rfl hless)
  · have hzero : conn.out.queue.length = 0 ∧ conn.pexOut.queue.length = 0 ∧
        conn.out.closed = true ∧ conn.pexOut.closed = true := by
      simp only [Conn.backlog, Conn.closeChannels, Channel.close, List.length_nil, and_self, if_true] at hless
      split at hless
      · rename_i hclosed
        exact ⟨by omega, by omega, hclosed⟩
      · omega
    obtain ⟨hout, hpexOut, hclosed, hpexClosed⟩ := hzero
    have hsame : conn.closeChannels = conn := by
      rw [Conn.closeChannels, Channel.close_eq_self (List.length_eq_zero_iff.mp hout) hclosed,
        Channel.close_eq_self (List.length_eq_zero_iff.mp hpexOut) hpexClosed]
    have hset : sys.conns.set c conn = sys.conns := by
      obtain ⟨_, rfl⟩ := List.getElem?_eq_some_iff.mp hconn
      exact List.set_getElem_self _
    left
    rw [hsame, System.setConn, hset]

/-- Every reaction leaves less work, unless it changes nothing. -/
theorem next_closer (hlabel : label.isReaction = true) (h : Next setup sys label sys') :
    sys' = sys ∨ Closer sys' sys := by
  by_cases hback : label.isBackground = true
  · cases h with
    | rehash => cases hlabel
    | step h =>
      cases label <;> simp only [Label.isBackground, Bool.false_eq_true] at hback <;>
        simp only [Label.isReaction, Label.isOwn, Bool.false_eq_true] at hlabel <;>
        simp only [step] at h
      case writeRelay c ok =>
        refine .inr (writeStep_closer (fun conn taken htaken => ?_) h)
        obtain ⟨⟨msg, out⟩, hrecv, rfl⟩ := Option.map_eq_some_iff.mp htaken
        have hlength := Channel.recv_length hrecv
        refine ⟨rfl, ?_, by omega⟩
        simp only [Conn.backlog, Channel.recv_closed hrecv]
        omega
      case writePex c ok =>
        refine .inr (writeStep_closer (fun conn taken htaken => ?_) h)
        obtain ⟨⟨msg, pexOut⟩, hrecv, rfl⟩ := Option.map_eq_some_iff.mp htaken
        have hlength := Channel.recv_length hrecv
        refine ⟨rfl, ?_, by omega⟩
        simp only [Conn.backlog, Channel.recv_closed hrecv]
        omega
      case writerDone c =>
        obtain ⟨conn, hconn, hdone⟩ := Option.bind_eq_some_iff.mp h
        split at hdone
        · obtain rfl := Option.some.inj hdone
          exact closeChannels_closer hconn
        · cases hdone
      case dhtExec =>
        split at h
        · cases h
        · rename_i tx rest hasked
          obtain rfl := Option.some.inj h
          right
          refine closer_of_backlog (by rw [phases_deliver]) ?_
          have := backlog_deliver_le (.relay tx (.getDhtRecords dhtMaxKeysPerPeer)) sys.conns
          simp only [System.backlog, hasked, List.length_cons]
          omega
  · right
    cases next_move h with
    | accepted | message | control | swept | rehashed => cases hlabel
    | wrote hlabel | closed hlabel | background _ hlabel => exact absurd hlabel hback
    | @sent c clock conn send rest hconn houtbox =>
      refine closer_of_backlog ?_ ?_
      · rw [phases_deliver]
        exact map_set_of_eq Conn.phase hconn rfl
      · have hsend := backlog_deliver_le send (sys.conns.set c { conn with outbox := rest })
        have htotal := poolTotal_set Conn.backlog sys.conns c conn { conn with outbox := rest } hconn
        simp only [Conn.backlog, houtbox, List.length_cons] at htotal
        simp only [System.backlog]
        omega
    | accessed hconn houtbox haccess => exact closer_of_rank hconn (access_rank haccess)
    | head outcome clock hconn hphase houtbox =>
      refine closer_of_rank hconn ?_
      rw [hphase]
      cases outcome <;> simp [Conn.takeHead, Conn.upgrade, Phase.rank]
    | hangup hconn hphase houtbox =>
      refine closer_of_rank hconn ?_
      rw [hphase]
      simp [Phase.rank]
    | @noticed peerId networkId target targets rest hpruned =>
      refine closer_of_backlog (by rw [phases_deliver]) ?_
      have := backlog_deliver_le (.relay target.2 (.peerDisconnected peerId)) sys.conns
      simp only [System.backlog, hpruned, poolTotal, List.map_cons, List.sum_cons, List.length_cons] at this ⊢
      omega
    | @forgotten peerId networkId rest hpruned =>
      refine closer_of_backlog rfl ?_
      simp only [System.backlog, hpruned, poolTotal, List.map_cons, List.sum_cons]
      omega

/-- A connection at rest: nothing is left to be sent or written, and its task waits for its client, has
ended, or waits for its writer, which a record in the registry keeps from ending. -/
structure Conn.Rests (registry : Registry) (c : ConnId) (conn : Conn crates) : Prop where
  outbox : conn.outbox = []
  out : conn.out.queue = []
  pexOut : conn.pexOut.queue = []
  phase : conn.phase = .readHead ∨ conn.phase = .idle ∨ conn.phase = .ended ∨
    conn.phase = .awaitWriter ∧ ∃ peerId peer, registry.lookup peerId = some peer ∧ peer.tx = c

/-- A relay at rest: its sweeps are done and all its connections rest. -/
structure System.AtRest (sys : System crates) : Prop where
  pruned : sys.pruned = []
  asked : sys.asked = []
  conns : ∀ c conn, sys.conns[c]? = some conn → Conn.Rests sys.relay.registry c conn

/-- A task has no access when it waits for its client, has ended, or waits for a writer that goes on. -/
theorem phase_of_access_none {clock : Clock} {closed : ConnId → Bool} {relay : Relay crates}
    (h : access setup clock closed c relay conn = none) :
    conn.phase = .readHead ∨ conn.phase = .idle ∨ conn.phase = .ended ∨
      conn.phase = .awaitWriter ∧ conn.out.closed = false := by
  cases hphase : conn.phase with
  | readHead => exact .inl rfl
  | idle => exact .inr (.inl rfl)
  | ended => exact .inr (.inr (.inl rfl))
  | awaitWriter =>
    simp only [access, hphase] at h
    split at h
    · cases h
    · rename_i hclosed
      exact .inr (.inr (.inr ⟨rfl, Bool.eq_false_of_not_eq_true hclosed⟩))
  | acquireConn =>
    simp only [access, hphase] at h
    split at h <;> cases h
  | registerCap =>
    simp only [access, hphase] at h
    split at h <;> cases h
  | _ => simp [access, hphase] at h

/-- No move of the relay's own changes anything. -/
def IsStill (setup : Setup) (sys : System crates) : Prop :=
  ∀ label sys', label.isOwn = true → Next setup sys label sys' → sys' = sys

namespace IsStill

variable (h : IsStill setup sys)

include h

/-- The steps of a still relay lead nowhere. -/
theorem step_eq (label : Label crates) (hown : label.isOwn = true) (hstep : step setup sys label = some sys') : sys' = sys :=
  h label sys' hown (.step hstep)

/-- The health sweep of a still relay has told everyone. -/
theorem pruned : sys.pruned = [] := by
  cases hpruned : sys.pruned with
  | nil => rfl
  | cons head rest =>
    exfalso
    obtain ⟨peerId, networkId, targets⟩ := head
    cases targets with
    | nil =>
      have hsame : { sys with
          relay := { sys.relay with pex := sys.relay.pex.onUnregister peerId networkId }
          pruned := rest } = sys :=
        h.step_eq .sweepExec rfl (by simp [step, sweepStep, hpruned])
      have hrest := congrArg System.pruned hsame
      simp [hpruned] at hrest
    | cons target targets =>
      have hsame : { sys with
          conns := deliver (.relay target.2 (.peerDisconnected peerId)) sys.conns
          pruned := (peerId, networkId, targets) :: rest } = sys :=
        h.step_eq .sweepExec rfl (by simp [step, sweepStep, hpruned])
      have hrest := congrArg System.pruned hsame
      simp [hpruned] at hrest

/-- The DHT sweep of a still relay has asked everyone. -/
theorem asked : sys.asked = [] := by
  cases hasked : sys.asked with
  | nil => rfl
  | cons tx rest =>
    exfalso
    have hsame : { sys with
        conns := deliver (.relay tx (.getDhtRecords dhtMaxKeysPerPeer)) sys.conns
        asked := rest } = sys :=
      h.step_eq .dhtExec rfl (by simp [step, hasked])
    have hrest := congrArg System.asked hsame
    simp [hasked] at hrest

/-- A connection of a still relay is as it would be after the move. -/
theorem conn_eq (label : Label crates) (hown : label.isOwn = true) (hconn : sys.conns[c]? = some conn)
    (relay : Relay crates)
    (hstep : step setup sys label = some { sys with relay, conns := sys.conns.set c conn' }) :
    conn' = conn := by
  have hconns := congrArg System.conns (h.step_eq label hown hstep)
  have hfound := congrArg (fun conns : List (Conn crates) => conns[c]?) hconns
  obtain ⟨hlt, rfl⟩ := List.getElem?_eq_some_iff.mp hconn
  simpa [hlt] using hfound

/-- The tasks of a still relay have sent everything. -/
theorem outbox (hconn : sys.conns[c]? = some conn) : conn.outbox = [] := by
  cases houtbox : conn.outbox with
  | nil => rfl
  | cons send rest =>
    exfalso
    have hsame : { sys with conns := deliver send (sys.conns.set c { conn with outbox := rest }) } = sys :=
      h.step_eq (.exec c ⟨0, 0, 0⟩) rfl (by simp [step, execStep, hconn, houtbox])
    have houtboxes := congrArg (fun sys : System crates => (sys.conns.map Conn.outbox)[c]?) hsame
    obtain ⟨hlt, rfl⟩ := List.getElem?_eq_some_iff.mp hconn
    dsimp only at houtboxes
    rw [deliver_map Conn.outbox (fun _ _ => rfl) (fun _ _ => rfl)] at houtboxes
    simp [hlt, houtbox] at houtboxes

/-- The writers of a still relay have written every message. -/
theorem out (hconn : sys.conns[c]? = some conn) : conn.out.queue = [] := by
  cases hqueue : conn.out.queue with
  | nil => rfl
  | cons msg rest =>
    exfalso
    have hsame : { conn with out := { conn.out with queue := rest } } = conn :=
      h.conn_eq (.writeRelay c true) rfl hconn sys.relay
        (by simp [step, writeStep, Conn.recvRelay, Channel.recv, hconn, hqueue, System.setConn])
    have hrest := congrArg (fun conn : Conn crates => conn.out.queue) hsame
    simp [hqueue] at hrest

/-- The writers of a still relay have written every exchange message. -/
theorem pexOut (hconn : sys.conns[c]? = some conn) : conn.pexOut.queue = [] := by
  cases hqueue : conn.pexOut.queue with
  | nil => rfl
  | cons msg rest =>
    exfalso
    have hsame : { conn with pexOut := { conn.pexOut with queue := rest } } = conn :=
      h.conn_eq (.writePex c true) rfl hconn sys.relay
        (by simp [step, writeStep, Conn.recvPex, Channel.recv, hconn, hqueue, System.setConn])
    have hrest := congrArg (fun conn : Conn crates => conn.pexOut.queue) hsame
    simp [hqueue] at hrest

/-- The tasks of a still relay have no access before them. -/
theorem access_none (hconn : sys.conns[c]? = some conn) (clock : Clock) :
    access setup clock (isClosed sys.conns) c sys.relay conn = none := by
  cases haccess : access setup clock (isClosed sys.conns) c sys.relay conn with
  | none => rfl
  | some outcome =>
    exfalso
    obtain ⟨relay, conn'⟩ := outcome
    have hsame : conn' = conn :=
      h.conn_eq (.exec c clock) rfl hconn relay
        (by simp [step, execStep, hconn, h.outbox hconn, haccess])
    have hrank := access_rank haccess
    rw [hsame] at hrank
    exact Nat.lt_irrefl _ hrank

/-- What keeps the writer of a still relay from ending is a record in the registry. -/
theorem exists_record (hconn : sys.conns[c]? = some conn) (hphase : conn.phase = .awaitWriter)
    (hclosed : conn.out.closed = false) :
    ∃ peerId peer, sys.relay.registry.lookup peerId = some peer ∧ peer.tx = c := by
  by_contra hnone
  have hregistry : (sys.relay.registry.toPairs.all fun entry => entry.2.tx ≠ c) = true := by
    refine List.all_eq_true.mpr ?_
    intro entry hentry
    refine decide_eq_true ?_
    intro htx
    exact hnone ⟨entry.1, entry.2, (Table.mem_toPairs_iff _ _ _).mp hentry, htx⟩
  have houtboxes : (sys.conns.all fun other => other.outbox.all fun send => !send.targets c) = true := by
    refine List.all_eq_true.mpr ?_
    intro other hother
    obtain ⟨d, hd⟩ := List.getElem?_of_mem hother
    rw [h.outbox hd]
    rfl
  have hgone : sendersGone sys c conn = true := by
    simp only [sendersGone, hphase, h.outbox hconn, h.out hconn, h.pruned, h.asked, hregistry, houtboxes]
    rfl
  have hsame : conn.closeChannels = conn :=
    h.conn_eq (.writerDone c) rfl hconn sys.relay (by simp [step, hconn, hgone, System.setConn])
  have hopen := congrArg (fun conn : Conn crates => conn.out.closed) hsame
  simp [Conn.closeChannels, Channel.close, hclosed] at hopen

/-- A still relay is at rest. -/
theorem atRest : sys.AtRest where
  pruned := h.pruned
  asked := h.asked
  conns c conn hconn := by
    refine ⟨h.outbox hconn, h.out hconn, h.pexOut hconn, ?_⟩
    rcases phase_of_access_none (h.access_none hconn ⟨0, 0, 0⟩) with hphase | hphase | hphase | hwaits
    · exact .inl hphase
    · exact .inr (.inl hphase)
    · exact .inr (.inr (.inl hphase))
    · exact .inr (.inr (.inr ⟨hwaits.1, h.exists_record hconn hwaits.1 hwaits.2⟩))

end IsStill

/-- Reactions do not go on forever. -/
theorem wellFounded_reaction (setup : Setup) :
    WellFounded (fun sys' sys : System crates => ∃ label, Reaction setup sys label sys') := by
  refine Subrelation.wf ?_ wellFounded_closer
  intro sys' sys hreaction
  obtain ⟨label, hlabel, hne, hnext⟩ := hreaction
  exact (next_closer hlabel hnext).resolve_left hne

/-- No sequence of reactions goes on forever, and a relay that has none of its own left to make is at
rest. -/
theorem reactions_end_at_rest (setup : Setup) :
    WellFounded (fun sys' sys : System crates => ∃ label, Reaction setup sys label sys') ∧
      ∀ sys : System crates, IsStill setup sys → sys.AtRest :=
  ⟨wellFounded_reaction setup, fun _ h => h.atRest⟩

end DigRelay
