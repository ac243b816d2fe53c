import DigRelay.Common.Notify
import DigRelay.Safety.MirrorCoherence
import DigRelay.Safety.Routing
import DigRelay.Server.Script

/-!
# What peers were told about each other

Peers on one network are told when another one comes or leaves. The registry is changed under its
lock and the notices follow after it is released, one by one, while other tasks go on. Once no notice
is pending, what a peer was told last about another should be what the registry says.

It is, as long as the tasks keep out of each other's way: no registration of an id begins or ends
while notices about the id are pending, nobody registers while notices to it are pending, an id that
is taken over stays on its network, and no notice finds its channel full or closed.
-/

namespace DigRelay

open Common

variable {crates : Crates} {setup : Setup} {sys sys' : System crates} {label : Label crates}
  {c : ConnId} {conn : Conn crates} {send : Send crates}
  {task : Session × List (Send crates) × Phase crates}

/-- What a send tells about which peer, if it is a notice. -/
def Send.note : Send crates → Option (Note String ConnId)
  | .relay tx (.peerConnected info) => some ⟨tx, info.peerId, true⟩
  | .relay tx (.peerDisconnected peerId) => some ⟨tx, peerId, false⟩
  | _ => none

/-- All pending sends, those of the health sweep included. -/
def View.sends (view : View crates) : List (Send crates) :=
  (view.tasks.flatMap fun task => task.2.1) ++
    view.pruned.flatMap fun pruned => toTargets pruned.2.2 (.peerDisconnected pruned.1)

/-- All pending notices. -/
def View.notes (view : View crates) : List (Note String ConnId) := view.sends.filterMap Send.note

/-- The registry as a table of ids on networks, held by connections, with the pending notices. -/
def View.board (view : View crates) : Board String String ConnId :=
  { table := fun peerId => (view.registry.lookup peerId).map fun peer => (peer.networkId, peer.tx)
    notes := { note | note ∈ view.notes } }

/-- The send a transition performs. -/
def System.nextSend (sys : System crates) : Label crates → Option (Send crates)
  | .exec c _ => (sys.pending c).head?
  | .sweepExec =>
    match sys.pruned with
    | (peerId, _, target :: _) :: _ => some (.relay target.2 (.peerDisconnected peerId))
    | _ => none
  | _ => none

/-- The connection's relay channel is open and has room. -/
def System.hasRoom (sys : System crates) (c : ConnId) : Bool :=
  sys.conns[c]?.any fun conn => decide conn.out.HasRoom

/-- The notice a transition enqueues. -/
def System.told (sys : System crates) (label : Label crates) : Option (Note String ConnId) :=
  ((sys.nextSend label).bind Send.note).filter fun note => sys.hasRoom note.observer

/-- The transition drops a notice. -/
def System.drops (sys : System crates) (label : Label crates) : Bool :=
  ((sys.nextSend label).bind Send.note).any fun note => !sys.hasRoom note.observer

/-- The registration would take the id to another network, or leave another record of the connection
behind, or come while notices about the id, to the connection or to whom it replaces are pending. -/
def System.unsettles (sys : System crates) (c : ConnId) (request : RegisterRequest) : Bool :=
  (sys.view.notes.any fun note => note.key = request.peerId || note.observer = c) ||
    ((sys.relay.registry.lookup request.peerId).any fun existing =>
      existing.networkId ≠ request.networkId ||
        sys.view.notes.any fun note => note.observer = existing.tx) ||
    sys.relay.registry.toPairs.any fun entry => entry.2.tx = c && entry.1 ≠ request.peerId

/-- The transition begins or ends a registration while notices that depend on it are pending, or ends
one on another network than the session says. -/
def outruns (setup : Setup) (sys : System crates) : Label crates → Bool
  | .exec c clock =>
    sys.conns[c]?.any fun conn =>
      match conn.outbox, conn.phase with
      | [], .registerLocked request _ =>
        match registerVerdict setup.config (isClosed sys.conns) sys.relay request conn.identity
          conn.addr clock.unix c with
        | .accepted _ _ _ => sys.unsettles c request
        | .refused _ => false
      | [], .deregister =>
        conn.session.seat.any fun (peerId, networkId) =>
          (sys.relay.registry.lookup peerId).any fun peer =>
            peer.networkId ≠ networkId || sys.view.notes.any fun note => note.key = peerId
      | _, _ => false
  | .sweep now => sys.view.notes.any fun note => note.key ∈ victims setup sys now
  | _ => false

/-- The notices on the board are those of the pending sends. -/
theorem mem_board_notes {view : View crates} {note : Note String ConnId} :
    note ∈ view.board.notes ↔ ∃ send ∈ view.sends, send.note = some note :=
  List.mem_filterMap

/-- A plain send is no notice. -/
theorem note_of_isPlain (h : send.isPlain = true) : send.note = none := by
  cases send with
  | pex => rfl
  | relay tx msg => cases msg <;> first | rfl | cases h

/-- What a task has pending is pending. -/
theorem mem_sends_setTask_self (hconn : sys.conns[c]? = some conn) (h : send ∈ task.2.1) :
    send ∈ (sys.view.setTask c task).sends := by
  have hlt : c < sys.view.tasks.length := by
    simpa [System.view] using (List.getElem?_eq_some_iff.mp hconn).1
  refine List.mem_append_left _ (List.mem_flatMap.mpr ⟨task, ?_, h⟩)
  exact List.mem_of_getElem? (List.getElem?_set_self hlt)

/-- What is pending after a task has moved was pending before or is pending in that task. -/
theorem mem_sends_of_mem_setTask (h : send ∈ (sys.view.setTask c task).sends) :
    send ∈ task.2.1 ∨ send ∈ sys.view.sends := by
  rcases List.mem_append.mp h with htask | hpruned
  · obtain ⟨other, hother, hsend⟩ := List.mem_flatMap.mp htask
    rcases List.mem_or_eq_of_mem_set hother with hold | rfl
    · exact .inr (List.mem_append_left _ (List.mem_flatMap.mpr ⟨other, hold, hsend⟩))
    · exact .inl hsend
  · exact .inr (List.mem_append_right _ hpruned)

/-- What is pending stays so when a task moves, unless it was pending in that task. -/
theorem mem_setTask_of_mem_sends (hconn : sys.conns[c]? = some conn) (h : send ∈ sys.view.sends) :
    send ∈ conn.outbox ∨ send ∈ (sys.view.setTask c task).sends := by
  rcases List.mem_append.mp h with htask | hpruned
  · obtain ⟨other, hother, hsend⟩ := List.mem_flatMap.mp htask
    obtain ⟨d, hd⟩ := List.mem_iff_getElem?.mp hother
    by_cases hc : c = d
    · subst hc
      obtain rfl : conn.task = other := by simpa [System.view, hconn] using hd
      exact .inl hsend
    · refine .inr (List.mem_append_left _ (List.mem_flatMap.mpr ⟨other, ?_, hsend⟩))
      exact List.mem_of_getElem? ((List.getElem?_set_ne hc).trans hd)
  · exact .inr (List.mem_append_right _ hpruned)

/-- A task that had nothing pending adds the notices it now has pending. -/
theorem mem_board_notes_setTask {registry : Registry} {note : Note String ConnId}
    (hconn : sys.conns[c]? = some conn) (houtbox : conn.outbox = []) :
    note ∈ (View.board { sys.view.setTask c task with registry }).notes ↔
      note ∈ sys.view.board.notes ∨ ∃ send ∈ task.2.1, send.note = some note := by
  rw [mem_board_notes, mem_board_notes]
  constructor
  · rintro ⟨send, hmem, hnote⟩
    rcases mem_sends_of_mem_setTask hmem with hnew | hold
    · exact .inr ⟨send, hnew, hnote⟩
    · exact .inl ⟨send, hold, hnote⟩
  · intro hpending
    rcases hpending with ⟨send, hmem, hnote⟩ | ⟨send, hmem, hnote⟩
    · refine ⟨send, (mem_setTask_of_mem_sends hconn hmem).resolve_left ?_, hnote⟩
      rw [houtbox]
      exact List.not_mem_nil
    · exact ⟨send, mem_sends_setTask_self hconn hmem, hnote⟩

/-- A task that had nothing pending and now has no notice pending leaves the notices alone. -/
theorem board_notes_setTask (hconn : sys.conns[c]? = some conn) (houtbox : conn.outbox = [])
    (htask : ∀ send ∈ task.2.1, send.note = none) :
    (sys.view.setTask c task).board.notes = sys.view.board.notes := by
  ext note
  apply (mem_board_notes_setTask hconn houtbox).trans
  apply or_iff_left
  rintro ⟨send, hmem, hnote⟩
  cases (htask send hmem).symm.trans hnote

/-- Performing a send that finds room delivers its note, if it is one. -/
theorem board_move_of_performed {view : View crates} (hregistry : view.registry = sys.view.registry)
    (hmem : send ∈ sys.view.sends)
    (hleft : ∀ other ∈ sys.view.sends, other = send ∨ other ∈ view.sends)
    (hnew : ∀ other ∈ view.sends, other ∈ sys.view.sends)
    (hroom : (send.note.any fun note => !sys.hasRoom note.observer) = false) :
    sys.view.board.Move view.board (send.note.filter fun note => sys.hasRoom note.observer) := by
  have htable : view.board.table = sys.view.board.table := by
    unfold View.board
    rw [hregistry]
  have hback (note : Note String ConnId) (h : note ∈ view.board.notes) : note ∈ sys.view.board.notes := by
    obtain ⟨other, hother, hnote⟩ := mem_board_notes.mp h
    exact mem_board_notes.mpr ⟨other, hnew other hother, hnote⟩
  have hkept (note : Note String ConnId) (h : note ∈ sys.view.board.notes) :
      send.note = some note ∨ note ∈ view.board.notes := by
    obtain ⟨other, hother, hnote⟩ := mem_board_notes.mp h
    rcases hleft other hother with rfl | hstill
    · exact .inl hnote
    · exact .inr (mem_board_notes.mpr ⟨other, hstill, hnote⟩)
  cases hnote : send.note with
  | none =>
    refine .stay htable (Set.Subset.antisymm hback fun note h => (hkept note h).resolve_left ?_)
    rw [hnote]
    exact Option.some_ne_none note |>.symm
  | some note =>
    rw [hnote, Option.any_some, Bool.not_eq_false'] at hroom
    rw [Option.filter_some, if_pos hroom]
    refine .tell note (mem_board_notes.mpr ⟨send, hmem, hnote⟩) htable (fun other h => ?_) hback
    exact (hkept other h).imp_left fun heq => (Option.some.inj (hnote.symm.trans heq)).symm

/-- A transition that performs a send is a move of its task or of the health sweep. -/
theorem next_performs (hsend : sys.nextSend label = some send) (h : Next setup sys label sys') :
    (∃ c conn rest, sys.conns[c]? = some conn ∧ conn.outbox = send :: rest ∧
        sys' = { sys with conns := deliver send (sys.conns.set c { conn with outbox := rest }) }) ∨
      ∃ peerId networkId target targets rest,
        sys.pruned = (peerId, networkId, target :: targets) :: rest ∧
        send = .relay target.2 (.peerDisconnected peerId) ∧
        sys' = { sys with
          conns := deliver send sys.conns
          pruned := (peerId, networkId, targets) :: rest } := by
  cases next_move h with
  | @sent c clock conn first rest hconn houtbox =>
    obtain rfl : first = send := by
      simpa [System.nextSend, pending_of_outbox hconn, houtbox] using hsend
    exact .inl ⟨c, conn, rest, hconn, houtbox, rfl⟩
  | @noticed peerId networkId target targets rest hpruned =>
    obtain rfl : .relay target.2 (.peerDisconnected peerId) = send := by
      simpa [System.nextSend, hpruned] using hsend
    exact .inr ⟨peerId, networkId, target, targets, rest, hpruned, rfl, rfl⟩
  | accessed hconn houtbox =>
    simp [System.nextSend, pending_of_outbox hconn, houtbox] at hsend
  | forgotten hpruned => simp [System.nextSend, hpruned] at hsend
  | wrote hlabel | closed hlabel | background _ hlabel =>
    cases label <;> cases hlabel <;> cases hsend
  | _ => cases hsend

/-- A transition that performs a send is a delivery. -/
theorem next_board_of_nextSend (hsend : sys.nextSend label = some send)
    (hdrops : sys.drops label = false) (h : Next setup sys label sys') :
    sys.view.board.Move sys'.view.board (sys.told label) := by
  have hroom : (send.note.any fun note => !sys.hasRoom note.observer) = false := by
    simpa [System.drops, hsend] using hdrops
  have htold : sys.told label = send.note.filter fun note => sys.hasRoom note.observer := by
    simp [System.told, hsend]
  rw [htold]
  rcases next_performs hsend h with ⟨c, conn, rest, hconn, houtbox, rfl⟩ |
    ⟨peerId, networkId, target, targets, rest, hpruned, rfl, rfl⟩
  · have hview : System.view { sys with conns := deliver send (sys.conns.set c { conn with outbox := rest }) } =
        sys.view.setTask c (conn.session, rest, conn.phase) := by
      simp only [System.view, tasks_deliver, List.map_set, View.setTask, Conn.task]
    have hbox (other : Send crates) (hother : other ∈ conn.outbox) : other ∈ sys.view.sends := by
      refine List.mem_append_left _ (List.mem_flatMap.mpr ⟨conn.task, ?_, hother⟩)
      exact List.mem_map_of_mem (List.mem_of_getElem? hconn)
    rw [houtbox] at hbox
    rw [hview]
    refine board_move_of_performed rfl (hbox send List.mem_cons_self) (fun other hother => ?_)
      (fun other hother => ?_) hroom
    · rcases mem_setTask_of_mem_sends hconn hother with hown | hstill
      · rw [houtbox] at hown
        exact (List.mem_cons.mp hown).imp_right fun hrest => mem_sends_setTask_self hconn hrest
      · exact .inr hstill
    · exact (mem_sends_of_mem_setTask hother).elim (fun hrest => hbox other (List.mem_cons_of_mem _ hrest)) id
  · have hafter : (System.view { sys with
        conns := deliver (.relay target.2 (.peerDisconnected peerId)) sys.conns
        pruned := (peerId, networkId, targets) :: rest }).sends =
        (sys.view.tasks.flatMap fun task => task.2.1) ++
          (toTargets targets (.peerDisconnected peerId) ++
            rest.flatMap fun pruned => toTargets pruned.2.2 (.peerDisconnected pruned.1)) := by
      simp only [View.sends, System.view, tasks_deliver, List.flatMap_cons]
    have hbefore : sys.view.sends = (sys.view.tasks.flatMap fun task => task.2.1) ++
          (.relay target.2 (.peerDisconnected peerId) :: toTargets targets (.peerDisconnected peerId) ++
            rest.flatMap fun pruned => toTargets pruned.2.2 (.peerDisconnected pruned.1)) := by
      simp only [View.sends, System.view, hpruned, List.flatMap_cons, toTargets, List.map_cons]
    refine board_move_of_performed rfl ?_ (fun other hother => ?_) (fun other hother => ?_) hroom
    · rw [hbefore]
      simp
    · rw [hbefore] at hother
      rw [hafter]
      simp only [List.mem_append, List.mem_cons] at hother ⊢
      tauto
    · rw [hafter] at hother
      rw [hbefore]
      simp only [List.mem_append, List.mem_cons] at hother ⊢
      tauto

/-- A notice that finds room is put at the end of its target's queue. -/
theorem deliver_queue {tx : ConnId} (msg : RelayMessage) {conns : List (Conn crates)}
    (hconn : conns[tx]? = some conn) (hroom : conn.out.HasRoom) :
    ∃ conn', (deliver (.relay tx msg) conns)[tx]? = some conn' ∧
      conn'.out.queue = conn.out.queue ++ [msg] := by
  have htarget := (delivers_deliver (.relay tx msg) conns).target
  simp only [Send.target, hconn, Option.map_some] at htarget
  refine ⟨_, htarget, ?_⟩
  simp only [Conn.offer, Channel.trySend, if_pos hroom]

/-- A notice that a transition tells is enqueued on its target's channel. -/
theorem next_told {note : Note String ConnId} (htold : sys.told label = some note)
    (h : Next setup sys label sys') :
    ∃ conn conn' msg, sys.conns[note.observer]? = some conn ∧
      sys'.conns[note.observer]? = some conn' ∧ conn'.out.queue = conn.out.queue ++ [msg] ∧
      (Send.relay note.observer msg : Send crates).note = some note := by
  obtain ⟨hbind, hroom⟩ := Option.filter_eq_some_iff.mp htold
  obtain ⟨send, hsend, hnote⟩ := Option.bind_eq_some_iff.mp hbind
  obtain ⟨conn, hconn, hroom⟩ := (Option.any_eq_true _ _).mp hroom
  have hroom := of_decide_eq_true hroom
  obtain ⟨msg, rfl⟩ : ∃ msg, send = .relay note.observer msg := by
    cases send with
    | pex => cases hnote
    | relay tx msg =>
      refine ⟨msg, ?_⟩
      cases msg <;> cases hnote <;> rfl
  rcases next_performs hsend h with ⟨c, mover, rest, hmover, -, rfl⟩ | ⟨_, _, _, _, _, -, -, rfl⟩
  · obtain ⟨target, htarget, hout⟩ : ∃ target,
        (sys.conns.set c { mover with outbox := rest })[note.observer]? = some target ∧
          target.out = conn.out :=
      exists_getElem?_of_map_eq (map_set_of_eq Conn.out hmover rfl) hconn
    obtain ⟨conn', hconn', hqueue⟩ := deliver_queue msg htarget (hout ▸ hroom)
    exact ⟨conn, conn', msg, hconn, hconn', hout ▸ hqueue, hnote⟩
  · obtain ⟨conn', hconn', hqueue⟩ := deliver_queue msg hconn hroom
    exact ⟨conn, conn', msg, hconn, hconn', hqueue, hnote⟩

/-- A registration that unsettles nothing: no notice about the id, to the connection or to whom it
replaces is pending, the id stays on its network, and the connection has no other record. -/
theorem unsettles_eq_false {request : RegisterRequest} (h : sys.unsettles c request = false) :
    (∀ note ∈ sys.view.notes, note.key ≠ request.peerId ∧ note.observer ≠ c) ∧
      (∀ existing, sys.relay.registry.lookup request.peerId = some existing →
        existing.networkId = request.networkId ∧
          ∀ note ∈ sys.view.notes, note.observer ≠ existing.tx) ∧
      ∀ other peer, sys.relay.registry.lookup other = some peer → peer.tx = c →
        other = request.peerId := by
  simp only [System.unsettles, Bool.or_eq_false_iff] at h
  obtain ⟨⟨hnotes, hexisting⟩, hsole⟩ := h
  refine ⟨fun note hnote => ?_, fun existing hlookup => ?_, fun other peer hlookup htx => ?_⟩
  · simpa using List.any_eq_false.mp hnotes note hnote
  · rw [hlookup, Option.any_some, Bool.or_eq_false_iff] at hexisting
    exact ⟨by simpa using hexisting.1, by simpa using hexisting.2⟩
  · have hentry := List.any_eq_false.mp hsole (other, peer)
      ((sys.relay.registry.mem_toPairs_iff other peer).mpr hlookup)
    simpa [htx] using hentry

/-- The registry entry of an id on the board. -/
theorem board_table_eq_some {view : View crates} {peerId networkId : String} {tx : ConnId} :
    view.board.table peerId = some (networkId, tx) ↔
      ∃ peer, view.registry.lookup peerId = some peer ∧ peer.networkId = networkId ∧ peer.tx = tx := by
  simp [View.board, Option.map_eq_some_iff]

/-- An accepted registration that unsettles nothing is entered on the board. -/
theorem board_move_entered {clock : Clock} {request : RegisterRequest} {slot : Slot}
    {connectedPeers : ℕ} {targets : List (String × ConnId)} {relay : Relay crates}
    (hguard : outruns setup sys (.exec c clock) = false) (hconn : sys.conns[c]? = some conn)
    (houtbox : conn.outbox = []) (hphase : conn.phase = .registerLocked request slot)
    (hverdict : registerVerdict setup.config (isClosed sys.conns) sys.relay request conn.identity
      conn.addr clock.unix c = .accepted connectedPeers targets relay) :
    sys.view.board.Move (View.board
      { sys.view.setTask c
          (conn.session,
            .relay c (.registerAck true "registered" connectedPeers) ::
              toTargets targets
                (.peerConnected (registrantInfo crates request conn.addr clock.unix)),
            .registerPex request slot) with
        registry := relay.registry }) none := by
  have hsettles : sys.unsettles c request = false := by
    simpa [outruns, hconn, houtbox, hphase, hverdict] using hguard
  obtain ⟨hnotes, hexisting, hsole⟩ := unsettles_eq_false hsettles
  obtain ⟨-, -, hregistry, htargets, -⟩ := registerVerdict_accepted hverdict
  have htarget (other : String) (o : ConnId) : (other, o) ∈ targets ↔
      other ≠ request.peerId ∧ sys.view.board.table other = some (request.networkId, o) := by
    rw [htargets, hregistry, Registry.mem_broadcastTargets_iff, board_table_eq_some]
    constructor
    · rintro ⟨peer, hpeer, hnetwork, hne, -, htx⟩
      rw [Table.lookup_insert_eq, if_neg hne] at hpeer
      exact ⟨hne, peer, hpeer, hnetwork, htx⟩
    · rintro ⟨hne, peer, hpeer, hnetwork, htx⟩
      refine ⟨peer, ?_, hnetwork, hne, List.not_mem_nil, htx⟩
      rw [Table.lookup_insert_eq, if_neg hne]
      exact hpeer
  refine .enter request.peerId request.networkId c (fun note hnote => (hnotes note hnote).1)
    (fun note hnote => (hnotes note hnote).2) (fun p o ho => ?_) (fun other p hother => ?_) ?_
    (fun other hne => ?_) (fun note hnote => ?_) (fun other o hne hother => ?_) (fun note hnote => ?_)
  · obtain ⟨existing, hlookup, rfl, rfl⟩ := board_table_eq_some.mp ho
    exact hexisting existing hlookup
  · obtain ⟨peer, hlookup, -, htx⟩ := board_table_eq_some.mp hother
    exact hsole other peer hlookup htx
  · refine board_table_eq_some.mpr ⟨registrant crates request conn.addr clock.unix c, ?_, rfl, rfl⟩
    exact (lookup_of_registerVerdict hverdict request.peerId).trans (if_pos rfl)
  · simp only [View.board]
    rw [lookup_of_registerVerdict hverdict other, if_neg hne]
    rfl
  · exact (mem_board_notes_setTask hconn houtbox).mpr (.inl hnote)
  · refine (mem_board_notes_setTask hconn houtbox).mpr (.inr ⟨.relay o (.peerConnected
      (registrantInfo crates request conn.addr clock.unix)), List.mem_cons_of_mem _ ?_, rfl⟩)
    exact List.mem_map.mpr ⟨(other, o), (htarget other o).mpr ⟨hne, hother⟩, rfl⟩
  · apply ((mem_board_notes_setTask hconn houtbox).mp hnote).imp_right
    rintro ⟨send, hsend, heq⟩
    rcases List.mem_cons.mp hsend with rfl | htold
    · cases heq
    · obtain ⟨⟨other, o⟩, hmem, rfl⟩ := List.mem_map.mp htold
      obtain rfl := Option.some.inj heq
      exact ⟨rfl, rfl, other, (htarget other o).mp hmem⟩

/-- A teardown that outruns nothing takes its id off the board. -/
theorem board_move_removed {clock : Clock} {peerId networkId : String}
    {targets : List (String × ConnId)} {relay : Relay crates}
    (hguard : outruns setup sys (.exec c clock) = false) (hconn : sys.conns[c]? = some conn)
    (houtbox : conn.outbox = []) (hphase : conn.phase = .deregister)
    (hpeerId : conn.session.peerId = some peerId) (hnetworkId : conn.session.networkId = some networkId)
    (hremove : removeLocked sys.relay peerId networkId = some (targets, relay)) :
    sys.view.board.Move (View.board
      { sys.view.setTask c
          (conn.session, toTargets targets (.peerDisconnected peerId),
            .deregisterPex peerId networkId) with
        registry := relay.registry }) none := by
  obtain ⟨⟨peer, hpeer⟩, hrelay, htargets⟩ := removeLocked_some hremove
  have hregistry : relay.registry = sys.relay.registry.erase peerId := by rw [hrelay]
  obtain ⟨hnetwork, hnotes⟩ : peer.networkId = networkId ∧ ∀ note ∈ sys.view.notes, note.key ≠ peerId := by
    simpa [outruns, hconn, houtbox, hphase, Session.seat, hpeerId, hnetworkId, hpeer] using hguard
  refine .leave {peerId} (fun note hnote => hnotes note hnote) ?_ (fun key hkey => ?_)
    (fun note hnote => ?_) ?_ (fun note hnote => ?_)
  · rintro key rfl
    simp only [View.board]
    rw [hregistry, Table.lookup_erase_eq, if_pos rfl]
    rfl
  · have hne : key ≠ peerId := hkey
    simp only [View.board]
    rw [hregistry, Table.lookup_erase_eq, if_neg hne]
    rfl
  · exact (mem_board_notes_setTask hconn houtbox).mpr (.inl hnote)
  · rintro key rfl place ⟨owner, howner⟩ other hother o ho
    have hne : other ≠ key := hother
    obtain ⟨found, hfound, rfl, -⟩ := board_table_eq_some.mp howner
    obtain rfl := Option.some.inj (hpeer.symm.trans hfound)
    obtain ⟨told, hlookup, hplace, htx⟩ := board_table_eq_some.mp ho
    have hmem : (other, o) ∈ targets := by
      rw [htargets, hregistry, Registry.mem_broadcastTargets_iff]
      refine ⟨told, ?_, hplace.trans hnetwork, hne, List.not_mem_nil, htx⟩
      rw [Table.lookup_erase_eq, if_neg hne]
      exact hlookup
    exact (mem_board_notes_setTask hconn houtbox).mpr
      (.inr ⟨_, List.mem_map.mpr ⟨(other, o), hmem, rfl⟩, rfl⟩)
  · apply ((mem_board_notes_setTask hconn houtbox).mp hnote).imp_right
    rintro ⟨send, hsend, heq⟩
    obtain ⟨target, -, rfl⟩ := List.mem_map.mp hsend
    obtain rfl := Option.some.inj heq
    exact ⟨rfl, rfl⟩

/-- Whoever stays is told of every victim of a sweep on the same network. -/
theorem sweepLocked_tells {now : ℕ} {peerId other : String} {peer told : Peer}
    (hvictim : peerId ∈ victims setup sys now) (hpeer : sys.relay.registry.lookup peerId = some peer)
    (hother : other ∉ victims setup sys now) (htold : sys.relay.registry.lookup other = some told)
    (hsame : told.networkId = peer.networkId) :
    ∃ networkId targets, (peerId, networkId, targets) ∈ (sweepLocked setup sys now).1 ∧
      (other, told.tx) ∈ targets := by
  obtain ⟨⟨peerId, networkId⟩, hrow, rfl⟩ := List.mem_map.mp hvictim
  obtain ⟨found, hfound, rfl, -⟩ := Registry.mem_deadOrStale_iff.mp hrow
  obtain rfl := Option.some.inj (hpeer.symm.trans hfound)
  rw [← sweepLocked_pruned] at hrow
  obtain ⟨⟨_, _, targets⟩, hmem, heq⟩ := List.mem_map.mp hrow
  obtain ⟨rfl, rfl⟩ := Prod.mk.injEq .. ▸ heq
  obtain ⟨-, hnames⟩ := sweepLocked_names hmem hother htold
  exact ⟨_, targets, hmem, (hnames told.tx).mpr ⟨hsame, rfl⟩⟩

/-- A sweep that outruns nothing takes its victims off the board. -/
theorem board_move_swept {now : ℕ} (hguard : outruns setup sys (.sweep now) = false)
    (hdone : sys.pruned = []) :
    sys.view.board.Move (View.board
      { sys.view with
        registry := (sweepLocked setup sys now).2.registry
        pruned := (sweepLocked setup sys now).1 }) none := by
  have hnotes (note : Note String ConnId) (hnote : note ∈ sys.view.notes) :
      note.key ∉ victims setup sys now := by
    simpa using List.any_eq_false.mp hguard note hnote
  have hlookup := sweepLocked_lookup setup sys now
  have htasks : sys.view.sends = sys.view.tasks.flatMap fun task => task.2.1 := by
    simp [View.sends, System.view, hdone]
  refine .leave { peerId | peerId ∈ victims setup sys now } hnotes (fun key hkey => ?_)
    (fun key hkey => ?_) (fun note hnote => ?_) ?_ (fun note hnote => ?_)
  · exact congrArg (Option.map _) ((hlookup key).trans (if_pos hkey))
  · exact congrArg (Option.map _) ((hlookup key).trans (if_neg hkey))
  · obtain ⟨send, hsend, heq⟩ := mem_board_notes.mp hnote
    rw [htasks] at hsend
    exact mem_board_notes.mpr ⟨send, List.mem_append_left _ hsend, heq⟩
  · rintro key hkey place ⟨owner, howner⟩ other hother o ho
    obtain ⟨peer, hpeer, rfl, -⟩ := board_table_eq_some.mp howner
    obtain ⟨told, htold, hplace, rfl⟩ := board_table_eq_some.mp ho
    obtain ⟨networkId, targets, hpruned, htarget⟩ := sweepLocked_tells hkey hpeer hother htold hplace
    refine mem_board_notes.mpr ⟨.relay told.tx (.peerDisconnected key), List.mem_append_right _ ?_, rfl⟩
    exact List.mem_flatMap.mpr ⟨_, hpruned, List.mem_map.mpr ⟨(other, told.tx), htarget, rfl⟩⟩
  · obtain ⟨send, hsend, heq⟩ := mem_board_notes.mp hnote
    rcases List.mem_append.mp hsend with hold | hnew
    · exact .inl (mem_board_notes.mpr ⟨send, List.mem_append_left _ hold, heq⟩)
    · obtain ⟨pruned, hpruned, htold⟩ := List.mem_flatMap.mp hnew
      obtain ⟨target, -, rfl⟩ := List.mem_map.mp htold
      obtain rfl := Option.some.inj heq
      refine .inr ⟨List.mem_map.mpr ⟨(pruned.1, pruned.2.1), ?_, rfl⟩, rfl⟩
      rw [← sweepLocked_pruned]
      exact List.mem_map_of_mem hpruned

/-- A transition that performs no send and outruns nothing is a move of the board. -/
theorem Turn.board_move {view : View crates} (h : Turn setup sys label view)
    (hsend : sys.nextSend label = none) (hguard : outruns setup sys label = false) :
    sys.view.board.Move view.board none := by
  have hplain {c : ConnId} {conn : Conn crates} {task : Session × List (Send crates) × Phase crates}
      (hconn : sys.conns[c]? = some conn) (houtbox : conn.outbox = [])
      (htask : ∀ send ∈ task.2.1, send.note = none) :
      sys.view.board.Move (sys.view.setTask c task).board none :=
    .stay rfl (board_notes_setTask hconn houtbox htask)
  have hpex {c : ConnId} {msgs : List crates.Message} :
      ∀ send ∈ (toSelfPex c msgs : List (Send crates)), send.note = none := by
    intro send hmem
    obtain ⟨msg, -, rfl⟩ := List.mem_map.mp hmem
    rfl
  cases h with
  | still | ticked => exact .stay rfl rfl
  | arrived addr identity =>
    refine .stay rfl ?_
    simp [View.board, View.notes, View.sends]
  | @sent c clock conn send rest hconn houtbox =>
    simp [System.nextSend, pending_of_outbox hconn, houtbox] at hsend
  | took frame clock hconn hphase houtbox htakes =>
    exact hplain hconn houtbox fun send hmem => note_of_isPlain (htakes.outbox send hmem)
  | moved hconn houtbox hbefore hafter hsends =>
    exact hplain hconn houtbox fun send hmem => note_of_isPlain (hsends send hmem)
  | entered hconn houtbox hphase hverdict => exact board_move_entered hguard hconn houtbox hphase hverdict
  | mirrored hconn houtbox | committed hconn houtbox | unmirrored hconn houtbox =>
    exact hplain hconn houtbox (by simp)
  | handshook hconn houtbox | data hconn houtbox | badFrame hconn houtbox =>
    exact hplain hconn houtbox hpex
  | removed hconn houtbox hphase hpeerId hnetworkId hremove =>
    exact board_move_removed hguard hconn houtbox hphase hpeerId hnetworkId hremove
  | swept now hdone => exact board_move_swept hguard hdone
  | noticed hpruned => simp [System.nextSend, hpruned] at hsend
  | forgotten hpruned =>
    refine .stay rfl ?_
    simp [View.board, View.notes, View.sends, System.view, hpruned, toTargets]
  | rehashed hregistry hengines =>
    refine .stay (funext fun peerId => ?_) rfl
    exact congrArg (Option.map _) (hregistry.lookup_eq peerId).symm

/-- Every transition that outruns nothing and drops no notice is a move of the board. -/
theorem next_board (hwf : sys.WellFormed) (hplain : sys.Plain) (hguard : outruns setup sys label = false)
    (hdrops : sys.drops label = false) (h : Next setup sys label sys') :
    sys.view.board.Move sys'.view.board (sys.told label) := by
  cases hsend : sys.nextSend label with
  | some send => exact next_board_of_nextSend hsend hdrops h
  | none =>
    have htold : sys.told label = none := by simp [System.told, hsend]
    rw [htold]
    exact (next_turn hwf hplain h).board_move hsend hguard

/-- The peer has a record on the network. -/
def RegisteredOn (sys : System crates) (peerId networkId : String) : Prop :=
  ∃ peer, sys.relay.registry.lookup peerId = some peer ∧ peer.networkId = networkId

instance (sys : System crates) (peerId networkId : String) :
    Decidable (RegisteredOn sys peerId networkId) :=
  decidable_of_iff (((sys.relay.registry.lookup peerId).any fun peer => peer.networkId = networkId) = true)
    (by simp [RegisteredOn, Option.any_eq_true])

/-- Having a record on a network is being there on the board. -/
theorem registeredOn_iff {peerId networkId : String} :
    RegisteredOn sys peerId networkId ↔ sys.view.board.At peerId networkId := by
  simp only [RegisteredOn, Board.At, board_table_eq_some]
  constructor
  · rintro ⟨peer, hpeer, hnetwork⟩
    exact ⟨peer.tx, peer, hpeer, hnetwork, rfl⟩
  · rintro ⟨_, peer, hpeer, hnetwork, -⟩
    exact ⟨peer, hpeer, hnetwork⟩

/-- What a transition tells one peer about another: the notice it enqueues, if it is about the other
and goes to the channel of the one's record. -/
def System.heard (sys : System crates) (reader about : String) (label : Label crates) : Option Bool :=
  sys.view.board.heard reader about (sys.told label)

/-- What one peer was told last about another: whether it is here. -/
def lastHeard (reader about : String)
    (since : List (System crates × Label crates × System crates)) : Option Bool :=
  since.foldl (fun last t => (t.1.heard reader about t.2.1).or last) none

/-- The transition puts a notice on whether the one is here at the end of the queue of the other's record. -/
def Enqueues (t : System crates × Label crates × System crates) (reader about : String) (here : Bool) : Prop :=
  ∃ peer conn conn' msg, t.1.relay.registry.lookup reader = some peer ∧
    t.1.conns[peer.tx]? = some conn ∧ t.2.2.conns[peer.tx]? = some conn' ∧
    conn'.out.queue = conn.out.queue ++ [msg] ∧
    (Send.relay peer.tx msg : Send crates).note = some ⟨peer.tx, about, here⟩

/-- What a transition tells one peer about another is enqueued to the one. -/
theorem enqueues_of_heard {reader about : String} {here : Bool}
    (hheard : sys.heard reader about label = some here) (h : Next setup sys label sys') :
    Enqueues (sys, label, sys') reader about here := by
  obtain ⟨note, htold, hmatch⟩ := Option.bind_eq_some_iff.mp hheard
  simp only [Option.ite_none_right_eq_some, Option.some.injEq] at hmatch
  obtain ⟨⟨rfl, hreader⟩, rfl⟩ := hmatch
  obtain ⟨⟨networkId, tx⟩, htable, hobserver⟩ := Option.map_eq_some_iff.mp hreader
  obtain ⟨peer, hpeer, -, htx⟩ := board_table_eq_some.mp htable
  obtain ⟨conn, conn', msg, hconn, hconn', hqueue, hnote⟩ := next_told htold h
  have howner : note.observer = peer.tx := (htx.trans hobserver).symm
  rw [howner] at hconn hconn' hnote
  refine ⟨peer, conn, conn', msg, hpeer, hconn, hconn', hqueue, hnote.trans ?_⟩
  rw [← howner]

/-- What was told last was told by a transition after which nothing was told. -/
theorem exists_heard_of_lastHeard {reader about : String} {here : Bool}
    {since : List (System crates × Label crates × System crates)}
    (h : lastHeard reader about since = some here) :
    ∃ before t after, since = before ++ t :: after ∧ t.1.heard reader about t.2.1 = some here ∧
      ∀ later ∈ after, later.1.heard reader about later.2.1 = none := by
  induction since using List.reverseRecOn with
  | nil => cases h
  | append_singleton before last ih =>
    rw [lastHeard, List.foldl_append] at h
    cases hheard : last.1.heard reader about last.2.1 with
    | some told =>
      refine ⟨before, last, [], rfl, ?_, List.forall_mem_nil _⟩
      rw [List.foldl_cons, hheard] at h
      rw [hheard]
      exact h
    | none =>
      rw [List.foldl_cons, hheard, Option.none_or] at h
      obtain ⟨earlier, t, after, rfl, htold, hafter⟩ := ih h
      refine ⟨earlier, t, after ++ [last], by simp, htold, ?_⟩
      exact List.forall_mem_append.mpr ⟨hafter, List.forall_mem_singleton.mpr hheard⟩

/-- The transition outruns nothing and drops no notice. -/
def isOrderly (setup : Setup) (sys : System crates) (label : Label crates) : Bool :=
  !outruns setup sys label && !sys.drops label

/-- An orderly transition is a move of the board. -/
theorem next_board_of_isOrderly (hreach : IsReachable setup sys)
    (horderly : isOrderly setup sys label = true) (h : Next setup sys label sys') :
    sys.view.board.Move sys'.view.board (sys.told label) := by
  simp only [isOrderly, Bool.and_eq_true, Bool.not_eq_true'] at horderly
  exact next_board (wellFormed_of_reachable hreach) (plain_of_reachable hreach) horderly.1 horderly.2 h

/-- In every orderly run the board is sound. -/
theorem board_sound_of_run {trace : List (System crates × Label crates × System crates)}
    (hrun : Run setup trace sys) (horderly : ∀ t ∈ trace, isOrderly setup t.1 t.2.1 = true) :
    sys.view.board.Sound := by
  refine (hrun.invariant_of_guard (fun sys label => isOrderly setup sys label = true)
    (fun sys => sys.view.board.Sound) horderly ?_ ?_).1
  · refine ⟨fun first second p q o hfirst => ?_, nofun, nofun⟩
    obtain ⟨peer, hpeer, -⟩ := board_table_eq_some.mp hfirst
    cases hpeer
  · intro s label s' hreach hmet hsound hnext
    exact (next_board_of_isOrderly hreach hmet hnext).sound hsound

/-- In every orderly run, a peer that stays on one network is informed about every other. -/
theorem run_informed {earlier since : List (System crates × Label crates × System crates)}
    {reader about networkId : String} (hrun : Run setup (earlier ++ since) sys)
    (horderly : ∀ t ∈ earlier ++ since, isOrderly setup t.1 t.2.1 = true) (hne : reader ≠ about)
    (hsince : ∀ t ∈ since, RegisteredOn t.1 reader networkId)
    (hnow : RegisteredOn sys reader networkId) :
    sys.view.board.Informed reader about networkId (lastHeard reader about since) := by
  generalize htrace : earlier ++ since = trace at hrun horderly
  induction hrun generalizing since with
  | nil =>
    obtain ⟨-, rfl⟩ := List.append_eq_nil_iff.mp htrace
    exact Board.informed_none _ _ _ _
  | @snoc trace sys label sys' hrun hnext ih =>
    rcases since.eq_nil_or_concat with rfl | ⟨before, last, rfl⟩
    · exact Board.informed_none _ _ _ _
    rw [List.concat_eq_append, ← List.append_assoc] at htrace
    obtain ⟨hbefore, hlast⟩ := List.append_inj' htrace rfl
    obtain rfl := List.singleton_inj.mp hlast
    have hthen : RegisteredOn sys reader networkId := hsince (sys, label, sys') (by simp)
    have horderly' : ∀ t ∈ trace, isOrderly setup t.1 t.2.1 = true := fun t ht =>
      horderly t (List.mem_append_left _ ht)
    have hinformed := ih (fun t ht => hsince t (by simp [ht])) hthen hbefore horderly'
    have hmove := next_board_of_isOrderly ⟨trace, hrun⟩ (horderly (sys, label, sys') (by simp)) hnext
    rw [lastHeard, List.concat_eq_append, List.foldl_append]
    exact hmove.informed (board_sound_of_run hrun horderly') hne (registeredOn_iff.mp hthen)
      (registeredOn_iff.mp hnow) hinformed

/-- In every orderly run and once no notice is pending, what a peer that has stayed on one network was
told last about another was enqueued to it, and is whether the other has a record there. -/
theorem run_introductions_agree {earlier since : List (System crates × Label crates × System crates)}
    {reader about networkId : String} {here : Bool} (hrun : Run setup (earlier ++ since) sys)
    (horderly : ∀ t ∈ earlier ++ since, isOrderly setup t.1 t.2.1 = true) (hne : reader ≠ about)
    (hsince : ∀ t ∈ since, RegisteredOn t.1 reader networkId)
    (hnow : RegisteredOn sys reader networkId) (hquiet : sys.view.notes = [])
    (hlast : lastHeard reader about since = some here) :
    (∃ before t after, since = before ++ t :: after ∧ Enqueues t reader about here ∧
        ∀ later ∈ after, later.1.heard reader about later.2.1 = none) ∧
      (here = true ↔ RegisteredOn sys about networkId) := by
  constructor
  · obtain ⟨before, t, after, rfl, hheard, hafter⟩ := exists_heard_of_lastHeard hlast
    have hmem : t ∈ earlier ++ (before ++ t :: after) := by simp
    exact ⟨before, t, after, rfl, enqueues_of_heard hheard (hrun.mem_trace hmem).2, hafter⟩
  · have hinformed := run_informed hrun horderly hne hsince hnow
    rw [hlast] at hinformed
    refine (hinformed.agrees (Set.eq_empty_of_forall_notMem fun note hnote => ?_)).trans
      registeredOn_iff.symm
    have hmem : note ∈ sys.view.notes := hnote
    rw [hquiet] at hmem
    exact List.not_mem_nil hmem

/-- From some point of a run on, the peer `q` is on `net`; no notice is dropped, none is pending at the
end, and what `q` was told last about `p` is given. -/
def staysInformed (n : ℕ) (here : Bool)
    (trace : List (System silentCrates × Label silentCrates × System silentCrates))
    (sys : System silentCrates) : Bool :=
  (trace.all fun t => !t.1.drops t.2.1) &&
    ((trace.drop n).all fun t => decide (RegisteredOn t.1 "q" "net")) &&
    decide (RegisteredOn sys "q" "net") && sys.view.notes.isEmpty &&
    lastHeard "q" "p" (trace.drop n) == some here

/-- What the check finds. -/
theorem staysInformed_spec {n : ℕ} {here : Bool} {sys : System silentCrates}
    {trace : List (System silentCrates × Label silentCrates × System silentCrates)}
    (h : staysInformed n here trace sys = true) :
    (∀ t ∈ trace, t.1.drops t.2.1 = false) ∧ (∀ t ∈ trace.drop n, RegisteredOn t.1 "q" "net") ∧
      RegisteredOn sys "q" "net" ∧ sys.view.notes = [] ∧
      lastHeard "q" "p" (trace.drop n) = some here := by
  simp only [staysInformed, Bool.and_eq_true, List.all_eq_true, Bool.not_eq_true', decide_eq_true_eq,
    List.isEmpty_iff, beq_iff_eq] at h
  obtain ⟨⟨⟨⟨hdrops, hsince⟩, hnow⟩, hquiet⟩, hlast⟩ := h
  exact ⟨hdrops, hsince, hnow, hquiet, hlast⟩

/-- Two peers register on one network, the first before the second. -/
def meets : List (Label silentCrates) :=
  Script.connect 0 0 ++ Script.register 0 "q" "net" 0 0 ++
    (Script.connect 1 0 ++ Script.register 1 "p" "net" 0 1)

/-- A peer that was told of another's arrival and departure agrees with the registry. -/
theorem run_introductions_agree_departed :
    ∃ earlier since sys, @Run silentCrates standardSetup (earlier ++ since) sys ∧
      (∃ t ∈ since, Enqueues t "q" "p" false) ∧ ¬ RegisteredOn sys "p" "net" := by
  obtain ⟨trace, sys, hrun, hcheck⟩ := @exists_traced_run silentCrates standardSetup
    (meets ++ Script.depart 1 1 1)
    (fun trace sys => (trace.all fun t => isOrderly standardSetup t.1 t.2.1) &&
      staysInformed 16 false trace sys) (by decide +kernel)
  obtain ⟨horderly, hcheck⟩ := Bool.and_eq_true_iff.mp hcheck
  obtain ⟨-, hsince, hnow, hquiet, hlast⟩ := staysInformed_spec hcheck
  rw [← List.take_append_drop 16 trace] at hrun horderly
  obtain ⟨⟨before, t, after, hsplit, henqueues, -⟩, hagree⟩ := run_introductions_agree hrun
    (List.all_eq_true.mp horderly) (by decide) hsince hnow hquiet hlast
  have hmem : t ∈ trace.drop 16 := by rw [hsplit]; simp
  exact ⟨_, _, sys, hrun, ⟨t, hmem, henqueues⟩, fun hhere => Bool.false_ne_true (hagree.mpr hhere)⟩

/-- A dead peer's id is taken over on another network, and nobody on its old network is told. -/
def movesAway : List (Label silentCrates) :=
  meets ++ .writeRelay 1 false :: (Script.connect 2 1 ++ Script.register 2 "p" "other" 1 0)

/-- A peer leaves and comes back by another connection, which tells of it before the first one tells of
the departure. -/
def returnsEarly : List (Label silentCrates) :=
  meets ++ .hangup 1 :: Script.moves 1 1 1 ++
    (Script.connect 2 1 ++ Script.register 2 "p" "net" 1 1 ++ Script.moves 1 1 1)

/-- Without a notice dropped, a peer still believes that another is on its network when the other's id
has been taken over on another one, or that the other has left when it has come back. -/
theorem exists_run_introductions_disagree :
    (∃ earlier since sys, @Run silentCrates standardSetup (earlier ++ since) sys ∧
      (∀ t ∈ earlier ++ since, t.1.drops t.2.1 = false) ∧
      (∀ t ∈ since, RegisteredOn t.1 "q" "net") ∧ RegisteredOn sys "q" "net" ∧ sys.view.notes = [] ∧
      lastHeard "q" "p" since = some true ∧ ¬ RegisteredOn sys "p" "net") ∧
    ∃ earlier since sys, @Run silentCrates standardSetup (earlier ++ since) sys ∧
      (∀ t ∈ earlier ++ since, t.1.drops t.2.1 = false) ∧
      (∀ t ∈ since, RegisteredOn t.1 "q" "net") ∧ RegisteredOn sys "q" "net" ∧ sys.view.notes = [] ∧
      lastHeard "q" "p" since = some false ∧ RegisteredOn sys "p" "net" := by
  constructor
  · obtain ⟨trace, sys, hrun, hcheck⟩ := @exists_traced_run silentCrates standardSetup movesAway
      (fun trace sys => staysInformed 16 true trace sys && decide (¬ RegisteredOn sys "p" "net"))
      (by decide +kernel)
    obtain ⟨hcheck, hgone⟩ := Bool.and_eq_true_iff.mp hcheck
    obtain ⟨hdrops, hsince, hnow, hquiet, hlast⟩ := staysInformed_spec hcheck
    rw [← List.take_append_drop 16 trace] at hrun hdrops
    exact ⟨_, _, sys, hrun, hdrops, hsince, hnow, hquiet, hlast, of_decide_eq_true hgone⟩
  · obtain ⟨trace, sys, hrun, hcheck⟩ := @exists_traced_run silentCrates standardSetup returnsEarly
      (fun trace sys => staysInformed 16 false trace sys && decide (RegisteredOn sys "p" "net"))
      (by decide +kernel)
    obtain ⟨hcheck, hhere⟩ := Bool.and_eq_true_iff.mp hcheck
    obtain ⟨hdrops, hsince, hnow, hquiet, hlast⟩ := staysInformed_spec hcheck
    rw [← List.take_append_drop 16 trace] at hrun hdrops
    exact ⟨_, _, sys, hrun, hdrops, hsince, hnow, hquiet, hlast, of_decide_eq_true hhere⟩

end DigRelay
