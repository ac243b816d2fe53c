import DigRelay.Common.Mirror
import DigRelay.Common.TaskPool
import DigRelay.Server.ListExchange
import DigRelay.Server.Occupancy
import DigRelay.Server.Script
import DigRelay.Server.Turn

/-!
# Registry and exchange agree

The exchange is a copy of the registry that is brought up to date after the registry lock has been
released. The two agree whenever nothing is pending, provided no task changes the registry at an id
whose last change the exchange has not seen, every change speaks of the network the id is
registered on, and only the owner of a record enters it again with a handshake.
-/

namespace DigRelay

open Common

variable {crates : Crates} {setup : Setup} {sys sys' : System crates} {label : Label crates}

/-- The update of the exchange a phase is about to make on behalf of its connection. -/
def Phase.mirrorStep (c : ConnId) : Phase crates → Multiset (Pending String String ConnId)
  | .registerPex request _ => {.enter request.peerId request.networkId c}
  | .deregisterPex peerId networkId => {.leave peerId networkId}
  | _ => 0

/-- The registry and its copy in the exchange, with the updates of the exchange still to come. -/
def View.mirror (laws : KnownLaws crates) (view : View crates) : Mirror String String ConnId :=
  { table := fun peerId => (view.registry.lookup peerId).map fun peer => (peer.networkId, peer.tx)
    known := laws.Knows view.pex
    sender := view.pex.conns.lookup
    pending := poolItems (fun c task => task.2.2.mirrorStep c) 0 view.tasks +
      leaves (view.pruned.map fun pruned => (pruned.1, pruned.2.1)) }

/-- The id whose update a phase is about to make. -/
def Phase.mirrors : Phase crates → Option String
  | .registerPex request _ => some request.peerId
  | .deregisterPex peerId _ => some peerId
  | _ => none

/-- Whether the exchange has not yet seen the last change of the id. -/
def System.pends (sys : System crates) (peerId : String) : Bool :=
  (sys.conns.any fun conn => conn.phase.mirrors = some peerId) ||
    sys.pruned.any fun pruned => pruned.1 = peerId

/-- Whether a transition breaks the order the exchange relies on: a registration, a teardown or a
sweep that changes the registry at an id with a pending update, a registration that reclaims a
record on another network, a teardown that finds a record on another network, or a handshake under
an id whose record is not the connection's own. -/
def crossesMirror (setup : Setup) (sys : System crates) : Label crates → Bool
  | .exec c _ => sys.conns[c]?.any fun conn => conn.outbox.isEmpty &&
    match conn.phase with
    | .registerLocked request _ =>
      match sys.relay.registry.lookup request.peerId with
      | some existing => isClosed sys.conns existing.tx &&
        (sys.pends request.peerId || existing.networkId ≠ request.networkId)
      | none => sys.pends request.peerId
    | .deregister => conn.session.peerId.any fun peerId =>
      (sys.relay.registry.lookup peerId).any fun existing =>
        sys.pends peerId || conn.session.networkId ≠ some existing.networkId
    | .pexHandshake _ => conn.session.peerId.any fun peerId =>
      sys.pends peerId || !(sys.relay.registry.lookup peerId).any fun existing =>
        existing.tx = c && conn.session.networkId = some existing.networkId
    | _ => false
  | .sweep now => (victims setup sys now).any sys.pends
  | _ => false

/-- A phase outside the mirror steps has no update to make. -/
theorem mirrorStep_of_not_isExchanging {phase : Phase crates} {c : ConnId}
    (h : phase.isExchanging = false) : phase.mirrorStep c = 0 := by
  cases phase <;> first | rfl | cases h

/-- The update of a phase is about the id the phase is busy with. -/
theorem mem_mirrorStep_key {phase : Phase crates} {c : ConnId}
    {update : Pending String String ConnId} (h : update ∈ phase.mirrorStep c) :
    phase.mirrors = some update.key := by
  cases phase <;>
    simp only [Phase.mirrorStep, Multiset.mem_singleton, Multiset.notMem_zero] at h <;>
    rw [h] <;> rfl

variable {laws : KnownLaws crates}

/-- An id without pending update is free. -/
theorem free_of_pends {peerId : String} (h : sys.pends peerId = false) :
    (sys.view.mirror laws).Free peerId := by
  obtain ⟨hconns, hpruned⟩ := Bool.or_eq_false_iff.mp h
  rintro update hupdate rfl
  rcases Multiset.mem_add.mp hupdate with htask | hleaves
  · obtain ⟨c, task, htask, hmem⟩ := mem_poolItems.mp htask
    obtain ⟨conn, hconn, rfl⟩ := List.mem_map.mp (List.mem_of_getElem? htask)
    have hbusy := List.any_eq_false.mp hconns conn hconn
    exact hbusy (decide_eq_true (mem_mirrorStep_key hmem))
  · obtain ⟨row, hrow, rfl⟩ := List.mem_map.mp (Multiset.mem_coe.mp hleaves)
    obtain ⟨pruned, hmem, rfl⟩ := List.mem_map.mp hrow
    exact List.any_eq_false.mp hpruned pruned hmem (decide_eq_true rfl)

/-- Replacing a task trades its pending update. -/
theorem mirror_pending_setTask (laws : KnownLaws crates) {c : ConnId} {conn : Conn crates}
    (hconn : sys.conns[c]? = some conn)
    (task : Session × List (Send crates) × Phase crates) :
    ((sys.view.setTask c task).mirror laws).pending + conn.phase.mirrorStep c =
      (sys.view.mirror laws).pending + task.2.2.mirrorStep c := by
  have htask : sys.view.tasks[c]? = some conn.task := by simp [System.view, hconn]
  have hset := poolItems_set (fun c task => task.2.2.mirrorStep c) 0 sys.view.tasks c conn.task task htask
  rw [Nat.zero_add] at hset
  change _ + leaves _ + _ = _ + leaves _ + _
  rw [add_right_comm, add_right_comm (poolItems _ 0 sys.view.tasks)]
  exact congrArg (· + _) hset

/-- A task that keeps the update it has to make leaves table, copy and updates alone. -/
theorem mirror_setTask {c : ConnId} {conn : Conn crates} (hconn : sys.conns[c]? = some conn)
    {task : Session × List (Send crates) × Phase crates}
    (hstep : task.2.2.mirrorStep c = conn.phase.mirrorStep c) :
    (sys.view.setTask c task).mirror laws = sys.view.mirror laws := by
  have hpending := mirror_pending_setTask laws hconn task
  rw [hstep] at hpending
  exact Mirror.ext rfl rfl rfl (add_right_cancel hpending)

/-- Taking a frame leaves no update of the exchange to make. -/
theorem TakesFrame.mirrorStep {frame : Frame crates} {conn conn' : Conn crates}
    (h : TakesFrame frame conn conn') (c : ConnId) : conn'.phase.mirrorStep c = 0 := by
  cases hexchanging : conn'.phase.isExchanging with
  | false => exact mirrorStep_of_not_isExchanging hexchanging
  | true =>
    rcases h.phase hexchanging with ⟨msg, hphase, -⟩ | ⟨⟨msg, hphase⟩ | hphase, -⟩ <;>
      rw [hphase] <;> rfl

/-- The registration of an id whose changes the exchange has all seen. -/
theorem Turn.move_entered {c : ConnId} {clock : Clock} {conn : Conn crates}
    {request : RegisterRequest} {slot : Slot} {connectedPeers : ℕ}
    {targets : List (String × ConnId)} {relay : Relay crates} {outbox : List (Send crates)}
    (hguard : crossesMirror setup sys (.exec c clock) = false)
    (hconn : sys.conns[c]? = some conn) (houtbox : conn.outbox = [])
    (hphase : conn.phase = .registerLocked request slot)
    (hverdict : registerVerdict setup.config (isClosed sys.conns) sys.relay request conn.identity
      conn.addr clock.unix c = .accepted connectedPeers targets relay) :
    (sys.view.mirror laws).Move (View.mirror laws
      { sys.view.setTask c (conn.session, outbox, .registerPex request slot) with
        registry := relay.registry }) := by
  obtain ⟨-, -, -, -, hrelay⟩ := registerVerdict_accepted hverdict
  have hclear : sys.pends request.peerId = false ∧
      ∀ existing, sys.relay.registry.lookup request.peerId = some existing →
        existing.networkId = request.networkId := by
    simp only [crossesMirror, hconn, houtbox, hphase, Option.any_some, List.isEmpty_nil,
      Bool.true_and] at hguard
    rcases hrelay with ⟨hfree, -⟩ | ⟨⟨existing, hexisting, hclosed⟩, -⟩
    · rw [hfree] at hguard ⊢
      exact ⟨hguard, by simp⟩
    · rw [hexisting] at hguard ⊢
      simpa [hclosed] using hguard
  have hpending := mirror_pending_setTask laws hconn (conn.session, outbox, .registerPex request slot)
  rw [hphase] at hpending
  refine .enter request.peerId request.networkId c (free_of_pends hclear.1) (fun old hold => ?_)
    (fun peerId => ?_) rfl rfl ?_
  · obtain ⟨existing, hexisting, rfl⟩ := Option.map_eq_some_iff.mp hold
    exact hclear.2 existing hexisting
  · simp only [View.mirror, lookup_of_registerVerdict hverdict]
    split <;> rfl
  · rw [← Multiset.singleton_add, add_comm]
    exact (add_zero _).symm.trans hpending

/-- The teardown of a session whose record is on its network and seen by the exchange. -/
theorem Turn.move_removed {c : ConnId} {clock : Clock} {conn : Conn crates}
    {peerId networkId : String} {targets : List (String × ConnId)} {relay : Relay crates}
    {outbox : List (Send crates)} (hguard : crossesMirror setup sys (.exec c clock) = false)
    (hconn : sys.conns[c]? = some conn) (houtbox : conn.outbox = [])
    (hphase : conn.phase = .deregister) (hpeerId : conn.session.peerId = some peerId)
    (hnetworkId : conn.session.networkId = some networkId)
    (hremove : removeLocked sys.relay peerId networkId = some (targets, relay)) :
    (sys.view.mirror laws).Move (View.mirror laws
      { sys.view.setTask c (conn.session, outbox, .deregisterPex peerId networkId) with
        registry := relay.registry }) := by
  obtain ⟨⟨existing, hexisting⟩, hrelay, -⟩ := removeLocked_some hremove
  have hclear : sys.pends peerId = false ∧ networkId = existing.networkId := by
    simpa [crossesMirror, hconn, houtbox, hphase, hpeerId, hnetworkId, hexisting] using hguard
  have hpending := mirror_pending_setTask laws hconn
    (conn.session, outbox, .deregisterPex peerId networkId)
  rw [hphase] at hpending
  refine .leave [(peerId, networkId)] (List.nodup_singleton peerId) (fun row hrow => ?_)
    (fun row hrow => ?_) (fun key => ?_) rfl rfl ?_
  · rw [List.mem_singleton.mp hrow]
    exact free_of_pends hclear.1
  · rw [List.mem_singleton.mp hrow, hclear.2]
    exact ⟨existing.tx, congrArg (Option.map _) hexisting⟩
  · simp only [View.mirror, hrelay, Table.lookup_erase_eq, List.map_cons, List.map_nil,
      List.mem_singleton]
    split <;> rfl
  · rw [add_comm]
    exact (add_zero _).symm.trans hpending

/-- A sweep whose victims the exchange has all seen. -/
theorem Turn.move_swept {now : ℕ} (hguard : crossesMirror setup sys (.sweep now) = false)
    (hdone : sys.pruned = []) :
    (sys.view.mirror laws).Move (View.mirror laws
      { sys.view with
        registry := (sweepLocked setup sys now).2.registry
        pruned := (sweepLocked setup sys now).1 }) := by
  let gone := sys.relay.registry.deadOrStale (isClosed sys.conns) (activity sys.conns) now
    setup.config.livenessDeadline.asSecs
  have hrow : ∀ row ∈ gone, ∃ existing, sys.relay.registry.lookup row.1 = some existing ∧
      existing.networkId = row.2 := by
    rintro ⟨peerId, networkId⟩ hrow
    obtain ⟨existing, hexisting, hnetwork, -⟩ := Registry.mem_deadOrStale_iff.mp hrow
    exact ⟨existing, hexisting, hnetwork⟩
  have hnodup : (gone.map Prod.fst).Nodup := deadOrStale_nodup _ _ _ _ _
  have hpruned : ((sweepLocked setup sys now).1.map fun pruned => (pruned.1, pruned.2.1)) = gone :=
    sweepLocked_pruned setup sys now
  refine .leave gone hnodup (fun row hmem => free_of_pends ?_) (fun row hmem => ?_) (fun key => ?_)
    rfl rfl ?_
  · simpa using List.any_eq_false.mp hguard row.1 (List.mem_map_of_mem hmem)
  · obtain ⟨existing, hexisting, hnetwork⟩ := hrow row hmem
    rw [← hnetwork]
    exact ⟨existing.tx, congrArg (Option.map _) hexisting⟩
  · simp only [View.mirror, sweepLocked, pruneLocked_lookup]
    split <;> rfl
  · simp only [View.mirror, hpruned, System.view, hdone, List.map_nil]
    rw [add_comm]
    exact congrArg _ (add_zero _).symm

/-- Replacing a task that makes its update consumes the update. -/
theorem mirror_pending_consumed (laws : KnownLaws crates) {c : ConnId} {conn : Conn crates}
    {update : Pending String String ConnId} (hconn : sys.conns[c]? = some conn)
    (hbefore : conn.phase.mirrorStep c = {update})
    (task : Session × List (Send crates) × Phase crates) (hafter : task.2.2.mirrorStep c = 0) :
    (sys.view.mirror laws).pending =
      update ::ₘ ((sys.view.setTask c task).mirror laws).pending := by
  have hpending := mirror_pending_setTask laws hconn task
  rw [hbefore, hafter, add_zero] at hpending
  rw [← hpending, ← Multiset.singleton_add, add_comm]

/-- The record of a connection that starts the exchange is its own and seen by the exchange. -/
theorem owns_of_handshake (laws : KnownLaws crates) {c : ConnId} {clock : Clock}
    {conn : Conn crates} {msg : crates.Message}
    {peerId networkId : String} (hguard : crossesMirror setup sys (.exec c clock) = false)
    (hconn : sys.conns[c]? = some conn) (houtbox : conn.outbox = [])
    (hphase : conn.phase = .pexHandshake msg) (hpeerId : conn.session.peerId = some peerId)
    (hnetworkId : conn.session.networkId = some networkId) :
    sys.pends peerId = false ∧ (sys.view.mirror laws).table peerId = some (networkId, c) := by
  simp only [crossesMirror, hconn, houtbox, hphase, hpeerId, hnetworkId, Option.any_some,
    List.isEmpty_nil, Bool.true_and, Bool.or_eq_false_iff, Bool.not_eq_false', Option.any_eq_true,
    Bool.and_eq_true, decide_eq_true_eq, Option.some.injEq] at hguard
  obtain ⟨hclear, existing, hexisting, htx, hnetwork⟩ := hguard
  refine ⟨hclear, ?_⟩
  rw [← htx, hnetwork]
  exact congrArg (Option.map _) hexisting

/-- A task that moves within its pending update, with an exchange that knows the same, leaves the mirror
alone. -/
theorem mirror_setTask_of_knows {laws : KnownLaws crates} {pex : PexRelay crates} {c : ConnId}
    {task : Session × List (Send crates) × Phase crates} {conn : Conn crates}
    (hconn : sys.conns[c]? = some conn) (hstep : task.2.2.mirrorStep c = conn.phase.mirrorStep c)
    (hknown : ∀ networkId id, laws.Knows pex networkId id ↔ laws.Knows sys.relay.pex networkId id)
    (hconns : pex.conns = sys.relay.pex.conns) :
    View.mirror laws { sys.view.setTask c task with pex } = sys.view.mirror laws := by
  rw [← mirror_setTask hconn hstep]
  refine Mirror.ext rfl ?_ ?_ rfl
  · funext networkId id
    exact propext (hknown networkId id)
  · simp only [View.mirror, hconns]
    rfl

/-- Every transition that keeps the order the exchange relies on is a move of the mirror or leaves
it alone. -/
theorem Turn.mirror_move (laws : KnownLaws crates) {view : View crates}
    (h : Turn setup sys label view) (hguard : crossesMirror setup sys label = false) :
    view.mirror laws = sys.view.mirror laws ∨
      (sys.view.mirror laws).Move (view.mirror laws) := by
  cases h with
  | still => exact .inl rfl
  | arrived addr identity =>
    refine .inl (Mirror.ext rfl rfl rfl ?_)
    simp [View.mirror, poolItems_append_singleton, Phase.mirrorStep]
  | sent hconn => exact .inl (mirror_setTask hconn rfl)
  | took frame clock hconn hphase houtbox htakes =>
    exact .inl (mirror_setTask hconn (by rw [hphase]; exact htakes.mirrorStep _))
  | moved hconn houtbox hbefore hafter =>
    refine .inl (mirror_setTask hconn ?_)
    rw [mirrorStep_of_not_isExchanging hbefore]
    exact mirrorStep_of_not_isExchanging hafter
  | entered hconn houtbox hphase hverdict =>
    exact .inr (move_entered hguard hconn houtbox hphase hverdict)
  | @mirrored c clock conn request slot hconn houtbox hphase =>
    have hpending := mirror_pending_consumed laws hconn (by rw [hphase]; rfl)
      (conn.session, [], .registerCommit request slot) rfl
    exact .inr (.entered rfl (fun _ _ => KnownLaws.knows_onRegister conn.addr c clock.ms)
      (fun _ => Table.lookup_insert_eq ..) hpending)
  | committed hconn houtbox hphase => exact .inl (mirror_setTask hconn (by rw [hphase]; rfl))
  | @handshook c clock conn msg peerId networkId hconn houtbox hphase hpeerId hnetworkId =>
    obtain ⟨hclear, hrow⟩ := owns_of_handshake laws hguard hconn houtbox hphase hpeerId
      hnetworkId
    refine .inr (.refreshed (free_of_pends hclear) hrow rfl (fun _ _ =>
      (KnownLaws.knows_onNodeHandshake msg clock.ms).trans
        (KnownLaws.knows_onRegister conn.addr c clock.ms)) (fun key => ?_) ?_)
    · simp only [View.mirror, PexRelay.onNodeHandshake_conns, PexRelay.onRegister_conns,
        Table.lookup_insert_eq]
      rfl
    · have hkept : ∀ outbox, ((sys.view.setTask c
          ({ conn.session with pexActive := true }, outbox, .idle)).mirror laws).pending =
          (sys.view.mirror laws).pending := fun outbox =>
        congrArg Mirror.pending (mirror_setTask hconn (by rw [hphase]; rfl))
      exact hkept _
  | data hconn houtbox hphase =>
    exact .inl (mirror_setTask_of_knows hconn (by rw [hphase]; rfl)
      (fun _ _ => KnownLaws.knows_onNodeMessage _ _) (PexRelay.onNodeMessage_conns ..))
  | badFrame hconn houtbox hphase =>
    exact .inl (mirror_setTask_of_knows hconn (by rw [hphase]; rfl)
      (fun _ _ => KnownLaws.knows_onNodeBadFrame _) (PexRelay.onNodeBadFrame_conns ..))
  | removed hconn houtbox hphase hpeerId hnetworkId hremove =>
    exact .inr (move_removed hguard hconn houtbox hphase hpeerId hnetworkId hremove)
  | @unmirrored c clock conn peerId networkId hconn houtbox hphase =>
    have hpending := mirror_pending_consumed laws hconn (by rw [hphase]; rfl)
      (conn.session, [], .awaitWriter) rfl
    refine .inr (.left rfl (fun _ _ => KnownLaws.knows_onUnregister) (fun key => ?_) hpending)
    simp only [View.mirror, PexRelay.onUnregister_conns, Table.lookup_erase_eq]
    rfl
  | swept now hdone => exact .inr (move_swept hguard hdone)
  | noticed hpruned =>
    refine .inl (Mirror.ext rfl rfl rfl ?_)
    simp [View.mirror, System.view, hpruned]
  | @forgotten peerId networkId rest hpruned =>
    refine .inr (.left rfl (fun _ _ => KnownLaws.knows_onUnregister) (fun key => ?_) ?_)
    · simp only [View.mirror, PexRelay.onUnregister_conns, Table.lookup_erase_eq]
      rfl
    · simp only [View.mirror, System.view, hpruned, List.map_cons]
      exact Multiset.add_cons (.leave peerId networkId) _ (leaves _)
  | ticked nowMs =>
    exact .inl (Mirror.ext rfl (funext fun networkId => funext fun id =>
      propext (KnownLaws.knows_tick nowMs)) rfl rfl)
  | rehashed hregistry hengines =>
    refine .inl (Mirror.ext (funext fun id => ?_) (funext fun networkId => funext fun id =>
      propext (PexRelay.inEngine_rehashed hengines)) rfl rfl)
    simp only [View.mirror, System.view, hregistry.lookup_eq]

/-- Registry and exchange are coherent in a fresh relay. -/
theorem coherent_new (laws : KnownLaws crates) : ((System.new crates).view.mirror laws).Coherent := by
  have hknown (networkId id : String) : ¬ laws.Knows (PexRelay.new crates) networkId id := by
    rintro ⟨engine, hengine, -⟩
    cases hengine
  refine ⟨Multiset.nodup_zero, fun peerId _ networkId => ?_, fun peerId _ => rfl, ?_, ?_⟩
  · exact iff_of_false (hknown networkId peerId) (by rintro ⟨_, hrow⟩; cases hrow)
  · intro key place owner hmem
    cases hmem
  · intro key place hmem
    cases hmem

/-- A phase with an update to make stands between the registry and the exchange. -/
theorem isMirroring_of_mirrors {phase : Phase crates} {peerId : String}
    (h : phase.mirrors = some peerId) : phase.isMirroring = true := by
  cases phase <;> first | rfl | cases h

/-- In a settled state the exchange has seen every change. -/
theorem pends_of_isSettled (h : sys.isSettled = true) (peerId : String) : sys.pends peerId = false := by
  obtain ⟨hconns, hpruned⟩ := Bool.and_eq_true_iff.mp h
  refine Bool.or_eq_false_iff.mpr ⟨List.any_eq_false.mpr fun conn hconn => ?_, ?_⟩
  · have hidle := List.all_eq_true.mp hconns conn hconn
    intro hmirrors
    rw [isMirroring_of_mirrors (of_decide_eq_true hmirrors)] at hidle
    cases hidle
  · rw [List.isEmpty_iff.mp hpruned]
    rfl

/-- Once every connection has ended no connection owns a record, as long as no owner registered
again under another id. -/
theorem lookup_eq_none_of_ended (haccounted : sys.ledger.leases.Accounted)
    (hended : ∀ conn ∈ sys.conns, conn.phase = .ended) (peerId : String) :
    sys.relay.registry.lookup peerId = none := by
  cases hpeer : sys.relay.registry.lookup peerId with
  | none => rfl
  | some peer =>
    obtain ⟨conn, networkId, hconn, hseat⟩ := actsAs_of_lookup haccounted hpeer
    rw [Conn.seat, hended conn (List.mem_of_getElem? hconn)] at hseat
    cases hseat

/-- In every run that keeps the order the exchange relies on, whenever no task stands between its
registry access and the access that mirrors it, each engine knows exactly the ids registered on its
network and the exchange reaches each of them by the connection that owns its record. If moreover
no owner registers again under another id, no engine knows anyone once every connection has ended. -/
theorem run_exchange_mirrors_registry (laws : KnownLaws crates)
    {trace : List (System crates × Label crates × System crates)} (hrun : Run setup trace sys)
    (hguard : ∀ t ∈ trace, crossesMirror setup t.1 t.2.1 = false) (hsettled : sys.isSettled = true) :
    (∀ networkId peerId, laws.Knows sys.relay.pex networkId peerId ↔
      ∃ peer, sys.relay.registry.lookup peerId = some peer ∧ peer.networkId = networkId) ∧
    (∀ peerId peer, sys.relay.registry.lookup peerId = some peer →
      sys.relay.pex.conns.lookup peerId = some peer.tx) ∧
    ((∀ t ∈ trace, ¬ ReRegisters t.1 t.2.1) → (∀ conn ∈ sys.conns, conn.phase = .ended) →
      ∀ networkId peerId, ¬ laws.Knows sys.relay.pex networkId peerId) := by
  have hcoherent : (sys.view.mirror laws).Coherent := by
    refine (hrun.invariant_of_guard (fun sys label => crossesMirror setup sys label = false)
      (fun sys => (sys.view.mirror laws).Coherent) hguard (coherent_new laws) ?_).1
    intro s label s' hreach hmet hcoherent hnext
    have hturn := next_turn (wellFormed_of_reachable hreach) (plain_of_reachable hreach) hnext
    rcases hturn.mirror_move laws hmet with hsame | hmove
    · rwa [hsame]
    · exact hmove.coherent hcoherent
  have hfree (peerId : String) : (sys.view.mirror laws).Free peerId :=
    free_of_pends (pends_of_isSettled hsettled peerId)
  have hknown (networkId peerId : String) : laws.Knows sys.relay.pex networkId peerId ↔
      ∃ peer, sys.relay.registry.lookup peerId = some peer ∧ peer.networkId = networkId := by
    refine (hcoherent.known peerId (hfree peerId) networkId).trans ?_
    simp [View.mirror, System.view]
  refine ⟨hknown, fun peerId peer hpeer => ?_, fun honce hended networkId peerId hknows => ?_⟩
  · have hsender := hcoherent.sender peerId (hfree peerId)
    simpa [View.mirror, System.view, hpeer] using hsender
  · have haccounted : sys.ledger.leases.Accounted := by
      refine (hrun.invariant_of_guard (fun sys label => ¬ ReRegisters sys label)
        (fun sys => sys.ledger.leases.Accounted) honce ?_ ?_).1
      · intro key lease hlease
        cases hlease
      · intro s label s' hreach hmet haccounted hnext
        exact next_accounted (wellFormed_of_reachable hreach) hmet haccounted hnext
    obtain ⟨peer, hpeer, -⟩ := (hknown networkId peerId).mp hknows
    rw [lookup_eq_none_of_ended haccounted hended peerId] at hpeer
    cases hpeer

/-- Two peers register, one starts the exchange and leaves. -/
theorem run_exchange_mirrors_registry_one_left :
    ∃ trace sys, @Run listCrates standardSetup trace sys ∧ sys.isSettled = true ∧
      listKnown.Knows sys.relay.pex "net" "q" ∧ ¬ listKnown.Knows sys.relay.pex "net" "p" ∧
      sys.relay.pex.conns.lookup "q" = some 1 := by
  obtain ⟨trace, sys, sys', hrun, hcheck, hends⟩ := @exists_checked_run listCrates standardSetup
    (fun sys label => !crossesMirror standardSetup sys label)
    (Script.connect 0 0 ++ Script.register 0 "p" "net" 0 0 ++ Script.connect 1 0 ++
      Script.register 1 "q" "net" 0 1 ++ Script.handshake 0 (ListMessage.handshake "net") 1 3 ++
      Script.depart 0 2 1)
    .stun
    (fun _ sys' => sys'.isSettled && (sys'.relay.registry.lookup "p").isNone &&
      (sys'.relay.registry.lookup "q").any fun peer => peer.networkId = "net" && peer.tx = 1)
    (by decide)
  simp only [Bool.and_eq_true, decide_eq_true_eq, Option.isNone_iff_eq_none, Option.any_eq_true] at hends
  obtain ⟨⟨hsettled, hp⟩, peer, hq, hnetwork, htx⟩ := hends
  obtain ⟨hknown, hsender, -⟩ := run_exchange_mirrors_registry listKnown hrun
    (fun t ht => by simpa using hcheck t ht) hsettled
  refine ⟨_, sys', hrun, hsettled, (hknown _ _).mpr ⟨peer, hq, hnetwork⟩, ?_, htx ▸ hsender "q" peer hq⟩
  intro hknows
  obtain ⟨other, hother, -⟩ := (hknown _ _).mp hknows
  exact absurd (hp.symm.trans hother) (by simp)

/-- The engine of the network knows the peer, as a check. -/
def knowsPeer (sys : System listCrates) (networkId peerId : String) : Bool :=
  (sys.relay.pex.engines.lookup networkId).any fun engine => peerId ∈ ListEngine.known engine

/-- The check finds exactly the known peers. -/
theorem knowsPeer_iff {sys : System listCrates} {networkId peerId : String} :
    knowsPeer sys networkId peerId = true ↔ listKnown.Knows sys.relay.pex networkId peerId := by
  refine (Option.any_eq_true _ _).trans ?_
  exact exists_congr fun engine => and_congr_right fun _ => decide_eq_true_iff

/-- A connection whose record a sweep has pruned starts the exchange and leaves: an engine knows its
id though every connection has ended. A registration that reclaims a closed record for another
network leaves the id known on the old one. A registration between a sweep and its mirrored
departure is taken out of the exchange again. -/
theorem exists_run_exchange_not_mirroring :
    (∃ trace sys, @Run listCrates standardSetup trace sys ∧ sys.isSettled = true ∧
      (∀ conn ∈ sys.conns, conn.phase = .ended) ∧ sys.relay.registry.lookup "p" = none ∧
      listKnown.Knows sys.relay.pex "net" "p") ∧
    (∃ trace sys peer, @Run listCrates standardSetup trace sys ∧ sys.isSettled = true ∧
      sys.relay.registry.lookup "p" = some peer ∧ peer.networkId = "b" ∧
      listKnown.Knows sys.relay.pex "a" "p") ∧
    ∃ trace sys peer, @Run listCrates standardSetup trace sys ∧ sys.isSettled = true ∧
      sys.relay.registry.lookup "p" = some peer ∧ peer.networkId = "net" ∧
      ¬ listKnown.Knows sys.relay.pex "net" "p" := by
  refine ⟨?_, ?_, ?_⟩
  · obtain ⟨trace, sys, sys', hrun, hends⟩ := @exists_run_step listCrates standardSetup
      (Script.connect 0 0 ++ Script.register 0 "p" "net" 0 0 ++ [.sweep 91, .sweepExec] ++
        Script.handshake 0 (ListMessage.handshake "net") 100 3 ++ [.hangup 0] ++ Script.moves 0 101 1 ++
        Script.finish 0 102 [.writeRelay 0 true])
      .stun
      (fun _ sys' => sys'.isSettled && (sys'.conns.all fun conn => conn.phase matches .ended) &&
        (sys'.relay.registry.lookup "p").isNone && knowsPeer sys' "net" "p") (by decide)
    simp only [Bool.and_eq_true, Option.isNone_iff_eq_none, knowsPeer_iff, List.all_eq_true] at hends
    obtain ⟨⟨⟨hsettled, hended⟩, hnone⟩, hknows⟩ := hends
    refine ⟨_, sys', hrun, hsettled, fun conn hconn => ?_, hnone, hknows⟩
    have hphase := hended conn hconn
    split at hphase
    · assumption
    · cases hphase
  · obtain ⟨trace, sys, sys', hrun, hends⟩ := @exists_run_step listCrates standardSetup
      (Script.connect 0 0 ++ Script.register 0 "p" "a" 0 0 ++ [.writeRelay 0 false] ++
        Script.connect 1 1 ++ Script.register 1 "p" "b" 1 0)
      .stun
      (fun _ sys' => sys'.isSettled && knowsPeer sys' "a" "p" &&
        (sys'.relay.registry.lookup "p").any fun peer => peer.networkId = "b") (by decide)
    simp only [Bool.and_eq_true, knowsPeer_iff, Option.any_eq_true, decide_eq_true_eq] at hends
    obtain ⟨⟨hsettled, hknows⟩, peer, hpeer, hnetwork⟩ := hends
    exact ⟨_, sys', peer, hrun, hsettled, hpeer, hnetwork, hknows⟩
  · obtain ⟨trace, sys, sys', hrun, hends⟩ := @exists_run_step listCrates standardSetup
      (Script.connect 0 0 ++ Script.register 0 "p" "net" 0 0 ++ [.sweep 91] ++
        Script.connect 1 92 ++ Script.register 1 "p" "net" 92 0 ++ [.sweepExec])
      .stun
      (fun _ sys' => sys'.isSettled && !knowsPeer sys' "net" "p" &&
        (sys'.relay.registry.lookup "p").any fun peer => peer.networkId = "net") (by decide)
    simp only [Bool.and_eq_true, Bool.not_eq_true', Option.any_eq_true, decide_eq_true_eq] at hends
    obtain ⟨⟨hsettled, hunknown⟩, peer, hpeer, hnetwork⟩ := hends
    refine ⟨_, sys', peer, hrun, hsettled, hpeer, hnetwork, fun hknows => ?_⟩
    rw [knowsPeer_iff.mpr hknows] at hunknown
    cases hunknown

end DigRelay
