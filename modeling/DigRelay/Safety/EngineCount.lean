import DigRelay.Safety.Counter
import DigRelay.Server.Script
import DigRelay.Server.Turn
import Mathlib.Data.List.Dedup
import Mathlib.Data.List.Perm.Subperm

/-!
# The number of exchange engines

An engine is created when a registration is mirrored or a handshake is taken, under whatever
network the client has named, and no engine is ever removed. So there are engines only for
networks with a registered peer exactly as long as no network loses its last peer.
-/

namespace DigRelay

open Common

variable {crates : Crates} {setup : Setup} {sys sys' : System crates} {label : Label crates}

/-- Some peer is registered on the network. -/
def Populated (registry : Registry) (networkId : String) : Prop :=
  ∃ peerId peer, registry.lookup peerId = some peer ∧ peer.networkId = networkId

/-- The networks with a registered peer. -/
def networksOf (registry : Registry) : List String :=
  (registry.toPairs.map fun record => record.2.networkId).dedup

/-- The transition takes the record of the peer off its network: the teardown of a session with
that id, a sweep that selects it, or a registration that reclaims its closed record for another
network. -/
def Vacates (setup : Setup) (sys : System crates) (label : Label crates) (peerId : String) : Prop :=
  (∃ c clock conn, label = .exec c clock ∧ sys.conns[c]? = some conn ∧ conn.outbox = [] ∧
      conn.phase = .deregister ∧ conn.session.peerId = some peerId) ∨
    (∃ c clock conn request slot existing, label = .exec c clock ∧ sys.conns[c]? = some conn ∧
      conn.outbox = [] ∧ conn.phase = .registerLocked request slot ∧ request.peerId = peerId ∧
      sys.relay.registry.lookup peerId = some existing ∧
      isClosed sys.conns existing.tx = true ∧ existing.networkId ≠ request.networkId) ∨
    ∃ now networkId, label = .sweep now ∧
      (peerId, networkId) ∈ sys.relay.registry.deadOrStale (isClosed sys.conns)
        (activity sys.conns) now setup.config.livenessDeadline.asSecs

/-- The transition takes the last records off some network. -/
def EmptiesNetwork (setup : Setup) (sys : System crates) (label : Label crates) : Prop :=
  ∃ networkId, Populated sys.relay.registry networkId ∧
    ∀ peerId peer, sys.relay.registry.lookup peerId = some peer → peer.networkId = networkId →
      Vacates setup sys label peerId

/-- A network keeps a peer unless the transition takes its last records off. -/
theorem Turn.populated {view : View crates} (hguard : ¬ EmptiesNetwork setup sys label)
    (h : Turn setup sys label view) {networkId : String}
    (hpopulated : Populated sys.relay.registry networkId) : Populated view.registry networkId := by
  by_contra hlost
  refine hguard ⟨networkId, hpopulated, fun peerId peer hpeer hnetwork => ?_⟩
  have hgone : view.registry.lookup peerId ≠ some peer := fun hkept =>
    hlost ⟨peerId, peer, hkept, hnetwork⟩
  cases h with
  | @entered c clock conn request slot _ _ relay hconn houtbox hphase hverdict =>
    obtain ⟨-, -, -, -, hrelay⟩ := registerVerdict_accepted hverdict
    have hlookup := lookup_of_registerVerdict hverdict
    have hid : peerId = request.peerId := by
      by_contra hother
      exact hgone ((hlookup peerId).trans ((if_neg hother).trans hpeer))
    subst hid
    rcases hrelay with ⟨hfree, -⟩ | ⟨⟨existing, hexisting, hclosed⟩, -⟩
    · exact absurd (hfree.symm.trans hpeer) (by simp)
    · obtain rfl := Option.some.inj (hexisting.symm.trans hpeer)
      refine .inr (.inl ⟨c, clock, conn, request, slot, existing, rfl, hconn, houtbox, hphase, rfl,
        hexisting, hclosed, fun hsame => hlost ⟨request.peerId,
          registrant crates request conn.addr clock.unix c, ?_, hsame.symm.trans hnetwork⟩⟩)
      exact (hlookup request.peerId).trans (if_pos rfl)
  | @removed c clock conn id network _ relay hconn houtbox hphase hid hnet hremove =>
    obtain ⟨-, hrelay, -⟩ := removeLocked_some hremove
    have hsame : peerId = id := by
      by_contra hother
      refine hgone ?_
      change relay.registry.lookup peerId = some peer
      rw [hrelay, Table.lookup_erase_eq, if_neg hother, hpeer]
    exact .inl ⟨c, clock, conn, rfl, hconn, houtbox, hphase, hsame ▸ hid⟩
  | swept now =>
    have hvictim : peerId ∈ (sys.relay.registry.deadOrStale (isClosed sys.conns)
        (activity sys.conns) now setup.config.livenessDeadline.asSecs).map Prod.fst := by
      by_contra hspared
      refine hgone ?_
      change (sweepLocked setup sys now).2.registry.lookup peerId = some peer
      rw [sweepLocked, pruneLocked_lookup, if_neg hspared, hpeer]
    obtain ⟨⟨_, network⟩, hmem, rfl⟩ := List.mem_map.mp hvictim
    exact .inr (.inr ⟨now, network, rfl, hmem⟩)
  | rehashed hregistry => exact absurd ((hregistry.lookup_eq peerId).symm.trans hpeer) hgone
  | _ => exact absurd hpeer hgone

/-- The network of a registration that has entered its record and is not yet complete. -/
def Phase.registering : Phase crates → Option String
  | .registerPex request _ => some request.networkId
  | .registerCommit request _ => some request.networkId
  | _ => none

/-- A task may create the engine of its session's network or of the network it registers on. -/
def NamesNetwork (task : Session × List (Send crates) × Phase crates) (networkId : String) : Prop :=
  task.1.networkId = some networkId ∨ task.2.2.registering = some networkId

/-- A phase outside the exchange completes no registration. -/
theorem registering_of_not_isExchanging {phase : Phase crates} (h : phase.isExchanging = false) :
    phase.registering = none := by
  cases phase <;> first | rfl | cases h

/-- Taking a frame completes no registration. -/
theorem TakesFrame.registering {frame : Frame crates} {conn conn' : Conn crates}
    (h : TakesFrame frame conn conn') : conn'.phase.registering = none := by
  cases hexchanging : conn'.phase.isExchanging with
  | false => exact registering_of_not_isExchanging hexchanging
  | true =>
    rcases h.phase hexchanging with ⟨msg, hphase, -⟩ | ⟨⟨msg, hphase⟩ | hphase, -⟩ <;>
      rw [hphase] <;> rfl

/-- The network has an engine. -/
def PexRelay.HasEngine (pex : PexRelay crates) (networkId : String) : Prop :=
  (pex.engines.lookup networkId).isSome = true

/-- Every engine and every network a task may create an engine for has a registered peer. -/
structure View.Inhabited (view : View crates) : Prop where
  engines : ∀ networkId, view.pex.HasEngine networkId → Populated view.registry networkId
  tasks : ∀ task ∈ view.tasks, ∀ networkId, NamesNetwork task networkId →
    Populated view.registry networkId

namespace PexRelay

variable {pex : PexRelay crates} {networkId other peerId : String} {engine : crates.Engine}

/-- Storing an engine adds the engine of its network. -/
theorem hasEngine_of_setEngine (h : (pex.setEngine networkId engine).HasEngine other) :
    other = networkId ∨ pex.HasEngine other := by
  unfold HasEngine setEngine at h
  rw [Table.lookup_insert_eq] at h
  split at h
  · rename_i hother
    exact .inl hother
  · exact .inr h

/-- Storing an engine of a network that has one adds none. -/
theorem hasEngine_of_setEngine_of_some (hsome : pex.HasEngine networkId)
    (h : (pex.setEngine networkId engine).HasEngine other) : pex.HasEngine other := by
  rcases hasEngine_of_setEngine h with rfl | hbefore
  · exact hsome
  · exact hbefore

/-- Mirroring a departure adds no engine. -/
theorem hasEngine_of_onUnregister (h : (pex.onUnregister peerId networkId).HasEngine other) :
    pex.HasEngine other := by
  unfold onUnregister at h
  split at h
  · rename_i engine hengine
    exact hasEngine_of_setEngine_of_some (by simp [HasEngine, hengine]) h
  · exact h

/-- A handshake adds the engine of its network at most. -/
theorem hasEngine_of_onNodeHandshake {msg : crates.Message} {nowMs : ℕ}
    (h : (pex.onNodeHandshake peerId networkId msg nowMs).2.HasEngine other) :
    other = networkId ∨ pex.HasEngine other := by
  dsimp only [onNodeHandshake] at h
  split at h <;> exact hasEngine_of_setEngine h

/-- A later message adds no engine. -/
theorem hasEngine_of_onNodeMessage {msg : crates.Message} {nowMs : ℕ}
    (h : (pex.onNodeMessage peerId networkId msg nowMs).2.HasEngine other) :
    pex.HasEngine other := by
  unfold onNodeMessage at h
  split at h
  · rename_i engine hengine
    exact hasEngine_of_setEngine_of_some (by simp [HasEngine, hengine]) h
  · exact h

/-- An undecodable frame adds no engine. -/
theorem hasEngine_of_onNodeBadFrame {nowMs : ℕ}
    (h : (pex.onNodeBadFrame peerId networkId nowMs).2.HasEngine other) : pex.HasEngine other := by
  unfold onNodeBadFrame at h
  split at h
  · rename_i engine hengine
    exact hasEngine_of_setEngine_of_some (by simp [HasEngine, hengine]) h
  · exact h

/-- A tick adds no engine. -/
theorem hasEngine_of_tick {nowMs : ℕ} (h : (pex.tick nowMs).2.HasEngine other) :
    pex.HasEngine other := by
  simpa [HasEngine, tick, Table.lookup_mapValues] using h

end PexRelay

section Tasks

variable {c : ConnId} {conn : Conn crates} {registry : Registry}

/-- A connection names only networks with a peer. -/
theorem View.Inhabited.own (h : sys.view.Inhabited) (hconn : sys.conns[c]? = some conn) {networkId : String}
    (hnames : NamesNetwork conn.task networkId) : Populated sys.view.registry networkId :=
  h.tasks _ (List.mem_map_of_mem (List.mem_of_getElem? hconn)) networkId hnames

/-- As long as no network is emptied, only the task that moves needs to be looked at. -/
theorem View.Inhabited.set (h : sys.view.Inhabited)
    (hkept : ∀ networkId, Populated sys.view.registry networkId → Populated registry networkId)
    {task : Session × List (Send crates) × Phase crates}
    (htask : ∀ networkId, NamesNetwork task networkId → Populated registry networkId) :
    ∀ other ∈ sys.view.tasks.set c task, ∀ networkId, NamesNetwork other networkId →
      Populated registry networkId := by
  intro other hother networkId hnames
  rcases List.mem_or_eq_of_mem_set hother with hold | rfl
  · exact hkept networkId (h.tasks other hold networkId hnames)
  · exact htask networkId hnames

/-- A task that registers nothing names the network of its session and no other. -/
theorem View.Inhabited.set_session (h : sys.view.Inhabited)
    (hkept : ∀ networkId, Populated sys.view.registry networkId → Populated registry networkId)
    {session : Session} {outbox : List (Send crates)} {phase : Phase crates}
    (hconn : sys.conns[c]? = some conn) (hnetworkId : session.networkId = conn.session.networkId)
    (hphase : phase.registering = none) :
    ∀ other ∈ sys.view.tasks.set c (session, outbox, phase), ∀ networkId, NamesNetwork other networkId →
      Populated registry networkId := by
  apply h.set hkept
  intro networkId hnames
  apply hkept networkId (h.own hconn (.inl _))
  simpa [NamesNetwork, Conn.task, hnetworkId, hphase] using hnames

end Tasks

/-- Every transition that empties no network keeps all engines on networks with a peer. -/
theorem Turn.inhabited {view : View crates} (hguard : ¬ EmptiesNetwork setup sys label)
    (hinhabited : sys.view.Inhabited) (h : Turn setup sys label view) : view.Inhabited := by
  have hkept : ∀ networkId, Populated sys.view.registry networkId →
      Populated view.registry networkId := fun networkId => h.populated hguard
  have hengines : ∀ networkId, sys.view.pex.HasEngine networkId → Populated view.registry networkId :=
    fun networkId hengine => hkept networkId (hinhabited.engines networkId hengine)
  cases h with
  | still => exact hinhabited
  | arrived addr identity =>
    refine ⟨hengines, fun task htask networkId hnames => ?_⟩
    rcases List.mem_append.mp htask with hold | hnew
    · exact hinhabited.tasks task hold networkId hnames
    · rw [List.mem_singleton.mp hnew] at hnames
      simp [NamesNetwork, Phase.registering] at hnames
  | sent hconn => exact ⟨hengines, hinhabited.set hkept fun networkId hnames => hinhabited.own hconn hnames⟩
  | took frame clock hconn hphase houtbox htakes =>
    have hnetworkId := congrArg Session.networkId htakes.session
    exact ⟨hengines, hinhabited.set_session hkept hconn hnetworkId htakes.registering⟩
  | moved hconn houtbox hbefore hafter =>
    exact ⟨hengines, hinhabited.set_session hkept hconn rfl (registering_of_not_isExchanging hafter)⟩
  | @entered c clock conn request slot _ _ relay hconn houtbox hphase hverdict =>
    refine ⟨hengines, hinhabited.set hkept fun networkId hnames => ?_⟩
    rcases hnames with hsession | hregisters
    · exact hkept networkId (hinhabited.own hconn (.inl hsession))
    · have hlookup := lookup_of_registerVerdict hverdict request.peerId
      exact ⟨request.peerId, registrant crates request conn.addr clock.unix c,
        hlookup.trans (if_pos rfl), Option.some.inj hregisters⟩
  | mirrored hconn houtbox hphase =>
    have hnetwork := hinhabited.own hconn (.inr (by rw [Conn.task, hphase]; rfl))
    refine ⟨fun networkId hengine => ?_, hinhabited.set hkept fun networkId hnames => hinhabited.own hconn ?_⟩
    · rcases PexRelay.hasEngine_of_setEngine hengine with rfl | hbefore
      · exact hnetwork
      · exact hengines networkId hbefore
    · simpa [Conn.task, NamesNetwork, hphase, Phase.registering] using hnames
  | committed hconn houtbox hphase =>
    refine ⟨hengines, hinhabited.set hkept fun networkId hnames => hinhabited.own hconn (.inr ?_)⟩
    simpa [Conn.task, NamesNetwork, hphase, Phase.registering] using hnames
  | handshook hconn houtbox hphase hpeerId hnetworkId =>
    refine ⟨fun networkId hengine => ?_, hinhabited.set_session hkept hconn rfl rfl⟩
    rcases PexRelay.hasEngine_of_onNodeHandshake hengine with rfl | hmirrored
    · exact hinhabited.own hconn (.inl hnetworkId)
    · rcases PexRelay.hasEngine_of_setEngine hmirrored with rfl | hbefore
      · exact hinhabited.own hconn (.inl hnetworkId)
      · exact hengines networkId hbefore
  | data hconn houtbox hphase =>
    exact ⟨fun networkId hengine => hengines networkId (PexRelay.hasEngine_of_onNodeMessage hengine),
      hinhabited.set_session hkept hconn rfl rfl⟩
  | badFrame hconn houtbox hphase =>
    exact ⟨fun networkId hengine => hengines networkId (PexRelay.hasEngine_of_onNodeBadFrame hengine),
      hinhabited.set_session hkept hconn rfl rfl⟩
  | removed hconn => exact ⟨hengines, hinhabited.set_session hkept hconn rfl rfl⟩
  | unmirrored hconn =>
    exact ⟨fun networkId hengine => hengines networkId (PexRelay.hasEngine_of_onUnregister hengine),
      hinhabited.set_session hkept hconn rfl rfl⟩
  | forgotten =>
    refine ⟨fun networkId hengine => ?_, hinhabited.tasks⟩
    exact hengines networkId (PexRelay.hasEngine_of_onUnregister hengine)
  | ticked nowMs =>
    refine ⟨fun networkId hengine => ?_, hinhabited.tasks⟩
    exact hengines networkId (PexRelay.hasEngine_of_tick hengine)
  | noticed => exact ⟨hengines, hinhabited.tasks⟩
  | swept now =>
    exact ⟨hengines, fun task htask networkId hnames =>
      hkept networkId (hinhabited.tasks task htask networkId hnames)⟩
  | rehashed hregistry hrehashed =>
    refine ⟨fun networkId hengine => hengines networkId ?_, fun task htask networkId hnames =>
      hkept networkId (hinhabited.tasks task htask networkId hnames)⟩
    unfold PexRelay.HasEngine at hengine ⊢
    rw [← hrehashed.lookup_eq] at hengine
    exact hengine

/-- At most as many networks have a peer as there are peers. -/
theorem networksOf_length_le (registry : Registry) : (networksOf registry).length ≤ registry.size := by
  refine (List.dedup_sublist _).length_le.trans ?_
  rw [List.length_map, Table.toPairs, List.length_map]
  rfl

/-- When every engine's network has a peer, there are at most as many engines as such networks. -/
theorem engines_size_le {pex : PexRelay crates} {registry : Registry}
    (h : ∀ networkId, pex.HasEngine networkId → Populated registry networkId) :
    pex.engines.size ≤ (networksOf registry).length := by
  have hsize : pex.engines.size = (pex.engines.toPairs.map Prod.fst).length := by
    rw [List.length_map, Table.toPairs, List.length_map]
    rfl
  rw [hsize]
  refine (List.Nodup.subperm pex.engines.toPairs_keys_nodup fun networkId hmem => ?_).length_le
  obtain ⟨⟨key, engine⟩, hentry, rfl⟩ := List.mem_map.mp hmem
  have hengine := (Table.mem_toPairs_iff _ _ _).mp hentry
  obtain ⟨peerId, peer, hpeer, hnetwork⟩ := h key (by simp [PexRelay.HasEngine, hengine])
  exact List.mem_dedup.mpr
    (List.mem_map.mpr ⟨(peerId, peer), (Table.mem_toPairs_iff _ _ _).mpr hpeer, hnetwork⟩)

/-- In every run in which no transition takes the last records off a network, there are at most as
many engines as networks with a registered peer, and at most as many as the capacity. -/
theorem run_engines_le {trace : List (System crates × Label crates × System crates)}
    (hrun : Run setup trace sys) (hguard : ∀ t ∈ trace, ¬ EmptiesNetwork setup t.1 t.2.1) :
    sys.relay.pex.engines.size ≤ (networksOf sys.relay.registry).length ∧
      sys.relay.pex.engines.size ≤ setup.config.maxConnections.toNat := by
  have hinhabited : sys.view.Inhabited := by
    refine (hrun.invariant_of_guard (fun sys label => ¬ EmptiesNetwork setup sys label)
      (fun sys => sys.view.Inhabited) hguard ?_ ?_).1
    · exact ⟨fun networkId hengine => absurd hengine (by simp [System.view, System.new, Relay.new,
        PexRelay.new, PexRelay.HasEngine]), by simp [System.view, System.new]⟩
    · intro s label s' hreach hmet hinhabited hnext
      exact (next_turn (wellFormed_of_reachable hreach) (plain_of_reachable hreach) hnext).inhabited
        hmet hinhabited
  have hle : sys.relay.pex.engines.size ≤ (networksOf sys.relay.registry).length :=
    engines_size_le hinhabited.engines
  have hcapacity := (counted_of_reachable ⟨trace, hrun⟩).2
  exact ⟨hle, (hle.trans (networksOf_length_le _)).trans hcapacity⟩

/-- Whether the transition takes the record of the peer off its network, as a check. -/
def vacates (setup : Setup) (sys : System crates) (peerId : String) : Label crates → Bool
  | .exec c _ => sys.conns[c]?.any fun conn =>
    match conn.phase with
    | .deregister => conn.session.peerId = some peerId
    | .registerLocked request _ =>
      request.peerId = peerId && (sys.relay.registry.lookup peerId).any fun existing =>
        isClosed sys.conns existing.tx && existing.networkId ≠ request.networkId
    | _ => false
  | .sweep now =>
    (sys.relay.registry.deadOrStale (isClosed sys.conns) (activity sys.conns) now
      setup.config.livenessDeadline.asSecs).any fun victim => victim.1 = peerId
  | _ => false

/-- Whether the transition takes the last records off some network, as a check. -/
def emptiesNetwork (setup : Setup) (sys : System crates) (label : Label crates) : Bool :=
  (networksOf sys.relay.registry).any fun networkId =>
    sys.relay.registry.toPairs.all fun record =>
      record.2.networkId ≠ networkId || vacates setup sys record.1 label

/-- The check finds every record that is taken off its network. -/
theorem vacates_of_vacates {peerId : String} (h : Vacates setup sys label peerId) :
    vacates setup sys peerId label = true := by
  rcases h with ⟨c, clock, conn, rfl, hconn, -, hphase, hid⟩ |
    ⟨c, clock, conn, request, slot, existing, rfl, hconn, -, hphase, hid, hexisting, hclosed, hne⟩ |
    ⟨now, networkId, rfl, hmem⟩
  · simp [vacates, hconn, hphase, hid]
  · simp [vacates, hconn, hphase, hid, hexisting, hclosed, hne]
  · exact List.any_eq_true.mpr ⟨_, hmem, by simp⟩

/-- A transition that passes the check empties no network. -/
theorem emptiesNetwork_sound (h : emptiesNetwork setup sys label = false) :
    ¬ EmptiesNetwork setup sys label := by
  rintro ⟨networkId, ⟨peerId, peer, hpeer, hnetwork⟩, hall⟩
  have hmem : networkId ∈ networksOf sys.relay.registry := List.mem_dedup.mpr
    (List.mem_map.mpr ⟨(peerId, peer), (Table.mem_toPairs_iff _ _ _).mpr hpeer, hnetwork⟩)
  refine List.any_eq_false.mp h networkId hmem (List.all_eq_true.mpr fun record hrecord => ?_)
  have hlookup := (Table.mem_toPairs_iff _ record.1 record.2).mp hrecord
  by_cases hsame : record.2.networkId = networkId
  · simp [vacates_of_vacates (hall record.1 record.2 hlookup hsame)]
  · simp [hsame]

/-- Two peers register on one network and one of them leaves. -/
theorem run_engines_le_one_left :
    ∃ trace sys, @Run silentCrates standardSetup trace sys ∧
      networksOf sys.relay.registry = ["net"] ∧ sys.relay.registry.size = 1 ∧
      sys.relay.pex.engines.size ≤ (networksOf sys.relay.registry).length ∧
      sys.relay.pex.engines.size ≤ standardSetup.config.maxConnections.toNat := by
  obtain ⟨trace, sys, sys', hrun, hcheck, hends⟩ := @exists_checked_run silentCrates standardSetup
    (fun sys label => !emptiesNetwork standardSetup sys label)
    (Script.connect 0 0 ++ Script.register 0 "p" "net" 0 0 ++ Script.connect 1 0 ++ Script.register 1 "q" "net" 0 1 ++
      Script.depart 0 1 1)
    .stun (fun _ sys' => networksOf sys'.relay.registry = ["net"] && sys'.relay.registry.size = 1)
    (by decide)
  simp only [Bool.and_eq_true, decide_eq_true_eq] at hends
  refine ⟨_, sys', hrun, hends.1, hends.2, run_engines_le hrun fun t ht => emptiesNetwork_sound ?_⟩
  simpa using hcheck t ht

/-- The engine of a network whose only peer has left stays. Connections that come one after the
other and name a network each leave more engines than the relay may have connections. -/
theorem exists_run_engines_gt :
    (∃ trace sys, @Run silentCrates standardSetup trace sys ∧ sys.isSettled = true ∧
      networksOf sys.relay.registry = [] ∧ sys.relay.pex.engines.size = 1) ∧
    ∃ setup trace sys, setup.config.validate = .ok () ∧ @Run silentCrates setup trace sys ∧
      sys.isSettled = true ∧
      setup.config.maxConnections.toNat < sys.relay.pex.engines.size := by
  constructor
  · obtain ⟨trace, sys, sys', hrun, hends⟩ := @exists_run_step silentCrates standardSetup
      (Script.connect 0 0 ++ Script.register 0 "p" "net" 0 0 ++ Script.depart 0 1 0) .stun
      (fun _ sys' => sys'.isSettled && networksOf sys'.relay.registry = [] &&
        sys'.relay.pex.engines.size = 1) (by decide)
    simp only [Bool.and_eq_true, decide_eq_true_eq] at hends
    exact ⟨_, sys', hrun, hends.1.1, hends.1.2, hends.2⟩
  · let setup : Setup := ⟨{ maxConnections := 1, maxConnectionsPerIp := 1 }, false⟩
    obtain ⟨trace, sys, sys', hrun, hends⟩ := @exists_run_step silentCrates setup
      (Script.connect 0 0 ++ Script.register 0 "p" "a" 0 0 ++ Script.depart 0 1 0 ++ [.writeRelay 0 true, .writerDone 0] ++
        List.replicate 4 (.exec 0 (atSecond 1)) ++ Script.connect 1 2 ++ Script.register 1 "q" "b" 2 0)
      .stun
      (fun _ sys' => sys'.isSettled &&
        setup.config.maxConnections.toNat < sys'.relay.pex.engines.size) (by decide)
    simp only [Bool.and_eq_true, decide_eq_true_eq] at hends
    exact ⟨setup, _, sys', rfl, hrun, hends.1, hends.2⟩

end DigRelay
