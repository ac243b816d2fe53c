import DigRelay.Safety.SlotAccounting
import DigRelay.Server.Change
import DigRelay.Server.Outbox
import DigRelay.Server.Script
import DigRelay.Server.Touch

/-!
# Which tasks hold the slots

The policy counts connections and registrations per source and hands out slots that stand for its
counts. In the relay a connection task holds a slot for its connection, a slot for the registration it
keeps, and while it registers a slot for the registration to come. Each transition of the relay is an
operation of the policy or none, so that every run of the relay, in whichever order its tasks are
scheduled, is a run of the policy in which the slots held are exactly those of the tasks. A task that
has ended holds none.
-/

namespace DigRelay

open Common

variable {crates : Crates} {setup : Setup} {sys sys' : System crates} {label : Label crates}
  {c : ConnId} {conn conn' : Conn crates} {relay relay' : Relay crates} {s : HeldSlots}

/-- The connection slot that a task holds, with its source. -/
def Conn.connsHeld (conn : Conn crates) : Multiset (IpAddr × Slot) :=
  conn.connSlot.elim 0 fun slot => {(conn.addr.ip, slot)}

/-- The registration slots that a task holds, with their source: the one it keeps and the one it has
reserved. -/
def Conn.regsHeld (conn : Conn crates) : Multiset (IpAddr × Slot) :=
  (conn.regSlot.elim 0 fun slot => {(conn.addr.ip, slot)}) +
    conn.pendingSlot.elim 0 fun slot => {(conn.addr.ip, slot)}

/-- The connection slots that all tasks hold. -/
def System.connsHeld (sys : System crates) : Multiset (IpAddr × Slot) :=
  poolItems (fun _ => Conn.connsHeld) 0 sys.conns

/-- The registration slots that all tasks hold. -/
def System.regsHeld (sys : System crates) : Multiset (IpAddr × Slot) :=
  poolItems (fun _ => Conn.regsHeld) 0 sys.conns

/-- The policy has the counts of the relay, and its slots are those that the tasks hold. -/
structure Tracks (s : HeldSlots) (sys : System crates) : Prop where
  connsPerIp : s.abuse.connsPerIp = sys.relay.abuse.connsPerIp
  regsPerIp : s.abuse.regsPerIp = sys.relay.abuse.regsPerIp
  conns : (s.conns : Multiset (IpAddr × Slot)) = sys.connsHeld
  regs : (s.regs : Multiset (IpAddr × Slot)) = sys.regsHeld

/-- A task holds no slot before it has acquired one and none after it has dropped it. -/
def Conn.Guarded (conn : Conn crates) : Prop :=
  match conn.phase with
  | .checkBan | .checkOpen | .acquireOpen | .acquireConn | .refuseConn | .dropOpen | .ended =>
    conn.connSlot = none ∧ conn.regSlot = none
  | .readHead | .dropConn => conn.regSlot = none
  | _ => True

/-- What an access does to the slots: nothing, or it acquires or drops one of the two kinds. -/
inductive SlotMove (config : RelayServerConfig) (relay : Relay crates) (conn : Conn crates)
    (relay' : Relay crates) (conn' : Conn crates) : Prop
  | quiet (hconns : relay'.abuse.connsPerIp = relay.abuse.connsPerIp)
      (hregs : relay'.abuse.regsPerIp = relay.abuse.regsPerIp)
      (hconnsHeld : conn'.connsHeld = conn.connsHeld) (hregsHeld : conn'.regsHeld = conn.regsHeld)
  | connAcquired {ip : IpAddr} {slot : Slot}
      (hslot : tryAcquire relay.abuse.connsPerIp config.maxConnectionsPerIp ip =
        some (slot, relay'.abuse.connsPerIp))
      (hregs : relay'.abuse.regsPerIp = relay.abuse.regsPerIp)
      (hconnsHeld : conn'.connsHeld = {(ip, slot)} + conn.connsHeld)
      (hregsHeld : conn'.regsHeld = conn.regsHeld)
  | connDropped {held : IpAddr × Slot}
      (hconns : relay'.abuse.connsPerIp = dropSlot relay.abuse.connsPerIp held.2)
      (hregs : relay'.abuse.regsPerIp = relay.abuse.regsPerIp)
      (hconnsHeld : conn.connsHeld = {held} + conn'.connsHeld)
      (hregsHeld : conn'.regsHeld = conn.regsHeld)
  | regAcquired {ip : IpAddr} {slot : Slot}
      (hslot : tryAcquire relay.abuse.regsPerIp config.maxRegistrationsPerIp ip =
        some (slot, relay'.abuse.regsPerIp))
      (hconns : relay'.abuse.connsPerIp = relay.abuse.connsPerIp)
      (hconnsHeld : conn'.connsHeld = conn.connsHeld)
      (hregsHeld : conn'.regsHeld = {(ip, slot)} + conn.regsHeld)
  | regDropped {held : IpAddr × Slot}
      (hregs : relay'.abuse.regsPerIp = dropSlot relay.abuse.regsPerIp held.2)
      (hconns : relay'.abuse.connsPerIp = relay.abuse.connsPerIp)
      (hconnsHeld : conn'.connsHeld = conn.connsHeld)
      (hregsHeld : conn.regsHeld = {held} + conn'.regsHeld)

/-- Deciding on a message leaves all slots where they are. -/
theorem intercept_held (c : ConnId) {msg : RelayMessage} (hphase : conn.phase = .intercept msg) :
    (conn.intercept c msg).connsHeld = conn.connsHeld ∧
      (conn.intercept c msg).regsHeld = conn.regsHeld := by
  unfold Conn.intercept
  split
  · exact ⟨rfl, by simp [Conn.regsHeld, Conn.pendingSlot, hphase]⟩
  · unfold Conn.carryOut
    split <;> exact ⟨rfl, by simp [Conn.regsHeld, Conn.pendingSlot, hphase]⟩

/-- Every access makes one of these moves. -/
theorem access_slotMove {clock : Clock} {closed : ConnId → Bool} (hguarded : conn.Guarded)
    (h : access setup clock closed c relay conn = some (relay', conn')) :
    SlotMove setup.config relay conn relay' conn' := by
  obtain ⟨phase, hphase, haccess⟩ := access_cases h
  rw [Conn.Guarded, hphase] at hguarded
  cases haccess with
  | acquired hslot =>
    obtain ⟨⟨slot', counts⟩, hcounts, heq⟩ := Option.map_eq_some_iff.mp hslot
    obtain ⟨rfl, rfl⟩ := Prod.mk.injEq _ _ _ _ ▸ heq
    refine .connAcquired hcounts rfl ?_ ?_
    · simp [Conn.connsHeld, hguarded.1]
    · simp [Conn.regsHeld, Conn.pendingSlot, hphase]
  | reserved hslot =>
    obtain ⟨⟨slot', counts⟩, hcounts, heq⟩ := Option.map_eq_some_iff.mp hslot
    obtain ⟨rfl, rfl⟩ := Prod.mk.injEq _ _ _ _ ▸ heq
    refine .regAcquired hcounts rfl rfl ?_
    simp [Conn.regsHeld, Conn.pendingSlot, hphase, add_comm]
  | @committed request slot =>
    cases hreg : conn.regSlot with
    | none =>
      refine .quiet ?_ ?_ rfl ?_
      all_goals simp [commitAccess, hreg, Conn.regsHeld, Conn.pendingSlot, hphase]
    | some kept =>
      refine @SlotMove.regDropped _ _ _ _ _ _ (conn.addr.ip, kept) ?_ ?_ rfl ?_
      all_goals simp [commitAccess, hreg, Conn.regsHeld, Conn.pendingSlot, hphase, AbuseState.dropReg]
  | @refused slot =>
    refine @SlotMove.regDropped _ _ _ _ _ _ (conn.addr.ip, slot) rfl rfl rfl ?_
    simp [Conn.regsHeld, Conn.pendingSlot, hphase, add_comm]
  | releasedReg =>
    cases hreg : conn.regSlot with
    | none =>
      refine .quiet rfl rfl rfl ?_
      simp [hreg, Conn.regsHeld, Conn.pendingSlot, hphase]
    | some kept =>
      refine @SlotMove.regDropped _ _ _ _ _ _ (conn.addr.ip, kept) rfl rfl rfl ?_
      simp [hreg, Conn.regsHeld, Conn.pendingSlot, hphase]
  | releasedConn =>
    cases hconn : conn.connSlot with
    | none =>
      refine .quiet rfl rfl ?_ ?_
      all_goals simp [hconn, Conn.connsHeld, Conn.regsHeld, Conn.pendingSlot, hphase]
    | some kept =>
      refine @SlotMove.connDropped _ _ _ _ _ _ (conn.addr.ip, kept) rfl rfl ?_ ?_
      all_goals simp [hconn, Conn.connsHeld, Conn.regsHeld, Conn.pendingSlot, hphase]
  | banned | notBanned | refusedConn | struck | allowed | notAllowed =>
    refine .quiet ?_ ?_ rfl ?_
    all_goals simp [Conn.regsHeld, Conn.pendingSlot, hphase]
  | intercepted =>
    obtain ⟨-, -, -, habuse⟩ := recordDhtAnswer_frame relay conn.session _
    obtain ⟨hconnsHeld, hregsHeld⟩ := intercept_held c hphase
    exact .quiet (by rw [habuse]) (by rw [habuse]) hconnsHeld hregsHeld
  | recorded =>
    obtain ⟨-, -, -, habuse⟩ := recordRelayed_frame relay _
    refine .quiet (by rw [habuse]) (by rw [habuse]) rfl ?_
    simp [Conn.regsHeld, Conn.pendingSlot, hphase]
  | entered hverdict =>
    obtain ⟨-, -, -, -, hrelay⟩ := registerVerdict_accepted hverdict
    have habuse : relay'.abuse = relay.abuse := by
      rcases hrelay with ⟨-, hrelay⟩ | ⟨-, hrelay⟩ <;> rw [hrelay]
    refine .quiet (by rw [habuse]) (by rw [habuse]) rfl ?_
    simp [Conn.regsHeld, Conn.pendingSlot, hphase]
  | removed hpeerId hnetworkId hremove =>
    obtain ⟨-, hrelay, -⟩ := removeLocked_some hremove
    refine .quiet (by rw [hrelay]) (by rw [hrelay]) rfl ?_
    simp [Conn.regsHeld, Conn.pendingSlot, hphase]
  | _ =>
    refine .quiet rfl rfl rfl ?_
    simp [Conn.regsHeld, Conn.pendingSlot, hphase, handshakeAccess]

/-- An access leaves its task within its guards. -/
theorem access_guarded {clock : Clock} {closed : ConnId → Bool} (hguarded : conn.Guarded)
    (h : access setup clock closed c relay conn = some (relay', conn')) : conn'.Guarded := by
  obtain ⟨phase, hphase, haccess⟩ := access_cases h
  rw [Conn.Guarded, hphase] at hguarded
  cases haccess with
  | intercepted =>
    unfold Conn.intercept
    split
    · trivial
    · unfold Conn.carryOut
      split <;> trivial
  | acquired => exact hguarded.2
  | releasedReg => rfl
  | releasedConn => exact ⟨rfl, hguarded⟩
  | banned | notBanned | full | notFull | opened | notAcquired | refusedConn | closed => exact hguarded
  | _ => trivial

/-- A frame leaves its task within its guards. -/
theorem takeFrame_guarded {config : RelayServerConfig} {frame : Frame crates} {clock : Clock}
    (hphase : conn.phase = .idle) : (conn.takeFrame config c frame clock).Guarded := by
  dsimp only [Conn.takeFrame]
  split
  · trivial
  · split
    · unfold Conn.takePexFrame
      split <;> simp [Conn.Guarded, hphase]
    · split <;> simp [Conn.Guarded, hphase]

/-- A frame leaves all slots where they are. -/
theorem takeFrame_held {config : RelayServerConfig} {frame : Frame crates} {clock : Clock}
    (hphase : conn.phase = .idle) :
    (conn.takeFrame config c frame clock).connsHeld = conn.connsHeld ∧
      (conn.takeFrame config c frame clock).regsHeld = conn.regsHeld := by
  dsimp only [Conn.takeFrame]
  split
  · exact ⟨rfl, by simp [Conn.regsHeld, Conn.pendingSlot, hphase]⟩
  · split
    · unfold Conn.takePexFrame
      split <;> exact ⟨rfl, by simp [Conn.regsHeld, Conn.pendingSlot, hphase]⟩
    · split <;> exact ⟨rfl, by simp [Conn.regsHeld, Conn.pendingSlot, hphase]⟩

/-- The part of a connection that says which slots it holds. -/
def Conn.guards (conn : Conn crates) : SocketAddr × Option Slot × Option Slot × Phase crates :=
  (conn.addr, conn.connSlot, conn.regSlot, conn.phase)

/-- What a transition does to the slots: nothing, another connection comes in, or one task moves. -/
inductive SlotStep (setup : Setup) (sys sys' : System crates) : Prop
  | quiet (hconns : sys'.relay.abuse.connsPerIp = sys.relay.abuse.connsPerIp)
      (hregs : sys'.relay.abuse.regsPerIp = sys.relay.abuse.regsPerIp)
      (hguards : sys'.conns.map Conn.guards = sys.conns.map Conn.guards)
  | accepted (addr : SocketAddr) (identity : Option String) (hrelay : sys'.relay = sys.relay)
      (heq : sys'.conns = sys.conns ++ [Conn.accepted setup.config addr identity])
  | moved {c : ConnId} {conn conn' : Conn crates} (hconn : sys.conns[c]? = some conn)
      (heq : sys'.conns = sys.conns.set c conn')
      (hmove : SlotMove setup.config sys.relay conn sys'.relay conn') (hguarded : conn'.Guarded)

/-- A send leaves all guards where they are. -/
theorem guards_deliver (send : Send crates) (conns : List (Conn crates)) :
    (deliver send conns).map Conn.guards = conns.map Conn.guards :=
  deliver_map Conn.guards (fun _ _ => rfl) (fun _ _ => rfl) send conns

/-- Every transition takes one of these steps. -/
theorem next_slotStep (hguarded : ∀ conn ∈ sys.conns, conn.Guarded) (h : Next setup sys label sys') :
    SlotStep setup sys sys' := by
  cases next_move h with
  | accepted addr identity => exact .accepted addr _ rfl rfl
  | sent hconn houtbox =>
    refine .quiet rfl rfl ?_
    rw [guards_deliver]
    exact map_set_of_eq Conn.guards hconn rfl
  | accessed hconn houtbox haccess =>
    have hbefore := hguarded _ (List.mem_of_getElem? hconn)
    exact .moved hconn rfl (access_slotMove hbefore haccess) (access_guarded hbefore haccess)
  | @head c conn outcome clock hconn hphase houtbox =>
    have hbefore := hguarded _ (List.mem_of_getElem? hconn)
    rw [Conn.Guarded, hphase] at hbefore
    refine .moved hconn rfl (.quiet rfl rfl ?_ ?_) ?_
    · cases outcome <;> rfl
    · cases outcome <;> simp [Conn.takeHead, Conn.upgrade, Conn.regsHeld, Conn.pendingSlot, hphase]
    · cases outcome with
      | upgraded => trivial
      | http => exact hbefore
      | failed => exact hbefore
  | message frame clock hconn hphase houtbox =>
    obtain ⟨hconnsHeld, hregsHeld⟩ := takeFrame_held hphase
    exact .moved hconn rfl (.quiet rfl rfl hconnsHeld hregsHeld) (takeFrame_guarded hphase)
  | control hconn hphase houtbox => exact .quiet rfl rfl (map_set_of_eq Conn.guards hconn rfl)
  | hangup hconn hphase houtbox =>
    refine .moved hconn rfl (.quiet rfl rfl rfl ?_) trivial
    simp [Conn.regsHeld, Conn.pendingSlot, hphase]
  | wrote hlabel hconn hclosed => exact .quiet rfl rfl (map_set_of_eq Conn.guards hconn rfl)
  | closed hlabel hconn => exact .quiet rfl rfl (map_set_of_eq Conn.guards hconn rfl)
  | swept now =>
    have habuse : (sweepLocked setup sys now).2.abuse = sys.relay.abuse := by
      rw [sweepLocked, pruneLocked_frame]
    exact .quiet (congrArg AbuseState.connsPerIp habuse) (congrArg AbuseState.regsPerIp habuse) rfl
  | noticed => exact .quiet rfl rfl (by rw [guards_deliver])
  | forgotten => exact .quiet rfl rfl rfl
  | background sends hlabel hregistry hconnected hsenders habuse =>
    refine .quiet (congrArg AbuseState.connsPerIp habuse) (congrArg AbuseState.regsPerIp habuse) ?_
    exact deliverAll_map Conn.guards (fun _ _ => rfl) (fun _ _ => rfl) sends sys.conns
  | rehashed hrehash =>
    obtain ⟨_, _, _, _, _, -, -, -, -, -, rfl⟩ := hrehash
    exact .quiet rfl rfl rfl

/-- A step leaves all tasks within their guards. -/
theorem SlotStep.guarded (h : SlotStep setup sys sys') (hguarded : ∀ conn ∈ sys.conns, conn.Guarded) :
    ∀ conn ∈ sys'.conns, conn.Guarded := by
  intro after hmem
  cases h with
  | quiet hconns hregs hguards =>
    obtain ⟨c, hafter⟩ := List.mem_iff_getElem?.mp hmem
    obtain ⟨before, hbefore, hsame⟩ := exists_getElem?_of_map_eq hguards.symm hafter
    have hfrom := hguarded before (List.mem_of_getElem? hbefore)
    obtain ⟨-, hconnSlot, hregSlot, hphase⟩ := by simpa [Conn.guards] using hsame
    rw [Conn.Guarded, ← hphase, ← hconnSlot, ← hregSlot]
    exact hfrom
  | accepted addr identity hrelay heq =>
    rw [heq] at hmem
    rcases List.mem_append.mp hmem with hold | hnew
    · exact hguarded after hold
    · rw [List.mem_singleton.mp hnew]
      exact ⟨rfl, rfl⟩
  | moved hconn heq hmove hmoved =>
    rw [heq] at hmem
    rcases List.mem_or_eq_of_mem_set hmem with hold | rfl
    · exact hguarded after hold
    · exact hmoved

/-- In every reachable state all tasks are within their guards. -/
theorem guarded_of_reachable (h : IsReachable setup sys) : ∀ conn ∈ sys.conns, conn.Guarded := by
  refine Reachable.invariant (fun sys => ∀ conn ∈ sys.conns, conn.Guarded) ?_ ?_ h
  · intro conn hmem
    cases hmem
  · intro sys label sys' _ hguarded hnext
    exact (next_slotStep hguarded hnext).guarded hguarded

/-- One more item for a task is one more item in all. -/
theorem held_of_acquired {B : Type*} {total total' old new : Multiset B} {x : B}
    (htotal : total' + old = total + new) (hnew : new = {x} + old) : total' = x ::ₘ total := by
  rw [hnew, ← add_assoc, add_left_inj] at htotal
  rw [htotal, add_comm, Multiset.singleton_add]

/-- A change that leaves the guards alone leaves the slots held alone. -/
theorem held_of_guards {conns conns' : List (Conn crates)} {held : Conn crates → Multiset (IpAddr × Slot)}
    (hheld : ∀ conn conn', conn'.guards = conn.guards → held conn' = held conn)
    (h : conns'.map Conn.guards = conns.map Conn.guards) :
    poolItems (fun _ => held) 0 conns' = poolItems (fun _ => held) 0 conns := by
  rw [poolItems_eq_sum, poolItems_eq_sum]
  congr 1
  refine List.ext_getElem? ?_
  intro c
  have hc := congrArg (fun guards : List _ => guards[c]?) h
  simp only [List.getElem?_map] at hc ⊢
  cases hbefore : conns[c]? with
  | none =>
    rw [hbefore, Option.map_none, Option.map_eq_none_iff] at hc
    rw [hc]
  | some conn =>
    rw [hbefore, Option.map_some, Option.map_eq_some_iff] at hc
    obtain ⟨conn', hafter, hguards⟩ := hc
    rw [hafter]
    exact congrArg some (hheld conn conn' hguards)

/-- The connection slots of a task are read off its guards. -/
theorem connsHeld_of_guards (h : conn'.guards = conn.guards) : conn'.connsHeld = conn.connsHeld := by
  obtain ⟨haddr, hconnSlot, -, -⟩ := by simpa [Conn.guards] using h
  rw [Conn.connsHeld, haddr, hconnSlot]
  rfl

/-- The registration slots of a task are read off its guards. -/
theorem regsHeld_of_guards (h : conn'.guards = conn.guards) : conn'.regsHeld = conn.regsHeld := by
  obtain ⟨haddr, -, hregSlot, hphase⟩ := by simpa [Conn.guards] using h
  rw [Conn.regsHeld, Conn.pendingSlot, haddr, hregSlot, hphase]
  rfl

/-- A step of the relay is an operation of the policy or none. -/
theorem SlotStep.follows (h : SlotStep setup sys sys') (htracks : Tracks s sys) :
    Tracks s sys' ∨ ∃ op s', policyStep setup.config s op = some s' ∧ Tracks s' sys' := by
  obtain ⟨hconnsPerIp, hregsPerIp, hconns, hregs⟩ := htracks
  cases h with
  | quiet hsameConns hsameRegs hguards =>
    left
    refine ⟨hconnsPerIp.trans hsameConns.symm, hregsPerIp.trans hsameRegs.symm, ?_, ?_⟩
    · exact hconns.trans (held_of_guards (fun _ _ => connsHeld_of_guards) hguards).symm
    · exact hregs.trans (held_of_guards (fun _ _ => regsHeld_of_guards) hguards).symm
  | accepted addr identity hrelay heq =>
    left
    refine ⟨by rw [hrelay, hconnsPerIp], by rw [hrelay, hregsPerIp], ?_, ?_⟩
    · rw [hconns, System.connsHeld, System.connsHeld, heq, poolItems_append_singleton]
      exact (add_zero _).symm
    · rw [hregs, System.regsHeld, System.regsHeld, heq, poolItems_append_singleton]
      exact (add_zero _).symm
  | @moved c conn conn' hconn heq hmove hguarded =>
    have hmovedConns : sys'.connsHeld + conn.connsHeld = sys.connsHeld + conn'.connsHeld := by
      rw [System.connsHeld, heq]
      exact poolItems_set (fun _ => Conn.connsHeld) 0 sys.conns c conn conn' hconn
    have hmovedRegs : sys'.regsHeld + conn.regsHeld = sys.regsHeld + conn'.regsHeld := by
      rw [System.regsHeld, heq]
      exact poolItems_set (fun _ => Conn.regsHeld) 0 sys.conns c conn conn' hconn
    have hsameConns (hheld : conn'.connsHeld = conn.connsHeld) : sys'.connsHeld = sys.connsHeld := by
      rwa [hheld, add_left_inj] at hmovedConns
    have hsameRegs (hheld : conn'.regsHeld = conn.regsHeld) : sys'.regsHeld = sys.regsHeld := by
      rwa [hheld, add_left_inj] at hmovedRegs
    cases hmove with
    | quiet hcounts hcountsRegs hheld hheldRegs =>
      left
      exact ⟨hconnsPerIp.trans hcounts.symm, hregsPerIp.trans hcountsRegs.symm,
        hconns.trans (hsameConns hheld).symm, hregs.trans (hsameRegs hheldRegs).symm⟩
    | @connAcquired ip slot hslot hcountsRegs hheld hheldRegs =>
      have hgrant : s.abuse.tryAcquireConn setup.config ip =
          some (slot, { s.abuse with connsPerIp := sys'.relay.abuse.connsPerIp }) := by
        rw [AbuseState.tryAcquireConn, hconnsPerIp, hslot]
        rfl
      have hstep : policyStep setup.config s (.tryAcquireConn ip) = some { s with
          abuse := { s.abuse with connsPerIp := sys'.relay.abuse.connsPerIp }
          conns := (ip, slot) :: s.conns } := by
        simp only [policyStep, hgrant]
      right
      refine ⟨_, _, hstep, rfl, hregsPerIp.trans hcountsRegs.symm, ?_, hregs.trans (hsameRegs hheldRegs).symm⟩
      rw [held_of_acquired hmovedConns hheld, ← hconns]
      rfl
    | @connDropped held hcounts hcountsRegs hheld hheldRegs =>
      have hall : sys.connsHeld = held ::ₘ sys'.connsHeld := held_of_acquired hmovedConns.symm hheld
      have hmem : held ∈ s.conns := by
        rw [← Multiset.mem_coe, hconns, hall]
        exact Multiset.mem_cons_self _ _
      have hstep : policyStep setup.config s (.dropConn held) = some { s with
          abuse := s.abuse.dropConn held.2
          conns := s.conns.erase held } := if_pos hmem
      right
      refine ⟨_, _, hstep, ?_, hregsPerIp.trans hcountsRegs.symm, ?_, hregs.trans (hsameRegs hheldRegs).symm⟩
      · rw [hcounts, ← hconnsPerIp]
        rfl
      · have hrest := Multiset.coe_eq_coe.mpr (List.perm_cons_erase hmem)
        rw [hconns, hall] at hrest
        exact ((Multiset.cons_inj_right held).mp hrest).symm
    | @regAcquired ip slot hslot hcountsConns hheld hheldRegs =>
      have hgrant : s.abuse.tryAcquireRegistration setup.config ip =
          some (slot, { s.abuse with regsPerIp := sys'.relay.abuse.regsPerIp }) := by
        rw [AbuseState.tryAcquireRegistration, hregsPerIp, hslot]
        rfl
      have hstep : policyStep setup.config s (.tryAcquireRegistration ip) = some { s with
          abuse := { s.abuse with regsPerIp := sys'.relay.abuse.regsPerIp }
          regs := (ip, slot) :: s.regs } := by
        simp only [policyStep, hgrant]
      right
      refine ⟨_, _, hstep, hconnsPerIp.trans hcountsConns.symm, rfl, hconns.trans (hsameConns hheld).symm, ?_⟩
      rw [held_of_acquired hmovedRegs hheldRegs, ← hregs]
      rfl
    | @regDropped held hcounts hcountsConns hheld hheldRegs =>
      have hall : sys.regsHeld = held ::ₘ sys'.regsHeld := held_of_acquired hmovedRegs.symm hheldRegs
      have hmem : held ∈ s.regs := by
        rw [← Multiset.mem_coe, hregs, hall]
        exact Multiset.mem_cons_self _ _
      have hstep : policyStep setup.config s (.dropReg held) = some { s with
          abuse := s.abuse.dropReg held.2
          regs := s.regs.erase held } := if_pos hmem
      right
      refine ⟨_, _, hstep, hconnsPerIp.trans hcountsConns.symm, ?_, hconns.trans (hsameConns hheld).symm, ?_⟩
      · rw [hcounts, ← hregsPerIp]
        rfl
      · have hrest := Multiset.coe_eq_coe.mpr (List.perm_cons_erase hmem)
        rw [hregs, hall] at hrest
        exact ((Multiset.cons_inj_right held).mp hrest).symm

/-- Every run of the relay is a run of the policy with the same counts, in which the slots held are those
of the connection tasks. -/
theorem exists_policyRun (h : IsReachable setup sys) :
    ∃ ops s, PolicyRun setup.config ops s ∧ Tracks s sys := by
  refine Reachable.invariant (fun sys => ∃ ops s, PolicyRun setup.config ops s ∧ Tracks s sys) ?_ ?_ h
  · exact ⟨[], HeldSlots.none, .nil, rfl, rfl, rfl, rfl⟩
  · intro sys label sys' hreachable hfollowed hnext
    obtain ⟨ops, s, hrun, htracks⟩ := hfollowed
    have hstep := next_slotStep (guarded_of_reachable hreachable) hnext
    rcases hstep.follows htracks with hsame | ⟨op, s', hop, hafter⟩
    · exact ⟨ops, s, hrun, hsame⟩
    · exact ⟨_, s', .snoc hrun hop, hafter⟩

/-- A task that has ended holds no slot. -/
theorem held_of_ended (hguarded : conn.Guarded) (hphase : conn.phase = .ended) :
    conn.connsHeld = 0 ∧ conn.regsHeld = 0 := by
  rw [Conn.Guarded, hphase] at hguarded
  simp [Conn.connsHeld, Conn.regsHeld, Conn.pendingSlot, hphase, hguarded.1, hguarded.2]

/-- In every reachable state the counts of the policy are those that a run of its operations leads to, with
the slots of all connection tasks held and no others, and connections that have ended hold none. -/
theorem run_follows_policy {trace : List (System crates × Label crates × System crates)}
    (hrun : Run setup trace sys) :
    (∃ ops s, PolicyRun setup.config ops s ∧ Tracks s sys) ∧
      ∀ conn ∈ sys.conns, conn.phase = .ended → conn.connsHeld = 0 ∧ conn.regsHeld = 0 :=
  ⟨exists_policyRun ⟨trace, hrun⟩, fun conn hmem hphase =>
    held_of_ended (guarded_of_reachable ⟨trace, hrun⟩ conn hmem) hphase⟩

/-- Two registered peers hold two slots of each kind. -/
theorem run_follows_policy_two :
    ∃ trace sys, @Run silentCrates standardSetup trace sys ∧ sys.connsHeld.card = 2 ∧
      sys.regsHeld.card = 2 ∧ (∃ ops s, PolicyRun standardSetup.config ops s ∧ Tracks s sys) ∧
      ∀ conn ∈ sys.conns, conn.phase = .ended → conn.connsHeld = 0 ∧ conn.regsHeld = 0 := by
  obtain ⟨trace, sys, hrun, hheld⟩ := @exists_traced_run silentCrates standardSetup twoMessages
    (fun _ sys => sys.connsHeld.card = 2 ∧ sys.regsHeld.card = 2) (by decide +kernel)
  obtain ⟨hconns, hregs⟩ := of_decide_eq_true hheld
  exact ⟨trace, sys, hrun, hconns, hregs, run_follows_policy hrun⟩

end DigRelay
