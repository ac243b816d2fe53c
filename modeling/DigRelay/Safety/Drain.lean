import DigRelay.Safety.Counter
import DigRelay.Safety.OpenCap
import DigRelay.Safety.Settling
import DigRelay.Safety.SlotsHeld
import DigRelay.Server.Script

/-!
# The relay can always be drained

Whatever has happened, nothing is held for good. If no client sends anything more and all of them go
away, the tasks end, and what they leave behind in the registry is removed by a health sweep, after
which the remaining tasks end too. No record is left then, the counters of records and of open
connections are back at zero, and no source has a slot left.
-/

namespace DigRelay

open Common

variable {crates : Crates} {setup : Setup} {sys sys' : System crates} {label : Label crates}
  {c : ConnId} {conn conn' : Conn crates}

/-- The moves of a relay whose clients go away: heads that fail, hang-ups and its own moves. -/
def Label.isWithdrawal : Label crates → Bool
  | .head _ outcome _ => outcome = .failed
  | label => label.isReaction

/-- The moves of a relay that is drained: those of a relay whose clients go away, and health sweeps. -/
def Label.isDraining : Label crates → Bool
  | .sweep _ => true
  | label => label.isWithdrawal

/-- A move of a relay whose clients go away that changes something. -/
def Withdrawal (setup : Setup) (sys : System crates) (label : Label crates) (sys' : System crates) : Prop :=
  label.isWithdrawal = true ∧ sys' ≠ sys ∧ Next setup sys label sys'

/-- Clients that go away are reacted to. -/
theorem isReaction_of_isWithdrawal (h : label.isWithdrawal = true) : label.isReaction = true := by
  cases label with
  | head => rfl
  | _ => exact h

/-- Clients do not go away forever. -/
theorem wellFounded_withdrawal (setup : Setup) :
    WellFounded (fun sys' sys : System crates => ∃ label, Withdrawal setup sys label sys') := by
  refine Subrelation.wf ?_ (wellFounded_reaction setup)
  rintro sys' sys ⟨label, hlabel, hmove⟩
  exact ⟨label, isReaction_of_isWithdrawal hlabel, hmove⟩

/-- The phases after a connection's teardown has passed registry and exchange. -/
def Phase.isTornDown : Phase crates → Bool
  | .awaitWriter => true
  | .dropReg => true
  | .dropConn => true
  | .dropOpen => true
  | .ended => true
  | _ => false

/-- All connections are torn down and no record is left. -/
structure System.TornDown (sys : System crates) : Prop where
  phases : ∀ conn ∈ sys.conns, conn.phase.isTornDown = true
  registry : ∀ peerId, sys.relay.registry.lookup peerId = none

/-- A relay that has come to rest without its clients has no move of its own. -/
theorem isStill_of_no_withdrawal (hrest : ∀ label sys', ¬Withdrawal setup sys label sys') :
    IsStill setup sys := by
  intro label sys' hown hnext
  by_contra hne
  refine hrest label sys' ⟨?_, hne, hnext⟩
  cases label <;> first | rfl | cases hown

/-- A relay that has come to rest without its clients has connections that have ended and some that wait for
their writers. -/
theorem phase_of_no_withdrawal (hrest : ∀ label sys', ¬Withdrawal setup sys label sys')
    (hconn : sys.conns[c]? = some conn) :
    conn.phase = .ended ∨ conn.phase = .awaitWriter ∧
      ∃ peerId peer, sys.relay.registry.lookup peerId = some peer ∧ peer.tx = c := by
  have hstill := isStill_of_no_withdrawal hrest
  have hlt := (List.getElem?_eq_some_iff.mp hconn).1
  -- a client that is waited for could go away
  have hmoved {label : Label crates} (conn' : Conn crates) (hlabel : label.isWithdrawal = true)
      (hphase : conn'.phase ≠ conn.phase)
      (hstep : step setup sys label = some (sys.setConn c conn')) : False := by
    refine hrest label _ ⟨hlabel, ?_, .step hstep⟩
    intro hsame
    have hconns := congrArg (fun sys : System crates => sys.conns[c]?) hsame
    simp only [System.setConn, List.getElem?_set_self hlt, hconn, Option.some.injEq] at hconns
    exact hphase (congrArg Conn.phase hconns)
  have hrests := hstill.atRest.conns c conn hconn
  rcases hrests.phase with hphase | hphase | hphase | hwaits
  · refine (@hmoved (.head c .failed ⟨0, 0, 0⟩) { conn with phase := .dropConn } rfl ?_ ?_).elim
    · rw [hphase]
      simp
    · simp [step, inputStep, hconn, hphase, hrests.outbox, Phase.isReadHead, Conn.takeHead]
  · refine (@hmoved (.hangup c) { conn with phase := .deregister } rfl ?_ ?_).elim
    · rw [hphase]
      simp
    · simp [step, inputStep, hconn, hphase, hrests.outbox, Phase.isIdle]
  · exact .inl hphase
  · exact .inr hwaits

/-- Late enough, a sweep finds every record stale. -/
theorem sweepLocked_lookup_of_late (setup : Setup) (sys : System crates) (peerId : String) :
    (sweepLocked setup sys (setup.config.livenessDeadline.asSecs +
      poolTotal Conn.lastActivity sys.conns + 1)).2.registry.lookup peerId = none := by
  rw [sweepLocked, pruneLocked_lookup]
  split
  · rfl
  · rename_i hspared
    by_contra hsome
    obtain ⟨peer, hpeer⟩ := Option.ne_none_iff_exists'.mp hsome
    have hactivity : activity sys.conns peer.lastActivity ≤ poolTotal Conn.lastActivity sys.conns := by
      unfold activity
      cases hconn : sys.conns[peer.lastActivity]? with
      | none => exact Nat.zero_le _
      | some conn => exact le_poolTotal Conn.lastActivity sys.conns (List.mem_of_getElem? hconn)
    refine hspared (List.mem_map.mpr ⟨(peerId, peer.networkId), ?_, rfl⟩)
    refine Registry.mem_deadOrStale_iff.mpr ⟨peer, hpeer, rfl, .inr ?_⟩
    omega

/-- Reactions of torn-down connections bring no record back. -/
theorem next_tornDown (htorn : sys.TornDown) (hlabel : label.isReaction = true)
    (h : Next setup sys label sys') : sys'.TornDown := by
  have hphases {conns : List (Conn crates)} (hsame : conns.map Conn.phase = sys.conns.map Conn.phase) :
      ∀ conn ∈ conns, conn.phase.isTornDown = true := by
    intro conn hmem
    obtain ⟨d, hconn⟩ := List.mem_iff_getElem?.mp hmem
    obtain ⟨before, hbefore, hphase⟩ := exists_getElem?_of_map_eq hsame.symm hconn
    rw [← hphase]
    exact htorn.phases before (List.mem_of_getElem? hbefore)
  have hwaits {phase : Phase crates} {conn : Conn crates} {d : ConnId} (hconn : sys.conns[d]? = some conn)
      (hphase : conn.phase = phase) (hnot : phase.isTornDown = false) : False := by
    have htornDown := htorn.phases conn (List.mem_of_getElem? hconn)
    rw [hphase, hnot] at htornDown
    cases htornDown
  cases next_move h with
  | accepted | message | control | swept | rehashed => cases hlabel
  | sent hconn houtbox =>
    refine ⟨hphases ?_, htorn.registry⟩
    rw [phases_deliver]
    exact map_set_of_eq Conn.phase hconn rfl
  | @accessed d clock before after relay hconn houtbox haccess =>
    have hbefore := htorn.phases before (List.mem_of_getElem? hconn)
    have htouched : after.phase.isTornDown = true ∧ relay.registry = sys.relay.registry := by
      obtain ⟨phase, hphase, hcases⟩ := access_cases haccess
      rw [hphase] at hbefore
      cases hcases with
      | written | releasedReg | releasedConn | closed => exact ⟨rfl, rfl⟩
      | _ => cases hbefore
    refine ⟨?_, ?_⟩
    · intro conn hmem
      rcases List.mem_or_eq_of_mem_set hmem with hold | rfl
      · exact htorn.phases conn hold
      · exact htouched.1
    · intro peerId
      change relay.registry.lookup peerId = none
      rw [htouched.2]
      exact htorn.registry peerId
  | head outcome clock hconn hphase => exact (hwaits hconn hphase rfl).elim
  | hangup hconn hphase => exact (hwaits hconn hphase rfl).elim
  | wrote hback hconn => exact ⟨hphases (map_set_of_eq Conn.phase hconn rfl), htorn.registry⟩
  | closed hback hconn => exact ⟨hphases (map_set_of_eq Conn.phase hconn rfl), htorn.registry⟩
  | noticed => exact ⟨hphases (by rw [phases_deliver]), htorn.registry⟩
  | forgotten => exact ⟨htorn.phases, htorn.registry⟩
  | background sends hback hregistry =>
    refine ⟨hphases (deliverAll_map Conn.phase (fun _ _ => rfl) (fun _ _ => rfl) sends sys.conns), ?_⟩
    intro peerId
    dsimp only
    rw [hregistry]
    exact htorn.registry peerId

/-- Every transition is a move of the admission for some limit. -/
theorem exists_next_admission (h : Next setup sys label sys') :
    ∃ limit, Admission.Move limit sys.admission sys'.admission := by
  by_cases hover : OverAdmits setup sys label
  · obtain ⟨c, clock, conn, rfl, hconn, houtbox, hphase, hbelow, -⟩ := hover
    have hstep : step setup sys (.exec c clock) = some (sys.setConn c { conn with phase := .acquireOpen }) := by
      simp [step, execStep, hconn, houtbox, access, hphase, System.setConn,
        not_le.mpr hbelow]
    have hafter : sys' = sys.setConn c { conn with phase := .acquireOpen } := by
      cases h with
      | step hother => exact Option.some.inj (hother.symm.trans hstep)
    have hstage : sys.admission.stages[c]? = some .outside := by
      simp [System.admission, hconn, hphase, Phase.openStage]
    refine ⟨sys.admission.counter.toNat + sys.admission.tasksAt .checked + 1, ?_⟩
    have hmove := Admission.Move.checked hstage (Nat.lt_succ_self _)
    rw [hafter]
    simpa [System.admission, System.setConn, List.map_set, Phase.openStage] using hmove
  · exact ⟨_, next_admission hover h⟩

/-- In every reachable state the counter of open connections is the number of live guards, modulo the
machine word. -/
theorem openConnections_eq (h : IsReachable setup sys) :
    sys.relay.openConnections = UInt64.ofNat (liveGuards sys) := by
  refine Reachable.invariant (fun sys : System crates =>
    sys.relay.openConnections = UInt64.ofNat (liveGuards sys)) rfl ?_ h
  intro sys label sys' _ hcounter hnext
  obtain ⟨limit, hmove⟩ := exists_next_admission hnext
  exact hmove.counter_eq hcounter

/-- The counts of one map against the slots held: each count is what the slots contribute to it, and no key
is kept with a count of zero. -/
structure SlotsWeighed (counts : Table IpKey ℕ) (live : List (IpAddr × Slot)) : Prop where
  exact : ∀ key, (counts.lookup key).getD 0 = (live.map fun held => held.2.weight key).sum
  positive : ∀ key, counts.lookup key ≠ some 0

namespace SlotsWeighed

variable {cap : ℕ} {counts counts' : Table IpKey ℕ} {live : List (IpAddr × Slot)}

/-- A granted slot is weighed, whether the cap is enabled or not. -/
theorem grant {ip : IpAddr} {slot : Slot} (h : SlotsWeighed counts live)
    (hgrant : tryAcquire counts cap ip = some (slot, counts')) :
    SlotsWeighed counts' ((ip, slot) :: live) where
  exact key := by
    obtain ⟨-, -, hcount⟩ := tryAcquire_some hgrant
    rw [hcount, h.exact, List.map_cons, List.sum_cons, Nat.add_comm]
  positive key := by
    by_cases hcap : cap = 0
    · rw [tryAcquire, if_pos hcap] at hgrant
      obtain ⟨-, rfl⟩ := Prod.mk.injEq _ _ _ _ ▸ Option.some.inj hgrant
      exact h.positive key
    · rw [tryAcquire_lookup hcap hgrant]
      split
      · simp
      · exact h.positive key

/-- A dropped slot is no longer weighed. -/
theorem drop {held : IpAddr × Slot} (h : SlotsWeighed counts live) (hheld : held ∈ live) :
    SlotsWeighed (dropSlot counts held.2) (live.erase held) where
  exact key := by
    have hsum := ((List.perm_cons_erase hheld).map fun held => held.2.weight key).sum_eq
    rw [List.map_cons, List.sum_cons] at hsum
    rw [dropSlot_count, h.exact, hsum, Nat.add_sub_cancel_left]
  positive := dropSlot_positive h.positive

/-- Without a slot no count is left. -/
theorem lookup_eq_none (h : SlotsWeighed counts []) (key : IpKey) : counts.lookup key = none := by
  have hexact := h.exact key
  cases hcount : counts.lookup key with
  | none => rfl
  | some count =>
    rw [hcount] at hexact
    exact absurd (hcount.trans (congrArg some hexact)) (h.positive key)

end SlotsWeighed

/-- Every operation of the policy keeps both maps weighed, for all caps. -/
theorem policyStep_weighed {config : RelayServerConfig} {s s' : HeldSlots} {op : PolicyOp}
    (hconns : SlotsWeighed s.abuse.connsPerIp s.conns) (hregs : SlotsWeighed s.abuse.regsPerIp s.regs)
    (hstep : policyStep config s op = some s') :
    SlotsWeighed s'.abuse.connsPerIp s'.conns ∧ SlotsWeighed s'.abuse.regsPerIp s'.regs := by
  cases op <;> simp only [policyStep] at hstep
  case tryAcquireConn ip =>
    split at hstep
    · rename_i slot abuse hgrant
      obtain ⟨⟨_, counts⟩, hcounts, heq⟩ := Option.map_eq_some_iff.mp hgrant
      obtain ⟨rfl, rfl⟩ := Prod.mk.injEq _ _ _ _ ▸ heq
      obtain rfl := Option.some.inj hstep
      exact ⟨hconns.grant hcounts, hregs⟩
    · obtain rfl := Option.some.inj hstep
      exact ⟨hconns, hregs⟩
  case dropConn held =>
    split at hstep
    · rename_i hheld
      obtain rfl := Option.some.inj hstep
      exact ⟨hconns.drop hheld, hregs⟩
    · cases hstep
  case tryAcquireRegistration ip =>
    split at hstep
    · rename_i slot abuse hgrant
      obtain ⟨⟨_, counts⟩, hcounts, heq⟩ := Option.map_eq_some_iff.mp hgrant
      obtain ⟨rfl, rfl⟩ := Prod.mk.injEq _ _ _ _ ▸ heq
      obtain rfl := Option.some.inj hstep
      exact ⟨hconns, hregs.grant hcounts⟩
    · obtain rfl := Option.some.inj hstep
      exact ⟨hconns, hregs⟩
  case dropReg held =>
    split at hstep
    · rename_i hheld
      obtain rfl := Option.some.inj hstep
      exact ⟨hconns, hregs.drop hheld⟩
    · cases hstep
  all_goals
    obtain rfl := Option.some.inj hstep
    simpa using And.intro hconns hregs

/-- Along every run of the policy both maps are weighed. -/
theorem policyRun_weighed {config : RelayServerConfig} {ops : List (HeldSlots × PolicyOp × HeldSlots)}
    {s : HeldSlots} (hrun : PolicyRun config ops s) :
    SlotsWeighed s.abuse.connsPerIp s.conns ∧ SlotsWeighed s.abuse.regsPerIp s.regs := by
  induction hrun with
  | nil => exact ⟨⟨fun _ => rfl, fun _ => by simp [HeldSlots.none, AbuseState.default]⟩,
      ⟨fun _ => rfl, fun _ => by simp [HeldSlots.none, AbuseState.default]⟩⟩
  | snoc _ hstep ih => exact policyStep_weighed ih.1 ih.2 hstep

/-- A drained relay: all connections have ended with nothing left to be sent or written, no record is left,
both counters are at zero and no source has a slot. -/
structure System.Drained (sys : System crates) : Prop where
  phases : ∀ conn ∈ sys.conns, conn.phase = .ended
  queues : sys.AtRest
  registry : ∀ peerId, sys.relay.registry.lookup peerId = none
  connected : sys.relay.connected = 0
  openConnections : sys.relay.openConnections = 0
  connsPerIp : ∀ key, sys.relay.abuse.connsPerIp.lookup key = none
  regsPerIp : ∀ key, sys.relay.abuse.regsPerIp.lookup key = none

/-- Once all connections of a reachable relay have ended, no source has a slot. -/
theorem slots_eq_none_of_ended (h : IsReachable setup sys)
    (hended : ∀ conn ∈ sys.conns, conn.phase = .ended) (key : IpKey) :
    sys.relay.abuse.connsPerIp.lookup key = none ∧ sys.relay.abuse.regsPerIp.lookup key = none := by
  obtain ⟨ops, s, hrun, htracks⟩ := exists_policyRun h
  obtain ⟨hconns, hregs⟩ := policyRun_weighed hrun
  have hheld (conn : Conn crates) (hmem : conn ∈ sys.conns) : conn.connsHeld = 0 ∧ conn.regsHeld = 0 :=
    held_of_ended (guarded_of_reachable h conn hmem) (hended conn hmem)
  have hnone {item : Conn crates → Multiset (IpAddr × Slot)} (hitem : ∀ conn ∈ sys.conns, item conn = 0) :
      poolItems (fun _ => item) 0 sys.conns = 0 := by
    refine Multiset.eq_zero_of_forall_notMem ?_
    intro slot hslot
    obtain ⟨i, conn, hconn, hmem⟩ := mem_poolItems.mp hslot
    rw [hitem conn (List.mem_of_getElem? hconn)] at hmem
    exact Multiset.notMem_zero slot hmem
  have hnoConns : s.conns = [] := by
    rw [← Multiset.coe_eq_zero, htracks.conns]
    exact hnone fun conn hmem => (hheld conn hmem).1
  have hnoRegs : s.regs = [] := by
    rw [← Multiset.coe_eq_zero, htracks.regs]
    exact hnone fun conn hmem => (hheld conn hmem).2
  rw [hnoConns, htracks.connsPerIp] at hconns
  rw [hnoRegs, htracks.regsPerIp] at hregs
  exact ⟨hconns.lookup_eq_none key, hregs.lookup_eq_none key⟩

/-- Once all connections of a reachable relay have ended, none is counted as open. -/
theorem openConnections_of_ended (h : IsReachable setup sys)
    (hended : ∀ conn ∈ sys.conns, conn.phase = .ended) : sys.relay.openConnections = 0 := by
  have hguards : liveGuards sys = 0 := by
    rw [liveGuards, Admission.tasksAt, poolTotal, List.sum_eq_zero_iff]
    intro n hmem
    simp only [System.admission, List.map_map, List.mem_map, Function.comp_apply] at hmem
    obtain ⟨conn, hconn, rfl⟩ := hmem
    rw [hended conn hconn]
    rfl
  rw [openConnections_eq h, hguards]
  rfl

/-- A reachable relay without records counts none. -/
theorem connected_of_no_record (h : IsReachable setup sys)
    (hregistry : ∀ peerId, sys.relay.registry.lookup peerId = none) : sys.relay.connected = 0 := by
  have hsize : sys.relay.registry.size = 0 := Table.size_eq_zero hregistry
  have hcounted := (counted_of_reachable h).1
  rw [hsize] at hcounted
  exact UInt64.toNat_inj.mp hcounted

/-- Clients go away from a relay that is drained. -/
theorem isDraining_of_isWithdrawal (h : label.isWithdrawal = true) : label.isDraining = true := by
  cases label <;> first | rfl | exact h

/-- From every state, clients that go away and a late sweep lead to one with all connections torn down, no
record left and nothing more to come. -/
theorem exists_tornDown_at_rest (setup : Setup) (sys : System crates) :
    ∃ more sys', Execution (Next setup) sys more sys' ∧ (∀ t ∈ more, t.2.1.isDraining = true) ∧
      sys'.TornDown ∧ ∀ label sys'', ¬Withdrawal setup sys' label sys'' := by
  have hnext (s : System crates) (label : Label crates) (s' : System crates)
      (h : Withdrawal setup s label s') : Next setup s label s' := h.2.2
  -- everyone goes away and the relay comes to rest
  obtain ⟨first, middle, hfirst, hmiddle⟩ := exists_execution_to_rest (wellFounded_withdrawal setup) sys
  have hdone : middle.pruned = [] := (isStill_of_no_withdrawal hmiddle).pruned
  -- what is left in the registry is removed by a sweep
  have hstep := sweepLocked_lookup_of_late setup middle
  generalize setup.config.livenessDeadline.asSecs + poolTotal Conn.lastActivity middle.conns + 1 = late at hstep
  have hsweep : Next setup middle (.sweep late) { middle with
      relay := (sweepLocked setup middle late).2
      pruned := (sweepLocked setup middle late).1 } := .step (by simp [step, hdone])
  have htorn : System.TornDown { middle with
      relay := (sweepLocked setup middle late).2
      pruned := (sweepLocked setup middle late).1 } := by
    refine ⟨?_, hstep⟩
    intro conn hmem
    obtain ⟨c, hconn⟩ := List.mem_iff_getElem?.mp hmem
    rcases phase_of_no_withdrawal hmiddle hconn with hphase | hwaits
    · rw [hphase]
      rfl
    · rw [hwaits.1]
      rfl
  -- the remaining tasks end
  obtain ⟨second, last, hsecond, hlast⟩ := exists_execution_to_rest (wellFounded_withdrawal setup)
    { middle with relay := (sweepLocked setup middle late).2, pruned := (sweepLocked setup middle late).1 }
  refine ⟨first ++ [_] ++ second, last, ((hfirst.mono hnext).snoc hsweep).append (hsecond.mono hnext), ?_, ?_, hlast⟩
  · intro t ht
    rcases List.mem_append.mp ht with hbefore | hafter
    · rcases List.mem_append.mp hbefore with hearly | hswept
      · exact isDraining_of_isWithdrawal (hfirst.mem_trace hearly).2.1
      · rw [List.mem_singleton.mp hswept]
        rfl
    · exact isDraining_of_isWithdrawal (hsecond.mem_trace hafter).2.1
  · refine Reachable.invariant System.TornDown htorn ?_ ⟨second, hsecond⟩
    intro s label s' _ hs hwithdrawal
    exact next_tornDown hs (isReaction_of_isWithdrawal hwithdrawal.1) hwithdrawal.2.2

/-- Every run can be continued by the relay's own moves, clients that go away and health sweeps until the
relay is drained. -/
theorem run_drains {trace : List (System crates × Label crates × System crates)}
    (hrun : Run setup trace sys) :
    ∃ more sys', Run setup (trace ++ more) sys' ∧ (∀ t ∈ more, t.2.1.isDraining = true) ∧
      sys'.Drained := by
  obtain ⟨more, last, hmore, hlabels, htorn, hrest⟩ := exists_tornDown_at_rest setup sys
  have hlater : Run setup (trace ++ more) last := hrun.append hmore
  have hended : ∀ conn ∈ last.conns, conn.phase = .ended := by
    intro conn hmem
    obtain ⟨c, hconn⟩ := List.mem_iff_getElem?.mp hmem
    rcases phase_of_no_withdrawal hrest hconn with hphase | ⟨-, peerId, peer, hpeer, -⟩
    · exact hphase
    · rw [htorn.registry peerId] at hpeer
      cases hpeer
  refine ⟨more, last, hlater, hlabels, hended, (isStill_of_no_withdrawal hrest).atRest, htorn.registry,
    connected_of_no_record ⟨_, hlater⟩ htorn.registry, openConnections_of_ended ⟨_, hlater⟩ hended, ?_, ?_⟩
  · intro key
    exact (slots_eq_none_of_ended ⟨_, hlater⟩ hended key).1
  · intro key
    exact (slots_eq_none_of_ended ⟨_, hlater⟩ hended key).2

/-- A relay with two registered peers can be drained. -/
theorem run_drains_two :
    ∃ trace sys, @Run silentCrates standardSetup trace sys ∧ sys.relay.connected = 2 ∧
      ∃ more sys', Run standardSetup (trace ++ more) sys' ∧ (∀ t ∈ more, t.2.1.isDraining = true) ∧
        sys'.Drained := by
  obtain ⟨trace, sys, hrun, hconnected⟩ := @exists_traced_run silentCrates standardSetup twoMessages
    (fun _ sys => sys.relay.connected = 2) (by decide +kernel)
  exact ⟨trace, sys, hrun, of_decide_eq_true hconnected, run_drains hrun⟩

end DigRelay
