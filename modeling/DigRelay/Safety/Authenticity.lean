import DigRelay.Safety.Ownership
import DigRelay.Server.Script

/-!
# Authenticity of the named sender

A forwarded message names its sender, and the dispatcher replaces whatever the client wrote by
the id of the connection's session. The session is local to the connection while the record is
shared, so the name is genuine only as long as the two agree. They agree along every run in
which no record is taken away from a connection that still acts under its id.
-/

namespace DigRelay

open Common

variable {crates : Crates} {setup : Setup} {sys sys' : System crates} {label : Label crates}
  {c : ConnId} {conn conn' : Conn crates} {peerId networkId : String}

/-- The transition is a registry lookup by connection `c` after which a message naming the id as
its sender is pending to another connection, routed on the network. -/
def Originates (sys : System crates) (label : Label crates) (sys' : System crates) (c : ConnId)
    (peerId networkId : String) : Prop :=
  ∃ clock conn conn' tx msg,
    label = .exec c clock ∧ sys.conns[c]? = some conn ∧ conn.outbox = [] ∧
      conn.session.networkId = some networkId ∧ sys'.conns[c]? = some conn' ∧
      .relay tx msg ∈ conn'.outbox ∧ tx ≠ c ∧ msg.originator = some peerId

/-- Whoever a transition names as a sender has a record of its own on the routing network. -/
def Authentic (sys : System crates) (label : Label crates) (sys' : System crates) : Prop :=
  ∀ c peerId networkId, Originates sys label sys' c peerId networkId →
    ∃ peer, sys.relay.registry.lookup peerId = some peer ∧ peer.tx = c ∧
      peer.networkId = networkId

/-- The transition is a sweep that removes an id some connection still acts under. -/
def PrunesClaimed (setup : Setup) (sys : System crates) (label : Label crates) : Prop :=
  ∃ now peerId c, label = .sweep now ∧ peerId ∈ victims setup sys now ∧ ActsAs sys c peerId

/-- A send to another connection that names the id as its sender. -/
def Send.names (c : ConnId) (peerId : String) : Send crates → Bool
  | .relay tx msg => tx ≠ c ∧ msg.originator = some peerId
  | .pex _ _ => false

/-- Origination by connection `c`, as a check on the states around its lookup. -/
def originates (sys sys' : System crates) (c : ConnId) (peerId networkId : String) : Bool :=
  (sys.conns[c]?.any fun conn =>
      conn.outbox.isEmpty && decide (conn.session.networkId = some networkId)) &&
    sys'.conns[c]?.any fun conn => conn.outbox.any (Send.names c peerId)

/-- The check finds only originations. -/
theorem originates_sound {clock : Clock} (h : originates sys sys' c peerId networkId = true) :
    Originates sys (.exec c clock) sys' c peerId networkId := by
  obtain ⟨hbefore, hafter⟩ := Bool.and_eq_true_iff.mp h
  obtain ⟨conn, hconn, hready⟩ := (Option.any_eq_true _ _).mp hbefore
  obtain ⟨conn', hconn', hpending⟩ := (Option.any_eq_true _ _).mp hafter
  obtain ⟨send, hsend, hnames⟩ := List.any_eq_true.mp hpending
  obtain ⟨houtbox, hnetwork⟩ := Bool.and_eq_true_iff.mp hready
  cases send with
  | relay tx msg =>
    obtain ⟨hother, horiginator⟩ : tx ≠ c ∧ msg.originator = some peerId := by
      simpa [Send.names] using hnames
    exact ⟨clock, conn, conn', tx, msg, rfl, hconn, List.isEmpty_iff.mp houtbox,
      of_decide_eq_true hnetwork, hconn', hsend, hother, horiginator⟩
  | pex tx msg => cases hnames

/-- Whether the transition surely takes no record from a connection acting under its id. -/
def keepsClaims (setup : Setup) (sys : System crates) : Label crates → Bool
  | .exec c _ =>
    match sys.conns[c]?.map Conn.phase with
    | some (.registerLocked request _) =>
      (List.range sys.conns.length).all fun d => d = c || !actsAs sys d request.peerId
    | _ => true
  | .sweep now =>
    (victims setup sys now).all fun peerId =>
      (List.range sys.conns.length).all fun d => !actsAs sys d peerId
  | _ => true

/-- The check passes only transitions that leave all claims alone. -/
theorem keepsClaims_sound (h : keepsClaims setup sys label = true) :
    ¬ AcceptsClaimed setup sys label ∧ ¬ PrunesClaimed setup sys label := by
  constructor
  · rintro ⟨c, clock, request, d, rfl, ⟨conn, slot, _, _, _, hconn, -, hphase, -⟩, hd, hactsAs⟩
    obtain ⟨hlt, hclaimed⟩ := actsAs_iff.mpr hactsAs
    simp only [keepsClaims, hconn, Option.map_some, hphase, List.all_eq_true] at h
    simpa [hd, hclaimed] using h d (List.mem_range.mpr hlt)
  · rintro ⟨now, peerId, d, rfl, hvictim, hactsAs⟩
    obtain ⟨hlt, hclaimed⟩ := actsAs_iff.mpr hactsAs
    simp only [keepsClaims, List.all_eq_true] at h
    simpa [hclaimed] using h peerId hvictim d (List.mem_range.mpr hlt)

/-- Only forwards and broadcasts leave a message naming a sender for another connection. -/
theorem access_originates {clock : Clock} {closed : ConnId → Bool} {relay relay' : Relay crates}
    {tx : ConnId} {msg : RelayMessage} (houtbox : conn.outbox = [])
    (h : access setup clock closed c relay conn = some (relay', conn'))
    (hsend : .relay tx msg ∈ conn'.outbox) (hother : tx ≠ c)
    (horiginator : msg.originator = some peerId) :
    (∃ target, conn.phase = .forwardTo target msg) ∨
      ∃ sender exclude, conn.phase = .broadcast sender exclude msg := by
  obtain ⟨phase, hphase, haccess⟩ := access_cases h
  rw [hphase]
  cases haccess with
  | intercepted =>
    unfold Conn.intercept at hsend
    split at hsend
    · simp [houtbox] at hsend
    · generalize dispatch conn.session _ = action at hsend
      cases action <;> simp [Conn.carryOut, houtbox, hother] at hsend
  | @forwarded target =>
    simp only [List.mem_singleton, Send.relay.injEq] at hsend
    rw [hsend.2]
    exact .inl ⟨target, rfl⟩
  | @broadcast sender _ exclude =>
    simp only [mem_toTargets] at hsend
    rw [hsend.1]
    exact .inr ⟨sender, exclude, rfl⟩
  | entered =>
    simp only [List.mem_cons, Send.relay.injEq, hother, false_and, mem_toTargets, false_or] at hsend
    rw [hsend.1] at horiginator
    cases horiginator
  | removed =>
    simp only [mem_toTargets] at hsend
    rw [hsend.1] at horiginator
    cases horiginator
  | _ => simp [commitAccess, handshakeAccess, houtbox, hother] at hsend

/-- Whoever originates a message acts under the id it names, on the routing network. -/
theorem seat_of_originates (hwf : sys.WellFormed) (h : Next setup sys label sys')
    (horiginates : Originates sys label sys' c peerId networkId) :
    sys.ledger.leases.claim c = some (peerId, networkId) := by
  obtain ⟨clock, conn, conn', tx, msg, rfl, hconn, houtbox, hnetwork, hconn', hsend, hother,
    horiginator⟩ := horiginates
  have hconnWf := hwf conn (List.mem_of_getElem? hconn)
  have hseat : conn.seat = some (peerId, networkId) := by
    cases h with
    | step h =>
      simp only [step, hconn, Option.bind_some] at h
      rcases execStep_some h with ⟨_, _, hpending, -⟩ | ⟨-, relay, after, haccess, rfl⟩
      · rw [houtbox] at hpending
        cases hpending
      · have hlt := (List.getElem?_eq_some_iff.mp hconn).1
        obtain rfl : after = conn' := by simpa [hlt] using hconn'
        rcases access_originates houtbox haccess hsend hother horiginator with
          ⟨target, hphase⟩ | ⟨sender, exclude, hphase⟩
        · obtain ⟨own, hown, hnone | hsame⟩ : ∃ own, conn.session.peerId = some own ∧
              (msg.originator = none ∨ msg.originator = some own) := by
            simpa [hphase] using hconnWf.phased
          · rw [hnone] at horiginator
            cases horiginator
          · obtain rfl := Option.some.inj (hsame.symm.trans horiginator)
            simp [Conn.seat, hphase, Session.seat, hown, hnetwork]
        · obtain ⟨hown, hsame⟩ : conn.session.peerId = some sender ∧ msg.originator = some sender := by
            simpa [hphase] using hconnWf.phased
          obtain rfl := Option.some.inj (hsame.symm.trans horiginator)
          simp [Conn.seat, hphase, Session.seat, hown, hnetwork]
  simp [Ledger.leases, Ledger.seat, ledger_entries_getElem? hconn, Conn.entry, hseat]

/-- Along a run that takes no record from a connection acting under its id, claims stay
backed. -/
theorem backed_of_run {trace : List (System crates × Label crates × System crates)}
    (hrun : Run setup trace sys)
    (hkept : ∀ t ∈ trace, ¬ AcceptsClaimed setup t.1 t.2.1 ∧ ¬ PrunesClaimed setup t.1 t.2.1) :
    ∀ t ∈ trace, t.1.ledger.leases.Backed := by
  refine (hrun.invariant_of_guard
    (fun sys label => ¬ AcceptsClaimed setup sys label ∧ ¬ PrunesClaimed setup sys label)
    (fun sys => sys.ledger.leases.Backed) hkept ?_ ?_).2
  · rintro i k v hclaim
    cases hclaim
  · intro s label s' hreach hguard hbacked hnext
    have hchange := next_leases (wellFormed_of_reachable hreach) hnext
    generalize s'.ledger.leases = leases at hchange
    cases hchange with
    | same => exact hbacked
    | @enter c clock request haccepts =>
      refine hbacked.enter _ fun d hd hclaims => hguard.1 ?_
      exact ⟨c, clock, request, d, rfl, haccepts, hd, claims_iff_actsAs.mp hclaims⟩
    | leave hclaims => exact hbacked.leave hclaims
    | quit => exact hbacked.quit _
    | evict now =>
      refine hbacked.evict fun d peerId hclaims => ?_
      by_contra hvictim
      exact hguard.2 ⟨now, peerId, d, rfl, by simpa using hvictim, claims_iff_actsAs.mp hclaims⟩

/-- In every run that accepts no registration under an id another connection acts under and
sweeps no id that a connection acts under, every sender named in a forwarded message has a
record of its own on the routing network. -/
theorem run_authentic {trace : List (System crates × Label crates × System crates)}
    (hrun : Run setup trace sys)
    (hkept : ∀ t ∈ trace, ¬ AcceptsClaimed setup t.1 t.2.1 ∧ ¬ PrunesClaimed setup t.1 t.2.1) :
    ∀ t ∈ trace, Authentic t.1 t.2.1 t.2.2 := by
  intro t ht c peerId networkId horiginates
  obtain ⟨hreach, hnext⟩ := hrun.mem_trace ht
  have hclaim := seat_of_originates (wellFormed_of_reachable hreach) hnext horiginates
  have hlease := backed_of_run hrun hkept t ht c peerId networkId hclaim
  obtain ⟨peer, hpeer, hsame⟩ := Option.map_eq_some_iff.mp hlease
  obtain ⟨htx, hnetwork⟩ := Lease.mk.injEq _ _ _ _ ▸ hsame
  exact ⟨peer, hpeer, htx, hnetwork⟩

/-- Two connections register and the first broadcasts to the second under its own id. -/
theorem run_authentic_broadcast :
    ∃ trace sys, @Run silentCrates standardSetup trace sys ∧
      (∃ t ∈ trace, Originates t.1 t.2.1 t.2.2 0 "p" "net") ∧
      ∀ t ∈ trace, Authentic t.1 t.2.1 t.2.2 := by
  obtain ⟨trace, sys, sys', hrun, hcheck, horiginates⟩ := @exists_checked_run silentCrates standardSetup
    (keepsClaims standardSetup)
    (Script.connect 0 0 ++ Script.register 0 "p" "net" 0 0 ++ Script.connect 1 0 ++ Script.register 1 "q" "net" 0 1 ++
      Script.send 0 (.broadcast "anyone" [7] []) 1 2)
    (.exec 0 (atSecond 1)) (fun sys sys' => originates sys sys' 0 "p" "net") (by decide)
  exact ⟨_, sys', hrun,
    ⟨_, List.mem_append_right _ (List.mem_singleton_self _), originates_sound horiginates⟩,
    run_authentic hrun fun t ht => keepsClaims_sound (hcheck t ht)⟩

/-- Connection 0 registers `p` and falls silent, a sweep prunes it while connection 1 keeps itself
alive, and connection 0 then broadcasts to connection 1 as `p`, which has no record. -/
theorem exists_run_not_authentic :
    ∃ trace sys, @Run silentCrates standardSetup trace sys ∧
      ∃ t ∈ trace, ¬ Authentic t.1 t.2.1 t.2.2 := by
  obtain ⟨trace, sys, sys', hrun, hunbacked⟩ := @exists_run_step silentCrates standardSetup
    (Script.connect 0 0 ++ Script.register 0 "p" "net" 0 0 ++ Script.connect 1 0 ++ Script.register 1 "q" "net" 0 1 ++
      Script.send 1 (.ping 0) 60 3 ++ [.sweep 91, .sweepExec, .sweepExec] ++
      Script.send 0 (.broadcast "anyone" [7] []) 100 2)
    (.exec 0 (atSecond 100))
    (fun sys sys' => originates sys sys' 0 "p" "net" && (sys.relay.registry.lookup "p").isNone)
    (by decide)
  obtain ⟨horiginates, hgone⟩ := Bool.and_eq_true_iff.mp hunbacked
  refine ⟨_, sys', hrun, _, List.mem_append_right _ (List.mem_singleton_self _), fun hauthentic => ?_⟩
  obtain ⟨peer, hpeer, -⟩ := hauthentic 0 "p" "net" (originates_sound horiginates)
  rw [hpeer] at hgone
  cases hgone

end DigRelay
