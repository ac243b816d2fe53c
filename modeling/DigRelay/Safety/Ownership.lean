import DigRelay.Server.Occupancy
import DigRelay.Server.Script

/-!
# Ownership of registry records

A record belongs to the connection whose channel it holds, which is the connection that
entered it. While that channel is open, the record should only be removed by its owner's
teardown or by a sweep that finds it silent. Registrations and sweeps keep to this. A teardown
does not look at the channel: it removes whatever record stands under its session's id, which
may by then be another connection's.
-/

namespace DigRelay

open Common

variable {crates : Crates} {setup : Setup} {sys sys' : System crates} {label : Label crates}

/-- The transition is the registry access of a connection's teardown. -/
def TearsDown (sys : System crates) (label : Label crates) (c : ConnId) (conn : Conn crates) :
    Prop :=
  (∃ clock, label = .exec c clock) ∧ sys.conns[c]? = some conn ∧ conn.outbox = [] ∧
    conn.phase = .deregister

/-- The transition removes or replaces a record with an open channel only as its owner's
teardown or as a sweep that finds the record silent past the deadline. -/
def RespectsOwnership (setup : Setup) (sys : System crates) (label : Label crates)
    (sys' : System crates) : Prop :=
  ∀ peerId peer, sys.relay.registry.lookup peerId = some peer →
    isClosed sys.conns peer.tx = false →
      sys'.relay.registry.lookup peerId = some peer ∨
        (∃ conn, TearsDown sys label peer.tx conn) ∨
        ∃ now, label = .sweep now ∧
          now - activity sys.conns peer.lastActivity > setup.config.livenessDeadline.asSecs

/-- The transition is a teardown that finds, under its session's id, a record which another
connection entered and whose channel is open. -/
def TearsDownForeign (sys : System crates) (label : Label crates) : Prop :=
  ∃ c conn peerId networkId peer,
    TearsDown sys label c conn ∧ conn.session.seat = some (peerId, networkId) ∧
      sys.relay.registry.lookup peerId = some peer ∧ peer.tx ≠ c ∧
      isClosed sys.conns peer.tx = false

/-- A teardown with a record under its session's id removes that record. -/
theorem tearsDown_erases {c : ConnId} {conn : Conn crates} {peerId networkId : String} {peer : Peer}
    (hteardown : TearsDown sys label c conn)
    (hseat : conn.session.seat = some (peerId, networkId))
    (hpeer : sys.relay.registry.lookup peerId = some peer) (h : Next setup sys label sys') :
    sys'.relay.registry = sys.relay.registry.erase peerId := by
  obtain ⟨⟨clock, rfl⟩, hconn, houtbox, hphase⟩ := hteardown
  simp only [Session.seat, Option.bind_eq_some_iff, Option.map_eq_some_iff, Prod.mk.injEq] at hseat
  obtain ⟨_, hpeerId, _, hnetworkId, rfl, rfl⟩ := hseat
  cases h with
  | step h =>
    simp only [step, hconn, Option.bind_some, execStep, houtbox, access, hphase, deregisterAccess,
      hpeerId, hnetworkId, removeLocked, Registry.unregister, hpeer, Option.map_some,
      Option.some.injEq] at h
    rw [← h]

/-- An accepted registration leaves every record with an open channel in place. -/
theorem lookup_of_accepted {c : ConnId} {conn : Conn crates} {clock : Clock}
    {request : RegisterRequest} {connectedPeers : ℕ} {targets : List (String × ConnId)}
    {relay : Relay crates} {peerId : String} {peer : Peer}
    (hverdict : registerVerdict setup.config (isClosed sys.conns) sys.relay request conn.identity
      conn.addr clock.unix c = .accepted connectedPeers targets relay)
    (hpeer : sys.relay.registry.lookup peerId = some peer)
    (hopen : isClosed sys.conns peer.tx = false) : relay.registry.lookup peerId = some peer := by
  obtain ⟨-, -, -, -, hfree⟩ := registerVerdict_accepted hverdict
  rw [lookup_of_registerVerdict hverdict]
  split
  · rename_i hsame
    rw [← hsame, hpeer] at hfree
    rcases hfree with ⟨hnone, -⟩ | ⟨⟨existing, hexisting, hclosed⟩, -⟩
    · cases hnone
    · rw [← Option.some.inj hexisting, hopen] at hclosed
      cases hclosed
  · exact hpeer

/-- A transition respects ownership exactly when it does not tear down a foreign record. -/
theorem respectsOwnership_iff (hwf : sys.WellFormed) (h : Next setup sys label sys') :
    RespectsOwnership setup sys label sys' ↔ ¬ TearsDownForeign sys label := by
  constructor
  · rintro hrespects ⟨c, conn, peerId, networkId, peer, hteardown, hseat, hpeer, hforeign, hopen⟩
    have herased := tearsDown_erases hteardown hseat hpeer h
    obtain ⟨⟨clock, rfl⟩, -, -, -⟩ := hteardown
    rcases hrespects peerId peer hpeer hopen with hkept | ⟨_, ⟨_, hlabel⟩, -⟩ | ⟨_, hlabel, -⟩
    · rw [herased, Table.lookup_erase_eq, if_pos rfl] at hkept
      cases hkept
    · exact hforeign (Label.exec.inj hlabel).1.symm
    · cases hlabel
  · intro hnone peerId peer hpeer hopen
    have hchange := next_change hwf h
    change sys'.ledger.registry.lookup peerId = some peer ∨ _
    generalize sys'.ledger = ledger at hchange
    cases hchange with
    | entered hconn houtbox hphase hverdict =>
      exact .inl (lookup_of_accepted hverdict hpeer hopen)
    | @removed c clock conn id networkId existing hconn houtbox hphase hseat hexisting =>
      by_cases hsame : peerId = id
      · subst hsame
        obtain rfl := Option.some.inj (hpeer.symm.trans hexisting)
        by_cases hown : peer.tx = c
        · exact .inr (.inl ⟨conn, ⟨clock, by rw [hown]⟩, by rw [hown]; exact hconn, houtbox, hphase⟩)
        · exact absurd ⟨c, conn, peerId, networkId, peer, ⟨⟨clock, rfl⟩, hconn, houtbox, hphase⟩,
            hseat, hpeer, hown, hopen⟩ hnone
      · refine .inl ?_
        simp only [Table.lookup_erase_eq, if_neg hsame]
        exact hpeer
    | swept now =>
      by_cases hvictim : peerId ∈ victims setup sys now
      · exact .inr (.inr ⟨now, rfl, silent_of_victim hvictim hpeer hopen⟩)
      · refine .inl ?_
        simp only [sweepLocked_lookup, if_neg hvictim]
        exact hpeer
    | rehashed hrehash => exact .inl ((hrehash.lookup_eq peerId).symm.trans hpeer)
    | _ => exact .inl hpeer

/-- The transition accepts a registration under an id that another connection acts under. -/
def AcceptsClaimed (setup : Setup) (sys : System crates) (label : Label crates) : Prop :=
  ∃ c clock request d, label = .exec c clock ∧ Accepts setup sys c clock request ∧ d ≠ c ∧
    ActsAs sys d request.peerId

/-- Along a run that accepts no registration under a claimed id, claims stay exclusive. -/
theorem exclusive_of_run {trace : List (System crates × Label crates × System crates)}
    (hrun : Run setup trace sys) (haccepts : ∀ t ∈ trace, ¬ AcceptsClaimed setup t.1 t.2.1) :
    ∀ t ∈ trace, t.1.ledger.leases.Exclusive := by
  refine (hrun.invariant_of_guard (fun sys label => ¬ AcceptsClaimed setup sys label)
    (fun sys => sys.ledger.leases.Exclusive) haccepts ?_ ?_).2
  · rintro i k lease ⟨v, hclaim⟩
    cases hclaim
  · intro s label s' hreach hguard hexclusive hnext
    have hchange := next_leases (wellFormed_of_reachable hreach) hnext
    generalize s'.ledger.leases = leases at hchange
    cases hchange with
    | same => exact hexclusive
    | @enter c clock request haccepts =>
      refine hexclusive.enter _ fun d hd hclaims => hguard ?_
      exact ⟨c, clock, request, d, rfl, haccepts, hd, claims_iff_actsAs.mp hclaims⟩
    | leave => exact hexclusive.leave _ _
    | quit => exact hexclusive.quit _
    | evict => exact hexclusive.evict _

/-- With exclusive claims a teardown finds only its own record. -/
theorem not_tearsDownForeign_of_exclusive (h : sys.ledger.leases.Exclusive) :
    ¬ TearsDownForeign sys label := by
  rintro ⟨c, conn, peerId, networkId, peer, ⟨-, hconn, -, hphase⟩, hseat, hpeer, hforeign, -⟩
  have hclaims := claims_of_deregister hconn hphase hseat
  have hlease : sys.ledger.leases.table peerId = some ⟨peer.tx, peer.networkId⟩ :=
    congrArg (Option.map _) hpeer
  exact hforeign (h c peerId _ hclaims hlease)

/-- A run respects ownership throughout exactly when none of its teardowns finds a foreign open
record under its session's id. This is so in particular when no registration is accepted under
an id that another connection still acts under. -/
theorem run_respectsOwnership_iff
    {trace : List (System crates × Label crates × System crates)} (hrun : Run setup trace sys) :
    ((∀ t ∈ trace, RespectsOwnership setup t.1 t.2.1 t.2.2) ↔
        ∀ t ∈ trace, ¬ TearsDownForeign t.1 t.2.1) ∧
      ((∀ t ∈ trace, ¬ AcceptsClaimed setup t.1 t.2.1) →
        ∀ t ∈ trace, RespectsOwnership setup t.1 t.2.1 t.2.2) := by
  have hstep : ∀ t ∈ trace,
      (RespectsOwnership setup t.1 t.2.1 t.2.2 ↔ ¬ TearsDownForeign t.1 t.2.1) := by
    intro t ht
    obtain ⟨hreach, hnext⟩ := hrun.mem_trace ht
    exact respectsOwnership_iff (wellFormed_of_reachable hreach) hnext
  refine ⟨forall₂_congr hstep, fun haccepts t ht => (hstep t ht).mpr ?_⟩
  exact not_tearsDownForeign_of_exclusive (exclusive_of_run hrun haccepts t ht)

/-- Whether a transition is a teardown that finds a foreign open record, as a check. -/
def tearsDownForeign (sys : System crates) : Label crates → Bool
  | .exec c _ => sys.conns[c]?.any fun conn =>
    (conn.phase matches .deregister) && conn.session.seat.any fun seat =>
      (sys.relay.registry.lookup seat.1).any fun peer => peer.tx ≠ c && !isClosed sys.conns peer.tx
  | _ => false

/-- A transition that passes the check tears down no foreign record. -/
theorem tearsDownForeign_sound (h : tearsDownForeign sys label = false) : ¬ TearsDownForeign sys label := by
  rintro ⟨c, conn, peerId, networkId, peer, ⟨⟨clock, rfl⟩, hconn, -, hphase⟩, hseat, hpeer, hforeign, hopen⟩
  simp [tearsDownForeign, hconn, hphase, hseat, hpeer, hforeign, hopen] at h

/-- Two connections register on one network and one of them hangs up: its teardown removes its own record
and leaves the other one. -/
theorem run_respectsOwnership_own_teardown :
    ∃ trace sys, @Run silentCrates standardSetup trace sys ∧
      (∃ t ∈ trace, t.1.relay.registry.size = 2 ∧ t.2.2.relay.registry.size = 1) ∧
      (∃ peer, sys.relay.registry.lookup "q" = some peer) ∧
      ∀ t ∈ trace, RespectsOwnership standardSetup t.1 t.2.1 t.2.2 := by
  obtain ⟨trace, sys, sys', hrun, hcheck, hends⟩ := @exists_checked_run silentCrates standardSetup
    (fun sys label => !tearsDownForeign sys label)
    (Script.connect 0 0 ++ Script.register 0 "p" "net" 0 0 ++ Script.connect 1 0 ++
      Script.register 1 "q" "net" 0 1 ++ [.hangup 0])
    (.exec 0 (atSecond 1))
    (fun sys sys' => (sys.relay.registry.size = 2 ∧ sys'.relay.registry.size = 1) ∧
      (sys'.relay.registry.lookup "q").isSome) (by decide)
  obtain ⟨hsizes, hkept⟩ := of_decide_eq_true hends
  refine ⟨_, sys', hrun, ⟨_, List.mem_append_right _ (List.mem_singleton_self _), hsizes⟩,
    Option.isSome_iff_exists.mp hkept, ?_⟩
  exact (run_respectsOwnership_iff hrun).1.mpr fun t ht =>
    tearsDownForeign_sound (by simpa using hcheck t ht)

/-- Connection 0 registers `p`, falls silent and is pruned; connection 1 registers `p`; then the
idle timeout tears connection 0 down and removes the open record of connection 1. -/
theorem exists_run_not_respectsOwnership :
    ∃ trace sys, @Run silentCrates standardSetup trace sys ∧
      ∃ t ∈ trace, ¬ RespectsOwnership standardSetup t.1 t.2.1 t.2.2 := by
  obtain ⟨trace, sys, sys', hrun, hremoved⟩ := @exists_run_step silentCrates standardSetup
    (Script.connect 0 0 ++ Script.register 0 "p" "net" 0 0 ++ [.sweep 91, .sweepExec] ++
      Script.connect 1 100 ++ Script.register 1 "p" "net" 100 0 ++ [.hangup 0])
    (.exec 0 (atSecond 120))
    (fun sys sys' =>
      ((sys.relay.registry.lookup "p").map Peer.tx = some 1 ∧ isClosed sys.conns 1 = false) ∧
        sys'.relay.registry.lookup "p" = none)
    (by decide)
  obtain ⟨⟨howner, hopen⟩, hgone⟩ := of_decide_eq_true hremoved
  obtain ⟨peer, hpeer, htx⟩ := Option.map_eq_some_iff.mp howner
  refine ⟨_, sys', hrun, _, List.mem_append_right _ (List.mem_singleton_self _), fun hrespects => ?_⟩
  rcases hrespects "p" peer hpeer (htx ▸ hopen) with hkept | ⟨_, ⟨_, hlabel⟩, -⟩ | ⟨_, hlabel, -⟩
  · rw [hgone] at hkept
    cases hkept
  · have hzero : 0 = peer.tx := (Label.exec.inj hlabel).1
    exact absurd (hzero.trans htx) (by decide)
  · cases hlabel

end DigRelay
