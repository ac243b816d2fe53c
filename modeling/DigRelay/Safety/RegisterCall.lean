import DigRelay.Limiters
import DigRelay.Server.Call
import DigRelay.Server.Script

/-!
# What a registration call comes to

A registration passes five checks in order. The first that fails decides the refusal: the requester
is told twice, the checks on the source count a strike, and nothing else is left of the call. The
check for capacity comes before the registry is asked whether the id may be reclaimed, so a dead
record is replaced only while the registry is not full, although a reclaim adds no record.
-/

namespace DigRelay

open Common

variable {crates : Crates} {setup : Setup} {sys sys' : System crates} {c : ConnId}
  {conn conn' : Conn crates} {readings : ℕ → Clock} {request : RegisterRequest}

/-- The checks of a registration. -/
inductive Check
  | rate
  | cap
  | identity
  | capacity
  | incumbent
  deriving DecidableEq

/-- A check fails in the state in which the call begins, with the source's rate asked at a time. -/
def Check.fails (setup : Setup) (sys : System crates) (conn : Conn crates) (request : RegisterRequest)
    (nowMs : ℕ) : Check → Bool
  | .rate => !(sys.relay.abuse.allowRegistration setup.config conn.addr.ip nowMs).1
  | .cap => (sys.relay.abuse.tryAcquireRegistration setup.config conn.addr.ip).isNone
  | .identity => conn.identity.any fun verified => verified ≠ request.peerId
  | .capacity => setup.config.maxConnections.toNat ≤ sys.relay.registry.size
  | .incumbent =>
    (sys.relay.registry.lookup request.peerId).any fun existing => !isClosed sys.conns existing.tx

/-- The first check that fails. -/
def firstFailing (setup : Setup) (sys : System crates) (conn : Conn crates)
    (request : RegisterRequest) (nowMs : ℕ) : Option Check :=
  [Check.rate, .cap, .identity, .capacity, .incumbent].find? fun check =>
    check.fails setup sys conn request nowMs

/-- The error code of a failed check. -/
def Check.code : Check → UInt32
  | .rate => ErrCode.rateLimited
  | .cap => ErrCode.rateLimited
  | .identity => ErrCode.identityMismatch
  | .capacity => ErrCode.capacity
  | .incumbent => ErrCode.idInUse

/-- The checks on the source of a connection. -/
def Check.isOnSource : Check → Bool
  | .rate | .cap => true
  | _ => false

/-- What a refused registration leaves behind: the shared state but for the abuse limits and all
other tasks are as before, the requester has been told twice, no registration is counted for it, and
a strike is recorded exactly if the check was on the source. -/
structure RefusedBy (setup : Setup) (check : Check) (c : ConnId) (conn : Conn crates)
    (sys sys' : System crates) : Prop where
  relay : sys'.relay = { sys.relay with abuse := sys'.relay.abuse }
  others : ∀ d, d ≠ c → sys'.conns[d]? = sys.conns[d]?
  requester : ∃ message connectedPeers,
    let replies := [.registerAck false message connectedPeers, .error check.code message]
    sys'.conns[c]? = some { conn with out := conn.out.sendAll replies, phase := .deregister } ∧
      (conn.out.closed = false → conn.out.queue.length + 2 ≤ conn.out.capacity →
        (conn.out.sendAll replies).queue = conn.out.queue ++ replies)
  counts : ∀ key, (sys'.relay.abuse.regsPerIp.lookup key).getD 0 =
    (sys.relay.abuse.regsPerIp.lookup key).getD 0
  struck : check.isOnSource = true → ∃ nowMs,
    let after := sys.relay.abuse.recordStrike setup.config conn.addr.ip nowMs
    sys'.relay.abuse.strikes = after.strikes ∧ sys'.relay.abuse.bans = after.bans
  notStruck : check.isOnSource = false →
    sys'.relay.abuse.strikes = sys.relay.abuse.strikes ∧
      sys'.relay.abuse.bans = sys.relay.abuse.bans

/-- A move that refuses touches the abuse limits and the requester's own channel. -/
theorem refusedBy_of_move {check : Check} {abuse : AbuseState} {message : String}
    {connectedPeers : ℕ} (hconn : sys.conns[c]? = some conn)
    (hcounts : ∀ key, (abuse.regsPerIp.lookup key).getD 0 =
      (sys.relay.abuse.regsPerIp.lookup key).getD 0)
    (hstruck : check.isOnSource = true → ∃ nowMs,
      let after := sys.relay.abuse.recordStrike setup.config conn.addr.ip nowMs
      abuse.strikes = after.strikes ∧ abuse.bans = after.bans)
    (hnotStruck : check.isOnSource = false →
      abuse.strikes = sys.relay.abuse.strikes ∧ abuse.bans = sys.relay.abuse.bans) :
    RefusedBy setup check c conn sys
      (sys.move { sys.relay with abuse } c
        { conn with
          out := conn.out.sendAll (refusal check.code message connectedPeers)
          phase := .deregister }) where
  relay := rfl
  others d hd := List.getElem?_set_ne (Ne.symm hd)
  requester := by
    refine ⟨message, connectedPeers, move_getElem? hconn _ _, fun hopen hroom => ?_⟩
    have hqueued := @Channel.sendAll_of_room _ conn.out (refusal check.code message connectedPeers)
      hopen hroom
    exact congrArg Channel.queue hqueued
  counts := hcounts
  struck := hstruck
  notStruck := hnotStruck

/-- A spent registration token is the only thing a rate check leaves. -/
theorem allowRegistration_frame (config : RelayServerConfig) (state : AbuseState) (ip : IpAddr)
    (nowMs : ℕ) :
    (state.allowRegistration config ip nowMs).2 =
      { state with regBuckets := (state.allowRegistration config ip nowMs).2.regBuckets } := by
  dsimp only [AbuseState.allowRegistration]
  split <;> rfl

/-- A strike does not depend on the registration tokens. -/
theorem recordStrike_regBuckets (config : RelayServerConfig) (state : AbuseState) (ip : IpAddr)
    (nowMs : ℕ) (regBuckets : Table IpKey TokenBucket) :
    { state with regBuckets }.recordStrike config ip nowMs =
      { state.recordStrike config ip nowMs with regBuckets } := by
  dsimp only [AbuseState.recordStrike]
  split
  · rfl
  · split <;> rfl

/-- The cap on registrations does not depend on the registration tokens. -/
theorem tryAcquireRegistration_allowed (config : RelayServerConfig) (state : AbuseState) (ip : IpAddr)
    (nowMs : ℕ) :
    (state.allowRegistration config ip nowMs).2.tryAcquireRegistration config ip =
      (tryAcquire state.regsPerIp config.maxRegistrationsPerIp ip).map fun (slot, counts) =>
        (slot, { (state.allowRegistration config ip nowMs).2 with regsPerIp := counts }) := by
  rw [AbuseState.tryAcquireRegistration, AbuseState.allowRegistration_regsPerIp]

/-- A refusal that spends a token of the source and records one strike. -/
theorem refusedBy_of_strike {check : Check} {message : String} {connectedPeers rateMs nowMs : ℕ}
    (hconn : sys.conns[c]? = some conn) (hsource : check.isOnSource = true) :
    RefusedBy setup check c conn sys
      (sys.move
        { sys.relay with
          abuse := (sys.relay.abuse.allowRegistration setup.config conn.addr.ip rateMs).2.recordStrike
            setup.config conn.addr.ip nowMs }
        c { conn with
          out := conn.out.sendAll (refusal check.code message connectedPeers)
          phase := .deregister }) := by
  refine refusedBy_of_move hconn (fun key => by simp) (fun _ => ⟨nowMs, ?_⟩) fun hnot => ?_
  · have hstrike := recordStrike_regBuckets setup.config sys.relay.abuse conn.addr.ip nowMs
      (sys.relay.abuse.allowRegistration setup.config conn.addr.ip rateMs).2.regBuckets
    rw [← allowRegistration_frame] at hstrike
    rw [hstrike]
    exact ⟨rfl, rfl⟩
  · rw [hsource] at hnot
    cases hnot

section

variable {relay : Relay crates} (hregistry : relay.registry = sys.relay.registry) (nowMs unix : ℕ)

include hregistry

/-- The critical section refuses an id other than the verified one. -/
theorem registerVerdict_of_identity
    (hidentity : Check.identity.fails setup sys conn request nowMs = true) :
    registerVerdict setup.config (isClosed sys.conns) relay request conn.identity conn.addr unix c =
      .refused (identityRefusal sys.relay.registry.size) := by
  rw [← hregistry]
  exact if_pos hidentity

variable (hidentity : Check.identity.fails setup sys conn request nowMs = false)

include hidentity

/-- The critical section refuses when the registry is full. -/
theorem registerVerdict_of_capacity
    (hcapacity : Check.capacity.fails setup sys conn request nowMs = true) :
    registerVerdict setup.config (isClosed sys.conns) relay request conn.identity conn.addr unix c =
      .refused (capacityRefusal sys.relay.registry.size) := by
  rw [← hregistry]
  refine (if_neg (Bool.eq_false_iff.mp hidentity)).trans (if_pos ?_)
  rw [hregistry]
  exact of_decide_eq_true hcapacity

variable (hcapacity : Check.capacity.fails setup sys conn request nowMs = false)

include hcapacity

/-- With a verified id and room in the registry, the registry decides. -/
theorem registerVerdict_of_room :
    registerVerdict setup.config (isClosed sys.conns) relay request conn.identity conn.addr unix c =
      match relay.registry.register (isClosed sys.conns) request.peerId
          (registrant crates request conn.addr unix c) with
      | (.occupied, reg) => .refused (occupiedRefusal reg.size)
      | (.reconnected, reg) =>
        .accepted reg.size (reg.broadcastTargets request.peerId request.networkId [])
          { relay with registry := reg }
      | (.registered, reg) =>
        .accepted reg.size (reg.broadcastTargets request.peerId request.networkId [])
          { relay with registry := reg, connected := relay.connected + 1 } := by
  refine (if_neg (Bool.eq_false_iff.mp hidentity)).trans (if_neg ?_)
  rw [hregistry]
  exact of_decide_eq_false hcapacity

/-- The critical section refuses an id that an open connection holds. -/
theorem registerVerdict_of_incumbent
    (hincumbent : Check.incumbent.fails setup sys conn request nowMs = true) :
    registerVerdict setup.config (isClosed sys.conns) relay request conn.identity conn.addr unix c =
      .refused (occupiedRefusal sys.relay.registry.size) := by
  obtain ⟨existing, hlookup, hopen⟩ := (Option.any_eq_true _ _).mp hincumbent
  rw [registerVerdict_of_room hregistry nowMs unix hidentity hcapacity, Registry.register, hregistry,
    hlookup]
  simp only [Bool.not_eq_true'] at hopen
  simp [hopen]

/-- The critical section accepts an id that no open connection holds. -/
theorem registerVerdict_of_passed
    (hincumbent : Check.incumbent.fails setup sys conn request nowMs = false) :
    ∃ connectedPeers targets relay',
      registerVerdict setup.config (isClosed sys.conns) relay request conn.identity conn.addr unix c =
        .accepted connectedPeers targets relay' := by
  rw [registerVerdict_of_room hregistry nowMs unix hidentity hcapacity, Registry.register, hregistry]
  cases hlookup : sys.relay.registry.lookup request.peerId with
  | none => exact ⟨_, _, _, rfl⟩
  | some existing =>
    have hclosed : isClosed sys.conns existing.tx = true := by
      simpa [Check.fails, hlookup] using hincumbent
    simp [hclosed]

end

section

variable (hconn : sys.conns[c]? = some conn) (hcalls : conn.Calls request)

include hconn hcalls

/-- A registration over the rate of its source. -/
theorem refusedBy_rate
    (hrate : Check.rate.fails setup sys conn request (readings 1).ms = true) :
    ∃ returned, RefusedBy setup .rate c conn sys returned ∧
      ∀ sys', CallReturns setup c readings sys sys' ↔ sys' = returned := by
  let spent := (sys.relay.abuse.allowRegistration setup.config conn.addr.ip (readings 1).ms).2
  have hdenied : (sys.relay.abuse.allowRegistration setup.config conn.addr.ip (readings 1).ms).1 =
      false := by simpa [Check.fails] using hrate
  have hreturns (sys' : System crates) : CallReturns setup c readings sys sys' ↔
      sys' = sys.move
        { sys.relay with
          abuse := spent.recordStrike setup.config conn.addr.ip (readings 2).ms }
        c { conn with
          out := conn.out.sendAll (rateRefusal sys.relay.connected.toNat)
          phase := .deregister } := by
    refine (callReturns_iff_of_load hconn hcalls.outbox hcalls.phase).trans ?_
    rw [hdenied, if_neg Bool.false_ne_true]
    exact callReturns_iff_of_strike hconn hcalls.outbox _
  exact ⟨_, refusedBy_of_strike hconn rfl, hreturns⟩

/-- A registration within the rate of its source goes on to the cap. -/
theorem callReturns_iff_of_allowed
    (hrate : Check.rate.fails setup sys conn request (readings 1).ms = false) :
    let rate := sys.relay.abuse.allowRegistration setup.config conn.addr.ip (readings 1).ms
    CallReturns setup c readings sys sys' ↔
      CallReturns setup c (fun n => readings (n + 2))
        (sys.move { sys.relay with abuse := rate.2 } c
          { conn with phase := .registerCap request sys.relay.connected.toNat }) sys' := by
  intro rate
  have hallowed : rate.1 = true := by simpa [Check.fails] using hrate
  refine (callReturns_iff_of_load hconn hcalls.outbox hcalls.phase).trans ?_
  rw [if_pos hallowed]

/-- A registration of a source that holds as many as it may. -/
theorem refusedBy_cap
    (hrate : Check.rate.fails setup sys conn request (readings 1).ms = false)
    (hcap : Check.cap.fails setup sys conn request (readings 1).ms = true) :
    ∃ returned, RefusedBy setup .cap c conn sys returned ∧
      ∀ sys', CallReturns setup c readings sys sys' ↔ sys' = returned := by
  let spent := (sys.relay.abuse.allowRegistration setup.config conn.addr.ip (readings 1).ms).2
  have hslot : spent.tryAcquireRegistration setup.config conn.addr.ip = none := by
    have hnone : tryAcquire sys.relay.abuse.regsPerIp setup.config.maxRegistrationsPerIp
        conn.addr.ip = none := by
      simpa [Check.fails, AbuseState.tryAcquireRegistration] using hcap
    rw [tryAcquireRegistration_allowed, hnone]
    rfl
  have hreturns (sys' : System crates) : CallReturns setup c readings sys sys' ↔
      sys' = sys.move
        { sys.relay with
          abuse := spent.recordStrike setup.config conn.addr.ip (readings 3).ms }
        c { conn with
          out := conn.out.sendAll (capRefusal sys.relay.connected.toNat)
          phase := .deregister } := by
    refine (callReturns_iff_of_allowed hconn hcalls hrate).trans ?_
    refine (callReturns_iff_of_not_reserved hconn hcalls.outbox hslot).trans ?_
    exact callReturns_iff_of_strike hconn hcalls.outbox _
  exact ⟨_, refusedBy_of_strike hconn rfl, hreturns⟩

/-- A registration that holds a slot comes to the registry with no other trace than the slot and the
spent token. -/
theorem exists_callReturns_iff_of_reserved
    (hrate : Check.rate.fails setup sys conn request (readings 1).ms = false)
    (hcap : Check.cap.fails setup sys conn request (readings 1).ms = false) :
    ∃ slot abuse, abuse.strikes = sys.relay.abuse.strikes ∧ abuse.bans = sys.relay.abuse.bans ∧
      (∀ key, ((abuse.dropReg slot).regsPerIp.lookup key).getD 0 =
        (sys.relay.abuse.regsPerIp.lookup key).getD 0) ∧
      ∀ sys', CallReturns setup c readings sys sys' ↔
        CallReturns setup c (fun n => readings (n + 3))
          (sys.move { sys.relay with abuse } c { conn with phase := .registerLocked request slot })
          sys' := by
  let spent := (sys.relay.abuse.allowRegistration setup.config conn.addr.ip (readings 1).ms).2
  obtain ⟨⟨slot, counts⟩, hslot⟩ : ∃ reserved, tryAcquire sys.relay.abuse.regsPerIp
      setup.config.maxRegistrationsPerIp conn.addr.ip = some reserved := by
    apply Option.ne_none_iff_exists'.mp
    intro hnone
    simp [Check.fails, AbuseState.tryAcquireRegistration, hnone] at hcap
  have hreserved : spent.tryAcquireRegistration setup.config conn.addr.ip =
      some (slot, { spent with regsPerIp := counts }) := by
    rw [tryAcquireRegistration_allowed, hslot]
    rfl
  obtain ⟨-, -, hcounts⟩ := tryAcquire_some hslot
  have hstrikes : spent.strikes = sys.relay.abuse.strikes := by
    dsimp only [spent]
    rw [allowRegistration_frame]
  have hbans : spent.bans = sys.relay.abuse.bans := by
    dsimp only [spent]
    rw [allowRegistration_frame]
  refine ⟨slot, { spent with regsPerIp := counts }, hstrikes, hbans, fun key => ?_, fun sys' => ?_⟩
  · dsimp only [AbuseState.dropReg]
    rw [dropSlot_count, hcounts]
    omega
  · refine (callReturns_iff_of_allowed hconn hcalls hrate).trans ?_
    exact callReturns_iff_of_reserved hconn hcalls.outbox hreserved

/-- A registration that the registry refuses. -/
theorem refusedBy_locked {check : Check} (hsource : check.isOnSource = false)
    (hrate : Check.rate.fails setup sys conn request (readings 1).ms = false)
    (hcap : Check.cap.fails setup sys conn request (readings 1).ms = false) {message : String}
    {connectedPeers : ℕ}
    (hverdict : ∀ relay : Relay crates, relay.registry = sys.relay.registry →
      registerVerdict setup.config (isClosed sys.conns) relay request conn.identity conn.addr
        (readings 3).unix c = .refused (refusal check.code message connectedPeers)) :
    ∃ returned, RefusedBy setup check c conn sys returned ∧
      ∀ sys', CallReturns setup c readings sys sys' ↔ sys' = returned := by
  obtain ⟨slot, abuse, hstrikes, hbans, hcounts, hreturns⟩ :=
    exists_callReturns_iff_of_reserved hconn hcalls hrate hcap
  refine ⟨_, ?_, fun sys' => (hreturns sys').trans
    (callReturns_iff_of_refused hconn hcalls.outbox (hverdict { sys.relay with abuse } rfl))⟩
  refine refusedBy_of_move hconn hcounts (fun hnot => ?_) fun _ => ⟨hstrikes, hbans⟩
  rw [hsource] at hnot
  cases hnot

/-- A registration that some check refuses returns refused by the first such check. -/
theorem exists_refusedBy {check : Check}
    (hfirst : firstFailing setup sys conn request (readings 1).ms = some check) :
    ∃ returned, RefusedBy setup check c conn sys returned ∧
      ∀ sys', CallReturns setup c readings sys sys' ↔ sys' = returned := by
  unfold firstFailing at hfirst
  cases hrate : Check.rate.fails setup sys conn request (readings 1).ms with
  | true =>
    obtain rfl : Check.rate = check := by simpa [hrate] using hfirst
    exact refusedBy_rate hconn hcalls hrate
  | false =>
  cases hcap : Check.cap.fails setup sys conn request (readings 1).ms with
  | true =>
    obtain rfl : Check.cap = check := by simpa [hrate, hcap] using hfirst
    exact refusedBy_cap hconn hcalls hrate hcap
  | false =>
  cases hidentity : Check.identity.fails setup sys conn request (readings 1).ms with
  | true =>
    obtain rfl : Check.identity = check := by simpa [hrate, hcap, hidentity] using hfirst
    exact refusedBy_locked hconn hcalls rfl hrate hcap fun relay hregistry =>
      registerVerdict_of_identity hregistry _ _ hidentity
  | false =>
  cases hcapacity : Check.capacity.fails setup sys conn request (readings 1).ms with
  | true =>
    obtain rfl : Check.capacity = check := by simpa [hrate, hcap, hidentity, hcapacity] using hfirst
    exact refusedBy_locked hconn hcalls rfl hrate hcap fun relay hregistry =>
      registerVerdict_of_capacity hregistry _ _ hidentity hcapacity
  | false =>
    have hlast : Check.incumbent.fails setup sys conn request (readings 1).ms = true ∧
        Check.incumbent = check := by
      simpa [hrate, hcap, hidentity, hcapacity] using hfirst
    obtain ⟨hincumbent, rfl⟩ := hlast
    exact refusedBy_locked hconn hcalls rfl hrate hcap fun relay hregistry =>
      registerVerdict_of_incumbent hregistry _ _ hidentity hcapacity hincumbent

/-- A registration that passes every check succeeds and enters its record. -/
theorem exists_accepted
    (hpassed : firstFailing setup sys conn request (readings 1).ms = none) :
    ∃ abuse connectedPeers targets relay' returned,
      registerVerdict setup.config (isClosed sys.conns) { sys.relay with abuse } request conn.identity
          conn.addr (readings 3).unix c = .accepted connectedPeers targets relay' ∧
        returned.relay.registry = relay'.registry ∧ returned.relay.connected = relay'.connected ∧
        Succeeded c returned ∧ ∀ sys', CallReturns setup c readings sys sys' ↔ sys' = returned := by
  have hfails := List.find?_eq_none.mp hpassed
  have hpass (check : Check) : check.fails setup sys conn request (readings 1).ms = false := by
    cases check <;> exact Bool.eq_false_iff.mpr (hfails _ (by simp))
  obtain ⟨slot, abuse, -, -, -, hreturns⟩ :=
    exists_callReturns_iff_of_reserved hconn hcalls (hpass .rate) (hpass .cap)
  have hregistry : ({ sys.relay with abuse } : Relay crates).registry = sys.relay.registry := rfl
  obtain ⟨connectedPeers, targets, relay', hverdict⟩ := registerVerdict_of_passed hregistry _
    (readings 3).unix (hpass .identity) (hpass .capacity) (hpass .incumbent)
  obtain ⟨returned, hregistry, hconnected, hsucceeded, haccepted⟩ :=
    callReturns_of_accepted hconn hcalls.outbox (fun n => readings (n + 3)) slot hverdict
  exact ⟨abuse, connectedPeers, targets, relay', returned, hverdict, hregistry, hconnected, hsucceeded,
    fun sys' => (hreturns sys').trans (haccepted sys')⟩

end

/-- A call cannot both succeed and fail. -/
theorem not_succeeded_of_failed (h : Failed c sys) : ¬Succeeded c sys := by
  obtain ⟨conn, hconn, hphase⟩ := h
  rintro ⟨other, hother, hidle⟩
  obtain rfl := Option.some.inj (hconn.symm.trans hother)
  rw [hphase] at hidle
  cases hidle

/-- A refused call has failed. -/
theorem RefusedBy.failed {check : Check} (h : RefusedBy setup check c conn sys sys') :
    Failed c sys' := by
  obtain ⟨_, _, hconn', -⟩ := h.requester
  exact ⟨_, hconn', rfl⟩

/-- Every registration returns. One that fails leaves registry, counter, exchange, session, slot and
registration counts as they were, tells the requester alone, by a failing acknowledgement and an
error with the code of the first check that fails, and records one strike for a check on the source
and none for the others. -/
theorem refused_registration_atomic (setup : Setup) (readings : ℕ → Clock)
    (hconn : sys.conns[c]? = some conn) (hcalls : conn.Calls request) :
    (∃ sys', CallReturns setup c readings sys sys') ∧
      ∀ sys', CallReturns setup c readings sys sys' → Failed c sys' →
        ∃ check, firstFailing setup sys conn request (readings 1).ms = some check ∧
          RefusedBy setup check c conn sys sys' := by
  cases hfirst : firstFailing setup sys conn request (readings 1).ms with
  | none =>
    obtain ⟨_, _, _, _, returned, -, -, -, hsucceeded, hunique⟩ := exists_accepted hconn hcalls hfirst
    refine ⟨⟨returned, (hunique returned).mpr rfl⟩, fun sys' hreturns hfailed => ?_⟩
    rw [(hunique sys').mp hreturns] at hfailed
    exact absurd hsucceeded (not_succeeded_of_failed hfailed)
  | some check =>
    obtain ⟨returned, hrefused, hunique⟩ := exists_refusedBy hconn hcalls hfirst
    refine ⟨⟨returned, (hunique returned).mpr rfl⟩, fun sys' hreturns _ => ⟨check, rfl, ?_⟩⟩
    rw [(hunique sys').mp hreturns]
    exact hrefused

/-- At most two connections and records, on a plain listener. -/
def twoRecords : Setup := ⟨{ maxConnections := 2, maxConnectionsPerIp := 2 }, false⟩

/-- Whether the connection is about to register and a check will fail, as a check. -/
def asksInVain (setup : Setup) (sys : System crates) (c : ConnId) (check : Check) (nowMs : ℕ) : Bool :=
  sys.conns[c]?.any fun conn =>
    match conn.phase with
    | .registerLoad request =>
      conn.outbox.isEmpty && firstFailing setup sys conn request nowMs = some check
    | _ => false

/-- A connection has filled the registry with two ids, and another one asks for a third. -/
theorem refused_registration_atomic_full :
    ∃ (sys : System silentCrates) (conn : Conn silentCrates) (sys' : System silentCrates) (check : Check),
      IsReachable twoRecords sys ∧ sys.relay.registry.size = 2 ∧ sys.conns[1]? = some conn ∧
        CallReturns twoRecords 1 (fun _ => atSecond 2) sys sys' ∧ check = .capacity ∧
        RefusedBy twoRecords check 1 conn sys sys' := by
  obtain ⟨trace, sys, hrun, hasks⟩ := @exists_traced_run silentCrates twoRecords
    (Script.connect 0 0 ++ Script.register 0 "a" "net" 0 0 ++ Script.register 0 "b" "other" 1 0 ++
      Script.connect 1 2 ++ Script.send 1 (.register "c" "net" 1 []) 2 2)
    (fun _ sys => sys.relay.registry.size = 2 && asksInVain twoRecords sys 1 .capacity (atSecond 2).ms)
    (by decide)
  obtain ⟨hsize, hasks⟩ := Bool.and_eq_true_iff.mp hasks
  obtain ⟨conn, hconn, hcheck⟩ := (Option.any_eq_true _ _).mp hasks
  split at hcheck
  · rename_i request hphase
    simp only [Bool.and_eq_true, List.isEmpty_iff, decide_eq_true_eq] at hcheck
    let readings : ℕ → Clock := fun _ => atSecond 2
    have hcalls : conn.Calls request := ⟨hphase, hcheck.1⟩
    have hfirst : firstFailing twoRecords sys conn request (readings 1).ms = some .capacity := hcheck.2
    obtain ⟨returned, hrefused, hunique⟩ := exists_refusedBy hconn hcalls hfirst
    have hreturns : CallReturns twoRecords 1 readings sys returned := (hunique returned).mpr rfl
    obtain ⟨check, hcheck, hby⟩ := (refused_registration_atomic twoRecords readings hconn hcalls).2
      returned hreturns hrefused.failed
    exact ⟨sys, conn, returned, check, ⟨trace, hrun⟩, of_decide_eq_true hsize, hconn, hreturns,
      Option.some.inj (hcheck.symm.trans hfirst), hby⟩
  · cases hcheck

/-- A full registry fails a registration that passes the checks before the registry's. -/
theorem firstFailing_of_full {nowMs : ℕ}
    (hpassed : ∀ check ∈ [Check.rate, .cap, .identity],
      check.fails setup sys conn request nowMs = false)
    (hfull : setup.config.maxConnections.toNat ≤ sys.relay.registry.size) :
    firstFailing setup sys conn request nowMs = some .capacity := by
  have hcapacity : Check.capacity.fails setup sys conn request nowMs = true := decide_eq_true hfull
  simp only [List.forall_mem_cons] at hpassed
  simp [firstFailing, hpassed, hcapacity]

/-- A registration for an id with a dead record that passes the checks before the registry's. While
the registry is not full it succeeds and replaces the dead record, and the number of records and the
counter stay the same. When the registry is full it is refused for capacity. -/
theorem reclaim_below_capacity {existing : Peer} (hconn : sys.conns[c]? = some conn)
    (hcalls : conn.Calls request)
    (hexisting : sys.relay.registry.lookup request.peerId = some existing)
    (hdead : isClosed sys.conns existing.tx = true)
    (hpassed : ∀ check ∈ [Check.rate, .cap, .identity],
      check.fails setup sys conn request (readings 1).ms = false) :
    (sys.relay.registry.size < setup.config.maxConnections.toNat →
      ∃ sys', CallReturns setup c readings sys sys' ∧ Succeeded c sys' ∧
        sys'.relay.registry = sys.relay.registry.insert request.peerId
          (registrant crates request conn.addr (readings 3).unix c) ∧
        sys'.relay.registry.size = sys.relay.registry.size ∧
        sys'.relay.connected = sys.relay.connected) ∧
      (setup.config.maxConnections.toNat ≤ sys.relay.registry.size →
        ∃ sys', CallReturns setup c readings sys sys' ∧
          RefusedBy setup .capacity c conn sys sys') := by
  constructor
  · intro hroom
    have hcapacity : Check.capacity.fails setup sys conn request (readings 1).ms = false :=
      decide_eq_false (not_le.mpr hroom)
    have hincumbent : Check.incumbent.fails setup sys conn request (readings 1).ms = false := by
      simp [Check.fails, hexisting, hdead]
    have hnone : firstFailing setup sys conn request (readings 1).ms = none := by
      simp only [List.forall_mem_cons] at hpassed
      simp [firstFailing, hpassed, hcapacity, hincumbent]
    obtain ⟨abuse, _, _, relay', returned, hverdict, hregistry, hconnected, hsucceeded, hunique⟩ :=
      exists_accepted hconn hcalls hnone
    obtain ⟨-, -, hinsert, -, hcounted⟩ := registerVerdict_accepted hverdict
    refine ⟨returned, (hunique returned).mpr rfl, hsucceeded, hregistry.trans hinsert, ?_, ?_⟩
    · rw [hregistry, hinsert, Table.size_insert_of_some hexisting]
    · rcases hcounted with ⟨habsent, -⟩ | ⟨-, hrelay⟩
      · cases hexisting.symm.trans habsent
      · rw [hconnected, hrelay]
  · intro hfull
    obtain ⟨returned, hrefused, hunique⟩ :=
      exists_refusedBy hconn hcalls (firstFailing_of_full hpassed hfull)
    exact ⟨returned, (hunique returned).mpr rfl, hrefused⟩

/-- The peer of a connection whose channel is closed reconnects while the registry has room. -/
theorem reclaim_below_capacity_reconnect :
    let request : RegisterRequest := ⟨"p", "net", 1, []⟩
    let gone : Conn silentCrates := (Conn.accepted {} sampleAddr none).closeChannels
    let conn : Conn silentCrates :=
      { Conn.accepted {} sampleAddr none with phase := .registerLoad request }
    let dead := registrant silentCrates request sampleAddr 0 0
    let sys : System silentCrates :=
      { System.new silentCrates with
        relay := { Relay.new silentCrates with registry := (∅ : Registry).insert "p" dead, connected := 1 }
        conns := [gone, conn] }
    ∃ sys', CallReturns standardSetup 1 (fun _ => atSecond 9) sys sys' ∧ Succeeded 1 sys' ∧
      sys'.relay.registry.size = 1 ∧ sys'.relay.connected = 1 := by
  intro request gone conn dead sys
  let readings : ℕ → Clock := fun _ => atSecond 9
  have hpassed : ∀ check ∈ [Check.rate, .cap, .identity],
      check.fails standardSetup sys conn request (readings 1).ms = false := by decide
  have hexisting : sys.relay.registry.lookup request.peerId = some dead := AList.lookup_insert _
  obtain ⟨hbelow, -⟩ := reclaim_below_capacity (show sys.conns[1]? = some conn from rfl)
    (show conn.Calls request from ⟨rfl, rfl⟩) hexisting rfl hpassed
  obtain ⟨sys', hreturns, hsucceeded, -, hsize, hconnected⟩ := hbelow (by decide)
  exact ⟨sys', hreturns, hsucceeded, hsize, hconnected⟩

/-- Whether the connection is about to register for an id with a dead record, passing the checks
before the registry's, while the registry is exactly full. -/
def asksForDead (setup : Setup) (sys : System crates) (c : ConnId) (nowMs : ℕ) : Bool :=
  sys.conns[c]?.any fun conn =>
    match conn.phase with
    | .registerLoad request =>
      conn.outbox.isEmpty && sys.relay.registry.size = setup.config.maxConnections.toNat &&
        ([Check.rate, .cap, .identity].all fun check => !check.fails setup sys conn request nowMs) &&
        (sys.relay.registry.lookup request.peerId).any fun existing => isClosed sys.conns existing.tx
    | _ => false

/-- A peer registers under two ids and fills the registry, its channel closes, and it reconnects for
the first id: it is refused, although its dead record is there to be replaced. -/
theorem exists_reachable_reclaim_refused :
    ∃ (sys : System silentCrates) (conn : Conn silentCrates) (request : RegisterRequest)
      (existing : Peer), IsReachable twoRecords sys ∧ sys.conns[1]? = some conn ∧
        conn.Calls request ∧ sys.relay.registry.size ≤ twoRecords.config.maxConnections.toNat ∧
        sys.relay.registry.lookup request.peerId = some existing ∧
        isClosed sys.conns existing.tx = true ∧
        (∀ check ∈ [Check.rate, .cap, .identity],
          check.fails twoRecords sys conn request (atSecond 2).ms = false) ∧
        ∀ sys', CallReturns twoRecords 1 (fun _ => atSecond 2) sys sys' → ¬Succeeded 1 sys' := by
  obtain ⟨trace, sys, hrun, hasks⟩ := @exists_traced_run silentCrates twoRecords
    (Script.connect 0 0 ++ Script.register 0 "a" "net" 0 0 ++ Script.register 0 "b" "other" 1 0 ++
      [.writeRelay 0 false] ++ Script.connect 1 2 ++ Script.send 1 (.register "a" "net" 1 []) 2 2)
    (fun _ sys => asksForDead twoRecords sys 1 (atSecond 2).ms) (by decide)
  obtain ⟨conn, hconn, hcheck⟩ := (Option.any_eq_true _ _).mp hasks
  split at hcheck
  · rename_i request hphase
    simp only [Bool.and_eq_true, List.isEmpty_iff, decide_eq_true_eq, List.all_eq_true,
      Bool.not_eq_true', Option.any_eq_true] at hcheck
    obtain ⟨⟨⟨houtbox, hfull⟩, hpassed⟩, existing, hexisting, hdead⟩ := hcheck
    let readings : ℕ → Clock := fun _ => atSecond 2
    have hfirst : firstFailing twoRecords sys conn request (readings 1).ms = some .capacity :=
      firstFailing_of_full hpassed hfull.ge
    obtain ⟨returned, hrefused, hunique⟩ := exists_refusedBy hconn ⟨hphase, houtbox⟩ hfirst
    refine ⟨sys, conn, request, existing, ⟨trace, hrun⟩, hconn, ⟨hphase, houtbox⟩, hfull.le, hexisting,
      hdead, hpassed, fun sys' hreturns => ?_⟩
    rw [(hunique sys').mp hreturns]
    exact not_succeeded_of_failed hrefused.failed
  · cases hcheck

end DigRelay
