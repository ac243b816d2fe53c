import DigRelay.Common.Lease
import DigRelay.Server.Change
import DigRelay.Server.Sweep

/-!
# Registrations as leases

The registry grants ids to connections, and each connection acts under the id of its seat. Read
this way the ledger is a table of leases with private claims: an accepted registration enters,
a teardown leaves or quits, a sweep evicts, and nothing else changes either side.
-/

namespace DigRelay

open Common

variable {crates : Crates} {setup : Setup} {sys sys' : System crates} {label : Label crates}

/-- The ids granted by the registry and the seats of the connections. -/
def Ledger.leases (ledger : Ledger) : Leases ConnId String String :=
  { table := fun peerId =>
      (ledger.registry.lookup peerId).map fun peer => ⟨peer.tx, peer.networkId⟩
    claim := ledger.seat }

/-- The connection acts under the id: it has registered under it and has not yet been torn
down. -/
def ActsAs (sys : System crates) (c : ConnId) (peerId : String) : Prop :=
  ∃ conn networkId, sys.conns[c]? = some conn ∧ conn.seat = some (peerId, networkId)

/-- Whether a connection acts under the id, as a check. -/
def actsAs (sys : System crates) (c : ConnId) (peerId : String) : Bool :=
  (sys.conns[c]?.bind Conn.seat).any fun seat => seat.1 = peerId

/-- The check finds exactly the connections acting under the id, which all exist. -/
theorem actsAs_iff {c : ConnId} {peerId : String} :
    (c < sys.conns.length ∧ actsAs sys c peerId = true) ↔ ActsAs sys c peerId := by
  simp only [actsAs, Option.any_eq_true, Option.bind_eq_some_iff, decide_eq_true_eq, Prod.exists]
  constructor
  · rintro ⟨-, _, networkId, ⟨conn, hconn, hseat⟩, rfl⟩
    exact ⟨conn, networkId, hconn, hseat⟩
  · rintro ⟨conn, networkId, hconn, hseat⟩
    exact ⟨(List.getElem?_eq_some_iff.mp hconn).1, peerId, networkId, ⟨conn, hconn, hseat⟩, rfl⟩

/-- The registration of the request is accepted when connection `c` next moves. -/
def Accepts (setup : Setup) (sys : System crates) (c : ConnId) (clock : Clock)
    (request : RegisterRequest) : Prop :=
  ∃ conn slot connectedPeers targets relay,
    sys.conns[c]? = some conn ∧ conn.outbox = [] ∧ conn.phase = .registerLocked request slot ∧
      registerVerdict setup.config (isClosed sys.conns) sys.relay request conn.identity conn.addr
        clock.unix c = .accepted connectedPeers targets relay

/-- What a transition does to leases and claims. -/
inductive LeaseChange (setup : Setup) (sys : System crates) :
    Label crates → Leases ConnId String String → Prop
  | same (label : Label crates) : LeaseChange setup sys label sys.ledger.leases
  | enter {c : ConnId} {clock : Clock} {request : RegisterRequest}
      (haccepts : Accepts setup sys c clock request) :
      LeaseChange setup sys (.exec c clock)
        (sys.ledger.leases.enter c request.peerId request.networkId)
  | leave {c : ConnId} {clock : Clock} {peerId : String}
      (hclaims : sys.ledger.leases.Claims c peerId) :
      LeaseChange setup sys (.exec c clock) (sys.ledger.leases.leave c peerId)
  | quit {c : ConnId} {clock : Clock}
      (hempty : ∀ peerId, sys.ledger.leases.Claims c peerId →
        sys.ledger.leases.table peerId = none) :
      LeaseChange setup sys (.exec c clock) (sys.ledger.leases.quit c)
  | evict (now : ℕ) :
      LeaseChange setup sys (.sweep now)
        (sys.ledger.leases.evict fun peerId => peerId ∈ victims setup sys now)

/-- Acting under an id is claiming it. -/
theorem claims_iff_actsAs {c : ConnId} {peerId : String} :
    sys.ledger.leases.Claims c peerId ↔ ActsAs sys c peerId := by
  simp only [Leases.Claims, Ledger.leases, Ledger.seat, ActsAs, System.ledger, ledgerOf,
    List.getElem?_map, Option.bind_map, Option.bind_eq_some_iff]
  constructor
  · rintro ⟨networkId, conn, hconn, hseat⟩
    exact ⟨conn, networkId, hconn, hseat⟩
  · rintro ⟨conn, networkId, hconn, hseat⟩
    exact ⟨networkId, conn, hconn, hseat⟩

/-- When all leases are accounted for, the owner of a record acts under the record's id. -/
theorem actsAs_of_lookup (haccounted : sys.ledger.leases.Accounted) {peerId : String} {peer : Peer}
    (hpeer : sys.relay.registry.lookup peerId = some peer) : ActsAs sys peer.tx peerId := by
  have hlease : sys.ledger.leases.table peerId = some ⟨peer.tx, peer.networkId⟩ :=
    congrArg (Option.map _) hpeer
  exact claims_iff_actsAs.mp (haccounted peerId _ hlease)

/-- Replacing an entry changes what is read off that connection alone. -/
theorem bind_setEntry {A : Type*} (read : Entry → Option A) {ledger : Ledger} {c : ConnId}
    {old : Entry} (hold : ledger.entries[c]? = some old) (entry : Entry) :
    (fun d : ConnId => (ledger.setEntry c entry).entries[d]?.bind read) =
      Function.update (fun d : ConnId => ledger.entries[d]?.bind read) c (read entry) := by
  funext d
  by_cases hd : d = c
  · subst hd
    simp [getElem?_setEntry hold]
  · simp [getElem?_setEntry hold, hd]

/-- Replacing an entry changes the seat of that connection alone. -/
theorem seat_setEntry {ledger : Ledger} {c : ConnId} {old entry : Entry}
    (hold : ledger.entries[c]? = some old) :
    (ledger.setEntry c entry).seat = Function.update ledger.seat c entry.seat :=
  bind_setEntry Entry.seat hold entry

/-- An entry that keeps its seat changes no seat. -/
theorem seat_setEntry_of_eq {ledger : Ledger} {c : ConnId} {old entry : Entry}
    (hold : ledger.entries[c]? = some old) (hseat : entry.seat = old.seat) :
    (ledger.setEntry c entry).seat = ledger.seat := by
  rw [seat_setEntry hold, hseat]
  have hself : ledger.seat c = old.seat := by simp [Ledger.seat, hold]
  rw [← hself, Function.update_eq_self]

/-- A ledger with the same registry and seats has the same leases. -/
theorem leases_congr {ledger ledger' : Ledger}
    (hregistry : ∀ peerId, ledger'.registry.lookup peerId = ledger.registry.lookup peerId)
    (hseat : ledger'.seat = ledger.seat) : ledger'.leases = ledger.leases := by
  simp only [Ledger.leases, hregistry, hseat]

/-- Entering a record and taking the seat is entering the lease. -/
theorem leases_entered {c : ConnId} {old entry : Entry} {ledger : Ledger} {registry : Registry}
    {connected : UInt64} {peerId : String} {peer : Peer}
    (hold : ledger.entries[c]? = some old) (hregistry : registry = ledger.registry.insert peerId peer)
    (htx : peer.tx = c) (hseat : entry.seat = some (peerId, peer.networkId)) :
    ({ ledger.setEntry c entry with registry, connected } : Ledger).leases =
      ledger.leases.enter c peerId peer.networkId := by
  subst hregistry
  apply Leases.ext
  · funext key
    by_cases hkey : key = peerId
    · subst hkey
      simp [Ledger.leases, Leases.enter, htx]
    · simp [Ledger.leases, Leases.enter, hkey]
  · have hclaim : (ledger.setEntry c entry).seat = _ := seat_setEntry hold
    rw [hseat] at hclaim
    exact hclaim

/-- Removing a record and giving up the seat is leaving the lease. -/
theorem leases_removed {c : ConnId} {old entry : Entry} {ledger : Ledger} {connected : UInt64}
    {peerId : String} (hold : ledger.entries[c]? = some old) (hseat : entry.seat = none) :
    ({ ledger.setEntry c entry with
        registry := ledger.registry.erase peerId
        connected } : Ledger).leases = ledger.leases.leave c peerId := by
  apply Leases.ext
  · funext key
    by_cases hkey : key = peerId
    · subst hkey
      simp [Ledger.leases, Leases.leave]
    · simp [Ledger.leases, Leases.leave, hkey]
  · have hclaim : (ledger.setEntry c entry).seat = _ := seat_setEntry hold
    rw [hseat] at hclaim
    exact hclaim

/-- A sweep evicts its victims. -/
theorem leases_swept (setup : Setup) (sys : System crates) (now : ℕ) :
    ({ sys.ledger with
        registry := (sweepLocked setup sys now).2.registry
        connected := (sweepLocked setup sys now).2.connected } : Ledger).leases =
      sys.ledger.leases.evict fun peerId => peerId ∈ victims setup sys now := by
  apply Leases.ext
  · funext key
    simp only [Ledger.leases, Leases.evict, sweepLocked_lookup]
    by_cases hkey : key ∈ victims setup sys now
    · rw [if_pos hkey, if_pos (decide_eq_true hkey)]
      rfl
    · rw [if_neg hkey, if_neg (by simpa using hkey)]
      rfl
  · rfl

/-- A seat read off the session by a connection that is being torn down is a claim. -/
theorem claims_of_deregister {c : ConnId} {conn : Conn crates} {peerId networkId : String}
    (hconn : sys.conns[c]? = some conn) (hphase : conn.phase = .deregister)
    (hseat : conn.session.seat = some (peerId, networkId)) :
    sys.ledger.leases.Claims c peerId :=
  claims_iff_actsAs.mpr ⟨conn, networkId, hconn, by simpa [Conn.seat, hphase] using hseat⟩

/-- What each change of the ledger does to leases and claims. -/
theorem change_leases {ledger' : Ledger} (h : Change setup sys label ledger') :
    LeaseChange setup sys label ledger'.leases := by
  have hsame {label : Label crates} {ledger' : Ledger}
      (hregistry : ∀ peerId, ledger'.registry.lookup peerId = sys.ledger.registry.lookup peerId)
      (hseat : ledger'.seat = sys.ledger.seat) : LeaseChange setup sys label ledger'.leases := by
    rw [leases_congr hregistry hseat]
    exact .same label
  cases h with
  | quiet => exact .same label
  | accepted addr identity =>
    refine hsame (fun _ => rfl) (funext fun d => ?_)
    simp only [Ledger.seat, List.getElem?_append]
    split
    · rfl
    · rename_i hlen
      rw [List.getElem?_eq_none (Nat.le_of_not_lt hlen)]
      cases hd : d - sys.ledger.entries.length with
      | zero => rfl
      | succ => rfl
  | closed hconn | reserved hconn | committed hconn | refused hconn | unmirrored hconn
    | released hconn =>
    exact hsame (fun _ => rfl) (seat_setEntry_of_eq (ledger_entries_getElem? hconn) rfl)
  | entered hconn houtbox hphase hverdict =>
    obtain ⟨-, -, hregistry, -, -⟩ := registerVerdict_accepted hverdict
    rw [leases_entered (ledger_entries_getElem? hconn) hregistry rfl rfl]
    exact .enter ⟨_, _, _, _, _, hconn, houtbox, hphase, hverdict⟩
  | mirrored => exact hsame (fun _ => rfl) rfl
  | removed hconn houtbox hphase hseat hpeer =>
    rw [leases_removed (ledger_entries_getElem? hconn) rfl]
    exact .leave (claims_of_deregister hconn hphase hseat)
  | @absent c clock conn hconn houtbox hphase hnone =>
    have hquit : (sys.ledger.setEntry c { conn.entry with seat := none, mirror := none }).leases =
        sys.ledger.leases.quit c := by
      exact Leases.ext rfl (seat_setEntry (ledger_entries_getElem? hconn))
    rw [hquit]
    refine .quit fun peerId hclaims => ?_
    obtain ⟨conn', networkId, hconn', hseat⟩ := claims_iff_actsAs.mp hclaims
    obtain rfl := Option.some.inj (hconn.symm.trans hconn')
    have hlookup := hnone peerId networkId (by simpa [Conn.seat, hphase] using hseat)
    exact congrArg (Option.map _) hlookup
  | swept now =>
    rw [leases_swept]
    exact .evict now
  | forgotten => exact hsame (fun _ => rfl) rfl
  | rehashed hrehash => exact hsame (fun peerId => (hrehash.lookup_eq peerId).symm) rfl

/-- What each transition does to leases and claims. -/
theorem next_leases (hwf : sys.WellFormed) (h : Next setup sys label sys') :
    LeaseChange setup sys label sys'.ledger.leases := change_leases (next_change hwf h)

/-- The transition is the registry access of a registration on a connection that still owns a
record under another id. -/
def ReRegisters (sys : System crates) (label : Label crates) : Prop :=
  ∃ c clock conn request slot peerId peer,
    label = .exec c clock ∧ sys.conns[c]? = some conn ∧ conn.outbox = [] ∧
      conn.phase = .registerLocked request slot ∧
      sys.relay.registry.lookup peerId = some peer ∧ peer.tx = c ∧ peerId ≠ request.peerId

/-- Every record's owner acts under the record's id, as long as no owner registers again under
another id. -/
theorem next_accounted (hwf : sys.WellFormed) (hguard : ¬ ReRegisters sys label)
    (haccounted : sys.ledger.leases.Accounted) (h : Next setup sys label sys') :
    sys'.ledger.leases.Accounted := by
  have hchange := next_leases hwf h
  generalize sys'.ledger.leases = leases at hchange
  cases hchange with
  | same => exact haccounted
  | @enter c clock request haccepts =>
    refine haccounted.enter _ fun peerId lease hlease hholder => ?_
    obtain ⟨conn, slot, -, -, -, hconn, houtbox, hphase, -⟩ := haccepts
    obtain ⟨peer, hpeer, rfl⟩ := Option.map_eq_some_iff.mp hlease
    by_contra hother
    exact hguard
      ⟨c, clock, conn, request, slot, peerId, peer, rfl, hconn, houtbox, hphase, hpeer, hholder, hother⟩
  | leave hclaims => exact haccounted.leave hclaims
  | quit hempty => exact haccounted.quit hempty
  | evict => exact haccounted.evict _

/-- Every record is an old one or was entered just now, under the id the request claims, by a
connection whose identity, if it has one, is that id. -/
theorem Change.record_origin {ledger : Ledger} (h : Change setup sys label ledger)
    {peerId : String} {peer : Peer} (hpeer : ledger.registry.lookup peerId = some peer) :
    sys.relay.registry.lookup peerId = some peer ∨
      ∃ c clock conn request slot, label = .exec c clock ∧ sys.conns[c]? = some conn ∧
        conn.phase = .registerLocked request slot ∧
        (∀ verified, conn.identity = some verified → verified = request.peerId) ∧
        peerId = request.peerId ∧ peer = registrant crates request conn.addr clock.unix c := by
  cases h with
  | @entered c clock conn request slot _ _ _ hconn _ hphase hverdict =>
    obtain ⟨hverified, -⟩ := registerVerdict_accepted hverdict
    rw [lookup_of_registerVerdict hverdict] at hpeer
    split at hpeer
    · rename_i hsame
      exact .inr ⟨c, clock, conn, request, slot, rfl, hconn, hphase, hverified, hsame,
        (Option.some.inj hpeer).symm⟩
    · exact .inl hpeer
  | removed => exact .inl (Table.lookup_erase_eq_some hpeer).2
  | swept now =>
    rw [sweepLocked_lookup] at hpeer
    split at hpeer
    · cases hpeer
    · exact .inl hpeer
  | rehashed hrehash => exact .inl ((hrehash.lookup_eq peerId).trans hpeer)
  | _ => exact .inl hpeer

end DigRelay
