import DigRelay.Safety.Ownership
import DigRelay.Server.Script

/-!
# What a departed connection leaves behind

A teardown knows one id, the last one its session was given, and takes the connection out of
the registry and out of the exchange under that id. Nothing of the connection is left as long
as it is in both under no other id. There are two ways to leave something behind: to register
again under another id, and to be in the exchange without a record, since a teardown that
finds no record leaves the exchange alone.
-/

namespace DigRelay

open Common

variable {crates : Crates} {setup : Setup} {sys sys' : System crates} {label : Label crates}

/-- The connection's teardown has passed both the registry and the exchange. -/
def Phase.isDeparted : Phase crates → Bool
  | .awaitWriter | .dropReg | .dropConn | .dropOpen | .ended => true
  | _ => false

/-- No record holds the connection's channel and no exchange sender is its exchange channel. -/
def LeavesNothing (sys : System crates) (c : ConnId) : Prop :=
  (∀ peerId peer, sys.relay.registry.lookup peerId = some peer → peer.tx ≠ c) ∧
    ∀ peerId, sys.relay.pex.conns.lookup peerId ≠ some c

/-- The transition is the registry access of a registration on a connection that is in the
registry or in the exchange under another id. -/
def AbandonsId (sys : System crates) (label : Label crates) : Prop :=
  ∃ c clock conn request slot peerId,
    label = .exec c clock ∧ sys.conns[c]? = some conn ∧ conn.outbox = [] ∧
      conn.phase = .registerLocked request slot ∧ peerId ≠ request.peerId ∧
      ((∃ peer, sys.relay.registry.lookup peerId = some peer ∧ peer.tx = c) ∨
        sys.relay.pex.conns.lookup peerId = some c)

/-- The transition is the registry access of a teardown that finds no record under its session's
id while the connection is in the exchange under it. -/
def SkipsExchange (sys : System crates) (label : Label crates) : Prop :=
  ∃ c conn peerId networkId,
    TearsDown sys label c conn ∧ conn.session.seat = some (peerId, networkId) ∧
      sys.relay.registry.lookup peerId = none ∧ sys.relay.pex.conns.lookup peerId = some c

/-- Every exchange sender is a connection that may be mirrored under that id. -/
def Ledger.Mirrored (ledger : Ledger) : Prop :=
  ∀ peerId c, ledger.senders.lookup peerId = some c → ledger.mirror c = some peerId

/-- The mirrored id of a connection, read off the ledger. -/
theorem ledger_mirror {c : ConnId} {conn : Conn crates} (hconn : sys.conns[c]? = some conn) :
    sys.ledger.mirror c = conn.mirror := by
  rw [Ledger.mirror, ledger_entries_getElem? hconn]
  rfl

/-- A connection with a seat is mirrored under the seat's id. -/
theorem mirror_of_seat {conn : Conn crates} {peerId networkId : String}
    (hseat : conn.seat = some (peerId, networkId)) : conn.mirror = some peerId := by
  unfold Conn.mirror
  split
  · rename_i hphase
    simp [Conn.seat, hphase] at hseat
  · rw [hseat]
    rfl

/-- The mirrored ids after one entry was replaced. -/
theorem mirrored_setEntry {ledger : Ledger} {c : ConnId} {old entry : Entry}
    {senders : Table String ConnId} (hold : ledger.entries[c]? = some old) (registry : Registry)
    (connected : UInt64) (regs : Table IpKey ℕ)
    (hothers : ∀ peerId d, d ≠ c → senders.lookup peerId = some d → ledger.mirror d = some peerId)
    (hself : ∀ peerId, senders.lookup peerId = some c → entry.mirror = some peerId) :
    Ledger.Mirrored
      { registry, connected, senders, regs, entries := ledger.entries.set c entry } := by
  intro peerId d hsender
  have hmirror := congrFun (bind_setEntry Entry.mirror hold entry) d
  change (ledger.setEntry c entry).entries[d]?.bind Entry.mirror = some peerId
  rw [hmirror]
  by_cases hd : d = c
  · subst hd
    rw [Function.update_self]
    exact hself peerId hsender
  · rw [Function.update_of_ne hd]
    exact hothers peerId d hd hsender

section Mirrored

variable {c : ConnId} {conn : Conn crates}

/-- A connection that is some id's sender mirrors this id. -/
theorem Ledger.Mirrored.own (h : sys.ledger.Mirrored) {peerId : String} (hconn : sys.conns[c]? = some conn)
    (hsender : sys.ledger.senders.lookup peerId = some c) : conn.mirror = some peerId := by
  rw [← ledger_mirror hconn]
  exact h peerId c hsender

/-- With the senders as they were, only the entry that is replaced needs to be looked at. -/
theorem Ledger.Mirrored.set (h : sys.ledger.Mirrored) {entry : Entry} (hconn : sys.conns[c]? = some conn)
    (registry : Registry) (connected : UInt64) (regs : Table IpKey ℕ)
    (hself : ∀ peerId, sys.ledger.senders.lookup peerId = some c → entry.mirror = some peerId) :
    Ledger.Mirrored { registry, connected, senders := sys.ledger.senders, regs
                      entries := sys.ledger.entries.set c entry } := by
  apply mirrored_setEntry (ledger_entries_getElem? hconn) registry connected regs _ hself
  intro peerId d _ hsender
  exact h peerId d hsender

end Mirrored

/-- Every transition that abandons no id and skips no departure keeps the senders mirrored. -/
theorem change_mirrored {ledger : Ledger} (habandons : ¬ AbandonsId sys label)
    (hskips : ¬ SkipsExchange sys label) (hmirrored : sys.ledger.Mirrored)
    (h : Change setup sys label ledger) : ledger.Mirrored := by
  cases h with
  | accepted addr identity =>
    intro peerId c hsender
    have hbefore := hmirrored peerId c hsender
    obtain ⟨entry, hentry, hmirror⟩ := Option.bind_eq_some_iff.mp hbefore
    have hlt := (List.getElem?_eq_some_iff.mp hentry).1
    rw [Ledger.mirror, List.getElem?_append_left hlt, hentry]
    exact hmirror
  | closed hconn | reserved hconn | committed hconn | refused hconn | released hconn =>
    exact hmirrored.set hconn _ _ _ fun peerId hsender => hmirrored.own hconn hsender
  | @entered c clock conn request slot _ _ _ hconn houtbox hphase =>
    apply hmirrored.set hconn
    intro peerId hsender
    by_contra hother
    apply habandons ⟨c, clock, conn, request, slot, peerId, rfl, hconn, houtbox, hphase, ?_, .inr hsender⟩
    rintro rfl
    exact hother rfl
  | @mirrored c clock conn peerId networkId hconn hseat =>
    intro id d hsender
    rw [Table.lookup_insert_eq] at hsender
    split at hsender
    · rename_i hid
      obtain rfl := Option.some.inj hsender
      exact ((ledger_mirror hconn).trans (mirror_of_seat hseat)).trans (congrArg some hid.symm)
    · exact hmirrored id d hsender
  | @removed c clock conn peerId networkId peer hconn houtbox hphase hseat hpeer =>
    have hseated : conn.seat = some (peerId, networkId) := by
      simpa [Conn.seat, hphase] using hseat
    apply hmirrored.set hconn
    intro id hsender
    exact (mirror_of_seat hseated).symm.trans (hmirrored.own hconn hsender)
  | @absent c clock conn hconn houtbox hphase hnone =>
    apply hmirrored.set hconn
    intro id hsender
    have hbefore := hmirrored.own hconn hsender
    simp only [Conn.mirror, hphase, Conn.seat, Option.map_eq_some_iff] at hbefore
    obtain ⟨⟨_, networkId⟩, hseat, rfl⟩ := hbefore
    exact absurd ⟨c, conn, _, networkId, ⟨⟨clock, rfl⟩, hconn, houtbox, hphase⟩, hseat,
      hnone _ networkId hseat, hsender⟩ hskips
  | @unmirrored c clock conn peerId networkId hconn hphase =>
    refine mirrored_setEntry (ledger_entries_getElem? hconn) _ _ _ ?_ fun id hsender => ?_
    · exact fun id d _ hsender => hmirrored id d (Table.lookup_erase_eq_some hsender).2
    · obtain ⟨hother, hsender⟩ := Table.lookup_erase_eq_some hsender
      have hbefore := hmirrored.own hconn hsender
      simp only [Conn.mirror, hphase, Option.some.injEq] at hbefore
      exact absurd hbefore.symm hother
  | forgotten peerId =>
    exact fun id d hsender => hmirrored id d (Table.lookup_erase_eq_some hsender).2
  | _ => exact hmirrored

/-- A connection without seat and mirrored id leaves nothing behind. -/
theorem leavesNothing_of_departed {c : ConnId} {conn : Conn crates}
    (haccounted : sys.ledger.leases.Accounted) (hmirrored : sys.ledger.Mirrored)
    (hconn : sys.conns[c]? = some conn) (hdeparted : conn.phase.isDeparted = true) :
    LeavesNothing sys c := by
  have hnone : conn.seat = none ∧ conn.mirror = none := by
    cases hphase : conn.phase <;> simp [hphase, Phase.isDeparted] at hdeparted <;>
      simp [Conn.seat, Conn.mirror, hphase]
  constructor
  · rintro peerId peer hpeer rfl
    obtain ⟨owner, networkId, howner, hseat⟩ := actsAs_of_lookup haccounted hpeer
    obtain rfl := Option.some.inj (hconn.symm.trans howner)
    rw [hnone.1] at hseat
    cases hseat
  · intro peerId hsender
    have hmirror := (ledger_mirror hconn).symm.trans (hmirrored peerId c hsender)
    rw [hnone.2] at hmirror
    cases hmirror

/-- In every run in which no registration abandons an id and no teardown skips the exchange, a
connection whose teardown is past registry and exchange leaves nothing behind. -/
theorem run_leavesNothing {trace : List (System crates × Label crates × System crates)}
    (hrun : Run setup trace sys)
    (hguard : ∀ t ∈ trace, ¬ AbandonsId t.1 t.2.1 ∧ ¬ SkipsExchange t.1 t.2.1) {c : ConnId}
    {conn : Conn crates} (hconn : sys.conns[c]? = some conn)
    (hdeparted : conn.phase.isDeparted = true) : LeavesNothing sys c := by
  obtain ⟨haccounted, hmirrored⟩ : sys.ledger.leases.Accounted ∧ sys.ledger.Mirrored := by
    refine (hrun.invariant_of_guard
      (fun sys label => ¬ AbandonsId sys label ∧ ¬ SkipsExchange sys label)
      (fun sys => sys.ledger.leases.Accounted ∧ sys.ledger.Mirrored) hguard ?_ ?_).1
    · exact ⟨fun peerId lease hlease => (nomatch hlease), fun peerId c hsender => (nomatch hsender)⟩
    · rintro s label s' hreach ⟨habandons, hskips⟩ ⟨haccounted, hmirrored⟩ hnext
      have hwf := wellFormed_of_reachable hreach
      refine ⟨next_accounted hwf ?_ haccounted hnext,
        change_mirrored habandons hskips hmirrored (next_change hwf hnext)⟩
      rintro ⟨c, clock, conn, request, slot, peerId, peer, hlabel, hconn, houtbox, hphase, hpeer,
        htx, hother⟩
      exact habandons ⟨c, clock, conn, request, slot, peerId, hlabel, hconn, houtbox, hphase, hother,
        .inl ⟨peer, hpeer, htx⟩⟩
  exact leavesNothing_of_departed haccounted hmirrored hconn hdeparted

/-- Whether the transition abandons an id or skips the exchange, as a check. -/
def leavesBehind (sys : System crates) : Label crates → Bool
  | .exec c _ => sys.conns[c]?.any fun conn =>
    match conn.phase with
    | .registerLocked request _ =>
      (sys.relay.registry.toPairs.any fun record => record.2.tx = c && record.1 ≠ request.peerId) ||
        sys.relay.pex.conns.toPairs.any fun sender => sender.2 = c && sender.1 ≠ request.peerId
    | .deregister => conn.session.seat.any fun seat =>
      (sys.relay.registry.lookup seat.1).isNone && sys.relay.pex.conns.lookup seat.1 = some c
    | _ => false
  | _ => false

/-- A transition that passes the check abandons no id and does not skip the exchange. -/
theorem leavesBehind_sound (h : leavesBehind sys label = false) :
    ¬ AbandonsId sys label ∧ ¬ SkipsExchange sys label := by
  constructor
  · rintro ⟨c, clock, conn, request, slot, peerId, rfl, hconn, -, hphase, hother, hentry⟩
    simp only [leavesBehind, hconn, Option.any_some, hphase, Bool.or_eq_false_iff,
      List.any_eq_false] at h
    rcases hentry with ⟨peer, hpeer, htx⟩ | hsender
    · exact h.1 (peerId, peer) ((Table.mem_toPairs_iff _ _ _).mpr hpeer) (by simp [htx, hother])
    · exact h.2 (peerId, c) ((Table.mem_toPairs_iff _ _ _).mpr hsender) (by simp [hother])
  · rintro ⟨c, conn, peerId, networkId, ⟨⟨clock, rfl⟩, hconn, -, hphase⟩, hseat, hnone, hsender⟩
    simp [leavesBehind, hconn, hphase, hseat, hnone, hsender] at h

/-- A connection registers once, hangs up, and its teardown takes it out of the exchange last. -/
theorem run_leavesNothing_after_teardown :
    ∃ trace sys, @Run silentCrates standardSetup trace sys ∧
      (∃ t ∈ trace, t.1.relay.pex.conns.lookup "p" = some 0) ∧ LeavesNothing sys 0 := by
  obtain ⟨trace, sys, sys', hrun, hcheck, hends⟩ := @exists_checked_run silentCrates standardSetup
    (fun sys label => !leavesBehind sys label)
    (Script.connect 0 0 ++ Script.register 0 "p" "net" 0 0 ++ [.hangup 0, .exec 0 (atSecond 1)])
    (.exec 0 (atSecond 1))
    (fun sys sys' => sys.relay.pex.conns.lookup "p" = some 0 &&
      sys'.conns[0]?.any fun conn => conn.phase.isDeparted) (by decide)
  obtain ⟨hsender, hgone⟩ := Bool.and_eq_true_iff.mp hends
  obtain ⟨conn, hconn, hdeparted⟩ := (Option.any_eq_true _ _).mp hgone
  refine ⟨_, sys', hrun, ⟨_, List.mem_append_right _ (List.mem_singleton_self _), ?_⟩,
    run_leavesNothing hrun (fun t ht => leavesBehind_sound ?_) hconn hdeparted⟩
  · exact of_decide_eq_true hsender
  · simpa using hcheck t ht

/-- An exchange handshake. -/
def handshakeFrame : Frame silentCrates :=
  { len := 64, typeTag := some "pex_handshake", relay := none, pex := some () }

/-- A connection that registers under a second id and is torn down leaves its first record. A
connection whose record a sweep pruned, and which then starts the exchange and is torn down,
leaves its exchange sender. -/
theorem exists_run_not_leavesNothing :
    (∃ trace sys conn peer, @Run silentCrates standardSetup trace sys ∧
      sys.conns[0]? = some conn ∧ conn.phase.isDeparted = true ∧
      sys.relay.registry.lookup "a" = some peer ∧ peer.tx = 0) ∧
    ∃ trace sys conn, @Run silentCrates standardSetup trace sys ∧
      sys.conns[0]? = some conn ∧ conn.phase.isDeparted = true ∧
      sys.relay.pex.conns.lookup "p" = some 0 := by
  constructor
  · obtain ⟨trace, sys, sys', hrun, hends⟩ := @exists_run_step silentCrates standardSetup
      (Script.connect 0 0 ++ Script.register 0 "a" "net" 0 0 ++ Script.register 0 "b" "other" 1 0 ++
        [.hangup 0, .exec 0 (atSecond 2)])
      (.exec 0 (atSecond 2))
      (fun _ sys' => (sys'.conns[0]?.any fun conn => conn.phase.isDeparted) &&
        (sys'.relay.registry.lookup "a").any fun peer => peer.tx = 0) (by decide)
    obtain ⟨hgone, hrecord⟩ := Bool.and_eq_true_iff.mp hends
    obtain ⟨conn, hconn, hdeparted⟩ := (Option.any_eq_true _ _).mp hgone
    obtain ⟨peer, hpeer, htx⟩ := (Option.any_eq_true _ _).mp hrecord
    exact ⟨_, sys', conn, peer, hrun, hconn, hdeparted, hpeer, of_decide_eq_true htx⟩
  · obtain ⟨trace, sys, sys', hrun, hends⟩ := @exists_run_step silentCrates standardSetup
      (Script.connect 0 0 ++ Script.register 0 "p" "net" 0 0 ++ [.sweep 91, .sweepExec] ++
        [.message 0 handshakeFrame (atSecond 100), .exec 0 (atSecond 100), .hangup 0])
      (.exec 0 (atSecond 120))
      (fun _ sys' => (sys'.conns[0]?.any fun conn => conn.phase.isDeparted) &&
        sys'.relay.pex.conns.lookup "p" = some 0) (by decide)
    obtain ⟨hgone, hsender⟩ := Bool.and_eq_true_iff.mp hends
    obtain ⟨conn, hconn, hdeparted⟩ := (Option.any_eq_true _ _).mp hgone
    exact ⟨_, sys', conn, hrun, hconn, hdeparted, of_decide_eq_true hsender⟩

end DigRelay
