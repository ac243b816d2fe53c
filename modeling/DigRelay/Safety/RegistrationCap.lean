import DigRelay.Server.Occupancy
import DigRelay.Server.Script

/-!
# Registrations per source

Every registration takes a slot counted under its source's key, and the count is exactly the
number of slots that connections from that source hold. A record is covered by a slot as long
as its owner still acts under the record's id. An owner that registers again under another id
keeps one slot for two records, so the cap on slots is then no cap on records.
-/

namespace DigRelay

open Common

variable {crates : Crates} {setup : Setup} {sys sys' : System crates} {label : Label crates}

/-- The registration slots counted under the key that an entry's connection holds. -/
def Entry.slots (key : IpKey) (entry : Entry) : ℕ :=
  entry.kept.elim 0 (Slot.weight · key) + entry.pending.elim 0 (Slot.weight · key)

/-- All slots are counted under their connection's source, the counts are the slots held, and no
count passes the cap. -/
structure Ledger.Slotted (cap : ℕ) (ledger : Ledger) : Prop where
  keyed : ∀ entry ∈ ledger.entries, ∀ slot, entry.kept = some slot ∨ entry.pending = some slot →
    slot = ⟨true, ipKey entry.addr.ip⟩
  counted : ∀ key, (ledger.regs.lookup key).getD 0 = poolTotal (Entry.slots key) ledger.entries
  bounded : ∀ key, (ledger.regs.lookup key).getD 0 ≤ cap

/-- Slots stay accounted for when one connection's slots and the counts move together. -/
theorem Ledger.Slotted.set {cap : ℕ} {ledger : Ledger} {c : ConnId} {old entry : Entry}
    {regs : Table IpKey ℕ} (h : ledger.Slotted cap) (hold : ledger.entries[c]? = some old)
    (hkeyed : ∀ slot, entry.kept = some slot ∨ entry.pending = some slot →
      slot = ⟨true, ipKey entry.addr.ip⟩)
    (hcount : ∀ key, (regs.lookup key).getD 0 =
      (ledger.regs.lookup key).getD 0 + entry.slots key - old.slots key)
    (hbound : ∀ key, (regs.lookup key).getD 0 ≤ cap) (registry : Registry) (connected : UInt64)
    (senders : Table String ConnId) :
    Ledger.Slotted cap
      { registry, connected, senders, regs, entries := ledger.entries.set c entry } where
  keyed := by
    intro other hmem
    rcases List.mem_or_eq_of_mem_set hmem with hbefore | rfl
    · exact h.keyed other hbefore
    · exact hkeyed
  counted := by
    intro key
    have htotal := poolTotal_set (Entry.slots key) ledger.entries c old entry hold
    have hbefore := h.counted key
    have hafter := hcount key
    dsimp only
    omega
  bounded := hbound

/-- An entry that keeps its address and slots changes no count. -/
theorem Ledger.Slotted.set_of_eq {cap : ℕ} {ledger : Ledger} {c : ConnId} {old entry : Entry}
    (h : ledger.Slotted cap) (hold : ledger.entries[c]? = some old)
    (haddr : entry.addr = old.addr) (hkept : entry.kept = old.kept)
    (hpending : entry.pending = old.pending) (registry : Registry) (connected : UInt64)
    (senders : Table String ConnId) :
    Ledger.Slotted cap
      { registry, connected, senders, regs := ledger.regs, entries := ledger.entries.set c entry } := by
  refine h.set hold ?_ ?_ h.bounded registry connected senders
  · rw [haddr, hkept, hpending]
    exact h.keyed old (List.mem_of_getElem? hold)
  · intro key
    simp [Entry.slots, hkept, hpending]

/-- Slots stay accounted for when a connection drops one of its slots. -/
theorem Ledger.Slotted.drop {cap : ℕ} {ledger : Ledger} {c : ConnId} {old entry : Entry}
    (h : ledger.Slotted cap) (slot : Option Slot) (hold : ledger.entries[c]? = some old)
    (haddr : entry.addr = old.addr)
    (hheld : ∀ slot, entry.kept = some slot ∨ entry.pending = some slot →
      old.kept = some slot ∨ old.pending = some slot)
    (hslots : ∀ key, old.slots key = entry.slots key + slot.elim 0 (Slot.weight · key))
    (registry : Registry) (connected : UInt64) (senders : Table String ConnId) :
    Ledger.Slotted cap
      { registry, connected, senders
        regs := slot.elim ledger.regs (dropSlot ledger.regs)
        entries := ledger.entries.set c entry } := by
  have hcount (key : IpKey) : ((slot.elim ledger.regs (dropSlot ledger.regs)).lookup key).getD 0 =
      (ledger.regs.lookup key).getD 0 - slot.elim 0 (Slot.weight · key) := by
    cases slot with
    | none => rfl
    | some slot => exact dropSlot_count ledger.regs slot key
  refine h.set hold (fun held hmem => ?_) (fun key => ?_) (fun key => ?_) registry connected senders
  · rw [haddr]
    exact h.keyed old (List.mem_of_getElem? hold) held (hheld held hmem)
  · rw [hcount, hslots]
    omega
  · rw [hcount]
    exact (Nat.sub_le _ _).trans (h.bounded key)

/-- Slots stay accounted for when a connection without a pending slot acquires one. -/
theorem Ledger.Slotted.reserve {cap : ℕ} {ledger : Ledger} {c : ConnId} {old : Entry} {slot : Slot}
    {regs : Table IpKey ℕ} (h : ledger.Slotted cap) (hcap : 0 < cap)
    (hold : ledger.entries[c]? = some old) (hnone : old.pending = none)
    (hslot : tryAcquire ledger.regs cap old.addr.ip = some (slot, regs)) (registry : Registry)
    (connected : UInt64) (senders : Table String ConnId) :
    Ledger.Slotted cap
      { registry, connected, senders, regs
        entries := ledger.entries.set c { old with pending := some slot } } := by
  obtain ⟨hkey, hroom, hcount⟩ := tryAcquire_some hslot
  rw [decide_eq_true hcap.ne'] at hkey
  refine h.set hold ?_ (fun key => ?_) (fun key => ?_) registry connected senders
  · rintro held (hheld | hheld)
    · exact h.keyed old (List.mem_of_getElem? hold) held (.inl hheld)
    · rw [← Option.some.inj hheld]
      exact hkey
  · simp only [hcount, Entry.slots, hnone, Option.elim_none, Option.elim_some]
    omega
  · rw [hcount]
    by_cases hsame : ipKey old.addr.ip = key
    · have hlt := hroom hcap.ne'
      rw [hsame] at hlt
      simp only [hkey, hsame, Slot.weight, and_self, if_true]
      omega
    · rw [hkey, Slot.weight, if_neg (by simp [hsame])]
      exact h.bounded key

/-- Every transition keeps the slots accounted for. -/
theorem change_slotted {ledger : Ledger} (hcap : 0 < setup.config.maxRegistrationsPerIp)
    (hslotted : sys.ledger.Slotted setup.config.maxRegistrationsPerIp)
    (h : Change setup sys label ledger) :
    ledger.Slotted setup.config.maxRegistrationsPerIp := by
  cases h with
  | accepted addr identity =>
    refine ⟨fun entry hmem => ?_, fun key => ?_, hslotted.bounded⟩
    · rcases List.mem_append.mp hmem with hold | hnew
      · exact hslotted.keyed entry hold
      · rw [List.mem_singleton.mp hnew]
        rintro slot (hslot | hslot) <;> cases hslot
    · rw [poolTotal_append_singleton]
      exact hslotted.counted key
  | closed hconn | entered hconn | removed hconn | absent hconn | unmirrored hconn =>
    refine hslotted.set_of_eq (ledger_entries_getElem? hconn) ?_ ?_ ?_ _ _ _ <;> rfl
  | reserved hconn hphase hslot =>
    obtain ⟨⟨granted, counts⟩, hgranted, heq⟩ := Option.map_eq_some_iff.mp hslot
    obtain ⟨rfl, rfl⟩ := Prod.mk.injEq _ _ _ _ ▸ heq
    exact hslotted.reserve hcap (ledger_entries_getElem? hconn)
      (by simp [Conn.entry, Conn.pendingSlot, hphase]) hgranted _ _ _
  | @committed c clock conn request slot hconn hphase =>
    refine hslotted.drop conn.regSlot (ledger_entries_getElem? hconn) ?_ ?_ (fun key => ?_) _ _ _
    · rfl
    · rintro slot (hslot | hslot)
      · exact .inr (by simpa [Conn.entry, Conn.pendingSlot, hphase] using hslot)
      · cases hslot
    · simp [Entry.slots, Conn.entry, Conn.pendingSlot, hphase, Nat.add_comm]
  | @refused c clock conn slot hconn hphase =>
    refine hslotted.drop (some slot) (ledger_entries_getElem? hconn) ?_ ?_ (fun key => ?_) _ _ _
    · rfl
    · rintro slot (hslot | hslot)
      · exact .inl hslot
      · cases hslot
    · simp [Entry.slots, Conn.entry, Conn.pendingSlot, hphase]
  | @released c clock conn hconn hphase =>
    refine hslotted.drop conn.regSlot (ledger_entries_getElem? hconn) ?_ ?_ (fun key => ?_) _ _ _
    · rfl
    · rintro slot (hslot | hslot)
      · cases hslot
      · exact .inr hslot
    · simp [Entry.slots, Conn.entry, Nat.add_comm]
  | _ => exact ⟨hslotted.keyed, hslotted.counted, hslotted.bounded⟩

/-- In every reachable state the slots are accounted for. -/
theorem slotted_of_reachable (hcap : 0 < setup.config.maxRegistrationsPerIp)
    (h : IsReachable setup sys) : sys.ledger.Slotted setup.config.maxRegistrationsPerIp := by
  refine h.invariant (fun sys => sys.ledger.Slotted setup.config.maxRegistrationsPerIp) ?_ ?_
  · exact ⟨fun entry hmem => (nomatch hmem), fun key => rfl, fun key => Nat.zero_le _⟩
  · intro s label s' hreach hslotted hnext
    exact change_slotted hcap hslotted (next_change (wellFormed_of_reachable hreach) hnext)

/-- A connection that acts under an id holds a slot. -/
theorem isSome_slot_of_seat {conn : Conn crates} {seat : String × String} (hwf : conn.WellFormed)
    (hseat : conn.seat = some seat) : conn.entry.kept.isSome ∨ conn.entry.pending.isSome := by
  have hslotted := hwf.slotted
  cases hphase : conn.phase <;>
    simp only [Conn.seat, hphase, Session.seat, reduceCtorEq, Option.bind_eq_some_iff] at hseat <;>
    simp only [Conn.entry, Conn.pendingSlot, hphase, Option.isSome_some, or_true]
  all_goals
    obtain ⟨peerId, hpeerId, -⟩ := hseat
    simp only [hphase, hpeerId, Option.isSome_some, Phase.isReleased, forall_const,
      Bool.false_eq_true, or_false] at hslotted
    exact .inl hslotted

/-- A held slot counts for one under the key of its connection's source. -/
theorem Ledger.Slotted.weight_eq_one {cap : ℕ} {ledger : Ledger} {entry : Entry} {slot : Slot}
    (h : ledger.Slotted cap) (hmem : entry ∈ ledger.entries)
    (hslot : entry.kept = some slot ∨ entry.pending = some slot) :
    slot.weight (ipKey entry.addr.ip) = 1 := by
  simp [h.keyed entry hmem slot hslot, Slot.weight]

/-- A connection that holds a slot is counted under its source's key. -/
theorem Ledger.Slotted.one_le_slots {cap : ℕ} {ledger : Ledger} {entry : Entry}
    (h : ledger.Slotted cap) (hmem : entry ∈ ledger.entries)
    (hheld : entry.kept.isSome ∨ entry.pending.isSome) : 1 ≤ entry.slots (ipKey entry.addr.ip) := by
  rcases hheld with hheld | hheld <;> obtain ⟨slot, hslot⟩ := Option.isSome_iff_exists.mp hheld
  · simp [Entry.slots, hslot, h.weight_eq_one hmem (.inl hslot)]
  · simp [Entry.slots, hslot, h.weight_eq_one hmem (.inr hslot)]

/-- With a cap of one, no connection that owns a record gets to register again. -/
theorem not_reRegisters_of_cap_one (hwf : sys.WellFormed) (hslotted : sys.ledger.Slotted 1)
    (haccounted : sys.ledger.leases.Accounted) : ¬ ReRegisters sys label := by
  rintro ⟨c, clock, conn, request, slot, peerId, peer, -, hconn, -, hphase, hpeer, rfl, -⟩
  obtain ⟨owner, networkId, howner, hseat⟩ := actsAs_of_lookup haccounted hpeer
  obtain rfl := Option.some.inj (hconn.symm.trans howner)
  have hconnWf := hwf conn (List.mem_of_getElem? hconn)
  have hentry := ledger_entries_getElem? hconn
  have hmem := List.mem_of_getElem? hentry
  have hpending : conn.entry.pending = some slot := by simp [Conn.entry, Conn.pendingSlot, hphase]
  have hkept : conn.entry.kept.isSome := by
    simp only [Conn.seat, hphase, Session.seat, Option.bind_eq_some_iff] at hseat
    obtain ⟨id, hid, -⟩ := hseat
    simpa [hphase, Phase.isReleased, hid, Conn.entry] using hconnWf.slotted
  obtain ⟨first, hfirst⟩ := Option.isSome_iff_exists.mp hkept
  have htwo : conn.entry.slots (ipKey conn.entry.addr.ip) = 2 := by
    simp [Entry.slots, hpending, hfirst, hslotted.weight_eq_one hmem (.inl hfirst),
      hslotted.weight_eq_one hmem (.inr hpending)]
  have htotal := le_poolTotal (Entry.slots (ipKey conn.entry.addr.ip)) _ hmem
  have hcounted := hslotted.counted (ipKey conn.entry.addr.ip)
  have hbounded := hslotted.bounded (ipKey conn.entry.addr.ip)
  omega

/-- The registry records entered by connections whose source has the key. -/
def recordsFrom (sys : System crates) (key : IpKey) : List (String × Peer) :=
  sys.relay.registry.toPairs.filter fun record =>
    sys.conns[record.2.tx]?.any fun conn => ipKey conn.addr.ip = key

/-- Records whose owners act under their ids are at most as many as the slots of their source. -/
theorem recordsFrom_length_le {cap : ℕ} (hwf : sys.WellFormed) (hslotted : sys.ledger.Slotted cap)
    (haccounted : sys.ledger.leases.Accounted) (key : IpKey) :
    (recordsFrom sys key).length ≤ cap := by
  have howner {record : String × Peer} (hmem : record ∈ sys.relay.registry.toPairs) :
      ActsAs sys record.2.tx record.1 :=
    actsAs_of_lookup haccounted ((Table.mem_toPairs_iff _ record.1 record.2).mp hmem)
  have hnodup : ((recordsFrom sys key).map fun record => record.2.tx).Nodup := by
    refine List.Nodup.map_on ?_ ((Table.toPairs_keys_nodup _).of_map.filter _)
    intro left hleft right hright htx
    obtain ⟨conn, networkId, hconn, hseat⟩ := howner (List.mem_of_mem_filter hleft)
    obtain ⟨conn', networkId', hconn', hseat'⟩ := howner (List.mem_of_mem_filter hright)
    rw [htx, hconn'] at hconn
    obtain rfl := Option.some.inj hconn
    obtain ⟨hid, -⟩ := Prod.mk.injEq _ _ _ _ ▸ Option.some.inj (hseat.symm.trans hseat')
    exact List.inj_on_of_nodup_map (Table.toPairs_keys_nodup _) (List.mem_of_mem_filter hleft)
      (List.mem_of_mem_filter hright) hid
  have hheld : ∀ c ∈ (recordsFrom sys key).map fun record => record.2.tx,
      ∃ entry, sys.ledger.entries[c]? = some entry ∧ 1 ≤ entry.slots key := by
    intro c hc
    obtain ⟨record, hrecord, rfl⟩ := List.mem_map.mp hc
    obtain ⟨conn, networkId, hconn, hseat⟩ := howner (List.mem_of_mem_filter hrecord)
    have hkey : ipKey conn.addr.ip = key := by
      simpa [recordsFrom, hconn] using (List.mem_filter.mp hrecord).2
    have hentry := ledger_entries_getElem? hconn
    have hslot := isSome_slot_of_seat (hwf conn (List.mem_of_getElem? hconn)) hseat
    refine ⟨conn.entry, hentry, ?_⟩
    rw [← hkey]
    exact hslotted.one_le_slots (List.mem_of_getElem? hentry) hslot
  calc
    (recordsFrom sys key).length = ((recordsFrom sys key).map fun record => record.2.tx).length :=
      (List.length_map ..).symm
    _ ≤ poolTotal (Entry.slots key) sys.ledger.entries := length_le_poolTotal _ _ _ hnodup hheld
    _ = (sys.ledger.regs.lookup key).getD 0 := (hslotted.counted key).symm
    _ ≤ cap := hslotted.bounded key

/-- With a cap of one, or in every run in which no connection that owns a record registers again
under another id, no source has more records than the cap. -/
theorem run_recordsFrom_le_cap {trace : List (System crates × Label crates × System crates)}
    (hcap : 0 < setup.config.maxRegistrationsPerIp) (hrun : Run setup trace sys)
    (hguard : setup.config.maxRegistrationsPerIp = 1 ∨ ∀ t ∈ trace, ¬ ReRegisters t.1 t.2.1)
    (key : IpKey) : (recordsFrom sys key).length ≤ setup.config.maxRegistrationsPerIp := by
  have haccounted : sys.ledger.leases.Accounted := by
    refine (hrun.invariant_of_guard
      (fun sys label => setup.config.maxRegistrationsPerIp = 1 ∨ ¬ ReRegisters sys label)
      (fun sys => sys.ledger.leases.Accounted) ?_ ?_ ?_).1
    · intro t ht
      exact hguard.imp_right fun hrun => hrun t ht
    · intro peerId lease hlease
      cases hlease
    · intro s label s' hreach hstep haccounted hnext
      have hwf := wellFormed_of_reachable hreach
      refine next_accounted hwf ?_ haccounted hnext
      rcases hstep with hone | hguard
      · exact not_reRegisters_of_cap_one hwf (hone ▸ slotted_of_reachable hcap hreach) haccounted
      · exact hguard
  have hreach : IsReachable setup sys := ⟨trace, hrun⟩
  exact recordsFrom_length_le (wellFormed_of_reachable hreach) (slotted_of_reachable hcap hreach)
    haccounted key

/-- At most two registrations per source, on a plain listener. -/
def twoPerSource : Setup := ⟨{ maxRegistrationsPerIp := 2 }, false⟩

/-- Whether the transition lets an owner register again under another id, as a check. -/
def reRegisters (sys : System crates) : Label crates → Bool
  | .exec c _ => sys.conns[c]?.any fun conn =>
    match conn.phase with
    | .registerLocked request _ => sys.relay.registry.toPairs.any fun record =>
      record.2.tx = c && record.1 ≠ request.peerId
    | _ => false
  | _ => false

/-- The check finds every such transition. -/
theorem reRegisters_of (h : ReRegisters sys label) : reRegisters sys label = true := by
  obtain ⟨c, clock, conn, request, slot, peerId, peer, rfl, hconn, -, hphase, hpeer, htx, hother⟩ := h
  simp only [reRegisters, hconn, Option.any_some, hphase, List.any_eq_true]
  exact ⟨(peerId, peer), (Table.mem_toPairs_iff _ _ _).mpr hpeer, by simp [htx, hother]⟩

/-- Two connections of one source register once each: the source is at its cap of two. -/
theorem run_recordsFrom_at_cap :
    ∃ trace sys, @Run silentCrates twoPerSource trace sys ∧
      (recordsFrom sys (ipKey sampleAddr.ip)).length = 2 ∧
      (recordsFrom sys (ipKey sampleAddr.ip)).length ≤ 2 := by
  obtain ⟨trace, sys, sys', hrun, hcheck, hcount⟩ := @exists_checked_run silentCrates twoPerSource
    (fun sys label => !reRegisters sys label)
    (Script.connect 0 0 ++ Script.register 0 "a" "net" 0 0 ++ Script.connect 1 1 ++
      Script.send 1 (.register "b" "net" 1 []) 1 5) (.exec 1 (atSecond 1))
    (fun _ sys' => (recordsFrom sys' (ipKey sampleAddr.ip)).length = 2) (by decide)
  refine ⟨_, sys', hrun, of_decide_eq_true hcount,
    run_recordsFrom_le_cap (by decide) hrun (.inr fun t ht hagain => ?_) _⟩
  have hpass := hcheck t ht
  rw [reRegisters_of hagain] at hpass
  cases hpass

/-- One connection registers under three ids in turn: three records, one slot, a cap of two. -/
theorem exists_run_recordsFrom_gt_cap :
    ∃ trace sys, @Run silentCrates twoPerSource trace sys ∧
      2 < (recordsFrom sys (ipKey sampleAddr.ip)).length := by
  obtain ⟨trace, sys, sys', hrun, hcount⟩ := @exists_run_step silentCrates twoPerSource
    (Script.connect 0 0 ++ Script.register 0 "a" "net" 0 0 ++ Script.register 0 "b" "other" 1 0 ++
      Script.send 0 (.register "c" "third" 1 []) 2 5) (.exec 0 (atSecond 2))
    (fun _ sys' => 2 < (recordsFrom sys' (ipKey sampleAddr.ip)).length) (by decide)
  exact ⟨_, sys', hrun, of_decide_eq_true hcount⟩

end DigRelay
