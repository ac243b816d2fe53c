import DigRelay.Common.Transition
import DigRelay.Limits
import Mathlib.Data.List.Count

/-!
# Slots per source key

Connections and registrations of one source are counted in two maps of the shared policy, and
each count is given back when the slot that stands for it is dropped. Here the policy is driven
by arbitrary callers: any sequence of its operations, with every granted slot kept until some
caller drops it. Under enabled caps each map is then a faithful tally of the live slots.
-/

namespace DigRelay

open Common

/-- The policy together with the slots its callers hold, each with the address it was granted
to. -/
structure HeldSlots where
  abuse : AbuseState
  conns : List (IpAddr × Slot)
  regs : List (IpAddr × Slot)

/-- No slot has been granted yet. -/
def HeldSlots.none : HeldSlots := ⟨AbuseState.default, [], []⟩

/-- The operations of the policy. A slot is dropped by whoever holds it. -/
inductive PolicyOp
  | tryAcquireConn (ip : IpAddr)
  | dropConn (held : IpAddr × Slot)
  | tryAcquireRegistration (ip : IpAddr)
  | dropReg (held : IpAddr × Slot)
  | allowRegistration (ip : IpAddr) (nowMs : ℕ)
  | isBanned (ip : IpAddr) (nowMs : ℕ)
  | recordStrike (ip : IpAddr) (nowMs : ℕ)

/-- One operation of the policy; only a held slot can be dropped. -/
def policyStep (config : RelayServerConfig) (s : HeldSlots) : PolicyOp → Option HeldSlots
  | .tryAcquireConn ip =>
    match s.abuse.tryAcquireConn config ip with
    | some (slot, abuse) => some { s with abuse, conns := (ip, slot) :: s.conns }
    | none => some s
  | .dropConn held =>
    if held ∈ s.conns then
      some { s with abuse := s.abuse.dropConn held.2, conns := s.conns.erase held }
    else none
  | .tryAcquireRegistration ip =>
    match s.abuse.tryAcquireRegistration config ip with
    | some (slot, abuse) => some { s with abuse, regs := (ip, slot) :: s.regs }
    | none => some s
  | .dropReg held =>
    if held ∈ s.regs then
      some { s with abuse := s.abuse.dropReg held.2, regs := s.regs.erase held }
    else none
  | .allowRegistration ip nowMs =>
    some { s with abuse := (s.abuse.allowRegistration config ip nowMs).2 }
  | .isBanned ip nowMs => some { s with abuse := (s.abuse.isBanned config ip nowMs).2 }
  | .recordStrike ip nowMs => some { s with abuse := s.abuse.recordStrike config ip nowMs }

/-- Any interleaving of operations from the start of the policy. -/
abbrev PolicyRun (config : RelayServerConfig)
    (trace : List (HeldSlots × PolicyOp × HeldSlots)) (s : HeldSlots) : Prop :=
  Execution (fun s op s' => policyStep config s op = some s') HeldSlots.none trace s

/-- The number of live tracked slots of the addresses with a key. -/
def liveSlots (live : List (IpAddr × Slot)) (key : IpKey) : ℕ :=
  live.countP fun held => held.2.tracked && ipKey held.1 = key

/-- The counts of one map against the live slots behind them: the count of a key is the number
of its live slots and at most the cap, no key is kept with a count of zero, every live slot finds
a positive count to give back, an address is refused exactly when its key holds `cap` live slots,
and what is granted or dropped under one key leaves every other key alone. -/
structure SlotsAccounted (cap : ℕ) (counts : Table IpKey ℕ) (live : List (IpAddr × Slot)) : Prop where
  exact : ∀ key, (counts.lookup key).getD 0 = liveSlots live key
  capped : ∀ key, liveSlots live key ≤ cap
  positive : ∀ key, counts.lookup key ≠ some 0
  backed : ∀ held ∈ live, held.2.tracked = true → ∃ n, counts.lookup held.2.key = some (n + 1)
  refused : ∀ ip, tryAcquire counts cap ip = none ↔ liveSlots live (ipKey ip) = cap
  grantedOther : ∀ ip slot counts', tryAcquire counts cap ip = some (slot, counts') →
    ∀ key, key ≠ ipKey ip → counts'.lookup key = counts.lookup key
  droppedOther : ∀ held ∈ live, ∀ key, key ≠ ipKey held.1 →
    (dropSlot counts held.2).lookup key = counts.lookup key

/-- The inductive part of the accounting: every live slot is tracked under the key of its
address, the counts are exact and within the cap, and no key is kept with a count of zero. -/
structure SlotsTallied (cap : ℕ) (counts : Table IpKey ℕ) (live : List (IpAddr × Slot)) : Prop where
  tracked : ∀ held ∈ live, held.2 = ⟨true, ipKey held.1⟩
  exact : ∀ key, (counts.lookup key).getD 0 = liveSlots live key
  capped : ∀ key, liveSlots live key ≤ cap
  positive : ∀ key, counts.lookup key ≠ some 0

variable {cap : ℕ} {counts counts' : Table IpKey ℕ} {live : List (IpAddr × Slot)}

/-- No slot is held under an empty map. -/
theorem slotsTallied_nil (cap : ℕ) : SlotsTallied cap ∅ [] :=
  ⟨by simp, fun _ => rfl, fun _ => Nat.zero_le _, fun _ => by simp⟩

/-- A tracked slot that was granted enters its key with one more than before. -/
theorem tryAcquire_lookup {ip : IpAddr} {slot : Slot} (hcap : cap ≠ 0)
    (h : tryAcquire counts cap ip = some (slot, counts')) (key : IpKey) :
    counts'.lookup key =
      if key = ipKey ip then some ((counts.lookup key).getD 0 + 1) else counts.lookup key := by
  dsimp only [tryAcquire] at h
  rw [if_neg hcap] at h
  obtain ⟨granted, hgranted, heq⟩ := Option.map_eq_some_iff.mp h
  obtain ⟨-, rfl⟩ := Prod.mk.injEq _ _ _ _ ▸ heq
  dsimp only [acquireCount] at hgranted
  split at hgranted
  · cases hgranted
  · obtain rfl := Option.some.inj hgranted
    rw [Table.lookup_insert_eq]
    split
    · rename_i hkey
      rw [hkey]
    · rfl

/-- A dropped slot leaves every other key alone. -/
theorem dropSlot_lookup_of_ne {slot : Slot} {key : IpKey} (hkey : key ≠ slot.key) :
    (dropSlot counts slot).lookup key = counts.lookup key := by
  unfold dropSlot
  split
  · unfold releaseCount
    split
    · rfl
    · split
      · rw [Table.lookup_erase_eq, if_neg hkey]
      · rw [Table.lookup_insert_eq, if_neg hkey]
  · rfl

/-- A dropped slot never leaves a zero behind. -/
theorem dropSlot_positive {slot : Slot} (hpositive : ∀ key, counts.lookup key ≠ some 0)
    (key : IpKey) : (dropSlot counts slot).lookup key ≠ some 0 := by
  by_cases hkey : key = slot.key
  · subst hkey
    unfold dropSlot
    split
    · unfold releaseCount
      split
      · exact hpositive _
      · split
        · simp
        · rename_i hrest
          simpa using hrest
    · exact hpositive _
  · rw [dropSlot_lookup_of_ne hkey]
    exact hpositive key

/-- The live slots of a key after one more slot. -/
theorem liveSlots_cons (ip : IpAddr) (key : IpKey) (live : List (IpAddr × Slot)) :
    liveSlots ((ip, ⟨true, ipKey ip⟩) :: live) key =
      liveSlots live key + if key = ipKey ip then 1 else 0 := by
  unfold liveSlots
  rw [List.countP_cons]
  simp [eq_comm]

namespace SlotsTallied

/-- A granted slot is tallied. -/
theorem grant {ip : IpAddr} {slot : Slot} (h : SlotsTallied cap counts live) (hcap : cap ≠ 0)
    (hgrant : tryAcquire counts cap ip = some (slot, counts')) :
    SlotsTallied cap counts' ((ip, slot) :: live) := by
  obtain ⟨hslot, hroom, -⟩ := tryAcquire_some hgrant
  obtain rfl : slot = ⟨true, ipKey ip⟩ := by simpa [hcap] using hslot
  have hbelow : liveSlots live (ipKey ip) < cap := h.exact (ipKey ip) ▸ hroom hcap
  refine ⟨?_, fun key => ?_, fun key => ?_, fun key => ?_⟩
  · intro held hheld
    rcases List.mem_cons.mp hheld with rfl | hold
    · rfl
    · exact h.tracked held hold
  · have hkey := h.exact key
    rw [tryAcquire_lookup hcap hgrant, liveSlots_cons]
    split
    · rw [Option.getD_some, hkey]
    · exact hkey
  · rw [liveSlots_cons]
    split
    · rename_i hkey
      rw [hkey]
      exact hbelow
    · exact h.capped key
  · rw [tryAcquire_lookup hcap hgrant]
    split
    · simp
    · exact h.positive key

/-- The live slots of a key after a held slot was dropped. -/
theorem liveSlots_erase {held : IpAddr × Slot} (h : SlotsTallied cap counts live)
    (hheld : held ∈ live) (key : IpKey) :
    liveSlots (live.erase held) key = liveSlots live key - held.2.weight key := by
  unfold liveSlots Slot.weight
  rw [List.countP_erase, h.tracked held hheld]
  simp [hheld]

/-- A dropped slot is no longer tallied. -/
theorem drop {held : IpAddr × Slot} (h : SlotsTallied cap counts live) (hheld : held ∈ live) :
    SlotsTallied cap (dropSlot counts held.2) (live.erase held) := by
  refine ⟨?_, fun key => ?_, fun key => ?_, dropSlot_positive h.positive⟩
  · intro other hother
    exact h.tracked other (List.mem_of_mem_erase hother)
  · rw [dropSlot_count, h.exact key, h.liveSlots_erase hheld]
  · rw [h.liveSlots_erase hheld]
    exact Nat.le_trans (Nat.sub_le _ _) (h.capped key)

/-- A tallied key with a live slot has a positive count. -/
theorem backed {held : IpAddr × Slot} (h : SlotsTallied cap counts live) (hheld : held ∈ live) :
    ∃ n, counts.lookup held.2.key = some (n + 1) := by
  have hslot := h.tracked held hheld
  have hpos : 0 < liveSlots live held.2.key := by
    refine List.countP_pos_iff.mpr ⟨held, hheld, ?_⟩
    rw [hslot]
    simp
  have hexact := h.exact held.2.key
  cases hlookup : counts.lookup held.2.key with
  | none =>
    rw [hlookup, Option.getD_none] at hexact
    omega
  | some count =>
    cases count with
    | zero => exact absurd hlookup (h.positive _)
    | succ n => exact ⟨n, rfl⟩

/-- An address is refused exactly when its key is full. -/
theorem refused_iff (h : SlotsTallied cap counts live) (hcap : cap ≠ 0) (ip : IpAddr) :
    tryAcquire counts cap ip = none ↔ liveSlots live (ipKey ip) = cap := by
  have hle := h.capped (ipKey ip)
  dsimp only [tryAcquire, acquireCount]
  rw [if_neg hcap, h.exact]
  by_cases hfull : liveSlots live (ipKey ip) ≥ cap
  · rw [if_pos hfull]
    simpa using le_antisymm hle hfull
  · rw [if_neg hfull]
    simp only [Option.map_some, reduceCtorEq, false_iff]
    omega

/-- A tally gives the whole account. -/
theorem accounted (h : SlotsTallied cap counts live) (hcap : cap ≠ 0) :
    SlotsAccounted cap counts live where
  exact := h.exact
  capped := h.capped
  positive := h.positive
  backed := fun _ hheld _ => h.backed hheld
  refused := h.refused_iff hcap
  grantedOther := fun ip slot counts' hgrant key hkey => by
    rw [tryAcquire_lookup hcap hgrant, if_neg hkey]
  droppedOther := fun held hheld key hkey => by
    refine dropSlot_lookup_of_ne ?_
    rw [h.tracked held hheld]
    exact hkey

end SlotsTallied

/-- Both maps of the policy tally the slots held under them. -/
def HeldSlots.Tallied (config : RelayServerConfig) (s : HeldSlots) : Prop :=
  SlotsTallied config.maxConnectionsPerIp s.abuse.connsPerIp s.conns ∧
    SlotsTallied config.maxRegistrationsPerIp s.abuse.regsPerIp s.regs

/-- Every operation of the policy keeps both tallies. -/
theorem policyStep_tallied {config : RelayServerConfig} {s s' : HeldSlots} {op : PolicyOp}
    (hconn : config.maxConnectionsPerIp ≠ 0) (hreg : config.maxRegistrationsPerIp ≠ 0)
    (h : s.Tallied config) (hstep : policyStep config s op = some s') : s'.Tallied config := by
  obtain ⟨hconns, hregs⟩ := h
  cases op <;> simp only [policyStep] at hstep
  case tryAcquireConn ip =>
    split at hstep
    · rename_i slot abuse hgrant
      obtain ⟨⟨_, counts⟩, hcounts, heq⟩ := Option.map_eq_some_iff.mp hgrant
      obtain ⟨rfl, rfl⟩ := Prod.mk.injEq _ _ _ _ ▸ heq
      obtain rfl := Option.some.inj hstep
      exact ⟨hconns.grant hconn hcounts, hregs⟩
    · obtain rfl := Option.some.inj hstep
      exact ⟨hconns, hregs⟩
  case dropConn held =>
    split at hstep
    · rename_i hheld
      obtain rfl := Option.some.inj hstep
      exact ⟨hconns.drop hheld, hregs⟩
    · cases hstep
  case tryAcquireRegistration ip =>
    split at hstep
    · rename_i slot abuse hgrant
      obtain ⟨⟨_, counts⟩, hcounts, heq⟩ := Option.map_eq_some_iff.mp hgrant
      obtain ⟨rfl, rfl⟩ := Prod.mk.injEq _ _ _ _ ▸ heq
      obtain rfl := Option.some.inj hstep
      exact ⟨hconns, hregs.grant hreg hcounts⟩
    · obtain rfl := Option.some.inj hstep
      exact ⟨hconns, hregs⟩
  case dropReg held =>
    split at hstep
    · rename_i hheld
      obtain rfl := Option.some.inj hstep
      exact ⟨hconns, hregs.drop hheld⟩
    · cases hstep
  all_goals
    obtain rfl := Option.some.inj hstep
    simpa [HeldSlots.Tallied] using And.intro hconns hregs

/-- In every interleaving of the policy's operations with both caps enabled, the connection
counts and the registration counts account for exactly the live slots of each source key. -/
theorem policyRun_slotsAccounted {config : RelayServerConfig}
    (hconn : config.maxConnectionsPerIp ≠ 0) (hreg : config.maxRegistrationsPerIp ≠ 0)
    {trace : List (HeldSlots × PolicyOp × HeldSlots)} {s : HeldSlots}
    (hrun : PolicyRun config trace s) :
    SlotsAccounted config.maxConnectionsPerIp s.abuse.connsPerIp s.conns ∧
      SlotsAccounted config.maxRegistrationsPerIp s.abuse.regsPerIp s.regs := by
  obtain ⟨hconns, hregs⟩ : s.Tallied config := by
    refine Reachable.invariant (HeldSlots.Tallied config) ?_ ?_ ⟨trace, hrun⟩
    · exact ⟨slotsTallied_nil _, slotsTallied_nil _⟩
    · intro s op s' _ hs hstep
      exact policyStep_tallied hconn hreg hs hstep
  exact ⟨hconns.accounted hconn, hregs.accounted hreg⟩

/-- With a cap of one, a slot granted to an IPv4-mapped address fills the key of the IPv4 address
inside it. -/
theorem policyRun_slotsAccounted_mapped :
    let config : RelayServerConfig := { maxConnectionsPerIp := 1 }
    ∃ trace s, PolicyRun config trace s ∧ liveSlots s.conns (.v4 0x7f000001) = 1 ∧
      s.abuse.tryAcquireConn config (.v4 0x7f000001) = none ∧
      SlotsAccounted config.maxConnectionsPerIp s.abuse.connsPerIp s.conns ∧
      SlotsAccounted config.maxRegistrationsPerIp s.abuse.regsPerIp s.regs := by
  intro config
  let full (s : HeldSlots) : Bool :=
    liveSlots s.conns (.v4 0x7f000001) = 1 &&
      (s.abuse.tryAcquireConn config (.v4 0x7f000001)).isNone
  obtain ⟨trace, s, s', hrun, -, hfull⟩ := @exists_checked_execution _ _
    (fun s op s' => policyStep config s op = some s') HeldSlots.none (policyStep config)
    (fun _ _ => true) (fun _ _ _ h => h) [.tryAcquireRegistration (.v4 0x7f000001)]
    (.tryAcquireConn (.v6 0xffff7f000001)) (fun _ s' => full s') (by decide)
  obtain ⟨hlive, hrefused⟩ := Bool.and_eq_true_iff.mp hfull
  exact ⟨_, s', hrun, of_decide_eq_true hlive, Option.isNone_iff_eq_none.mp hrefused,
    policyRun_slotsAccounted (by decide) (by decide) hrun⟩

end DigRelay
