import DigRelay.AddrText
import DigRelay.Dial
import DigRelay.Server.Run
import DigRelay.Server.Script

/-!
# Which addresses are published for a peer

Every candidate a peer advertises is resolved to an address of its own source, so that nobody can have
the relay publish the address of somebody else. The candidates of one source are all of one family,
which leaves them in the order they were advertised in. An address stays as it was observed or
advertised, though: whether it is a canonical one is up to the listener and to the peer. Only candidates
that are kept as advertised and reach the published list matter for that.
-/

namespace DigRelay

variable {candidate addr : SocketAddr} {advertised : List SocketAddr} {reflexive : IpAddr}

/-- Both functions unmap an IPv4-mapped address. -/
theorem canonical_eq_toCanonical (ip : IpAddr) : canonical ip = ip.toCanonical := by
  cases ip <;> rfl

/-- The two hosts are one source: the same IPv4 address, or addresses of the same IPv6 `/64`. -/
def SameSource (host reflexive : IpAddr) : Prop :=
  (∃ bits, host.toCanonical = .v4 bits ∧ reflexive.toCanonical = .v4 bits) ∨
    ∃ a b, host.toCanonical = .v6 a ∧ reflexive.toCanonical = .v6 b ∧
      a.extractLsb' 64 64 = b.extractLsb' 64 64

/-- A host that belongs to the source is one source with it. -/
theorem sameSource_of_belongsToSource {host : IpAddr} (h : belongsToSource host reflexive = true) :
    SameSource host reflexive := by
  unfold belongsToSource at h
  rw [canonical_eq_toCanonical, canonical_eq_toCanonical] at h
  split at h
  · rename_i a r ha hr
    obtain rfl := of_decide_eq_true h
    exact .inl ⟨a, ha, hr⟩
  · rename_i a r ha hr
    exact .inr ⟨a, r, ha, hr, of_decide_eq_true h⟩
  · cases h

/-- One source has one key. -/
theorem SameSource.ipKey_eq {host : IpAddr} (h : SameSource host reflexive) :
    ipKey host = ipKey reflexive := by
  rcases h with ⟨bits, hhost, hreflexive⟩ | ⟨a, b, hhost, hreflexive, hbits⟩
  · rw [ipKey, ipKey, hhost, hreflexive]
  · rw [ipKey, ipKey, hhost, hreflexive]
    dsimp only
    rw [hbits]

/-- The family of a source is the one of its key. -/
theorem isIpv4_ipKey (ip : IpAddr) : (ipKey ip).isIpv4 = ip.toCanonical.isIpv4 := by
  unfold ipKey
  cases ip.toCanonical <;> rfl

/-- A resolved candidate keeps its port, and its host is the observed one or the candidate's own, which
is then routable and of the same source. -/
theorem resolveOne_cases (candidate : SocketAddr) (reflexive : IpAddr) :
    (resolveOne candidate reflexive = candidate ∧ isUnroutable candidate.ip = false ∧
        SameSource candidate.ip reflexive) ∨
      resolveOne candidate reflexive = { ip := reflexive, port := candidate.port } := by
  unfold resolveOne
  split
  · rename_i hkept
    obtain ⟨hroutable, hbelongs⟩ := Bool.and_eq_true_iff.mp hkept
    exact .inl ⟨rfl, by simpa using hroutable, sameSource_of_belongsToSource hbelongs⟩
  · exact .inr rfl

/-- A resolved candidate has the key of the observed source. -/
theorem ipKey_resolveOne (candidate : SocketAddr) (reflexive : IpAddr) :
    ipKey (resolveOne candidate reflexive).ip = ipKey reflexive := by
  rcases resolveOne_cases candidate reflexive with ⟨heq, -, hsame⟩ | heq
  · rw [heq]
    exact hsame.ipKey_eq
  · rw [heq]

/-- What is kept are the first occurrences of what has not been seen. -/
theorem dedupSeen_eq_eraseDups (seen addrs : List SocketAddr) :
    dedupSeen seen addrs = (addrs.filter (· ∉ seen)).eraseDups := by
  induction addrs generalizing seen with
  | nil => rfl
  | cons addr rest ih =>
    rw [dedupSeen]
    split
    · rename_i hseen
      rw [List.filter_cons_of_neg (by simpa using hseen), ih]
    · rename_i hnew
      rw [List.filter_cons_of_pos (by simpa using hnew), List.eraseDups_cons, ih, List.filter_filter]
      congr 3
      funext other
      rw [Bool.eq_iff_iff]
      simp

/-- Nothing is kept twice, and nothing that has been seen. -/
theorem nodup_dedupSeen (seen addrs : List SocketAddr) :
    (dedupSeen seen addrs).Nodup ∧ ∀ addr ∈ dedupSeen seen addrs, addr ∉ seen := by
  induction addrs generalizing seen with
  | nil => simp [dedupSeen]
  | cons addr rest ih =>
    rw [dedupSeen]
    split
    · exact ih seen
    · rename_i hnew
      obtain ⟨hnodup, hunseen⟩ := ih (addr :: seen)
      refine ⟨List.nodup_cons.mpr ⟨fun hmem => hunseen addr hmem List.mem_cons_self, hnodup⟩, ?_⟩
      intro other hother
      rcases List.mem_cons.mp hother with rfl | hmem
      · exact hnew
      · exact fun hseen => hunseen other hmem (List.mem_cons_of_mem _ hseen)

/-- The resolved candidates without repetitions, in the order of their first occurrence. -/
def distinctResolved (advertised : List SocketAddr) (reflexive : IpAddr) : List SocketAddr :=
  (advertised.map fun candidate => resolveOne candidate reflexive).eraseDups

/-- The distinct resolved candidates are those of the candidates. -/
theorem mem_distinctResolved :
    addr ∈ distinctResolved advertised reflexive ↔
      ∃ candidate ∈ advertised, resolveOne candidate reflexive = addr := by
  rw [distinctResolved, List.mem_eraseDups, List.mem_map]

/-- Nothing has been seen at first, so what is kept are the distinct resolved candidates. -/
theorem dedupSeen_resolved (advertised : List SocketAddr) (reflexive : IpAddr) :
    dedupSeen [] (advertised.map fun candidate => resolveOne candidate reflexive) =
      distinctResolved advertised reflexive := by
  rw [dedupSeen_eq_eraseDups, distinctResolved]
  simp

/-- When the rank of an address depends on its family alone, the candidates are published in the order
they were advertised in. -/
theorem resolveDialable_eq (familyRank : SocketAddr → ℕ)
    (hfamily : ∀ a b : SocketAddr, a.ip.toCanonical.isIpv4 = b.ip.toCanonical.isIpv4 →
      familyRank a = familyRank b) :
    resolveDialable familyRank advertised reflexive =
      (distinctResolved advertised reflexive).take maxDialableCandidates := by
  rw [resolveDialable, dedupSeen_resolved]
  apply List.Pairwise.insertionSort_eq
  apply List.pairwise_of_forall_mem_list
  intro a ha b hb
  obtain ⟨_, -, rfl⟩ := mem_distinctResolved.mp (List.mem_of_mem_take ha)
  obtain ⟨_, -, rfl⟩ := mem_distinctResolved.mp (List.mem_of_mem_take hb)
  apply (hfamily _ _ _).le
  rw [← isIpv4_ipKey, ← isIpv4_ipKey, ipKey_resolveOne, ipKey_resolveOne]

/-- No address is published twice. -/
theorem nodup_resolveDialable (familyRank : SocketAddr → ℕ) (advertised : List SocketAddr)
    (reflexive : IpAddr) : (resolveDialable familyRank advertised reflexive).Nodup := by
  have hnodup := (nodup_dedupSeen [] (advertised.map fun candidate => resolveOne candidate reflexive)).1
  exact (List.perm_insertionSort _ _).nodup_iff.mpr (hnodup.sublist (List.take_sublist _ _))

/-- If the rank of an address depends on its family alone, then for every list of candidates and every
observed source the published list is empty exactly for no candidates, has at most eight entries and no
repetitions, and is the beginning of the distinct resolved candidates. Every port is an advertised one,
every host is the observed one or an advertised routable host of the same source, and all have the
key of the observed source. -/
theorem resolveDialable_own_source (familyRank : SocketAddr → ℕ)
    (hfamily : ∀ a b : SocketAddr, a.ip.toCanonical.isIpv4 = b.ip.toCanonical.isIpv4 →
      familyRank a = familyRank b)
    (advertised : List SocketAddr) (reflexive : IpAddr) :
    let emitted := resolveDialable familyRank advertised reflexive
    (emitted = [] ↔ advertised = []) ∧ emitted.length ≤ 8 ∧ emitted.Nodup ∧
      emitted = (advertised.map fun candidate => resolveOne candidate reflexive).eraseDups.take 8 ∧
      ∀ addr ∈ emitted,
        (∃ candidate ∈ advertised, addr.port = candidate.port) ∧
        (addr.ip = reflexive ∨ ∃ candidate ∈ advertised, addr.ip = candidate.ip ∧
          isUnroutable candidate.ip = false ∧ SameSource candidate.ip reflexive) ∧
        ipKey addr.ip = ipKey reflexive := by
  intro emitted
  have hemitted : emitted = (distinctResolved advertised reflexive).take maxDialableCandidates :=
    resolveDialable_eq familyRank hfamily
  refine ⟨?_, ?_, ?_, hemitted, ?_⟩
  · rw [hemitted, List.take_eq_nil_iff]
    cases advertised with
    | nil => simp [distinctResolved]
    | cons candidate rest => simp [distinctResolved, List.eraseDups_cons, maxDialableCandidates]
  · rw [hemitted]
    exact List.length_take_le _ _
  · exact nodup_resolveDialable familyRank advertised reflexive
  · intro addr haddr
    rw [hemitted] at haddr
    obtain ⟨candidate, hcandidate, rfl⟩ := mem_distinctResolved.mp (List.mem_of_mem_take haddr)
    have hkey := ipKey_resolveOne candidate reflexive
    rcases resolveOne_cases candidate reflexive with ⟨heq, hroutable, hsame⟩ | heq
    · rw [heq] at hkey ⊢
      exact ⟨⟨candidate, hcandidate, rfl⟩, .inr ⟨candidate, hcandidate, rfl, hroutable, hsame⟩, hkey⟩
    · rw [heq] at hkey ⊢
      exact ⟨⟨candidate, hcandidate, rfl⟩, .inl rfl, hkey⟩

/-- IPv6 first. -/
def ipv6First (addr : SocketAddr) : ℕ := if addr.ip.toCanonical.isIpv4 then 1 else 0

/-- A peer at `1.2.3.4` advertises all its interfaces, its own address and somebody else's. -/
theorem resolveDialable_own_source_mixed :
    let emitted := resolveDialable ipv6First
      [⟨.v6 0, 80, 0⟩, ⟨.v4 0x01020304, 81, 0⟩, ⟨.v4 0x09090909, 80, 0⟩] (.v4 0x01020304)
    emitted.Nodup ∧ emitted.length = 2 ∧ ∀ addr ∈ emitted, ipKey addr.ip = .v4 0x01020304 := by
  have hown := resolveDialable_own_source ipv6First (fun a b h => by rw [ipv6First, ipv6First, h])
    [⟨.v6 0, 80, 0⟩, ⟨.v4 0x01020304, 81, 0⟩, ⟨.v4 0x09090909, 80, 0⟩] (.v4 0x01020304)
  obtain ⟨-, -, hnodup, -, hhosts⟩ := hown
  exact ⟨hnodup, by decide, fun addr haddr => (hhosts addr haddr).2.2⟩

/-! ### Canonical forms -/

/-- The candidates that count: the first distinct resolved ones, up to the bound on what is published. -/
def firstResolved (advertised : List SocketAddr) (reflexive : IpAddr) : List SocketAddr :=
  (distinctResolved advertised reflexive).take maxDialableCandidates

/-- What is published are the candidates that count, in some order. -/
theorem perm_resolveDialable (familyRank : SocketAddr → ℕ) (advertised : List SocketAddr)
    (reflexive : IpAddr) :
    (resolveDialable familyRank advertised reflexive).Perm (firstResolved advertised reflexive) := by
  rw [resolveDialable, dedupSeen_resolved]
  exact List.perm_insertionSort _ _

end DigRelay
