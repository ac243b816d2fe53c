import DigRelay.AddrText
import DigRelay.ProxyProtocol
import DigRelay.Safety.DialableAddresses

/-!
# One source, one key

Whether an advertised host belongs to a source is decided by comparing four groups of the unmapped
addresses, and the limits are counted against eight of their octets. Both draw the same line: two hosts
are one source exactly when they have one key. A key is its own key, since no address that ends in eight
zeros is a mapped one.
-/

namespace DigRelay

open Common

/-- Belonging to a source, with IPv6 addresses compared group by group. -/
def belongsBySegments (advertised reflexive : IpAddr) : Bool :=
  match canonical advertised, canonical reflexive with
  | .v4 a, .v4 r => a = r
  | .v6 a, .v6 r => (segments a).take 4 = (segments r).take 4
  | _, _ => false

/-- The key of a source, with IPv6 addresses cut octet by octet. -/
def keyByOctets (ip : IpAddr) : IpKey :=
  match ip.toCanonical with
  | .v4 bits => .v4 bits
  | .v6 bits =>
    .v6 (BitVec.ofNat 128 (ofOctets ((IpAddr.v6 bits).octets.take 8 ++ List.replicate 8 0)))

/-- The first four groups are the upper half of an address. -/
theorem take_segments (bits : BitVec 128) :
    (segments bits).take 4 = fixedDigits 65536 4 (bits.extractLsb' 64 64).toNat := by
  have hhalf : (bits.extractLsb' 64 64).toNat = bits.toNat / 65536 ^ 4 := by
    have hbits := bits.isLt
    rw [BitVec.extractLsb'_toNat, Nat.shiftRight_eq_div_pow]
    omega
  rw [segments, fixedDigits_add 4 4, List.take_left' (length_fixedDigits 4 _), hhalf]

/-- Comparing the first four groups compares the upper halves. -/
theorem sameIpv6Prefix64_eq (a b : BitVec 128) :
    sameIpv6Prefix64 a b = decide ((segments a).take 4 = (segments b).take 4) := by
  have hgroups : (segments a).take 4 = (segments b).take 4 ↔ a.extractLsb' 64 64 = b.extractLsb' 64 64 := by
    constructor
    · intro h
      rw [take_segments, take_segments] at h
      have hvalue (half : BitVec 64) : digitsValue 65536 (fixedDigits 65536 4 half.toNat) = half.toNat :=
        digitsValue_fixedDigits half.isLt
      apply BitVec.eq_of_toNat_eq
      rw [← hvalue, h, hvalue]
    · intro h
      rw [take_segments, take_segments, h]
  rw [sameIpv6Prefix64]
  exact decide_eq_decide.mpr hgroups.symm

/-- The upper half of an address with zeros behind it is its first eight octets with zeros behind. -/
theorem upperHalf_eq (bits : BitVec 128) :
    bits.extractLsb' 64 64 ++ 0#64 =
      BitVec.ofNat 128 (ofOctets ((IpAddr.v6 bits).octets.take 8 ++ List.replicate 8 0)) := by
  have hbits := bits.isLt
  have hhigh : bits.toNat / 256 ^ 8 < 256 ^ 8 := by omega
  have htake : (IpAddr.v6 bits).octets.take 8 = toOctets 8 (bits.toNat / 256 ^ 8) := by
    rw [IpAddr.octets, toOctets_add 8 8, List.take_left' (length_toOctets 8 _)]
  rw [htake, ofOctets_append_zeros, ofOctets_toOctets hhigh]
  apply BitVec.eq_of_toNat_eq
  rw [BitVec.toNat_append, BitVec.extractLsb'_toNat, BitVec.toNat_ofNat, BitVec.toNat_ofNat,
    Nat.zero_mod, Nat.or_zero, Nat.shiftLeft_eq, Nat.shiftRight_eq_div_pow]
  omega

/-- An address that ends in eight zeros is no mapped one. -/
theorem toIpv4Mapped_append_zeros (upper : BitVec 64) : toIpv4Mapped (upper ++ 0#64) = none := by
  apply if_neg
  intro hmapped
  have hvalue := congrArg BitVec.toNat hmapped
  rw [BitVec.extractLsb'_toNat, BitVec.toNat_append, BitVec.toNat_ofNat, BitVec.toNat_ofNat,
    Nat.zero_mod, Nat.or_zero, Nat.shiftLeft_eq, Nat.shiftRight_eq_div_pow] at hvalue
  omega

/-- The key of a key is the key. -/
theorem ipKey_ipKey (ip : IpAddr) : ipKey (ipKey ip) = ipKey ip := by
  cases hip : ip.toCanonical with
  | v4 bits =>
    have hkey : ipKey ip = .v4 bits := by rw [ipKey, hip]
    rw [hkey]
    rfl
  | v6 bits =>
    have hkey : ipKey ip = .v6 (bits.extractLsb' 64 64 ++ 0#64) := by rw [ipKey, hip]
    rw [hkey, ipKey, IpAddr.toCanonical, toIpv4Mapped_append_zeros]
    dsimp only
    rw [BitVec.extractLsb'_append_eq_left]

/-- Comparing groups decides what belongs to a source. -/
theorem belongsBySegments_eq (advertised reflexive : IpAddr) :
    belongsBySegments advertised reflexive = belongsToSource advertised reflexive := by
  unfold belongsBySegments belongsToSource
  cases canonical advertised with
  | v4 a => cases canonical reflexive <;> rfl
  | v6 a =>
    cases canonical reflexive with
    | v4 r => rfl
    | v6 r => exact (sameIpv6Prefix64_eq a r).symm

/-- Cutting octets gives the key. -/
theorem keyByOctets_eq (ip : IpAddr) : keyByOctets ip = ipKey ip := by
  unfold keyByOctets ipKey
  cases ip.toCanonical with
  | v4 bits => rfl
  | v6 bits => exact congrArg IpAddr.v6 (upperHalf_eq bits).symm

/-- Hosts with one key are one source. -/
theorem belongsToSource_of_ipKey_eq {host reflexive : IpAddr} (h : ipKey host = ipKey reflexive) :
    belongsToSource host reflexive = true := by
  unfold ipKey at h
  unfold belongsToSource
  rw [canonical_eq_toCanonical, canonical_eq_toCanonical]
  cases hhost : host.toCanonical with
  | v4 a =>
    cases hreflexive : reflexive.toCanonical with
    | v4 r =>
      rw [hhost, hreflexive] at h
      exact decide_eq_true (IpAddr.v4.inj h)
    | v6 r =>
      rw [hhost, hreflexive] at h
      cases h
  | v6 a =>
    cases hreflexive : reflexive.toCanonical with
    | v4 r =>
      rw [hhost, hreflexive] at h
      cases h
    | v6 r =>
      rw [hhost, hreflexive] at h
      exact decide_eq_true ((BitVec.append_left_inj 0#64).mp (IpAddr.v6.inj h))

/-- Belonging to a source is having its key. -/
theorem belongsToSource_iff (host reflexive : IpAddr) :
    belongsToSource host reflexive = true ↔ ipKey host = ipKey reflexive :=
  ⟨fun h => (sameSource_of_belongsToSource h).ipKey_eq, belongsToSource_of_ipKey_eq⟩

/-- A host belongs to a source exactly when the two have one key, whether hosts are compared and keys are
cut by halves or, as in the two modules, by groups on the one side and by octets on the other. So
belonging to a source is an equivalence, and a key is its own key. -/
theorem belongsToSource_agrees_with_ipKey :
    (∀ advertised reflexive : IpAddr,
        belongsToSource advertised reflexive = true ↔ ipKey advertised = ipKey reflexive) ∧
      (∀ advertised reflexive : IpAddr, belongsBySegments advertised reflexive = true ↔
        keyByOctets advertised = keyByOctets reflexive) ∧
      (∀ advertised reflexive : IpAddr,
        belongsBySegments advertised reflexive = belongsToSource advertised reflexive) ∧
      (∀ ip : IpAddr, keyByOctets ip = ipKey ip) ∧
      Equivalence (fun advertised reflexive => belongsToSource advertised reflexive = true) ∧
      ∀ ip : IpAddr, ipKey (ipKey ip) = ipKey ip := by
  refine ⟨belongsToSource_iff, ?_, belongsBySegments_eq, keyByOctets_eq, ⟨?_, ?_, ?_⟩, ipKey_ipKey⟩
  · intro advertised reflexive
    rw [belongsBySegments_eq, keyByOctets_eq, keyByOctets_eq, belongsToSource_iff]
  · intro host
    rw [belongsToSource_iff]
  · intro host reflexive h
    rw [belongsToSource_iff] at h ⊢
    exact h.symm
  · intro host middle reflexive hleft hright
    rw [belongsToSource_iff] at hleft hright ⊢
    exact hleft.trans hright

end DigRelay
