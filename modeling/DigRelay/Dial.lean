import DigRelay.Net
import Mathlib.Data.List.Sort

/-!
# Dialable candidate addresses

A node advertises where it listens; the relay publishes a candidate host only when it belongs
to the source the relay observed, and substitutes the observed host otherwise. The order of
address families comes from a shared crate and is a parameter.
-/

namespace DigRelay

/-- The bound on published candidates. -/
def maxDialableCandidates : ℕ := 8

/-- Bits of the leading 16-bit segment of an IPv6 address. -/
def leadingSegment (bits : BitVec 128) : BitVec 16 := bits.extractLsb' 112 16

/-- Unique-local and link-local IPv6 addresses. -/
def isIpv6Local (bits : BitVec 128) : Bool :=
  leadingSegment bits &&& 0xfe00#16 = 0xfc00#16 ∨ leadingSegment bits &&& 0xffc0#16 = 0xfe80#16

/-- IPv4 addresses that cannot be dialled across the internet. -/
def isUnroutableV4 (bits : BitVec 32) : Bool :=
  bits = 0 ∨ bits.extractLsb' 24 8 = 127#8 ∨
    (bits.extractLsb' 24 8 = 10#8 ∨ bits.extractLsb' 20 12 = 0xac1#12 ∨
      bits.extractLsb' 16 16 = 0xc0a8#16) ∨
    bits.extractLsb' 16 16 = 0xa9fe#16

/-- Whether a host is unspecified, loopback, private or link-local. -/
def isUnroutable : IpAddr → Bool
  | .v4 bits => isUnroutableV4 bits
  | .v6 bits =>
    match toIpv4Mapped bits with
    | some mapped => isUnroutableV4 mapped
    | none => bits = 0 ∨ bits = 1 ∨ isIpv6Local bits

/-- The canonical form used for comparing hosts. -/
def canonical : IpAddr → IpAddr
  | .v6 bits =>
    match toIpv4Mapped bits with
    | some mapped => .v4 mapped
    | none => .v6 bits
  | .v4 bits => .v4 bits

/-- Agreement on the first four segments. -/
def sameIpv6Prefix64 (a b : BitVec 128) : Bool := a.extractLsb' 64 64 = b.extractLsb' 64 64

/-- Whether the advertised host is the observed one or shares its `/64`. -/
def belongsToSource (advertised reflexive : IpAddr) : Bool :=
  match canonical advertised, canonical reflexive with
  | .v4 a, .v4 r => a = r
  | .v6 a, .v6 r => sameIpv6Prefix64 a r
  | _, _ => false

/-- Keep a routable candidate of the source, otherwise substitute the observed host. -/
def resolveOne (candidate : SocketAddr) (reflexive : IpAddr) : SocketAddr :=
  if !isUnroutable candidate.ip && belongsToSource candidate.ip reflexive then candidate
  else { ip := reflexive, port := candidate.port }

/-- Drop every element already seen. -/
def dedupSeen (seen : List SocketAddr) : List SocketAddr → List SocketAddr
  | [] => []
  | addr :: rest =>
    if addr ∈ seen then dedupSeen seen rest else addr :: dedupSeen (addr :: seen) rest

/-- The first distinct resolved candidates, in family order. -/
def resolveDialable (familyRank : SocketAddr → ℕ) (advertised : List SocketAddr)
    (reflexive : IpAddr) : List SocketAddr :=
  let resolved := advertised.map fun candidate => resolveOne candidate reflexive
  ((dedupSeen [] resolved).take maxDialableCandidates).insertionSort
    fun a b => familyRank a ≤ familyRank b

end DigRelay
