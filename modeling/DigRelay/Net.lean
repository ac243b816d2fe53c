import Mathlib.Algebra.Ring.Nat

/-!
# Addresses and source keys

Addresses are kept as bit vectors: an IPv4 address is its 32 bits and an IPv6 address its
128 bits, most significant octet first. The per-source limits count against the key computed
here, so that an IPv4-mapped address and every address of one IPv6 `/64` share a budget.
-/

namespace DigRelay

/-- An IPv4 or IPv6 host address. -/
inductive IpAddr
  | v4 (bits : BitVec 32)
  | v6 (bits : BitVec 128)
  deriving DecidableEq

/-- A host and port. Only an IPv6 literal can carry a scope, which is zero otherwise. -/
structure SocketAddr where
  ip : IpAddr
  port : UInt16
  scopeId : UInt32 := 0
  deriving DecidableEq

/-- The IPv4 address inside `::ffff:a.b.c.d`. -/
def toIpv4Mapped (bits : BitVec 128) : Option (BitVec 32) :=
  if bits.extractLsb' 32 96 = 0xffff#96 then some (bits.extractLsb' 0 32) else none

/-- Unmap an IPv4-mapped IPv6 address; every other address stays as it is. -/
def IpAddr.toCanonical : IpAddr → IpAddr
  | .v4 bits => .v4 bits
  | .v6 bits =>
    match toIpv4Mapped bits with
    | some mapped => .v4 mapped
    | none => .v6 bits

/-- Whether the address is of the IPv4 family as written. -/
def IpAddr.isIpv4 : IpAddr → Bool
  | .v4 _ => true
  | .v6 _ => false

/-- Whether the address is an IPv4 one written as IPv6. -/
def IpAddr.isMapped : IpAddr → Bool
  | .v4 _ => false
  | .v6 bits => (toIpv4Mapped bits).isSome

/-- An address that is not a mapped one is canonical. -/
theorem IpAddr.toCanonical_of_not_mapped {ip : IpAddr} (h : ip.isMapped = false) :
    ip.toCanonical = ip := by
  cases ip with
  | v4 bits => rfl
  | v6 bits =>
    rw [isMapped, Option.isSome_eq_false_iff, Option.isNone_iff_eq_none] at h
    rw [toCanonical, h]

/-- A canonical address is not a mapped one. -/
theorem IpAddr.isMapped_toCanonical (ip : IpAddr) : ip.toCanonical.isMapped = false := by
  cases ip with
  | v4 bits => rfl
  | v6 bits =>
    rw [toCanonical]
    split
    · rfl
    · rename_i hnone
      rw [isMapped, hnone]
      rfl

/-- A normalised source key. -/
abbrev IpKey := IpAddr

/-- The key the per-source limits are counted against: the canonical IPv4 address, or the
first eight octets of an IPv6 address followed by zeros. -/
def ipKey (ip : IpAddr) : IpKey :=
  match ip.toCanonical with
  | .v4 bits => .v4 bits
  | .v6 bits => .v6 (bits.extractLsb' 64 64 ++ 0#64)

end DigRelay
