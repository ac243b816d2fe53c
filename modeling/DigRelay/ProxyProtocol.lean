import DigRelay.Common.ByteStream
import DigRelay.IpText

/-!
# The PROXY protocol, version 2

Behind a load balancer every connection comes from the balancer. A trusted balancer puts a header in
front of what the client sends, which says where the client is. The header has a fixed part of
sixteen octets, the last two of which give the length of the address block that follows. What turns
out not to be a header is put back in front of the stream.
-/

namespace DigRelay

open Common

/-- The octets every header opens with. -/
def v2Signature : List UInt8 :=
  [0x0d, 0x0a, 0x0d, 0x0a, 0x00, 0x0d, 0x0a, 0x51, 0x55, 0x49, 0x54, 0x0a]

/-- The length of the fixed part of a header. -/
def v2FixedLen : ℕ := 16

/-- The bound on the address block. -/
def maxAddressBlock : ℕ := 1024

/-- The address block describes the client. -/
def cmdProxy : UInt8 := 0x01

/-- The connection is the proxy's own. -/
def cmdLocal : UInt8 := 0x00

/-- TCP over IPv4. -/
def afTcp4 : UInt8 := 0x11

/-- TCP over IPv6. -/
def afTcp6 : UInt8 := 0x21

/-- What a header says about the source. -/
inductive Header
  | proxy (addr : SocketAddr)
  | noSource
  deriving DecidableEq

/-- Why octets are no header. -/
inductive HeaderError
  | notProxyProtocol
  | malformed
  deriving DecidableEq

/-- The version and command of a fixed part and the length of the address block. -/
def parseFixed (fixed : List UInt8) : Except HeaderError (UInt8 × ℕ) :=
  if fixed.take 12 ≠ v2Signature then .error .notProxyProtocol
  else
    let verCmd := fixed.getD 12 0
    if verCmd >>> 4 ≠ 2 then .error .malformed
    else if verCmd &&& 0x0f ≠ cmdProxy ∧ verCmd &&& 0x0f ≠ cmdLocal then .error .malformed
    else
      let len := ofOctets [fixed.getD 14 0, fixed.getD 15 0]
      if len > maxAddressBlock then .error .malformed else .ok (verCmd, len)

/-- The source an address block declares. Whatever follows the addresses and ports is ignored. -/
def parseAddressBlock (verCmd family : UInt8) (block : List UInt8) : Except HeaderError Header :=
  if verCmd &&& 0x0f = cmdLocal then .ok .noSource
  else if family = afTcp4 then
    if block.length < 12 then .error .malformed
    else
      let ip := BitVec.ofNat 32 (ofOctets (block.take 4))
      let port := UInt16.ofNat (ofOctets ((block.drop 8).take 2))
      .ok (.proxy { ip := .v4 ip, port })
  else if family = afTcp6 then
    if block.length < 36 then .error .malformed
    else
      let ip := BitVec.ofNat 128 (ofOctets (block.take 16))
      let port := UInt16.ofNat (ofOctets ((block.drop 32).take 2))
      .ok (.proxy { ip := .v6 ip, port })
  else .ok .noSource

/-- The octets of an address. -/
def IpAddr.octets : IpAddr → List UInt8
  | .v4 bits => toOctets 4 bits.toNat
  | .v6 bits => toOctets 16 bits.toNat

/-- A block of addresses: a base and the number of bits that count. -/
structure Cidr where
  base : IpAddr
  prefixLen : UInt8
  fits : prefixLen.toNat ≤ if base.isIpv4 then 32 else 128

/-- Why a text is no block of addresses. -/
inductive CidrError
  | notAnAddress (addrPart : List Char)
  | notAPrefixLength (prefixPart : List Char)
  | exceeds (prefixLen : UInt8) (base : IpAddr)
  deriving DecidableEq

/-- What is reported about a text that is no block of addresses. -/
def CidrError.text (ipText : IpAddr → String) : CidrError → String
  | .notAnAddress addrPart => "not an IP address: " ++ String.ofList addrPart
  | .notAPrefixLength prefixPart => "not a prefix length: " ++ String.ofList prefixPart
  | .exceeds prefixLen base =>
    "prefix /" ++ toString prefixLen.toNat ++ " exceeds /" ++ (if base.isIpv4 then "32" else "128") ++
      " for " ++ ipText base

/-- Parse an address with the number of its bits that count, or an address of which all count. -/
def Cidr.parse (s : List Char) : Except CidrError Cidr :=
  let parts := match splitOnce '/' s with
    | some (addrPart, prefixPart) => (addrPart, some prefixPart)
    | none => (s, none)
  match parseIpAddr (trim parts.1) with
  | none => .error (.notAnAddress parts.1)
  | some base =>
    let prefixLen : Except CidrError UInt8 := match parts.2 with
      | none => .ok (if base.isIpv4 then 32 else 128)
      | some prefixPart =>
        match parseUnsigned 256 (trim prefixPart) with
        | none => .error (.notAPrefixLength prefixPart)
        | some n => .ok (UInt8.ofNat n)
    prefixLen.bind fun prefixLen =>
      if fits : prefixLen.toNat ≤ if base.isIpv4 then 32 else 128 then .ok { base, prefixLen, fits }
      else .error (.exceeds prefixLen base)

/-- Two octet strings agree on their first bits. -/
def prefixMatches (a b : List UInt8) (prefixLen : UInt8) : Bool :=
  let wholeBytes := (prefixLen / 8).toNat
  if a.take wholeBytes ≠ b.take wholeBytes then false
  else
    let remainingBits := prefixLen % 8
    if remainingBits = 0 then true
    else
      let mask : UInt8 := 0xff <<< (8 - remainingBits)
      (a.getD wholeBytes 0) &&& mask == (b.getD wholeBytes 0) &&& mask

/-- The address is in the block, after an IPv4-mapped one has been unmapped. -/
def Cidr.contains (cidr : Cidr) (ip : IpAddr) : Bool :=
  match cidr.base, ip.toCanonical with
  | .v4 base, .v4 ip => prefixMatches (IpAddr.v4 base).octets (IpAddr.v4 ip).octets cidr.prefixLen
  | .v6 base, .v6 ip => prefixMatches (IpAddr.v6 base).octets (IpAddr.v6 ip).octets cidr.prefixLen
  | _, _ => false

/-- The proxies whose header is believed. -/
structure TrustedProxies where
  cidrs : List Cidr := []

/-- The entries of a comma-separated list. -/
def TrustedProxies.entries (list : List Char) : List (List Char) :=
  ((list.splitOn ',').map trim).filter (· ≠ [])

/-- Parse a comma-separated list of blocks, up to the first that is none. -/
def TrustedProxies.parse (list : List Char) : Except CidrError TrustedProxies :=
  ((entries list).mapM Cidr.parse).map TrustedProxies.mk

/-- A header from the address is believed. -/
def TrustedProxies.trusts (proxies : TrustedProxies) (ip : IpAddr) : Bool :=
  proxies.cidrs.any fun cidr => cidr.contains ip

/-- A stream with octets that were read already put back in front. -/
abbrev PrefixedStream (S : Type*) := Replay S UInt8

/-- Put octets back in front of a stream. -/
def PrefixedStream.new {S : Type*} (prefixBytes : List UInt8) (inner : S) : PrefixedStream S :=
  { front := prefixBytes, pos := 0, inner }

/-- The source a header declares, if it declares one that is understood. -/
def declaredSource (verCmd family : UInt8) (block : List UInt8) : Option SocketAddr :=
  match parseAddressBlock verCmd family block with
  | .ok (.proxy addr) => some addr
  | .ok .noSource => none
  | .error _ => none

/-- Read a header if one is there. What is none is put back in front of the stream; nothing comes
back when the stream ends too early. -/
def readSourceAddr {S : Type*} [Reader S UInt8] (stream : S) :
    Option (Option SocketAddr × PrefixedStream S) :=
  (Reader.readExact stream v2FixedLen).bind fun (fixed, stream) =>
    match parseFixed fixed with
    | .error _ => some (none, PrefixedStream.new fixed stream)
    | .ok (verCmd, blockLen) =>
      (Reader.readExact stream blockLen).map fun (block, stream) =>
        (declaredSource verCmd (fixed.getD 13 0) block, PrefixedStream.new [] stream)

/-- A header of version 2 with its address block. -/
def v2Header (command family : UInt8) (block : List UInt8) : List UInt8 :=
  v2Signature ++ [0x20 ||| command, family] ++ toOctets 2 block.length ++ block

/-- The fixed part of a header with a known command and a block within the bound gives both back. -/
theorem parseFixed_v2Header {command family : UInt8} {block : List UInt8}
    (hcommand : command = cmdProxy ∨ command = cmdLocal) (hblock : block.length ≤ maxAddressBlock) :
    parseFixed (v2Signature ++ [0x20 ||| command, family] ++ toOctets 2 block.length) =
      .ok (0x20 ||| command, block.length) := by
  have hlen : ofOctets (toOctets 2 block.length) = block.length :=
    ofOctets_toOctets (hblock.trans_lt (by decide))
  have hversion : (0x20 ||| command) >>> 4 = 2 := by
    rcases hcommand with rfl | rfl <;> decide
  have hknown : ¬ ((0x20 ||| command) &&& 0x0f ≠ cmdProxy ∧ (0x20 ||| command) &&& 0x0f ≠ cmdLocal) := by
    rcases hcommand with rfl | rfl <;> decide
  have hverCmd : (v2Signature ++ [0x20 ||| command, family] ++ toOctets 2 block.length).getD 12 0 =
      0x20 ||| command := rfl
  have hoctets : [(v2Signature ++ [0x20 ||| command, family] ++ toOctets 2 block.length).getD 14 0,
      (v2Signature ++ [0x20 ||| command, family] ++ toOctets 2 block.length).getD 15 0] =
      toOctets 2 block.length := rfl
  have hsignature : (v2Signature ++ [0x20 ||| command, family] ++ toOctets 2 block.length).take 12 =
      v2Signature := rfl
  unfold parseFixed
  rw [hsignature]
  simp only [hverCmd, hoctets, hlen, hversion, hknown, hblock.not_gt, ne_eq, not_true_eq_false, if_false]

/-- The block is long enough for the addresses and ports of its family. -/
def IsComplete (family : UInt8) (block : List UInt8) : Prop :=
  family = afTcp4 ∧ 12 ≤ block.length ∨ family = afTcp6 ∧ 36 ≤ block.length

instance (family : UInt8) (block : List UInt8) : Decidable (IsComplete family block) :=
  inferInstanceAs (Decidable (_ ∨ _))

/-- The block begins with the octets of the source's address, and its port comes after the two
addresses. -/
def Encodes (family : UInt8) (block : List UInt8) (source : SocketAddr) : Prop :=
  if family = afTcp4 then
    ∃ ip port, source = { ip := .v4 ip, port } ∧ (IpAddr.v4 ip).octets <+: block ∧
      toOctets 2 port.toNat <+: block.drop 8
  else
    ∃ ip port, source = { ip := .v6 ip, port } ∧ (IpAddr.v6 ip).octets <+: block ∧
      toOctets 2 port.toNat <+: block.drop 32

/-- Octets at the beginning are the octets of their number, taken as a word of as many bits. -/
theorem toOctets_take_prefix {count : ℕ} {block : List UInt8} (h : count ≤ block.length) :
    toOctets count (ofOctets (block.take count) % 256 ^ count) <+: block := by
  have hlength : (block.take count).length = count := List.length_take_of_le h
  have hlt := ofOctets_lt (block.take count)
  have hoctets := toOctets_ofOctets (block.take count)
  rw [hlength] at hlt hoctets
  rw [Nat.mod_eq_of_lt hlt, hoctets]
  exact List.take_prefix count block

/-- A complete block declares the source it encodes. -/
theorem declaredSource_of_complete {family : UInt8} {block : List UInt8} (h : IsComplete family block) :
    ∃ source, declaredSource (0x20 ||| cmdProxy) family block = some source ∧
      Encodes family block source := by
  have hproxy : ¬ (0x20 ||| cmdProxy) &&& 0x0f = cmdLocal := by decide
  rcases h with ⟨rfl, hlength⟩ | ⟨rfl, hlength⟩
  · refine ⟨⟨.v4 (BitVec.ofNat 32 (ofOctets (block.take 4))),
      UInt16.ofNat (ofOctets ((block.drop 8).take 2)), 0⟩, ?_, ?_⟩
    · simp only [declaredSource, parseAddressBlock, hproxy, hlength.not_gt, if_false, if_true]
    · rw [Encodes, if_pos rfl]
      refine ⟨_, _, rfl, toOctets_take_prefix (by omega), toOctets_take_prefix ?_⟩
      rw [List.length_drop]
      omega
  · have hfamily : ¬ afTcp6 = afTcp4 := by decide
    refine ⟨⟨.v6 (BitVec.ofNat 128 (ofOctets (block.take 16))),
      UInt16.ofNat (ofOctets ((block.drop 32).take 2)), 0⟩, ?_, ?_⟩
    · simp only [declaredSource, parseAddressBlock, hproxy, hfamily, hlength.not_gt, if_false, if_true]
    · rw [Encodes, if_neg hfamily]
      refine ⟨_, _, rfl, toOctets_take_prefix (by omega), toOctets_take_prefix ?_⟩
      rw [List.length_drop]
      omega

/-- Any other block declares no source. -/
theorem declaredSource_of_not_complete {command family : UInt8} {block : List UInt8}
    (hcommand : command = cmdProxy ∨ command = cmdLocal)
    (h : ¬ (command = cmdProxy ∧ IsComplete family block)) :
    declaredSource (0x20 ||| command) family block = none := by
  rcases hcommand with rfl | rfl
  · have hshort : ¬ IsComplete family block := fun hcomplete => h ⟨rfl, hcomplete⟩
    have hproxy : ¬ (0x20 ||| cmdProxy) &&& 0x0f = cmdLocal := by decide
    unfold declaredSource parseAddressBlock
    rw [if_neg hproxy]
    by_cases h4 : family = afTcp4
    · have hlt : block.length < 12 := not_le.mp fun hle => hshort (.inl ⟨h4, hle⟩)
      rw [if_pos h4, if_pos hlt]
    by_cases h6 : family = afTcp6
    · have hlt : block.length < 36 := not_le.mp fun hle => hshort (.inr ⟨h6, hle⟩)
      rw [if_neg h4, if_pos h6, if_pos hlt]
    · rw [if_neg h4, if_neg h6]
  · rfl

section

variable {S : Type*} [Reader S UInt8] {stream : S} {bytes : List UInt8}

/-- What is no header is left in the stream. -/
theorem readSourceAddr_of_error {e : HeaderError} (h : Reader.Yields stream bytes)
    (hlength : v2FixedLen ≤ bytes.length) (herror : parseFixed (bytes.take v2FixedLen) = .error e) :
    ∃ left, readSourceAddr stream = some (none, left) ∧ Reader.Yields left bytes := by
  obtain ⟨inner, hread, hinner⟩ := Reader.readExact_of_yields h hlength
  have hleft := Replay.yields (r := PrefixedStream.new (bytes.take v2FixedLen) inner) hinner
  rw [Replay.pending, PrefixedStream.new, List.drop_zero, List.take_append_drop] at hleft
  refine ⟨_, ?_, hleft⟩
  rw [readSourceAddr, hread, Option.bind_some]
  simp only [herror]
  rfl

/-- A header is taken off the stream, and what it declares is what its block says. -/
theorem readSourceAddr_of_header {command family : UInt8} {block rest : List UInt8}
    (h : Reader.Yields stream (v2Header command family block ++ rest))
    (hcommand : command = cmdProxy ∨ command = cmdLocal) (hblock : block.length ≤ maxAddressBlock) :
    ∃ left, readSourceAddr stream = some (declaredSource (0x20 ||| command) family block, left) ∧
      Reader.Yields left rest := by
  let fixed := v2Signature ++ [0x20 ||| command, family] ++ toOctets 2 block.length
  have hbytes : v2Header command family block ++ rest = fixed ++ (block ++ rest) := by
    simp only [v2Header, fixed, List.append_assoc]
  have hlength : fixed.length = v2FixedLen := by
    simp [fixed, v2Signature, v2FixedLen]
  rw [hbytes] at h
  have hfixed : v2FixedLen ≤ (fixed ++ (block ++ rest)).length := by simp [hlength]
  obtain ⟨middle, hread, hmiddle⟩ := Reader.readExact_of_yields h hfixed
  rw [List.take_left' hlength] at hread
  rw [List.drop_left' hlength] at hmiddle
  have hall : block.length ≤ (block ++ rest).length := by simp
  obtain ⟨inner, hread', hinner⟩ := Reader.readExact_of_yields hmiddle hall
  rw [List.take_left' rfl] at hread'
  rw [List.drop_left' rfl] at hinner
  refine ⟨PrefixedStream.new [] inner, ?_, ?_⟩
  · rw [readSourceAddr, hread, Option.bind_some]
    simp only [fixed, parseFixed_v2Header hcommand hblock, hread', Option.map_some]
    rfl
  · exact Replay.yields (r := PrefixedStream.new [] inner) hinner

end

end DigRelay
