import DigRelay.Common.Bits
import DigRelay.ProxyProtocol
import Mathlib.Data.List.Forall2

/-!
# Which proxies are trusted

A block of addresses is compared octet by octet and then under a mask, which amounts to comparing bit
strings up to the length of the block. The asking address is unmapped before the comparison and the
base of the block is not, so a base that is itself IPv4-mapped can never be matched by its own entry. It
is trusted exactly when another entry, in native notation, covers it.
-/

namespace DigRelay

open Common

/-- A bit of an address, the most significant first. -/
def IpAddr.bit (ip : IpAddr) (i : ℕ) : Bool :=
  match ip with
  | .v4 bits => bits.getMsbD i
  | .v6 bits => bits.getMsbD i

/-- The number of bits of an address. -/
def IpAddr.width (ip : IpAddr) : ℕ := if ip.isIpv4 then 32 else 128

/-- The bits of the octets of a number are those of the bit vector it came from. -/
theorem bitAt_toOctets_toNat {count i : ℕ} (bits : BitVec (8 * count)) (hi : i < 8 * count) :
    bitAt (toOctets count bits.toNat) i = bits.getMsbD i := by
  rw [bitAt_toOctets hi, BitVec.getMsbD_eq_getLsbD, decide_eq_true hi, Bool.true_and, BitVec.getLsbD]

/-- The octets of an address have its bits. -/
theorem bitAt_octets {ip : IpAddr} {i : ℕ} (hi : i < ip.width) : bitAt ip.octets i = ip.bit i := by
  cases ip with
  | v4 bits => exact @bitAt_toOctets_toNat 4 i bits hi
  | v6 bits => exact @bitAt_toOctets_toNat 16 i bits hi

/-- Octets match on a prefix exactly when their first bits agree. -/
theorem prefixMatches_iff {a b : List UInt8} {prefixLen : UInt8} (ha : prefixLen.toNat ≤ 8 * a.length)
    (hb : prefixLen.toNat ≤ 8 * b.length) :
    prefixMatches a b prefixLen = true ↔ AgreeOn prefixLen.toNat a b := by
  have hwhole : (prefixLen / 8).toNat = prefixLen.toNat / 8 := by simp
  have hrest : prefixLen % 8 = UInt8.ofNat (prefixLen.toNat % 8) := by
    have hlt : prefixLen.toNat % 8 < 2 ^ 8 := by omega
    apply UInt8.toNat_inj.mp
    rw [UInt8.toNat_mod, UInt8.toNat_ofNat', Nat.mod_eq_of_lt hlt]
    rfl
  have hlen : 8 * (prefixLen.toNat / 8) + prefixLen.toNat % 8 = prefixLen.toNat := by omega
  have htake := @take_eq_iff_agreeOn (prefixLen.toNat / 8) a b (by omega) (by omega)
  have hsplit := @agreeOn_add (prefixLen.toNat / 8) (prefixLen.toNat % 8) (by omega) a b
  rw [hlen] at hsplit
  rw [hsplit, ← htake]
  simp only [prefixMatches, hwhole]
  by_cases hsame : a.take (prefixLen.toNat / 8) = b.take (prefixLen.toNat / 8)
  · rw [if_neg (not_not.mpr hsame)]
    by_cases hnone : prefixLen.toNat % 8 = 0
    · have hzero : prefixLen % 8 = 0 := by rw [hrest, hnone]; rfl
      simp [hzero, hsame, hnone]
    · have hsome : prefixLen % 8 ≠ 0 := by
        intro hzero
        apply hnone
        have hnat := congrArg UInt8.toNat hzero
        simpa using hnat
      have hmasked := masked_eq_iff (Nat.pos_of_ne_zero hnone) (Nat.mod_lt _ (by decide))
        (a.getD (prefixLen.toNat / 8) 0) (b.getD (prefixLen.toNat / 8) 0)
      rw [if_neg hsome, hrest, beq_iff_eq, hmasked]
      exact (and_iff_right hsame).symm
  · rw [if_pos hsame]
    simp [hsame]

/-- The comparison as the code makes it: a slice, an index or a shift that is out of range ends it
without an answer. -/
def prefixMatchesChecked (a b : List UInt8) (prefixLen : UInt8) : Option Bool :=
  let wholeBytes := (prefixLen / 8).toNat
  if a.length < wholeBytes ∨ b.length < wholeBytes then none
  else if a.take wholeBytes ≠ b.take wholeBytes then some false
  else
    let remainingBits := prefixLen % 8
    if remainingBits = 0 then some true
    else if remainingBits > 8 ∨ 8 - remainingBits ≥ 8 then none
    else
      let mask : UInt8 := 0xff <<< (8 - remainingBits)
      a[wholeBytes]?.bind fun x => b[wholeBytes]?.map fun y => x &&& mask == y &&& mask

/-- The comparison of a block as the code makes it. -/
def Cidr.containsChecked (cidr : Cidr) (ip : IpAddr) : Option Bool :=
  match cidr.base, ip.toCanonical with
  | .v4 base, .v4 ip => prefixMatchesChecked (IpAddr.v4 base).octets (IpAddr.v4 ip).octets cidr.prefixLen
  | .v6 base, .v6 ip => prefixMatchesChecked (IpAddr.v6 base).octets (IpAddr.v6 ip).octets cidr.prefixLen
  | _, _ => some false

/-- A prefix no longer than the octets is compared within range. -/
theorem prefixMatchesChecked_eq {a b : List UInt8} {prefixLen : UInt8}
    (ha : prefixLen.toNat ≤ 8 * a.length) (hb : prefixLen.toNat ≤ 8 * b.length) :
    prefixMatchesChecked a b prefixLen = some (prefixMatches a b prefixLen) := by
  have hwhole : (prefixLen / 8).toNat = prefixLen.toNat / 8 := by simp
  have hshift : ∀ octet : UInt8, octet % 8 ≠ 0 → ¬(octet % 8 > 8 ∨ 8 - octet % 8 ≥ 8) :=
    forall_octet (by decide +kernel)
  have hslice : ¬(a.length < (prefixLen / 8).toNat ∨ b.length < (prefixLen / 8).toNat) := by
    rw [hwhole]
    omega
  unfold prefixMatchesChecked prefixMatches
  simp only [if_neg hslice]
  split
  · rfl
  · split
    · rfl
    · rename_i hrest
      have hbits : prefixLen.toNat % 8 ≠ 0 := by
        intro hzero
        apply hrest
        apply UInt8.toNat_inj.mp
        simpa using hzero
      have hindexA : (prefixLen / 8).toNat < a.length := by rw [hwhole]; omega
      have hindexB : (prefixLen / 8).toNat < b.length := by rw [hwhole]; omega
      rw [if_neg (hshift prefixLen hrest), List.getElem?_eq_getElem hindexA,
        List.getElem?_eq_getElem hindexB, List.getD_eq_getElem _ _ hindexA, List.getD_eq_getElem _ _ hindexB]
      rfl

/-- An address has eight bits for each octet. -/
theorem length_octets (ip : IpAddr) : 8 * ip.octets.length = ip.width := by
  cases ip <;> rw [IpAddr.octets, length_toOctets] <;> rfl

/-- Addresses of one family match on a prefix exactly when their first bits agree. -/
theorem prefixMatches_octets_iff {base ip : IpAddr} {prefixLen : UInt8}
    (hbase : prefixLen.toNat ≤ base.width) (hip : prefixLen.toNat ≤ ip.width) :
    prefixMatches base.octets ip.octets prefixLen = true ↔
      ∀ i < prefixLen.toNat, ip.bit i = base.bit i := by
  rw [← length_octets] at hbase hip
  rw [prefixMatches_iff hbase hip]
  rw [length_octets] at hbase hip
  apply forall₂_congr
  intro i hi
  rw [bitAt_octets (hi.trans_le hbase), bitAt_octets (hi.trans_le hip)]
  exact eq_comm

/-- Addresses of one family have the same width. -/
theorem width_eq_of_isIpv4 {a b : IpAddr} (h : a.isIpv4 = b.isIpv4) : a.width = b.width := by
  rw [IpAddr.width, IpAddr.width, h]

/-- Within a family the octets are compared; across families nothing is. -/
theorem Cidr.contains_of_family (cidr : Cidr) (ip : IpAddr) :
    (ip.toCanonical.isIpv4 = cidr.base.isIpv4 →
      cidr.contains ip = prefixMatches cidr.base.octets ip.toCanonical.octets cidr.prefixLen ∧
      cidr.containsChecked ip =
        prefixMatchesChecked cidr.base.octets ip.toCanonical.octets cidr.prefixLen) ∧
    (ip.toCanonical.isIpv4 ≠ cidr.base.isIpv4 →
      cidr.contains ip = false ∧ cidr.containsChecked ip = some false) := by
  obtain ⟨base, prefixLen, hfits⟩ := cidr
  unfold Cidr.contains Cidr.containsChecked
  cases base <;> cases ip.toCanonical <;> simp [IpAddr.isIpv4]

/-- A block holds an address exactly when the canonical address is of its family and agrees with the base
on the bits that count. -/
theorem Cidr.contains_iff (cidr : Cidr) (ip : IpAddr) :
    cidr.contains ip = true ↔ ip.toCanonical.isIpv4 = cidr.base.isIpv4 ∧
      ∀ i < cidr.prefixLen.toNat, ip.toCanonical.bit i = cidr.base.bit i := by
  obtain ⟨hsame, hother⟩ := cidr.contains_of_family ip
  by_cases hfamily : ip.toCanonical.isIpv4 = cidr.base.isIpv4
  · have hfits : cidr.prefixLen.toNat ≤ ip.toCanonical.width := by
      rw [width_eq_of_isIpv4 hfamily]
      exact cidr.fits
    rw [(hsame hfamily).1, prefixMatches_octets_iff cidr.fits hfits]
    exact (and_iff_right hfamily).symm
  · rw [(hother hfamily).1]
    simp [hfamily]

/-- Every block is compared within range. -/
theorem Cidr.containsChecked_eq (cidr : Cidr) (ip : IpAddr) :
    cidr.containsChecked ip = some (cidr.contains ip) := by
  obtain ⟨hsame, hother⟩ := cidr.contains_of_family ip
  by_cases hfamily : ip.toCanonical.isIpv4 = cidr.base.isIpv4
  · have hbase : cidr.prefixLen.toNat ≤ 8 * cidr.base.octets.length := by
      rw [length_octets]
      exact cidr.fits
    have hip : cidr.prefixLen.toNat ≤ 8 * ip.toCanonical.octets.length := by
      rw [length_octets, width_eq_of_isIpv4 hfamily]
      exact cidr.fits
    rw [(hsame hfamily).1, (hsame hfamily).2, prefixMatchesChecked_eq hbase hip]
  · rw [(hother hfamily).1, (hother hfamily).2]

/-- Parsing every part of a list gives the parsed parts in their order. -/
theorem forall₂_of_mapM_ok {entries : List (List Char)} {cidrs : List Cidr}
    (h : entries.mapM Cidr.parse = .ok cidrs) :
    List.Forall₂ (fun entry cidr => Cidr.parse entry = .ok cidr) entries cidrs := by
  induction entries generalizing cidrs with
  | nil =>
    obtain rfl := Except.ok.inj h
    exact .nil
  | cons entry rest ih =>
    rw [List.mapM_cons] at h
    cases hentry : Cidr.parse entry with
    | error e =>
      rw [hentry] at h
      cases h
    | ok cidr =>
      cases hrest : rest.mapM Cidr.parse with
      | error e =>
        rw [hentry, hrest] at h
        cases h
      | ok parsed =>
        rw [hentry, hrest] at h
        obtain rfl := Except.ok.inj h
        exact .cons hentry (ih hrest)

/-- The blocks of a parsed list are the parsed entries, in their order. -/
theorem TrustedProxies.parse_ok {list : List Char} {proxies : TrustedProxies}
    (h : TrustedProxies.parse list = .ok proxies) :
    List.Forall₂ (fun entry cidr => Cidr.parse entry = .ok cidr) (entries list) proxies.cidrs := by
  rw [TrustedProxies.parse] at h
  cases hcidrs : (entries list).mapM Cidr.parse with
  | error e =>
    rw [hcidrs] at h
    cases h
  | ok cidrs =>
    rw [hcidrs] at h
    obtain rfl := Except.ok.inj h
    exact forall₂_of_mapM_ok hcidrs

/-- For every accepted block and every address, the block holds the address exactly when the canonical
form of the address is of the family of the base and both agree, as bit strings, on as many bits as the
prefix is long, and the comparison stays within range. For every accepted list, an address is trusted
exactly when the block of some entry of the list holds it. -/
theorem trusts_iff_bits (ip : IpAddr) :
    (∀ text cidr, Cidr.parse text = .ok cidr →
      (cidr.contains ip = true ↔ ip.toCanonical.isIpv4 = cidr.base.isIpv4 ∧
        ∀ i < cidr.prefixLen.toNat, ip.toCanonical.bit i = cidr.base.bit i) ∧
      (cidr.containsChecked ip).isSome = true) ∧
    ∀ list proxies, TrustedProxies.parse list = .ok proxies →
      List.Forall₂ (fun entry cidr => Cidr.parse entry = .ok cidr) (TrustedProxies.entries list)
        proxies.cidrs ∧
      (proxies.trusts ip = true ↔ ∃ cidr ∈ proxies.cidrs, cidr.contains ip = true) := by
  refine ⟨fun text cidr _ => ⟨cidr.contains_iff ip, ?_⟩, fun list proxies hparse => ⟨?_, ?_⟩⟩
  · rw [cidr.containsChecked_eq]
    rfl
  · exact TrustedProxies.parse_ok hparse
  · rw [TrustedProxies.trusts, List.any_eq_true]

/-- A block of nine bits, as it is written in a list with another one. -/
theorem trusts_iff_bits_mapped :
    ∃ cidr proxies, Cidr.parse "10.0.0.0/9".toList = .ok cidr ∧
      TrustedProxies.parse "10.0.0.0/9, 2001:db8::/32".toList = .ok proxies ∧
      cidr.contains (.v6 0xffff0a7fffff) = true ∧
      (proxies.trusts (.v6 0xffff0a7fffff) = true ↔
        ∃ cidr ∈ proxies.cidrs, cidr.contains (.v6 0xffff0a7fffff) = true) := by
  have hblock : (Cidr.parse "10.0.0.0/9".toList).toOption.any (fun cidr =>
      cidr.base = .v4 0x0a000000 ∧ cidr.prefixLen = 9) = true := by decide +kernel
  have hlist : (TrustedProxies.parse "10.0.0.0/9, 2001:db8::/32".toList).toOption.isSome = true := by
    decide +kernel
  cases hcidr : Cidr.parse "10.0.0.0/9".toList with
  | error e =>
    rw [hcidr] at hblock
    cases hblock
  | ok cidr =>
    cases hproxies : TrustedProxies.parse "10.0.0.0/9, 2001:db8::/32".toList with
    | error e =>
      rw [hproxies] at hlist
      cases hlist
    | ok proxies =>
      rw [hcidr] at hblock
      obtain ⟨hbase, hlong⟩ := of_decide_eq_true hblock
      have hbits := trusts_iff_bits (.v6 0xffff0a7fffff)
      refine ⟨cidr, proxies, rfl, rfl, (hbits.1 _ cidr hcidr).1.mpr ?_, (hbits.2 _ proxies hproxies).2⟩
      rw [hbase, hlong]
      decide +kernel

/-! ### Notations of one address -/

/-- Addresses of one family with the same bits are the same. -/
theorem ip_ext {a b : IpAddr} (hfamily : a.isIpv4 = b.isIpv4) (hbits : ∀ i < b.width, a.bit i = b.bit i) :
    a = b := by
  cases a with
  | v4 a =>
    cases b with
    | v4 b => rw [BitVec.eq_of_getMsbD_eq hbits]
    | v6 b => cases hfamily
  | v6 a =>
    cases b with
    | v4 b => cases hfamily
    | v6 b => rw [BitVec.eq_of_getMsbD_eq hbits]

/-- A host route holds exactly the addresses whose canonical form is its base. -/
theorem Cidr.contains_hostRoute {cidr : Cidr} (h : cidr.prefixLen.toNat = cidr.base.width) (ip : IpAddr) :
    cidr.contains ip = true ↔ ip.toCanonical = cidr.base := by
  rw [cidr.contains_iff, h]
  constructor
  · intro hagree
    exact ip_ext hagree.1 hagree.2
  · intro heq
    rw [heq]
    exact ⟨rfl, fun _ _ => rfl⟩

/-- A character that neither separates entries nor an address from its prefix, nor is trimmed. -/
def isPlain (c : Char) : Bool := c ≠ ',' && c ≠ '/' && !isWhitespace c

/-- The text of an IPv4 address is plain. -/
theorem isPlain_ipv4Text (bits : BitVec 32) : ∀ c ∈ ipv4Text bits, isPlain c = true := by
  have hall : ∀ octet, (decimal octet).all isPlain = true := forall_octet (by decide +kernel)
  have hdigits : ∀ octet, ∀ c ∈ decimal octet, isPlain c = true := fun octet =>
    List.all_eq_true.mp (hall octet)
  obtain ⟨a, b, c, d, -, htext⟩ := exists_ipv4Text_eq bits
  have hdot : isPlain '.' = true := by decide
  intro char hchar
  simp only [htext, List.mem_append, List.mem_cons] at hchar
  rcases hchar with ha | rfl | hb | rfl | hc | rfl | hd
  · exact hdigits a char ha
  · exact hdot
  · exact hdigits b char hb
  · exact hdot
  · exact hdigits c char hc
  · exact hdot
  · exact hdigits d char hd

/-- A plain text that parses as an address is an entry with a host route. -/
theorem cidrParse_of_plain {text : List Char} {base : IpAddr} (hplain : ∀ c ∈ text, isPlain c = true)
    (hbase : parseIpAddr text = some base) :
    ∃ cidr, Cidr.parse text = .ok cidr ∧ cidr.base = base ∧ cidr.prefixLen.toNat = base.width := by
  have hnot (c : Char) (hc : c ∈ text) : c ≠ ',' ∧ c ≠ '/' ∧ isWhitespace c = false := by
    simpa [isPlain, and_assoc] using hplain c hc
  have htrim : trim text = text := trim_eq_self fun c hc => (hnot c hc).2.2
  have hslash : splitOnce '/' text = none := splitOnce_eq_none fun hc => (hnot _ hc).2.1 rfl
  have hfits : (if base.isIpv4 then (32 : UInt8) else 128).toNat ≤ if base.isIpv4 then 32 else 128 := by
    split <;> decide
  refine ⟨⟨base, if base.isIpv4 then 32 else 128, hfits⟩, ?_, rfl, ?_⟩
  · simp only [Cidr.parse, hslash, htrim, hbase]
    exact dif_pos hfits
  · dsimp only [IpAddr.width]
    split <;> rfl

/-- A plain text that parses as an address is a list of one entry. -/
theorem entries_of_plain {text : List Char} {base : IpAddr} (hplain : ∀ c ∈ text, isPlain c = true)
    (hbase : parseIpAddr text = some base) : TrustedProxies.entries text = [text] := by
  have hnot (c : Char) (hc : c ∈ text) : c ≠ ',' ∧ isWhitespace c = false := by
    have hthree : (c ≠ ',' ∧ c ≠ '/') ∧ isWhitespace c = false := by simpa [isPlain] using hplain c hc
    exact ⟨hthree.1.1, hthree.2⟩
  have htrim : trim text = text := trim_eq_self fun c hc => (hnot c hc).2
  have hcomma : text.splitOn ',' = [text] := by
    apply List.splitOnP_eq_singleton
    intro c hc
    simpa using (hnot c hc).1
  have hne : text ≠ [] := by
    rintro rfl
    cases hbase
  simp [TrustedProxies.entries, hcomma, htrim, hne]

/-- A list whose entries all parse is accepted. -/
theorem TrustedProxies.parse_of_entries {list : List Char}
    (h : ∀ entry ∈ entries list, ∃ cidr, Cidr.parse entry = .ok cidr) :
    ∃ proxies, TrustedProxies.parse list = .ok proxies := by
  have hparsed : ∃ cidrs, (entries list).mapM Cidr.parse = .ok cidrs := by
    generalize entries list = entries at h
    induction entries with
    | nil => exact ⟨[], rfl⟩
    | cons entry rest ih =>
      obtain ⟨cidr, hentry⟩ := h entry List.mem_cons_self
      obtain ⟨cidrs, hrest⟩ := ih fun other hother => h other (List.mem_cons_of_mem _ hother)
      refine ⟨cidr :: cidrs, ?_⟩
      rw [List.mapM_cons, hentry, hrest]
      rfl
  obtain ⟨cidrs, hcidrs⟩ := hparsed
  refine ⟨⟨cidrs⟩, ?_⟩
  rw [TrustedProxies.parse, hcidrs]
  rfl

/-- A block is in a parsed list exactly when it is the one of some entry. -/
theorem mem_cidrs_iff {list : List Char} {proxies : TrustedProxies}
    (h : TrustedProxies.parse list = .ok proxies) {cidr : Cidr} :
    cidr ∈ proxies.cidrs ↔ ∃ entry ∈ TrustedProxies.entries list, Cidr.parse entry = .ok cidr := by
  have hparsed := TrustedProxies.parse_ok h
  generalize TrustedProxies.entries list = entries at hparsed
  generalize proxies.cidrs = cidrs at hparsed
  induction hparsed with
  | nil => simp
  | @cons entry block entries cidrs hentry _ ih =>
    rw [List.mem_cons, List.exists_mem_cons_iff, hentry, Except.ok.injEq]
    exact or_congr eq_comm ih

/-- An accepted list trusts what the block of some entry holds. -/
theorem trusts_iff_entries {list : List Char} {proxies : TrustedProxies}
    (h : TrustedProxies.parse list = .ok proxies) (ip : IpAddr) :
    proxies.trusts ip = true ↔ ∃ entry ∈ TrustedProxies.entries list, ∃ cidr,
      Cidr.parse entry = .ok cidr ∧ cidr.contains ip = true := by
  rw [TrustedProxies.trusts, List.any_eq_true]
  simp only [mem_cidrs_iff h]
  constructor
  · rintro ⟨cidr, ⟨entry, hentry, hcidr⟩, hcontains⟩
    exact ⟨entry, hentry, cidr, hcidr, hcontains⟩
  · rintro ⟨entry, hentry, cidr, hcidr, hcontains⟩
    exact ⟨cidr, ⟨entry, hentry, hcidr⟩, hcontains⟩

/-- A block does not tell the notations of an address apart. -/
theorem Cidr.contains_congr (cidr : Cidr) {ip ip' : IpAddr} (h : ip.toCanonical = ip'.toCanonical) :
    cidr.contains ip = cidr.contains ip' := by
  rw [Cidr.contains, Cidr.contains, h]

/-- Some of the entries is an IPv4 block, in native notation, that agrees with the address on the bits
that count. -/
def CoversNatively (entries : List (List Char)) (bits : BitVec 32) : Prop :=
  ∃ entry ∈ entries, ∃ cidr base, Cidr.parse entry = .ok cidr ∧ cidr.base = .v4 base ∧
    ∀ i < cidr.prefixLen.toNat, bits.getMsbD i = base.getMsbD i

/-- A block holds an IPv4 address exactly when it is an IPv4 block that agrees with it. -/
theorem Cidr.contains_v4_iff (cidr : Cidr) (bits : BitVec 32) :
    cidr.contains (.v4 bits) = true ↔
      ∃ base, cidr.base = .v4 base ∧ ∀ i < cidr.prefixLen.toNat, bits.getMsbD i = base.getMsbD i := by
  rw [cidr.contains_iff]
  cases hbase : cidr.base with
  | v4 base => simp [IpAddr.toCanonical, IpAddr.isIpv4, IpAddr.bit]
  | v6 base => simp [IpAddr.toCanonical, IpAddr.isIpv4]

/-- Some entry holds an IPv4 address, in either notation, exactly when some entry covers it natively. -/
theorem coversNatively_iff {entries : List (List Char)} {bits : BitVec 32} {ip : IpAddr}
    (h : ip.toCanonical = .v4 bits) :
    (∃ entry ∈ entries, ∃ cidr, Cidr.parse entry = .ok cidr ∧ cidr.contains ip = true) ↔
      CoversNatively entries bits := by
  have hcontains (cidr : Cidr) : cidr.contains ip = true ↔
      ∃ base, cidr.base = .v4 base ∧ ∀ i < cidr.prefixLen.toNat, bits.getMsbD i = base.getMsbD i := by
    rw [@Cidr.contains_congr cidr ip (.v4 bits) h, cidr.contains_v4_iff]
  simp only [hcontains, CoversNatively, exists_and_left]

/-- A mapped address is the mapped form of an IPv4 address. -/
theorem exists_mappedBits_of_isMapped {ip : IpAddr} (h : ip.isMapped = true) :
    ∃ bits, ip = .v6 (mappedBits bits) := by
  cases ip with
  | v4 bits => cases h
  | v6 wide =>
    obtain ⟨bits, hbits⟩ := Option.isSome_iff_exists.mp h
    exact ⟨bits, congrArg IpAddr.v6 (toIpv4Mapped_eq_some.mp hbits)⟩

/-- Every listed base is trusted exactly when the mapped ones among them are covered natively. -/
theorem trusts_bases_iff {list : List Char} {proxies : TrustedProxies}
    (h : TrustedProxies.parse list = .ok proxies) :
    (∀ entry ∈ TrustedProxies.entries list, ∀ cidr, Cidr.parse entry = .ok cidr →
        proxies.trusts cidr.base = true) ↔
      ∀ entry ∈ TrustedProxies.entries list, ∀ cidr bits, Cidr.parse entry = .ok cidr →
        cidr.base = .v6 (mappedBits bits) → CoversNatively (TrustedProxies.entries list) bits := by
  constructor
  · intro htrusts entry hentry cidr bits hcidr hbase
    have hcanonical : cidr.base.toCanonical = .v4 bits := toCanonical_eq_v4_iff.mpr (.inr hbase)
    exact (coversNatively_iff hcanonical).mp ((trusts_iff_entries h _).mp (htrusts entry hentry cidr hcidr))
  · intro hcovers entry hentry cidr hcidr
    rw [trusts_iff_entries h]
    cases hmapped : cidr.base.isMapped with
    | true =>
      obtain ⟨bits, hbase⟩ := exists_mappedBits_of_isMapped hmapped
      have hcanonical : cidr.base.toCanonical = .v4 bits := toCanonical_eq_v4_iff.mpr (.inr hbase)
      exact (coversNatively_iff hcanonical).mpr (hcovers entry hentry cidr bits hcidr hbase)
    | false =>
      refine ⟨entry, hentry, cidr, hcidr, ?_⟩
      rw [cidr.contains_iff, IpAddr.toCanonical_of_not_mapped hmapped]
      exact ⟨rfl, fun _ _ => rfl⟩

/-- The entry of an IPv4 address holds this address in both forms and nothing else. -/
theorem cidrParse_ipv4Text (bits : BitVec 32) :
    ∃ cidr, Cidr.parse (ipv4Text bits) = .ok cidr ∧
      ∀ ip, cidr.contains ip = true ↔ ip.toCanonical = .v4 bits := by
  obtain ⟨cidr, hcidr, hbase, hlong⟩ :=
    cidrParse_of_plain (isPlain_ipv4Text bits) (parseIpAddr_ipv4Text bits)
  refine ⟨cidr, hcidr, fun ip => ?_⟩
  rw [Cidr.contains_hostRoute (by rw [hlong, hbase]), hbase]

/-- The mapped text of an IPv4 address is plain. -/
theorem isPlain_mappedText (bits : BitVec 32) : ∀ c ∈ mappedText bits, isPlain c = true := by
  intro c hc
  rcases List.mem_append.mp hc with hfront | htext
  · have hall : "::ffff:".toList.all isPlain = true := by decide +kernel
    exact List.all_eq_true.mp hall c hfront
  · exact isPlain_ipv4Text bits c htext

/-- The entry of a mapped address has it as its base and holds nothing. -/
theorem cidrParse_mappedText (bits : BitVec 32) :
    ∃ cidr, Cidr.parse (mappedText bits) = .ok cidr ∧ cidr.base = .v6 (mappedBits bits) ∧
      ∀ ip, cidr.contains ip = false := by
  obtain ⟨cidr, hcidr, hbase, hlong⟩ :=
    cidrParse_of_plain (isPlain_mappedText bits) (parseIpAddr_mappedText bits)
  refine ⟨cidr, hcidr, hbase, fun ip => ?_⟩
  rw [Bool.eq_false_iff, ne_eq, Cidr.contains_hostRoute (by rw [hlong, hbase]), hbase]
  intro hcanonical
  have hunmapped := ip.isMapped_toCanonical
  rw [hcanonical, IpAddr.isMapped, toIpv4Mapped_eq_some.mpr rfl] at hunmapped
  cases hunmapped

/-- Writing one host route in mapped notation changes nothing exactly when the other entries cover the
address natively. -/
theorem trusts_mapped_entry_iff {list list' : List Char} {proxies : TrustedProxies}
    (h : TrustedProxies.parse list = .ok proxies) {before after : List (List Char)} {bits : BitVec 32}
    (hnative : TrustedProxies.entries list = before ++ ipv4Text bits :: after)
    (hmapped : TrustedProxies.entries list' = before ++ mappedText bits :: after) :
    ∃ proxies', TrustedProxies.parse list' = .ok proxies' ∧
      ((∀ ip, proxies.trusts ip = proxies'.trusts ip) ↔ CoversNatively (before ++ after) bits) := by
  obtain ⟨native, hparse, hholds⟩ := cidrParse_ipv4Text bits
  obtain ⟨mapped, hparse', -, hnothing⟩ := cidrParse_mappedText bits
  have hentries : ∀ entry ∈ TrustedProxies.entries list', ∃ cidr, Cidr.parse entry = .ok cidr := by
    intro entry hentry
    rw [hmapped, List.mem_append, List.mem_cons] at hentry
    have hother (hmem : entry ∈ TrustedProxies.entries list) : ∃ cidr, Cidr.parse entry = .ok cidr := by
      obtain ⟨i, hi, rfl⟩ := List.getElem_of_mem hmem
      have hpaired := TrustedProxies.parse_ok h
      have hi' : i < proxies.cidrs.length := by rwa [← hpaired.length_eq]
      exact ⟨_, hpaired.get hi hi'⟩
    rcases hentry with hbefore | rfl | hafter
    · exact hother (by rw [hnative]; exact List.mem_append_left _ hbefore)
    · exact ⟨mapped, hparse'⟩
    · exact hother (by rw [hnative]; exact List.mem_append_right _ (List.mem_cons_of_mem _ hafter))
  obtain ⟨proxies', hlist'⟩ := TrustedProxies.parse_of_entries hentries
  -- both lists trust what the other entries hold; the native one also trusts the address itself
  have hrest (ip : IpAddr) (entry : List Char) :
      (∃ found ∈ before ++ entry :: after, ∃ cidr, Cidr.parse found = .ok cidr ∧ cidr.contains ip = true) ↔
        (∃ cidr, Cidr.parse entry = .ok cidr ∧ cidr.contains ip = true) ∨
          ∃ found ∈ before ++ after, ∃ cidr, Cidr.parse found = .ok cidr ∧ cidr.contains ip = true := by
    simp only [List.mem_append, List.mem_cons, or_and_right, exists_or, exists_eq_left]
    exact or_left_comm
  have hnativeTrusts (ip : IpAddr) : proxies.trusts ip = true ↔ ip.toCanonical = .v4 bits ∨
      ∃ found ∈ before ++ after, ∃ cidr, Cidr.parse found = .ok cidr ∧ cidr.contains ip = true := by
    rw [trusts_iff_entries h, hnative, hrest, hparse]
    simp [hholds]
  have hmappedTrusts (ip : IpAddr) : proxies'.trusts ip = true ↔
      ∃ found ∈ before ++ after, ∃ cidr, Cidr.parse found = .ok cidr ∧ cidr.contains ip = true := by
    rw [trusts_iff_entries hlist', hmapped, hrest, hparse']
    simp [hnothing]
  refine ⟨proxies', hlist', ?_, ?_⟩
  · intro hsame
    have hself : (IpAddr.v4 bits).toCanonical = .v4 bits := rfl
    have htrusted : proxies'.trusts (.v4 bits) = true := by
      rw [← hsame, hnativeTrusts]
      exact .inl hself
    exact (coversNatively_iff hself).mp ((hmappedTrusts _).mp htrusted)
  · intro hcovers ip
    rw [Bool.eq_iff_iff, hnativeTrusts, hmappedTrusts]
    exact or_iff_right_of_imp fun hcanonical => (coversNatively_iff hcanonical).mpr hcovers

/-- The list with one native IPv4 address trusts this address in both forms and nothing else. -/
theorem trusts_ipv4Text (bits : BitVec 32) :
    ∃ single, TrustedProxies.parse (ipv4Text bits) = .ok single ∧
      ∀ ip, single.trusts ip = true ↔ ip = .v4 bits ∨ ip = .v6 (mappedBits bits) := by
  obtain ⟨cidr, hcidr, hholds⟩ := cidrParse_ipv4Text bits
  have hentries := entries_of_plain (isPlain_ipv4Text bits) (parseIpAddr_ipv4Text bits)
  obtain ⟨single, hsingle⟩ := @TrustedProxies.parse_of_entries (ipv4Text bits) (by simp [hentries, hcidr])
  refine ⟨single, hsingle, fun ip => ?_⟩
  rw [trusts_iff_entries hsingle, hentries, ← toCanonical_eq_v4_iff]
  simp [hcidr, hholds]

/-- For every accepted list, every listed base is trusted exactly when each IPv4-mapped one is covered by
an entry in native notation. Writing an IPv4 host route of the list in mapped notation gives an accepted
list, and it trusts the same addresses exactly when another entry covers the address natively. An address is
trusted in whichever notation it asks, and the list with one native address alone trusts its two forms and
nothing else. -/
theorem trusts_notation_iff (list : List Char) (proxies : TrustedProxies)
    (hparse : TrustedProxies.parse list = .ok proxies) :
    ((∀ entry ∈ TrustedProxies.entries list, ∀ cidr, Cidr.parse entry = .ok cidr →
        proxies.trusts cidr.base = true) ↔
      ∀ entry ∈ TrustedProxies.entries list, ∀ cidr bits, Cidr.parse entry = .ok cidr →
        cidr.base = .v6 (mappedBits bits) → CoversNatively (TrustedProxies.entries list) bits) ∧
    (∀ list' before after bits, TrustedProxies.entries list = before ++ ipv4Text bits :: after →
      TrustedProxies.entries list' = before ++ mappedText bits :: after →
      ∃ proxies', TrustedProxies.parse list' = .ok proxies' ∧
        ((∀ ip, proxies.trusts ip = proxies'.trusts ip) ↔ CoversNatively (before ++ after) bits)) ∧
    (∀ bits : BitVec 32, proxies.trusts (.v4 bits) = proxies.trusts (.v6 (mappedBits bits))) ∧
    ∀ bits : BitVec 32, ∃ single, TrustedProxies.parse (ipv4Text bits) = .ok single ∧
      ∀ ip, single.trusts ip = true ↔ ip = .v4 bits ∨ ip = .v6 (mappedBits bits) := by
  refine ⟨trusts_bases_iff hparse, fun list' before after bits hnative hmapped =>
    trusts_mapped_entry_iff hparse hnative hmapped, fun bits => ?_, trusts_ipv4Text⟩
  have hcanonical : (IpAddr.v6 (mappedBits bits)).toCanonical = .v4 bits :=
    toCanonical_eq_v4_iff.mpr (.inr rfl)
  have hsame (cidr : Cidr) : cidr.contains (.v4 bits) = cidr.contains (.v6 (mappedBits bits)) :=
    cidr.contains_congr hcanonical.symm
  unfold TrustedProxies.trusts
  simp only [hsame]

/-- A mapped address listed along with a native block around it is trusted. -/
theorem trusts_notation_iff_covered :
    ∃ proxies, TrustedProxies.parse "::ffff:10.0.0.1, 10.0.0.0/8".toList = .ok proxies ∧
      ∀ entry ∈ TrustedProxies.entries "::ffff:10.0.0.1, 10.0.0.0/8".toList, ∀ cidr,
        Cidr.parse entry = .ok cidr → proxies.trusts cidr.base = true := by
  have hlist : (TrustedProxies.parse "::ffff:10.0.0.1, 10.0.0.0/8".toList).toOption.isSome = true := by
    decide +kernel
  have hentries : TrustedProxies.entries "::ffff:10.0.0.1, 10.0.0.0/8".toList =
      ["::ffff:10.0.0.1".toList, "10.0.0.0/8".toList] := by decide +kernel
  have hfirst : (Cidr.parse "::ffff:10.0.0.1".toList).toOption.all (fun cidr =>
      cidr.base = .v6 (mappedBits 0x0a000001)) = true := by decide +kernel
  have hsecond : (Cidr.parse "10.0.0.0/8".toList).toOption.any (fun cidr =>
      cidr.base = .v4 0x0a000000 ∧ cidr.prefixLen = 8) = true := by decide +kernel
  cases hproxies : TrustedProxies.parse "::ffff:10.0.0.1, 10.0.0.0/8".toList with
  | error e =>
    rw [hproxies] at hlist
    cases hlist
  | ok proxies =>
    cases hblock : Cidr.parse "10.0.0.0/8".toList with
    | error e =>
      rw [hblock] at hsecond
      cases hsecond
    | ok block =>
      rw [hblock] at hsecond
      obtain ⟨hbase, hlong⟩ := of_decide_eq_true hsecond
      refine ⟨proxies, rfl, (trusts_notation_iff _ proxies hproxies).1.mpr ?_⟩
      rw [hentries]
      intro entry hentry cidr bits hcidr hmapped
      rcases List.mem_cons.mp hentry with rfl | hentry
      · rw [hcidr] at hfirst
        have hwide := IpAddr.v6.inj ((of_decide_eq_true hfirst).symm.trans hmapped)
        have hbits : toIpv4Mapped (mappedBits 0x0a000001) = some bits := toIpv4Mapped_eq_some.mpr hwide
        obtain rfl := Option.some.inj ((toIpv4Mapped_eq_some.mpr rfl).symm.trans hbits)
        refine ⟨_, List.mem_cons_of_mem _ (List.mem_singleton_self _), block, 0x0a000000, hblock, hbase, ?_⟩
        rw [hlong]
        decide
      · rw [List.mem_singleton.mp hentry, hblock] at hcidr
        rw [← Except.ok.inj hcidr, hbase] at hmapped
        cases hmapped

/-- Whatever IPv4 address is listed in its mapped form, the list is accepted and trusts nobody, not even
the listed address. -/
theorem trusts_mappedText (bits : BitVec 32) :
    ∃ proxies, TrustedProxies.parse (mappedText bits) = .ok proxies ∧
      (∃ cidr ∈ proxies.cidrs, cidr.base = .v6 (mappedBits bits)) ∧
      ∀ ip, proxies.trusts ip = false := by
  obtain ⟨cidr, hcidr, hbase, hnothing⟩ := cidrParse_mappedText bits
  have hentries := entries_of_plain (isPlain_mappedText bits) (parseIpAddr_mappedText bits)
  obtain ⟨proxies, hproxies⟩ :=
    @TrustedProxies.parse_of_entries (mappedText bits) (by simp [hentries, hcidr])
  refine ⟨proxies, hproxies, ⟨cidr, ?_, hbase⟩, fun ip => ?_⟩
  · rw [mem_cidrs_iff hproxies, hentries]
    exact ⟨_, List.mem_singleton_self _, hcidr⟩
  · rw [Bool.eq_false_iff, ne_eq, trusts_iff_entries hproxies, hentries]
    simp [hcidr, hnothing]

/-- The list `::ffff:10.0.0.1` is accepted and trusts nobody, while the list `10.0.0.1` trusts that address
in both forms. -/
theorem exists_mapped_trusts_nobody :
    (∃ proxies, TrustedProxies.parse "::ffff:10.0.0.1".toList = .ok proxies ∧
      (∃ cidr ∈ proxies.cidrs, cidr.base = .v6 0xffff0a000001) ∧ ∀ ip, proxies.trusts ip = false) ∧
    ∃ proxies, TrustedProxies.parse "10.0.0.1".toList = .ok proxies ∧
      ∀ ip, proxies.trusts ip = true ↔ ip = .v4 0x0a000001 ∨ ip = .v6 0xffff0a000001 := by
  have htext : ipv4Text 0x0a000001 = "10.0.0.1".toList := by decide +kernel
  have hmapped : mappedText 0x0a000001 = "::ffff:10.0.0.1".toList := by decide +kernel
  have hbits : mappedBits 0x0a000001 = 0xffff0a000001 := by decide
  rw [← htext, ← hmapped, ← hbits]
  exact ⟨trusts_mappedText _, trusts_ipv4Text _⟩

end DigRelay
