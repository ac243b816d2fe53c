import DigRelay.Common.ByteStream
import DigRelay.Common.Digits
import DigRelay.Net

/-!
# Addresses as text

An address is parsed by the standard library: four decimal octets, or up to eight hexadecimal groups of
which a run of zeros may be left out and the last two may be written as an IPv4 address. A reader takes
what it understands off the front of the text and leaves the rest.
-/

namespace DigRelay

open Common

/-- Whether the character is a digit. -/
def isDigit (radix : ℕ) (c : Char) : Bool := (toDigit radix c).isSome

/-- Read a number off the front of a text. All digits in a row belong to it, and it is refused when
there are none or too many, when a leading zero is not allowed, or when it is out of range. -/
def readNumber (radix maxDigits bound : ℕ) (allowZeroPrefix : Bool) (text : List Char) :
    Option (ℕ × List Char) :=
  let digits := (text.takeWhile (isDigit radix)).filterMap (toDigit radix)
  let value := digitsValue radix digits
  if digits = [] ∨ digits.length > maxDigits ∨
      (allowZeroPrefix = false ∧ text.head? = some '0' ∧ digits.length > 1) ∨ value ≥ bound then none
  else some (value, text.dropWhile (isDigit radix))

/-- Read a separator, unless this is the first of the separated parts, and then the part. -/
def readSeparator {A : Type*} (sep : Char) (index : ℕ) (inner : List Char → Option (A × List Char))
    (text : List Char) : Option (A × List Char) :=
  if index = 0 then inner text
  else
    match text with
    | [] => none
    | head :: rest => if head = sep then inner rest else none

section Separator

variable {A : Type*} (sep : Char) {index : ℕ} (inner : List Char → Option (A × List Char))

/-- The first part has no separator. -/
theorem readSeparator_zero (text : List Char) : readSeparator sep 0 inner text = inner text := rfl

/-- The other parts do not stand at the end of the text. -/
theorem readSeparator_nil (h : index ≠ 0) : readSeparator sep index inner [] = none := if_neg h

/-- The other parts stand behind their separator. -/
theorem readSeparator_cons (h : index ≠ 0) (head : Char) (rest : List Char) :
    readSeparator sep index inner (head :: rest) = if head = sep then inner rest else none :=
  if_neg h

end Separator

/-- Read an octet of an IPv4 address. -/
def readOctet (index : ℕ) (text : List Char) : Option (ℕ × List Char) :=
  readSeparator '.' index (readNumber 10 3 256 false) text

/-- Read an IPv4 address. -/
def readIpv4Addr (text : List Char) : Option (BitVec 32 × List Char) := do
  let (a, text) ← readOctet 0 text
  let (b, text) ← readOctet 1 text
  let (c, text) ← readOctet 2 text
  let (d, text) ← readOctet 3 text
  pure (BitVec.ofNat 32 (((a * 256 + b) * 256 + c) * 256 + d), text)

/-- Read the remaining groups of an IPv6 address, of which there are at most `limit` in all. The answer
says whether the last two came from an IPv4 address. -/
def readGroups (limit : ℕ) : ℕ → List Char → List ℕ × Bool × List Char
  | 0, text => ([], false, text)
  | left + 1, text =>
    let index := limit - (left + 1)
    let embedded := if index < limit - 1 then readSeparator ':' index readIpv4Addr text else none
    match embedded with
    | some (bits, rest) => ([bits.toNat / 65536, bits.toNat % 65536], true, rest)
    | none =>
      match readSeparator ':' index (readNumber 16 4 65536 true) text with
      | some (group, rest) =>
        let more := readGroups limit left rest
        (group :: more.1, more.2)
      | none => ([], false, text)

/-- The address with the given groups. -/
def ofGroups (groups : List ℕ) : BitVec 128 :=
  BitVec.ofNat 128 (groups.foldl (fun n group => n * 65536 + group) 0)

/-- Read an IPv6 address. -/
def readIpv6Addr (text : List Char) : Option (BitVec 128 × List Char) :=
  let (head, headIpv4, rest) := readGroups 8 8 text
  if head.length = 8 then some (ofGroups head, rest)
  else if headIpv4 then none
  else
    match rest with
    | ':' :: ':' :: rest =>
      let limit := 8 - (head.length + 1)
      let (tail, _, rest) := readGroups limit limit rest
      some (ofGroups (head ++ List.replicate (8 - head.length - tail.length) 0 ++ tail), rest)
    | _ => none

/-- Read an address of either family. -/
def readIpAddr (text : List Char) : Option (IpAddr × List Char) :=
  match readIpv4Addr text with
  | some (bits, rest) => some (.v4 bits, rest)
  | none => (readIpv6Addr text).map fun (bits, rest) => (.v6 bits, rest)

/-- Parse an address that is the whole text. -/
def parseIpAddr (text : List Char) : Option IpAddr :=
  match readIpAddr text with
  | some (ip, []) => some ip
  | _ => none

example : parseIpAddr "2600:1f18::1".toList = some (.v6 0x26001f18000000000000000000000001) := by
  decide +kernel

example : parseIpAddr "1.2.3.04".toList = none ∧ parseIpAddr "1::2::3".toList = none := by decide +kernel

/-- The decimal digits of an octet. -/
def decimal (octet : UInt8) : List Char := Nat.toDigits 10 octet.toNat

/-- An IPv4 address as four decimal octets. -/
def ipv4Text (bits : BitVec 32) : List Char := List.intercalate ['.'] ((toOctets 4 bits.toNat).map decimal)

/-- The IPv6 address that an IPv4 address is mapped to. -/
def mappedBits (bits : BitVec 32) : BitVec 128 := BitVec.ofNat 128 (0xffff * 2 ^ 32 + bits.toNat)

/-- A mapped address as text. -/
def mappedText (bits : BitVec 32) : List Char := "::ffff:".toList ++ ipv4Text bits

/-- What follows a number does not begin with a digit. -/
def EndsNumber (radix : ℕ) (rest : List Char) : Prop := ∀ c ∈ rest.head?, isDigit radix c = false

/-- A number ends before a character that is no digit. -/
theorem endsNumber_cons {radix : ℕ} {c : Char} (h : isDigit radix c = false) (text : List Char) :
    EndsNumber radix (c :: text) := by
  intro head hhead
  obtain rfl := Option.some.inj hhead
  exact h

/-- A number ends at the end of the text. -/
theorem endsNumber_nil (radix : ℕ) : EndsNumber radix [] := by simp [EndsNumber]

/-- Nothing is read off a text that does not begin with a digit. -/
theorem readNumber_of_endsNumber {radix maxDigits bound : ℕ} {allowZeroPrefix : Bool} {text : List Char}
    (h : EndsNumber radix text) : readNumber radix maxDigits bound allowZeroPrefix text = none := by
  have hnone : text.takeWhile (isDigit radix) = [] := by
    cases text with
    | nil => rfl
    | cons head rest => exact List.takeWhile_cons_of_neg (by simp [h head rfl])
  simp [readNumber, hnone]

/-- The digits of a text followed by something else are those of the text. -/
theorem takeWhile_isDigit {radix : ℕ} {digits rest : List Char} (h : ∀ c ∈ digits, isDigit radix c = true)
    (hrest : EndsNumber radix rest) :
    (digits ++ rest).takeWhile (isDigit radix) = digits ∧
      (digits ++ rest).dropWhile (isDigit radix) = rest := by
  rw [List.takeWhile_append_of_pos h, List.dropWhile_append_of_pos h]
  cases rest with
  | nil => simp
  | cons head rest => simp [hrest head rfl]

/-- A number is read off its numeral, which has no leading zero. -/
theorem readNumber_toDigits {radix maxDigits bound n : ℕ} {rest : List Char} (allowZeroPrefix : Bool)
    (htwo : 1 < radix) (hradix : radix ≤ 16) (hdigits : (Nat.toDigits radix n).length ≤ maxDigits)
    (hn : n < bound) (hrest : EndsNumber radix rest) :
    readNumber radix maxDigits bound allowZeroPrefix (Nat.toDigits radix n ++ rest) = some (n, rest) := by
  have hall : ∀ c ∈ Nat.toDigits radix n, isDigit radix c = true := fun c hc =>
    toDigit_isSome_of_mem htwo hradix hc
  have hvalue := digitsValue_toDigits htwo hradix n
  have hlength : ((Nat.toDigits radix n).filterMap (toDigit radix)).length =
      (Nat.toDigits radix n).length :=
    List.filterMap_length_eq_length.mpr hall
  have hne : (Nat.toDigits radix n).filterMap (toDigit radix) ≠ [] := by
    intro hnil
    rw [hnil, List.length_nil, eq_comm, List.length_eq_zero_iff] at hlength
    exact Nat.toDigits_ne_nil hlength
  have hhead : (Nat.toDigits radix n ++ rest).head? = some '0' → (Nat.toDigits radix n).length ≤ 1 := by
    rw [List.head?_append_of_ne_nil _ Nat.toDigits_ne_nil]
    intro hzero
    rw [eq_zero_of_head?_toDigits htwo hradix hzero]
    exact (Nat.length_toDigits_le_iff htwo Nat.one_pos).mpr (by rw [pow_one]; omega)
  obtain ⟨htake, hdrop⟩ := takeWhile_isDigit hall hrest
  rw [readNumber, htake, hdrop, hvalue, if_neg]
  rw [hlength]
  rintro (hnone | hmany | ⟨-, hzero, hlong⟩ | hlarge)
  · exact hne hnone
  · omega
  · have := hhead hzero
    omega
  · omega

/-- An octet is read off its decimal digits. -/
theorem readNumber_decimal (octet : UInt8) {rest : List Char} (hrest : EndsNumber 10 rest) :
    readNumber 10 3 256 false (decimal octet ++ rest) = some (octet.toNat, rest) := by
  have hoctet := octet.toNat_lt
  have hlength : (Nat.toDigits 10 octet.toNat).length ≤ 3 :=
    (Nat.length_toDigits_le_iff (by decide) (by decide)).mpr (by omega)
  exact readNumber_toDigits false (by decide) (by decide) hlength hoctet hrest

/-- The text of an IPv4 address is made up of its four octets. -/
theorem exists_ipv4Text_eq (bits : BitVec 32) :
    ∃ a b c d, toOctets 4 bits.toNat = [a, b, c, d] ∧
      ipv4Text bits = decimal a ++ '.' :: (decimal b ++ '.' :: (decimal c ++ '.' :: decimal d)) := by
  obtain ⟨a, b, c, d, hoctets⟩ : ∃ a b c d, toOctets 4 bits.toNat = [a, b, c, d] := ⟨_, _, _, _, rfl⟩
  refine ⟨a, b, c, d, hoctets, ?_⟩
  simp [ipv4Text, hoctets, List.intercalate]

/-- An IPv4 address is read off its text. -/
theorem readIpv4Addr_ipv4Text (bits : BitVec 32) {rest : List Char} (hrest : EndsNumber 10 rest) :
    readIpv4Addr (ipv4Text bits ++ rest) = some (bits, rest) := by
  have hvalue : ofOctets (toOctets 4 bits.toNat) = bits.toNat := ofOctets_toOctets bits.isLt
  obtain ⟨a, b, c, d, hoctets, htext⟩ := exists_ipv4Text_eq bits
  have hdot (text : List Char) : EndsNumber 10 ('.' :: text) := endsNumber_cons (by decide) text
  have hnumber : ((a.toNat * 256 + b.toNat) * 256 + c.toNat) * 256 + d.toNat = bits.toNat := by
    rw [← hvalue, hoctets]
    simp [ofOctets]
  rw [htext]
  simp only [List.append_assoc, List.cons_append]
  simp only [readIpv4Addr, readOctet, readSeparator, readNumber_decimal _ (hdot _),
    readNumber_decimal _ hrest, if_true, if_false, Option.bind_eq_bind, Option.bind_some, hnumber,
    one_ne_zero, OfNat.ofNat_ne_zero]
  simp

/-- The text of an IPv4 address parses as that address. -/
theorem parseIpAddr_ipv4Text (bits : BitVec 32) : parseIpAddr (ipv4Text bits) = some (.v4 bits) := by
  have hread := @readIpv4Addr_ipv4Text bits [] (endsNumber_nil 10)
  rw [List.append_nil] at hread
  simp only [parseIpAddr, readIpAddr, hread]

/-- No IPv4 address is read off a text that does not begin with a digit. -/
theorem readIpv4Addr_of_endsNumber {text : List Char} (h : EndsNumber 10 text) :
    readIpv4Addr text = none := by
  simp [readIpv4Addr, readOctet, readSeparator, readNumber_of_endsNumber h]

/-- The groups before a run of zeros at the beginning are none. -/
theorem readGroups_colon (left : ℕ) (text : List Char) :
    readGroups (left + 1) (left + 1) (':' :: text) = ([], false, ':' :: text) := by
  have hdecimal : EndsNumber 10 (':' :: text) := endsNumber_cons (by decide) text
  have hgroup : EndsNumber 16 (':' :: text) := endsNumber_cons (by decide) text
  simp [readGroups, readSeparator, readIpv4Addr_of_endsNumber hdecimal, readNumber_of_endsNumber hgroup]

/-- The groups after the run of zeros of a mapped address. -/
theorem readGroups_mapped (bits : BitVec 32) {rest : List Char} (hrest : EndsNumber 10 rest) :
    readGroups 7 7 ("ffff:".toList ++ (ipv4Text bits ++ rest)) =
      ([0xffff, bits.toNat / 65536, bits.toNat % 65536], true, rest) := by
  have hread := readIpv4Addr_ipv4Text bits hrest
  generalize ipv4Text bits ++ rest = later at hread
  have hdecimal : EndsNumber 10 ("ffff:".toList ++ later) := endsNumber_cons (by decide) _
  have hcolon : EndsNumber 16 (':' :: later) := endsNumber_cons (by decide) _
  obtain ⟨htake, hdrop⟩ := @takeWhile_isDigit 16 ['f', 'f', 'f', 'f'] _ (List.all_eq_true.mp rfl) hcolon
  have hgroup : readNumber 16 4 65536 true ("ffff:".toList ++ later) = some (0xffff, ':' :: later) := by
    change readNumber 16 4 65536 true (['f', 'f', 'f', 'f'] ++ ':' :: later) = _
    simp only [readNumber, htake, hdrop]
    rfl
  generalize "ffff:".toList ++ later = text at hdecimal hgroup ⊢
  simp [readGroups, readSeparator, readIpv4Addr_of_endsNumber hdecimal, hgroup, hread]

/-- The groups of a mapped address are those of its IPv4 address after `ffff`. -/
theorem ofGroups_mapped (bits : BitVec 32) :
    ofGroups (List.replicate 5 0 ++ [0xffff, bits.toNat / 65536, bits.toNat % 65536]) =
      mappedBits bits := by
  have hvalue : (List.replicate 5 0 ++ [0xffff, bits.toNat / 65536, bits.toNat % 65536]).foldl
      (fun n group => n * 65536 + group) 0 = 0xffff * 2 ^ 32 + bits.toNat := by
    simp [List.replicate]
    omega
  rw [ofGroups, hvalue, mappedBits]

/-- The text of a mapped address begins with a run of zeros. -/
theorem mappedText_eq (bits : BitVec 32) :
    mappedText bits = ':' :: ':' :: ("ffff:".toList ++ ipv4Text bits) := rfl

/-- An address that begins with a run of zeros has as many as its groups leave. -/
theorem readIpv6Addr_of_zeros {text rest : List Char} {tail : List ℕ} {tailIpv4 : Bool}
    (h : readGroups 7 7 text = (tail, tailIpv4, rest)) :
    readIpv6Addr (':' :: ':' :: text) =
      some (ofGroups (List.replicate (8 - tail.length) 0 ++ tail), rest) := by
  simp [readIpv6Addr, readGroups_colon, h]

/-- A mapped address is read off its text. -/
theorem readIpv6Addr_mappedText (bits : BitVec 32) {rest : List Char} (hrest : EndsNumber 10 rest) :
    readIpv6Addr (mappedText bits ++ rest) = some (mappedBits bits, rest) := by
  have hzeros : 8 - [0xffff, bits.toNat / 65536, bits.toNat % 65536].length = 5 := rfl
  rw [mappedText_eq, List.cons_append, List.cons_append, List.append_assoc,
    readIpv6Addr_of_zeros (readGroups_mapped bits hrest), hzeros, ofGroups_mapped]

/-- The text of a mapped address parses as that address. -/
theorem parseIpAddr_mappedText (bits : BitVec 32) :
    parseIpAddr (mappedText bits) = some (.v6 (mappedBits bits)) := by
  have hread := @readIpv6Addr_mappedText bits [] (endsNumber_nil 10)
  rw [List.append_nil] at hread
  have hdecimal : EndsNumber 10 (mappedText bits) := by
    rw [mappedText_eq]
    exact endsNumber_cons (by decide) _
  rw [parseIpAddr, readIpAddr, readIpv4Addr_of_endsNumber hdecimal, hread]
  rfl

/-- A mapped address is unmapped to the address it was mapped from, and to no other. -/
theorem toIpv4Mapped_eq_some {bits : BitVec 128} {mapped : BitVec 32} :
    toIpv4Mapped bits = some mapped ↔ bits = mappedBits mapped := by
  have hbits := bits.isLt
  have hmapped := mapped.isLt
  have hhigh : bits.extractLsb' 32 96 = 0xffff#96 ↔ bits.toNat / 2 ^ 32 = 0xffff := by
    rw [← BitVec.toNat_inj, BitVec.extractLsb'_toNat, Nat.shiftRight_eq_div_pow, BitVec.toNat_ofNat]
    omega
  have hlow : bits.extractLsb' 0 32 = mapped ↔ bits.toNat % 2 ^ 32 = mapped.toNat := by
    rw [← BitVec.toNat_inj, BitVec.extractLsb'_toNat, Nat.shiftRight_zero]
  rw [toIpv4Mapped, Option.ite_none_right_eq_some, Option.some.injEq, hhigh, hlow, ← BitVec.toNat_inj,
    mappedBits, BitVec.toNat_ofNat]
  omega

/-- An address denotes an IPv4 address exactly when it is written natively or mapped. -/
theorem toCanonical_eq_v4_iff {ip : IpAddr} {bits : BitVec 32} :
    ip.toCanonical = .v4 bits ↔ ip = .v4 bits ∨ ip = .v6 (mappedBits bits) := by
  cases ip with
  | v4 native => simp [IpAddr.toCanonical]
  | v6 wide =>
    have hcanonical : (IpAddr.v6 wide).toCanonical = .v4 bits ↔ toIpv4Mapped wide = some bits := by
      rw [IpAddr.toCanonical]
      cases toIpv4Mapped wide <;> simp
    rw [hcanonical, toIpv4Mapped_eq_some]
    simp

end DigRelay
