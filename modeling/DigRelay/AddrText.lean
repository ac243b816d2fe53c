import DigRelay.IpText

/-!
# Addresses written as text

The standard library writes an IPv6 address as its groups, with the first of the longest runs of zeros
left out, and a mapped one by its IPv4 address. A socket address adds the port, and for IPv6 brackets
and the scope unless it is zero. Whatever is written this way is read back.
-/

namespace DigRelay

open Common

/-- The eight groups of an IPv6 address. -/
def segments (bits : BitVec 128) : List ℕ := fixedDigits 65536 8 bits.toNat

/-- A run of groups. -/
structure Span where
  start : ℕ := 0
  len : ℕ := 0

/-- The first of the longest runs of zeros, where `i` groups have been looked at and the last of them
end a run of their own. -/
def longestZeroes (i : ℕ) (longest current : Span) : List ℕ → Span
  | [] => longest
  | segment :: rest =>
    if segment = 0 then
      let current : Span :=
        { start := if current.len = 0 then i else current.start, len := current.len + 1 }
      longestZeroes (i + 1) (if current.len > longest.len then current else longest) current rest
    else longestZeroes (i + 1) longest {} rest

/-- The run of zeros that is left out. -/
def zeroes (segments : List ℕ) : Span := longestZeroes 0 {} {} segments

/-- A part of the groups with colons in between. -/
def fmtSubslice : List ℕ → List Char
  | [] => []
  | first :: tail => Nat.toDigits 16 first ++ tail.flatMap fun segment => ':' :: Nat.toDigits 16 segment

/-- An IPv6 address as text. -/
def ipv6Text (bits : BitVec 128) : List Char :=
  match toIpv4Mapped bits with
  | some mapped => mappedText mapped
  | none =>
    let segments := segments bits
    let zeroes := zeroes segments
    if zeroes.len > 1 then
      fmtSubslice (segments.take zeroes.start) ++ "::".toList ++
        fmtSubslice (segments.drop (zeroes.start + zeroes.len))
    else fmtSubslice segments

/-- An address as text. -/
def ipText : IpAddr → List Char
  | .v4 bits => ipv4Text bits
  | .v6 bits => ipv6Text bits

/-- A socket address as text. -/
def socketAddrText (addr : SocketAddr) : List Char :=
  let port := ':' :: Nat.toDigits 10 addr.port.toNat
  match addr.ip with
  | .v4 bits => ipv4Text bits ++ port
  | .v6 bits =>
    if addr.scopeId = 0 then '[' :: ipv6Text bits ++ ']' :: port
    else '[' :: ipv6Text bits ++ '%' :: Nat.toDigits 10 addr.scopeId.toNat ++ ']' :: port

/-- Read a number of any length after a character. -/
def readNumberAfter (given : Char) (bound : ℕ) : List Char → Option (ℕ × List Char)
  | [] => none
  | head :: rest => if head = given then readNumber 10 rest.length bound true rest else none

/-- Read a port. -/
def readPort (text : List Char) : Option (UInt16 × List Char) :=
  (readNumberAfter ':' (2 ^ 16) text).map fun (port, rest) => (UInt16.ofNat port, rest)

/-- Read a scope. -/
def readScopeId (text : List Char) : Option (UInt32 × List Char) :=
  (readNumberAfter '%' (2 ^ 32) text).map fun (scope, rest) => (UInt32.ofNat scope, rest)

/-- Read an IPv4 socket address. -/
def readSocketAddrV4 (text : List Char) : Option (SocketAddr × List Char) := do
  let (bits, text) ← readIpv4Addr text
  let (port, text) ← readPort text
  pure ({ ip := .v4 bits, port }, text)

/-- Read an IPv6 socket address. -/
def readSocketAddrV6 : List Char → Option (SocketAddr × List Char)
  | '[' :: text => do
    let (bits, text) ← readIpv6Addr text
    let (scopeId, text) := (readScopeId text).getD (0, text)
    match text with
    | ']' :: text =>
      let (port, text) ← readPort text
      pure ({ ip := .v6 bits, port, scopeId }, text)
    | _ => none
  | _ => none

/-- Parse a socket address that is the whole text. -/
def parseSocketAddr (text : List Char) : Option SocketAddr :=
  match (readSocketAddrV4 text).or (readSocketAddrV6 text) with
  | some (addr, []) => some addr
  | _ => none

/-- An IPv4 socket address is read without a scope. -/
theorem scopeId_of_readSocketAddrV4 {text rest : List Char} {addr : SocketAddr}
    (h : readSocketAddrV4 text = some (addr, rest)) : addr.scopeId = 0 := by
  simp only [readSocketAddrV4, Option.bind_eq_bind, Option.bind_eq_some_iff, Option.pure_def,
    Option.some.injEq, Prod.mk.injEq] at h
  obtain ⟨_, -, _, -, haddr, -⟩ := h
  rw [← haddr]

/-- An IPv6 socket address is read as one. -/
theorem isIpv4_of_readSocketAddrV6 {text rest : List Char} {addr : SocketAddr}
    (h : readSocketAddrV6 text = some (addr, rest)) : addr.ip.isIpv4 = false := by
  unfold readSocketAddrV6 at h
  split at h
  · obtain ⟨ip, -, h⟩ := Option.bind_eq_some_iff.mp h
    dsimp only at h
    split at h
    · obtain ⟨port, -, h⟩ := Option.bind_eq_some_iff.mp h
      rw [← (Prod.mk.inj (Option.some.inj h)).1]
      rfl
    · cases h
  · cases h

/-- A parsed IPv4 socket address has no scope. -/
theorem scopeId_of_parseSocketAddr {text : List Char} {addr : SocketAddr}
    (h : parseSocketAddr text = some addr) : addr.ip.isIpv4 = true → addr.scopeId = 0 := by
  intro hv4
  unfold parseSocketAddr at h
  split at h
  · rename_i found hread
    obtain rfl := Option.some.inj h
    rcases Option.or_eq_some_iff.mp hread with hread | hread
    · exact scopeId_of_readSocketAddrV4 hread
    · rw [isIpv4_of_readSocketAddrV6 hread.2] at hv4
      cases hv4
  · cases h

example : (parseSocketAddr "[fe80::1%4]:9450".toList).map (String.ofList ∘ socketAddrText) =
    some "[fe80::1%4]:9450" := by
  decide +kernel

example : String.ofList (ipv6Text 0x20010db8000000000001000000000001) = "2001:db8::1:0:0:1" := by
  decide +kernel

section Groups

/-- The groups of an address make it up. -/
theorem ofGroups_segments (bits : BitVec 128) : ofGroups (segments bits) = bits := by
  have hvalue : digitsValue 65536 (segments bits) = bits.toNat := digitsValue_fixedDigits bits.isLt
  rw [digitsValue] at hvalue
  rw [ofGroups, hvalue, BitVec.ofNat_toNat, BitVec.setWidth_eq]

/-- There are eight groups. -/
theorem length_segments (bits : BitVec 128) : (segments bits).length = 8 := length_fixedDigits 8 _

/-- Every group has sixteen bits. -/
theorem lt_of_mem_segments {bits : BitVec 128} {segment : ℕ} (h : segment ∈ segments bits) :
    segment < 65536 :=
  lt_of_mem_fixedDigits (by decide) h

/-- All groups of a run are zeros. -/
def IsZeroRun (all : List ℕ) (span : Span) : Prop :=
  ∀ j, span.start ≤ j → j < span.start + span.len → all[j]? = some 0

/-- The empty run is one of zeros. -/
theorem isZeroRun_empty (all : List ℕ) : IsZeroRun all {} := by
  intro j _ hj
  exact absurd hj (Nat.not_lt_zero j)

/-- A run that ends where a zero stands grows by it, and an empty one begins there. -/
theorem IsZeroRun.grow {all : List ℕ} {current : Span} {i : ℕ} (hcurrent : IsZeroRun all current)
    (hend : current.len ≠ 0 → current.start + current.len = i) (hzero : all[i]? = some 0) :
    IsZeroRun all { start := if current.len = 0 then i else current.start, len := current.len + 1 } := by
  intro j hstart hj
  dsimp only at hstart hj
  by_cases hlast : j = i
  · rw [hlast, hzero]
  · by_cases hempty : current.len = 0
    · rw [if_pos hempty] at hstart hj
      omega
    · rw [if_neg hempty] at hstart hj
      have hstop := hend hempty
      exact hcurrent j hstart (by omega)

/-- The longest run is one of zeros. -/
theorem isZeroRun_longestZeroes {all before rest : List ℕ} {longest current : Span}
    (hall : all = before ++ rest) (hlongest : IsZeroRun all longest) (hcurrent : IsZeroRun all current)
    (hend : current.len ≠ 0 → current.start + current.len = before.length) :
    IsZeroRun all (longestZeroes before.length longest current rest) := by
  induction rest generalizing before longest current with
  | nil => exact hlongest
  | cons segment rest ih =>
    have hnext : all = (before ++ [segment]) ++ rest := by rw [hall, List.append_assoc]; rfl
    have hlength : before.length + 1 = (before ++ [segment]).length := by
      rw [List.length_append, List.length_singleton]
    rw [longestZeroes, hlength]
    split
    · rename_i hzero
      have hhere : all[before.length]? = some 0 := by
        rw [hall, List.getElem?_append_right (Nat.le_refl _), Nat.sub_self, List.getElem?_cons_zero, hzero]
      have hgrown := hcurrent.grow hend hhere
      apply ih hnext _ hgrown
      · intro _
        rw [← hlength]
        by_cases hempty : current.len = 0
        · rw [if_pos hempty, hempty]
        · rw [if_neg hempty, ← Nat.add_assoc, hend hempty]
      · -- the run that has grown is taken if it is the longest now
        by_cases hlonger : current.len + 1 > longest.len
        · rw [if_pos hlonger]
          exact hgrown
        · rw [if_neg hlonger]
          exact hlongest
    · exact ih hnext hlongest (isZeroRun_empty all) (fun h => absurd rfl h)

/-- A run of zeros can be left out and put back. -/
theorem take_append_zeroes (all : List ℕ) :
    all.take (zeroes all).start ++ List.replicate (zeroes all).len 0 ++
      all.drop ((zeroes all).start + (zeroes all).len) = all := by
  have hrun : IsZeroRun all (zeroes all) :=
    @isZeroRun_longestZeroes all [] all {} {} rfl (isZeroRun_empty all) (isZeroRun_empty all)
      (fun h => absurd rfl h)
  have hmiddle : (all.drop (zeroes all).start).take (zeroes all).len =
      List.replicate (zeroes all).len 0 := by
    apply List.ext_getElem?
    intro j
    rw [List.getElem?_take, List.getElem?_drop, List.getElem?_replicate]
    split
    · exact hrun _ (Nat.le_add_right _ j) (by omega)
    · rfl
  rw [← hmiddle, List.append_assoc, ← List.drop_drop, List.take_append_drop, List.take_append_drop]

end Groups

section Reading

/-- A digit of a radix is one of every larger radix. -/
theorem isDigit_mono {radix wider : ℕ} (h : radix ≤ wider) {c : Char} (hc : isDigit radix c = true) :
    isDigit wider c = true := by
  obtain ⟨value, hvalue⟩ := Option.isSome_iff_exists.mp hc
  rw [toDigit, Option.filter_eq_some_iff] at hvalue
  obtain ⟨hchar, hlt⟩ := hvalue
  have hwider : toDigit wider c = some value := by
    rw [toDigit, Option.filter_eq_some_iff]
    exact ⟨hchar, decide_eq_true ((of_decide_eq_true hlt).trans_le h)⟩
  rw [isDigit, hwider, Option.isSome_some]

/-- What ends a number ends one of every smaller radix. -/
theorem EndsNumber.mono {radix wider : ℕ} (h : radix ≤ wider) {rest : List Char}
    (hrest : EndsNumber wider rest) : EndsNumber radix rest := by
  intro c hc
  rw [← Bool.not_eq_true]
  intro hdigit
  exact absurd (hrest c hc) (by rw [isDigit_mono h hdigit]; decide)

/-- What may follow a group: no digit, and no dot, which would make it an octet. -/
structure AfterGroup (rest : List Char) : Prop where
  number : EndsNumber 16 rest
  dot : rest.head? ≠ some '.'

/-- What may follow the last group: it is no separator with another group behind it. -/
structure AfterGroups (rest : List Char) : Prop extends AfterGroup rest where
  colon : ∀ more, rest = ':' :: more → EndsNumber 16 more

/-- A colon may follow a group. -/
theorem afterGroup_colon (rest : List Char) : AfterGroup (':' :: rest) where
  number := endsNumber_cons (by decide) rest
  dot := by simp

/-- A group is no octet of an IPv4 address. -/
theorem head?_dropWhile_ne_dot {group rest : List Char} (hgroup : ∀ c ∈ group, isDigit 16 c = true)
    (hrest : AfterGroup rest) : ((group ++ rest).dropWhile (isDigit 10)).head? ≠ some '.' := by
  induction group with
  | nil =>
    have hdrop := (@takeWhile_isDigit 10 [] rest (by simp) (hrest.number.mono (by decide))).2
    rw [hdrop]
    exact hrest.dot
  | cons head group ih =>
    obtain ⟨hhead, hgroup⟩ := List.forall_mem_cons.mp hgroup
    rw [List.cons_append]
    by_cases hdecimal : isDigit 10 head = true
    · rw [List.dropWhile_cons_of_pos hdecimal]
      exact ih hgroup
    · rw [List.dropWhile_cons_of_neg hdecimal, List.head?_cons]
      rintro ⟨rfl⟩
      exact absurd hhead (by decide)

/-- No IPv4 address is read where a group stands. -/
theorem readIpv4Addr_group {group rest : List Char} (hgroup : ∀ c ∈ group, isDigit 16 c = true)
    (hrest : AfterGroup rest) : readIpv4Addr (group ++ rest) = none := by
  have hdot := head?_dropWhile_ne_dot hgroup hrest
  have hsecond : readOctet 1 ((group ++ rest).dropWhile (isDigit 10)) = none := by
    cases hlater : (group ++ rest).dropWhile (isDigit 10) with
    | nil => exact readSeparator_nil '.' _ one_ne_zero
    | cons head later =>
      rw [hlater, List.head?_cons] at hdot
      rw [readOctet, readSeparator_cons '.' _ one_ne_zero, if_neg]
      exact fun heq => hdot (congrArg some heq)
  rw [readIpv4Addr, readOctet, readSeparator_zero, readNumber]
  split
  · rfl
  · simp only [Option.bind_eq_bind, Option.bind_some, hsecond, Option.bind_none]

/-- No group is read where they have ended. -/
theorem readGroups_of_afterGroups (limit left : ℕ) {rest : List Char} (hrest : AfterGroups rest) :
    readGroups limit left rest = ([], false, rest) := by
  have hnone {A : Type} (index : ℕ) (inner : List Char → Option (A × List Char))
      (hinner : ∀ text, EndsNumber 16 text → inner text = none) :
      readSeparator ':' index inner rest = none := by
    by_cases hfirst : index = 0
    · rw [hfirst, readSeparator_zero]
      exact hinner rest hrest.number
    · cases hrest' : rest with
      | nil => exact readSeparator_nil ':' inner hfirst
      | cons head later =>
        rw [readSeparator_cons ':' inner hfirst]
        split
        · rename_i heq
          exact hinner later (hrest.colon later (by rw [hrest', heq]))
        · rfl
  cases left with
  | zero => rfl
  | succ left =>
    have hembedded := hnone (limit - (left + 1)) readIpv4Addr
      (fun text h => readIpv4Addr_of_endsNumber (h.mono (by decide)))
    have hgroup := hnone (limit - (left + 1)) (readNumber 16 4 65536 true)
      (fun text h => readNumber_of_endsNumber h)
    simp only [readGroups, hembedded, hgroup, ite_self]

/-- A group is read, and the others after it. -/
theorem readGroups_group {limit left group : ℕ} {text later : List Char} (hgroup : group < 65536)
    (hlater : AfterGroup later)
    (htext : ∀ (A : Type) (inner : List Char → Option (A × List Char)),
      readSeparator ':' (limit - (left + 1)) inner text = inner (Nat.toDigits 16 group ++ later)) :
    readGroups limit (left + 1) text =
      (group :: (readGroups limit left later).1, (readGroups limit left later).2) := by
  have hdigits : ∀ c ∈ Nat.toDigits 16 group, isDigit 16 c = true := fun c hc =>
    toDigit_isSome_of_mem (by decide) (by decide) hc
  have hlength : (Nat.toDigits 16 group).length ≤ 4 :=
    (Nat.length_toDigits_le_iff (by decide) (by decide)).mpr hgroup
  have hread := readNumber_toDigits true (by decide) (by decide) hlength hgroup hlater.number
  simp only [readGroups, htext, readIpv4Addr_group hdigits hlater, hread, ite_self]

/-- Groups after colons are read. -/
theorem readGroups_flatMap {limit left : ℕ} {groups : List ℕ} {rest : List Char}
    (hgroups : ∀ group ∈ groups, group < 65536) (hleft : left < limit) (hlength : groups.length ≤ left)
    (hrest : AfterGroup rest) (hstop : groups.length = left ∨ AfterGroups rest) :
    readGroups limit left (groups.flatMap (fun group => ':' :: Nat.toDigits 16 group) ++ rest) =
      (groups, false, rest) := by
  induction groups generalizing left with
  | nil =>
    rcases hstop with hleft | hrest
    · rw [← hleft]
      rfl
    · exact readGroups_of_afterGroups limit left hrest
  | cons group groups ih =>
    obtain ⟨hgroup, hgroups⟩ := List.forall_mem_cons.mp hgroups
    obtain ⟨left, rfl⟩ : ∃ less, left = less + 1 := ⟨left - 1, by simp at hlength; omega⟩
    have hlater : AfterGroup (groups.flatMap (fun group => ':' :: Nat.toDigits 16 group) ++ rest) := by
      cases groups with
      | nil => exact hrest
      | cons next groups => exact afterGroup_colon _
    rw [readGroups_group hgroup hlater, ih hgroups (by omega) (by simpa using hlength)
      (by simpa using hstop)]
    intro A inner
    have hindex : limit - (left + 1) ≠ 0 := by omega
    rw [List.flatMap_cons, List.cons_append, List.cons_append, readSeparator_cons ':' inner hindex,
      if_pos rfl, List.append_assoc]

/-- A part of the groups is read. -/
theorem readGroups_fmtSubslice {limit : ℕ} {groups : List ℕ} {rest : List Char}
    (hgroups : ∀ group ∈ groups, group < 65536) (hlength : groups.length ≤ limit)
    (hrest : AfterGroup rest) (hstop : groups.length = limit ∨ AfterGroups rest) :
    readGroups limit limit (fmtSubslice groups ++ rest) = (groups, false, rest) := by
  cases groups with
  | nil =>
    rcases hstop with hlimit | hrest
    · rw [← hlimit]
      rfl
    · exact readGroups_of_afterGroups limit limit hrest
  | cons group groups =>
    obtain ⟨hgroup, hgroups⟩ := List.forall_mem_cons.mp hgroups
    obtain ⟨left, rfl⟩ : ∃ left, limit = left + 1 := ⟨limit - 1, by simp at hlength; omega⟩
    have hlater : AfterGroup (groups.flatMap (fun group => ':' :: Nat.toDigits 16 group) ++ rest) := by
      cases groups with
      | nil => exact hrest
      | cons next groups => exact afterGroup_colon _
    rw [readGroups_group hgroup hlater, readGroups_flatMap hgroups (Nat.lt_succ_self left)
      (by simpa using hlength) hrest (by simpa using hstop)]
    intro A inner
    rw [Nat.sub_self, readSeparator_zero, fmtSubslice, List.append_assoc]

/-- An address of eight groups is read. -/
theorem readIpv6Addr_full {groups : List ℕ} {rest : List Char} (hlength : groups.length = 8)
    (hgroups : ∀ group ∈ groups, group < 65536) (hrest : AfterGroup rest) :
    readIpv6Addr (fmtSubslice groups ++ rest) = some (ofGroups groups, rest) := by
  have hread := readGroups_fmtSubslice hgroups hlength.le hrest (.inl hlength)
  simp only [readIpv6Addr, hread, hlength, if_true]

/-- An address with a run of zeros left out is read, if at least two are. -/
theorem readIpv6Addr_compressed {head tail : List ℕ} {rest : List Char}
    (hlength : head.length + tail.length < 7) (hhead : ∀ group ∈ head, group < 65536)
    (htail : ∀ group ∈ tail, group < 65536) (hrest : AfterGroups rest) :
    readIpv6Addr (fmtSubslice head ++ "::".toList ++ fmtSubslice tail ++ rest) =
      some (ofGroups (head ++ List.replicate (8 - head.length - tail.length) 0 ++ tail), rest) := by
  have hcolons : AfterGroups (':' :: ':' :: (fmtSubslice tail ++ rest)) :=
    { afterGroup_colon _ with
      colon := by
        rintro more ⟨rfl⟩
        exact endsNumber_cons (by decide) _ }
  have hbefore := readGroups_fmtSubslice hhead (show head.length ≤ 8 by omega) hcolons.toAfterGroup
    (.inr hcolons)
  have hafter := readGroups_fmtSubslice htail (show tail.length ≤ 8 - (head.length + 1) by omega)
    hrest.toAfterGroup (.inr hrest)
  have htext : fmtSubslice head ++ "::".toList ++ fmtSubslice tail ++ rest =
      fmtSubslice head ++ ':' :: ':' :: (fmtSubslice tail ++ rest) := by simp
  rw [htext]
  simp only [readIpv6Addr, hbefore, hafter, if_neg (show head.length ≠ 8 by omega),
    Bool.false_eq_true, if_false]

/-- An IPv6 address is read off its text. -/
theorem readIpv6Addr_ipv6Text (bits : BitVec 128) {rest : List Char} (hrest : AfterGroups rest) :
    readIpv6Addr (ipv6Text bits ++ rest) = some (bits, rest) := by
  have hall : ∀ group ∈ segments bits, group < 65536 := fun group h => lt_of_mem_segments h
  unfold ipv6Text
  split
  · rename_i mapped hmapped
    rw [toIpv4Mapped_eq_some.mp hmapped]
    exact readIpv6Addr_mappedText mapped (hrest.number.mono (by decide))
  · dsimp only
    split
    · rename_i hlong
      have hsplit := take_append_zeroes (segments bits)
      have hlength := congrArg List.length hsplit
      rw [List.length_append, List.length_append, List.length_replicate, length_segments] at hlength
      rw [readIpv6Addr_compressed (by omega) (fun group h => hall group (List.mem_of_mem_take h))
        (fun group h => hall group (List.mem_of_mem_drop h)) hrest]
      have hzeros : 8 - ((segments bits).take (zeroes (segments bits)).start).length -
          ((segments bits).drop ((zeroes (segments bits)).start + (zeroes (segments bits)).len)).length =
          (zeroes (segments bits)).len := by omega
      rw [hzeros, hsplit, ofGroups_segments]
    · rw [readIpv6Addr_full (length_segments bits) hall hrest.toAfterGroup, ofGroups_segments]

/-- A number is read after its character. -/
theorem readNumberAfter_toDigits (given : Char) {bound n : ℕ} {rest : List Char} (hn : n < bound)
    (hrest : EndsNumber 10 rest) :
    readNumberAfter given bound (given :: (Nat.toDigits 10 n ++ rest)) = some (n, rest) := by
  rw [readNumberAfter, if_pos rfl]
  exact readNumber_toDigits true (by decide) (by decide) (by simp) hn hrest

/-- A port is read. -/
theorem readPort_toDigits (port : UInt16) :
    readPort (':' :: Nat.toDigits 10 port.toNat) = some (port, []) := by
  have hread := readNumberAfter_toDigits ':' port.toNat_lt (endsNumber_nil 10)
  rw [List.append_nil] at hread
  simp only [readPort, hread, Option.map_some, UInt16.ofNat_toNat]

/-- A scope is read. -/
theorem readScopeId_toDigits (scopeId : UInt32) {rest : List Char} (hrest : EndsNumber 10 rest) :
    readScopeId ('%' :: (Nat.toDigits 10 scopeId.toNat ++ rest)) = some (scopeId, rest) := by
  simp only [readScopeId, readNumberAfter_toDigits '%' scopeId.toNat_lt hrest, Option.map_some,
    UInt32.ofNat_toNat]

/-- Any other character ends the groups. -/
theorem afterGroups_cons {c : Char} (hnumber : isDigit 16 c = false) (hdot : c ≠ '.') (hcolon : c ≠ ':')
    (rest : List Char) : AfterGroups (c :: rest) where
  number := endsNumber_cons hnumber rest
  dot := by simpa using hdot
  colon := by
    rintro more ⟨rfl⟩
    exact absurd rfl hcolon

/-- An IPv4 socket address parses from its text. -/
theorem parseSocketAddr_v4 (bits : BitVec 32) (port : UInt16) :
    parseSocketAddr (ipv4Text bits ++ ':' :: Nat.toDigits 10 port.toNat) =
      some { ip := .v4 bits, port } := by
  have hread := readIpv4Addr_ipv4Text bits
    (@endsNumber_cons 10 ':' (by decide) (Nat.toDigits 10 port.toNat))
  simp only [parseSocketAddr, readSocketAddrV4, hread, readPort_toDigits, Option.bind_eq_bind,
    Option.bind_some, Option.pure_def, Option.some_or]

/-- An IPv6 socket address parses from an address, perhaps a scope, and a port. -/
theorem parseSocketAddr_v6 {bits : BitVec 128} {port : UInt16} {scopeId : UInt32} {text rest : List Char}
    (hip : readIpv6Addr text = some (bits, rest))
    (hscope : (readScopeId rest).getD (0, rest) = (scopeId, ']' :: ':' :: Nat.toDigits 10 port.toNat)) :
    parseSocketAddr ('[' :: text) = some { ip := .v6 bits, port, scopeId } := by
  have hv4 : readIpv4Addr ('[' :: text) = none :=
    readIpv4Addr_of_endsNumber (endsNumber_cons (by decide) text)
  simp only [parseSocketAddr, readSocketAddrV4, hv4, readSocketAddrV6, hip, hscope, readPort_toDigits,
    Option.bind_eq_bind, Option.bind_some, Option.bind_none, Option.pure_def, Option.none_or]

/-- A socket address parses from its text. An IPv4 one has no scope. -/
theorem parseSocketAddr_socketAddrText {addr : SocketAddr} (h : addr.ip.isIpv4 = true → addr.scopeId = 0) :
    parseSocketAddr (socketAddrText addr) = some addr := by
  obtain ⟨ip, port, scopeId⟩ := addr
  cases ip with
  | v4 bits =>
    obtain rfl : scopeId = 0 := h rfl
    exact parseSocketAddr_v4 bits port
  | v6 bits =>
    unfold socketAddrText
    dsimp only
    split
    · rename_i hzero
      have hend : AfterGroups (']' :: ':' :: Nat.toDigits 10 port.toNat) :=
        afterGroups_cons (by decide) (by decide) (by decide) _
      rw [List.cons_append, hzero]
      exact parseSocketAddr_v6 (readIpv6Addr_ipv6Text bits hend) rfl
    · have hbracket : EndsNumber 10 (']' :: ':' :: Nat.toDigits 10 port.toNat) :=
        endsNumber_cons (by decide) _
      have hscope := readScopeId_toDigits scopeId hbracket
      have hend : AfterGroups ('%' :: (Nat.toDigits 10 scopeId.toNat ++ ']' :: ':' ::
          Nat.toDigits 10 port.toNat)) :=
        afterGroups_cons (by decide) (by decide) (by decide) _
      rw [List.cons_append, List.cons_append, List.append_assoc, List.cons_append]
      apply parseSocketAddr_v6 (readIpv6Addr_ipv6Text bits hend)
      rw [hscope, Option.getD_some]

end Reading

end DigRelay
