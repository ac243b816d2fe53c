import Mathlib.Algebra.Ring.Nat
import Mathlib.Data.List.DropRight
import Mathlib.Data.List.Infix

/-!
# Text as characters and as bytes

A text is a list of characters whose length is counted in UTF-8 bytes. Cutting a text at a byte
offset succeeds only between two characters. Splitting, trimming and the comparisons that
ignore the case of ASCII letters work on characters, and a byte string is a text only if it is
well-formed UTF-8.
-/

namespace Common

/-- The length in bytes. -/
def utf8Len (text : List Char) : ℕ := (text.map Char.utf8Size).sum

/-- The first `n` bytes, if they end between two characters. -/
def sliceTo : ℕ → List Char → Option (List Char)
  | 0, _ => some []
  | _ + 1, [] => none
  | n + 1, head :: rest =>
    if head.utf8Size ≤ n + 1 then (sliceTo (n + 1 - head.utf8Size) rest).map (head :: ·) else none

/-- Some character starts or the text ends at byte `n`. -/
def IsCharBoundary (n : ℕ) (text : List Char) : Prop :=
  ∃ before after, text = before ++ after ∧ utf8Len before = n

/-- A nonempty text is a character and the bytes after it. -/
@[simp] theorem utf8Len_cons (head : Char) (rest : List Char) :
    utf8Len (head :: rest) = head.utf8Size + utf8Len rest := by
  simp [utf8Len]

/-- The bytes of a text are those of its parts. -/
@[simp] theorem utf8Len_append (left right : List Char) :
    utf8Len (left ++ right) = utf8Len left + utf8Len right := by
  simp [utf8Len]

/-- An ASCII text has as many bytes as characters. -/
theorem utf8Len_of_ascii {text : List Char} (h : ∀ c ∈ text, c.toNat < 128) :
    utf8Len text = text.length := by
  induction text with
  | nil => rfl
  | cons head rest ih =>
    have hhead : head.utf8Size = 1 :=
      Char.utf8Size_eq_one_iff.mpr (Nat.le_of_lt_succ (h head List.mem_cons_self))
    rw [utf8Len_cons, hhead, ih fun c hc => h c (List.mem_cons_of_mem _ hc), List.length_cons,
      Nat.add_comm]

/-- A cut succeeds exactly at a character boundary. -/
theorem sliceTo_isSome_iff (n : ℕ) (text : List Char) :
    (sliceTo n text).isSome ↔ IsCharBoundary n text := by
  fun_induction sliceTo n text with
  | case1 text => exact ⟨fun _ => ⟨[], text, rfl, rfl⟩, fun _ => rfl⟩
  | case2 n =>
    constructor
    · intro h
      cases h
    · rintro ⟨before, after, htext, hlen⟩
      obtain ⟨rfl, rfl⟩ := List.append_eq_nil_iff.mp htext.symm
      cases hlen
  | case3 n head rest hfits ih =>
    rw [Option.isSome_map, ih]
    constructor
    · rintro ⟨before, after, rfl, hlen⟩
      exact ⟨head :: before, after, rfl, by rw [utf8Len_cons]; omega⟩
    · rintro ⟨before, after, htext, hlen⟩
      cases before with
      | nil => cases hlen
      | cons first before =>
        obtain ⟨rfl, rfl⟩ := List.cons_eq_cons.mp htext
        rw [utf8Len_cons] at hlen
        exact ⟨before, after, rfl, by omega⟩
  | case4 n head rest hfits =>
    constructor
    · intro h
      cases h
    · rintro ⟨before, after, htext, hlen⟩
      cases before with
      | nil => cases hlen
      | cons first before =>
        obtain ⟨rfl, rfl⟩ := List.cons_eq_cons.mp htext
        rw [utf8Len_cons] at hlen
        omega

/-- The text contains the needle somewhere. -/
def containsText (needle text : List Char) : Bool := text.tails.any needle.isPrefixOf

/-- Lower an ASCII letter; every other character stays as it is. -/
def asciiLower (c : Char) : Char := if 'A' ≤ c ∧ c ≤ 'Z' then Char.ofNat (c.toNat + 32) else c

/-- Raise an ASCII letter; every other character stays as it is. -/
def asciiUpper (c : Char) : Char := if 'a' ≤ c ∧ c ≤ 'z' then Char.ofNat (c.toNat - 32) else c

/-- Equality up to the case of ASCII letters. -/
def eqIgnoreAsciiCase (left right : List Char) : Bool := left.map asciiLower = right.map asciiLower

/-- The value of a digit in a radix up to 36, with letters of either case above nine. -/
def toDigit (radix : ℕ) (c : Char) : Option ℕ :=
  let value :=
    if '0' ≤ c ∧ c ≤ '9' then some (c.toNat - '0'.toNat)
    else if 'a' ≤ c ∧ c ≤ 'z' then some (c.toNat - 'a'.toNat + 10)
    else if 'A' ≤ c ∧ c ≤ 'Z' then some (c.toNat - 'A'.toNat + 10)
    else none
  value.filter (· < radix)

/-- The number that digits stand for, the most significant first. -/
def digitsValue (radix : ℕ) (digits : List ℕ) : ℕ := digits.foldl (fun n digit => n * radix + digit) 0

/-- A decimal number below a bound, possibly after a plus sign. -/
def parseUnsigned (bound : ℕ) (text : List Char) : Option ℕ :=
  let digits := match text with
    | '+' :: rest => rest
    | _ => text
  if digits = [] then none
  else ((digits.mapM (toDigit 10)).map (digitsValue 10)).filter (· < bound)

/-- A digit is an ASCII character. -/
theorem toDigit_ascii {radix : ℕ} {c : Char} (h : (toDigit radix c).isSome) : c.toNat < 128 := by
  unfold toDigit at h
  split at h
  · rename_i hdigit
    exact Nat.lt_of_le_of_lt hdigit.2 (by decide)
  · split at h
    · rename_i hlower
      exact Nat.lt_of_le_of_lt hlower.2 (by decide)
    · split at h
      · rename_i hupper
        exact Nat.lt_of_le_of_lt hupper.2 (by decide)
      · cases h

/-- The characters with the Unicode property `White_Space`. -/
def isWhitespace (c : Char) : Bool :=
  (0x09 ≤ c.toNat && c.toNat ≤ 0x0d) || c.toNat = 0x20 || c.toNat = 0x85 || c.toNat = 0xa0 ||
    c.toNat = 0x1680 || (0x2000 ≤ c.toNat && c.toNat ≤ 0x200a) || c.toNat = 0x2028 ||
    c.toNat = 0x2029 || c.toNat = 0x202f || c.toNat = 0x205f || c.toNat = 0x3000

/-- Drop white space at both ends. -/
def trim (text : List Char) : List Char := (text.dropWhile isWhitespace).rdropWhile isWhitespace

/-- A text without white space is trimmed to itself. -/
theorem trim_eq_self {text : List Char} (h : ∀ c ∈ text, isWhitespace c = false) : trim text = text := by
  have hfront : text.dropWhile isWhitespace = text := by
    cases text with
    | nil => rfl
    | cons head rest => exact List.dropWhile_cons_of_neg (by simp [h head List.mem_cons_self])
  rw [trim, hfront, List.rdropWhile_eq_self_iff]
  intro hne
  simp [h _ (List.getLast_mem hne)]

/-- Trimming leaves characters of the text. -/
theorem trim_subset (text : List Char) : trim text ⊆ text := by
  have hback := (List.rdropWhile_prefix isWhitespace (text.dropWhile isWhitespace)).subset
  exact List.Subset.trans hback (List.dropWhile_suffix isWhitespace).subset

/-- The parts between separators are characters of the text. -/
theorem subset_of_mem_splitOn {sep : Char} {text part : List Char} (h : part ∈ text.splitOn sep) :
    part ⊆ text := by
  induction text generalizing part with
  | nil =>
    obtain rfl : part = [] := by simpa using h
    exact List.nil_subset _
  | cons head rest ih =>
    rw [List.splitOn_cons_eq_if_modifyHead] at h
    split at h
    · rcases List.mem_cons.mp h with rfl | hrest
      · exact List.nil_subset _
      · exact List.Subset.trans (ih hrest) (List.subset_cons_self _ _)
    · cases hparts : rest.splitOn sep with
      | nil =>
        rw [hparts] at h
        cases h
      | cons first others =>
        rw [hparts, List.modifyHead_cons] at h
        rcases List.mem_cons.mp h with rfl | hother
        · exact List.cons_subset_cons _ (ih (hparts ▸ List.mem_cons_self))
        · have hother' := ih (hparts ▸ List.mem_cons_of_mem _ hother)
          exact List.Subset.trans hother' (List.subset_cons_self _ _)

/-- The texts before and after the first separator. -/
def splitOnce (sep : Char) : List Char → Option (List Char × List Char)
  | [] => none
  | head :: rest =>
    if head = sep then some ([], rest)
    else (splitOnce sep rest).map fun (before, after) => (head :: before, after)

/-- What is split off is made of characters of the text. -/
theorem splitOnce_subset {sep : Char} {text before after : List Char}
    (h : splitOnce sep text = some (before, after)) : before ⊆ text ∧ after ⊆ text := by
  induction text generalizing before with
  | nil => cases h
  | cons head rest ih =>
    rw [splitOnce] at h
    split at h
    · obtain ⟨rfl, rfl⟩ := Prod.mk.inj (Option.some.inj h)
      exact ⟨List.nil_subset _, List.subset_cons_self _ _⟩
    · obtain ⟨⟨front, back⟩, hrest, heq⟩ := Option.map_eq_some_iff.mp h
      obtain ⟨rfl, rfl⟩ := Prod.mk.inj heq
      obtain ⟨hfront, hback⟩ := ih hrest
      exact ⟨List.cons_subset_cons _ hfront, List.Subset.trans hback (List.subset_cons_self _ _)⟩

/-- A text without the separator is not split. -/
theorem splitOnce_eq_none {sep : Char} {text : List Char} (h : sep ∉ text) : splitOnce sep text = none := by
  induction text with
  | nil => rfl
  | cons head rest ih =>
    obtain ⟨hhead, hrest⟩ := not_or.mp (mt List.mem_cons.mpr h)
    rw [splitOnce, if_neg (Ne.symm hhead), ih hrest, Option.map_none]

/-- The first separator after a text without it is where the text ends. -/
theorem splitOnce_append_cons {sep : Char} {before : List Char} (h : sep ∉ before) (after : List Char) :
    splitOnce sep (before ++ sep :: after) = some (before, after) := by
  induction before with
  | nil => exact if_pos rfl
  | cons head rest ih =>
    obtain ⟨hhead, hrest⟩ := not_or.mp (mt List.mem_cons.mpr h)
    rw [List.cons_append, splitOnce, if_neg (Ne.symm hhead), ih hrest, Option.map_some]

/-- The lines of a text whose line ends are a carriage return followed by a line feed. -/
def splitCrlf : List Char → List (List Char)
  | [] => [[]]
  | '\r' :: '\n' :: rest => [] :: splitCrlf rest
  | head :: rest =>
    match splitCrlf rest with
    | [] => [[head]]
    | line :: lines => (head :: line) :: lines

/-- The character ends no line by itself. -/
def isLineChar (c : Char) : Bool := c ≠ '\r' && c ≠ '\n'

/-- Carriage returns and line feeds occur only together, as line ends. -/
def hasPairedLineEnds : List Char → Bool
  | [] => true
  | '\r' :: '\n' :: rest => hasPairedLineEnds rest
  | head :: rest => isLineChar head && hasPairedLineEnds rest

/-- The lines of a text whose line ends are paired contain none. -/
theorem isLineChar_of_mem_splitCrlf {text line : List Char} (h : hasPairedLineEnds text = true)
    (hline : line ∈ splitCrlf text) : ∀ c ∈ line, isLineChar c = true := by
  fun_induction splitCrlf text generalizing line with
  | case1 =>
    obtain rfl := List.mem_singleton.mp hline
    simp
  | case2 rest ih =>
    rw [hasPairedLineEnds] at h
    rcases List.mem_cons.mp hline with rfl | hrest
    · simp
    · exact ih h hrest
  | case3 head rest hpair hnone ih =>
    rw [hasPairedLineEnds.eq_3 head rest hpair, Bool.and_eq_true] at h
    obtain rfl := List.mem_singleton.mp hline
    simpa using h.1
  | case4 head rest hpair first others hlines ih =>
    rw [hasPairedLineEnds.eq_3 head rest hpair, Bool.and_eq_true] at h
    rcases List.mem_cons.mp hline with rfl | hother
    · intro c hc
      rcases List.mem_cons.mp hc with rfl | hfirst
      · exact h.1
      · exact ih h.2 (hlines ▸ List.mem_cons_self) c hfirst
    · exact ih h.2 (hlines ▸ List.mem_cons_of_mem _ hother)

/-- A line without a carriage return is split off with its end. -/
theorem splitCrlf_append {line : List Char} (h : '\r' ∉ line) (rest : List Char) :
    splitCrlf (line ++ '\r' :: '\n' :: rest) = line :: splitCrlf rest := by
  induction line with
  | nil => rw [List.nil_append, splitCrlf]
  | cons head line ih =>
    obtain ⟨hhead, hline⟩ := not_or.mp (mt List.mem_cons.mpr h)
    rw [List.cons_append, splitCrlf.eq_3 head _ fun _ hcr _ => hhead hcr.symm, ih hline]

/-- Lines that are written with their ends are split into those lines. -/
theorem splitCrlf_flatMap {lines : List (List Char)} (h : ∀ line ∈ lines, '\r' ∉ line) :
    splitCrlf (lines.flatMap fun line => line ++ ['\r', '\n']) = lines ++ [[]] := by
  induction lines with
  | nil => rfl
  | cons line rest ih =>
    have hrest := ih fun other hother => h other (List.mem_cons_of_mem _ hother)
    rw [List.flatMap_cons, List.append_assoc, List.cons_append, List.cons_append, List.nil_append,
      splitCrlf_append (h line List.mem_cons_self), hrest]
    rfl

/-- A character of which some bytes are still missing: how many, its code so far, and the least
code that needs this many bytes. -/
structure Utf8Pending where
  missing : ℕ
  code : ℕ
  least : ℕ

/-- What the first byte of a character announces; `none` if it starts no character. -/
def utf8Lead (byte : UInt8) : Option Utf8Pending :=
  let code := byte.toNat
  if code < 0x80 then some ⟨0, code, 0⟩
  else if 0xc0 ≤ code ∧ code < 0xe0 then some ⟨1, code - 0xc0, 0x80⟩
  else if 0xe0 ≤ code ∧ code < 0xf0 then some ⟨2, code - 0xe0, 0x800⟩
  else if 0xf0 ≤ code ∧ code < 0xf8 then some ⟨3, code - 0xf0, 0x10000⟩
  else none

/-- Add a continuation byte. -/
def Utf8Pending.extend (pending : Utf8Pending) (byte : UInt8) : Option Utf8Pending :=
  if 0x80 ≤ byte.toNat ∧ byte.toNat < 0xc0 then
    some ⟨pending.missing - 1, pending.code * 64 + (byte.toNat - 0x80), pending.least⟩
  else none

/-- The character of a completed code, unless it is overlong, a surrogate or out of range. -/
def Utf8Pending.char (pending : Utf8Pending) : Option Char :=
  if pending.least ≤ pending.code ∧ pending.code.isValidChar then some (Char.ofNat pending.code)
  else none

/-- Decode well-formed UTF-8, possibly in the middle of a character. -/
def decodeUtf8From : Option Utf8Pending → List UInt8 → Option (List Char)
  | none, [] => some []
  | some _, [] => none
  | pending, byte :: rest => do
    let pending ← match pending with
      | none => utf8Lead byte
      | some pending => pending.extend byte
    if pending.missing = 0 then
      let c ← pending.char
      let text ← decodeUtf8From none rest
      pure (c :: text)
    else decodeUtf8From (some pending) rest

/-- Decode well-formed UTF-8. -/
def decodeUtf8 (bytes : List UInt8) : Option (List Char) := decodeUtf8From none bytes

/-- The UTF-8 bytes of a text. -/
def utf8Bytes (text : List Char) : List UInt8 := text.flatMap String.utf8EncodeChar

/-- An ASCII byte stands for its character and is part of no other. -/
theorem mem_of_mem_utf8Bytes {byte : UInt8} {text : List Char} (hbyte : byte.toNat < 128)
    (h : byte ∈ utf8Bytes text) : Char.ofNat byte.toNat ∈ text := by
  obtain ⟨c, hc, hmem⟩ := List.mem_flatMap.mp h
  unfold String.utf8EncodeChar at hmem
  dsimp only at hmem
  split at hmem
  · rename_i hascii
    rw [List.mem_singleton] at hmem
    have hcode : byte.toNat = c.toNat := by
      rw [hmem, UInt8.toNat_ofNat']
      exact Nat.mod_eq_of_lt (hascii.trans_lt (by decide))
    rwa [hcode, Char.ofNat_toNat]
  · exfalso
    split at hmem
    · simp only [List.mem_cons, List.not_mem_nil, or_false] at hmem
      rcases hmem with rfl | rfl <;> rw [UInt8.toNat_ofNat'] at hbyte <;> omega
    · split at hmem
      · simp only [List.mem_cons, List.not_mem_nil, or_false] at hmem
        rcases hmem with rfl | rfl | rfl <;> rw [UInt8.toNat_ofNat'] at hbyte <;> omega
      · simp only [List.mem_cons, List.not_mem_nil, or_false] at hmem
        rcases hmem with rfl | rfl | rfl | rfl <;> rw [UInt8.toNat_ofNat'] at hbyte <;> omega

/-- A character is completed by its own code. -/
theorem Utf8Pending.char_toNat {c : Char} {least : ℕ} (missing : ℕ) (h : least ≤ c.toNat) :
    Utf8Pending.char ⟨missing, c.toNat, least⟩ = some c := by
  have hvalid : c.toNat.isValidChar := c.valid
  rw [Utf8Pending.char, if_pos ⟨h, hvalid⟩, Char.ofNat_toNat]

/-- A continuation byte adds its six bits. -/
theorem Utf8Pending.extend_ofNat (pending : Utf8Pending) (value : ℕ) :
    pending.extend (UInt8.ofNat (value % 64 + 128)) =
      some ⟨pending.missing - 1, pending.code * 64 + value % 64, pending.least⟩ := by
  have hbyte : (UInt8.ofNat (value % 64 + 128)).toNat = value % 64 + 128 := by
    rw [UInt8.toNat_ofNat']
    omega
  rw [Utf8Pending.extend, hbyte, if_pos (by omega), Nat.add_sub_cancel]

/-- The first of several bytes. -/
theorem decodeUtf8From_lead {byte : UInt8} {missing code least : ℕ}
    (h : utf8Lead byte = some ⟨missing + 1, code, least⟩) (rest : List UInt8) :
    decodeUtf8From none (byte :: rest) = decodeUtf8From (some ⟨missing + 1, code, least⟩) rest := by
  rw [decodeUtf8From.eq_def]
  simp only [h, Option.bind_eq_bind, Option.bind_some, Nat.succ_ne_zero, if_false]

/-- A byte after which some are still missing. -/
theorem decodeUtf8From_middle (missing code least value : ℕ) (rest : List UInt8) :
    decodeUtf8From (some ⟨missing + 2, code, least⟩) (UInt8.ofNat (value % 64 + 128) :: rest) =
      decodeUtf8From (some ⟨missing + 1, code * 64 + value % 64, least⟩) rest := by
  rw [decodeUtf8From.eq_def]
  simp only [Utf8Pending.extend_ofNat, Option.bind_eq_bind, Option.bind_some, Nat.add_one_sub_one,
    Nat.succ_ne_zero, if_false]

/-- The last of several bytes. -/
theorem decodeUtf8From_last {code least value : ℕ} {c : Char} (hcode : code * 64 + value % 64 = c.toNat)
    (hleast : least ≤ c.toNat) (rest : List UInt8) :
    decodeUtf8From (some ⟨1, code, least⟩) (UInt8.ofNat (value % 64 + 128) :: rest) =
      (decodeUtf8From none rest).map (c :: ·) := by
  rw [decodeUtf8From.eq_def]
  simp only [Utf8Pending.extend_ofNat, Option.bind_eq_bind, Option.bind_some, Nat.sub_self, if_true, hcode,
    Utf8Pending.char_toNat _ hleast]
  cases decodeUtf8From none rest <;> rfl

/-- A character is decoded from its bytes. -/
theorem decodeUtf8From_utf8EncodeChar (c : Char) (rest : List UInt8) :
    decodeUtf8From none (String.utf8EncodeChar c ++ rest) = (decodeUtf8From none rest).map (c :: ·) := by
  have hmax : c.toNat < 0x110000 := by
    have hvalid : c.toNat.isValidChar := c.valid
    rcases hvalid with h | h <;> omega
  have hval : c.val.toNat = c.toNat := rfl
  have hbyte {code : ℕ} (h : code < 256) : (UInt8.ofNat code).toNat = code := by
    rw [UInt8.toNat_ofNat', Nat.mod_eq_of_lt h]
  unfold String.utf8EncodeChar
  dsimp only
  rw [hval]
  -- one, two, three or four bytes
  split_ifs with hone htwo hthree
  · have hlead : utf8Lead (UInt8.ofNat c.toNat) = some ⟨0, c.toNat, 0⟩ := by
      rw [utf8Lead, hbyte (by omega), if_pos (by omega)]
    rw [List.singleton_append, decodeUtf8From.eq_def]
    simp only [hlead, Option.bind_eq_bind, Option.bind_some, if_true,
      Utf8Pending.char_toNat _ (Nat.zero_le _)]
    cases decodeUtf8From none rest <;> rfl
  · have hlead : utf8Lead (UInt8.ofNat (c.toNat / 64 % 32 + 192)) =
        some ⟨1, c.toNat / 64 % 32, 0x80⟩ := by
      rw [utf8Lead, hbyte (by omega), if_neg (by omega), if_pos (by omega), Nat.add_sub_cancel]
    rw [List.cons_append, decodeUtf8From_lead hlead]
    exact decodeUtf8From_last (by omega) (by omega) rest
  · have hlead : utf8Lead (UInt8.ofNat (c.toNat / 4096 % 16 + 224)) =
        some ⟨2, c.toNat / 4096 % 16, 0x800⟩ := by
      rw [utf8Lead, hbyte (by omega), if_neg (by omega), if_neg (by omega), if_pos (by omega),
        Nat.add_sub_cancel]
    rw [List.cons_append, decodeUtf8From_lead hlead, List.cons_append, decodeUtf8From_middle]
    exact decodeUtf8From_last (by omega) (by omega) rest
  · have hlead : utf8Lead (UInt8.ofNat (c.toNat / 262144 % 8 + 240)) =
        some ⟨3, c.toNat / 262144 % 8, 0x10000⟩ := by
      rw [utf8Lead, hbyte (by omega), if_neg (by omega), if_neg (by omega), if_neg (by omega),
        if_pos (by omega), Nat.add_sub_cancel]
    rw [List.cons_append, decodeUtf8From_lead hlead, List.cons_append, decodeUtf8From_middle,
      List.cons_append, decodeUtf8From_middle]
    exact decodeUtf8From_last (by omega) (by omega) rest

/-- A text is decoded from its bytes. -/
theorem decodeUtf8_utf8Bytes (text : List Char) : decodeUtf8 (utf8Bytes text) = some text := by
  unfold decodeUtf8 utf8Bytes
  induction text with
  | nil => rfl
  | cons c text ih => rw [List.flatMap_cons, decodeUtf8From_utf8EncodeChar, ih, Option.map_some]

end Common
