import DigRelay.Common.Digits

/-!
# Reading HTTP responses

A response is a status line, header fields up to a blank line, and as many bytes of body as its length
field says. The reader takes it off the front of a stream and returns what follows. Whatever the body
contains, a response whose head is written line by line is read back, provided no line contains a
carriage return and the length is given once.
-/

namespace Common

/-- A response as its reader sees it. -/
structure HttpResponse where
  status : ℕ
  reason : String
  fields : List (String × String)
  body : List UInt8
  deriving DecidableEq

/-- Take a line off a stream, without its end. -/
def readLine : List UInt8 → Option (List UInt8 × List UInt8)
  | [] => none
  | 0x0d :: 0x0a :: rest => some ([], rest)
  | byte :: rest => (readLine rest).map fun (line, after) => (byte :: line, after)

/-- Take lines off a stream up to a blank one, which is taken too. -/
def readLines : ℕ → List UInt8 → Option (List (List UInt8) × List UInt8)
  | 0, _ => none
  | fuel + 1, bytes => do
    let (line, rest) ← readLine bytes
    if line = [] then some ([], rest)
    else do
      let (lines, after) ← readLines fuel rest
      some (line :: lines, after)

/-- The status and the reason of a status line. -/
def readStatusLine (line : List UInt8) : Option (ℕ × String) := do
  let text ← decodeUtf8 line
  let (version, rest) ← splitOnce ' ' text
  if version = "HTTP/1.1".toList then do
    let (status, reason) ← splitOnce ' ' rest
    let status ← parseUnsigned 1000 status
    some (status, String.ofList reason)
  else none

/-- The name and the value of a header field. -/
def readField (line : List UInt8) : Option (String × String) := do
  let text ← decodeUtf8 line
  let (name, value) ← splitOnce ':' text
  some (String.ofList name, String.ofList (trim value))

/-- Whether the field gives the length of the body. -/
def isContentLength (field : String × String) : Bool :=
  eqIgnoreAsciiCase field.1.toList "content-length".toList

/-- The length of the body, which must be given once. -/
def contentLength (fields : List (String × String)) : Option ℕ :=
  match fields.filter isContentLength with
  | [field] => parseUnsigned UInt64.size field.2.toList
  | _ => none

/-- Take a response off a stream. -/
def readResponse (bytes : List UInt8) : Option (HttpResponse × List UInt8) := do
  let (lines, rest) ← readLines bytes.length bytes
  let statusLine ← lines.head?
  let (status, reason) ← readStatusLine statusLine
  let fields ← lines.tail.mapM readField
  let length ← contentLength fields
  if length ≤ rest.length then
    some ({ status, reason, fields, body := rest.take length }, rest.drop length)
  else none

/-- The bytes of a text are those of its parts. -/
theorem utf8Bytes_append (front back : List Char) :
    utf8Bytes (front ++ back) = utf8Bytes front ++ utf8Bytes back :=
  List.flatMap_append

/-- A line of a head with its end. -/
def lineBytes (line : List Char) : List UInt8 := utf8Bytes line ++ [0x0d, 0x0a]

/-- A line without a carriage return is read back. -/
theorem readLine_lineBytes {line : List Char} (h : '\r' ∉ line) (rest : List UInt8) :
    readLine (lineBytes line ++ rest) = some (utf8Bytes line, rest) := by
  have hbytes : (0x0d : UInt8) ∉ utf8Bytes line := fun hmem => h (mem_of_mem_utf8Bytes (by decide) hmem)
  rw [lineBytes, List.append_assoc]
  generalize utf8Bytes line = bytes at hbytes
  induction bytes with
  | nil => rfl
  | cons byte bytes ih =>
    obtain ⟨hbyte, hrest⟩ := not_or.mp (mt List.mem_cons.mpr hbytes)
    rw [List.cons_append, readLine.eq_3 byte _ fun _ hcr _ => hbyte hcr.symm, ih hrest]
    rfl

/-- A line with a character has a byte. -/
theorem utf8Bytes_ne_nil {line : List Char} (h : line ≠ []) : utf8Bytes line ≠ [] := by
  cases line with
  | nil => exact absurd rfl h
  | cons c line =>
    have hlength : 0 < (String.utf8EncodeChar c).length := by
      rw [String.length_utf8EncodeChar]
      exact c.utf8Size_pos
    intro hnil
    rw [utf8Bytes, List.flatMap_cons, List.append_eq_nil_iff] at hnil
    rw [hnil.1] at hlength
    exact Nat.lt_irrefl 0 hlength

/-- Lines that are not blank are read back up to a blank one. -/
theorem readLines_lineBytes {lines : List (List Char)} (hline : ∀ line ∈ lines, '\r' ∉ line ∧ line ≠ [])
    (rest : List UInt8) {fuel : ℕ} (hfuel : lines.length < fuel) :
    readLines fuel (lines.flatMap lineBytes ++ lineBytes [] ++ rest) = some (lines.map utf8Bytes, rest) := by
  induction lines generalizing fuel with
  | nil =>
    obtain ⟨fuel, rfl⟩ : ∃ n, fuel = n + 1 := ⟨fuel - 1, by omega⟩
    rfl
  | cons line lines ih =>
    obtain ⟨fuel, rfl⟩ : ∃ n, fuel = n + 1 := ⟨fuel - 1, by omega⟩
    obtain ⟨hfirst, hlines⟩ := List.forall_mem_cons.mp hline
    have hlater := ih hlines (by simpa using hfuel)
    rw [List.flatMap_cons, List.append_assoc, List.append_assoc, readLines, readLine_lineBytes hfirst.1]
    rw [List.append_assoc] at hlater
    simp [utf8Bytes_ne_nil hfirst.2, hlater]

/-- The text of a status line. -/
def statusText (status : ℕ) (reason : String) : List Char :=
  "HTTP/1.1".toList ++ ' ' :: (Nat.toDigits 10 status ++ ' ' :: reason.toList)

/-- The text of a header field. -/
def fieldText (field : String × String) : List Char := field.1.toList ++ ':' :: ' ' :: field.2.toList

/-- A field that is read as it was written: its name has no colon, its value no blank at either end, and
neither has a carriage return. -/
def WritableField (field : String × String) : Prop :=
  ':' ∉ field.1.toList ∧ '\r' ∉ field.1.toList ∧ '\r' ∉ field.2.toList ∧
    trim field.2.toList = field.2.toList

instance (field : String × String) : Decidable (WritableField field) :=
  inferInstanceAs (Decidable (_ ∧ _ ∧ _ ∧ _))

/-- A number is written in decimal digits. -/
theorem toList_toString (n : ℕ) : (toString n).toList = Nat.toDigits 10 n := String.toList_ofList

/-- A digit is no white space. -/
theorem isWhitespace_eq_false_of_toDigit {c : Char} (h : (toDigit 10 c).isSome = true) :
    isWhitespace c = false := by
  have hascii := toDigit_ascii h
  by_contra hspace
  have hcode : c.toNat ≤ 0x0d ∨ c.toNat = 0x20 := by
    simp only [isWhitespace, Bool.not_eq_false, Bool.or_eq_true, Bool.and_eq_true,
      decide_eq_true_eq] at hspace
    omega
  have hclosed : ∀ code < 0x21, (toDigit 10 (Char.ofNat code)).isSome = false := by decide
  have hnone := hclosed c.toNat (by omega)
  rw [Char.ofNat_toNat, h] at hnone
  cases hnone

/-- A number is read as it was written. -/
theorem writableField_toString {name : String} (hcolon : ':' ∉ name.toList) (hreturn : '\r' ∉ name.toList)
    (n : ℕ) : WritableField (name, toString n) := by
  have hdigit : ∀ c ∈ (toString n).toList, (toDigit 10 c).isSome = true := by
    rw [toList_toString]
    exact fun c hmem => toDigit_isSome_of_mem (by decide) (by decide) hmem
  refine ⟨hcolon, hreturn, fun hmem => ?_, trim_eq_self fun c hmem => ?_⟩
  · exact absurd (hdigit _ hmem) (by decide)
  · exact isWhitespace_eq_false_of_toDigit (hdigit c hmem)

/-- A status line is read back. -/
theorem readStatusLine_statusText {status : ℕ} (h : status < 1000) (reason : String) :
    readStatusLine (utf8Bytes (statusText status reason)) = some (status, reason) := by
  have hversion : ' ' ∉ "HTTP/1.1".toList := by decide
  have hdigits : ' ' ∉ Nat.toDigits 10 status := by
    intro hmem
    have hdigit : (toDigit 10 ' ').isSome = true := toDigit_isSome_of_mem (by decide) (by decide) hmem
    exact absurd hdigit (by decide)
  unfold readStatusLine statusText
  generalize "HTTP/1.1".toList = version at hversion
  rw [decodeUtf8_utf8Bytes, Option.bind_eq_bind, Option.bind_some, splitOnce_append_cons hversion,
    Option.bind_eq_bind, Option.bind_some]
  dsimp only
  rw [if_pos rfl, splitOnce_append_cons hdigits, Option.bind_eq_bind, Option.bind_some]
  dsimp only
  rw [parseUnsigned_toDigits h, Option.bind_some, String.ofList_toList]

/-- A header field is read back. -/
theorem readField_fieldText {field : String × String} (h : WritableField field) :
    readField (utf8Bytes (fieldText field)) = some field := by
  obtain ⟨hcolon, -, -, htrim⟩ := h
  have hblank : trim (' ' :: field.2.toList) = field.2.toList := by
    rw [trim, List.dropWhile_cons_of_pos (by decide)]
    exact htrim
  simp only [readField, fieldText, decodeUtf8_utf8Bytes, Option.bind_eq_bind, Option.bind_some,
    splitOnce_append_cons hcolon, hblank, String.ofList_toList]

/-- The lines of a head have no carriage return and are not blank. -/
theorem statusText_lineable (status : ℕ) {reason : String} (h : '\r' ∉ reason.toList) :
    '\r' ∉ statusText status reason ∧ statusText status reason ≠ [] := by
  constructor
  · intro hmem
    rcases List.mem_append.mp hmem with hversion | hrest
    · revert hversion
      decide
    rcases List.mem_cons.mp hrest with hblank | hrest
    · exact absurd hblank (by decide)
    rcases List.mem_append.mp hrest with hdigit | hrest
    · have hsome : (toDigit 10 '\r').isSome = true := toDigit_isSome_of_mem (by decide) (by decide) hdigit
      exact absurd hsome (by decide)
    rcases List.mem_cons.mp hrest with hblank | hreason
    · exact absurd hblank (by decide)
    · exact h hreason
  · exact List.append_ne_nil_of_right_ne_nil _ (List.cons_ne_nil _ _)

/-- The line of a field has no carriage return and is not blank. -/
theorem fieldText_lineable {field : String × String} (h : WritableField field) :
    '\r' ∉ fieldText field ∧ fieldText field ≠ [] := by
  obtain ⟨-, hname, hvalue, -⟩ := h
  constructor
  · simp [fieldText, hname, hvalue]
  · exact List.append_ne_nil_of_right_ne_nil _ (List.cons_ne_nil _ _)

/-- Lines take up bytes. -/
theorem length_le_length_lineBytes (lines : List (List Char)) :
    lines.length ≤ (lines.flatMap lineBytes).length := by
  induction lines with
  | nil => exact Nat.le_refl 0
  | cons line lines ih =>
    rw [List.flatMap_cons, List.length_append, List.length_cons, lineBytes, List.length_append,
      List.length_cons]
    omega

/-- Fields are read back one by one. -/
theorem mapM_readField {fields : List (String × String)} (h : ∀ field ∈ fields, WritableField field) :
    ((fields.map fieldText).map utf8Bytes).mapM readField = some fields := by
  induction fields with
  | nil => rfl
  | cons field fields ih =>
    obtain ⟨hfield, hfields⟩ := List.forall_mem_cons.mp h
    rw [List.map_cons, List.map_cons, List.mapM_cons, readField_fieldText hfield, ih hfields]
    rfl

/-- A response that gives the length of its body is read back, and nothing of what follows is taken. -/
theorem readResponse_of_lines {status : ℕ} {reason : String} {fields : List (String × String)}
    {body : List UInt8} (hstatus : status < 1000) (hreason : '\r' ∉ reason.toList)
    (hfields : ∀ field ∈ fields, WritableField field) (hlength : contentLength fields = some body.length)
    (rest : List UInt8) :
    readResponse ((statusText status reason :: fields.map fieldText).flatMap lineBytes ++ lineBytes [] ++
      (body ++ rest)) = some ({ status, reason, fields, body }, rest) := by
  have hlines : ∀ line ∈ statusText status reason :: fields.map fieldText, '\r' ∉ line ∧ line ≠ [] := by
    intro line hline
    rcases List.mem_cons.mp hline with rfl | hfield
    · exact statusText_lineable status hreason
    · obtain ⟨field, hmem, rfl⟩ := List.mem_map.mp hfield
      exact fieldText_lineable (hfields field hmem)
  have hread := mapM_readField hfields
  -- every line takes up a byte, so the length of the text bounds the lines
  have hfuel : (statusText status reason :: fields.map fieldText).length <
      ((statusText status reason :: fields.map fieldText).flatMap lineBytes ++ lineBytes [] ++
        (body ++ rest)).length := by
    have hle := length_le_length_lineBytes (statusText status reason :: fields.map fieldText)
    have hend : (lineBytes []).length = 2 := rfl
    rw [List.length_append, List.length_append, hend]
    omega
  have hbody : body.length ≤ (body ++ rest).length := by
    rw [List.length_append]
    exact Nat.le_add_right _ _
  rw [readResponse, readLines_lineBytes hlines _ hfuel]
  simp only [List.map_cons, Option.bind_eq_bind, Option.bind_some, List.head?_cons,
    readStatusLine_statusText hstatus, List.tail_cons, hread, hlength, if_pos hbody, List.take_left,
    List.drop_left]

end Common
