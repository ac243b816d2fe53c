import Mathlib.Algebra.Order.Ring.Nat
import Mathlib.Data.List.Induction

/-!
# Streams read in pieces

A stream is read into buffers, and each read gives as much as it likes up to the size of the buffer.
What a stream holds is therefore said by what every way of reading it gives: always the same bytes in
the same order, with an empty answer only at the end.

A stream that is handed over in arbitrary pieces is the basic case. Bytes that were read and are put
back in front of a stream are the other, and reading a number of bytes exactly takes a beginning off
the stream, however it comes in. Numbers stand in streams with their most significant octet first.
-/

namespace Common

variable {S T B : Type*}

/-- Something that is read into buffers. A read gives at most what the buffer holds. -/
class Reader (S : Type*) (B : outParam Type*) where
  read : S → ℕ → List B × S
  length_read_le : ∀ s size, (read s size).1.length ≤ size

namespace Reader

variable [Reader S B] [Reader T B] {s : S} {bytes : List B}

/-- Read into buffers of several sizes, one after the other. -/
def readAll (s : S) : List ℕ → List B × S
  | [] => ([], s)
  | size :: sizes =>
    let got := read s size
    let more := readAll got.2 sizes
    (got.1 ++ more.1, more.2)

/-- However it is read, the stream gives the bytes in their order, and an empty answer to a buffer
with room means that all have been read. -/
def Yields (s : S) (bytes : List B) : Prop :=
  ∀ sizes, ∃ rest, bytes = (readAll s sizes).1 ++ rest ∧
    ∀ size, 0 < size → (read (readAll s sizes).2 size).1 = [] → rest = []

/-- After a read the stream yields the rest. -/
theorem Yields.read (h : Yields s bytes) (size : ℕ) :
    ∃ rest, bytes = (read s size).1 ++ rest ∧ Yields (read s size).2 rest ∧
      (0 < size → (Reader.read s size).1 = [] → bytes = []) := by
  obtain ⟨rest, hrest, -⟩ := h [size]
  simp only [readAll, List.append_nil] at hrest
  refine ⟨rest, hrest, fun sizes => ?_, fun hsize hnone => ?_⟩
  · obtain ⟨later, hlater, hend⟩ := h (size :: sizes)
    simp only [readAll, List.append_assoc] at hlater
    exact ⟨later, List.append_cancel_left (hrest.symm.trans hlater), hend⟩
  · obtain ⟨all, hall, hend⟩ := h []
    rw [hall, hend size hsize hnone]
    rfl

/-- A relation between streams and bytes that every read preserves is yielding. -/
theorem yields_of_simulation (R : S → List B → Prop)
    (hstep : ∀ s bytes, R s bytes → ∀ size, ∃ rest, bytes = (read s size).1 ++ rest ∧
      R (read s size).2 rest ∧ (0 < size → (read s size).1 = [] → bytes = []))
    (h : R s bytes) : Yields s bytes := by
  intro sizes
  induction sizes generalizing s bytes with
  | nil => exact ⟨bytes, rfl, fun size hsize hnone => (hstep s bytes h size).choose_spec.2.2 hsize hnone⟩
  | cons size sizes ih =>
    obtain ⟨rest, hrest, hnext, -⟩ := hstep s bytes h size
    obtain ⟨later, hlater, hend⟩ := ih hnext
    refine ⟨later, ?_, hend⟩
    rw [hrest, hlater]
    simp only [readAll, List.append_assoc]

/-- Read until a number of bytes has come, giving up at the end of the stream. -/
def fill (s : S) (want : ℕ) : ℕ → Option (List B × S)
  | 0 => if want = 0 then some ([], s) else none
  | fuel + 1 =>
    if want = 0 then some ([], s)
    else
      let got := read s want
      if got.1.isEmpty then none
      else (fill got.2 (want - got.1.length) fuel).map fun (more, last) => (got.1 ++ more, last)

/-- Read exactly a number of bytes. -/
def readExact (s : S) (count : ℕ) : Option (List B × S) := fill s count count

/-- With as much fuel as bytes are wanted, a beginning of the stream is read and the rest is left. -/
theorem fill_of_yields {want fuel : ℕ} (h : Yields s bytes) (hwant : want ≤ bytes.length)
    (hfuel : want ≤ fuel) :
    ∃ s', fill s want fuel = some (bytes.take want, s') ∧ Yields s' (bytes.drop want) := by
  induction fuel generalizing s bytes want with
  | zero =>
    obtain rfl := Nat.le_zero.mp hfuel
    exact ⟨s, rfl, h⟩
  | succ fuel ih =>
    by_cases hzero : want = 0
    · subst hzero
      exact ⟨s, rfl, h⟩
    obtain ⟨rest, hrest, hyields, hend⟩ := h.read want
    have hgot : (read s want).1 ≠ [] := by
      intro hnone
      rw [hend (Nat.pos_of_ne_zero hzero) hnone, List.length_nil] at hwant
      exact hzero (Nat.le_zero.mp hwant)
    have hle := length_read_le s want
    have hpos := List.length_pos_iff.mpr hgot
    have hlength : bytes.length = (read s want).1.length + rest.length := by
      rw [hrest, List.length_append]
    have hleft : want - (read s want).1.length ≤ rest.length := by omega
    obtain ⟨s', hfill, hlast⟩ := ih hyields hleft (by omega)
    refine ⟨s', ?_, ?_⟩
    · simp only [fill, hzero, List.isEmpty_iff, hgot, if_false, hfill, Option.map_some]
      rw [hrest, List.take_append, List.take_of_length_le hle]
    · rw [hrest, List.drop_append, List.drop_of_length_le hle, List.nil_append]
      exact hlast

/-- Reading exactly takes a beginning off the stream. -/
theorem readExact_of_yields {count : ℕ} (h : Yields s bytes) (hcount : count ≤ bytes.length) :
    ∃ s', readExact s count = some (bytes.take count, s') ∧ Yields s' (bytes.drop count) :=
  fill_of_yields h hcount le_rfl

end Reader

/-- A stream with bytes that were read already put back in front, and how many of them have been read
again. -/
structure Replay (S B : Type*) where
  front : List B
  pos : ℕ
  inner : S

namespace Replay

/-- The bytes put back that have not been read again. -/
def pending (r : Replay S B) : List B := r.front.drop r.pos

variable [Reader S B] {r : Replay S B} {bytes : List B}

/-- Read the bytes put back, and then on from the stream behind them. -/
def read (r : Replay S B) (size : ℕ) : List B × Replay S B :=
  if !r.pending.isEmpty then
    let n := min r.pending.length size
    (r.pending.take n, { r with pos := r.pos + n })
  else
    let got := Reader.read r.inner size
    (got.1, { r with inner := got.2 })

/-- Bytes put back are read up to the size of the buffer. -/
theorem read_pending (h : r.pending ≠ []) (size : ℕ) :
    (r.read size).1 = r.pending.take size ∧ (r.read size).2.pending = r.pending.drop size ∧
      (r.read size).2.inner = r.inner := by
  have htake : r.pending.take (min r.pending.length size) = r.pending.take size := by
    rw [min_comm, ← List.take_take, List.take_length]
  have hdrop : r.front.drop (r.pos + min r.pending.length size) = r.pending.drop size := by
    rw [pending, List.drop_drop]
    refine List.drop_eq_drop_iff.mpr ?_
    rw [List.length_drop]
    omega
  have hread : r.read size = (r.pending.take size, { r with pos := r.pos + min r.pending.length size }) := by
    simp [read, h, htake]
  rw [hread]
  exact ⟨rfl, hdrop, rfl⟩

/-- With nothing put back, the stream itself is read. -/
theorem read_inner (h : r.pending = []) (size : ℕ) :
    r.read size = ((Reader.read r.inner size).1, { r with inner := (Reader.read r.inner size).2 }) := by
  simp [read, h]

instance : Reader (Replay S B) B where
  read := read
  length_read_le r size := by
    by_cases h : r.pending = []
    · rw [read_inner h]
      exact Reader.length_read_le r.inner size
    · rw [(read_pending h size).1]
      exact List.length_take_le size r.pending

/-- The bytes put back come before what the stream behind them yields. -/
theorem yields (h : Reader.Yields r.inner bytes) : Reader.Yields r (r.pending ++ bytes) := by
  refine Reader.yields_of_simulation
    (fun r all => ∃ bytes, Reader.Yields r.inner bytes ∧ all = r.pending ++ bytes) ?_ ⟨bytes, h, rfl⟩
  rintro r - ⟨bytes, hbytes, rfl⟩ size
  change ∃ rest, r.pending ++ bytes = (r.read size).1 ++ rest ∧
    (∃ bytes, Reader.Yields (r.read size).2.inner bytes ∧ rest = (r.read size).2.pending ++ bytes) ∧
    (0 < size → (r.read size).1 = [] → r.pending ++ bytes = [])
  by_cases hnone : r.pending = []
  · obtain ⟨rest, hrest, hyields, hend⟩ := hbytes.read size
    rw [read_inner hnone, hnone]
    exact ⟨rest, hrest, ⟨rest, hyields, congrArg (· ++ rest) hnone.symm⟩, hend⟩
  · obtain ⟨htake, hdrop, hinner⟩ := read_pending hnone size
    rw [htake, hdrop, hinner]
    refine ⟨r.pending.drop size ++ bytes, ?_, ⟨bytes, hbytes, rfl⟩, fun hsize hempty => ?_⟩
    · rw [← List.append_assoc, List.take_append_drop]
    · exact absurd (List.take_eq_nil_iff.mp hempty) (not_or.mpr ⟨hsize.ne', hnone⟩)

end Replay

/-- What is to come in pieces, none of them empty. -/
structure Pieces (B : Type*) where
  pieces : List (List B)
  nonempty : ∀ piece ∈ pieces, piece ≠ []

namespace Pieces

/-- All the bytes to come. -/
def bytes (p : Pieces B) : List B := p.pieces.flatten

/-- A read takes what it can of the first piece and leaves the rest of it, if there is any, and the
other pieces. -/
def takeFirst (size : ℕ) : List (List B) → List B × List (List B)
  | [] => ([], [])
  | piece :: rest =>
    (piece.take size, if (piece.drop size).isEmpty then rest else piece.drop size :: rest)

/-- A read takes no more than asked for. -/
theorem takeFirst_length_le (size : ℕ) (pieces : List (List B)) :
    (takeFirst size pieces).1.length ≤ size := by
  cases pieces with
  | nil => exact Nat.zero_le size
  | cons => exact List.length_take_le _ _

/-- No piece that is left is empty. -/
theorem takeFirst_nonempty (p : Pieces B) (size : ℕ) :
    ∀ piece ∈ (takeFirst size p.pieces).2, piece ≠ [] := by
  obtain ⟨pieces, hnonempty⟩ := p
  cases pieces with
  | nil => simp [takeFirst]
  | cons first rest =>
    have hrest (piece : List B) (hpiece : piece ∈ rest) : piece ≠ [] :=
      hnonempty piece (List.mem_cons_of_mem _ hpiece)
    dsimp only [takeFirst]
    split
    · exact hrest
    · rename_i hleft
      rintro piece (- | ⟨-, hpiece⟩)
      · simpa using hleft
      · exact hrest piece hpiece

instance : Reader (Pieces B) B where
  read p size := ((takeFirst size p.pieces).1, ⟨(takeFirst size p.pieces).2, p.takeFirst_nonempty size⟩)
  length_read_le p size := takeFirst_length_le size p.pieces

/-- What a read takes and what it leaves make up the whole. -/
theorem takeFirst_flatten (size : ℕ) (pieces : List (List B)) :
    (takeFirst size pieces).1 ++ (takeFirst size pieces).2.flatten = pieces.flatten := by
  cases pieces with
  | nil => rfl
  | cons piece rest =>
    dsimp only [takeFirst]
    split
    · rename_i hleft
      rw [List.take_of_length_le (List.drop_eq_nil_iff.mp (List.isEmpty_iff.mp hleft)),
        List.flatten_cons]
    · rw [List.flatten_cons, List.flatten_cons, ← List.append_assoc, List.take_append_drop]

/-- However they are read, the pieces yield their bytes. -/
theorem yields (p : Pieces B) : Reader.Yields p p.bytes := by
  refine Reader.yields_of_simulation (fun p all => all = p.bytes) ?_ rfl
  rintro p - rfl size
  refine ⟨_, (takeFirst_flatten size p.pieces).symm, rfl, fun hsize hnone => ?_⟩
  obtain ⟨pieces, hnonempty⟩ := p
  cases pieces with
  | nil => rfl
  | cons piece rest =>
    have hempty := (List.take_eq_nil_iff.mp hnone).resolve_left hsize.ne'
    exact absurd hempty (hnonempty piece List.mem_cons_self)

end Pieces

/-- The number that octets stand for, the most significant first. -/
def ofOctets (octets : List UInt8) : ℕ := octets.foldl (fun n octet => n * 256 + octet.toNat) 0

/-- A number of octets of a number, the most significant first. -/
def toOctets : ℕ → ℕ → List UInt8
  | 0, _ => []
  | count + 1, n => toOctets count (n / 256) ++ [UInt8.ofNat n]

/-- The last octet counts once and the others 256 times. -/
theorem ofOctets_append_singleton (octets : List UInt8) (octet : UInt8) :
    ofOctets (octets ++ [octet]) = ofOctets octets * 256 + octet.toNat := by
  simp [ofOctets]

/-- There are as many octets as asked for. -/
@[simp]
theorem length_toOctets (count n : ℕ) : (toOctets count n).length = count := by
  induction count generalizing n with
  | zero => rfl
  | succ count ih => simp [toOctets, ih]

/-- Octets are the octets of their number. -/
theorem toOctets_ofOctets (octets : List UInt8) : toOctets octets.length (ofOctets octets) = octets := by
  induction octets using List.reverseRecOn with
  | nil => rfl
  | append_singleton octets octet ih =>
    have hlt := octet.toNat_lt
    have hhigh : (ofOctets octets * 256 + octet.toNat) / 256 = ofOctets octets := by omega
    have hlow : UInt8.ofNat (ofOctets octets * 256 + octet.toNat) = octet := by
      apply UInt8.toNat_inj.mp
      rw [UInt8.toNat_ofNat']
      omega
    rw [List.length_append, List.length_singleton, toOctets, ofOctets_append_singleton, hhigh, ih, hlow]

/-- The number of some octets is below the power of their count. -/
theorem ofOctets_lt (octets : List UInt8) : ofOctets octets < 256 ^ octets.length := by
  induction octets using List.reverseRecOn with
  | nil => simp [ofOctets]
  | append_singleton octets octet ih =>
    have hlt := octet.toNat_lt
    rw [ofOctets_append_singleton, List.length_append, List.length_singleton, pow_succ]
    omega

/-- A number that fits is the number of its octets. -/
theorem ofOctets_toOctets {count n : ℕ} (hn : n < 256 ^ count) : ofOctets (toOctets count n) = n := by
  induction count generalizing n with
  | zero =>
    rw [pow_zero, Nat.lt_one_iff] at hn
    exact hn.symm
  | succ count ih =>
    rw [pow_succ] at hn
    have hhigh : n / 256 < 256 ^ count := by omega
    rw [toOctets, ofOctets_append_singleton, ih hhigh, UInt8.toNat_ofNat']
    omega

/-- The leading octets are those of the quotient. -/
theorem toOctets_add (front back n : ℕ) :
    toOctets (front + back) n = toOctets front (n / 256 ^ back) ++ toOctets back n := by
  induction back generalizing n with
  | zero => simp [toOctets]
  | succ back ih =>
    rw [← Nat.add_assoc, toOctets, ih, toOctets, List.append_assoc, Nat.div_div_eq_div_mul, ← pow_succ']

/-- Zeros at the end move the octets in front of them up. -/
theorem ofOctets_append_zeros (octets : List UInt8) (count : ℕ) :
    ofOctets (octets ++ List.replicate count 0) = ofOctets octets * 256 ^ count := by
  induction count with
  | zero => simp
  | succ count ih =>
    rw [List.replicate_succ', ← List.append_assoc, ofOctets_append_singleton, ih, UInt8.toNat_zero,
      Nat.add_zero, Nat.mul_assoc, pow_succ]

/-- What holds of the 256 octets holds of every octet. -/
theorem forall_octet {P : UInt8 → Prop} (h : ∀ n < 256, P (UInt8.ofNat n)) (octet : UInt8) : P octet := by
  have hoctet := h octet.toNat octet.toNat_lt
  rwa [UInt8.ofNat_toNat] at hoctet

end Common
