import DigRelay.Common.ByteStream
import Mathlib.Data.Nat.Bitwise

/-!
# Octets as bit strings

The bits of an octet string are numbered from the most significant bit of its first octet. Two octets
agree on their first bits exactly when they agree under the mask of those bits, and the octets of a
number have the bits of the number.
-/

namespace Common

/-- A bit of an octet, the most significant first. -/
def octetBit (octet : UInt8) (i : ℕ) : Bool := octet.toNat.testBit (7 - i)

/-- A bit of an octet string. -/
def bitAt (octets : List UInt8) (i : ℕ) : Bool := octetBit (octets.getD (i / 8) 0) (i % 8)

/-- The first bits of two octet strings are the same. -/
def AgreeOn (n : ℕ) (a b : List UInt8) : Prop := ∀ i < n, bitAt a i = bitAt b i

/-- Octets with the same bits are the same. -/
theorem octet_ext {a b : UInt8} (h : ∀ i < 8, octetBit a i = octetBit b i) : a = b := by
  apply UInt8.toNat_inj.mp
  apply Nat.eq_of_testBit_eq
  intro j
  by_cases hj : j < 8
  · have hbit := h (7 - j) (by omega)
    rwa [octetBit, octetBit, show 7 - (7 - j) = j by omega] at hbit
  · have ha : a.toNat < 2 ^ j := a.toNat_lt.trans_le (Nat.pow_le_pow_right two_pos (by omega))
    have hb : b.toNat < 2 ^ j := b.toNat_lt.trans_le (Nat.pow_le_pow_right two_pos (by omega))
    rw [Nat.testBit_lt_two_pow ha, Nat.testBit_lt_two_pow hb]

/-- A bit of a masked octet is set where both are. -/
theorem octetBit_and (a b : UInt8) (i : ℕ) :
    octetBit (a &&& b) i = (octetBit a i && octetBit b i) := by
  rw [octetBit, UInt8.toNat_and, Nat.testBit_and]
  rfl

/-- The mask of the first bits has those bits and no others. -/
theorem octetBit_mask {count i : ℕ} (hpos : 0 < count) (hcount : count < 8) (hi : i < 8) :
    octetBit (0xff <<< (8 - UInt8.ofNat count)) i = decide (i < count) := by
  have hall : ∀ count < 8, 0 < count → ∀ i < 8,
      octetBit (0xff <<< (8 - UInt8.ofNat count)) i = decide (i < count) := by decide +kernel
  exact hall count hcount hpos i hi

/-- Two octets are the same under the mask of the first bits exactly when those bits are. -/
theorem masked_eq_iff {count : ℕ} (hpos : 0 < count) (hcount : count < 8) (a b : UInt8) :
    a &&& (0xff <<< (8 - UInt8.ofNat count)) = b &&& (0xff <<< (8 - UInt8.ofNat count)) ↔
      ∀ i < count, octetBit a i = octetBit b i := by
  constructor
  · intro h i hi
    have hbit := congrArg (octetBit · i) h
    simpa [octetBit_and, octetBit_mask hpos hcount (hi.trans hcount), hi] using hbit
  · intro h
    apply octet_ext
    intro i hi
    rw [octetBit_and, octetBit_and, octetBit_mask hpos hcount hi]
    by_cases hlt : i < count
    · rw [h i hlt]
    · simp [hlt]

/-- Whole octets are the same exactly when all their bits are. -/
theorem take_eq_iff_agreeOn {count : ℕ} {a b : List UInt8} (ha : count ≤ a.length)
    (hb : count ≤ b.length) : a.take count = b.take count ↔ AgreeOn (8 * count) a b := by
  constructor
  · intro h i hi
    have hlt : i / 8 < count := by omega
    have hget := congrArg (fun octets : List UInt8 => octets.getD (i / 8) 0) h
    simp only [List.getD_eq_getElem?_getD, List.getElem?_take, hlt, if_true] at hget
    simp only [bitAt, List.getD_eq_getElem?_getD, hget]
  · intro h
    apply List.ext_getElem (by simp [ha, hb])
    intro j hj _
    rw [List.length_take] at hj
    rw [List.getElem_take, List.getElem_take]
    apply octet_ext
    intro i hi
    have hbit := h (8 * j + i) (by omega)
    have hdiv : (8 * j + i) / 8 = j := by omega
    have hmod : (8 * j + i) % 8 = i := by omega
    simpa [bitAt, hdiv, hmod, List.getD_eq_getElem?_getD, show j < a.length by omega,
      show j < b.length by omega] using hbit

/-- The bits up to some of the next octet are those of the whole octets and those of that one. -/
theorem agreeOn_add {count more : ℕ} (hmore : more ≤ 8) (a b : List UInt8) :
    AgreeOn (8 * count + more) a b ↔
      AgreeOn (8 * count) a b ∧
        ∀ i < more, octetBit (a.getD count 0) i = octetBit (b.getD count 0) i := by
  constructor
  · intro h
    refine ⟨fun i hi => h i (by omega), fun i hi => ?_⟩
    have hbit := h (8 * count + i) (by omega)
    have hdiv : (8 * count + i) / 8 = count := by omega
    have hmod : (8 * count + i) % 8 = i := by omega
    rwa [bitAt, bitAt, hdiv, hmod] at hbit
  · rintro ⟨hwhole, hrest⟩ i hi
    by_cases hlt : i < 8 * count
    · exact hwhole i hlt
    · have hdiv : i / 8 = count := by omega
      rw [bitAt, bitAt, hdiv]
      exact hrest (i % 8) (by omega)

/-- The octets of a number have its bits, the most significant first. -/
theorem bitAt_toOctets {count i : ℕ} (hi : i < 8 * count) (n : ℕ) :
    bitAt (toOctets count n) i = n.testBit (8 * count - 1 - i) := by
  induction count generalizing n with
  | zero => omega
  | succ count ih =>
    by_cases hlt : i < 8 * count
    · have hindex : i / 8 < (toOctets count (n / 256)).length := by
        rw [length_toOctets]
        omega
      have hhigh := ih hlt (n / 256)
      rw [toOctets, bitAt, List.getD_append _ _ _ _ hindex, ← bitAt, hhigh, show 256 = 2 ^ 8 by rfl,
        Nat.testBit_div_two_pow]
      congr 1
      omega
    · have hdiv : i / 8 = count := by omega
      have hlast : (toOctets (count + 1) n).getD count 0 = UInt8.ofNat n := by
        rw [toOctets, List.getD_append_right _ _ _ _ (by simp)]
        simp
      rw [bitAt, hdiv, hlast, octetBit, UInt8.toNat_ofNat', Nat.testBit_mod_two_pow]
      have hbit : 7 - i % 8 = 8 * (count + 1) - 1 - i := by omega
      rw [hbit]
      simp
      omega

end Common
