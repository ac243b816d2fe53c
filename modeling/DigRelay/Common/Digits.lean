import DigRelay.Common.Text
import Mathlib.Algebra.Order.Ring.Nat

/-!
# Numbers as digits

A number below a power of the radix has that many digits, leading zeros included, and their value is
the number. Leading digits are those of the quotient. A number is also written with as many digits as it
needs, as a text that parses back to it.
-/

namespace Common

/-- The digits behind count once, those in front as often as the place they stand at says. -/
theorem digitsValue_append (radix : ℕ) (front back : List ℕ) :
    digitsValue radix (front ++ back) =
      digitsValue radix front * radix ^ back.length + digitsValue radix back := by
  induction back using List.reverseRecOn with
  | nil => simp [digitsValue]
  | append_singleton back digit ih =>
    have hlast (digits : List ℕ) :
        digitsValue radix (digits ++ [digit]) = digitsValue radix digits * radix + digit := by
      simp [digitsValue]
    rw [← List.append_assoc, hlast, hlast, ih, List.length_append, List.length_singleton, pow_succ,
      Nat.add_mul, Nat.mul_assoc, Nat.add_assoc]

/-- A single digit has its own value. -/
@[simp] theorem digitsValue_singleton (radix digit : ℕ) : digitsValue radix [digit] = digit := by
  simp [digitsValue]

/-- A number of digits of a number, the most significant first. -/
def fixedDigits (radix : ℕ) : ℕ → ℕ → List ℕ
  | 0, _ => []
  | count + 1, n => fixedDigits radix count (n / radix) ++ [n % radix]

section Fixed

variable {radix : ℕ}

/-- There are as many digits as asked for. -/
@[simp] theorem length_fixedDigits (count n : ℕ) : (fixedDigits radix count n).length = count := by
  induction count generalizing n with
  | zero => rfl
  | succ count ih => rw [fixedDigits, List.length_append, ih, List.length_singleton]

/-- Every digit is below the radix. -/
theorem lt_of_mem_fixedDigits (hradix : 0 < radix) {count n digit : ℕ}
    (h : digit ∈ fixedDigits radix count n) : digit < radix := by
  induction count generalizing n with
  | zero => cases h
  | succ count ih =>
    rcases List.mem_append.mp h with hfront | hlast
    · exact ih hfront
    · rw [List.mem_singleton.mp hlast]
      exact Nat.mod_lt n hradix

/-- The digits have the value of the number. -/
theorem digitsValue_fixedDigits {count n : ℕ} (h : n < radix ^ count) :
    digitsValue radix (fixedDigits radix count n) = n := by
  induction count generalizing n with
  | zero =>
    rw [pow_zero, Nat.lt_one_iff] at h
    rw [h]
    rfl
  | succ count ih =>
    have hquotient : n / radix < radix ^ count := by
      apply Nat.div_lt_of_lt_mul
      rwa [pow_succ'] at h
    rw [fixedDigits, digitsValue_append, ih hquotient, digitsValue_singleton, List.length_singleton,
      pow_one]
    exact Nat.div_add_mod' n radix

/-- The leading digits are those of the quotient. -/
theorem fixedDigits_add (front back n : ℕ) :
    fixedDigits radix (front + back) n =
      fixedDigits radix front (n / radix ^ back) ++ fixedDigits radix back n := by
  induction back generalizing n with
  | zero => simp [fixedDigits]
  | succ back ih =>
    rw [← Nat.add_assoc, fixedDigits, ih, fixedDigits, List.append_assoc, Nat.div_div_eq_div_mul,
      ← pow_succ']

end Fixed

/-- The character of a digit stands for the digit. -/
theorem toDigit_digitChar {radix digit : ℕ} (hradix : radix ≤ 16) (h : digit < radix) :
    toDigit radix (Nat.digitChar digit) = some digit := by
  have hall : ∀ radix ≤ 16, ∀ digit < radix, toDigit radix (Nat.digitChar digit) = some digit := by
    decide +kernel
  exact hall radix hradix digit h

section Numerals

variable {radix : ℕ} (htwo : 1 < radix) (hradix : radix ≤ 16)

include htwo hradix

/-- Every character of a numeral is a digit. -/
theorem toDigit_isSome_of_mem {n : ℕ} {c : Char} (h : c ∈ Nat.toDigits radix n) :
    (toDigit radix c).isSome = true := by
  induction n using Nat.strongRecOn with
  | ind n ih =>
    rw [Nat.toDigits_eq_if htwo] at h
    split at h
    · rename_i hsmall
      rw [List.mem_singleton.mp h, toDigit_digitChar hradix hsmall, Option.isSome_some]
    · have hlast : n % radix < radix := Nat.mod_lt n (by omega)
      rcases List.mem_append.mp h with hfront | hend
      · exact ih (n / radix) (Nat.div_lt_self (by omega) htwo) hfront
      · rw [List.mem_singleton.mp hend, toDigit_digitChar hradix hlast, Option.isSome_some]

/-- A numeral has the value of its number. -/
theorem digitsValue_toDigits (n : ℕ) :
    digitsValue radix ((Nat.toDigits radix n).filterMap (toDigit radix)) = n := by
  induction n using Nat.strongRecOn with
  | ind n ih =>
    rw [Nat.toDigits_eq_if htwo]
    split
    · rename_i hsmall
      rw [List.filterMap_cons_some (toDigit_digitChar hradix hsmall), List.filterMap_nil,
        digitsValue_singleton]
    · have hlast : n % radix < radix := Nat.mod_lt n (by omega)
      rw [List.filterMap_append, List.filterMap_cons_some (toDigit_digitChar hradix hlast),
        List.filterMap_nil, digitsValue_append, ih (n / radix) (Nat.div_lt_self (by omega) htwo),
        digitsValue_singleton, List.length_singleton, pow_one]
      exact Nat.div_add_mod' n radix

/-- Only the numeral of zero begins with a zero. -/
theorem eq_zero_of_head?_toDigits {n : ℕ} (h : (Nat.toDigits radix n).head? = some '0') : n = 0 := by
  induction n using Nat.strongRecOn with
  | ind n ih =>
    rw [Nat.toDigits_eq_if htwo] at h
    split at h
    · rename_i hsmall
      have hdigit := toDigit_digitChar hradix hsmall
      rw [Option.some.inj h] at hdigit
      have hzero := @toDigit_digitChar radix 0 hradix (by omega)
      exact Option.some.inj (hdigit.symm.trans hzero)
    · rw [List.head?_append_of_ne_nil _ Nat.toDigits_ne_nil] at h
      have hquotient := ih (n / radix) (Nat.div_lt_self (by omega) htwo) h
      have := Nat.div_eq_zero_iff.mp hquotient
      omega

end Numerals

/-- If every character is a digit, all are read. -/
theorem mapM_toDigit {radix : ℕ} {text : List Char} (h : ∀ c ∈ text, (toDigit radix c).isSome = true) :
    text.mapM (toDigit radix) = some (text.filterMap (toDigit radix)) := by
  induction text with
  | nil => rfl
  | cons head rest ih =>
    obtain ⟨hhead, hrest⟩ := List.forall_mem_cons.mp h
    obtain ⟨digit, hdigit⟩ := Option.isSome_iff_exists.mp hhead
    rw [List.mapM_cons, hdigit, ih hrest, List.filterMap_cons_some hdigit]
    rfl

/-- A number below the bound is parsed from its numeral. -/
theorem parseUnsigned_toDigits {bound n : ℕ} (h : n < bound) :
    parseUnsigned bound (Nat.toDigits 10 n) = some n := by
  have hdigits : ∀ c ∈ Nat.toDigits 10 n, (toDigit 10 c).isSome = true := fun c hc =>
    toDigit_isSome_of_mem (by decide) (by decide) hc
  have hne : Nat.toDigits 10 n ≠ [] := Nat.toDigits_ne_nil
  -- a numeral has no sign
  have hsign : ∀ rest, Nat.toDigits 10 n ≠ '+' :: rest := by
    intro rest hrest
    exact absurd (hdigits '+' (hrest ▸ List.mem_cons_self)) (by decide)
  unfold parseUnsigned
  split
  · rename_i rest hrest
    exact absurd hrest (hsign rest)
  · simp only
    rw [if_neg hne, mapM_toDigit hdigits, Option.map_some, digitsValue_toDigits (by decide) (by decide)]
    simpa using h

end Common
