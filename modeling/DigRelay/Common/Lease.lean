import Mathlib.Logic.Function.Basic

/-!
# Leases and claims

A shared table grants each key to at most one holder, while every task keeps a private claim:
the key and value it believes it holds. The two are updated together only when a task enters
or leaves; an eviction changes the table behind a claimant's back. Three agreements between
table and claims are preserved, each under its own condition on the operations.

* Claims are exclusive: what a claimed key grants, it grants to the claimant.
* Claims are backed: a claimed key is granted to the claimant with the claimed value.
* Leases are accounted for: the holder of every lease claims it.
-/

namespace Common

/-- A granted key: who holds it and with which value. -/
structure Lease (T V : Type*) where
  holder : T
  value : V

/-- The shared table of leases and the private claims of the tasks. -/
@[ext] structure Leases (T K V : Type*) where
  table : K → Option (Lease T V)
  claim : T → Option (K × V)

namespace Leases

variable {T K V : Type*}

/-- Task `i` claims key `k`. -/
def Claims (leases : Leases T K V) (i : T) (k : K) : Prop := ∃ v, leases.claim i = some (k, v)

/-- What a claimed key grants, it grants to the claimant. -/
def Exclusive (leases : Leases T K V) : Prop :=
  ∀ i k lease, leases.Claims i k → leases.table k = some lease → lease.holder = i

/-- A claimed key is granted to the claimant with the claimed value. -/
def Backed (leases : Leases T K V) : Prop :=
  ∀ i k v, leases.claim i = some (k, v) → leases.table k = some ⟨i, v⟩

/-- The holder of every lease claims it. -/
def Accounted (leases : Leases T K V) : Prop :=
  ∀ k lease, leases.table k = some lease → leases.Claims lease.holder k

/-- Drop the leases of some keys, keeping all claims. -/
def evict (leases : Leases T K V) (victim : K → Bool) : Leases T K V :=
  { leases with table := fun k => if victim k then none else leases.table k }

section

variable [DecidableEq T]

/-- Forget a claim, keeping the table. -/
def quit (leases : Leases T K V) (i : T) : Leases T K V :=
  { leases with claim := Function.update leases.claim i none }

variable [DecidableEq K]

/-- Grant a key to a task, which claims it from now on instead of what it claimed before. -/
def enter (leases : Leases T K V) (i : T) (k : K) (v : V) : Leases T K V :=
  { table := Function.update leases.table k (some ⟨i, v⟩)
    claim := Function.update leases.claim i (some (k, v)) }

/-- Drop the lease of a key together with a task's claim. -/
def leave (leases : Leases T K V) (i : T) (k : K) : Leases T K V :=
  { table := Function.update leases.table k none
    claim := Function.update leases.claim i none }

end

variable {leases : Leases T K V}

/-- Evictions keep claims exclusive. -/
theorem Exclusive.evict (h : leases.Exclusive) (victim : K → Bool) :
    (leases.evict victim).Exclusive := by
  intro i k lease hclaim hlease
  simp only [Leases.evict] at hlease
  split at hlease
  · cases hlease
  · exact h i k lease hclaim hlease

/-- Evictions keep claims backed if they spare every claimed key. -/
theorem Backed.evict (h : leases.Backed) {victim : K → Bool}
    (hspared : ∀ i k, leases.Claims i k → victim k = false) : (leases.evict victim).Backed := by
  intro i k v hclaim
  simp only [Leases.evict, hspared i k ⟨v, hclaim⟩]
  exact h i k v hclaim

/-- Evictions keep leases accounted for. -/
theorem Accounted.evict (h : leases.Accounted) (victim : K → Bool) :
    (leases.evict victim).Accounted := by
  intro k lease hlease
  simp only [Leases.evict] at hlease
  split at hlease
  · cases hlease
  · exact h k lease hlease

variable [DecidableEq T]

/-- A claim forgotten or replaced is the only one that changes. -/
theorem claims_update_none {i j : T} {k : K} {table : K → Option (Lease T V)}
    (h : Claims ⟨table, Function.update leases.claim i none⟩ j k) : j ≠ i ∧ leases.Claims j k := by
  obtain ⟨v, hv⟩ := h
  by_cases hji : j = i
  · subst hji
    simp at hv
  · exact ⟨hji, v, by simpa [Function.update_of_ne hji] using hv⟩

/-- Forgetting a claim keeps the other claims exclusive. -/
theorem Exclusive.quit (h : leases.Exclusive) (i : T) : (leases.quit i).Exclusive := by
  intro j k lease hclaim hlease
  exact h j k lease (claims_update_none hclaim).2 hlease

/-- Forgetting a claim keeps the other claims backed. -/
theorem Backed.quit (h : leases.Backed) (i : T) : (leases.quit i).Backed := by
  intro j k v hclaim
  obtain ⟨hji, -⟩ := claims_update_none ⟨v, hclaim⟩
  refine h j k v ?_
  simpa [Leases.quit, Function.update_of_ne hji] using hclaim

/-- A task whose claimed key grants nothing may forget its claim. -/
theorem Accounted.quit (h : leases.Accounted) {i : T}
    (hempty : ∀ k, leases.Claims i k → leases.table k = none) : (leases.quit i).Accounted := by
  intro k lease hlease
  obtain ⟨v, hv⟩ := h k lease hlease
  by_cases hi : lease.holder = i
  · have hnone := hempty k ⟨v, hi ▸ hv⟩
    rw [show leases.table k = some lease from hlease] at hnone
    cases hnone
  · exact ⟨v, by simpa [Leases.quit, Function.update_of_ne hi] using hv⟩

variable [DecidableEq K]

/-- Entering keeps claims exclusive if nobody else claims the key. -/
theorem Exclusive.enter (h : leases.Exclusive) {i : T} {k : K} (v : V)
    (hfree : ∀ j, j ≠ i → ¬ leases.Claims j k) : (leases.enter i k v).Exclusive := by
  rintro j key lease ⟨w, hclaim⟩ hlease
  simp only [Leases.enter] at hclaim hlease
  by_cases hj : j = i
  · subst hj
    obtain ⟨rfl, rfl⟩ : k = key ∧ v = w := by simpa using hclaim
    rw [Function.update_self] at hlease
    cases hlease
    rfl
  · rw [Function.update_of_ne hj] at hclaim
    have hkey : key ≠ k := by
      rintro rfl
      exact hfree j hj ⟨w, hclaim⟩
    rw [Function.update_of_ne hkey] at hlease
    exact h j key lease ⟨w, hclaim⟩ hlease

/-- Entering keeps claims backed if nobody else claims the key. -/
theorem Backed.enter (h : leases.Backed) {i : T} {k : K} (v : V)
    (hfree : ∀ j, j ≠ i → ¬ leases.Claims j k) : (leases.enter i k v).Backed := by
  intro j key w hclaim
  simp only [Leases.enter] at hclaim ⊢
  by_cases hj : j = i
  · subst hj
    obtain ⟨rfl, rfl⟩ : k = key ∧ v = w := by simpa using hclaim
    exact Function.update_self ..
  · rw [Function.update_of_ne hj] at hclaim
    have hkey : key ≠ k := by
      rintro rfl
      exact hfree j hj ⟨w, hclaim⟩
    rw [Function.update_of_ne hkey]
    exact h j key w hclaim

/-- Entering keeps leases accounted for if the task held no other key. -/
theorem Accounted.enter (h : leases.Accounted) {i : T} {k : K} (v : V)
    (hsingle : ∀ key lease, leases.table key = some lease → lease.holder = i → key = k) :
    (leases.enter i k v).Accounted := by
  intro key lease hlease
  simp only [Leases.enter] at hlease
  by_cases hkey : key = k
  · subst hkey
    rw [Function.update_self] at hlease
    cases hlease
    exact ⟨v, by simp [Leases.enter]⟩
  · rw [Function.update_of_ne hkey] at hlease
    have hholder : lease.holder ≠ i := fun hi => hkey (hsingle key lease hlease hi)
    obtain ⟨w, hw⟩ := h key lease hlease
    exact ⟨w, by simpa [Leases.enter, Function.update_of_ne hholder] using hw⟩

/-- Leaving keeps the other claims exclusive. -/
theorem Exclusive.leave (h : leases.Exclusive) (i : T) (k : K) : (leases.leave i k).Exclusive := by
  intro j key lease hclaim hlease
  simp only [Leases.leave] at hlease
  by_cases hkey : key = k
  · subst hkey
    simp at hlease
  · rw [Function.update_of_ne hkey] at hlease
    exact h j key lease (claims_update_none hclaim).2 hlease

/-- Leaving the claimed key keeps the other claims backed, since no backed key has two
claimants. -/
theorem Backed.leave (h : leases.Backed) {i : T} {k : K} (hclaim : leases.Claims i k) :
    (leases.leave i k).Backed := by
  intro j key v hother
  obtain ⟨hji, -⟩ := claims_update_none ⟨v, hother⟩
  simp only [Leases.leave, Function.update_of_ne hji] at hother
  have hkey : key ≠ k := by
    rintro rfl
    obtain ⟨w, hw⟩ := hclaim
    have hsame := (h j key v hother).symm.trans (h i key w hw)
    exact hji (congrArg Lease.holder (Option.some.inj hsame))
  simp only [Leases.leave, Function.update_of_ne hkey]
  exact h j key v hother

/-- Leaving the claimed key keeps leases accounted for. -/
theorem Accounted.leave (h : leases.Accounted) {i : T} {k : K} (hclaim : leases.Claims i k) :
    (leases.leave i k).Accounted := by
  intro key lease hlease
  simp only [Leases.leave] at hlease
  by_cases hkey : key = k
  · subst hkey
    simp at hlease
  · rw [Function.update_of_ne hkey] at hlease
    obtain ⟨w, hw⟩ := h key lease hlease
    have hholder : lease.holder ≠ i := by
      rintro rfl
      obtain ⟨v, hv⟩ := hclaim
      rw [hw] at hv
      exact hkey (congrArg Prod.fst (Option.some.inj hv))
    exact ⟨w, by simpa [Leases.leave, Function.update_of_ne hholder] using hw⟩

end Leases

end Common
