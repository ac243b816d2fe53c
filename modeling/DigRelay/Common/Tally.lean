import Mathlib.Algebra.Ring.Nat
import Mathlib.Data.List.Induction
import Mathlib.Data.List.Perm.Basic
import Mathlib.Order.Lattice

/-!
# Counting keys in order

Occurrences are counted in a list of keys and counts that is kept sorted by key, as an ordered
map enumerates it. Each key is listed once, no count is zero, all occurrences are counted, and the order
in which they come does not matter.
-/

namespace Common

variable {K : Type*} [LinearOrder K]

/-- Count one more occurrence of a key. -/
def bump (key : K) : List (K × ℕ) → List (K × ℕ)
  | [] => [(key, 1)]
  | (other, count) :: rest =>
    if key = other then (other, count + 1) :: rest
    else if key < other then (key, 1) :: (other, count) :: rest
    else (other, count) :: bump key rest

/-- How often each key occurs, sorted by key. -/
def tally (keys : List K) : List (K × ℕ) := keys.foldl (fun counts key => bump key counts) []

variable {key other : K} {counts : List (K × ℕ)} {keys keys' : List K}

section Bump

variable {count : ℕ} {rest : List (K × ℕ)}

/-- The first key is counted where it stands. -/
theorem bump_cons_self : bump key ((key, count) :: rest) = (key, count + 1) :: rest := by
  rw [bump, if_pos rfl]

/-- An earlier key is put in front. -/
theorem bump_cons_of_lt (h : key < other) :
    bump key ((other, count) :: rest) = (key, 1) :: (other, count) :: rest := by
  rw [bump, if_neg h.ne, if_pos h]

/-- A later key is counted behind. -/
theorem bump_cons_of_gt (h : other < key) :
    bump key ((other, count) :: rest) = (other, count) :: bump key rest := by
  rw [bump, if_neg h.ne', if_neg h.not_gt]

end Bump

/-- Counting one occurrence adds one to the sum. -/
theorem sum_bump (key : K) (counts : List (K × ℕ)) :
    ((bump key counts).map Prod.snd).sum = (counts.map Prod.snd).sum + 1 := by
  induction counts with
  | nil => rfl
  | cons entry rest ih =>
    obtain ⟨other, count⟩ := entry
    rcases lt_trichotomy key other with h | rfl | h
    · rw [bump_cons_of_lt h, List.map_cons, List.sum_cons, Nat.add_comm]
    · rw [bump_cons_self, List.map_cons, List.sum_cons, List.map_cons, List.sum_cons]
      omega
    · rw [bump_cons_of_gt h, List.map_cons, List.sum_cons, ih, List.map_cons, List.sum_cons]
      omega

/-- Counting one occurrence leaves no count zero. -/
theorem pos_of_mem_bump (h : ∀ entry ∈ counts, 0 < entry.2) : ∀ entry ∈ bump key counts, 0 < entry.2 := by
  induction counts with
  | nil => simp [bump]
  | cons entry rest ih =>
    obtain ⟨other, count⟩ := entry
    obtain ⟨hcount, hrest⟩ := List.forall_mem_cons.mp h
    rcases lt_trichotomy key other with hlt | rfl | hgt
    · rw [bump_cons_of_lt hlt]
      exact List.forall_mem_cons.mpr ⟨Nat.one_pos, h⟩
    · rw [bump_cons_self]
      exact List.forall_mem_cons.mpr ⟨Nat.succ_pos _, hrest⟩
    · rw [bump_cons_of_gt hgt]
      exact List.forall_mem_cons.mpr ⟨hcount, ih hrest⟩

/-- What is listed after counting was listed before or is the key that is counted. -/
theorem fst_of_mem_bump {entry : K × ℕ} (h : entry ∈ bump key counts) :
    entry.1 = key ∨ ∃ before ∈ counts, before.1 = entry.1 := by
  induction counts with
  | nil => exact .inl (congrArg Prod.fst (List.mem_singleton.mp h))
  | cons first rest ih =>
    obtain ⟨other, count⟩ := first
    rcases lt_trichotomy key other with hlt | rfl | hgt
    · rw [bump_cons_of_lt hlt] at h
      rcases List.mem_cons.mp h with rfl | hbefore
      · exact .inl rfl
      · exact .inr ⟨entry, hbefore, rfl⟩
    · rw [bump_cons_self] at h
      rcases List.mem_cons.mp h with rfl | hbefore
      · exact .inl rfl
      · exact .inr ⟨entry, List.mem_cons_of_mem _ hbefore, rfl⟩
    · rw [bump_cons_of_gt hgt] at h
      rcases List.mem_cons.mp h with rfl | hrest
      · exact .inr ⟨_, List.mem_cons_self, rfl⟩
      · rcases ih hrest with hkey | ⟨before, hbefore, heq⟩
        · exact .inl hkey
        · exact .inr ⟨before, List.mem_cons_of_mem _ hbefore, heq⟩

/-- Counting one occurrence keeps the keys strictly sorted. -/
theorem pairwise_bump (h : counts.Pairwise fun a b => a.1 < b.1) :
    (bump key counts).Pairwise fun a b => a.1 < b.1 := by
  induction counts with
  | nil => exact List.pairwise_singleton _ _
  | cons entry rest ih =>
    obtain ⟨other, count⟩ := entry
    obtain ⟨hfirst, hrest⟩ := List.pairwise_cons.mp h
    rcases lt_trichotomy key other with hlt | rfl | hgt
    · rw [bump_cons_of_lt hlt]
      apply List.pairwise_cons.mpr ⟨fun later hlater => ?_, h⟩
      rcases List.mem_cons.mp hlater with rfl | hmem
      · exact hlt
      · exact hlt.trans (hfirst later hmem)
    · rw [bump_cons_self]
      exact List.pairwise_cons.mpr ⟨hfirst, hrest⟩
    · rw [bump_cons_of_gt hgt]
      apply List.pairwise_cons.mpr ⟨fun later hlater => ?_, ih hrest⟩
      rcases fst_of_mem_bump hlater with hkey | ⟨before, hbefore, heq⟩
      · exact hgt.trans_eq hkey.symm
      · exact (hfirst before hbefore).trans_eq heq

/-- An earlier and a later key may be counted in either order. -/
theorem bump_comm_of_lt (h : key < other) (counts : List (K × ℕ)) :
    bump other (bump key counts) = bump key (bump other counts) := by
  induction counts with
  | nil =>
    change bump other [(key, 1)] = bump key [(other, 1)]
    rw [bump_cons_of_gt h, bump_cons_of_lt h]
    rfl
  | cons entry rest ih =>
    obtain ⟨first, count⟩ := entry
    rcases lt_trichotomy key first with hkey | rfl | hkey
    · rw [bump_cons_of_lt hkey, bump_cons_of_gt h]
      rcases lt_trichotomy other first with hother | rfl | hother
      · rw [bump_cons_of_lt hother, bump_cons_of_lt h]
      · rw [bump_cons_self, bump_cons_of_lt hkey]
      · rw [bump_cons_of_gt hother, bump_cons_of_lt hkey]
    · rw [bump_cons_self, bump_cons_of_gt h, bump_cons_of_gt h, bump_cons_self]
    · have hother : first < other := hkey.trans h
      rw [bump_cons_of_gt hkey, bump_cons_of_gt hother, bump_cons_of_gt hother, bump_cons_of_gt hkey, ih]

/-- Two keys may be counted in either order. -/
theorem bump_comm (key other : K) (counts : List (K × ℕ)) :
    bump other (bump key counts) = bump key (bump other counts) := by
  rcases lt_trichotomy key other with h | rfl | h
  · exact bump_comm_of_lt h counts
  · rfl
  · exact (bump_comm_of_lt h counts).symm

/-- All occurrences are counted. -/
theorem sum_tally (keys : List K) : ((tally keys).map Prod.snd).sum = keys.length := by
  induction keys using List.reverseRecOn with
  | nil => rfl
  | append_singleton keys key ih =>
    rw [tally, List.foldl_append, ← tally, List.foldl_cons, List.foldl_nil, sum_bump, ih,
      List.length_append, List.length_singleton]

/-- No key is listed with the count zero. -/
theorem pos_of_mem_tally (keys : List K) : ∀ entry ∈ tally keys, 0 < entry.2 := by
  induction keys using List.reverseRecOn with
  | nil => exact List.forall_mem_nil _
  | append_singleton keys key ih =>
    rw [tally, List.foldl_append, ← tally]
    exact pos_of_mem_bump ih

/-- The keys are listed in strictly increasing order. -/
theorem pairwise_tally (keys : List K) : (tally keys).Pairwise fun a b => a.1 < b.1 := by
  induction keys using List.reverseRecOn with
  | nil => exact List.Pairwise.nil
  | append_singleton keys key ih =>
    rw [tally, List.foldl_append, ← tally]
    exact pairwise_bump ih

/-- The order of the occurrences does not matter. -/
theorem tally_perm (h : keys.Perm keys') : tally keys = tally keys' := by
  apply h.foldl_eq'
  intro key _ other _ counts
  exact bump_comm key other counts

end Common
