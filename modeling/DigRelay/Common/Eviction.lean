import DigRelay.Common.Table
import Mathlib.Data.Finset.Card

/-!
# Bounded tables that evict an entry of smallest rank

A table that attackers can fill is kept within a bound: before a new key enters a full table, one
entry of smallest rank leaves it. Which of several such entries leaves depends on the enumeration
order, so the rules below speak of any of them. As long as no more keys were ever seen than the
bound allows, nothing is evicted and the keys do not disturb each other.
-/

namespace Common

namespace Table

variable {K V : Type*} [DecidableEq K] {bound : ℕ} {rank : V → ℕ} {table room after : Table K V}
  {key : K} {value : V}

/-- Room is made for a key: a full table that lacks it loses an entry of smallest rank. -/
inductive MakesRoom (bound : ℕ) (rank : V → ℕ) (table : Table K V) (key : K) : Table K V → Prop
  | kept (h : table.lookup key ≠ none ∨ table.size < bound) : MakesRoom bound rank table key table
  | evicted (victim : K) (value : V) (habsent : table.lookup key = none)
      (hfull : bound ≤ table.size) (hvictim : table.lookup victim = some value)
      (hmin : ∀ other entry, table.lookup other = some entry → rank value ≤ rank entry) :
      MakesRoom bound rank table key (table.erase victim)

/-- Making room leaves the entry of the key alone. -/
theorem MakesRoom.lookup_key (h : MakesRoom bound rank table key room) :
    room.lookup key = table.lookup key := by
  cases h with
  | kept => rfl
  | evicted victim value habsent hfull hvictim hmin =>
    have hne : key ≠ victim := by
      rintro rfl
      rw [habsent] at hvictim
      cases hvictim
    rw [lookup_erase_eq, if_neg hne]

/-- Storing the key after making room for it keeps the table within its bound. -/
theorem MakesRoom.size_insert_le (h : MakesRoom bound rank table key room)
    (hsize : table.size ≤ bound) : size (room.insert key value) ≤ bound := by
  cases hkey : room.lookup key with
  | some old =>
    rw [size_insert_of_some hkey]
    cases h with
    | kept => exact hsize
    | evicted victim value habsent hfull hvictim hmin =>
      have herase := size_erase_of_some hvictim
      omega
  | none =>
    rw [size_insert_of_none hkey]
    cases h with
    | kept hroom =>
      have hlt := hroom.resolve_left (not_not.mpr hkey)
      omega
    | evicted victim value habsent hfull hvictim hmin =>
      have herase := size_erase_of_some hvictim
      omega

/-- Making room for a key never needs more room. -/
theorem MakesRoom.size_le (h : MakesRoom bound rank table key room) : room.size ≤ table.size := by
  cases h with
  | kept => rfl
  | evicted victim value habsent hfull hvictim hmin =>
    have herase := size_erase_of_some hvictim
    omega

/-- A removal never adds an entry. -/
theorem size_erase_le (table : Table K V) (key : K) : size (table.erase key) ≤ table.size := by
  rw [size_eq_length_keys, size_eq_length_keys, AList.keys_erase]
  exact List.length_erase_le

/-- A table changes at one key alone, but for one other entry of smallest rank that a full table
lacking the key may lose. -/
def ChangesAt (bound : ℕ) (rank : V → ℕ) (table : Table K V) (key : K) (after : Table K V) : Prop :=
  ∃ lost : Option K,
    (∀ victim ∈ lost, victim ≠ key ∧ table.lookup key = none ∧ bound ≤ table.size ∧
      ∃ value, table.lookup victim = some value ∧
        ∀ other entry, table.lookup other = some entry → rank value ≤ rank entry) ∧
    ∀ other, other ≠ key → after.lookup other = if other ∈ lost then none else table.lookup other

/-- Making room for a key and then changing its entry alone. -/
theorem MakesRoom.changesAt (h : MakesRoom bound rank table key room)
    (hafter : ∀ other, other ≠ key → after.lookup other = room.lookup other) :
    ChangesAt bound rank table key after := by
  cases h with
  | kept => exact ⟨none, by simp, by simpa using hafter⟩
  | evicted victim value habsent hfull hvictim hmin =>
    have hne : victim ≠ key := by
      rintro rfl
      rw [habsent] at hvictim
      cases hvictim
    refine ⟨some victim, fun other hother => ?_, fun other hother => ?_⟩
    · obtain rfl := Option.some.inj hother
      exact ⟨hne, habsent, hfull, value, hvictim, hmin⟩
    · rw [hafter other hother, lookup_erase_eq]
      simp [eq_comm]

/-- A table is changed at one key and stays within its bound. -/
structure KeepsBound (bound : ℕ) (rank : V → ℕ) (table : Table K V) (key : K)
    (after : Table K V) : Prop where
  changes : ChangesAt bound rank table key after
  size_le : table.size ≤ bound → after.size ≤ bound

/-- A table that stays as it is. -/
theorem KeepsBound.refl : KeepsBound bound rank table key table :=
  ⟨⟨none, by simp, by simp⟩, id⟩

/-- Storing a key after making room for it. -/
theorem MakesRoom.insert (h : MakesRoom bound rank table key room) :
    KeepsBound bound rank table key (AList.insert key value room) :=
  ⟨h.changesAt fun other hother => by rw [lookup_insert_eq, if_neg hother], h.size_insert_le⟩

/-- Removing a key after making room for it. -/
theorem MakesRoom.erase (h : MakesRoom bound rank table key room) :
    KeepsBound bound rank table key (AList.erase key room) :=
  ⟨h.changesAt fun other hother => by rw [lookup_erase_eq, if_neg hother],
    fun hsize => (size_erase_le room key).trans (h.size_le.trans hsize)⟩

/-- Removing a key. -/
theorem KeepsBound.erase : KeepsBound bound rank table key (AList.erase key table) :=
  ⟨⟨none, by simp, fun other hother => by simp [hother]⟩,
    (size_erase_le table key).trans⟩

/-- A table has no more entries than a set its keys lie in. -/
theorem size_le_card {seen : Finset K} (hkeys : ∀ other, table.lookup other ≠ none → other ∈ seen) :
    table.size ≤ seen.card := by
  rw [size_eq_length_keys, ← List.toFinset_card_of_nodup table.keys_nodup]
  refine Finset.card_le_card fun other hother => hkeys other ?_
  rw [Ne, AList.lookup_eq_none, not_not]
  exact AList.mem_keys.mpr (List.mem_toFinset.mp hother)

/-- A table has fewer entries than a set that its keys lie in together with a missing key. -/
theorem size_lt_card {seen : Finset K} (hkeys : ∀ other, table.lookup other ≠ none → other ∈ seen)
    (habsent : table.lookup key = none) (hkey : key ∈ seen) : table.size < seen.card := by
  have hrest : table.size ≤ (seen.erase key).card := by
    refine size_le_card fun other hother => Finset.mem_erase.mpr ⟨?_, hkeys other hother⟩
    rintro rfl
    exact hother habsent
  exact hrest.trans_lt (Finset.card_erase_lt_of_mem hkey)

/-- Another key found after the change was there before. -/
theorem ChangesAt.lookup_ne_none (h : ChangesAt bound rank table key after) {other : K}
    (hother : other ≠ key) (hafter : after.lookup other ≠ none) : table.lookup other ≠ none := by
  obtain ⟨lost, -, hothers⟩ := h
  rw [hothers other hother] at hafter
  split at hafter
  · exact absurd rfl hafter
  · exact hafter

/-- While no more keys were seen than the bound allows, the other entries stay. -/
theorem ChangesAt.lookup_of_card {seen : Finset K} (h : ChangesAt bound rank table key after)
    (hkeys : ∀ other, table.lookup other ≠ none → other ∈ seen) (hkey : key ∈ seen)
    (hcard : seen.card ≤ bound) {other : K} (hother : other ≠ key) :
    after.lookup other = table.lookup other := by
  obtain ⟨lost, hlost, hafter⟩ := h
  rw [hafter other hother]
  refine if_neg fun hmem => ?_
  obtain ⟨-, habsent, hfull, -⟩ := hlost other hmem
  have hlt := size_lt_card hkeys habsent hkey
  omega

end Table

end Common
