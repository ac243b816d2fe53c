import Mathlib.Data.List.AList

/-!
# Finite tables in an unspecified enumeration order

A hash map is a set of entries with distinct keys together with the order in which an
iteration happens to visit them. Mathlib's association lists carry exactly this data; the
lemmas below add sizes and enumerations. A rehash is any permutation of the entries, so a
fact proved for every table holds for every enumeration order.
-/

namespace Common

/-- A finite map from keys to values, with its current enumeration order. -/
abbrev Table (K V : Type*) := AList fun _ : K => V

namespace Table

variable {K V : Type*}

/-- The entries in enumeration order. -/
def toPairs (table : Table K V) : List (K × V) :=
  table.entries.map fun entry => (entry.1, entry.2)

/-- The number of entries. -/
def size (table : Table K V) : ℕ := table.entries.length

/-- Apply a function to every value, keeping keys and order. -/
def mapValues {W : Type*} (f : V → W) (table : Table K V) : Table K W where
  entries := table.entries.map fun entry => ⟨entry.1, f entry.2⟩
  nodupKeys := by
    have h := table.nodupKeys
    simpa only [List.NodupKeys, List.keys, List.map_map, Function.comp_def] using h

/-- Two enumerations of the same entries. -/
def Rehashed (left right : Table K V) : Prop := left.entries.Perm right.entries

/-- Enumeration visits every key once. -/
theorem toPairs_keys_nodup (table : Table K V) : (table.toPairs.map Prod.fst).Nodup := by
  have h := table.keys_nodup
  simpa only [toPairs, List.map_map, Function.comp_def, AList.keys, List.keys] using h

/-- Each entry has one key. -/
theorem size_eq_length_keys (table : Table K V) : table.size = table.keys.length := by
  simp [size, AList.keys, List.keys]

/-- A rehash keeps the number of entries. -/
theorem Rehashed.size_eq {left right : Table K V} (h : Rehashed left right) :
    left.size = right.size := h.length_eq

variable [DecidableEq K]

/-- Enumeration visits exactly the stored entries. -/
theorem mem_toPairs_iff (table : Table K V) (key : K) (value : V) :
    (key, value) ∈ table.toPairs ↔ table.lookup key = some value := by
  have hlookup : table.lookup key = some value ↔ (⟨key, value⟩ : Σ _ : K, V) ∈ table.entries :=
    AList.mem_lookup_iff
  rw [hlookup, toPairs, List.mem_map]
  constructor
  · rintro ⟨entry, hentry, heq⟩
    obtain ⟨rfl, rfl⟩ := Prod.mk.injEq _ _ _ _ ▸ heq
    exact hentry
  · intro h
    exact ⟨⟨key, value⟩, h, rfl⟩

/-- A lookup after a change of all values sees the changed value. -/
theorem lookup_mapValues {W : Type*} (f : V → W) (table : Table K V) (key : K) :
    (table.mapValues f).lookup key = (table.lookup key).map f := by
  ext value
  rw [← mem_toPairs_iff, Option.map_eq_some_iff]
  simp only [toPairs, mapValues, List.map_map, List.mem_map, Function.comp_apply, Prod.mk.injEq]
  constructor
  · rintro ⟨entry, hentry, rfl, rfl⟩
    exact ⟨entry.2, AList.mem_lookup_iff.mpr hentry, rfl⟩
  · rintro ⟨old, hold, rfl⟩
    exact ⟨⟨key, old⟩, AList.mem_lookup_iff.mp hold, rfl, rfl⟩

/-- A rehash keeps every lookup. -/
theorem Rehashed.lookup_eq {left right : Table K V} (h : Rehashed left right) (key : K) :
    left.lookup key = right.lookup key := AList.perm_lookup h

/-- A new key adds one entry. -/
theorem size_insert_of_none {table : Table K V} {key : K} {value : V}
    (h : table.lookup key = none) : size (table.insert key value) = table.size + 1 := by
  rw [size, AList.entries_insert_of_notMem (AList.lookup_eq_none.mp h)]
  rfl

/-- Removing a stored key drops one entry. -/
theorem size_erase_of_some {table : Table K V} {key : K} {value : V}
    (h : table.lookup key = some value) : size (table.erase key) + 1 = table.size := by
  have hmem : key ∈ table.keys := AList.mem_keys.mp (AList.lookup_isSome.mp (by simp [h]))
  rw [size_eq_length_keys, size_eq_length_keys, AList.keys_erase, List.length_erase_of_mem hmem]
  have hpos : 0 < table.keys.length := List.length_pos_of_mem hmem
  omega

/-- A map without keys is empty. -/
theorem size_eq_zero {table : Table K V} (h : ∀ key, table.lookup key = none) : table.size = 0 := by
  rw [size_eq_length_keys, List.length_eq_zero_iff, List.eq_nil_iff_forall_not_mem]
  intro key hmem
  exact AList.lookup_eq_none.mp (h key) hmem

/-- Replacing a stored value keeps the number of entries. -/
theorem size_insert_of_some {table : Table K V} {key : K} {value old : V}
    (h : table.lookup key = some old) : size (table.insert key value) = table.size := by
  have herase := size_erase_of_some h
  rw [size, AList.entries_insert, List.length_cons]
  exact herase

/-- A lookup after an insertion sees the new value at its key and the old table elsewhere. -/
theorem lookup_insert_eq (table : Table K V) (key other : K) (value : V) :
    (table.insert key value).lookup other =
      if other = key then some value else table.lookup other := by
  by_cases h : other = key
  · subst h
    simp
  · simp [h]

/-- A lookup after a removal sees nothing at its key and the old table elsewhere. -/
theorem lookup_erase_eq (table : Table K V) (key other : K) :
    (table.erase key).lookup other = if other = key then none else table.lookup other := by
  by_cases h : other = key
  · subst h
    simp
  · simp [h]

/-- What is found after a removal was there before, under another key. -/
theorem lookup_erase_eq_some {table : Table K V} {key other : K} {value : V}
    (h : (table.erase key).lookup other = some value) :
    other ≠ key ∧ table.lookup other = some value := by
  rw [lookup_erase_eq] at h
  split at h
  · cases h
  · rename_i hother
    exact ⟨hother, h⟩

end Table

end Common
