import Mathlib.Algebra.BigOperators.Group.Finset.Basic
import Mathlib.Algebra.BigOperators.Intervals
import Mathlib.Algebra.Order.BigOperators.Group.Finset

/-!
# Pools of tasks

Tasks are numbered by their position in a list; a task is updated in place and new tasks
are appended. A quantity held by the tasks is totalled over the pool, and the total moves
exactly by what the updated task gains or loses.
-/

namespace Common

variable {A : Type*}

/-- A view of the tasks does not see an update that it does not distinguish. -/
theorem map_set_of_eq {B : Type*} (view : A → B) {pool : List A} {i : ℕ} {old task : A}
    (h : pool[i]? = some old) (hview : view task = view old) :
    (pool.set i task).map view = pool.map view := by
  apply List.ext_getElem?
  intro j
  rw [List.map_set, hview, List.getElem?_set]
  split
  · rename_i hj
    subst hj
    obtain ⟨hlt, rfl⟩ := List.getElem?_eq_some_iff.mp h
    simp [hlt]
  · rfl

/-- Pools that look alike in a view have tasks at the same numbers, alike in that view. -/
theorem exists_getElem?_of_map_eq {B : Type*} {view : A → B} {pool pool' : List A} {i : ℕ} {task : A}
    (h : pool'.map view = pool.map view) (htask : pool[i]? = some task) :
    ∃ task', pool'[i]? = some task' ∧ view task' = view task := by
  have hview : (pool'.map view)[i]? = some (view task) := by
    rw [h, List.getElem?_map, htask, Option.map_some]
  rw [List.getElem?_map] at hview
  exact Option.map_eq_some_iff.mp hview

/-- What the tasks of a pool have, given each task's number, counted from an offset. -/
def poolItems {B : Type*} (item : ℕ → A → Multiset B) : ℕ → List A → Multiset B
  | _, [] => 0
  | offset, task :: rest => item offset task + poolItems item (offset + 1) rest

/-- A task appended to the pool adds what it has. -/
theorem poolItems_append_singleton {B : Type*} (item : ℕ → A → Multiset B) (offset : ℕ)
    (pool : List A) (task : A) :
    poolItems item offset (pool ++ [task]) =
      poolItems item offset pool + item (offset + pool.length) task := by
  induction pool generalizing offset with
  | nil => simp [poolItems]
  | cons head rest ih =>
    simp only [List.cons_append, poolItems, ih, List.length_cons, add_assoc, add_comm 1]

/-- Updating one task trades what it had for what it has. -/
theorem poolItems_set {B : Type*} (item : ℕ → A → Multiset B) (offset : ℕ) (pool : List A) (i : ℕ)
    (old task : A) (h : pool[i]? = some old) :
    poolItems item offset (pool.set i task) + item (offset + i) old =
      poolItems item offset pool + item (offset + i) task := by
  induction pool generalizing i offset with
  | nil => simp at h
  | cons head rest ih =>
    cases i with
    | zero =>
      simp only [List.getElem?_cons_zero, Option.some.injEq] at h
      subst h
      simp only [List.set_cons_zero, poolItems, Nat.add_zero]
      rw [add_right_comm, add_comm (item offset task), add_right_comm]
    | succ i =>
      simp only [List.getElem?_cons_succ] at h
      have hrest := ih (offset + 1) i h
      rw [Nat.add_right_comm] at hrest
      simp only [List.set_cons_succ, poolItems, add_assoc] at hrest ⊢
      rw [hrest]

/-- Where the number of a task does not matter, the items are those of all tasks together. -/
theorem poolItems_eq_sum {B : Type*} (item : A → Multiset B) (offset : ℕ) (pool : List A) :
    poolItems (fun _ => item) offset pool = (pool.map item).sum := by
  induction pool generalizing offset with
  | nil => rfl
  | cons head rest ih => rw [poolItems, ih, List.map_cons, List.sum_cons]

/-- An item of the pool is an item of one of its tasks. -/
theorem mem_poolItems {B : Type*} {item : ℕ → A → Multiset B} {offset : ℕ} {pool : List A} {b : B} :
    b ∈ poolItems item offset pool ↔
      ∃ i task, pool[i]? = some task ∧ b ∈ item (offset + i) task := by
  induction pool generalizing offset with
  | nil => simp [poolItems]
  | cons head rest ih =>
    rw [poolItems, Multiset.mem_add, ih]
    constructor
    · rintro (hhead | ⟨i, task, htask, hmem⟩)
      · exact ⟨0, head, rfl, hhead⟩
      · exact ⟨i + 1, task, htask, by rwa [← Nat.add_assoc, Nat.add_right_comm]⟩
    · rintro ⟨i, task, htask, hmem⟩
      cases i with
      | zero =>
        obtain rfl := Option.some.inj htask
        exact .inl hmem
      | succ i => exact .inr ⟨i, task, htask, by rwa [Nat.add_right_comm, Nat.add_assoc]⟩

/-- The total over a pool of what each task holds. -/
def poolTotal (weight : A → ℕ) (pool : List A) : ℕ := (pool.map weight).sum

/-- A task appended to the pool adds what it holds. -/
@[simp] theorem poolTotal_append_singleton (weight : A → ℕ) (pool : List A) (task : A) :
    poolTotal weight (pool ++ [task]) = poolTotal weight pool + weight task := by
  simp [poolTotal]

/-- Updating one task moves the total by that task's change alone. -/
theorem poolTotal_set (weight : A → ℕ) (pool : List A) (i : ℕ) (old task : A)
    (h : pool[i]? = some old) :
    poolTotal weight (pool.set i task) + weight old = poolTotal weight pool + weight task := by
  induction pool generalizing i with
  | nil => simp at h
  | cons head rest ih =>
    cases i with
    | zero =>
      simp only [List.getElem?_cons_zero, Option.some.injEq] at h
      subst h
      simp only [poolTotal, List.set_cons_zero, List.map_cons, List.sum_cons]
      omega
    | succ i =>
      simp only [List.getElem?_cons_succ] at h
      have hrest := ih i h
      simp only [poolTotal, List.set_cons_succ, List.map_cons, List.sum_cons] at hrest ⊢
      omega

/-- If a change gives a task at most so much more to hold, changing one task raises the total by at most
that. -/
theorem poolTotal_modify_le (weight : A → ℕ) (change : A → A) (extra : ℕ)
    (hchange : ∀ task, weight (change task) ≤ weight task + extra) (pool : List A) (i : ℕ) :
    poolTotal weight (pool.modify i change) ≤ poolTotal weight pool + extra := by
  cases htask : pool[i]? with
  | none =>
    rw [List.modify_eq_self (List.getElem?_eq_none_iff.mp htask)]
    exact Nat.le_add_right _ _
  | some task =>
    rw [List.modify_eq_set_getElem?, htask]
    have htotal := poolTotal_set weight pool i task (change task) htask
    have hle := hchange task
    change poolTotal weight (pool.set i (change task)) ≤ _
    omega

/-- No task holds more than the total. -/
theorem le_poolTotal (weight : A → ℕ) (pool : List A) {task : A} (h : task ∈ pool) :
    weight task ≤ poolTotal weight pool :=
  List.single_le_sum (fun _ _ => Nat.zero_le _) _ (List.mem_map_of_mem h)

/-- The total as a sum over task numbers. -/
theorem poolTotal_eq_sum_range (weight : A → ℕ) (pool : List A) :
    poolTotal weight pool = ∑ i ∈ Finset.range pool.length, (pool[i]?.map weight).getD 0 := by
  induction pool with
  | nil => rfl
  | cons head rest ih =>
    rw [List.length_cons, Finset.sum_range_succ']
    simp only [List.getElem?_cons_succ, List.getElem?_cons_zero, Option.map_some, Option.getD_some]
    rw [← ih]
    simp only [poolTotal, List.map_cons, List.sum_cons]
    omega

/-- Distinct tasks that each hold something are at most as many as the total. -/
theorem length_le_poolTotal (weight : A → ℕ) (pool : List A) (indices : List ℕ)
    (hnodup : indices.Nodup)
    (hheld : ∀ i ∈ indices, ∃ task, pool[i]? = some task ∧ 1 ≤ weight task) :
    indices.length ≤ poolTotal weight pool := by
  let held (i : ℕ) : ℕ := (pool[i]?.map weight).getD 0
  have hsubset : indices.toFinset ⊆ Finset.range pool.length := by
    intro i hi
    obtain ⟨task, htask, _⟩ := hheld i (List.mem_toFinset.mp hi)
    exact Finset.mem_range.mpr (List.getElem?_eq_some_iff.mp htask).1
  calc
    indices.length = indices.toFinset.card := (List.toFinset_card_of_nodup hnodup).symm
    _ = ∑ _i ∈ indices.toFinset, 1 := Finset.card_eq_sum_ones _
    _ ≤ ∑ i ∈ indices.toFinset, held i := by
      apply Finset.sum_le_sum
      intro i hi
      obtain ⟨task, htask, hweight⟩ := hheld i (List.mem_toFinset.mp hi)
      simpa [held, htask] using hweight
    _ ≤ ∑ i ∈ Finset.range pool.length, held i :=
      Finset.sum_le_sum_of_subset hsubset
    _ = poolTotal weight pool := (poolTotal_eq_sum_range weight pool).symm

end Common
