import DigRelay.Common.TaskPool
import Mathlib.Algebra.Ring.Nat

/-!
# Admission by a check and a later increment

Tasks enter a counted region in two steps: a task that finds the counter below a limit has passed
its check, and only a later step counts it. Leaving counts it out again. The counter is a machine
word. Since other tasks may pass their checks in between, the limit is kept when every passing
check leaves room for the tasks that have passed theirs and are not yet counted.
-/

namespace Common

/-- Where a task stands: not counted, past its check, or counted. -/
inductive Stage
  | outside
  | checked
  | inside
  deriving DecidableEq

/-- The counter and the stage of every task. -/
structure Admission where
  counter : UInt64
  stages : List Stage

namespace Admission

/-- The number of tasks at a stage. -/
def tasksAt (stage : Stage) (a : Admission) : ℕ :=
  poolTotal (fun s => if s = stage then 1 else 0) a.stages

/-- The moves of an admission in which a check passes only with room left beside the tasks that
are not counted yet. -/
inductive Move (limit : ℕ) (a : Admission) : Admission → Prop
  | quiet : Move limit a a
  | arrived : Move limit a { a with stages := a.stages ++ [.outside] }
  | checked {i : ℕ} (h : a.stages[i]? = some .outside)
      (hroom : a.counter.toNat + a.tasksAt .checked < limit) :
      Move limit a { a with stages := a.stages.set i .checked }
  | entered {i : ℕ} (h : a.stages[i]? = some .checked) :
      Move limit a { counter := a.counter + 1, stages := a.stages.set i .inside }
  | left {i : ℕ} (h : a.stages[i]? = some .inside) :
      Move limit a { counter := a.counter - 1, stages := a.stages.set i .outside }

/-- The counter is exact, and the counted tasks leave room for those past their check. -/
def Reserved (limit : ℕ) (a : Admission) : Prop :=
  a.counter.toNat = a.tasksAt .inside ∧ a.tasksAt .inside + a.tasksAt .checked ≤ limit

/-- Moving one task between stages moves the number of tasks at each stage by that task. -/
theorem tasksAt_set {a : Admission} {i : ℕ} {old : Stage} (h : a.stages[i]? = some old)
    (counter : UInt64) (new stage : Stage) :
    tasksAt stage { counter, stages := a.stages.set i new } + (if old = stage then 1 else 0) =
      a.tasksAt stage + if new = stage then 1 else 0 :=
  poolTotal_set (fun s => if s = stage then 1 else 0) a.stages i old new h

/-- A task at a stage is counted there. -/
theorem one_le_tasksAt {a : Admission} {i : ℕ} {stage : Stage} (h : a.stages[i]? = some stage) :
    1 ≤ a.tasksAt stage := by
  have hle := le_poolTotal (fun s => if s = stage then 1 else 0) a.stages (List.mem_of_getElem? h)
  simpa [tasksAt] using hle

/-- Every move keeps the counter exact and the room reserved. -/
theorem Move.reserved {limit : ℕ} {a a' : Admission} (hlimit : limit < 2 ^ 64)
    (h : Move limit a a') (hreserved : a.Reserved limit) : a'.Reserved limit := by
  obtain ⟨hcounter, hroom⟩ := hreserved
  cases h with
  | quiet => exact ⟨hcounter, hroom⟩
  | arrived => simpa [Reserved, tasksAt] using And.intro hcounter hroom
  | checked hold hbelow =>
    have hinside := tasksAt_set hold a.counter .checked .inside
    have hchecked := tasksAt_set hold a.counter .checked .checked
    simp only [reduceCtorEq, if_false, if_true] at hinside hchecked
    refine ⟨?_, ?_⟩
    · change a.counter.toNat = _
      omega
    · omega
  | entered hold =>
    have hinside := tasksAt_set hold (a.counter + 1) .inside .inside
    have hchecked := tasksAt_set hold (a.counter + 1) .inside .checked
    have hone := one_le_tasksAt hold
    simp only [reduceCtorEq, if_false, if_true] at hinside hchecked
    refine ⟨?_, ?_⟩
    · change (a.counter + 1).toNat = _
      rw [UInt64.toNat_add, UInt64.toNat_one]
      omega
    · omega
  | left hold =>
    have hinside := tasksAt_set hold (a.counter - 1) .outside .inside
    have hchecked := tasksAt_set hold (a.counter - 1) .outside .checked
    have hone := one_le_tasksAt hold
    simp only [reduceCtorEq, if_false, if_true] at hinside hchecked
    refine ⟨?_, ?_⟩
    · change (a.counter - 1).toNat = _
      have hle : (1 : UInt64) ≤ a.counter := by
        rw [UInt64.le_iff_toNat_le, UInt64.toNat_one]
        omega
      rw [UInt64.toNat_sub_of_le _ _ hle, UInt64.toNat_one]
      omega
    · omega

/-- The counter stays the number of counted tasks, modulo the machine word, however many pass. -/
theorem Move.counter_eq {limit : ℕ} {a a' : Admission} (h : Move limit a a')
    (hcounter : a.counter = UInt64.ofNat (a.tasksAt .inside)) :
    a'.counter = UInt64.ofNat (a'.tasksAt .inside) := by
  cases h with
  | quiet => exact hcounter
  | arrived => simpa [tasksAt] using hcounter
  | checked hold =>
    have hinside := tasksAt_set hold a.counter .checked .inside
    simp only [reduceCtorEq, if_false, Nat.add_zero] at hinside
    rw [hinside]
    exact hcounter
  | entered hold =>
    have hinside := tasksAt_set hold (a.counter + 1) .inside .inside
    simp only [reduceCtorEq, if_false, if_true, Nat.add_zero] at hinside
    rw [hinside, UInt64.ofNat_add, ← hcounter]
    rfl
  | left hold =>
    have hinside := tasksAt_set hold (a.counter - 1) .outside .inside
    simp only [reduceCtorEq, if_false, if_true, Nat.add_zero] at hinside
    rw [hcounter, ← hinside, UInt64.ofNat_add]
    exact UInt64.add_sub_cancel _ _

end Admission

end Common
