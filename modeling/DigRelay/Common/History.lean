import DigRelay.Common.Transition
import Mathlib.Data.List.Induction

/-!
# Histories with resets

A store that events add to and that some events empty holds what was added since the last of
them. When every added item is new in that time, there are at most as many items as there are
different ones to choose from.
-/

namespace Common

variable {E M B : Type*}

/-- The events since the last reset, latest first. -/
def since (isReset : E → Bool) (history : List E) : List E :=
  history.reverse.takeWhile fun event => !isReset event

/-- A further event begins anew or joins what came since the last reset. -/
theorem since_append_singleton (isReset : E → Bool) (history : List E) (event : E) :
    since isReset (history ++ [event]) =
      if isReset event then [] else event :: since isReset history := by
  unfold since
  rw [List.reverse_append, List.reverse_singleton, List.singleton_append, List.takeWhile_cons]
  cases isReset event <;> rfl

/-- What came since the last reset is part of the history. -/
theorem mem_of_mem_since {isReset : E → Bool} {history : List E} {event : E}
    (h : event ∈ since isReset history) : event ∈ history :=
  List.mem_reverse.mp ((List.takeWhile_sublist _).subset h)

/-- Every picked item looks different from all that were picked since the last reset. -/
def Fresh (isReset : E → Bool) (pick : E → Option M) (view : M → B) (history : List E) : Prop :=
  ∀ earlier event later, history = earlier ++ event :: later → ∀ item, pick event = some item →
    ∀ old ∈ (since isReset earlier).filterMap pick, view old ≠ view item

/-- Fresh items picked since the last reset are pairwise different. -/
theorem Fresh.nodup {isReset : E → Bool} {pick : E → Option M} {view : M → B} {history : List E}
    (h : Fresh isReset pick view history) :
    (((since isReset history).filterMap pick).map view).Nodup := by
  induction history using List.reverseRecOn with
  | nil => simp [since]
  | append_singleton earlier event ih =>
    have hearlier : Fresh isReset pick view earlier := fun before e after hsplit =>
      h before e (after ++ [event]) (by rw [hsplit, List.append_assoc, List.cons_append])
    rw [since_append_singleton]
    split
    · simp
    · rw [List.filterMap_cons]
      cases hpick : pick event with
      | none => exact ih hearlier
      | some item =>
        refine List.nodup_cons.mpr ⟨fun hmem => ?_, ih hearlier⟩
        obtain ⟨old, hold, hview⟩ := List.mem_map.mp hmem
        exact h earlier event [] rfl item hpick old hold hview

/-- Check every event against the history before it. -/
def allSplits (check : List E → E → Bool) (history : List E) : Bool :=
  (List.range history.length).all fun i => history[i]?.all (check (history.take i))

/-- What passes the check passes it at every split of the history. -/
theorem allSplits_sound {check : List E → E → Bool} {history : List E}
    (h : allSplits check history = true) (earlier : List E) (event : E) (later : List E)
    (hsplit : history = earlier ++ event :: later) : check earlier event = true := by
  subst hsplit
  have hat := List.all_eq_true.mp h earlier.length (List.mem_range.mpr (by simp))
  simpa using hat

variable {S L : Type*} {next : S → L → S → Prop} {start s : S} {trace : List (S × L × S)}

/-- A store that each transition extends by what it picks, unless it empties the store, holds as
many items as were picked since it was last emptied. -/
theorem Execution.size_eq_since (isReset : S × L × S → Bool) (pick : S × L × S → Option M)
    (size : S → ℕ) (hstart : size start = 0)
    (hstep : ∀ s label s', next s label s' →
      size s' = if isReset (s, label, s') then 0
        else size s + (pick (s, label, s')).toList.length)
    (h : Execution next start trace s) :
    size s = ((since isReset trace).filterMap pick).length := by
  induction h with
  | nil => exact hstart
  | @snoc trace s label s' hrun hnext ih =>
    rw [hstep s label s' hnext, since_append_singleton]
    split
    · rfl
    · rw [ih, List.filterMap_cons]
      cases pick (s, label, s') <;> rfl

end Common
