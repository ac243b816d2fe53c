import Mathlib.Logic.Basic
import Mathlib.Data.List.Basic

/-!
# Labelled transitions, executions and invariants

An execution records every transition it takes, so that a property of single transitions
can be asked of whole runs. Interleaving is expressed by the label: each transition names
the task that moves, and an execution may choose labels in any order.

Two rules carry all safety arguments. An invariant that holds initially and survives each
transition holds in every reachable state. When the preservation argument needs a side
condition on the state before a transition, the invariant holds along every execution
whose transitions all meet that condition.
-/

namespace Common

variable {S L : Type*}

/-- The transitions taken from a start state, in order, and the state they lead to. -/
inductive Execution (next : S → L → S → Prop) (start : S) : List (S × L × S) → S → Prop
  | nil : Execution next start [] start
  | snoc {trace : List (S × L × S)} {s : S} {label : L} {s' : S} :
      Execution next start trace s → next s label s' →
        Execution next start (trace ++ [(s, label, s')]) s'

/-- Some execution leads to the state. -/
def Reachable (next : S → L → S → Prop) (start s : S) : Prop :=
  ∃ trace, Execution next start trace s

variable {next : S → L → S → Prop} {start s s' : S} {label : L} {trace : List (S × L × S)}

/-- The start state is reachable. -/
theorem Reachable.refl : Reachable next start start := ⟨[], .nil⟩

/-- Reachability extends along a transition. -/
theorem Reachable.step (h : Reachable next start s) (hnext : next s label s') :
    Reachable next start s' := by
  obtain ⟨trace, htrace⟩ := h
  exact ⟨_, .snoc htrace hnext⟩

/-- An initial property that every transition from a reachable state preserves holds in every
reachable state. -/
theorem Reachable.invariant (Inv : S → Prop) (hstart : Inv start)
    (hstep : ∀ s label s', Reachable next start s → Inv s → next s label s' → Inv s')
    (h : Reachable next start s) : Inv s := by
  obtain ⟨trace, htrace⟩ := h
  induction htrace with
  | nil => exact hstart
  | snoc hrun hnext ih => exact hstep _ _ _ ⟨_, hrun⟩ ih hnext

/-- An execution goes on where another has ended. -/
theorem Execution.append {later : List (S × L × S)} (h : Execution next start trace s)
    (hlater : Execution next s later s') : Execution next start (trace ++ later) s' := by
  induction hlater with
  | nil => rwa [List.append_nil]
  | snoc hmore hnext ih =>
    rw [← List.append_assoc]
    exact ih.snoc hnext

/-- An execution of some of the transitions is an execution. -/
theorem Execution.mono {fewer : S → L → S → Prop} (hsub : ∀ s label s', fewer s label s' → next s label s')
    (h : Execution fewer start trace s) : Execution next start trace s := by
  induction h with
  | nil => exact .nil
  | snoc _ hlast ih => exact ih.snoc (hsub _ _ _ hlast)

/-- Where transitions cannot go on forever, some execution leads to a state without any. -/
theorem exists_execution_to_rest (hwf : WellFounded fun s' s => ∃ label, next s label s') (s : S) :
    ∃ trace s', Execution next s trace s' ∧ ∀ label s'', ¬next s' label s'' := by
  induction s using hwf.induction with
  | _ s ih =>
    by_cases hgoes : ∃ label middle, next s label middle
    · obtain ⟨label, middle, hnext⟩ := hgoes
      obtain ⟨trace, s', hrun, hrest⟩ := ih middle ⟨label, hnext⟩
      exact ⟨_, s', (Execution.nil.snoc hnext).append hrun, hrest⟩
    · refine ⟨[], s, .nil, fun label s' hnext => hgoes ⟨label, s', hnext⟩⟩

/-- What is taken in order along an execution, followed by what is still pending, is what was
pending at the start followed by what was added. -/
theorem Execution.balance {M : Type*} (taken added : S × L × S → List M) (pending : S → List M)
    (hstep : ∀ s label s', next s label s' →
      taken (s, label, s') ++ pending s' = pending s ++ added (s, label, s'))
    (h : Execution next start trace s) :
    trace.flatMap taken ++ pending s = pending start ++ trace.flatMap added := by
  induction h with
  | nil => simp
  | @snoc trace s label s' hrun hnext ih =>
    calc
      (trace ++ [(s, label, s')]).flatMap taken ++ pending s' =
          trace.flatMap taken ++ (taken (s, label, s') ++ pending s') := by simp
      _ = trace.flatMap taken ++ pending s ++ added (s, label, s') := by
        rw [hstep s label s' hnext, List.append_assoc]
      _ = pending start ++ (trace ++ [(s, label, s')]).flatMap added := by
        rw [ih]
        simp

/-- If each transition takes in order from what is pending and what it adds, possibly dropping some of
it, so does an execution. -/
theorem Execution.sublist_balance {M : Type*} (taken added : S × L × S → List M) (pending : S → List M)
    (hstep : ∀ s label s', Reachable next start s → next s label s' →
      (taken (s, label, s') ++ pending s').Sublist (pending s ++ added (s, label, s')))
    (h : Execution next start trace s) :
    (trace.flatMap taken ++ pending s).Sublist (pending start ++ trace.flatMap added) := by
  induction h with
  | nil => simp
  | @snoc trace s label s' hrun hnext ih =>
    have hlast := (hstep s label s' ⟨trace, hrun⟩ hnext).append_left (trace.flatMap taken)
    rw [← List.append_assoc (trace.flatMap taken) (pending s)] at hlast
    simpa using hlast.trans (ih.append_right (added (s, label, s')))

/-- If each transition takes no more than the potential it uses up, and the price if it is charged for,
then an execution takes no more than the potential at its start and the price of every charge. -/
theorem Execution.length_flatMap_le {M : Type*} (taken : S × L × S → List M) (charged : S × L × S → Bool)
    (price : ℕ) (potential : S → ℕ)
    (hstep : ∀ s label s', Reachable next start s → next s label s' →
      (taken (s, label, s')).length + potential s' ≤
        potential s + if charged (s, label, s') then price else 0)
    (h : Execution next start trace s) :
    (trace.flatMap taken).length + potential s ≤ potential start + price * trace.countP charged := by
  induction h with
  | nil => simp
  | @snoc trace s label s' hrun hnext ih =>
    have hlast := hstep s label s' ⟨trace, hrun⟩ hnext
    rw [List.flatMap_append, List.length_append, List.flatMap_singleton, List.countP_append,
      List.countP_singleton, Nat.mul_add]
    split at hlast
    · rename_i hcharged
      rw [if_pos hcharged, Nat.mul_one]
      omega
    · rename_i hcharged
      rw [if_neg hcharged, Nat.mul_zero]
      omega

/-- Before each recorded transition stands an execution to the state it leaves. -/
theorem Execution.before {t : S × L × S} {earlier later : List (S × L × S)}
    (h : Execution next start (earlier ++ t :: later) s) :
    Execution next start earlier t.1 ∧ next t.1 t.2.1 t.2.2 := by
  generalize htrace : earlier ++ t :: later = trace at h
  induction h generalizing later with
  | nil => simp at htrace
  | snoc hrun hnext ih =>
    rcases later.eq_nil_or_concat with rfl | ⟨middle, last, rfl⟩
    · obtain ⟨rfl, ht⟩ := List.append_inj' htrace rfl
      obtain rfl := List.singleton_inj.mp ht
      exact ⟨hrun, hnext⟩
    · rw [List.concat_eq_append, ← List.cons_append, ← List.append_assoc] at htrace
      exact ih (List.append_inj' htrace rfl).1

/-- Every recorded transition leaves a reachable state and is a genuine transition. -/
theorem Execution.mem_trace (h : Execution next start trace s) {t : S × L × S} (ht : t ∈ trace) :
    Reachable next start t.1 ∧ next t.1 t.2.1 t.2.2 := by
  obtain ⟨earlier, later, rfl⟩ := List.append_of_mem ht
  obtain ⟨hrun, hnext⟩ := h.before
  exact ⟨⟨earlier, hrun⟩, hnext⟩

/-- An initial property preserved by the transitions that meet a condition holds at the end of
every execution whose transitions all meet it, and before each of them. -/
theorem Execution.invariant_of_guard (guard : S → L → Prop) (Inv : S → Prop)
    (h : Execution next start trace s) (hguard : ∀ t ∈ trace, guard t.1 t.2.1) (hstart : Inv start)
    (hstep : ∀ s label s', Reachable next start s → guard s label → Inv s → next s label s' →
      Inv s') :
    Inv s ∧ ∀ t ∈ trace, Inv t.1 := by
  induction h with
  | nil => exact ⟨hstart, by simp⟩
  | snoc hrun hnext ih =>
    obtain ⟨hinv, hbefore⟩ := ih fun t ht => hguard t (List.mem_append_left _ ht)
    have hmet := hguard _ (List.mem_append_right _ (List.mem_singleton_self _))
    refine ⟨hstep _ _ _ ⟨_, hrun⟩ hmet hinv hnext, fun t ht => ?_⟩
    rcases List.mem_append.mp ht with hold | hnew
    · exact hbefore t hold
    · rw [List.mem_singleton.mp hnew]
      exact hinv

/-- Run a partial step function along a list of labels. -/
def runLabels (step : S → L → Option S) : S → List L → Option S
  | s, [] => some s
  | s, label :: rest => (step s label).bind fun s' => runLabels step s' rest

/-- A step function restricted to the labels that pass a check. -/
def checkedStep (check : S → L → Bool) (step : S → L → Option S) : S → L → Option S :=
  fun s label => if check s label then step s label else none

/-- A run of the checked step function is an execution of any relation containing its steps, and
all its transitions pass the check. -/
theorem Execution.extend_runLabels {step : S → L → Option S} {check : S → L → Bool}
    (hstep : ∀ s label s', step s label = some s' → next s label s') (labels : List L)
    (h : Execution next start trace s) (hcheck : ∀ t ∈ trace, check t.1 t.2.1 = true)
    (hrun : runLabels (checkedStep check step) s labels = some s') :
    ∃ longer, Execution next start longer s' ∧ ∀ t ∈ longer, check t.1 t.2.1 = true := by
  induction labels generalizing s trace with
  | nil =>
    obtain rfl : s = s' := Option.some.inj hrun
    exact ⟨trace, h, hcheck⟩
  | cons label rest ih =>
    obtain ⟨middle, hmiddle, hrest⟩ := Option.bind_eq_some_iff.mp hrun
    unfold checkedStep at hmiddle
    split at hmiddle
    · rename_i hpass
      refine ih (.snoc h (hstep s label middle hmiddle)) (fun t ht => ?_) hrest
      rcases List.mem_append.mp ht with hold | hnew
      · exact hcheck t hold
      · rw [List.mem_singleton.mp hnew]
        exact hpass
    · cases hmiddle

/-- Whatever the checked step function computes along a list of labels, and one further step, is
an execution whose transitions pass the check. -/
theorem exists_checked_execution {step : S → L → Option S} {check : S → L → Bool}
    (hstep : ∀ s label s', step s label = some s' → next s label s') (labels : List L) (label : L)
    (P : S → S → Bool)
    (h : ((runLabels (checkedStep check step) start labels).any fun s =>
      (checkedStep check step s label).any (P s)) = true) :
    ∃ trace s s', Execution next start (trace ++ [(s, label, s')]) s' ∧
      (∀ t ∈ trace ++ [(s, label, s')], check t.1 t.2.1 = true) ∧ P s s' = true := by
  obtain ⟨s, hs, hlast⟩ := (Option.any_eq_true _ _).mp h
  obtain ⟨s', hs', hP⟩ := (Option.any_eq_true _ _).mp hlast
  obtain ⟨trace, hrun, hcheck⟩ := Execution.extend_runLabels hstep labels .nil (by simp) hs
  unfold checkedStep at hs'
  split at hs'
  · rename_i hpass
    refine ⟨trace, s, s', .snoc hrun (hstep s label s' hs'), fun t ht => ?_, hP⟩
    rcases List.mem_append.mp ht with hold | hnew
    · exact hcheck t hold
    · rw [List.mem_singleton.mp hnew]
      exact hpass
  · cases hs'

/-- Run a partial step function along a list of labels, recording the transitions. -/
def traceLabels (step : S → L → Option S) : S → List L → Option (List (S × L × S) × S)
  | s, [] => some ([], s)
  | s, label :: rest => (step s label).bind fun s' =>
    (traceLabels step s' rest).map fun (trace, last) => ((s, label, s') :: trace, last)

/-- A recorded run of a step function extends executions of any relation containing its steps. -/
theorem Execution.append_traceLabels {step : S → L → Option S} {more : List (S × L × S)}
    (hstep : ∀ s label s', step s label = some s' → next s label s') (labels : List L)
    (h : Execution next start trace s) (hrun : traceLabels step s labels = some (more, s')) :
    Execution next start (trace ++ more) s' := by
  induction labels generalizing s trace more with
  | nil =>
    obtain ⟨rfl, rfl⟩ := Prod.mk.injEq _ _ _ _ ▸ Option.some.inj hrun
    rwa [List.append_nil]
  | cons label rest ih =>
    obtain ⟨middle, hmiddle, hrest⟩ := Option.bind_eq_some_iff.mp hrun
    obtain ⟨⟨later, last⟩, hlater, heq⟩ := Option.map_eq_some_iff.mp hrest
    obtain ⟨rfl, rfl⟩ := Prod.mk.injEq _ _ _ _ ▸ heq
    have hextended := ih (.snoc h (hstep s label middle hmiddle)) hlater
    rwa [List.append_assoc, List.singleton_append] at hextended

/-- A step function is followed along a sequence of labels, up to the first state in which it is
done. -/
inductive RunsUntil (step : S → L → Option S) (done : S → Prop) : (ℕ → L) → S → S → Prop
  | done {labels : ℕ → L} {s : S} (h : done s) : RunsUntil step done labels s s
  | step {labels : ℕ → L} {s middle s' : S} (hgoes : ¬done s)
      (hstep : step s (labels 0) = some middle)
      (h : RunsUntil step done (fun n => labels (n + 1)) middle s') :
      RunsUntil step done labels s s'

section

variable {step : S → L → Option S} {done : S → Prop} {labels : ℕ → L}

/-- A state that is done is where the run ends. -/
theorem runsUntil_iff_of_done (h : done s) : RunsUntil step done labels s s' ↔ s' = s := by
  constructor
  · intro hrun
    cases hrun with
    | done _ => rfl
    | step hgoes _ _ => exact absurd h hgoes
  · rintro rfl
    exact .done h

/-- A state that is not done takes the step of the next label. -/
theorem runsUntil_iff_of_step {middle : S} (hgoes : ¬done s) (hstep : step s (labels 0) = some middle) :
    RunsUntil step done labels s s' ↔
      RunsUntil step done (fun n => labels (n + 1)) middle s' := by
  constructor
  · intro hrun
    cases hrun with
    | done h => exact absurd h hgoes
    | step _ hother hrest =>
      obtain rfl := Option.some.inj (hstep.symm.trans hother)
      exact hrest
  · exact .step hgoes hstep

end

end Common
