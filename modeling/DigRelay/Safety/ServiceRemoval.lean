import DigRelay.Safety.InstalledConfig
import DigRelay.Service

/-!
# Removing and replacing a registration

An uninstall reports success only if the service is gone from some scope and no scope is left open: each
was deleted from, or said to hold nothing, or was swept without having a manager. A scope that nobody
asked for is left alone unless a registration is seen there.

An install that fails does not take back the sweep of the other scope. So the registration there is lost
if the sweep removed it before the new one was refused, and in no other way: what is checked before the
sweep leaves everything as it was. An install that succeeds leaves a definition at its scope from which
the service reads its configuration.
-/

namespace DigRelay

section Attempts

variable (platform : Platform)

/-- The service was deleted from the scope of the attempt. -/
def Deleted (attempt : ScopeEntry × ℕ) : Prop :=
  Call.delete true ∈ (removeAt platform attempt).2.calls

instance (attempt : ScopeEntry × ℕ) : Decidable (Deleted platform attempt) :=
  inferInstanceAs (Decidable (_ ∈ (removeAt platform attempt).2.calls))

/-- Looking for a registration at the scope found that there is none. -/
def ProbedAbsent (attempt : ScopeEntry × ℕ) : Prop :=
  ∃ backend, attempt.1.manager = .ok backend ∧ backend.probe.registration platform = .absent

/-- The scope was swept and has no manager. -/
def SweptUnreachable (attempt : ScopeEntry × ℕ) : Prop :=
  0 < attempt.2 ∧ ∃ e, attempt.1.manager = .error e

/-- The attempt leaves no registration that it knows of or cannot rule out. -/
def Resolved (attempt : ScopeEntry × ℕ) : Prop :=
  Deleted platform attempt ∨ ProbedAbsent platform attempt ∨ SweptUnreachable attempt

end Attempts

section Removal

/-- A registration is seen or it is not. -/
theorem isPresent_eq_false_iff (registration : Registration) :
    registration.isPresent = false ↔ registration ≠ .present := by
  cases registration <;> simp [Registration.isPresent]

variable {platform : Platform} {backend : Backend} {scope : ServiceScope} {mode : RemovalMode}
  {state : BackendState}

/-- A scope that is swept without a registration being seen is left as it is. -/
theorem removeRegistration_of_unseen
    (hunseen : mode = .swept ∧ (backend.probe.registration platform).isPresent = false) :
    removeRegistration platform backend scope mode state =
      ({ scope
         found := (backend.probe.registration platform).isPresent
         indeterminate := (backend.probe.registration platform).unknownReason.isSome
         error := (backend.probe.registration platform).unknownReason.map
          ("could not determine whether it is registered: " ++ ·) }, state) :=
  if_pos hunseen

/-- Otherwise the service is stopped and deleted, and the answer to that counts. -/
theorem removeRegistration_of_tried
    (htried : ¬(mode = .swept ∧ (backend.probe.registration platform).isPresent = false)) :
    ∃ error, removeRegistration platform backend scope mode state =
      ({ scope
         found := (backend.probe.registration platform).isPresent
         removed := succeeded backend.delete
         indeterminate := !succeeded backend.delete &&
          ((backend.probe.registration platform).unknownReason.isSome ||
            (backend.probe.registration platform).isPresent)
         error },
        (state.call (.stop (succeeded backend.stop))).call (.delete (succeeded backend.delete))) := by
  unfold removeRegistration
  dsimp only
  rw [if_neg htried]
  cases backend.delete with
  | ok _ => exact ⟨_, rfl⟩
  | error e => exact ⟨_, rfl⟩

end Removal

section Verdict

variable {platform : Platform} {attempt : ScopeEntry × ℕ}

/-- An attempt finds no manager, or sweeps a scope without seeing a registration, or stops and deletes the
service and goes by the answer. -/
theorem removeAt_cases (platform : Platform) (attempt : ScopeEntry × ℕ) :
    (∃ e, attempt.1.manager = .error e ∧ removeAt platform attempt =
        (ScopeRemoval.unreachable attempt.1.scope (removalMode attempt.2) e.message,
          { held := attempt.1.held })) ∨
      ∃ backend error, attempt.1.manager = .ok backend ∧
        (((backend.probe.registration platform).isPresent = false ∧ removeAt platform attempt =
            ({ scope := attempt.1.scope
               indeterminate := (backend.probe.registration platform).unknownReason.isSome
               error }, { held := attempt.1.held })) ∨
          removeAt platform attempt =
            ({ scope := attempt.1.scope
               found := (backend.probe.registration platform).isPresent
               removed := succeeded backend.delete
               indeterminate := !succeeded backend.delete &&
                ((backend.probe.registration platform).unknownReason.isSome ||
                  (backend.probe.registration platform).isPresent)
               error },
              { held := (Call.delete (succeeded backend.delete)).apply attempt.1.held
                calls := [.stop (succeeded backend.stop), .delete (succeeded backend.delete)] })) := by
  unfold removeAt
  cases attempt.1.manager with
  | error e => exact .inl ⟨e, rfl, rfl⟩
  | ok backend =>
    right
    by_cases hunseen : removalMode attempt.2 = .swept ∧
        (backend.probe.registration platform).isPresent = false
    · have heq := @removeRegistration_of_unseen platform backend attempt.1.scope _
        { held := attempt.1.held } hunseen
      rw [hunseen.2] at heq
      exact ⟨backend, _, rfl, .inl ⟨hunseen.2, heq⟩⟩
    · obtain ⟨error, heq⟩ := @removeRegistration_of_tried platform backend attempt.1.scope _
        { held := attempt.1.held } hunseen
      exact ⟨backend, error, rfl, .inr heq⟩

/-- An attempt reports a removal exactly when the service was deleted. -/
theorem removed_iff : (removeAt platform attempt).1.removed = true ↔ Deleted platform attempt := by
  unfold Deleted
  rcases removeAt_cases platform attempt with
    ⟨e, -, heq⟩ | ⟨backend, error, -, ⟨-, heq⟩ | heq⟩
  · simp [heq, ScopeRemoval.unreachable]
  · simp [heq]
  · simp [heq]

/-- A deleted registration is gone. -/
theorem held_of_deleted (h : Deleted platform attempt) : (removeAt platform attempt).2.held = none := by
  have hremoved := removed_iff.mpr h
  rcases removeAt_cases platform attempt with
    ⟨e, -, heq⟩ | ⟨backend, error, -, ⟨-, heq⟩ | heq⟩
  · simp [heq, ScopeRemoval.unreachable] at hremoved
  · simp [heq] at hremoved
  · rw [heq] at hremoved ⊢
    dsimp only at hremoved ⊢
    rw [hremoved]
    rfl

/-- An attempt leaves something open exactly when it is not resolved. -/
theorem isProblem_iff : (removeAt platform attempt).1.isProblem = true ↔ ¬Resolved platform attempt := by
  unfold Resolved
  rw [← removed_iff]
  rcases removeAt_cases platform attempt with
    ⟨e, hmanager, heq⟩ | ⟨backend, error, hmanager, ⟨hunseen, heq⟩ | heq⟩
  · simp [heq, hmanager, ProbedAbsent, SweptUnreachable, ScopeRemoval.isProblem,
      ScopeRemoval.unreachable, removalMode]
  · cases hprobe : backend.probe.registration platform with
    | present => simp [hprobe, Registration.isPresent] at hunseen
    | absent =>
      simp [heq, hmanager, hprobe, ProbedAbsent, ScopeRemoval.isProblem, Registration.unknownReason]
    | unknown reason =>
      simp [heq, hmanager, hprobe, ProbedAbsent, SweptUnreachable, ScopeRemoval.isProblem,
        Registration.unknownReason]
  · -- a successful deletion settles it, and a failed one does only if nothing was there
    cases hdelete : succeeded backend.delete with
    | true => simp [heq, hdelete, ScopeRemoval.isProblem]
    | false =>
      cases hprobe : backend.probe.registration platform <;>
        simp [heq, hdelete, hmanager, hprobe, ProbedAbsent, SweptUnreachable, ScopeRemoval.isProblem,
          Registration.isPresent, Registration.unknownReason]

/-- Nothing is called at a swept scope where no registration was seen. -/
theorem removeAt_of_unseen {backend : Backend} (hswept : 0 < attempt.2)
    (hmanager : attempt.1.manager = .ok backend)
    (hprobe : backend.probe.registration platform ≠ .present) :
    (removeAt platform attempt).2 = { held := attempt.1.held } := by
  have hunseen : removalMode attempt.2 = .swept ∧
      (backend.probe.registration platform).isPresent = false :=
    ⟨if_neg (by omega), (isPresent_eq_false_iff _).mpr hprobe⟩
  rw [removeAt, hmanager]
  dsimp only
  rw [removeRegistration_of_unseen hunseen]

/-- The verdict is a refusal if something is left open, otherwise that nothing was found or a success,
depending on whether something was removed. -/
theorem uninstallOutcome_cases (removals : List ScopeRemoval) :
    ((∃ r ∈ removals, r.isProblem = true) ∧
        ∃ e, uninstallOutcome removals = .error e ∧ e.kind = .permissionDenied) ∨
      ((∀ r ∈ removals, ¬r.isProblem = true) ∧ (∀ r ∈ removals, ¬r.removed = true) ∧
        ∃ e, uninstallOutcome removals = .error e ∧ e.kind = .notFound) ∨
      ((∀ r ∈ removals, ¬r.isProblem = true) ∧ (∃ r ∈ removals, r.removed = true) ∧
        ∃ outcome, uninstallOutcome removals = .ok outcome) := by
  unfold uninstallOutcome
  dsimp only
  split
  · rename_i hproblems
    left
    rw [ne_eq, List.map_eq_nil_iff] at hproblems
    obtain ⟨r, hr⟩ := List.exists_mem_of_ne_nil _ hproblems
    exact ⟨⟨r, List.mem_filter.mp hr⟩, _, rfl, rfl⟩
  · rename_i hproblems
    rw [not_not, List.map_eq_nil_iff, List.filter_eq_nil_iff] at hproblems
    right
    split
    · rename_i hremoved
      rw [List.map_eq_nil_iff, List.filter_eq_nil_iff] at hremoved
      exact .inl ⟨hproblems, hremoved, _, rfl, rfl⟩
    · rename_i hremoved
      rw [List.map_eq_nil_iff] at hremoved
      obtain ⟨r, hr⟩ := List.exists_mem_of_ne_nil _ hremoved
      exact .inr ⟨hproblems, ⟨r, List.mem_filter.mp hr⟩, _, rfl⟩

end Verdict

/-- The verdict in terms of what was done at each scope. -/
theorem uninstallFrom_cases (platform : Platform) (entries : List ScopeEntry) :
    ((∃ attempt ∈ entries.zipIdx, ¬Resolved platform attempt) ∧
        ∃ e, uninstallFrom platform entries = .error e ∧ e.kind = .permissionDenied) ∨
      ((∀ attempt ∈ entries.zipIdx, Resolved platform attempt) ∧
        (∀ attempt ∈ entries.zipIdx, ¬Deleted platform attempt) ∧
        ∃ e, uninstallFrom platform entries = .error e ∧ e.kind = .notFound) ∨
      ((∀ attempt ∈ entries.zipIdx, Resolved platform attempt) ∧
        (∃ attempt ∈ entries.zipIdx, Deleted platform attempt) ∧
        ∃ outcome, uninstallFrom platform entries = .ok outcome) := by
  have hexists (P : ScopeRemoval → Prop) :
      (∃ r ∈ entries.zipIdx.map fun attempt => (removeAt platform attempt).1, P r) ↔
        ∃ attempt ∈ entries.zipIdx, P (removeAt platform attempt).1 := by
    simp only [List.mem_map, exists_exists_and_eq_and]
  have hcases := uninstallOutcome_cases
    (entries.zipIdx.map fun attempt => (removeAt platform attempt).1)
  simp only [hexists, List.forall_mem_map, isProblem_iff, removed_iff, not_not] at hcases
  exact hcases

/-- For every list of scopes, everything the tools print and every answer to a deletion: an uninstall
succeeds exactly when some scope was deleted from and every scope is resolved, finds nothing exactly when
none was deleted from and every scope is resolved, and is refused otherwise. A deleted registration is
gone, and a swept scope where none was seen is left alone. Past the check for an administrator an
uninstall is this for the scopes it is about. -/
theorem uninstall_never_false_clean (platform : Platform) (entries : List ScopeEntry) :
    ((∃ outcome, uninstallFrom platform entries = .ok outcome) ↔
        (∃ attempt ∈ entries.zipIdx, Deleted platform attempt) ∧
          ∀ attempt ∈ entries.zipIdx, Resolved platform attempt) ∧
      ((∃ e, uninstallFrom platform entries = .error e ∧ e.kind = .notFound) ↔
        (∀ attempt ∈ entries.zipIdx, ¬Deleted platform attempt) ∧
          ∀ attempt ∈ entries.zipIdx, Resolved platform attempt) ∧
      ((∃ e, uninstallFrom platform entries = .error e ∧ e.kind = .permissionDenied) ↔
        ∃ attempt ∈ entries.zipIdx, ¬Resolved platform attempt) ∧
      (∀ attempt ∈ entries.zipIdx, Deleted platform attempt →
        (removeAt platform attempt).2.held = none) ∧
      (∀ attempt ∈ entries.zipIdx, ∀ backend, 0 < attempt.2 → attempt.1.manager = .ok backend →
        backend.probe.registration platform ≠ .present →
          (removeAt platform attempt).2 = { held := attempt.1.held }) ∧
      ∀ host manager held choice, ¬(host.platform = .windows ∧ host.isElevated = false) →
        uninstall host manager held choice = uninstallFrom host.platform
          ((uninstallScopes choice host.platform.prefersUserLevel host.isRoot).map fun scope =>
            { scope, manager := manager scope, held := held scope }) := by
  have hverdict := uninstallFrom_cases platform entries
  refine ⟨?_, ?_, ?_, fun attempt _ h => held_of_deleted h,
    fun attempt _ backend hswept hmanager hprobe => removeAt_of_unseen hswept hmanager hprobe,
    fun host manager held choice h => if_neg h⟩
  -- the three verdicts exclude each other, and so do the conditions they come with
  · grind
  · grind
  · grind

/-- A manager that has seen the service, and does everything it is asked for. -/
def willingBackend : Backend where
  probe := .ran true (some 0) []
  stop := .ok ()
  delete := .ok ()
  create := .ok ()

/-- A manager that has no such service. -/
def emptyBackend : Backend where
  probe := .ran false (some 1) "No files found for dignetwork-dig-relay.service.".toList
  stop := .error { kind := .other, message := "unit not loaded" }
  delete := .error { kind := .other, message := "unit not loaded" }
  create := .ok ()

/-- Some registration. -/
def samplePlan : InstallPlan where
  program := "/usr/bin/dig-relay"
  args := ["serve"]
  environment := []
  autostart := true

/-- A host whose system has the service and whose user has not. -/
def sampleManager : ServiceScope → Except IoError Backend
  | .system => .ok willingBackend
  | .user => .ok emptyBackend

/-- An uninstall by root that removes the service from the system and finds nothing at the user's manager
succeeds, and nothing is called there. -/
theorem uninstall_never_false_clean_root :
    (∃ outcome, uninstall { platform := .linux, isRoot := true } sampleManager
        (fun _ => some samplePlan) .auto = .ok outcome) ∧
      (removeAt .linux ({ scope := .user, manager := .ok emptyBackend, held := some samplePlan }, 1)).2 =
        { held := some samplePlan } := by
  have habsent : emptyBackend.probe.registration .linux = .absent := by decide +kernel
  obtain ⟨hok, -, -, -, hunseen, huninstall⟩ := uninstall_never_false_clean .linux
    [{ scope := .system, manager := .ok willingBackend, held := some samplePlan },
      { scope := .user, manager := .ok emptyBackend, held := some samplePlan }]
  constructor
  · rw [huninstall _ _ _ _ (by decide)]
    apply hok.mpr
    constructor
    · exact ⟨_, List.mem_cons_self, by decide⟩
    · intro attempt hattempt
      rcases List.mem_cons.mp hattempt with rfl | hattempt
      · exact .inl (by decide)
      · obtain rfl := List.mem_singleton.mp hattempt
        exact .inr (.inl ⟨emptyBackend, rfl, habsent⟩)
  · apply hunseen _ (List.mem_cons_of_mem _ List.mem_cons_self) emptyBackend Nat.one_pos rfl
    rw [habsent]
    decide

section Install

/-- The sweep before an install takes a registration away. -/
def SweepLoses (platform : Platform) (other : Option (Backend × ServiceScope)) (state : BackendState) :
    Prop :=
  ∃ backend scope, other = some (backend, scope) ∧ backend.probe.registration platform = .present ∧
    backend.delete = .ok () ∧ state.held.isSome = true

/-- A registration that was held still is. -/
def StillHeld (before after : BackendState) : Prop := before.held.isSome = true → after.held.isSome = true

variable {platform : Platform} {backend : Backend} {scope : ServiceScope} {state : BackendState}

/-- A sweep leaves a scope empty if it saw a registration and could delete it, and as it was otherwise. -/
theorem held_sweep :
    (removeRegistration platform backend scope .swept state).2.held =
      if backend.probe.registration platform = .present ∧ backend.delete = .ok () then none
      else state.held := by
  by_cases hprobe : backend.probe.registration platform = .present
  · have htried : ¬(RemovalMode.swept = .swept ∧
        (backend.probe.registration platform).isPresent = false) := by
      rw [hprobe]
      decide
    obtain ⟨error, heq⟩ := @removeRegistration_of_tried platform backend scope _ state htried
    rw [heq]
    cases backend.delete with
    | ok _ => simp [BackendState.call, Call.apply, succeeded, hprobe]
    | error e => simp [BackendState.call, Call.apply, succeeded]
  · rw [removeRegistration_of_unseen ⟨rfl, (isPresent_eq_false_iff _).mpr hprobe⟩, if_neg]
    exact fun hgone => hprobe hgone.1

variable {target : Backend} {other : Option (Backend × ServiceScope)} {plan : InstallPlan}
  {before after : TwoScopes} {e : IoError}

/-- The sweep keeps what the other scope holds exactly when it does not take it away. -/
theorem stillHeld_sweepOther_iff :
    StillHeld state (sweepOther platform other state).2 ↔ ¬SweepLoses platform other state := by
  cases other with
  | none => simp [sweepOther, StillHeld, SweepLoses]
  | some swept =>
    obtain ⟨backend, scope⟩ := swept
    have hloses : SweepLoses platform (some (backend, scope)) state ↔
        (backend.probe.registration platform = .present ∧ backend.delete = .ok ()) ∧
          state.held.isSome = true := by
      simp [SweepLoses, and_assoc]
    rw [StillHeld, sweepOther, held_sweep, hloses]
    by_cases hgone : backend.probe.registration platform = .present ∧ backend.delete = .ok ()
    · simp [hgone]
    · simp [hgone]

/-- A failed install has swept the other scope and left its own as it was. -/
theorem installAtScope_error (h : installAtScope platform target other plan before = (.error e, after)) :
    target.create = .error e ∧ after.target.held = before.target.held ∧
      after.other = (sweepOther platform other before.other).2 := by
  unfold installAtScope at h
  cases hcreate : target.create with
  | ok _ =>
    rw [hcreate] at h
    cases (Prod.mk.inj h).1
  | error refused =>
    rw [hcreate] at h
    obtain ⟨hrefused, rfl⟩ := Prod.mk.inj h
    obtain rfl := Except.error.inj hrefused
    exact ⟨rfl, rfl, rfl⟩

/-- For all answers of the two managers and everything they hold, an install that fails keeps every
registration exactly when its sweep of the other scope took none away. -/
theorem installAtScope_failed_iff
    (h : installAtScope platform target other plan before = (.error e, after)) :
    StillHeld before.target after.target ∧ StillHeld before.other after.other ↔
      ¬SweepLoses platform other before.other := by
  obtain ⟨-, htarget, hother⟩ := installAtScope_error h
  have hkept : StillHeld before.target after.target := by
    intro hheld
    rwa [htarget]
  rw [hother, stillHeld_sweepOther_iff]
  exact and_iff_right hkept

/-- A manager that refuses to create a service. -/
def refusingBackend : Backend where
  probe := .ran false (some 1) "No files found for dignetwork-dig-relay.service.".toList
  stop := .ok ()
  delete := .ok ()
  create := .error { kind := .permissionDenied, message := "read-only file system" }

/-- A failed install leaves a registration of its own scope alone, and that of a scope that cannot be
read. -/
theorem installAtScope_failed_unreadable :
    let before : TwoScopes := { target := { held := some samplePlan }, other := { held := some samplePlan } }
    let unreadable : Backend := { willingBackend with probe := .notRun "Permission denied (os error 13)" }
    let after := (installAtScope .linux refusingBackend (some (unreadable, .user)) samplePlan before).2
    StillHeld before.target after.target ∧ StillHeld before.other after.other := by
  intro before unreadable after
  apply (installAtScope_failed_iff (rfl : installAtScope .linux refusingBackend _ samplePlan before =
    (.error { kind := .permissionDenied, message := "read-only file system" }, after))).mpr
  rintro ⟨backend, scope, hother, hpresent, -⟩
  obtain ⟨rfl, -⟩ := Prod.mk.inj (Option.some.inj hother)
  cases hpresent

/-- An install for the system that is refused has removed the working registration of the user. -/
theorem installAtScope_failed_loses :
    let before : TwoScopes := { target := { held := none }, other := { held := some samplePlan } }
    ∃ after, installAtScope .linux refusingBackend (some (willingBackend, .user)) samplePlan before =
        (.error { kind := .permissionDenied, message := "read-only file system" }, after) ∧
      before.other.held.isSome = true ∧ after.other.held = none ∧ after.target.held = none ∧
      after.other.calls = [.stop true, .delete true] ∧ after.target.calls = [.create samplePlan false] :=
  ⟨_, rfl, rfl, rfl, rfl, rfl, rfl⟩

section Whole

variable {host : Host} {manager : ServiceScope → Except IoError Backend} {currentExe : Except IoError String}
  {config : ServiceConfig} {choice : ScopeChoice} {state after : ServiceScope → BackendState}

/-- What both scopes hold after an install is at most changed in the ways of its two halves. -/
theorem stillHeld_at {resolved : ServiceScope} {both : TwoScopes}
    (htarget : StillHeld (state resolved) both.target)
    (hother : StillHeld (state (otherScope resolved)) both.other) (scope : ServiceScope) :
    StillHeld (state scope) (both.at resolved scope) := by
  by_cases hscope : scope = resolved
  · rw [TwoScopes.at, if_pos hscope, hscope]
    exact htarget
  · have hopposite : scope = otherScope resolved := by
      cases scope <;> cases resolved <;> first | rfl | exact absurd rfl hscope
    rw [TwoScopes.at, if_neg hscope, hopposite]
    exact hother

/-- An install that is refused beforehand changes nothing. -/
theorem install_of_refused {e : IoError}
    (h : installPreconditions host manager currentExe (host.resolve choice) = .error e) :
    install host manager currentExe config choice state = (.error e, state) := by
  simp only [install, h]

/-- An install that is not refused beforehand is one at the scope that is meant. -/
theorem install_of_ready {target : Backend} {program : String}
    (h : installPreconditions host manager currentExe (host.resolve choice) = .ok (target, program)) :
    install host manager currentExe config choice state =
      ((installAtScope host.platform target (otherManager host manager (host.resolve choice))
          (installPlan host config program)
          ⟨state (host.resolve choice), state (otherScope (host.resolve choice))⟩).1.map
          (installReport config (host.resolve choice) program),
        (installAtScope host.platform target (otherManager host manager (host.resolve choice))
          (installPlan host config program)
          ⟨state (host.resolve choice), state (otherScope (host.resolve choice))⟩).2.at
          (host.resolve choice)) := by
  simp only [install, h]

/-- An install that fails keeps every registration, unless all that is checked beforehand was in order and
the sweep took one away. -/
theorem install_error {e : IoError}
    (h : install host manager currentExe config choice state = (.error e, after)) :
    (∀ scope, StillHeld (state scope) (after scope)) ∨
      (∃ target program,
        installPreconditions host manager currentExe (host.resolve choice) = .ok (target, program) ∧
          target.create = .error e) ∧
        SweepLoses host.platform (otherManager host manager (host.resolve choice))
          (state (otherScope (host.resolve choice))) := by
  cases hready : installPreconditions host manager currentExe (host.resolve choice) with
  | error refused =>
    rw [install_of_refused hready] at h
    obtain ⟨-, rfl⟩ := Prod.mk.inj h
    exact .inl fun scope hheld => hheld
  | ok ready =>
    obtain ⟨target, program⟩ := ready
    rw [install_of_ready hready] at h
    obtain ⟨hresult, rfl⟩ := Prod.mk.inj h
    cases hrun : installAtScope host.platform target (otherManager host manager (host.resolve choice))
      (installPlan host config program)
      ⟨state (host.resolve choice), state (otherScope (host.resolve choice))⟩ with
    | mk result both =>
      rw [hrun] at hresult
      cases result with
      | ok migration => cases hresult
      | error refused =>
        obtain rfl := Except.error.inj hresult
        obtain ⟨hcreate, htarget, hother⟩ := installAtScope_error hrun
        by_cases hloses : SweepLoses host.platform (otherManager host manager (host.resolve choice))
            (state (otherScope (host.resolve choice)))
        · exact .inr ⟨⟨target, program, rfl, hcreate⟩, hloses⟩
        · left
          apply stillHeld_at
          · intro hheld
            rwa [htarget]
          · rw [hother]
            exact stillHeld_sweepOther_iff.mpr hloses

/-- An install that succeeds leaves a definition at the scope that is meant from which the service reads
its configuration, up to what the environment does not carry. -/
theorem install_ok {outcome : InstallOutcome} (hvalid : config.server.validate = .ok ())
    (hsecs : config.WholeSeconds)
    (h : install host manager currentExe config choice state = (.ok outcome, after)) :
    ∃ plan, (after (host.resolve choice)).held = some plan ∧ plan.autostart = true ∧
      configFromEnv plan.environment = .ok config.persisted := by
  cases hready : installPreconditions host manager currentExe (host.resolve choice) with
  | error refused =>
    rw [install_of_refused hready] at h
    cases (Prod.mk.inj h).1
  | ok ready =>
    obtain ⟨target, program⟩ := ready
    rw [install_of_ready hready] at h
    obtain ⟨hresult, rfl⟩ := Prod.mk.inj h
    refine ⟨installPlan host config program, ?_, rfl, configFromEnv_eq_persisted hvalid hsecs⟩
    rw [TwoScopes.at, if_pos rfl]
    cases hcreate : target.create with
    | ok _ => simp [installAtScope, hcreate, BackendState.call, succeeded, Call.apply]
    | error refused =>
      simp only [installAtScope, hcreate] at hresult
      cases hresult

end Whole

end Install

end DigRelay
