import DigRelay.Common.Text
import DigRelay.ServiceEnv

/-!
# Installing and removing the service

A service is registered with the service manager of the system or of the user. What a manager answers is
up to it: the tool that looks for a registration may fail to run, or fail in a way that says nothing, and
stopping, deleting and creating may each be refused. A backend is given by those answers, and its state
is the registration it holds together with the calls that were made to it.

The texts of errors and reports are those of the relay. Where a report is rendered as JSON, the record
that is rendered stands for it.
-/

namespace DigRelay

open Common

/-- What a caller asks for. -/
inductive ScopeChoice
  | auto
  | system
  | user
  deriving DecidableEq

/-- Where a service is registered. -/
inductive ServiceScope
  | system
  | user
  deriving DecidableEq

/-- The name of a scope in reports. -/
def scopeLabel : ServiceScope → String
  | .system => "system"
  | .user => "user"

/-- The kinds of errors that are told apart. -/
inductive ErrorKind
  | permissionDenied
  | notFound
  | other
  deriving DecidableEq

/-- An error with its text. -/
structure IoError where
  kind : ErrorKind
  message : String
  deriving DecidableEq

/-- The systems a relay is installed on. -/
inductive Platform
  | windows
  | macos
  | linux
  deriving DecidableEq

/-- A system, and whether the caller is its administrator. -/
structure Host where
  platform : Platform
  isRoot : Bool

/-- Whether users have a service manager of their own. -/
def Platform.prefersUserLevel : Platform → Bool
  | .windows => false
  | .macos | .linux => true

/-- Only on Windows does installing need an administrator. -/
def Host.isElevated (host : Host) : Bool :=
  match host.platform with
  | .windows => host.isRoot
  | .macos | .linux => true

/-- The label of the service. -/
def serviceLabel : String := "net.dignetwork.dig-relay"

/-- The scope that is meant by a choice. -/
def resolveScope (choice : ScopeChoice) (osSupportsUser isRoot : Bool) : ServiceScope :=
  if osSupportsUser then
    match choice with
    | .system => .system
    | .user => .user
    | .auto => if isRoot then .system else .user
  else .system

/-- The scope that is meant by a choice on a host. -/
def Host.resolve (host : Host) (choice : ScopeChoice) : ServiceScope :=
  resolveScope choice host.platform.prefersUserLevel host.isRoot

/-- Refuse to register with the system for a caller who may not. -/
def ensurePrivilegeForScope (scope : ServiceScope) (osSupportsUser isRoot : Bool) : Except IoError Unit :=
  if !osSupportsUser || scope = .user || isRoot then .ok ()
  else .error
    { kind := .permissionDenied
      message := "dig-relay: registering a system-level (machine-wide, boot-started) service requires root. " ++
        "Re-run with `sudo dig-relay install --scope system`, or install at user scope " ++
        "(`--scope user`) — noting that a user-scope service only starts with your login session " ++
        "and so may not come back after a reboot on a headless host." }

/-- The other scope. -/
def otherScope : ServiceScope → ServiceScope
  | .system => .user
  | .user => .system

/-- The scopes to remove the service from, the one that is meant first. -/
def uninstallScopes (choice : ScopeChoice) (osSupportsUser isRoot : Bool) : List ServiceScope :=
  let requested := resolveScope choice osSupportsUser isRoot
  if !osSupportsUser || choice ≠ .auto then [requested] else [requested, otherScope requested]

section Probes

/-- What looking for a registration established. -/
inductive Registration
  | present
  | absent
  | unknown (reason : String)
  deriving DecidableEq

/-- A registration was seen. -/
def Registration.isPresent : Registration → Bool
  | .present => true
  | _ => false

/-- Why nothing was established. -/
def Registration.unknownReason : Registration → Option String
  | .unknown reason => some reason
  | _ => none

/-- One of the phrases stands in the text, in any case. -/
def containsAny (haystack : List Char) (needles : List String) : Bool :=
  needles.any fun needle => containsText needle.toList (haystack.map asciiLower)

/-- An exit code as text. -/
def describeExit : Option ℤ → String
  | none => "no exit code (terminated by signal)"
  | some code => "code " ++ toString code

/-- The first line that is not blank, cut to a readable length. What ends a line is trimmed with it. -/
def summarizeStderr (stderr : List Char) : String :=
  String.ofList ((((stderr.splitOn '\n').map trim).find? (· ≠ [])).getD "(no output)".toList |>.take 200)

/-- What an exit of `sc query` says. -/
def classifyScProbe (succeeded : Bool) (code : Option ℤ) : Registration :=
  if succeeded then .present
  else if code = some 1060 then .absent
  else .unknown ("`sc query` exited with " ++ describeExit code ++
    " (1060 would mean the service does not exist)")

/-- What an exit of `launchctl print` says. -/
def classifyLaunchctlProbe (succeeded : Bool) (code : Option ℤ) (stderr : List Char) : Registration :=
  if succeeded then .present
  else if code = some 113 ||
      containsAny stderr ["could not find service", "no such process", "no such file"] then .absent
  else .unknown ("`launchctl print` exited with " ++ describeExit code ++
    " without reporting the service absent: " ++ summarizeStderr stderr)

/-- What an exit of `systemctl cat` says. -/
def classifySystemctlProbe (succeeded : Bool) (stderr : List Char) : Registration :=
  if succeeded then .present
  else if containsAny stderr ["no files found for", "could not be found"] then .absent
  else .unknown ("`systemctl cat` failed without reporting the unit absent: " ++ summarizeStderr stderr)

/-- What a tool that could not be run says. -/
def probeToolUnavailable (tool error : String) : Registration :=
  .unknown ("could not run `" ++ tool ++ "`: " ++ error)

/-- What comes of looking for a registration. -/
inductive Probe
  | noLabel (error : String)
  | notRun (error : String)
  | ran (succeeded : Bool) (code : Option ℤ) (stderr : List Char)
  deriving DecidableEq

/-- What the tool of a platform that was run says. -/
def queryInstalled (platform : Platform) (succeeded : Bool) (code : Option ℤ) (stderr : List Char) :
    Registration :=
  match platform with
  | .windows => classifyScProbe succeeded code
  | .macos => classifyLaunchctlProbe succeeded code stderr
  | .linux => classifySystemctlProbe succeeded stderr

/-- The tool that looks for a registration. -/
def Platform.probeTool : Platform → String
  | .windows => "sc.exe"
  | .macos => "launchctl"
  | .linux => "systemctl"

/-- What looking for a registration says on a platform. -/
def Probe.registration (platform : Platform) : Probe → Registration
  | .noLabel error => .unknown ("could not build the service label: " ++ error)
  | .notRun error => probeToolUnavailable platform.probeTool error
  | .ran succeeded code stderr => queryInstalled platform succeeded code stderr

end Probes

section Backends

/-- What is registered. -/
structure InstallPlan where
  program : String
  args : List String
  environment : Environment
  autostart : Bool
  deriving DecidableEq

/-- The answers of the manager of one scope. -/
structure Backend where
  probe : Probe
  stop : Except IoError Unit
  delete : Except IoError Unit
  create : Except IoError Unit

/-- A call to a manager that changes something, and whether it succeeded. -/
inductive Call
  | stop (succeeded : Bool)
  | delete (succeeded : Bool)
  | create (plan : InstallPlan) (succeeded : Bool)
  deriving DecidableEq

/-- What a manager holds, and the calls that were made to it. -/
structure BackendState where
  held : Option InstallPlan
  calls : List Call := []
  deriving DecidableEq

/-- Whether the answer is a success. -/
def succeeded : Except IoError Unit → Bool
  | .ok () => true
  | .error _ => false

/-- What is held after a call. One that fails changes nothing. -/
def Call.apply (held : Option InstallPlan) : Call → Option InstallPlan
  | .delete true => none
  | .create plan true => some plan
  | _ => held

/-- Make a call. -/
def BackendState.call (state : BackendState) (call : Call) : BackendState where
  held := call.apply state.held
  calls := state.calls ++ [call]

/-- What came of an attempt to remove the service from a scope. -/
structure ScopeRemoval where
  scope : ServiceScope
  found : Bool := false
  removed : Bool := false
  indeterminate : Bool := false
  error : Option String := none
  deriving DecidableEq

/-- A scope that was asked for is removed from in any case, any other only if a registration is seen. -/
inductive RemovalMode
  | requested
  | swept
  deriving DecidableEq

/-- An attempt that could not be made because the scope has no manager. -/
def ScopeRemoval.unreachable (scope : ServiceScope) (mode : RemovalMode) (error : String) : ScopeRemoval :=
  { scope, indeterminate := mode = .requested, error := some error }

/-- Remove the service from a scope. -/
def removeRegistration (platform : Platform) (backend : Backend) (scope : ServiceScope) (mode : RemovalMode)
    (state : BackendState) : ScopeRemoval × BackendState :=
  let probe := backend.probe.registration platform
  let removal : ScopeRemoval :=
    { scope
      found := probe.isPresent
      error := probe.unknownReason.map ("could not determine whether it is registered: " ++ ·) }
  if mode = .swept ∧ removal.found = false then
    ({ removal with indeterminate := probe.unknownReason.isSome }, state)
  else
    let state := state.call (.stop (succeeded backend.stop))
    let state := state.call (.delete (succeeded backend.delete))
    match backend.delete with
    | .ok () => ({ removal with removed := true }, state)
    | .error e =>
      ({ removal with
          indeterminate := probe.unknownReason.isSome || removal.found
          error := some e.message }, state)

/-- What the managers of two scopes hold. -/
structure TwoScopes where
  target : BackendState
  other : BackendState

/-- Sweep the other scope, if there is one. -/
def sweepOther (platform : Platform) (other : Option (Backend × ServiceScope)) (state : BackendState) :
    Option ScopeRemoval × BackendState :=
  match other with
  | some (backend, scope) =>
    let swept := removeRegistration platform backend scope .swept state
    (some swept.1, swept.2)
  | none => (none, state)

/-- Register with one scope, after the other has been swept. -/
def installAtScope (platform : Platform) (target : Backend) (other : Option (Backend × ServiceScope))
    (plan : InstallPlan) (state : TwoScopes) : Except IoError (Option ScopeRemoval) × TwoScopes :=
  let migration := sweepOther platform other state.other
  let state : TwoScopes :=
    { target := state.target.call (.create plan (succeeded target.create)), other := migration.2 }
  match target.create with
  | .ok () => (.ok migration.1, state)
  | .error e => (.error e, state)

end Backends

section Install

/-- The report of a service that was installed. -/
structure InstallOutcome where
  summary : String
  installed : Bool := true
  registered : Bool := true
  started : Bool := false
  label : String := serviceLabel
  scope : String
  program : String
  listen : String
  healthListen : String
  migration : Option ScopeRemoval
  deriving DecidableEq

/-- What is settled before anything is written: the manager and the program to register. -/
def installPreconditions (host : Host) (manager : ServiceScope → Except IoError Backend)
    (currentExe : Except IoError String) (resolved : ServiceScope) : Except IoError (Backend × String) := do
  if host.platform = .windows ∧ host.isElevated = false then
    throw
      { kind := .permissionDenied
        message := "dig-relay: installing a Windows service requires an elevated (Administrator) console. " ++
          "Re-run this in a terminal opened with \"Run as administrator\"." }
  ensurePrivilegeForScope resolved host.platform.prefersUserLevel host.isRoot
  let target ← manager resolved
  let program ← currentExe
  pure (target, program)

/-- What the report adds about a registration at the other scope. -/
def migrationNote : Option ScopeRemoval → String
  | none => ""
  | some m =>
    if m.removed then "\n  migrated: removed the previous " ++ scopeLabel m.scope ++ "-level registration"
    else if m.found || m.indeterminate then
      "\n  WARNING: a " ++ scopeLabel m.scope ++ "-level registration may still exist and could also bind " ++
        "these ports (" ++ m.error.getD "removal did not take effect" ++
        "). Remove it with: dig-relay uninstall --scope " ++ scopeLabel m.scope
    else ""

/-- What is registered for a configuration. On Windows the program has to speak the protocol of the
service manager. -/
def installPlan (host : Host) (config : ServiceConfig) (program : String) : InstallPlan where
  program
  args := [if host.platform = .windows then "run-service" else "serve"]
  environment := installEnvironment config
  autostart := true

/-- The scope to sweep. One without a manager holds no registration to clear. -/
def otherManager (host : Host) (manager : ServiceScope → Except IoError Backend) (resolved : ServiceScope) :
    Option (Backend × ServiceScope) :=
  if host.platform.prefersUserLevel then
    (manager (otherScope resolved)).toOption.map fun backend => (backend, otherScope resolved)
  else none

/-- The report on an install. -/
def installReport (config : ServiceConfig) (resolved : ServiceScope) (program : String)
    (migration : Option ScopeRemoval) : InstallOutcome :=
  let listen := String.ofList (socketAddrText config.listen.toSocketAddr)
  let healthListen := String.ofList (socketAddrText config.healthListen.toSocketAddr)
  { summary := "dig-relay: installed as a " ++ scopeLabel resolved ++ "-level service \"" ++
      serviceLabel ++ "\"\n  program: " ++ program ++ "\n  relay:   ws://" ++ listen ++
      "\n  health:  http://" ++ healthListen ++ "\n  Start it now with: dig-relay start" ++
      migrationNote migration
    scope := scopeLabel resolved
    program
    listen
    healthListen
    migration }

/-- What each scope holds, where one of them is the target. -/
def TwoScopes.at (both : TwoScopes) (target : ServiceScope) (scope : ServiceScope) : BackendState :=
  if scope = target then both.target else both.other

/-- Install the service. -/
def install (host : Host) (manager : ServiceScope → Except IoError Backend)
    (currentExe : Except IoError String) (config : ServiceConfig) (choice : ScopeChoice)
    (state : ServiceScope → BackendState) :
    Except IoError InstallOutcome × (ServiceScope → BackendState) :=
  let resolved := host.resolve choice
  match installPreconditions host manager currentExe resolved with
  | .error e => (.error e, state)
  | .ok (target, program) =>
    let migration := installAtScope host.platform target (otherManager host manager resolved)
      (installPlan host config program) { target := state resolved, other := state (otherScope resolved) }
    (migration.1.map (installReport config resolved program), migration.2.at resolved)

end Install

section Uninstall

/-- The report of a service that was removed. -/
structure UninstallOutcome where
  summary : String
  installed : Bool := false
  registered : Bool := false
  label : String := serviceLabel
  removedScopes : List String
  scopes : List ScopeRemoval
  deriving DecidableEq

/-- The attempt left open whether the service is still registered. -/
def ScopeRemoval.isProblem (removal : ScopeRemoval) : Bool :=
  removal.indeterminate || (removal.found && !removal.removed)

/-- The verdict on all attempts. -/
def uninstallOutcome (removals : List ScopeRemoval) : Except IoError UninstallOutcome :=
  let removed := (removals.filter ScopeRemoval.removed).map fun r => scopeLabel r.scope
  let problems := (removals.filter ScopeRemoval.isProblem).map fun r =>
    scopeLabel r.scope ++ " scope: " ++ r.error.getD "removal did not take effect"
  if problems ≠ [] then
    let removedNote :=
      if removed = [] then "nothing was removed" else "removed at: " ++ ", ".intercalate removed
    .error
      { kind := .permissionDenied
        message := "dig-relay: could not fully uninstall service \"" ++ serviceLabel ++ "\" (" ++
          removedNote ++ "). Unresolved: " ++ "; ".intercalate problems ++
          ". Re-run elevated (e.g. `sudo dig-relay uninstall --scope system`) — " ++
          "a registration left behind will keep starting the relay." }
  else if removed = [] then
    let scopes := " or ".intercalate (removals.map fun r => scopeLabel r.scope)
    let reasons := removals.filterMap fun r =>
      r.error.map fun e => scopeLabel r.scope ++ " scope: " ++ e
    .error
      { kind := .notFound
        message := "dig-relay: no service registration for \"" ++ serviceLabel ++ "\" was found at " ++
          scopes ++ " scope — nothing to uninstall." ++
          if reasons = [] then "" else " (" ++ "; ".intercalate reasons ++ ")" }
  else
    .ok
      { summary := "dig-relay: uninstalled service \"" ++ serviceLabel ++ "\" at " ++
          " + ".intercalate removed ++ " scope"
        removedScopes := removed
        scopes := removals }

/-- A scope with what asking for its manager gives, and the registration it holds. -/
structure ScopeEntry where
  scope : ServiceScope
  manager : Except IoError Backend
  held : Option InstallPlan

/-- The first scope is the one that was asked for. -/
def removalMode (index : ℕ) : RemovalMode := if index = 0 then .requested else .swept

/-- Try to remove the service from the scope at some index. -/
def removeAt (platform : Platform) (attempt : ScopeEntry × ℕ) : ScopeRemoval × BackendState :=
  let mode := removalMode attempt.2
  match attempt.1.manager with
  | .ok backend => removeRegistration platform backend attempt.1.scope mode { held := attempt.1.held }
  | .error e => (ScopeRemoval.unreachable attempt.1.scope mode e.message, { held := attempt.1.held })

/-- Try to remove the service from several scopes. -/
def uninstallFrom (platform : Platform) (entries : List ScopeEntry) : Except IoError UninstallOutcome :=
  uninstallOutcome (entries.zipIdx.map fun attempt => (removeAt platform attempt).1)

/-- Uninstall the service, where each scope may or may not have a manager. -/
def uninstall (host : Host) (manager : ServiceScope → Except IoError Backend)
    (held : ServiceScope → Option InstallPlan) (choice : ScopeChoice) : Except IoError UninstallOutcome :=
  if host.platform = .windows ∧ host.isElevated = false then
    .error
      { kind := .permissionDenied
        message :=
          "dig-relay: uninstalling a Windows service requires an elevated (Administrator) console." }
  else
    uninstallFrom host.platform
      ((uninstallScopes choice host.platform.prefersUserLevel host.isRoot).map fun scope =>
        { scope, manager := manager scope, held := held scope })

end Uninstall

end DigRelay
