import SharkRail.Runtime.Lifecycle
import SharkRail.Runtime.Sessions
import SharkRail.Service.Session

/-!
# Runs of a single command

`CommandRunner.run_events`, as a dry run and as a run by a `SessionManager` of its own. What the backend does is a parameter; the errors
that `SessionManager.start` and `_monitor` make of it are not.
-/

namespace SharkRail

namespace Runtime

open Integrations (CommandSpec ErrorCode ErrorStage ExecutionError StartRequest)

/-- What the runner reports of a command. -/
structure CommandResult where
  exitCode : Int
  stdout : PyStr
  stderr : PyStr
  outputTruncated : Bool := false
  maxOutputBytes : Option Int := none
  reason : CompletionReason := .success
  error : Option ExecutionError := none

structure LifecycleEvent where
  seq : ℕ
  kind : LifecycleEventType
  payload : List (PyStr × PyJson)

/-! ## The backend -/

/-- How `backend.start` ends. -/
inductive BackendStart
  | started
  | fileNotFound (message : PyStr) (errno : Option Int)
  | osError (message : PyStr) (errno : Option Int)
  | raised (error : Integrations.Raised)

/-- What goes wrong under `_monitor`: a deadline that passed, a limit that was hit, an exception of the backend, or a `SharkRailError` that
it raised while the output was drained. -/
inductive MonitorError
  | exitDeadline
  | drainDeadline (timeoutMs : ℕ)
  | disposalDeadline
  | resourceLimit (resource : String) (returncode : Int)
  | exception (stage : ErrorStage) (message : PyStr) (native : List (PyStr × PyJson))
  | raised (error : ExecutionError)

/-- The errors of `_monitor`. -/
def MonitorError.toExecutionError : MonitorError → ExecutionError
  | .exitDeadline => { code := .terminationFailed, stage := .run, message := "process did not exit after forced termination" }
  | .drainDeadline timeoutMs =>
    { code := .drainTimeout, stage := .drain, message := (s!"output did not drain within {timeoutMs} ms" : String) }
  | .disposalDeadline => { code := .terminationFailed, stage := .dispose, message := "backend disposal exceeded its deadline" }
  | .resourceLimit resource returncode =>
    { code := .resourceLimited, stage := .run, message := (s!"process reached the {resource} limit" : String)
      native := [("exit_code", .int returncode)] }
  | .exception stage message native => { code := .internalError, stage, message, native }
  | .raised error => error

/-- A session that completed. -/
structure SessionEnd where
  exitCode : Int
  stdout : String
  stderr : String
  outputTruncated : Bool
  reason : CompletionReason
  error : Option MonitorError
  events : List LifecycleEvent

/-- A backend, by what it makes of a command and of a session. An error with which it refuses is not one of the policy, which it does not
know. -/
structure CommandBackend where
  start : CommandSpec → BackendStart
  monitor : SessionLimits → Except Integrations.Raised SessionEnd
  start_code : ∀ spec error, start spec = .raised (.sharkRailError error) → error.code ≠ .policyDenied
  monitor_code : ∀ session ended error, monitor session = .ok ended → ended.error = some (.raised error) → error.code ≠ .policyDenied

/-- `{"errno": err.errno} if err.errno is not None else {}`. -/
def errnoDetails (errno : Option Int) : List (PyStr × PyJson) := (errno.map fun errno => (PyStr.ofString "errno", PyJson.int errno)).toList

/-- What `start` raises where the backend does not start the process. The manager has no other session, so its limit is not reached. -/
def CommandBackend.launch (backend : CommandBackend) (spec : CommandSpec) : Except Integrations.Raised Unit :=
  match backend.start spec with
  | .started => pure ()
  | .fileNotFound message errno =>
    throw (.sharkRailError { code := .executableNotFound, stage := .start, message, native := errnoDetails errno })
  | .osError message errno =>
    throw (.sharkRailError { code := .startFailed, stage := .start, message, native := errnoDetails errno })
  | .raised error => throw error

/-! ## The runner -/

structure CommandRunner where
  dryRun : Bool := false
  maxOutputBytes : Option Int := none
  policy : Option ExecutionPolicy := none

/-- The error of a request that the policy denies. -/
def policyDeniedError (rule : String) : ExecutionError :=
  { code := .policyDenied, stage := .validate, message := ("execution denied by policy rule: " ++ rule : String),
    native := [("rule", .str rule)] }

/-- `to_dict` as the payload of an event. -/
def errorPayload (error : ExecutionError) : List (PyStr × PyJson) :=
  [("code", .str error.code.value), ("stage", .str error.stage.value), ("message", .str error.message),
    ("retryable", .bool error.retryable),
    ("native", .obj error.native)]

namespace CommandRunner

/-- A command that did not start: its result, and the events of a session that failed. -/
def failed (runner : CommandRunner) (accepted : List (PyStr × PyJson)) (error : ExecutionError) (exitCode : Int) :
    CommandResult × List LifecycleEvent :=
  ({ exitCode, stdout := "", stderr := error.message, maxOutputBytes := runner.maxOutputBytes, reason := .failed, error := some error },
    [{ seq := 0, kind := .accepted, payload := accepted },
      { seq := 1, kind := .sessionError, payload := errorPayload error },
      { seq := 2, kind := .sessionCompleted
        payload := [("reason", .str CompletionReason.failed.value), ("exit_code", .int exitCode)] }])

/-- A dry run that finds nothing against the command. -/
def accepted (runner : CommandRunner) (spec : CommandSpec) : CommandResult × List LifecycleEvent :=
  ({ exitCode := 0, stdout := "", stderr := "", maxOutputBytes := runner.maxOutputBytes },
    [{ seq := 0, kind := .accepted, payload := [("executable", .str spec.executable), ("dry_run", .bool true)] },
      { seq := 1, kind := .sessionCompleted
        payload := [("exit_code", .int 0), ("reason", .str CompletionReason.success.value)] }])

variable (host : Host)

/-- The dry run asks the policy about the output cap as it was given, or not given. -/
def dryRunEvents (runner : CommandRunner) (spec : CommandSpec) (timeoutMs : Option Int) :
    Except Integrations.Raised (CommandResult × List LifecycleEvent) :=
  match runner.policy with
  | none => pure (runner.accepted spec)
  | some policy =>
    match policy.effectiveSpec host spec timeoutMs runner.maxOutputBytes with
    | .ok _ => pure (runner.accepted spec)
    | .error (.violation rule) => pure (runner.failed [("dry_run", .bool true)] (policyDeniedError rule) 1)
    | .error (.typeError message) => throw (.typeError message)

/-- The run by a session. -/
def sessionEvents (backend : CommandBackend) (runner : CommandRunner) (spec : CommandSpec) (timeoutMs idleTimeoutMs : Option Int) :
    Except Integrations.Raised (CommandResult × List LifecycleEvent) :=
  let manager : ManagerLimits := { policy := runner.policy }
  match manager.start host backend.launch { spec, timeoutMs, idleTimeoutMs, maxOutputBytes := runner.maxOutputBytes } "head" with
  | .ok session => do
    let ended ← backend.monitor session
    pure
      ({ exitCode := ended.exitCode, stdout := ended.stdout, stderr := ended.stderr, outputTruncated := ended.outputTruncated
         maxOutputBytes := session.maxOutputBytes, reason := ended.reason
         error := ended.error.map (·.toExecutionError) }, ended.events)
  | .error (.sharkRailError error) =>
    pure (runner.failed [("executable", .str spec.executable)] error (if error.code = .executableNotFound then 127 else 1))
  | .error error => throw error

/-- `run_events`. -/
def runEvents (backend : CommandBackend) (runner : CommandRunner) (spec : CommandSpec) (timeoutMs idleTimeoutMs : Option Int) :
    Except Integrations.Raised (CommandResult × List LifecycleEvent) := do
  validateSpec spec
  if runner.dryRun then runner.dryRunEvents host spec timeoutMs
  else runner.sessionEvents host backend spec timeoutMs idleTimeoutMs

end CommandRunner

end Runtime

end SharkRail
