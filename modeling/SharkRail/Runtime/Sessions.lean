import SharkRail.Runtime.Policy

/-!
# The limits of a session

`SessionManager.start`, by the checks it makes of a request and the limits that the session it returns has. What the admission and the
backend do in between is a parameter.
-/

namespace SharkRail

namespace Runtime

open Integrations (CommandSpec ResourceLimits Raised ExecutionError StartRequest)

/-- `ResourceLimits.validate`. -/
def validateResources (resources : ResourceLimits) : Except Raised Unit :=
  [("memory_bytes", resources.memoryBytes), ("cpu_time_seconds", resources.cpuTimeSeconds),
    ("process_count", resources.processCount)].forM fun (name, value) =>
      if value.any (· ≤ 0) then throw (.valueError (name ++ " must be positive" : String)) else pure ()

/-- `CommandSpec.validate`. -/
def validateSpec (spec : CommandSpec) : Except Raised Unit :=
  if !isExecutable (.str spec.executable) then throw (.valueError "executable must be a non-empty string")
  else if !spec.argv.all isStr then throw (.typeError "argv must contain only strings")
  else if (spec.env.getD []).any fun entry => entry.1 = [] || entry.1.contains (CodePoint.ofChar '=') then
    throw (.valueError "environment contains an invalid variable name")
  else
    match spec.inheritEnv with
    | .bool _ => validateResources spec.resources
    | _ => throw (.typeError "inherit_env must be a boolean")

/-- `_request_error`. -/
def requestError (message : PyStr) : Raised :=
  .sharkRailError { code := .invalidRequest, stage := .validate, message }

/-- The exception of `start` for one of `effective_spec`. -/
def policyDenied : PolicyError → Raised
  | .violation rule =>
    .sharkRailError
      { code := .policyDenied, stage := .validate, message := ("execution denied by policy rule: " ++ rule : String)
        native := [("rule", .str rule)] }
  | .typeError message => .typeError message

/-- The settings of a manager that its sessions get their limits from. -/
structure ManagerLimits where
  policy : Option ExecutionPolicy := none
  defaultMaxOutputBytes : Int := 16 * 1024 * 1024

/-- What `start` passes to the `Session` it makes. -/
structure SessionLimits where
  spec : CommandSpec
  maxOutputBytes : Option Int
  timeoutMs : Option Int
  idleTimeoutMs : Option Int
  outputRetention : String
  deriving DecidableEq

namespace ManagerLimits

/-- `max_output_bytes`, by default the one of the manager. -/
def outputCap (manager : ManagerLimits) (request : StartRequest) : Int :=
  request.maxOutputBytes.getD manager.defaultMaxOutputBytes

/-- The specification that the policy makes of the requested one. -/
def effectiveSpec (host : Host) (manager : ManagerLimits) (request : StartRequest) : Except Raised CommandSpec :=
  match manager.policy with
  | none => pure request.spec
  | some policy =>
    match policy.effectiveSpec host request.spec request.timeoutMs (some (manager.outputCap request)) with
    | .ok spec => pure spec
    | .error e => throw (policyDenied e)

/-- The checks of the limits that a request gives. -/
def checkLimits (request : StartRequest) (outputRetention : String) (spec : CommandSpec) : Except Raised Unit :=
  if request.timeoutMs.any (· < 0) then throw (requestError "timeout_ms must be non-negative")
  else if request.idleTimeoutMs.any (· ≤ 0) then throw (requestError "idle_timeout_ms must be positive")
  else if request.maxOutputBytes.any (· < 0) then throw (requestError "max_output_bytes must be non-negative")
  else if outputRetention ≠ "head" ∧ outputRetention ≠ "tail" then throw (requestError "output_retention must be head or tail")
  else if outputRetention = "tail" ∧ spec.mode ≠ .pty then throw (requestError "tail output retention requires PTY mode")
  else pure ()

/-- `start`; `launch` is what the admission, the backend and the registration of the process return or raise. -/
def start (host : Host) (launch : CommandSpec → Except Raised Unit) (manager : ManagerLimits) (request : StartRequest)
    (outputRetention : String) : Except Raised SessionLimits := do
  validateSpec request.spec
  let spec ← manager.effectiveSpec host request
  checkLimits request outputRetention spec
  launch spec
  pure
    { spec, outputRetention
      maxOutputBytes := some (manager.outputCap request)
      timeoutMs := request.timeoutMs
      idleTimeoutMs := request.idleTimeoutMs }

end ManagerLimits

/-- The request of `AcpTerminalAdapter.create`, for parameters that passed its checks: it gives no timeout, and keeps the tail. -/
def acpRequest (command : PyStr) (args : List PyJson) (cwd : PyJson) (env : List (PyStr × PyJson)) (outputByteLimit : Option Int) :
    StartRequest :=
  { spec := Integrations.directCommand command args .native {}
      { executable := [], argv := [], cwd, env := if env.isEmpty then none else some env, mode := .pty }
    timeoutMs := none
    idleTimeoutMs := none
    maxOutputBytes := outputByteLimit }

end Runtime

end SharkRail
