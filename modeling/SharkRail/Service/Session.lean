import SharkRail.Service.Output

/-!
# Sessions

What `SessionManager` does to the one session of a job: `cancel`, and the monitor that follows the process to its result. The
process itself is outside: its events are inputs.
-/

namespace SharkRail

inductive CompletionReason where
  | success
  | timeout
  | failed
  | cancelled
  | killed
  | resourceLimited
  | idleTimeout
  deriving DecidableEq

def CompletionReason.value : CompletionReason → String
  | .success => "success"
  | .timeout => "timeout"
  | .failed => "failed"
  | .cancelled => "cancelled"
  | .killed => "killed"
  | .resourceLimited => "resource_limited"
  | .idleTimeout => "idle_timeout"

/-- The states of a session once its process runs. -/
inductive SessionState where
  | running
  | cancelling
  | draining
  | completed
  | failed
  deriving DecidableEq

def SessionState.value : SessionState → String
  | .running => "running"
  | .cancelling => "cancelling"
  | .draining => "draining"
  | .completed => "completed"
  | .failed => "failed"

/-- What the executor reads of a `CommandResult`. -/
structure CommandResult where
  exitCode : Int
  stdoutBytes : Bytes
  stderrBytes : Bytes
  outputTruncated : Bool
  reason : CompletionReason
  error : Option PyJson
  deriving DecidableEq

structure Session where
  id : String
  state : SessionState := .running
  completionReason : Option CompletionReason := none
  cancellationSteps : Bool := false
  result : Option CommandResult := none
  deriving DecidableEq

/-- An error the monitor met: whether its code is one of a limit (`DRAIN_TIMEOUT`, `RESOURCE_LIMITED`), and its dictionary. -/
structure MonitorError where
  limit : Bool
  dict : PyJson
  deriving DecidableEq

/-- What the monitor of a session comes to next. -/
inductive MonitorEvent where
  | timedOut (idle : Bool)
  | exited
  | completed (returncode : Option Int) (stdout stderr : Bytes) (truncated : Bool) (error : Option MonitorError)

namespace Session

/-- The process is still there to be cancelled. -/
def live (s : Session) : Bool := s.state = .running || s.state = .cancelling

/-- A cancellation takes effect: none was begun, and the process is live. -/
def cancellable (s : Session) : Bool := !s.cancellationSteps && s.live

/-- `SessionManager.cancel`: a session that ended, or is being cancelled, is left; one whose output is drained raises. -/
def cancel (s : Session) : Except Exc Session :=
  if s.cancellationSteps || s.state = .completed || s.state = .failed then
    pure s
  else if s.live then
    pure { s with state := .cancelling, completionReason := some .cancelled, cancellationSteps := true }
  else
    throw (.error false "SharkRailError" ("Session " ++ s.id ++ " is " ++ s.state.value : String))

/-- The reason of a result: an error of the monitor first, then what ended the process, then its return code. -/
def resultReason (s : Session) (returncode : Option Int) : Option MonitorError → CompletionReason
  | some e => if e.limit then .resourceLimited else .failed
  | none => s.completionReason.getD (if returncode = some 0 then .success else .failed)

/-- The exit code of a result. -/
def resultExitCode (reason : CompletionReason) (returncode : Option Int) (error : Option MonitorError) : Int :=
  if reason = .timeout ∨ reason = .idleTimeout then 124
  else if error.isSome ∧ (returncode = none ∨ returncode = some 0) then 1
  else returncode.getD 1

/-- `_monitor`, up to its next event. A timeout is seen while the process is live and replaces the reason to end it. -/
def monitor (s : Session) : MonitorEvent → Session
  | .timedOut idle =>
    if s.live then
      { s with completionReason := some (if idle then .idleTimeout else .timeout), cancellationSteps := true }
    else s
  | .exited => if s.live then { s with state := .draining } else s
  | .completed returncode stdout stderr truncated error =>
    let reason := s.resultReason returncode error
    let result : CommandResult :=
      { exitCode := resultExitCode reason returncode error
        stdoutBytes := stdout
        stderrBytes := stderr
        outputTruncated := truncated
        reason
        error := error.map (·.dict) }
    if s.result.isSome || (error.isNone && s.state ≠ .draining) then s
    else { s with state := if error.isSome then .failed else .completed, result := some result }

end Session

/-- `_phase_for_result`. -/
def phaseForResult (reason : CompletionReason) (exitCode : Int) : JobPhase :=
  if reason = .success ∧ exitCode = 0 then .succeeded
  else if reason = .timeout ∨ reason = .idleTimeout then .timedOut
  else if reason = .cancelled then .canceled
  else .failed

end SharkRail
