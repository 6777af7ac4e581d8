import SharkRail.Service.Session

/-!
# The execution of a job

`_execute_job`, call by call. `Pc` says which call comes next, and `resume` where the execution goes on with the reply of that call
or with what it raised: through the retries, the two handlers and the `finally` block. What the calls do to the service is in
`Service.perform`.
-/

namespace SharkRail

/-- Who asks a session to be cancelled: a request, or the shutdown of the service. -/
inductive Origin where
  | request
  | shutdown
  deriving DecidableEq

/-- A callback in the loop of a run, from another thread: `start_task.cancel`, or `manager.cancel(session_id)`. -/
inductive Callback where
  | cancelStart (origin : Origin)
  | cancelSession (origin : Origin)
  deriving DecidableEq

/-- Where `finish` is called: before the start, once, or with retries, for a result or in a handler. -/
inductive Settling where
  | early
  | result
  | handler
  deriving DecidableEq

/-- The call that an execution makes next. `cancelling` is the first step of `manager.cancel` in the loop; what it waits for after that
is part of `waiting`. -/
inductive Pc where
  | checkStop
  | checkStore
  | settling (settling : Settling) (report : Store.Report) (attempt : Nat)
  | createTask
  | register
  | checkStopAgain
  | starting
  | publish
  | recheck
  | markRunning (cancelRequested : Bool)
  | signal (cancelRequested : Bool)
  | cancelling (cancelRequested : Bool)
  | waiting
  | writing (result : CommandResult)
  | disposing
  | discarding (raised : Exc)
  | readIntent
  | popping
  | shuttingDown
  | executionDone
  | done
  deriving DecidableEq

/-- The execution is inside the `with self._active_lock` that publishes its session. -/
def Pc.holdsLock : Pc → Bool
  | .recheck | .markRunning _ => true
  | _ => false

/-- The loop of the execution runs. -/
def Pc.loopRuns : Pc → Bool
  | .starting | .cancelling _ | .waiting | .disposing | .shuttingDown => true
  | _ => false

/-- An execution of a claimed job, with the run it registers: `published` says that the run has its `session_id`. `cancelCalled`,
`interrupted`, `failed` and `persisted` are what happened to it: `SessionManager.cancel` was called with its session, a shutdown
stopped it, it caught an exception, and a `finish` of it returned. -/
structure Execution where
  job : JobRecord
  attempt : Uuid
  pc : Pc := .checkStop
  registered : Bool := false
  outputPaths : Option (String × String) := none
  startCancelled : Bool := false
  session : Option Session := none
  published : Bool := false
  callbacks : List Callback := []
  cancelCalled : Bool := false
  interrupted : Bool := false
  failed : Bool := false
  persisted : Bool := false
  deriving DecidableEq

/-- What a call returns. -/
inductive Reply where
  | unit
  | flag (value : Bool)
  | session (session : Session)
  | result (result : Option CommandResult)
  | paths (stdoutPath stderrPath : String)
  deriving DecidableEq

/-! ## What an execution reports -/

def shutdownBeforeStart : Store.Report :=
  ⟨.executorLost, none, "service_shutdown_before_start", none, none, none, 0, 0, false⟩

def cancelledBeforeStart : Store.Report := ⟨.canceled, none, "cancelled_before_start", none, none, none, 0, 0, false⟩

def interruptedReport (cancelled : Bool) : Store.Report :=
  ⟨if cancelled then .canceled else .executorLost, none,
    if cancelled then "cancelled" else "service_shutdown_during_start", none, none, none, 0, 0, false⟩

def failureReport (type : String) (message : PyStr) : Store.Report :=
  ⟨.failed, some 1, "executor_error", some (.obj [("message", .str message), ("type", .str type)]), none, none, 0, 0, false⟩

def resultReport (result : CommandResult) (stdoutPath stderrPath : String) : Store.Report :=
  { phase := phaseForResult result.reason result.exitCode
    exitCode := some result.exitCode
    reason := result.reason.value
    error := result.error
    stdoutPath := some stdoutPath
    stderrPath := some stderrPath
    stdoutBytes := result.stdoutBytes.length
    stderrBytes := result.stderrBytes.length
    outputTruncated := result.outputTruncated }

namespace Execution

/-- An exception of the body: the handlers begin with the output. -/
def raised (e : Execution) (x : Exc) : Execution :=
  { e with pc := .discarding x, failed := e.failed || x ≠ .cancelledError }

/-- The `finally` block, which removes the run if it was registered. -/
def leave (e : Execution) : Execution := { e with pc := if e.registered then .popping else .shuttingDown }

/-- After the output was discarded: the cancelled start is looked into, another exception is reported. -/
def handle (e : Execution) : Exc → Execution
  | .cancelledError => { e with pc := .readIntent }
  | .error _ type message => { e with pc := .settling .handler (failureReport type message) 0 }

/-- An exception is one that `except Exception` catches. -/
def caught : Exc → Bool
  | .cancelledError => false
  | .error .. => true

/-- The session after `SessionManager.cancel` was called with it and returned. -/
def cancelSession (e : Execution) (session : Session) (origin : Origin) : Execution :=
  { e with
    session := some session
    cancelCalled := true
    interrupted := e.interrupted || (origin = .shutdown && e.session.any (·.cancellable)) }

/-- The execution goes on after a call returned. -/
def proceed (e : Execution) (reply : Reply) : Execution :=
  match e.pc, reply with
  | .checkStop, .flag true => { e with pc := .settling .early shutdownBeforeStart 0, interrupted := true }
  | .checkStop, _ => { e with pc := .checkStore }
  | .checkStore, .flag true => { e with pc := .settling .early cancelledBeforeStart 0 }
  | .checkStore, _ => { e with pc := .createTask }
  | .createTask, _ => { e with pc := .register }
  | .register, _ => { e with pc := .checkStopAgain, registered := true }
  | .checkStopAgain, .flag stop =>
    { e with pc := .starting, startCancelled := stop, interrupted := e.interrupted || stop }
  | .starting, .session session => { e with pc := .publish, session := some session }
  | .publish, .flag own => { e with pc := .recheck, published := e.published || own }
  | .recheck, .flag cancelRequested => { e with pc := .markRunning cancelRequested }
  | .markRunning cancelRequested, _ => { e with pc := .signal cancelRequested }
  | .signal cancelRequested, .flag true => { e with pc := .cancelling cancelRequested }
  | .signal _, _ => { e with pc := .waiting }
  | .cancelling cancelRequested, .session session =>
    { e.cancelSession session (if cancelRequested then .request else .shutdown) with pc := .waiting }
  | .waiting, .result (some result) => { e with pc := .writing result }
  | .waiting, _ => e.raised (.error false "RuntimeError" "session ended without a result")
  | .writing result, .paths stdoutPath stderrPath =>
    { e with
      pc := .settling .result (resultReport result stdoutPath stderrPath) 0
      outputPaths := some (stdoutPath, stderrPath) }
  | .settling .result _ _, _ => { e with pc := .disposing, outputPaths := none, persisted := true }
  | .settling _ _ _, _ => { e with persisted := true }.leave
  | .disposing, _ => e.leave
  | .discarding x, _ => e.handle x
  | .readIntent, .flag cancelled => { e with pc := .settling .handler (interruptedReport cancelled) 0 }
  | .popping, _ => { e with pc := .shuttingDown }
  | .shuttingDown, _ => { e with pc := .executionDone }
  | .executionDone, _ => { e with pc := .done }
  | _, _ => e

/-- The execution goes on after a call raised. `_finish_with_retries` calls `finish` three times; in a handler, what it raises in the
end is logged. An `OSError` of the discarding is logged too, and another exception leaves the handler. -/
def fail (e : Execution) (x : Exc) : Execution :=
  match e.pc with
  | .settling .early _ _ => e.raised x
  | .settling .result report attempt =>
    if caught x && attempt < 2 then { e with pc := .settling .result report (attempt + 1) } else e.raised x
  | .settling .handler report attempt =>
    if caught x && attempt < 2 then { e with pc := .settling .handler report (attempt + 1) } else e.leave
  | .discarding y =>
    match x with
    | .error true _ _ => e.handle y
    | _ => e.leave
  | .readIntent => e.leave
  | .popping => { e with pc := .shuttingDown }
  | .shuttingDown => { e with pc := .executionDone }
  | .executionDone | .done => { e with pc := .done }
  | _ => e.raised x

/-- The execution goes on with what a call returned, or raised. -/
def resume (e : Execution) : Except Exc Reply → Execution
  | .ok reply => e.proceed reply
  | .error x => e.fail x

/-- A callback runs in the loop: the cancellation of a start that is done does nothing, what the cancellation of a session raises
goes to its caller. -/
def callback (e : Execution) : Callback → Execution
  | .cancelStart origin =>
    if e.pc = .starting then
      { e with startCancelled := true, interrupted := e.interrupted || origin = .shutdown }
    else e
  | .cancelSession origin =>
    match e.session with
    | some session =>
      match session.cancel with
      | .ok session => e.cancelSession session origin
      | .error _ => { e with cancelCalled := true }
    | none => e

end Execution

end SharkRail
