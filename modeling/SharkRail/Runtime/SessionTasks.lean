import SharkRail.Lib.Machine
import SharkRail.Runtime.AppendOutput
import SharkRail.Runtime.Lifecycle

/-!
# The tasks of one session

What `SessionManager` runs on one session: the start that registers it, the monitor with its readers, cancellations, the other
operations under the lock of operations, disposals and the pruning of completed sessions, each cut at its awaits. What a backend does,
and which deadline passes first, is an input. An event is appended in the step that emits it: the lock of `emit` is not held over an
await, and what may follow the append is the recorder.
-/

namespace SharkRail

namespace Runtime

/-- Where `start` is, once the process runs: not yet registered, at the emit of the acceptance, at the later emits, or at its end. -/
inductive StartPc where
  | admitted
  | accepting
  | launching
  | done
  | failed
  deriving DecidableEq

/-- Where the monitor is; `failed` says that it has an error to report. -/
inductive MonitorPc where
  | absent
  | waiting
  | killing
  | exited
  | drainTimedOut
  | disposing (failed : Bool)
  | collecting (failed : Bool)
  | limited
  | reporting
  | done
  | raised
  deriving DecidableEq

/-- The monitor has moved the session to its terminal state. -/
def MonitorPc.terminal : MonitorPc → Bool
  | .reporting | .done => true
  | _ => false

/-- Where the task of a cancellation is: not yet run, inside `cancel_process` (after the last step it reported), at the cleanup after a
failure, or past its last emit. -/
inductive CancelPc where
  | created
  | escalating (last : Option CancellationStep)
  | cleaning
  | finishing (failed : Bool)
  deriving DecidableEq

/-- The cancellation will emit. -/
def CancelPc.emits : CancelPc → Bool
  | .escalating _ | .cleaning => true
  | .created | .finishing _ => false

/-- What holds the lock of operations: a cancellation, for the disposal that asked for it if one did, or another operation. -/
inductive Operation where
  | cancellation (pc : CancelPc) (owner : Option Nat)
  | other
  deriving DecidableEq

/-- Where a disposal is: at the lock for its cancellation, at the end of the cancellation, at the bounded wait for the monitor, at the
disposal of the backend, or at its end. `failed` says that the cancellation left an error to raise. -/
inductive DisposePc where
  | locking
  | cancelling
  | waiting (failed : Bool)
  | disposing (failed : Bool)
  | returned
  | raised (sharkRailError : Bool)
  deriving DecidableEq

/-- A session and the tasks on it. `invalid` says that some transition was refused. -/
structure SessionTasks where
  state : SessionState := .created
  registered : Bool := false
  disposedListed : Bool := false
  completedAt : Bool := false
  events : List LifecycleEventType := []
  cancellationSteps : List CancellationStep := []
  start : StartPc := .admitted
  monitor : MonitorPc := .absent
  readers : List OutputStream := []
  operation : Option Operation := none
  abandoned : List (Option CancellationStep) := []
  disposals : List DisposePc := []
  invalid : Bool := false

/-- How the backend ended its disposal. -/
inductive BackendOutcome where
  | returned
  | timedOut
  | raised
  deriving DecidableEq

inductive SessionInput where
  | accept
  | launch
  | degraded
  | startEnds (readers : List OutputStream)
  | startFails
  | processExits
  | deadline
  | monitorFails
  | drained
  | drainTimesOut
  | drainKilled
  | backendDisposed (outcome : BackendOutcome)
  | collected (resourceHit : Bool)
  | limitReported
  | completes
  | reads (stream : OutputStream) (kind : LifecycleEventType)
  | readerEnds (stream : OutputStream)
  | cancel
  | operate (kind : Option LifecycleEventType)
  | operationEnds
  | cancellationBegins
  | policyRefused
  | escalates (step : CancellationStep)
  | cancelReturns
  | cancelFails (abandons : Bool)
  | cleanedUp
  | cancellationEnds
  | abandonedEscalates (i : Nat) (step : CancellationStep)
  | abandonedEnds (i : Nat)
  | dispose
  | disposeLocks (i : Nat)
  | waitEnds (i : Nat)
  | disposalEnds (i : Nat) (outcome : BackendOutcome)
  | prune
  deriving DecidableEq

namespace SessionTasks

def emit (kind : LifecycleEventType) (s : SessionTasks) : SessionTasks := { s with events := s.events ++ [kind] }

/-- `Session.transition`: `none` where it raises `InvalidTransition`. -/
def transition (target : SessionState) (s : SessionTasks) : Option SessionTasks :=
  if target ∈ s.state.transitions then some { s with state := target } else none

/-- `InvalidTransition` was raised. -/
def refused (s : SessionTasks) : SessionTasks := { s with invalid := true }

/-! ## The start -/

/-- The start fails: the session is taken back. -/
def abandonStart (s : SessionTasks) : SessionTasks := { s with registered := false, start := .failed }

def accept (s : SessionTasks) : SessionTasks :=
  match { s with registered := true }.transition .accepted with
  | some s => { s.emit .accepted with start := .accepting }
  | none => s.refused.abandonStart

def launch (s : SessionTasks) : SessionTasks :=
  match s.transition .starting with
  | some s =>
    match s.transition .running with
    | some s => { s.emit .processStarted with start := .launching }
    | none => s.refused.abandonStart
  | none => s.refused.abandonStart

/-! ## The monitor -/

/-- The step of killing the tree is reported, unless it was. -/
def reportKillTree (s : SessionTasks) : SessionTasks :=
  if CancellationStep.killTree ∈ s.cancellationSteps then s
  else { s with cancellationSteps := s.cancellationSteps ++ [CancellationStep.killTree] }.emit .cancellationStep

/-- The process has exited: the session drains. -/
def processExited (s : SessionTasks) : SessionTasks :=
  let exiting := if s.state = .running then s.transition .exiting else some s
  match exiting.bind fun s => s.transition .draining with
  | some s => { s.emit .processExited with monitor := .exited }
  | none => { s.refused with monitor := .disposing true }

/-- The error of the monitor is reported. -/
def reportError (s : SessionTasks) : SessionTasks :=
  if s.state.terminal then { s.emit .sessionError with monitor := .reporting }
  else
    match s.transition .failed with
    | some s => { s.emit .sessionError with monitor := .reporting }
    | none => { s.refused with monitor := .raised }

/-- The result is there, and the last event is emitted. -/
def completeSession (s : SessionTasks) : SessionTasks := { s with completedAt := true, monitor := .done }.emit .sessionCompleted

/-- The readers are gathered. -/
def afterReaders (failed resourceHit : Bool) (s : SessionTasks) : SessionTasks :=
  if failed then s.reportError
  else if resourceHit then { s.emit .resourceLimitHit with monitor := .limited }
  else
    match s.transition .completed with
    | some s => s.completeSession
    | none => { s.refused with monitor := .raised }

def stepMonitor (s : SessionTasks) : SessionInput → SessionTasks
  | .processExits =>
    match s.monitor with
    | .waiting | .killing => s.processExited
    | _ => s
  | .deadline => if s.monitor = .waiting then { s.reportKillTree with monitor := .killing } else s
  | .monitorFails =>
    match s.monitor with
    | .waiting | .killing | .exited | .drainTimedOut => { s with monitor := .disposing true }
    | _ => s
  | .drained => if s.monitor = .exited ∧ s.readers = [] then { s.emit .sessionDrained with monitor := .disposing false } else s
  | .drainTimesOut =>
    if s.monitor = .exited then { (s.emit .resourceLimitHit).reportKillTree with monitor := .drainTimedOut } else s
  | .drainKilled => if s.monitor = .drainTimedOut then { s with monitor := .disposing true } else s
  | .backendDisposed outcome =>
    match s.monitor with
    | .disposing failed => { s with monitor := .collecting (failed || outcome ≠ .returned) }
    | _ => s
  | .collected resourceHit =>
    match s.monitor with
    | .collecting failed => if s.readers = [] then s.afterReaders failed resourceHit else s
    | _ => s
  | .limitReported => if s.monitor = .limited then s.reportError else s
  | .completes => if s.monitor = .reporting then s.completeSession else s
  | _ => s

/-! ## Readers -/

/-- The events that a reader emits for its stream. -/
def readerEvents : OutputStream → List LifecycleEventType
  | .stdout => [.stdout, .resourceLimitHit, .outputTruncated]
  | .stderr => [.stderr, .resourceLimitHit, .outputTruncated]
  | .pty => [.ptyOutput, .resourceLimitHit, .outputTruncated]

def stepReaders (s : SessionTasks) : SessionInput → SessionTasks
  | .reads stream kind => if stream ∈ s.readers ∧ kind ∈ readerEvents stream then s.emit kind else s
  | .readerEnds stream => { s with readers := s.readers.filter (· ≠ stream) }
  | _ => s

/-! ## Operations -/

def setDisposal (i : Nat) (pc : DisposePc) (s : SessionTasks) : SessionTasks := { s with disposals := s.disposals.set i pc }

/-- A cancellation has ended and releases the lock. A disposal that asked for it goes on to its wait, which looks the session up and
ends at once when it has no monitor. -/
def endCancellation (failed : Bool) (owner : Option Nat) (s : SessionTasks) : SessionTasks :=
  let s := { s with operation := none }
  match owner with
  | none => s
  | some i =>
    s.setDisposal i
      (if !s.registered then .raised true else if s.monitor = .absent then .disposing failed else .waiting failed)

/-- `_cancel_locked`, up to `cancel_process`. A session that is not active, or not there, is refused; that is an error to keep unless
it is the state. -/
def beginCancellation (owner : Option Nat) (s : SessionTasks) : SessionTasks :=
  if s.cancellationSteps ≠ [] ∨ s.state.terminal then s.endCancellation false owner
  else if !s.registered then s.endCancellation true owner
  else if !s.state.active then s.endCancellation false owner
  else
    let escalating := some (Operation.cancellation (.escalating none) owner)
    if s.state = .running then
      match s.transition .cancelling with
      | some s => { s with operation := escalating }
      | none => s.refused.endCancellation true owner
    else { s with operation := escalating }

/-- `_cancel_locked` with a policy that is not valid: it returns before it reads the policy, or raises. -/
def refusePolicy (s : SessionTasks) : SessionTasks := s.endCancellation (s.cancellationSteps = [] ∧ !s.state.terminal) none

/-- `report_step`. -/
def reportStep (step : CancellationStep) (s : SessionTasks) : SessionTasks :=
  { s with cancellationSteps := s.cancellationSteps ++ [step] }.emit .cancellationStep

def stepOperations (s : SessionTasks) : SessionInput → SessionTasks
  | .cancel => if s.operation = none then { s with operation := some (.cancellation .created none) } else s
  | .operate kind =>
    if s.registered ∧ s.operation = none ∧ s.state.active ∧ kind ∈ [none, some .cancellationStep, some .resourceLimitHit] then
      match kind with
      | some kind => { s.emit kind with operation := some .other }
      | none => { s with operation := some .other }
    else s
  | .operationEnds => if s.operation = some .other then { s with operation := none } else s
  | .cancellationBegins =>
    match s.operation with
    | some (.cancellation .created owner) => s.beginCancellation owner
    | _ => s
  | .policyRefused =>
    -- A disposal asks with a policy of its own, which is valid.
    match s.operation with
    | some (.cancellation .created none) => s.refusePolicy
    | _ => s
  | .escalates step =>
    match s.operation with
    | some (.cancellation (.escalating last) owner) =>
      if step ∈ CancellationStep.following last then
        { s.reportStep step with operation := some (.cancellation (.escalating (some step)) owner) }
      else s
    | _ => s
  | .cancelReturns =>
    match s.operation with
    | some (.cancellation (.escalating _) owner) =>
      { s.emit .cancellationCompleted with operation := some (.cancellation (.finishing false) owner) }
    | _ => s
  | .cancelFails abandons =>
    match s.operation with
    | some (.cancellation (.escalating last) owner) =>
      let s := if abandons then { s with abandoned := s.abandoned ++ [last] } else s
      { s.reportKillTree with operation := some (.cancellation .cleaning owner) }
    | _ => s
  | .cleanedUp =>
    match s.operation with
    | some (.cancellation .cleaning owner) =>
      { s.emit .cancellationCompleted with operation := some (.cancellation (.finishing true) owner) }
    | _ => s
  | .cancellationEnds =>
    match s.operation with
    | some (.cancellation (.finishing failed) owner) => s.endCancellation failed owner
    | _ => s
  | .abandonedEscalates i step =>
    match s.abandoned[i]? with
    | some last =>
      if step ∈ CancellationStep.following last then { s.reportStep step with abandoned := s.abandoned.set i (some step) } else s
    | none => s
  | .abandonedEnds i => { s with abandoned := s.abandoned.eraseIdx i }
  | _ => s

/-! ## Disposals -/

/-- `dispose`, up to its first await. -/
def dispose (s : SessionTasks) : SessionTasks :=
  let pc : DisposePc :=
    if s.disposedListed then .returned
    else if !s.registered then .raised true
    else if s.state.terminal ∨ s.state = .disposed then .disposing false
    else .locking
  { s with disposals := s.disposals ++ [pc] }

/-- `dispose`, once its backend is disposed of. -/
def disposed (i : Nat) (failed : Bool) (s : SessionTasks) : SessionTasks :=
  let ended := { s with registered := false, disposedListed := true }.setDisposal i (if failed then .raised true else .returned)
  if s.state = .disposed then ended
  else
    match s.transition .disposed with
    | some _ => { ended with state := .disposed }
    | none => s.refused.setDisposal i (.raised false)

def stepDisposals (s : SessionTasks) : SessionInput → SessionTasks
  | .dispose => s.dispose
  | .disposeLocks i =>
    match s.disposals[i]? with
    | some .locking =>
      if s.operation = none then { s with operation := some (.cancellation .created (some i)) }.setDisposal i .cancelling else s
    | _ => s
  | .waitEnds i =>
    match s.disposals[i]? with
    | some (.waiting failed) => s.setDisposal i (if s.monitor = .raised then .raised false else .disposing failed)
    | _ => s
  | .disposalEnds i outcome =>
    match s.disposals[i]? with
    | some (.disposing failed) =>
      match outcome with
      | .returned => s.disposed i failed
      | .timedOut => s.setDisposal i (.raised true)
      | .raised => s.setDisposal i (.raised false)
    | _ => s
  | .prune =>
    if s.state.terminal ∧ s.completedAt ∧ s.registered then
      match s.transition .disposed with
      | some s => { s with registered := false }
      | none => s.refused
    else s
  | _ => s

def stepStart (s : SessionTasks) : SessionInput → SessionTasks
  | .accept => if s.start = .admitted then s.accept else s
  | .launch => if s.start = .accepting then s.launch else s
  | .degraded => if s.start = .launching then s.emit .capabilityDegraded else s
  | .startEnds readers => if s.start = .launching then { s with start := .done, monitor := .waiting, readers } else s
  | .startFails =>
    match s.start with
    | .accepting | .launching => s.abandonStart
    | _ => s
  | _ => s

/-- One step of one task. -/
def step (s : SessionTasks) (input : SessionInput) : SessionTasks :=
  match input with
  | .accept | .launch | .degraded | .startEnds _ | .startFails => s.stepStart input
  | .processExits | .deadline | .monitorFails | .drained | .drainTimesOut | .drainKilled | .backendDisposed _ | .collected _
  | .limitReported | .completes => s.stepMonitor input
  | .reads .. | .readerEnds _ => s.stepReaders input
  | .cancel | .operate _ | .operationEnds | .cancellationBegins | .policyRefused | .escalates _ | .cancelReturns | .cancelFails _
  | .cleanedUp | .cancellationEnds | .abandonedEscalates .. | .abandonedEnds _ => s.stepOperations input
  | .dispose | .disposeLocks _ | .waitEnds _ | .disposalEnds .. | .prune => s.stepDisposals input

end SessionTasks

end Runtime

end SharkRail
