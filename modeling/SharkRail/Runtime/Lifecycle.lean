/-!
# Lifecycle of a session

The states of a session, the transitions that `SessionLifecycle.transition` allows, and the kinds of its events.
-/

namespace SharkRail

namespace Runtime

inductive SessionState where
  | created
  | accepted
  | starting
  | running
  | exiting
  | cancelling
  | draining
  | completed
  | failed
  | canceled
  | disposed
  deriving DecidableEq

/-- `_TRANSITIONS`: the states that may follow. -/
def SessionState.transitions : SessionState → List SessionState
  | .created => [.accepted, .running, .failed]
  | .accepted => [.starting, .failed]
  | .starting => [.running, .failed]
  | .running => [.exiting, .cancelling, .draining, .completed, .canceled, .failed]
  | .exiting => [.draining, .failed]
  | .cancelling => [.draining, .failed]
  | .draining => [.completed, .failed]
  | .completed => [.disposed]
  | .failed => [.disposed]
  | .canceled => [.disposed]
  | .disposed => []

/-- A session that a process still belongs to, for the operations on it: `_require_active`. -/
def SessionState.active : SessionState → Bool
  | .running | .cancelling => true
  | _ => false

/-- A session that has its result. -/
def SessionState.terminal : SessionState → Bool
  | .completed | .failed => true
  | _ => false

/-- The kinds of events that a session emits. -/
inductive LifecycleEventType where
  | accepted
  | processStarted
  | stdout
  | stderr
  | ptyOutput
  | outputTruncated
  | processExited
  | sessionDrained
  | sessionCompleted
  | sessionError
  | cancellationStep
  | cancellationCompleted
  | resourceLimitHit
  | capabilityDegraded
  deriving DecidableEq

inductive CancellationStep where
  | interrupt
  | terminate
  | killTree
  deriving DecidableEq

/-- The steps that `cancel_process` may report next. -/
def CancellationStep.following : Option CancellationStep → List CancellationStep
  | none => [.interrupt, .terminate, .killTree]
  | some .interrupt => [.terminate, .killTree]
  | some .terminate => [.killTree]
  | some .killTree => []

end Runtime

end SharkRail
