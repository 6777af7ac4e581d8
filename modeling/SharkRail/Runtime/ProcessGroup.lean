import SharkRail.Lib.Machine
import SharkRail.Runtime.Lifecycle

/-!
# The process group of a session

The signals that a session sends to the group of its process: `interrupt`, `terminate`, `kill_tree` and `dispose` of the POSIX backends,
which the pipe and the PTY backend have alike, `cancel_process` with the handler around it, the monitor, and the disposal of the session,
against what the system does to the group. The id of a group may be given to a new one once its leader was reaped and it has no members.

A method of the backend has no await between its check and its `killpg`, so it is one step; the system acts between any two steps. That
the event loop has reaped the root and that it knows its return code are two events.
-/

namespace SharkRail

namespace Runtime

/-! ## The system -/

inductive Leader where
  | running
  | zombie
  | reaped
  deriving DecidableEq

/-- The group that the start of the session created: its leader, and how many other members it has. `foreign` says that its id is the
id of another group now. -/
structure ProcessGroup where
  leader : Leader := .running
  descendants : Nat := 0
  foreign : Bool := false
  deriving DecidableEq

inductive SystemEvent where
  | fork
  | rootExit
  | descendantExit
  | reap
  | reuse
  | foreignExit
  deriving DecidableEq

/-- Whom a signal to the group reaches. -/
inductive Target where
  | own
  | foreign
  | nobody
  deriving DecidableEq

namespace ProcessGroup

/-- The id is still taken: the leader was not reaped, or there are other members. -/
def occupied (group : ProcessGroup) : Bool := group.leader ≠ .reaped || 0 < group.descendants

def step (group : ProcessGroup) : SystemEvent → ProcessGroup
  | .fork =>
    if group.leader = .running ∨ 0 < group.descendants then { group with descendants := group.descendants + 1 } else group
  | .rootExit => if group.leader = .running then { group with leader := .zombie } else group
  | .descendantExit => { group with descendants := group.descendants - 1 }
  | .reap => if group.leader = .zombie then { group with leader := .reaped } else group
  | .reuse => if group.occupied then group else { group with foreign := true }
  | .foreignExit => { group with foreign := false }

def target (group : ProcessGroup) : Target :=
  if group.occupied then .own else if group.foreign then .foreign else .nobody

end ProcessGroup

/-! ## The session -/

inductive PosixSignal where
  | sigint
  | sigterm
  | sigkill
  deriving DecidableEq

/-- What `killpg` raises. -/
inductive KillError where
  | processLookupError
  | permissionError
  deriving DecidableEq

/-- Where the one `cancel_process` of the session is: a step is reported, and then taken; `escalated` says that the exit is awaited after
`kill_tree`, and `cleaning` that the handler around it has still to kill the tree. -/
inductive Canceller where
  | idle
  | begun (skipInterrupt : Bool)
  | reported (step : CancellationStep) (escalated : Bool)
  | awaiting (step : CancellationStep)
  | cleaning
  | over
  deriving DecidableEq

/-- Where the monitor is: it waits for the exit or a timeout, kills the tree after one, drains the output, kills the tree if that takes
too long, disposes of the backend, and awaits that disposal. `failed` says that it has an error. -/
inductive Monitor where
  | waiting
  | killing
  | awaitingExit
  | draining
  | drainKilling
  | disposing (failed : Bool)
  | awaitingDisposal (failed : Bool)
  | over
  deriving DecidableEq

/-- What a task of the session comes to: its next call, which may be refused or raise, the exit of the process, the end of a grace period,
or the deadline of what it is inside. -/
inductive TaskEvent where
  | proceed (refused : Bool)
  | exited
  | expired
  | deadline
  deriving DecidableEq

/-- A session with its process, and its state up to the end of the monitor. `returncode` says that the handle has one; `interrupts` is how
many calls of `SessionManager.interrupt` passed their check and have not signalled yet; `signals` is every `killpg`, with whom it reached.
-/
structure SessionProcess where
  group : ProcessGroup := {}
  state : SessionState := .running
  returncode : Bool := false
  treeKilled : Bool := false
  disposed : Bool := false
  disposeTask : Bool := false
  cancellationSteps : List CancellationStep := []
  interrupts : Nat := 0
  canceller : Canceller := .idle
  monitor : Monitor := .waiting
  signals : List (PosixSignal × Target) := []
  deriving DecidableEq

inductive SessionProcessInput where
  | system (event : SystemEvent)
  | notice
  | interrupt
  | deliverInterrupt (refused : Bool)
  | cancel (skipInterrupt : Bool)
  | canceller (event : TaskEvent)
  | monitor (event : TaskEvent)
  | dispose (refused : Bool)
  deriving DecidableEq

namespace SessionProcess

/-- `os.killpg`. -/
def killpg (signal : PosixSignal) (refused : Bool) (s : SessionProcess) : Except KillError Unit × SessionProcess :=
  let target := s.group.target
  let s := { s with signals := s.signals ++ [(signal, target)] }
  if target = .nobody then (.error .processLookupError, s)
  else if refused then (.error .permissionError, s)
  else (.ok (), s)

/-- `interrupt` of a backend. -/
def interrupt (refused : Bool) (s : SessionProcess) : Except KillError Unit × SessionProcess :=
  if s.returncode then (.ok (), s) else s.killpg .sigint refused

/-- `terminate` of a backend. -/
def terminate (refused : Bool) (s : SessionProcess) : Except KillError Unit × SessionProcess :=
  if s.returncode then (.ok (), s) else s.killpg .sigterm refused

/-- `kill_tree` of a backend, which does not ask whether the process has exited. -/
def killTree (refused : Bool) (s : SessionProcess) : Except KillError Unit × SessionProcess :=
  if s.treeKilled then (.ok (), s)
  else
    match s.killpg .sigkill refused with
    | (.error .permissionError, s) => (.error .permissionError, s)
    | (_, s) => (.ok (), { s with treeKilled := true })

/-- `dispose` of a backend, as far as it signals. -/
def dispose (refused : Bool) (s : SessionProcess) : Except KillError Unit × SessionProcess :=
  if s.disposed then (.ok (), s)
  else
    match s.killTree refused with
    | (.ok (), s) => (.ok (), { s with disposed := true })
    | (.error e, s) => (.error e, s)

/-- `_dispose_session_backend`: the backend is disposed of by one task. -/
def disposeSessionBackend (refused : Bool) (s : SessionProcess) : SessionProcess :=
  if s.disposed || s.disposeTask then s else ({ s with disposeTask := true }.dispose refused).2

/-! ## Cancellation -/

/-- The step that `cancel_process` takes next is reported. -/
def report (step : CancellationStep) (escalated : Bool) (s : SessionProcess) : SessionProcess :=
  { s with cancellationSteps := s.cancellationSteps ++ [step], canceller := .reported step escalated }

/-- The step that is not in `cancellation_steps` yet. -/
def reportKillTree (s : SessionProcess) : SessionProcess :=
  if .killTree ∈ s.cancellationSteps then s else { s with cancellationSteps := s.cancellationSteps ++ [.killTree] }

def take (step : CancellationStep) (refused : Bool) (s : SessionProcess) : Except KillError Unit × SessionProcess :=
  match step with
  | .interrupt => s.interrupt refused
  | .terminate => s.terminate refused
  | .killTree => s.killTree refused

/-- `cancel_process` in `_cancel_locked`, step by step. -/
def cancelProcess (event : TaskEvent) (s : SessionProcess) : SessionProcess :=
  match s.canceller, event with
  | .begun skipInterrupt, .proceed _ =>
    if s.returncode then s.report .killTree false
    else if skipInterrupt then s.report .terminate false
    else s.report .interrupt false
  | .reported step escalated, .proceed refused =>
    match s.take step refused with
    | (.error _, s) => { s with canceller := .cleaning }
    | (.ok (), s) => { s with canceller := if step = .killTree ∧ escalated = false then .over else .awaiting step }
  | .awaiting step, .exited =>
    if !s.returncode then s
    else if step = .killTree then { s with canceller := .over }
    else s.report .killTree false
  | .awaiting .interrupt, .expired => s.report .terminate false
  | .awaiting .terminate, .expired => s.report .killTree true
  | .awaiting .killTree, .expired => { s with canceller := .cleaning }
  | .begun _, .deadline | .reported _ _, .deadline | .awaiting _, .deadline => { s with canceller := .cleaning }
  | .cleaning, .proceed refused => { (s.reportKillTree.killTree refused).2 with canceller := .over }
  | .cleaning, .deadline => { s with canceller := .over }
  | _, _ => s

/-! ## The monitor -/

/-- `_monitor`, as far as it signals. -/
def monitorStep (event : TaskEvent) (s : SessionProcess) : SessionProcess :=
  match s.monitor, event with
  | .waiting, .exited | .awaitingExit, .exited => if s.returncode then { s with state := .draining, monitor := .draining } else s
  | .waiting, .expired => { s.reportKillTree with monitor := .killing }
  | .killing, .proceed refused =>
    match s.killTree refused with
    | (.ok (), s) => { s with monitor := .awaitingExit }
    | (.error _, s) => { s with monitor := .disposing true }
  -- an error leaves the state as it is until the backend is disposed of
  | .waiting, .deadline | .killing, .deadline | .awaitingExit, .expired | .drainKilling, .deadline =>
    { s with monitor := .disposing true }
  | .draining, .proceed failed => { s with monitor := .disposing failed }
  | .draining, .expired => { s.reportKillTree with monitor := .drainKilling }
  | .drainKilling, .proceed refused => { (s.killTree refused).2 with monitor := .disposing true }
  | .disposing failed, .proceed refused => { s.disposeSessionBackend refused with monitor := .awaitingDisposal failed }
  | .awaitingDisposal failed, .proceed raised =>
    { s with state := if failed || raised then .failed else .completed, monitor := .over }
  | .awaitingDisposal _, .expired => { s with state := .failed, monitor := .over }
  | _, _ => s

def step (s : SessionProcess) : SessionProcessInput → SessionProcess
  | .system event => { s with group := s.group.step event }
  | .notice => if s.group.leader = .reaped then { s with returncode := true } else s
  | .interrupt => if s.state.active then { s with interrupts := s.interrupts + 1 } else s
  | .deliverInterrupt refused =>
    if s.interrupts = 0 then s else ({ s with interrupts := s.interrupts - 1 }.interrupt refused).2
  | .cancel skipInterrupt =>
    if s.state.active && s.cancellationSteps = [] && s.canceller = .idle then
      { s with state := .cancelling, canceller := .begun skipInterrupt }
    else s
  | .canceller event => s.cancelProcess event
  | .monitor event => s.monitorStep event
  | .dispose refused => s.disposeSessionBackend refused

end SessionProcess

end Runtime

end SharkRail
