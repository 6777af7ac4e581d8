import Mathlib
import SharkRail.Service.Master
import SharkRail.Service.Ownership

/-!
# The loop of the control process

`ControlMaster.run` with `_terminate_worker` and `_finish_ownership_generation`, one action of its main thread at a time, beside the Worker
that it supervises, the handler of its signals and the clock. A Worker that was sent `SIGKILL` does nothing any more, also where the
control process stops waiting for it. The control process is the one of a POSIX host.
-/

namespace SharkRail

namespace Service

namespace Master

open Ownership

/-- The settings that the loop reads; `maxRecords` is the number of workers of the executor. -/
structure ControlSettings where
  workerProgressTimeoutSeconds : ℤ
  workerDrainTimeoutSeconds : ℤ
  workerRestartLimit : ℤ
  workerRestartWindowSeconds : ℤ
  maxRecords : ℕ

/-- The registry that the control process keeps of a Worker. -/
def ControlSettings.registry (settings : ControlSettings) : Registry := { maxRecords := settings.maxRecords }

/-- What a Worker sends of its health: an age that is no number is `none`. -/
structure Heartbeat where
  ready : Bool
  controllerProgressAge : Option PyFloat
  notificationProgressAge : Option PyFloat

/-- The Worker is ready, and its controller and its notifications have made progress. -/
def Heartbeat.progresses (limit : ℤ) (heartbeat : Heartbeat) : Bool :=
  heartbeat.ready && heartbeat.controllerProgressAge.any (·.leInt limit) && heartbeat.notificationProgressAge.any (·.leInt limit)

/-! ## The cleanup -/

/-- What the operating system answers of processes and of groups: `killpg(pgid, 0)` returns. -/
structure GroupHost extends Ownership.Host where
  killpgReturns : ℤ → Bool

/-- `_owned_process_group_is_current`. -/
def ownedProcessGroupIsCurrent (host : GroupHost) (process : OwnershipRecord) : Bool :=
  match process.pgid with
  | none => false
  | some pgid =>
    if pgid ≤ 0 then false
    else
      match host.processBirthIdentity process.pid with
      | some currentIdentity => currentIdentity = process.birthIdentity
      | none => host.killpgReturns pgid

/-- The group that `_cleanup_orphan_processes` sends `SIGKILL` for one record. -/
def orphanedGroup (host : GroupHost) (process : OwnershipRecord) : Option ℤ :=
  if process.pid ≤ 0 then none
  else
    match process.pgid with
    | none => none
    | some pgid =>
      if process.processTree ≠ .processGroup ∨ pgid ≤ 0 ∨ !ownedProcessGroupIsCurrent host process then none else some pgid

/-- `_cleanup_orphan_processes`: the groups that are sent `SIGKILL`, where the host answers for each record anew. -/
def cleanupOrphanProcesses : List OwnershipRecord → (ℕ → GroupHost) → List ℤ
  | [], _ => []
  | process :: processes, hosts => (orphanedGroup (hosts 0) process).toList ++ cleanupOrphanProcesses processes fun k => hosts (k + 1)

/-! ## The state -/

/-- A Worker with what the control process holds of it, when it was sent `SIGTERM` and `SIGKILL`, the groups that were killed after
it, and what the host was at each record when they were. -/
structure Worker where
  generation : Generation := {}
  terminated : Option ℚ := none
  killed : Option ℚ := none
  orphanedGroups : List ℤ := []
  hosts : Option (ℕ → GroupHost) := none

/-- The hosts that the cleanup meets, of a Worker that it is still to come to. -/
def Worker.meets (hosts : ℕ → GroupHost) (worker : Worker) : Worker :=
  if worker.generation.orphans.isSome then worker else { worker with hosts := some hosts }

/-- How `run` ends. -/
inductive Ending where
  | returned (code : ℕ)
  | raised
  deriving DecidableEq

/-- Where the main thread is. `_terminate_worker` and `_finish_ownership_generation` are called at the end of a turn of the loop and in the
`finally`, where the ending is known. -/
inductive MasterPc where
  | checkingStop
  | starting
  | checkingAlive (lastProgress : ℚ)
  | servicing (lastProgress : ℚ)
  | waiting (lastProgress : ℚ)
  | reading (lastProgress : ℚ)
  | checkingProgress (lastProgress : ℚ)
  | leavingWorker (stalled : Bool)
  | joined
  | terminating (ending : Option Ending)
  | draining (deadline : PyFloat) (ending : Option Ending)
  | killing (ending : Option Ending)
  | finishing (ending : Option Ending)
  | deciding
  | delaying (since : ℚ) (delay : PyFloat)
  | ended (ending : Ending)
  deriving DecidableEq

/-- The control process, with its Workers, the latest first. `downs` are the times at which a Worker had gone down and was to be
replaced. -/
structure ControlMaster where
  pc : MasterPc := .checkingStop
  stop : Bool := false
  failures : List ℚ := []
  workers : List Worker := []
  heartbeats : List Heartbeat := []
  now : ℚ := 0
  downs : List ℚ := []

/-- What happens next: time passes, a signal arrives, the Worker acts or reports, the main thread raises in its `try` or goes on. What it
meets is how the messages of the pipe go, what the host says of the records it cleans up, and whether a Worker starts. -/
inductive MasterInput where
  | elapse (seconds : ℚ≥0)
  | signal
  | worker (input : OwnershipInput)
  | heartbeat (heartbeat : Heartbeat)
  | raises
  | advance (turns : ℕ → Turn) (hosts : ℕ → GroupHost) (starts : Bool)

/-- The actions of a Worker, which neither serves its messages nor hands its records over. -/
def ofWorker : OwnershipInput → Bool
  | .service _ | .finish _ => false
  | _ => true

/-- `now < deadline`. -/
def isBefore (now : ℚ) (deadline : PyFloat) : Bool := (PyFloat.finite now).lt deadline

/-- The time to wait is over. -/
def hasPassed (delay : PyFloat) (passed : ℚ) : Bool := !(PyFloat.finite passed).lt delay

/-- The ending, in the `finally` and after it. -/
def MasterPc.ending : MasterPc → Option Ending
  | .terminating ending | .draining _ ending | .killing ending | .finishing ending => ending
  | .ended ending => some ending
  | _ => none

namespace ControlMaster

variable (settings : ControlSettings)

def goTo (pc : MasterPc) (s : ControlMaster) : ControlMaster := { s with pc }

/-- A change of the Worker that runs or ran last. -/
def updateWorker (f : Worker → Worker) (s : ControlMaster) : ControlMaster :=
  { s with workers := s.workers.head?.toList.map f ++ s.workers.tail }

/-- `worker.is_alive()`. -/
def isAlive (s : ControlMaster) : Bool := s.workers.head?.any (·.generation.alive)

/-- `_service_ownership_messages`. -/
def service (turns : ℕ → Turn) (s : ControlMaster) : ControlMaster :=
  s.updateWorker fun worker => { worker with generation := worker.generation.step settings.registry (.service turns) }

/-- `worker.terminate()`. -/
def terminate (s : ControlMaster) : ControlMaster := s.updateWorker fun worker => { worker with terminated := some s.now }

/-- `worker.kill()`. -/
def kill (s : ControlMaster) : ControlMaster :=
  s.updateWorker fun worker => { worker with killed := some s.now, generation := worker.generation.step settings.registry .die }

/-- `_finish_ownership_generation`. A second call finds no connection and no records. -/
def finishWorker (turns : ℕ → Turn) (hosts : ℕ → GroupHost) (worker : Worker) : Worker :=
  if worker.generation.orphans.isSome then worker
  else
    let generation := worker.generation.step settings.registry (.finish turns)
    { worker with generation, orphanedGroups := cleanupOrphanProcesses (generation.orphans.getD []) hosts }

/-- The end of a turn of the loop, from where a Worker went down. -/
def decide (s : ControlMaster) : ControlMaster :=
  match workerExited settings.workerRestartLimit settings.workerRestartWindowSeconds s.failures s.stop s.now with
  | .error _ => s.goTo (.terminating (some .raised))
  | .ok (.returns code) => s.goTo (.terminating (some (.returned code)))
  | .ok (.waits failures delay) => { s with failures, downs := s.downs ++ [s.now], pc := .delaying s.now delay }

/-- The next action of the main thread. -/
def advance (turns : ℕ → Turn) (hosts : ℕ → GroupHost) (starts : Bool) (s : ControlMaster) : ControlMaster :=
  match s.pc with
  | .checkingStop => s.goTo (if s.stop then .terminating (some (.returned 0)) else .starting)
  | .starting =>
    if starts then { s with workers := {} :: s.workers, heartbeats := [], pc := .checkingAlive s.now }
    else s.goTo (.terminating (some .raised))
  | .checkingAlive lastProgress => s.goTo (if s.isAlive then .servicing lastProgress else .leavingWorker false)
  | .servicing lastProgress => (s.service settings turns).goTo (.waiting lastProgress)
  | .waiting lastProgress => s.goTo (if s.stop then .leavingWorker false else .reading lastProgress)
  | .reading lastProgress =>
    let progressed := s.heartbeats.any (Heartbeat.progresses settings.workerProgressTimeoutSeconds)
    { s with heartbeats := [], pc := .checkingProgress (if progressed then s.now else lastProgress) }
  | .checkingProgress lastProgress =>
    let stalled := !(Binary64.round (s.now - lastProgress)).leInt settings.workerProgressTimeoutSeconds
    s.goTo (if stalled then .leavingWorker true else .checkingAlive lastProgress)
  | .leavingWorker stalled => s.goTo (if s.stop || stalled || s.isAlive then .terminating none else .joined)
  | .joined => (s.service settings turns).goTo (.finishing none)
  | .terminating ending =>
    if s.isAlive then s.terminate.goTo (.draining (Binary64.round (s.now + settings.workerDrainTimeoutSeconds)) ending)
    else s.goTo (.finishing ending)
  | .draining deadline ending =>
    if s.isAlive && isBefore s.now deadline then s.service settings turns else s.goTo (.killing ending)
  | .killing ending => (if s.isAlive then s.kill settings else s).goTo (.finishing ending)
  | .finishing ending =>
    (s.updateWorker fun worker => finishWorker settings turns hosts (worker.meets hosts)).goTo (match ending with
      | none => .deciding
      | some ending => .ended ending)
  | .deciding => s.decide settings
  | .delaying since delay => if s.stop || hasPassed delay (s.now - since) then s.goTo .checkingStop else s
  | .ended _ => s

/-- Something happens. What is raised in the `try` is raised after the `finally`. -/
def step (s : ControlMaster) : MasterInput → ControlMaster
  | .elapse seconds => { s with now := s.now + seconds }
  | .signal => { s with stop := true }
  | .worker input =>
    if ofWorker input then
      s.updateWorker fun worker => { worker with generation := worker.generation.step settings.registry input }
    else s
  | .heartbeat heartbeat => if s.isAlive then { s with heartbeats := s.heartbeats ++ [heartbeat] } else s
  | .raises => if s.pc.ending = none then s.goTo (.terminating (some .raised)) else s
  | .advance turns hosts starts => s.advance settings turns hosts starts

/-- A control process that was started. -/
def create : ControlMaster := {}

end ControlMaster

end Master

end Service

end SharkRail
