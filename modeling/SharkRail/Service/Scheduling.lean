import SharkRail.Service.Run

/-!
# The controllers of the service

`_controller_loop`, call by call, over the service: any number of controllers claim jobs under `_schedule_lock`, record them in
`_inflight` and hand them to the pool, renew the leases of the active runs, and recover the expired ones but those of a snapshot of
`_inflight`. A call may raise before or after its effect; the loop catches that and waits. Whatever else the service does is a step of
`Service.step`, with the executions that the pool was given.

When a heartbeat is due is an input, and so is every reading of the wall clock. The pruning at the end of a turn is one of the shared
calls of `Service.step`.
-/

namespace SharkRail

/-- The settings of the executor that the controllers read. -/
structure ExecutorSettings where
  workers : Nat := 2
  leaseSeconds : Int := 30

/-- A job that `claim_next` returned, with its attempt. -/
structure ClaimedJob where
  jobId : Uuid
  attempt : Uuid
  deriving DecidableEq

/-- The call that a controller makes next: with `left` turns of its `for` loop to go, and the job it has in hand. -/
inductive Controller where
  | waiting
  | measuring
  | claiming (left : Nat)
  | recording (left : Nat) (job : ClaimedJob)
  | submitting (left : Nat) (job : ClaimedJob)
  | attaching (left : Nat) (job : ClaimedJob)
  | checkingRenewal
  | renewing (runs : List ClaimedJob)
  | checkingReconcile
  | recovering (inflight : List Uuid)
  deriving DecidableEq

namespace Controller

/-- The controller is inside `with self._schedule_lock`. -/
def scheduling : Controller → Bool
  | .measuring | .claiming _ | .recording .. | .submitting .. | .attaching .. => true
  | _ => false

end Controller

/-- A future of the pool: its job, and whether `_execution_done` is still to be called at its end. -/
structure JobFuture extends ClaimedJob where
  callback : Bool
  deriving DecidableEq

/-- Where a call raises: nowhere, before it did anything, or after it did everything. -/
inductive Interruption where
  | none
  | before
  | after
  deriving DecidableEq

/-- The service with its controllers: any number of threads, of which every one is at its wait first. `scheduler` is the one that holds
`_schedule_lock`. -/
structure Scheduler where
  service : Service
  inflight : List Uuid := []
  futures : List JobFuture := []
  scheduler : Option Nat := none
  controllers : Nat → Controller := fun _ => .waiting

inductive SchedulerInput where
  | controller (index : Nat) (due : Bool) (clock : Reading) (interruption : Interruption)
  | executionDone (attempt : Uuid) (clock : Reading)
  | service (input : ServiceInput)

namespace Scheduler

variable (cfg : ServiceConfig) (settings : ExecutorSettings)

/-- A controller goes on to its next call. -/
def goTo (index : Nat) (next : Controller) (s : Scheduler) : Scheduler :=
  { s with controllers := fun i => if i = index then next else s.controllers i }

/-- The `with` blocks are left, and the controller goes on. -/
def leaveTo (index : Nat) (next : Controller) (s : Scheduler) : Scheduler :=
  { s with scheduler := if s.scheduler = some index then none else s.scheduler }.goTo index next

/-- A call raised: the loop waits for its next turn. -/
def raised (index : Nat) (s : Scheduler) : Scheduler := s.leaveTo index .waiting

/-- A call of a controller with an effect: where it raises, and where the controller goes on if it does not. -/
def called (s : Scheduler) (index : Nat) (interruption : Interruption) (effect : Scheduler) (next : Controller) : Scheduler :=
  match interruption with
  | .none => effect.goTo index next
  | .before => s.raised index
  | .after => effect.raised index

/-- A step of the rest of the service. -/
def serve (input : ServiceInput) (s : Scheduler) : Scheduler := { s with service := s.service.step cfg input }

/-- `_execute_job` returned: what is left of the execution is the callback of its future. -/
def ended (attempt : Uuid) (s : Scheduler) : Bool :=
  s.service.executions.any fun e => e.attempt = attempt && e.pc = .executionDone

/-- `_execution_done`. -/
def executionDone (job : ClaimedJob) (clock : Reading) (s : Scheduler) : Scheduler :=
  { s.serve cfg (.execute job.attempt clock .none) with
    inflight := s.inflight.filter (· ≠ job.jobId)
    futures := s.futures.map fun f => if f.attempt = job.attempt then { f with callback := false } else f }

/-- `future.add_done_callback`: the callback of a future that is done is called at once. -/
def addDoneCallback (job : ClaimedJob) (clock : Reading) (s : Scheduler) : Scheduler :=
  if s.ended job.attempt then s.executionDone cfg job clock
  else { s with futures := s.futures.map fun f => if f.attempt = job.attempt then { f with callback := true } else f }

/-- `claim_next`, with what it returns. -/
def claimNext (clock : Reading) (s : Scheduler) : Except StoreError (Option ClaimedJob) :=
  ((s.service.store.claimNext cfg.store clock s.service.workerId settings.leaseSeconds).1).map fun claimed =>
    claimed.bind fun job => job.attemptId.map fun attempt => ⟨job.id, attempt⟩

/-- The next call of a controller. A call that takes `_active_lock` waits while an execution holds it. -/
def advance (index : Nat) (due : Bool) (clock : Reading) (interruption : Interruption) (s : Scheduler) : Scheduler :=
  match s.controllers index with
  | .waiting =>
    if s.service.stop || s.scheduler.isSome then s else { s with scheduler := some index }.goTo index .measuring
  | .measuring =>
    if s.service.locked then s else s.goTo index (.claiming (settings.workers - s.inflight.length))
  | .claiming 0 => s.leaveTo index .checkingRenewal
  | .claiming (left + 1) =>
    let effect := s.serve cfg (.claim settings.leaseSeconds clock)
    match s.claimNext cfg settings clock with
    | .ok (some job) => s.called index interruption effect (.recording left job)
    | .ok none =>
      match interruption with
      | .none => effect.leaveTo index .checkingRenewal
      | .before => s.raised index
      | .after => effect.raised index
    | .error _ => effect.raised index
  | .recording left job =>
    if s.service.locked then s
    else { s with inflight := s.inflight.insert job.jobId }.goTo index (.submitting left job)
  | .submitting left job =>
    s.called index interruption { s with futures := s.futures ++ [⟨job, false⟩] } (.attaching left job)
  | .attaching left job =>
    if s.ended job.attempt && s.service.locked then s
    else s.called index interruption (s.addDoneCallback cfg job clock) (.claiming left)
  | .checkingRenewal =>
    if !due then s.goTo index .checkingReconcile
    else if s.service.locked then s
    else s.goTo index (.renewing (s.service.active.entries.map fun run => ⟨run.1, run.2⟩))
  | .renewing [] => s.goTo index .checkingReconcile
  | .renewing (run :: runs) =>
    let call := StoreCall.renewLease run.jobId run.attempt s.service.workerId settings.leaseSeconds
    s.called index interruption (s.serve cfg (.store call clock)) (.renewing runs)
  | .checkingReconcile =>
    if !due then s.goTo index .waiting
    else if s.service.locked then s
    else s.goTo index (.recovering s.inflight)
  | .recovering inflight =>
    s.called index interruption (s.serve cfg (.store (.recoverExpiredLeases inflight) clock)) .waiting

/-- The steps of the service that are not those of its controllers: an execution runs once the pool was given it, up to its callback. -/
def permits (s : Scheduler) : ServiceInput → Bool
  | .claim .. | .store (.renewLease ..) _ | .store (.recoverExpiredLeases ..) _ => false
  | .execute attempt _ _ => (s.futures.any fun f => f.attempt = attempt) && !s.ended attempt
  | _ => true

/-- The scheduler after a step. A crash ends the process with its controllers and its pool. -/
def step (s : Scheduler) : SchedulerInput → Scheduler
  | .controller index due clock interruption =>
    if s.service.started then s.advance cfg settings index due clock interruption else s
  | .executionDone attempt clock =>
    match s.futures.find? fun f => f.attempt = attempt && f.callback with
    | some f => if s.ended attempt && !s.service.locked then s.executionDone cfg f.toClaimedJob clock else s
    | none => s
  | .service (.crash tear) => { service := s.service.step cfg (.crash tear) }
  | .service input => if s.permits input then s.serve cfg input else s

/-- A service that was never opened. -/
def create : Scheduler := { service := Service.create cfg }

end Scheduler

end SharkRail
