import SharkRail.Lib.Machine
import SharkRail.Service.Execution
import SharkRail.Store.Run

/-!
# Runs of the service

`JobService` as a machine: its store and its output, which outlive it, and its process: the flag `_stop`, the runs in `_active`, the
executions of claimed jobs, the signals that threads are about to send to them, and the deletions of output under way. A step is one
call of one thread, or an event of a session, so a run is any interleaving of them, with crashes wherever they fall.

The number of executions is not bounded by the size of the pool, and the heartbeats come at any time: a run of the service is one of
these runs.
-/

namespace SharkRail

structure ServiceConfig where
  store : StoreConfig
  output : OutputConfig
  sessionId : Uuid → String

/-- A signal that a thread is about to send to a run. -/
structure Signal where
  target : Uuid
  origin : Origin
  deriving DecidableEq

/-- `_finalize_output_deletions` under way: the manifests it has still to see to, and whether the output of the first is deleted. -/
structure Pruner where
  rows : List DeletionRow
  deleted : Bool := false
  deriving DecidableEq

/-- The service. `written` is what `write_job` was called with. -/
structure Service where
  store : Store
  output : Output
  written : List (Uuid × Bytes × Bytes) := []
  up : Bool := false
  started : Bool := false
  stop : Bool := false
  snapshotted : Bool := false
  workerId : String := ""
  active : AList fun _ : Uuid => Uuid := ∅
  executions : List Execution := []
  signals : List Signal := []
  pruners : List Pruner := []

/-- A crash in the middle of a method of the output store: of an execution, or of the deletion of expired output. -/
inductive Tear where
  | none
  | execution (attempt : Uuid) (done cleaned : Nat)
  | pruner (index done : Nat)

inductive ServiceInput where
  | store (call : StoreCall) (clock : Reading)
  | claim (leaseSeconds : Int) (clock : Reading)
  | execute (attempt : Uuid) (clock : Reading) (fault : Fault)
  | callback (attempt : Uuid)
  | monitor (attempt : Uuid) (event : MonitorEvent)
  | cancel (jobId : Uuid) (tenantId : Option String) (clock : Reading)
  | signal (index : Nat)
  | close
  | snapshot
  | finalize
  | prune (index : Nat) (fault : Fault)
  | crash (tear : Tear)
  | open (workerId : String) (torn : Option Nat)
  | start (clock : Reading)

/-- The type and the message of what an operation of the store raises. -/
def StoreError.exc : StoreError → Exc
  | .jobNotFound jobId => .error false "JobNotFound" (String.ofList (idText "job_" jobId))
  | .idempotencyConflict message => .error false "IdempotencyConflict" message
  | .admissionLimited message => .error false "AdmissionLimited" message
  | .storeError message => .error false "StoreError" message
  | .integrityError message => .error false "IntegrityError" message
  | .overflowError message => .error false "OverflowError" message
  | .py (.valueError message) => .error false "ValueError" message
  | .py (.typeError message) => .error false "TypeError" message
  | .py (.unicodeEncodeError object) => .error false "UnicodeEncodeError" object.encodeError

/-- What an operation of the store returns, or raises. -/
def replyOf {α : Type} (f : α → Reply) : Except StoreError α → Except Exc Reply
  | .ok a => .ok (f a)
  | .error e => .error e.exc

/-- `current.spec.desired_state == "cancelled"`. -/
def JobRecord.isCancelled (job : JobRecord) : Bool := job.spec.desiredState = .str "cancelled"

namespace Service

variable (cfg : ServiceConfig)

/-- An execution changed in place. -/
def update (attempt : Uuid) (f : Execution → Execution) (s : Service) : Service :=
  { s with executions := Table.update (fun e => e.attempt = attempt) f s.executions }

/-- `_active_lock` is held by the execution that publishes its session. -/
def locked (s : Service) : Bool := s.executions.any fun e => e.pc.holdsLock

/-- A call that a fault may keep from its effect, or from returning after it. -/
def faulted (fault : Fault) (s : Service) (r : Except Exc Reply × Service) : Except Exc Reply × Service :=
  match fault with
  | .none => r
  | .before x | .torn _ _ x => (.error x, s)
  | .after x => (.error x, r.2)

/-- An operation of the store. -/
def onStore {α : Type} (f : α → Reply) (o : Outcome α) (s : Service) : Except Exc Reply × Service :=
  (replyOf f o.1, { s with store := o.2 })

/-- The call an execution makes next, and the service after it; `none` while it has to wait. The run that `publish` finds under the
id of the job is its own, since a job is executed once. -/
def perform (clock : Reading) (fault : Fault) (e : Execution) (s : Service) : Option (Except Exc Reply × Service) :=
  match e.pc with
  | .checkStop => some (faulted fault s (.ok (.flag s.stop), s))
  | .checkStore | .recheck | .readIntent =>
    some (faulted fault s (replyOf (fun job => .flag job.isCancelled) (s.store.get e.job.id none), s))
  | .settling _ report _ =>
    some (faulted fault s
      (onStore (fun _ => .unit) (s.store.finish cfg.store clock e.job.id e.attempt s.workerId report) s))
  | .createTask | .disposing | .shuttingDown => some (faulted fault s (.ok .unit, s))
  | .register =>
    if s.locked then none
    else some (faulted fault s (.ok .unit, { s with active := s.active.insert e.job.id e.attempt }))
  | .checkStopAgain => some (faulted fault s (.ok (.flag s.stop), s))
  | .starting =>
    match fault with
    | .none =>
      if e.startCancelled then some (.error .cancelledError, s)
      else some (.ok (.session { id := cfg.sessionId e.attempt }), s)
    | .before x | .after x | .torn _ _ x => some (.error x, s)
  | .publish =>
    if s.locked then none
    else some (faulted fault s (.ok (.flag (s.active.lookup e.job.id = some e.attempt)), s))
  | .markRunning _ =>
    some (faulted fault s (onStore (fun _ => .unit) (s.store.markRunning cfg.store clock e.job.id e.attempt s.workerId) s))
  | .signal cancelRequested => some (faulted fault s (.ok (.flag (s.stop || cancelRequested)), s))
  | .cancelling _ => e.session.map fun session => faulted fault s (session.cancel.map .session, s)
  | .waiting =>
    match fault with
    | .none => (e.session.bind (·.result)).map fun result => (.ok (.result (some result)), s)
    | .before x | .after x | .torn _ _ x => some (.error x, s)
  | .writing result =>
    let (paths, output) := s.output.writeJob cfg.output fault e.job.id result.stdoutBytes result.stderrBytes
    some (paths.map fun p => .paths p.1 p.2,
      { s with output, written := s.written ++ [(e.job.id, result.stdoutBytes, result.stderrBytes)] })
  | .discarding _ =>
    match e.outputPaths with
    | none => some (.ok .unit, s)
    | some (stdoutPath, stderrPath) =>
      let (reply, output) := s.output.deleteJob cfg.output fault e.job.id (some stdoutPath) (some stderrPath)
      some (reply.map fun _ => .unit, { s with output })
  | .popping | .executionDone =>
    if s.locked then none else some (.ok .unit, { s with active := s.active.erase e.job.id })
  | .done => none

/-- An execution makes its next call and goes on. -/
def execute (clock : Reading) (fault : Fault) (e : Execution) (s : Service) : Service :=
  match s.perform cfg clock fault e with
  | some (reply, s') => s'.update e.attempt fun e => e.resume reply
  | none => s

/-- A controller claims the next job and hands it to the pool. -/
def claim (leaseSeconds : Int) (clock : Reading) (s : Service) : Service :=
  let (claimed, store) := s.store.claimNext cfg.store clock s.workerId leaseSeconds
  let s := { s with store }
  match claimed with
  | .ok (some job) =>
    match job.attemptId with
    | some attempt => { s with executions := s.executions ++ [{ job, attempt }] }
    | none => s
  | _ => s

/-- `JobService.cancel`, as far as `_active_lock` is held: the request is written, and the run to signal is looked up. -/
def cancel (jobId : Uuid) (tenantId : Option String) (clock : Reading) (s : Service) : Service :=
  let (requested, store) := s.store.requestCancel cfg.store clock jobId tenantId
  let s := { s with store }
  match requested with
  | .ok job =>
    if job.isCancelled then
      match s.active.lookup jobId with
      | some target => { s with signals := s.signals ++ [⟨target, .request⟩] }
      | none => s
    else s
  | .error _ => s

/-- A signal is sent: to the start of the run while it has no session, and to its session from then on. -/
def send (signal : Signal) (s : Service) : Service :=
  s.update signal.target fun e =>
    { e with callbacks := e.callbacks ++
        [if e.published then .cancelSession signal.origin else .cancelStart signal.origin] }

/-- `close`, as far as `_active_lock` is held: every active run is to be signalled. -/
def snapshot (s : Service) : Service :=
  { s with
    snapshotted := true
    signals := s.signals ++ s.active.entries.map fun run => ⟨run.2, .shutdown⟩ }

/-- One step of `_finalize_output_deletions`: the output of the next manifest is deleted, or the manifest cleared. A manifest whose
output could not be deleted is left. -/
def pruneStep (fault : Fault) (pruner : Pruner) (s : Service) : Pruner × Service :=
  match pruner.rows with
  | [] => (pruner, s)
  | row :: rows =>
    if pruner.deleted then
      (⟨rows, false⟩, { s with store := (s.store.clearManifest cfg.store row.jobId).2 })
    else
      let (reply, output) := s.output.deleteJob cfg.output fault row.jobId row.stdoutPath row.stderrPath
      match reply with
      | .ok () => ({ pruner with deleted := true }, { s with output })
      | .error (.error true _ _) => (⟨rows, false⟩, { s with output })
      | .error _ => (⟨[], false⟩, { s with output })

/-- The calls of the store that other threads of the service make: requests, controllers and deliverers. -/
def isShared : StoreCall → Bool
  | .submit .. | .renewLease .. | .recoverExpiredLeases .. | .claimOutboxDue .. | .outboxDelivered .. | .outboxFailed ..
  | .prune true _ => true
  | _ => false

/-- The output store after a crash in the middle of one of its methods. -/
def tornOutput (tear : Tear) (s : Service) : Output :=
  match tear with
  | .none => s.output
  | .execution attempt done cleaned =>
    match s.executions.find? fun e => e.attempt = attempt with
    | none => s.output
    | some e =>
      match e.pc, e.outputPaths with
      | .writing result, _ =>
        { s.output with
          dirs := s.output.tornWrite e.job.id result.stdoutBytes result.stderrBytes done cleaned
          tokens := s.output.tokens + 1 }
      | .discarding _, some (stdoutPath, stderrPath) =>
        (s.output.deleteJob cfg.output (.torn done 0 .cancelledError) e.job.id (some stdoutPath) (some stderrPath)).2
      | _, _ => s.output
  | .pruner index done =>
    match s.pruners[index]? with
    | some ⟨row :: _, false⟩ =>
      (s.output.deleteJob cfg.output (.torn done 0 .cancelledError) row.jobId row.stdoutPath row.stderrPath).2
    | _ => s.output

/-- The process ends: what outlives it is the store and the output. -/
def crash (tear : Tear) (s : Service) : Service :=
  { store := s.store, output := s.tornOutput cfg tear, written := s.written }

/-- The output store is opened: the one of a volatile service is new. -/
def openOutput (o : Output) : Output :=
  if cfg.store.volatile then { o with dirs := ∅, usedBytes := 0 } else { o with usedBytes := scanSize o.dirs }

/-- `_open_service_resources`: both stores are opened and reconciled, unless a crash comes in the middle of that. -/
def openStores (workerId : String) (torn : Option Nat) (s : Service) : Service :=
  let store := s.store.reopen cfg.store
  let output := openOutput cfg s.output
  match torn with
  | none => { s with store, output := (output.reconcile store.referencedOutputJobIds).2, up := true, workerId }
  | some done => { s with store, output := output.tornReconcile store.referencedOutputJobIds done }

/-- The service after a step. An input that does not fit leaves the service as it is. -/
def step (s : Service) (input : ServiceInput) : Service :=
  match input with
  | .store call clock => if s.up && isShared call then { s with store := s.store.step cfg.store (call, clock) } else s
  | .claim leaseSeconds clock => if s.started then s.claim cfg leaseSeconds clock else s
  | .execute attempt clock fault =>
    match s.executions.find? fun e => e.attempt = attempt with
    | some e => s.execute cfg clock fault e
    | none => s
  | .callback attempt =>
    s.update attempt fun e =>
      match e.callbacks with
      | callback :: rest => if e.pc.loopRuns then { e with callbacks := rest }.callback callback else e
      | [] => e
  | .monitor attempt event =>
    s.update attempt fun e => if e.pc.loopRuns then { e with session := e.session.map (·.monitor event) } else e
  | .cancel jobId tenantId clock => if s.up && !s.locked then s.cancel cfg jobId tenantId clock else s
  | .signal index =>
    match s.signals[index]? with
    | some signal => { s with signals := s.signals.eraseIdx index }.send signal
    | none => s
  | .close => if s.started then { s with stop := true } else s
  | .snapshot => if s.stop && !s.snapshotted && !s.locked then s.snapshot else s
  | .finalize =>
    if s.up then
      { s with pruners := s.pruners ++ [{ rows := Table.selectBy (·.createdAt) (fun _ => true) s.store.deletions }] }
    else s
  | .prune index fault =>
    match s.pruners[index]? with
    | some pruner =>
      let (pruner, s) := s.pruneStep cfg fault pruner
      { s with pruners := s.pruners.set index pruner }
    | none => s
  | .crash tear => s.crash cfg tear
  | .open workerId torn => if s.up then s else s.openStores cfg workerId torn
  | .start clock =>
    if s.up && !s.started then
      let (recovered, store) := s.store.recoverInterrupted cfg.store clock
      { s with store, started := recovered.toBool }
    else s

/-- A service that was never opened. -/
def create : Service := { store := Store.create cfg.store 0, output := { dirs := ∅, usedBytes := 0, tokens := 0 } }

/-- A state the service can be in. -/
def Reachable (s : Service) : Prop := Machine.Reachable (step cfg) (create cfg) s

end Service

end SharkRail
