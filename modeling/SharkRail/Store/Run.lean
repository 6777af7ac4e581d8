import SharkRail.Lib.Machine
import SharkRail.Store.Operations

/-!
# Runs of the job store

The store as a machine. A step is one committed transaction: the lock of the store keeps two transactions apart and nothing
else, so the operations that run several (`submit`, `pruneExpired`) may be interleaved with other threads between them, and a
run of transactions is a run of any number of threads, with restarts (`reopen`) wherever they fall.
-/

namespace SharkRail

/-- A transaction of the store, with the arguments its caller chose. -/
inductive StoreCall where
  | submit (tenantId idempotencyKey : String) (spec : JobSpec)
  | claimNext (owner : String) (leaseSeconds : Int)
  | markRunning (jobId attemptId : Uuid) (owner : String)
  | renewLease (jobId attemptId : Uuid) (owner : String) (leaseSeconds : Int)
  | finish (jobId attemptId : Uuid) (owner : String) (report : Store.Report)
  | requestCancel (jobId : Uuid) (tenantId : Option String)
  | recoverInterrupted
  | recoverExpiredLeases (excludeJobIds : List Uuid)
  | claimOutboxDue (limit : Int) (lease : Instant)
  | outboxDelivered (eventId : Uuid) (deliveryAttemptId : Option Uuid)
  | outboxFailed (eventId : Uuid) (deliveryAttemptId : Option Uuid) (error : String) (nextAttemptAt : Instant)
      (permanent : Bool)
  | prune (hasCleaner : Bool) (cutoff : Instant)
  | clearManifest (jobId : Uuid)
  | reopen

namespace Store

variable (cfg : StoreConfig)

/-- The store after a transaction. `submit` runs its transaction for specifications that pass their checks. -/
def step (s : Store) (input : StoreCall × Reading) : Store :=
  let clock := input.2
  match input.1 with
  | .submit tenantId key spec =>
    match spec.validate with
    | .ok () => (submitTransaction cfg clock tenantId key spec s).2
    | .error _ => s
  | .claimNext owner leaseSeconds => (claimNext cfg clock owner leaseSeconds s).2
  | .markRunning jobId attemptId owner => (markRunning cfg clock jobId attemptId owner s).2
  | .renewLease jobId attemptId owner leaseSeconds => (renewLease cfg clock jobId attemptId owner leaseSeconds s).2
  | .finish jobId attemptId owner report => (finish cfg clock jobId attemptId owner report s).2
  | .requestCancel jobId tenantId => (requestCancel cfg clock jobId tenantId s).2
  | .recoverInterrupted => (recoverInterrupted cfg clock s).2
  | .recoverExpiredLeases excludeJobIds => (recoverExpiredLeases cfg clock excludeJobIds s).2
  | .claimOutboxDue limit lease => (claimOutboxDue cfg clock limit lease s).2
  | .outboxDelivered eventId deliveryAttemptId => (outboxDelivered cfg clock eventId deliveryAttemptId s).2
  | .outboxFailed eventId deliveryAttemptId error nextAttemptAt permanent =>
    (outboxFailed cfg eventId deliveryAttemptId error nextAttemptAt permanent s).2
  | .prune hasCleaner cutoff => (pruneTransaction cfg clock hasCleaner cutoff s).2
  | .clearManifest jobId => (clearManifest cfg jobId s).2
  | .reopen => reopen cfg s

/-- A state the store can be in: every state a run from a new store leads to. -/
def Reachable (s : Store) : Prop := Machine.Reachable (step cfg) (create cfg 0) s

end Store

end SharkRail
