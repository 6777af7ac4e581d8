import SharkRail.Store.Run

/-!
# What a transaction can do

The state machines of a job and of a notification, without the statements that move them. `RowStep` lists what a transaction
does to a job row it moves, with the event it logs and the notifications it adds; `Released` and `OutboxStep` what it does to an
outbox row; `Change` what it does to the store. The operations refine this: `Store.changes_of_step` reads every transaction as a sequence
of changes, so an invariant is proved against the few cases of `Change`.
-/

namespace SharkRail

namespace Store

/-- The notification of a row that became terminal: one if its specification names an endpoint. -/
def notifications (now : Instant) (eventId : Uuid) (row : JobRow) : List OutboxRow :=
  match rowToJob row with
  | .ok job => ((endpointOf job.spec).map fun endpoint => notification now eventId endpoint job).toList
  | .error _ => []

/-- The events after one more is logged. -/
def logged (cfg : StoreConfig) (e : EventRow) (events : List EventRow) : List EventRow :=
  let events := Table.insert events e
  let trimmed := ((events.map (·.seq)).insertionSort (fun a b => a ≥ b)).drop cfg.maxEventRecords.toNat
  Table.delete (fun e => trimmed.contains e.seq) events

/-- A job row replaced by another one. -/
def replaceJob (jobId : Uuid) (row' : JobRow) (jobs : List JobRow) : List JobRow :=
  Table.update (fun r => r.id = jobId) (fun _ => row') jobs

/-- What a transaction does to a job row: the row after it, the kind of the event it logs, and the notifications it adds.
`drawn` is the next value of `uuid4`. -/
inductive RowStep (drawn : Uuid) (clock : Reading) (row : JobRow) :
    StoreCall → JobRow → Option String → List OutboxRow → Prop where
  | assigned (owner : String) (leaseSeconds : Int) (hphase : row.phase = .queued) :
      RowStep drawn clock row (.claimNext owner leaseSeconds) (assignedRow clock drawn owner leaseSeconds row)
        (some "job.assigned") []
  | running (attemptId : Uuid) (owner : String) (howned : ownedBy row.id attemptId owner row = true) :
      RowStep drawn clock row (.markRunning row.id attemptId owner) (runningRow clock.now (row.revision + 1) row)
        (some "job.running") []
  | renewed (attemptId : Uuid) (owner : String) (leaseSeconds : Int)
      (howned : ownedBy row.id attemptId owner row = true) (hphase : row.phase.held = true) :
      RowStep drawn clock row (.renewLease row.id attemptId owner leaseSeconds)
        { row with leaseExpiresAt := some (clock.now + leaseSeconds * Instant.second) } none []
  | finished (attemptId : Uuid) (owner : String) (report : Report)
      (howned : ownedBy row.id attemptId owner row = true) (hphase : row.phase.held = true)
      (hreport : report.phase.terminal = true) :
      RowStep drawn clock row (.finish row.id attemptId owner report) (finishedRow clock.now row report row)
        (some ("job." ++ (settledPhase row.cancelled report.phase).value))
        (notifications clock.now drawn (finishedRow clock.now row report row))
  | cancelRequested (tenantId : Option String) (htenant : ∀ t ∈ tenantId, row.tenantId = t)
      (hphase : row.phase.held = true) (hactive : row.cancelled = false) :
      RowStep drawn clock row (.requestCancel row.id tenantId) (cancelRequestedRow clock.now row row)
        (some "job.cancel_requested") []
  | cancelled (tenantId : Option String) (htenant : ∀ t ∈ tenantId, row.tenantId = t)
      (hphase : row.phase = .queued) (hactive : row.cancelled = false) :
      RowStep drawn clock row (.requestCancel row.id tenantId) (cancelRequestedRow clock.now row row)
        (some "job.cancel_requested") (notifications clock.now drawn (cancelRequestedRow clock.now row row))
  | interrupted (hphase : row.phase.held = true) :
      RowStep drawn clock row .recoverInterrupted (lostRow (clock.later row.id) "service_restarted" row row)
        (some ("job." ++ (lostPhase row.cancelled).value))
        (notifications (clock.later row.id) drawn (lostRow (clock.later row.id) "service_restarted" row row))
  | leaseExpired (excludeJobIds : List Uuid) (hphase : row.phase.held = true) (hexcluded : row.id ∉ excludeJobIds)
      (hlease : leaseExpired clock.now row = true) :
      RowStep drawn clock row (.recoverExpiredLeases excludeJobIds)
        (lostRow (clock.later row.id) "executor_lease_expired" row row)
        (some ("job." ++ (lostPhase row.cancelled).value))
        (notifications (clock.later row.id) drawn (lostRow (clock.later row.id) "executor_lease_expired" row row))

/-- An outbox row replaced by another one. -/
def replaceOutbox (eventId : Uuid) (o' : OutboxRow) (outbox : List OutboxRow) : List OutboxRow :=
  Table.update (fun o => o.eventId = eventId) (fun _ => o') outbox

/-- How a claim of an outbox row is taken back: by a restart, or because it ran out. -/
inductive Released (clock : Reading) (o : OutboxRow) : StoreCall → OutboxRow → Prop where
  | interrupted (hstate : o.state = .delivering) :
      Released clock o .recoverInterrupted
        { o with state := .pending, nextAttemptAt := clock.now, deliveryAttemptId := none }
  | expired (limit : Int) (lease : Instant) (hstate : o.state = .delivering) (hdue : o.nextAttemptAt ≤ clock.now) :
      Released clock o (.claimOutboxDue limit lease) { o with state := .pending, deliveryAttemptId := none }

/-- What a transaction does to one outbox row: a claim, with the token it draws, or the settlement of a claim, with the token
of the claim. -/
inductive OutboxStep (drawn : Uuid) (clock : Reading) (o : OutboxRow) : StoreCall → OutboxRow → Prop where
  | claimed (limit : Int) (lease : Instant) (hstate : o.state = .pending) (hdue : o.nextAttemptAt ≤ clock.now) :
      OutboxStep drawn clock o (.claimOutboxDue limit lease)
        { o with state := .delivering, nextAttemptAt := clock.now + lease, deliveryAttemptId := some drawn }
  | delivered (token : Uuid) (hstate : o.state = .delivering) (htoken : o.deliveryAttemptId = some token) :
      OutboxStep drawn clock o (.outboxDelivered o.eventId (some token)) (deliveredRow clock.now o)
  | failed (token : Uuid) (error : String) (nextAttemptAt : Instant) (permanent : Bool) (hstate : o.state = .delivering)
      (htoken : o.deliveryAttemptId = some token) :
      OutboxStep drawn clock o (.outboxFailed o.eventId (some token) error nextAttemptAt permanent)
        (failedRow error nextAttemptAt permanent o)

/-- What a transaction does to the store, one row at a time. The counter of `metadata_usage` is left out. -/
inductive Change (cfg : StoreConfig) (call : StoreCall) (clock : Reading) (s s' : Store) : Prop where
  | accepted (tenantId key : String) (spec : JobSpec) (hcall : call = .submit tenantId key spec)
      (hspec : spec.validate = .ok ()) (hnew : ∀ r ∈ s.jobs, ¬(r.tenantId = tenantId ∧ r.idempotencyKey = key))
      (hroom : s.full cfg tenantId = false)
      (hjobs : s'.jobs = Table.insert s.jobs (acceptedRow cfg clock.now s.storeEpoch s.drawn tenantId key spec))
      (hevents : s'.events = logged cfg ⟨s.nextSeq, s.drawn, 1, "job.accepted", clock.now⟩ s.events)
      (houtbox : s'.outbox = s.outbox) (hdeletions : s'.deletions = s.deletions)
      (hdrawn : s'.drawn = s.drawn + 1) (hepoch : s'.storeEpoch = s.storeEpoch)
  | moved (row row' : JobRow) (kind : Option String) (notes : List OutboxRow) (hrow : row ∈ s.jobs)
      (hstep : RowStep s.drawn clock row call row' kind notes) (hjobs : s'.jobs = replaceJob row.id row' s.jobs)
      (hevents : ∀ k ∈ kind, ∃ now, s'.events = logged cfg ⟨s.nextSeq, row.id, row'.revision, k, now⟩ s.events)
      (hquiet : kind = none → s'.events = s.events)
      (houtbox : s'.outbox = s.outbox ++ notes) (hdeletions : s'.deletions = s.deletions)
      (hdrawn : s.drawn ≤ s'.drawn) (hused : row'.attemptId ≠ row.attemptId ∨ notes ≠ [] → s'.drawn = s.drawn + 1)
      (hepoch : s'.storeEpoch = s.storeEpoch)
  | released (f : OutboxRow → OutboxRow) (hstep : ∀ o ∈ s.outbox, f o = o ∨ Released clock o call (f o))
      (houtbox : s'.outbox = s.outbox.map f) (hjobs : s'.jobs = s.jobs) (hevents : s'.events = s.events)
      (hdeletions : s'.deletions = s.deletions) (hdrawn : s'.drawn = s.drawn) (hepoch : s'.storeEpoch = s.storeEpoch)
  | delivery (o o' : OutboxRow) (ho : o ∈ s.outbox) (hstep : OutboxStep s.drawn clock o call o')
      (houtbox : s'.outbox = replaceOutbox o.eventId o' s.outbox) (hjobs : s'.jobs = s.jobs)
      (hevents : s'.events = s.events) (hdeletions : s'.deletions = s.deletions) (hdrawn : s.drawn ≤ s'.drawn)
      (hused : ∀ t ∈ o'.deliveryAttemptId, t < s'.drawn) (hepoch : s'.storeEpoch = s.storeEpoch)
  | pruned (hasCleaner : Bool) (cutoff : Instant) (row : JobRow) (hcall : call = .prune hasCleaner cutoff)
      (hrow : row ∈ s.jobs) (hprunable : s.prunable cutoff row = true)
      (houtput : hasCleaner = true ∨ (row.stdoutPath = none ∧ row.stderrPath = none))
      (hjobs : s'.jobs = Table.delete (fun r => r.id = row.id) s.jobs)
      (houtbox : s'.outbox = Table.delete (fun o => o.jobId = row.id) s.outbox)
      (hevents : s'.events = Table.delete (fun e => e.jobId = row.id) s.events)
      (hdeletions : s'.deletions =
        if row.stdoutPath = none ∧ row.stderrPath = none then s.deletions
        else Table.insert s.deletions ⟨row.id, row.stdoutPath, row.stderrPath, clock.later row.id⟩)
      (hdrawn : s'.drawn = s.drawn) (hepoch : s'.storeEpoch = s.storeEpoch)
  | cleared (jobId : Uuid) (hcall : call = .clearManifest jobId)
      (hdeletions : s'.deletions = Table.delete (fun d => d.jobId = jobId) s.deletions) (hjobs : s'.jobs = s.jobs)
      (houtbox : s'.outbox = s.outbox) (hevents : s'.events = s.events) (hdrawn : s'.drawn = s.drawn)
      (hepoch : s'.storeEpoch = s.storeEpoch)
  | restarted (hcall : call = .reopen)
      (htables : if cfg.volatile = true then s' = create cfg s.drawn else s' = migrate cfg s)

end Store

end SharkRail
