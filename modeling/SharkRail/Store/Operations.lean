import SharkRail.Lib.JsonRoundTrip
import SharkRail.Store.Rows

/-!
# The operations of the job store

Each operation as the store runs it: the statements of a transaction on the tables, then the checks of `transaction`. An
operation gives its result and the store after it; a transaction that raises leaves the store as it was. The clock is an
argument: `now` is what the operation reads, `later` what it reads while it works on one row.
-/

namespace SharkRail

inductive StoreError where
  | jobNotFound (jobId : Uuid)
  | idempotencyConflict (message : String)
  | admissionLimited (message : String)
  | storeError (message : String)
  | integrityError (message : String)
  | overflowError (message : String)
  | py (e : PyError)
  deriving DecidableEq

/-- What an operation reads from the clock. -/
structure Reading where
  now : Instant
  later : Uuid → Instant

/-- A clock that stands still. -/
def Reading.at (now : Instant) : Reading := ⟨now, fun _ => now⟩

/-- The result of an operation, and the store after it. -/
abbrev Outcome (α : Type) := Except StoreError α × Store

/-- The result of an operation that goes on after another one returned. -/
def Outcome.andThen {α β : Type} (o : Outcome α) (f : α → Store → Outcome β) : Outcome β :=
  match o with
  | (.error e, s) => (.error e, s)
  | (.ok a, s) => f a s

/-- A job as callers see it: its row, with the specification decoded. The error is decoded where it is read (`JobRecord.error`). -/
structure JobRecord extends JobRow where
  spec : JobSpec
  deriving DecidableEq

namespace JobRow

/-- `json.loads(row["spec_json"])`. -/
def specData (r : JobRow) : PyJson := r.specJson.reread true

/-- `JobSpec.from_dict(json.loads(row["spec_json"]))`. -/
def spec (r : JobRow) : Except PyError JobSpec :=
  match r.specData with
  | .obj members => JobSpec.fromDict members
  | _ => throw (.typeError "spec_json must hold an object")

/-- The intent of the row is to cancel: `spec_data.get("desired_state") == "cancelled"`. -/
def cancelled (r : JobRow) : Bool :=
  match r.specData with
  | .obj members => PyJson.get? members "desired_state" = some (.str "cancelled")
  | _ => false

/-- `spec_json` with the intent to cancel written into it. -/
def cancelledSpecJson (r : JobRow) : PyJson :=
  match r.specData with
  | .obj members => (PyJson.obj (PyJson.set members "desired_state" (.str "cancelled"))).sortKeys
  | v => v

end JobRow

def rowToJob (row : JobRow) : Except StoreError JobRecord :=
  match row.spec with
  | .ok spec => pure { row with spec }
  | .error e => throw (.py e)

/-- The text of an instant as a JSON value. -/
def instantJson (t : Instant) : PyJson := .str (String.ofList t.isoformat)

def idJson (kind : String) (u : Uuid) : PyJson := .str (String.ofList (idText kind u))

/-- A column that may be null as a JSON value. -/
def nullJson {α : Type} (f : α → PyJson) (column : Option α) : PyJson := (column.map f).getD .null

/-- `json.loads(row["error_json"])`, where the column is not null. -/
def JobRecord.error (job : JobRecord) : Option PyJson := job.errorJson.map (PyJson.reread true)

/-- `to_dict(include_spec=False)`. -/
def JobRecord.toDict (job : JobRecord) : List (PyStr × PyJson) :=
  [("job_id", idJson "job_" job.id),
    ("tenant_id", .str job.tenantId),
    ("phase", .str job.phase.value),
    ("status", .str job.phase.value),
    ("generation", .int job.generation),
    ("observed_generation", .int job.observedGeneration),
    ("revision", .int job.revision),
    ("durability", .str job.durability),
    ("store_epoch", idJson "store_" job.storeEpoch),
    ("attempt_id", nullJson (idJson "attempt_") job.attemptId),
    ("lease_epoch", .int job.leaseEpoch),
    ("created_at", instantJson job.createdAt),
    ("updated_at", instantJson job.updatedAt),
    ("started_at", nullJson instantJson job.startedAt),
    ("completed_at", nullJson instantJson job.completedAt),
    ("exit_code", nullJson .int job.exitCode),
    ("reason", nullJson (fun reason => .str reason) job.reason),
    ("error", job.error.getD .null),
    ("output", .obj [("stdout_bytes", .int job.stdoutBytes), ("stderr_bytes", .int job.stderrBytes),
      ("truncated", .bool job.outputTruncated)]),
    ("conditions", conditionsToJson job.conditionsJson),
    ("status_url", .str (String.ofList ("/v1/jobs/".toList ++ idText "job_" job.id))),
    ("result_url", .str (String.ofList ("/v1/jobs/".toList ++ idText "job_" job.id ++ "/result".toList)))]

/-- An outbox record as a deliverer sees it. -/
structure OutboxRecord where
  eventId : Uuid
  jobId : Uuid
  tenantId : String
  endpointId : PyStr
  payload : List (PyStr × PyJson)
  attempts : Nat
  nextAttemptAt : Instant
  deliveryAttemptId : Option Uuid
  deriving DecidableEq

/-- `column = ?` in SQL: null equals nothing. -/
def sqlEq {α : Type} [DecidableEq α] (column parameter : Option α) : Bool :=
  match column, parameter with
  | some a, some b => a = b
  | _, _ => false

/-- `id = ? AND attempt_id = ? AND lease_owner = ?`. -/
def ownedBy (jobId attemptId : Uuid) (owner : String) (r : JobRow) : Bool :=
  r.id = jobId && r.attemptId = some attemptId && r.leaseOwner = some owner

namespace Store

variable (cfg : StoreConfig)

/-- `_transaction`: the body's changes are committed unless it raises, or the rows outgrow their limit. -/
def transaction {α : Type} (body : Store → Except StoreError (α × Store)) (s : Store) : Outcome α :=
  match body s with
  | .error e => (.error e, s)
  | .ok (a, s') =>
    if s'.metadataBytes > cfg.maxMetadataBytes ∧ s'.metadataBytes > s.metadataBytes then
      (.error (.admissionLimited "metadata capacity is full"), s)
    else
      (.ok a, s')

/-- `_event`: one event, and the oldest ones beyond `max_event_records` trimmed. -/
def event (now : Instant) (jobId : Uuid) (revision : Nat) (kind : String) (s : Store) : Except StoreError Store :=
  if s.events.any (fun e => e.jobId = jobId ∧ e.revision = revision ∧ e.kind = kind) then
    throw (.integrityError "UNIQUE constraint failed: resource_events")
  else
    let s := insertEvent ⟨s.nextSeq, jobId, revision, kind, now⟩ { s with nextSeq := s.nextSeq + 1 }
    let trimmed := ((s.events.map (·.seq)).insertionSort (fun a b => a ≥ b)).drop cfg.maxEventRecords.toNat
    pure (deleteEvents (fun e => trimmed.contains e.seq) s)

/-- `_owned_row`. -/
def ownedRow (jobId attemptId : Uuid) (owner : String) (s : Store) : Except StoreError JobRow :=
  match s.jobs.find? (ownedBy jobId attemptId owner) with
  | some row => pure row
  | none => throw (.storeError "stale or invalid attempt ownership")

/-- `_select_job`. -/
def selectJob (jobId : Uuid) (tenantId : Option String) (s : Store) : Except StoreError JobRow :=
  match s.jobs.find? (fun r => r.id = jobId && (tenantId.all fun t => r.tenantId = t)) with
  | some row => pure row
  | none => throw (.jobNotFound jobId)

/-- `SELECT * FROM jobs WHERE id = ?` where the row was just written. -/
def rowOf (jobId : Uuid) (s : Store) : Except StoreError JobRow := s.selectJob jobId none

def get (jobId : Uuid) (tenantId : Option String) (s : Store) : Except StoreError JobRecord := do
  rowToJob (← s.selectJob jobId tenantId)

/-- The trailing `return self.get(job_id)` of an operation, after its transaction was committed. -/
def thenGet (jobId : Uuid) (o : Outcome Unit) : Outcome JobRecord := o.andThen fun _ s => (s.get jobId none, s)

/-- The result of an operation whose transaction may have returned a record at once, and reads the job again otherwise. -/
def returnedOrGet (jobId : Uuid) (o : Outcome (Option JobRecord)) : Outcome JobRecord :=
  o.andThen fun returned s =>
    match returned with
    | some job => (.ok job, s)
    | none => (s.get jobId none, s)

/-- The endpoint a job names, if it names one. -/
def endpointOf (spec : JobSpec) : Option PyStr :=
  match spec.callbackEndpointId with
  | .str e => if e = [] then none else some e
  | _ => none

/-- The outbox row that announces a terminal job. -/
def notification (now : Instant) (eventId : Uuid) (endpoint : PyStr) (job : JobRecord) : OutboxRow :=
  { eventId, jobId := job.id, endpointId := endpoint
    payloadJson := ("event_id", idJson "evt_" eventId) :: ("event_type", .str "job.completed") :: job.toDict
    nextAttemptAt := now
    createdAt := now }

/-- `_insert_outbox`: the notification of a row, if the row's specification names an endpoint. A name with a surrogate has no bytes in
UTF-8, and the statement raises. -/
def notify (now : Instant) (row : JobRow) (s : Store) : Except StoreError Store := do
  let job ← rowToJob row
  match endpointOf job.spec with
  | none => pure s
  | some endpoint =>
    let (eventId, s) := s.draw
    if (PyStr.encode endpoint).isNone then
      throw (.py (.unicodeEncodeError endpoint))
    pure (s.insertOutbox cfg (notification now eventId endpoint job))

/-! ## Submission and claims -/

/-- The canonical text of a specification. -/
def specText (spec : JobSpec) : PyStr := spec.specText cfg.host.float

/-- The row of an accepted job. -/
def acceptedRow (now : Instant) (epoch jobId : Uuid) (tenantId idempotencyKey : String) (spec : JobSpec) : JobRow :=
  { id := jobId, tenantId, idempotencyKey
    requestHash := cfg.host.sha256 (specText cfg spec)
    specJson := (PyJson.obj spec.toDict).sortKeys
    phase := .queued
    generation := 1
    observedGeneration := 1
    revision := 1
    durability := cfg.durability
    storeEpoch := epoch
    createdAt := now
    updatedAt := now
    conditionsJson := [⟨.accepted, true, if cfg.volatile then "VolatileStore" else "Persisted", now⟩] }

/-- The arguments of `submit` that are checked after expired jobs were pruned. -/
def checkSubmitter (tenantId idempotencyKey : String) : Except StoreError Unit :=
  if tenantId = "" ∨ idempotencyKey = "" then
    throw (.py (.valueError "tenant_id and idempotency_key are required"))
  else if tenantId.utf8ByteSize > 256 then
    throw (.py (.valueError "tenant_id exceeds 256 UTF-8 bytes"))
  else if idempotencyKey.utf8ByteSize > 256 then
    throw (.py (.valueError "idempotency_key exceeds 256 UTF-8 bytes"))
  else
    pure ()

/-- An admission limit is reached. -/
def full (tenantId : String) (s : Store) : Bool :=
  cfg.maxJobs ≤ s.jobs.length ||
    cfg.maxQueuedJobs ≤ Table.rowcount (fun r : JobRow => r.phase = .queued) s.jobs ||
    cfg.maxQueuedJobsPerTenant ≤ Table.rowcount (fun r : JobRow => r.phase = .queued ∧ r.tenantId = tenantId) s.jobs

/-- The transaction of `submit`. -/
def submitTransaction (clock : Reading) (tenantId idempotencyKey : String) (spec : JobSpec) (s : Store) :
    Outcome (JobRecord × Bool) :=
  transaction cfg (fun s =>
    match s.jobs.find? (fun r => r.tenantId = tenantId && r.idempotencyKey = idempotencyKey) with
    | some existing =>
      if existing.requestHash ≠ cfg.host.sha256 (specText cfg spec) then
        throw (.idempotencyConflict "idempotency key was already used with different content")
      else do
        let job ← rowToJob existing
        pure ((job, false), s)
    | none =>
      if s.full cfg tenantId then
        throw (.admissionLimited "job admission capacity is full")
      else do
        let (jobId, s) := s.draw
        let s := s.insertJob cfg (acceptedRow cfg clock.now s.storeEpoch jobId tenantId idempotencyKey spec)
        let s ← s.event cfg clock.now jobId 1 "job.accepted"
        let job ← rowToJob (← s.rowOf jobId)
        pure ((job, true), s)) s

/-- The row of a claimed job. -/
def assignedRow (clock : Reading) (attemptId : Uuid) (owner : String) (leaseSeconds : Int) (r : JobRow) : JobRow :=
  { r with
    phase := .assigned
    attemptId := some attemptId
    leaseOwner := some owner
    leaseEpoch := r.leaseEpoch + 1
    leaseExpiresAt := some (clock.now + leaseSeconds * Instant.second)
    revision := r.revision + 1
    updatedAt := clock.now }

def claimNext (clock : Reading) (owner : String) (leaseSeconds : Int) (s : Store) : Outcome (Option JobRecord) :=
  transaction cfg (fun s =>
    match (Table.selectBy (·.createdAt) (fun r : JobRow => r.phase = .queued) s.jobs).head? with
    | none => pure (none, s)
    | some row => do
      let (attemptId, s) := s.draw
      let clause := fun (r : JobRow) => r.id = row.id && r.revision = row.revision && r.phase = .queued
      if Table.rowcount clause s.jobs ≠ 1 then
        return (none, s)
      let s := s.updateJobs cfg clause (assignedRow clock attemptId owner leaseSeconds)
      let s ← s.event cfg clock.now row.id (row.revision + 1) "job.assigned"
      let job ← rowToJob (← s.rowOf row.id)
      pure (some job, s)) s

/-! ## The attempt -/

/-- The row of an attempt whose process started. -/
def runningRow (now : Instant) (revision : Nat) (r : JobRow) : JobRow :=
  { r with phase := .running, revision, startedAt := some now, updatedAt := now }

/-- `mark_running`: the owner is checked, the phase is not. -/
def markRunning (clock : Reading) (jobId attemptId : Uuid) (owner : String) (s : Store) : Outcome JobRecord :=
  thenGet jobId (transaction cfg (fun s => do
    let row ← s.ownedRow jobId attemptId owner
    let revision := row.revision + 1
    let s := s.updateJobs cfg (ownedBy jobId attemptId owner) (runningRow clock.now revision)
    let s ← s.event cfg clock.now jobId revision "job.running"
    pure ((), s)) s)

def renewLease (clock : Reading) (jobId attemptId : Uuid) (owner : String) (leaseSeconds : Int) (s : Store) :
    Outcome Bool :=
  transaction cfg (fun s =>
    let clause := fun (r : JobRow) => ownedBy jobId attemptId owner r && r.phase.held
    let s' := s.updateJobs cfg clause fun r =>
      { r with leaseExpiresAt := some (clock.now + leaseSeconds * Instant.second) }
    pure (decide (Table.rowcount clause s.jobs = 1), s')) s

/-- What an attempt reports when it ends. -/
structure Report where
  phase : JobPhase
  exitCode : Option Int
  reason : String
  error : Option PyJson
  stdoutPath : Option String
  stderrPath : Option String
  stdoutBytes : Int
  stderrBytes : Int
  outputTruncated : Bool
  deriving DecidableEq

/-- `error` is written unless it is null or empty. -/
def Report.errorJson (report : Report) : Option PyJson :=
  match report.error with
  | some (.obj []) => none
  | e => e

/-- The phase and reason a finished attempt gets: an intent to cancel wins over what was reported. -/
def settledPhase (cancelled : Bool) (phase : JobPhase) : JobPhase := if cancelled then .canceled else phase

def settledReason (cancelled : Bool) (reason : String) : String := if cancelled then "cancelled" else reason

/-- The row of a finished attempt: `row` as it was read, `r` as it is updated. -/
def finishedRow (now : Instant) (row : JobRow) (report : Report) (r : JobRow) : JobRow :=
  let phase := settledPhase row.cancelled report.phase
  let reason := settledReason row.cancelled report.reason
  { r with
    phase
    observedGeneration := r.generation
    revision := row.revision + 1
    completedAt := some now
    updatedAt := now
    exitCode := report.exitCode
    reason := some reason
    errorJson := report.errorJson
    stdoutPath := report.stdoutPath
    stderrPath := report.stderrPath
    stdoutBytes := report.stdoutBytes
    stderrBytes := report.stderrBytes
    outputTruncated := report.outputTruncated
    conditionsJson := row.conditionsJson ++ [⟨.ready, decide (phase = .succeeded), reason, now⟩]
    leaseExpiresAt := none }

/-- `finish`. The body gives the record of a job that is already terminal, which is returned at once. -/
def finish (clock : Reading) (jobId attemptId : Uuid) (owner : String) (report : Report) (s : Store) : Outcome JobRecord :=
  if !report.phase.terminal then
    (.error (.py (.valueError "finish requires a terminal phase")), s)
  else
    returnedOrGet jobId (transaction cfg (fun s => do
      let row ← s.ownedRow jobId attemptId owner
      if row.phase.terminal then
        return (some (← rowToJob row), s)
      if !row.phase.held then
        throw (.storeError "attempt is not in a finishable phase")
      let s := s.updateJobs cfg (ownedBy jobId attemptId owner) (finishedRow clock.now row report)
      let s ← s.event cfg clock.now jobId (row.revision + 1) ("job." ++ (settledPhase row.cancelled report.phase).value)
      let s ← s.notify cfg clock.now (← s.rowOf jobId)
      pure (none, s)) s)

/-! ## Cancellation and recovery -/

/-- The row of a job that is asked to cancel: a queued one is cancelled at once. -/
def cancelRequestedRow (now : Instant) (row : JobRow) (r : JobRow) : JobRow :=
  let queued := row.phase = .queued
  { r with
    specJson := row.cancelledSpecJson
    generation := row.generation + 1
    observedGeneration := if queued then row.generation + 1 else row.observedGeneration
    revision := row.revision + 1
    phase := if queued then .canceled else row.phase
    completedAt := if queued then some now else r.completedAt
    reason := if queued then some "cancelled_before_start" else row.reason
    updatedAt := now }

def requestCancel (clock : Reading) (jobId : Uuid) (tenantId : Option String) (s : Store) : Outcome JobRecord :=
  returnedOrGet jobId (transaction cfg (fun s => do
    let row ← s.selectJob jobId tenantId
    if row.phase.terminal || row.cancelled then
      return (some (← rowToJob row), s)
    let s := s.updateJobs cfg (fun r => r.id = jobId && r.revision = row.revision) (cancelRequestedRow clock.now row)
    let s ← s.event cfg clock.now jobId (row.revision + 1) "job.cancel_requested"
    let updated ← s.rowOf jobId
    if row.phase = .queued then
      return (none, ← s.notify cfg clock.now updated)
    pure (none, s)) s)

/-- The phase of an attempt whose executor is gone. -/
def lostPhase (cancelled : Bool) : JobPhase := if cancelled then .canceled else .executorLost

/-- The row of an attempt whose executor is gone: `row` as it was read, `r` as it is updated. -/
def lostRow (now : Instant) (lostReason : String) (row : JobRow) (r : JobRow) : JobRow :=
  { r with
    phase := lostPhase row.cancelled
    observedGeneration := r.generation
    revision := row.revision + 1
    completedAt := some now
    updatedAt := now
    reason := some (settledReason row.cancelled lostReason)
    leaseExpiresAt := none }

/-- What both recoveries do to one row they read: the update, its event and its notification. -/
def settleLost (now : Instant) (lostReason : String) (clause : JobRow → Bool) (row : JobRow) (s : Store) :
    Except StoreError Store := do
  let s := s.updateJobs cfg clause (lostRow now lostReason row)
  let s ← s.event cfg now row.id (row.revision + 1) ("job." ++ (lostPhase row.cancelled).value)
  s.notify cfg now (← s.rowOf row.id)

def recoverInterruptedRow (clock : Reading) (s : Store) (row : JobRow) : Except StoreError Store :=
  s.settleLost cfg (clock.later row.id) "service_restarted" (fun r => r.id = row.id) row

def recoverInterrupted (clock : Reading) (s : Store) : Outcome Nat :=
  transaction cfg (fun s => do
    let s := s.updateOutbox cfg (fun o => o.state = .delivering) fun o =>
      { o with state := .pending, nextAttemptAt := clock.now, deliveryAttemptId := none }
    let rows := Table.select (fun r => r.phase.held) s.jobs
    let s ← rows.foldlM (recoverInterruptedRow cfg clock) s
    pure (rows.length, s)) s

/-- `lease_expires_at IS NOT NULL AND lease_expires_at <= ?`. -/
def leaseExpired (time : Instant) (r : JobRow) : Bool := r.leaseExpiresAt.any fun t => t ≤ time

def recoverExpiredRow (clock : Reading) (state : Nat × Store) (row : JobRow) : Except StoreError (Nat × Store) :=
  let (recovered, s) := state
  let clause := fun (r : JobRow) => r.id = row.id && r.revision = row.revision && leaseExpired (clock.later row.id) r
  if Table.rowcount clause s.jobs ≠ 1 then
    pure (recovered, s)
  else do
    let s ← s.settleLost cfg (clock.later row.id) "executor_lease_expired" clause row
    pure (recovered + 1, s)

def recoverExpiredLeases (clock : Reading) (excludeJobIds : List Uuid) (s : Store) : Outcome Nat :=
  transaction cfg (fun s => do
    let rows := Table.select (fun r => r.phase.held && leaseExpired clock.now r) s.jobs
    let rows := rows.filter fun row => !excludeJobIds.contains row.id
    rows.foldlM (recoverExpiredRow cfg clock) (0, s)) s

/-! ## The outbox -/

def claimOutboxRow (now lease : Instant) (state : List (OutboxRow × Uuid) × Store) (row : OutboxRow) :
    List (OutboxRow × Uuid) × Store :=
  let (claimed, s) := state
  let (deliveryAttemptId, s) := s.draw
  let clause := fun (o : OutboxRow) => o.eventId = row.eventId && o.state = .pending
  let s' := s.updateOutbox cfg clause fun o =>
    { o with state := .delivering, nextAttemptAt := now + lease, deliveryAttemptId := some deliveryAttemptId }
  if Table.rowcount clause s.outbox = 1 then (claimed ++ [(row, deliveryAttemptId)], s') else (claimed, s')

/-- The record of a claimed row, as it was read. -/
def outboxRecord (s : Store) (row : OutboxRow) (deliveryAttemptId : Option Uuid) : OutboxRecord :=
  { eventId := row.eventId
    jobId := row.jobId
    tenantId := ((s.jobs.find? fun r => r.id = row.jobId).map (·.tenantId)).getD ""
    endpointId := row.endpointId
    payload := PyJson.ofPairs (PyJson.rereadMembers true row.payloadJson)
    attempts := row.attempts
    nextAttemptAt := row.nextAttemptAt
    deliveryAttemptId }

/-- `claim_outbox_due`: claims that ran out are taken back, and due rows claimed, in the order they are due. The join with
`jobs` leaves out a row whose job is gone. -/
def claimOutboxDue (clock : Reading) (limit : Int) (lease : Instant) (s : Store) : Outcome (List OutboxRecord) :=
  if limit ≤ 0 then
    (.ok [], s)
  else
    transaction cfg (fun s =>
      let s := s.updateOutbox cfg (fun o => o.state = .delivering && o.nextAttemptAt ≤ clock.now) fun o =>
        { o with state := .pending, deliveryAttemptId := none }
      let due := fun (o : OutboxRow) =>
        o.state = .pending && o.nextAttemptAt ≤ clock.now && s.jobs.any fun r => r.id = o.jobId
      let rows := (Table.selectBy (·.nextAttemptAt) due s.outbox).take limit.toNat
      let (claimed, s') := rows.foldl (claimOutboxRow cfg clock.now lease) ([], s)
      pure (claimed.map fun c => outboxRecord s c.1 (some c.2), s')) s

/-- `event_id = ? AND state = 'delivering' AND delivery_attempt_id = ?`. -/
def claimedBy (eventId : Uuid) (deliveryAttemptId : Option Uuid) (o : OutboxRow) : Bool :=
  o.eventId = eventId && o.state = .delivering && sqlEq o.deliveryAttemptId deliveryAttemptId

/-- What both settlements of a claim do: the update, and whether it met a row. -/
def settleClaim (eventId : Uuid) (deliveryAttemptId : Option Uuid) (f : OutboxRow → OutboxRow) (s : Store) :
    Outcome Bool :=
  transaction cfg (fun s =>
    let clause := claimedBy eventId deliveryAttemptId
    pure (decide (Table.rowcount clause s.outbox = 1), s.updateOutbox cfg clause f)) s

/-- The row of a notification that was delivered. -/
def deliveredRow (now : Instant) (o : OutboxRow) : OutboxRow :=
  { o with state := .delivered, deliveredAt := some now, deliveryAttemptId := none }

/-- The row of a notification whose delivery failed: it is tried again, unless the failure is permanent. -/
def failedRow (error : String) (nextAttemptAt : Instant) (permanent : Bool) (o : OutboxRow) : OutboxRow :=
  { o with
    state := if permanent then .dead else .pending
    attempts := o.attempts + 1
    nextAttemptAt
    lastError := some (String.ofList (error.toList.take 1000))
    deliveryAttemptId := none }

def outboxDelivered (clock : Reading) (eventId : Uuid) (deliveryAttemptId : Option Uuid) (s : Store) : Outcome Bool :=
  settleClaim cfg eventId deliveryAttemptId (deliveredRow clock.now) s

def outboxFailed (eventId : Uuid) (deliveryAttemptId : Option Uuid) (error : String) (nextAttemptAt : Instant)
    (permanent : Bool) (s : Store) : Outcome Bool :=
  settleClaim cfg eventId deliveryAttemptId (failedRow error nextAttemptAt permanent) s

/-! ## Expiry -/

/-- The transaction that clears the manifest of a job whose output was deleted. -/
def clearManifest (jobId : Uuid) (s : Store) : Outcome Nat :=
  transaction cfg (fun s =>
    let clause := fun (d : DeletionRow) => d.jobId = jobId
    pure (Table.rowcount clause s.deletions, s.deleteDeletions clause)) s

/-- A cleaner and what it does with each manifest it is given: `true` where it returns, `false` where it raises `OSError`. -/
abbrev Cleaner := DeletionRow → Bool

def finalizeEach (cleaner : Cleaner) : List DeletionRow → Nat → Store → Outcome Nat
  | [], finalized, s => (.ok finalized, s)
  | row :: rows, finalized, s =>
    if cleaner row then
      (clearManifest cfg row.jobId s).andThen fun deleted s => finalizeEach cleaner rows (finalized + deleted) s
    else
      finalizeEach cleaner rows finalized s

def finalizeOutputDeletions (cleaner : Option Cleaner) (s : Store) : Outcome Nat :=
  match cleaner with
  | none => (.ok 0, s)
  | some cleaner => finalizeEach cfg cleaner (Table.selectBy (·.createdAt) (fun _ => true) s.deletions) 0 s

/-- A terminal job that completed before the cutoff and has no notification to deliver. -/
def prunable (s : Store) (cutoff : Instant) (r : JobRow) : Bool :=
  r.phase.terminal && (r.completedAt.any fun t => t < cutoff) &&
    !s.outbox.any fun o => o.jobId = r.id && o.state.undelivered

/-- One expired job: its manifest if it has output, and its row. -/
def pruneRow (clock : Reading) (hasCleaner : Bool) (cutoff : Instant) (state : Nat × Store) (row : JobRow) : Nat × Store :=
  let (deleted, s) := state
  let hasOutput := row.stdoutPath.isSome || row.stderrPath.isSome
  if !hasCleaner && hasOutput then
    (deleted, s)
  else
    let s := if hasOutput then s.insertDeletion ⟨row.id, row.stdoutPath, row.stderrPath, clock.later row.id⟩ else s
    let clause := fun (r : JobRow) => r.id = row.id && s.prunable cutoff r
    let rowcount := Table.rowcount clause s.jobs
    let s := s.deleteJobs cfg clause
    let s := if rowcount = 0 then s.deleteDeletions (fun d => d.jobId = row.id) else s
    (deleted + rowcount, s)

/-- The transaction of `prune_expired`. -/
def pruneTransaction (clock : Reading) (hasCleaner : Bool) (cutoff : Instant) (s : Store) : Outcome Nat :=
  transaction cfg (fun s =>
    pure ((Table.select (s.prunable cutoff) s.jobs).foldl (pruneRow cfg clock hasCleaner cutoff) (0, s))) s

/-- `prune_expired`: manifests left over are finalized, expired jobs deleted, and their manifests finalized. -/
def pruneExpired (clock : Reading) (before after : Option Cleaner) (s : Store) : Outcome Nat :=
  (finalizeOutputDeletions cfg before s).andThen fun _ s =>
    match clock.now.minusSeconds cfg.jobTtlSeconds with
    | none => (.error (.overflowError "date value out of range"), s)
    | some cutoff =>
      (pruneTransaction cfg clock after.isSome cutoff s).andThen fun deleted s =>
        (finalizeOutputDeletions cfg after s).andThen fun _ s => (.ok deleted, s)

/-- `submit`: the specification is checked, expired jobs are pruned, and the transaction is run. -/
def submit (clock : Reading) (before after : Option Cleaner) (tenantId idempotencyKey : String) (spec : JobSpec)
    (s : Store) : Outcome (JobRecord × Bool) :=
  match spec.validate with
  | .error e => (.error (.py e), s)
  | .ok () =>
    (pruneExpired cfg clock before after s).andThen fun _ s =>
      match checkSubmitter tenantId idempotencyKey with
      | .error e => (.error e, s)
      | .ok () => submitTransaction cfg clock tenantId idempotencyKey spec s

/-! ## Opening the store -/

/-- `_migrate`, on the tables found: the schema version written, the counter recalculated. -/
def migrate (s : Store) : Store :=
  recalculateMetadataUsage cfg
    { s with metadata := s.metadata.filter (fun e => e.1 ≠ "schema_version") ++ [("schema_version", ['3'])] }

/-- A store whose tables are created on opening, with the identity it draws; only a file store keeps it. -/
def create (drawn : Nat) : Store :=
  let s : Store :=
    { storeEpoch := drawn, metadata := [], jobs := [], events := [], outbox := [], deletions := [], metadataBytes := 0,
      nextSeq := 1, drawn := drawn + 1 }
  let s := migrate cfg s
  if cfg.volatile then s
  else
    { s with
      metadata := s.metadata ++ [("store_id", idText "store_" drawn)]
      metadataBytes := s.metadataBytes + metadataRowBytes ("store_id", idText "store_" drawn) }

/-- Closing the store and opening it again: a file store finds its tables, a store in memory starts anew. -/
def reopen (s : Store) : Store := if cfg.volatile then create cfg s.drawn else migrate cfg s

end Store

end SharkRail
