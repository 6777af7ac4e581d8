import SharkRail.Jobs.SpecText
import SharkRail.Lib.Clock
import SharkRail.Lib.Table

/-!
# The tables of the job store

The rows of the five tables, and what the store keeps beside them: the counter of `metadata_usage`, the sequence of
`resource_events`, and how many values `uuid4` has given so far. Every id is the number of its draw, so two draws never
agree; the text of an id has the prefix of its kind and 32 hexadecimal digits.
-/

namespace SharkRail

/-- A value of `uuid4`: the number of its draw. -/
abbrev Uuid := Nat

namespace Uuid

/-- The lower-case hexadecimal digit of a number below sixteen. -/
def hexDigit (n : Nat) : Char := if n < 10 then Char.ofNat (48 + n) else Char.ofNat (87 + n)

/-- The `width` least significant hexadecimal digits, most significant first, and a text after them. -/
def hexBefore : Nat → Nat → List Char → List Char
  | 0, _, text => text
  | width + 1, n, text => hexBefore width (n / 16) (hexDigit (n % 16) :: text)

/-- `uuid4().hex`. -/
def hex (u : Uuid) : List Char := hexBefore 32 u []

end Uuid

/-- The text of an id: its prefix and `uuid4().hex`. -/
def idText (kind : String) (u : Uuid) : List Char := kind.toList ++ u.hex

/-- What the store takes from the language and from SQLite as it finds it: the digest of a text in UTF-8, the texts of floats, and
the length of the text SQLite gives a `REAL`. -/
structure Host where
  sha256 : PyStr → String
  float : PyJson.FloatText
  realBytes : Instant → Nat

/-- The arguments of the constructor. -/
structure StoreConfig where
  volatile : Bool := false
  maxJobs : Int := 1000
  maxMetadataBytes : Int := 64 * 1024 * 1024
  maxEventRecords : Int := 10000
  jobTtlSeconds : Int := 3600
  maxQueuedJobs : Int := 1000
  maxQueuedJobsPerTenant : Int := 100
  host : Host

/-- The durability class of a store. -/
def StoreConfig.durability (cfg : StoreConfig) : String := if cfg.volatile then "volatile" else "durable"

/-- The types of a condition. -/
inductive ConditionType where
  | accepted
  | ready
  deriving DecidableEq

/-- An entry of `conditions_json`. -/
structure Condition where
  type : ConditionType
  status : Bool
  reason : String
  transitionTime : Instant
  deriving DecidableEq

/-- A row of `jobs`. A column that holds a JSON text is the value that the text was written for. -/
structure JobRow where
  id : Uuid
  tenantId : String
  idempotencyKey : String
  requestHash : String
  specJson : PyJson
  phase : JobPhase
  generation : Nat
  observedGeneration : Nat
  revision : Nat
  durability : String
  storeEpoch : Uuid
  attemptId : Option Uuid := none
  leaseOwner : Option String := none
  leaseEpoch : Nat := 0
  leaseExpiresAt : Option Instant := none
  createdAt : Instant
  updatedAt : Instant
  startedAt : Option Instant := none
  completedAt : Option Instant := none
  exitCode : Option Int := none
  reason : Option String := none
  errorJson : Option PyJson := none
  stdoutPath : Option String := none
  stderrPath : Option String := none
  stdoutBytes : Int := 0
  stderrBytes : Int := 0
  outputTruncated : Bool := false
  conditionsJson : List Condition := []
  deriving DecidableEq

/-- A row of `resource_events`. -/
structure EventRow where
  seq : Nat
  jobId : Uuid
  revision : Nat
  kind : String
  createdAt : Instant
  deriving DecidableEq

/-- The state of an outbox row. -/
inductive OutboxState where
  | pending
  | delivering
  | delivered
  | dead
  deriving DecidableEq, Repr

def OutboxState.value : OutboxState → String
  | .pending => "pending"
  | .delivering => "delivering"
  | .delivered => "delivered"
  | .dead => "dead"

/-- A delivery of the row is still to come: `state IN ('pending', 'delivering')`. -/
def OutboxState.undelivered : OutboxState → Bool
  | .pending | .delivering => true
  | .delivered | .dead => false

/-- A row of `callback_outbox`. -/
structure OutboxRow where
  eventId : Uuid
  jobId : Uuid
  endpointId : PyStr
  payloadJson : List (PyStr × PyJson)
  state : OutboxState := .pending
  attempts : Nat := 0
  nextAttemptAt : Instant
  deliveryAttemptId : Option Uuid := none
  lastError : Option String := none
  createdAt : Instant
  deliveredAt : Option Instant := none
  deriving DecidableEq

/-- A row of `job_deletions`: output whose job row is gone and whose files are still to be deleted. -/
structure DeletionRow where
  jobId : Uuid
  stdoutPath : Option String
  stderrPath : Option String
  createdAt : Instant
  deriving DecidableEq

/-- The store: its tables and counters, and the number of `uuid4` values drawn. -/
structure Store where
  storeEpoch : Uuid
  metadata : List (String × List Char)
  jobs : List JobRow
  events : List EventRow
  outbox : List OutboxRow
  deletions : List DeletionRow
  metadataBytes : Int
  nextSeq : Nat
  drawn : Nat
  deriving DecidableEq

/-! ## What a row weighs

`length(CAST(COALESCE(column, '') AS BLOB))`, summed over the columns of the row.
-/

def textBytes (s : String) : Int := s.utf8ByteSize

/-- The weight of a string of code points that encodes, as one that is stored does. -/
def strBytes (s : PyStr) : Int := ((PyStr.encode s).map (·.length)).getD 0

def intBytes (n : Int) : Int := (toString n).utf8ByteSize

def instantBytes (t : Instant) : Int := (Instant.isoformat t).length

def idBytes (kind : String) (u : Uuid) : Int := (idText kind u).length

/-- The weight of a column that may be null. -/
def nullBytes {α : Type*} (weight : α → Int) (column : Option α) : Int := (column.map weight).getD 0

def jsonBytes (host : Host) (v : PyJson) : Int := (PyJson.dumps host.float JobSpec.specStyle v).length

def realBytes (host : Host) (t : Instant) : Int := host.realBytes t

def ConditionType.value : ConditionType → String
  | .accepted => "Accepted"
  | .ready => "Ready"

def Condition.toDict (c : Condition) : List (PyStr × PyJson) :=
  [("type", .str c.type.value),
    ("status", .bool c.status),
    ("reason", .str c.reason),
    ("transition_time", .str (String.ofList (Instant.isoformat c.transitionTime)))]

def conditionsToJson (conditions : List Condition) : PyJson := .arr (conditions.map fun c => .obj c.toDict)

def JobRow.bytes (host : Host) (r : JobRow) : Int :=
  idBytes "job_" r.id + textBytes r.tenantId + textBytes r.idempotencyKey + textBytes r.requestHash +
    jsonBytes host r.specJson + textBytes r.phase.value + intBytes r.generation + intBytes r.observedGeneration +
    intBytes r.revision + textBytes r.durability + idBytes "store_" r.storeEpoch +
    nullBytes (idBytes "attempt_") r.attemptId + nullBytes textBytes r.leaseOwner + intBytes r.leaseEpoch +
    nullBytes (realBytes host) r.leaseExpiresAt + instantBytes r.createdAt + instantBytes r.updatedAt +
    nullBytes instantBytes r.startedAt + nullBytes instantBytes r.completedAt + nullBytes intBytes r.exitCode +
    nullBytes textBytes r.reason + nullBytes (jsonBytes host) r.errorJson + nullBytes textBytes r.stdoutPath +
    nullBytes textBytes r.stderrPath + intBytes r.stdoutBytes + intBytes r.stderrBytes +
    intBytes (if r.outputTruncated then 1 else 0) + jsonBytes host (conditionsToJson r.conditionsJson)

def EventRow.bytes (r : EventRow) : Int :=
  intBytes r.seq + idBytes "job_" r.jobId + intBytes r.revision + textBytes r.kind + instantBytes r.createdAt

def OutboxRow.bytes (host : Host) (r : OutboxRow) : Int :=
  idBytes "evt_" r.eventId + idBytes "job_" r.jobId + strBytes r.endpointId + jsonBytes host (.obj r.payloadJson) +
    textBytes r.state.value + intBytes r.attempts + realBytes host r.nextAttemptAt +
    nullBytes (idBytes "delivery_") r.deliveryAttemptId + nullBytes textBytes r.lastError + instantBytes r.createdAt +
    nullBytes instantBytes r.deliveredAt

def DeletionRow.bytes (r : DeletionRow) : Int :=
  idBytes "job_" r.jobId + nullBytes textBytes r.stdoutPath + nullBytes textBytes r.stderrPath +
    instantBytes r.createdAt

def metadataRowBytes (entry : String × List Char) : Int := textBytes entry.1 + entry.2.length

/-! ## Statements

Each statement changes one table and adds to `metadata_usage` what the triggers of that table add.
-/

namespace Store

/-- `uuid4()`. -/
def draw (s : Store) : Uuid × Store := (s.drawn, { s with drawn := s.drawn + 1 })

def insertJob (cfg : StoreConfig) (r : JobRow) (s : Store) : Store :=
  { s with jobs := Table.insert s.jobs r, metadataBytes := s.metadataBytes + r.bytes cfg.host }

def updateJobs (cfg : StoreConfig) (p : JobRow → Bool) (f : JobRow → JobRow) (s : Store) : Store :=
  { s with
    jobs := Table.update p f s.jobs
    metadataBytes := s.metadataBytes + Table.updateDelta (JobRow.bytes cfg.host) p f s.jobs }

/-- Deleting jobs deletes the events and outbox rows that reference them. -/
def deleteJobs (cfg : StoreConfig) (p : JobRow → Bool) (s : Store) : Store :=
  let gone := (Table.select p s.jobs).map (·.id)
  let ofGoneEvent := fun (e : EventRow) => gone.contains e.jobId
  let ofGoneOutbox := fun (o : OutboxRow) => gone.contains o.jobId
  { s with
    jobs := Table.delete p s.jobs
    events := Table.delete ofGoneEvent s.events
    outbox := Table.delete ofGoneOutbox s.outbox
    metadataBytes := s.metadataBytes - Table.deleteDelta (JobRow.bytes cfg.host) p s.jobs -
      Table.deleteDelta EventRow.bytes ofGoneEvent s.events -
      Table.deleteDelta (OutboxRow.bytes cfg.host) ofGoneOutbox s.outbox }

def insertEvent (r : EventRow) (s : Store) : Store :=
  { s with events := Table.insert s.events r, metadataBytes := s.metadataBytes + r.bytes }

def deleteEvents (p : EventRow → Bool) (s : Store) : Store :=
  { s with
    events := Table.delete p s.events
    metadataBytes := s.metadataBytes - Table.deleteDelta EventRow.bytes p s.events }

def insertOutbox (cfg : StoreConfig) (r : OutboxRow) (s : Store) : Store :=
  { s with outbox := Table.insert s.outbox r, metadataBytes := s.metadataBytes + r.bytes cfg.host }

def updateOutbox (cfg : StoreConfig) (p : OutboxRow → Bool) (f : OutboxRow → OutboxRow) (s : Store) : Store :=
  { s with
    outbox := Table.update p f s.outbox
    metadataBytes := s.metadataBytes + Table.updateDelta (OutboxRow.bytes cfg.host) p f s.outbox }

/-- `INSERT INTO job_deletions ... ON CONFLICT(job_id) DO NOTHING`. -/
def insertDeletion (r : DeletionRow) (s : Store) : Store :=
  if s.deletions.any (fun d => d.jobId = r.jobId) then s
  else { s with deletions := Table.insert s.deletions r, metadataBytes := s.metadataBytes + r.bytes }

def deleteDeletions (p : DeletionRow → Bool) (s : Store) : Store :=
  { s with
    deletions := Table.delete p s.deletions
    metadataBytes := s.metadataBytes - Table.deleteDelta DeletionRow.bytes p s.deletions }

/-- `_recalculate_metadata_usage`: the counter set to what the rows weigh. -/
def recalculateMetadataUsage (cfg : StoreConfig) (s : Store) : Store :=
  { s with
    metadataBytes := Table.total metadataRowBytes s.metadata + Table.total (JobRow.bytes cfg.host) s.jobs +
      Table.total EventRow.bytes s.events + Table.total (OutboxRow.bytes cfg.host) s.outbox +
      Table.total DeletionRow.bytes s.deletions }

end Store

end SharkRail
