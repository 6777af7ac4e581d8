import Mathlib
import SharkRail.Runtime.Policy
import SharkRail.Service.Callback
import SharkRail.Service.Run

/-!
# The requests of a tenant

`submit`, `get`, `result`, `read_output` and `cancel` of `JobService`, each as one call that is not interleaved with others, and a tenant
that makes one call after another. A call names a job by an id that the tenant knows, or by the position of the call that created it:
the ids of new jobs are not known before.
-/

namespace SharkRail

/-- What the service has beside its stores when it takes a request: the policy with the host it checks against, the callback endpoints,
and the product of a float and 1000. -/
structure RequestConfig extends ServiceConfig where
  host : Runtime.Host
  policy : Runtime.ExecutionPolicy
  callbackEndpoints : List (String × Service.CallbackEndpoint) := []
  thousandfold : ℚ → ℚ := fun x => x * 1000

/-- What a request raises. -/
inductive RequestError where
  | store (e : StoreError)
  | policy (e : Runtime.PolicyError)
  | fileNotFound (path : String)
  deriving DecidableEq

/-- What a request returns. -/
inductive Answer where
  | submitted (job : JobRecord) (created : Bool)
  | job (job : JobRecord)
  | result (value : List (PyStr × PyJson))
  | output (data : Bytes)

/-- How the removal of a job's output goes: what fails is an `OSError`, raised before anything is done, after it, or in between. -/
inductive Removal where
  | done
  | refused
  | failed
  | torn (effects : Nat)

def Removal.fault : Removal → Fault
  | .done => .none
  | .refused => .before (.error true "OSError" "")
  | .failed => .after (.error true "OSError" "")
  | .torn effects => .torn effects 0 (.error true "OSError" "")

/-- The stream of a job whose file has a path. -/
def streamOf (cfg : OutputConfig) (jobId : Uuid) (path : String) : Option Stream :=
  if path = outputPath cfg jobId .stdout then some .stdout
  else if path = outputPath cfg jobId .stderr then some .stderr
  else none

namespace Output

/-- The file of a stream of a job. -/
def readStream (jobId : Uuid) (stream : Stream) (o : Output) : Option Bytes :=
  (o.dirs.lookup (.job jobId)).bind fun files => files.lookup (.bin stream)

/-- The file that has a path, wherever it is. -/
def readPath (cfg : OutputConfig) (path : String) (o : Output) : Option Bytes :=
  o.dirs.keys.findSome? fun d =>
    match d with
    | .job jobId => (streamOf cfg jobId path).bind fun stream => o.readStream jobId stream
    | .staging _ _ => none

/-- `read` of a path that the row of a job has. The directory of the job itself is looked at first: no two directories have one name. -/
def read (cfg : OutputConfig) (jobId : Uuid) (path : Option String) (o : Output) : Except RequestError Bytes :=
  match path with
  | none => .ok []
  | some path =>
    let data :=
      match streamOf cfg jobId path with
      | some stream => o.readStream jobId stream
      | none => o.readPath cfg path
    match data with
    | some data => .ok data
    | none => .error (.fileNotFound path)

end Output

/-- The path of a stream in the row of a job. -/
def JobRow.path (stream : Stream) (r : JobRow) : Option String :=
  match stream with
  | .stdout => r.stdoutPath
  | .stderr => r.stderrPath

namespace Service

open Integrations (CommandSpec)

variable (cfg : RequestConfig)

/-! ## Submission -/

/-- `_seconds_to_ms`. -/
def secondsToMs : PyJson → Option Int
  | .int n => some (max 1 (n * 1000))
  | .float (.finite q) => some (max 1 ⌈cfg.thousandfold q⌉)
  | _ => none

/-- `_command_spec`. -/
def commandSpec (spec : JobSpec) : CommandSpec :=
  { executable := match spec.command.head? with
      | some (.str executable) => executable
      | _ => []
    argv := spec.command.tail
    cwd := spec.cwd
    env := spec.env
    inheritEnv := .bool false }

/-- What `submit` checks before it turns to the store. -/
def checkSubmission (tenantId : String) (payload : List (PyStr × PyJson)) : Except RequestError JobSpec := do
  let spec ← (JobSpec.fromDict payload).mapError fun e => .store (.py e)
  let maxOutputBytes : Option Int := match spec.maxOutputBytes with
    | .int n => some n
    | _ => none
  let _ ← (cfg.policy.effectiveSpec cfg.host (commandSpec spec) (secondsToMs cfg spec.timeoutSeconds) maxOutputBytes).mapError .policy
  if let some name := Store.endpointOf spec then
    if ((cfg.callbackEndpoints.find? fun endpoint => name = endpoint.1).all fun endpoint => endpoint.2.tenantId ≠ tenantId) then
      throw (.store (.py (.valueError "unknown callback endpoint_id for tenant")))
  pure spec

/-- One manifest of `_finalize_output_deletions`: the output deleted and the manifest cleared, or the manifest left. -/
def finalizeRow (removal : Uuid → Removal) (s : Service) (row : DeletionRow) : Service :=
  let (reply, output) := s.output.deleteJob cfg.output (removal row.jobId).fault row.jobId row.stdoutPath row.stderrPath
  match reply with
  | .ok () => { s with output, store := (s.store.clearManifest cfg.store row.jobId).2 }
  | .error _ => { s with output }

/-- `_finalize_output_deletions` with `delete_job` as the cleaner. The transaction that clears a manifest does not raise. -/
def finalizeOutputDeletions (removal : Uuid → Removal) (s : Service) : Service :=
  (Table.selectBy (·.createdAt) (fun _ => true) s.store.deletions).foldl (finalizeRow cfg removal) s

/-- `prune_expired` with `delete_job` as the cleaner. -/
def pruneExpired (clock : Reading) (before after : Uuid → Removal) (s : Service) : Except StoreError Unit × Service :=
  let s := s.finalizeOutputDeletions cfg before
  match clock.now.minusSeconds cfg.store.jobTtlSeconds with
  | none => (.error (.overflowError "date value out of range"), s)
  | some cutoff =>
    match s.store.pruneTransaction cfg.store clock true cutoff with
    | (.error e, store) => (.error e, { s with store })
    | (.ok _, store) => (.ok (), { s with store }.finalizeOutputDeletions cfg after)

/-- `submit` of the store, with `delete_job` as the cleaner. -/
def submitSpec (clock : Reading) (before after : Uuid → Removal) (tenantId idempotencyKey : String) (spec : JobSpec) (s : Service) :
    Except RequestError Answer × Service :=
  match spec.validate with
  | .error e => (.error (.store (.py e)), s)
  | .ok () =>
    match s.pruneExpired cfg clock before after with
    | (.error e, s) => (.error (.store e), s)
    | (.ok (), s) =>
      match Store.checkSubmitter tenantId idempotencyKey with
      | .error e => (.error (.store e), s)
      | .ok () =>
        match s.store.submitTransaction cfg.store clock tenantId idempotencyKey spec with
        | (.error e, store) => (.error (.store e), { s with store })
        | (.ok (job, created), store) => (.ok (.submitted job created), { s with store })

/-- `submit`. -/
def submit (clock : Reading) (before after : Uuid → Removal) (tenantId idempotencyKey : String) (payload : List (PyStr × PyJson))
    (s : Service) : Except RequestError Answer × Service :=
  match checkSubmission cfg tenantId payload with
  | .error e => (.error e, s)
  | .ok spec => s.submitSpec cfg clock before after tenantId idempotencyKey spec

/-! ## The other requests -/

def get (jobId : Uuid) (tenantId : Option String) (s : Service) : Except RequestError JobRecord :=
  (s.store.get jobId tenantId).mapError .store

def result (jobId : Uuid) (tenantId : Option String) (s : Service) : Except RequestError Answer := do
  let job ← s.get jobId tenantId
  if !job.phase.terminal then
    throw (.store (.storeError "job has not reached a terminal state"))
  pure (.result job.toDict)

def readOutput (jobId : Uuid) (stream : String) (tenantId : Option String) (s : Service) : Except RequestError Answer := do
  let job ← s.get jobId tenantId
  if stream = "stdout" then
    .output <$> s.output.read cfg.output job.id job.stdoutPath
  else if stream = "stderr" then
    .output <$> s.output.read cfg.output job.id job.stderrPath
  else
    throw (.store (.py (.valueError "stream must be stdout or stderr")))

/-- `cancel`: the request is written, the active run is to be signalled, and the job is read again. -/
def cancelAndGet (clock : Reading) (jobId : Uuid) (tenantId : Option String) (s : Service) : Except RequestError Answer × Service :=
  match (s.store.requestCancel cfg.store clock jobId tenantId).1 with
  | .error e => (.error (.store e), s.cancel cfg.toServiceConfig jobId tenantId clock)
  | .ok _ =>
    let s := s.cancel cfg.toServiceConfig jobId tenantId clock
    (.job <$> s.get jobId tenantId, s)

end Service

/-! ## A tenant -/

/-- How a tenant names a job: by its id, or as the one that it created as the `index`-th. -/
inductive JobRef where
  | known (jobId : Uuid)
  | created (index : Nat)
  deriving DecidableEq

/-- A call of a tenant, with its way to name a job. -/
inductive TenantCall (ι : Type) where
  | submit (idempotencyKey : String) (payload : List (PyStr × PyJson))
  | get (job : ι)
  | result (job : ι)
  | readOutput (job : ι) (stream : String)
  | cancel (job : ι)
  deriving DecidableEq

/-- The job that a call is about; a submission is about none. -/
def TenantCall.job {ι : Type} : TenantCall ι → Option ι
  | .submit _ _ => none
  | .get job | .result job | .readOutput job _ | .cancel job => some job

/-- A call, and what it meets: the clock, and how removals of expired output go before and after the pruning. -/
structure TenantRequest where
  call : TenantCall JobRef
  clock : Reading
  before : Uuid → Removal := fun _ => .done
  after : Uuid → Removal := fun _ => .done

def JobRef.resolve (created : List Uuid) : JobRef → Option Uuid
  | .known jobId => some jobId
  | .created index => created[index]?

/-- The call with the ids of its jobs; `none` where it names a job that was not created. -/
def TenantCall.resolve (created : List Uuid) : TenantCall JobRef → Option (TenantCall Uuid)
  | .submit idempotencyKey payload => some (.submit idempotencyKey payload)
  | .get job => (job.resolve created).map .get
  | .result job => (job.resolve created).map .result
  | .readOutput job stream => (job.resolve created).map fun jobId => .readOutput jobId stream
  | .cancel job => (job.resolve created).map .cancel

/-- The id of the job that a call created. -/
def createdBy : Except RequestError Answer → List Uuid
  | .ok (.submitted job true) => [job.id]
  | _ => []

/-- A tenant at work: the service, the ids of the jobs created so far, and the answers so far. -/
structure Tenant where
  service : Service
  created : List Uuid := []
  answers : List (Except RequestError Answer) := []

namespace Tenant

variable (cfg : RequestConfig) (tenantId : String)

/-- The service answers a call of the tenant. -/
def serve (request : TenantRequest) (call : TenantCall Uuid) (s : Service) : Except RequestError Answer × Service :=
  match call with
  | .submit idempotencyKey payload => s.submit cfg request.clock request.before request.after tenantId idempotencyKey payload
  | .get jobId => (.job <$> s.get jobId (some tenantId), s)
  | .result jobId => (s.result jobId (some tenantId), s)
  | .readOutput jobId stream => (s.readOutput cfg jobId stream (some tenantId), s)
  | .cancel jobId => s.cancelAndGet cfg request.clock jobId (some tenantId)

/-- The tenant makes its next call. -/
def step (t : Tenant) (request : TenantRequest) : Tenant :=
  match request.call.resolve t.created with
  | none => t
  | some call =>
    let (answer, service) := serve cfg tenantId request call t.service
    { service, created := t.created ++ createdBy answer, answers := t.answers ++ [answer] }

end Tenant

end SharkRail
