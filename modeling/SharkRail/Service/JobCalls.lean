import Mathlib
import SharkRail.Service.Handlers
import SharkRail.Service.Requests

/-!
# The service behind the handlers

The calls of a `JobService` as the handlers make them. A job is named by a text, which is the id of one of its rows or of none; exceptions
go out as the handlers tell them apart.
-/

namespace SharkRail

namespace Service

open PyStr (ofString)

/-- What the handlers see of an exception. `sqlite3.IntegrityError` and `OverflowError` are neither of the store nor of the values. -/
def raisedOf : RequestError → Raised
  | .store (.jobNotFound jobId) => .jobNotFound (ofString (String.ofList (idText "job_" jobId)))
  | .store (.idempotencyConflict message) => .idempotencyConflict (ofString message)
  | .store (.admissionLimited message) => .admissionLimited (ofString message)
  | .store (.storeError message) => .storeError (ofString message)
  | .store (.integrityError message) | .store (.overflowError message) => .other (ofString message)
  | .store (.py (.valueError message)) => .valueError message
  | .store (.py (.unicodeEncodeError object)) => .valueError (ofString object.encodeError)
  | .store (.py (.typeError message)) | .policy (.typeError message) => .typeError message
  | .policy (.violation rule) => .valueError (ofString ("execution denied by policy rule: " ++ rule))
  | .fileNotFound path => .osError (ofString path)

/-- A job that is reported with its specification. -/
def reported (job : JobRecord) : ReportedJob where
  id := ofString (String.ofList (idText "job_" job.id))
  toDict := job.toDict ++ [(ofString "spec", PyJson.obj job.spec.toDict)]

/-- The job whose id is a text. -/
def idOf (s : Service) (text : String) : Option Uuid :=
  (s.store.jobs.find? fun r => String.ofList (idText "job_" r.id) = text).map (·.id)

/-- A call about the job that a text names. -/
def byId (call : Uuid → TenantCall Uuid) (text : String) (s : Service) : Except Raised (TenantCall Uuid) :=
  match s.idOf text with
  | some jobId => .ok (call jobId)
  | none => .error (.jobNotFound (ofString text))

/-- A call as a tenant makes it, and what of its answer is passed on. -/
def served {α : Type} (cfg : RequestConfig) (request : TenantRequest) (tenantId : String)
    (call : Service → Except Raised (TenantCall Uuid)) (pass : Answer → Option α) : EStateM Raised Service α := fun s =>
  match call s with
  | .error e => .error e s
  | .ok call =>
    match Tenant.serve cfg tenantId request call s with
    | (.error e, s') => .error (raisedOf e) s'
    | (.ok answer, s') =>
      match pass answer with
      | some a => .ok a s'
      | none => .error (.other []) s'

def Answer.reportedJob : Answer → Option ReportedJob
  | .job job => some (reported job)
  | _ => none

/-- The calls of a `JobService`. -/
def jobCalls (cfg : RequestConfig) (request : TenantRequest) (health : Service → Health) : JobCalls Service where
  submit tenantId idempotencyKey payload :=
    served cfg request tenantId (fun _ => .ok (.submit idempotencyKey payload)) fun answer =>
      match answer with
      | .submitted job created => some (reported job, created)
      | _ => none
  get jobId tenantId := served cfg request tenantId (byId .get jobId) Answer.reportedJob
  result jobId tenantId :=
    served cfg request tenantId (byId .result jobId) fun answer =>
      match answer with
      | .result value => some value
      | _ => none
  readOutput jobId stream tenantId :=
    served cfg request tenantId (byId (fun jobId => .readOutput jobId stream) jobId) fun answer =>
      match answer with
      | .output data => some data
      | _ => none
  cancel jobId tenantId := served cfg request tenantId (byId .cancel jobId) Answer.reportedJob
  health s := .ok (health s) s

end Service

end SharkRail
