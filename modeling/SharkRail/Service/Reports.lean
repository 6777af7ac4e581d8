import SharkRail.Lib.JsonEncoding
import SharkRail.Store.Columns

/-!
# What a job is reported with

`JobRecord.to_dict` over strings of code points, and the responses of the HTTP handler that carry it. A body is JSON that is not held to
ASCII, in UTF-8, so it is not sent where a string of the job has a surrogate. The other columns of a row are texts of SQLite, which takes
a string that encodes and no other.
-/

namespace SharkRail

namespace Texts

open PyStr PyJson

/-- A string that SQLite takes for a text column. -/
abbrev SqlText := { s : PyStr // Unicode s }

/-- The columns of a row that are reported, beside its texts of JSON and its phase. -/
structure RowValues where
  id : SqlText
  tenantId : SqlText
  generation : ℤ
  observedGeneration : ℤ
  revision : ℤ
  durability : SqlText
  storeEpoch : SqlText
  attemptId : Option SqlText
  leaseEpoch : ℤ
  createdAt : SqlText
  updatedAt : SqlText
  startedAt : Option SqlText
  completedAt : Option SqlText
  exitCode : Option ℤ
  reason : Option SqlText
  stdoutBytes : ℤ
  stderrBytes : ℤ
  outputTruncated : Bool

/-- A job as `_row_to_job` gives it: the columns, the phase, and what was read in the texts. -/
structure JobRecord where
  row : RowValues
  phase : JobPhase
  spec : JobSpec
  error : PyJson
  conditions : List PyJson

def textJson (text : SqlText) : PyJson := .str text.1

/-- A column that may be null as a JSON value. -/
def nullJson {α : Type} (f : α → PyJson) (column : Option α) : PyJson := (column.map f).getD .null

namespace JobRecord

/-- `to_dict(include_spec=...)`. -/
def toDict (job : JobRecord) (includeSpec : Bool) : List (PyStr × PyJson) :=
  [(ofString "job_id", textJson job.row.id),
    (ofString "tenant_id", textJson job.row.tenantId),
    (ofString "phase", .str (ofString job.phase.value)),
    (ofString "status", .str (ofString job.phase.value)),
    (ofString "generation", .int job.row.generation),
    (ofString "observed_generation", .int job.row.observedGeneration),
    (ofString "revision", .int job.row.revision),
    (ofString "durability", textJson job.row.durability),
    (ofString "store_epoch", textJson job.row.storeEpoch),
    (ofString "attempt_id", nullJson textJson job.row.attemptId),
    (ofString "lease_epoch", .int job.row.leaseEpoch),
    (ofString "created_at", textJson job.row.createdAt),
    (ofString "updated_at", textJson job.row.updatedAt),
    (ofString "started_at", nullJson textJson job.row.startedAt),
    (ofString "completed_at", nullJson textJson job.row.completedAt),
    (ofString "exit_code", nullJson .int job.row.exitCode),
    (ofString "reason", nullJson textJson job.row.reason),
    (ofString "error", job.error),
    (ofString "output", .obj [(ofString "stdout_bytes", .int job.row.stdoutBytes), (ofString "stderr_bytes", .int job.row.stderrBytes),
      (ofString "truncated", .bool job.row.outputTruncated)]),
    (ofString "conditions", .arr job.conditions),
    (ofString "status_url", .str (ofString "/v1/jobs/" ++ job.row.id.1)),
    (ofString "result_url", .str (ofString "/v1/jobs/" ++ job.row.id.1 ++ ofString "/result"))] ++
    if includeSpec then [(ofString "spec", .obj job.spec.toDict)] else []

end JobRecord

/-- `_row_to_job`. -/
def rowToJob (F : FloatText) (row : RowValues) (columns : Columns) : Option JobRecord :=
  (columns.rowToJob F).map fun (spec, error, conditions) => ⟨row, columns.phase, spec, error, conditions⟩

/-- `json.dumps(value, ensure_ascii=False, separators=(",", ":")).encode("utf-8")`, `none` where it raises `UnicodeEncodeError`. -/
def jsonBody (F : FloatText) (value : PyJson) : Option (List UInt8) := encode (dumps F ⟨false, false⟩ value)

/-- The requests that are answered with a job. -/
inductive Report where
  | submit (created : Bool)
  | get
  | result
  | cancel

/-- What the handler answers: the report, or the error that an exception is turned into. -/
inductive Answer where
  | reported (status : ℕ) (body : List UInt8)
  | badRequest
  | internalError (status : ℕ)

/-- The status of a report. -/
def Report.status : Report → ℕ
  | .submit created => if created then 202 else 200
  | .get | .result => 200
  | .cancel => 202

/-- What `UnicodeEncodeError` is turned into. `_do_get` encodes within its `try`, where a `ValueError` is a bad request; `_do_post` is past
its own, and `do_POST` answers an internal error. -/
def Report.refused : Report → Answer
  | .submit _ | .cancel => .internalError 500
  | .get | .result => .badRequest

/-- The answer to a request for a job that was found; a job that is not terminal has no result, and the `StoreError` is answered as an
internal error of its own status. -/
def Report.answer (F : FloatText) (report : Report) (job : JobRecord) : Answer :=
  match report, job.phase.terminal with
  | .result, false => .internalError 503
  | _, _ =>
    let includeSpec := match report with
      | .result => false
      | _ => true
    match jsonBody F (.obj (job.toDict includeSpec)) with
    | some body => .reported report.status body
    | none => report.refused

end Texts

end SharkRail
