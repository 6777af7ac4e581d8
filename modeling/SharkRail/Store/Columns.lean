import SharkRail.Jobs.SpecText

/-!
# The columns that hold texts

`spec_json`, `error_json` and `conditions_json` of a row of `jobs`, as the texts that are in them, with the phase, which decides what is
written to them. A statement of the store reads the texts, changes what it read and writes texts again; where a text is not read as what
it should be, the statement raises and the row is left.
-/

namespace SharkRail

namespace Texts

open PyStr PyJson

/-- The columns of a row that hold texts, and its phase. -/
structure Columns where
  specJson : PyStr
  errorJson : Option PyStr
  conditionsJson : PyStr
  phase : JobPhase

/-- An entry of `conditions_json`. -/
def condition (type : String) (status : Bool) (reason now : PyStr) : PyJson :=
  .obj [(ofString "type", .str (ofString type)), (ofString "status", .bool status), (ofString "reason", .str reason),
    (ofString "transition_time", .str now)]

/-- `spec_data.get("desired_state") == "cancelled"`. -/
def wantsCancel (members : List (PyStr × PyJson)) : Bool :=
  match get? members (ofString "desired_state") with
  | some (.str s) => s = ofString "cancelled"
  | _ => false

namespace Columns

variable (F : FloatText)

/-- `json.loads(row["spec_json"])`, of which the members are used. -/
def specData (columns : Columns) : Option (List (PyStr × PyJson)) :=
  match loads F columns.specJson with
  | some (.obj members) => some members
  | _ => none

/-- `json.loads(row["conditions_json"])`, to which an entry is appended. -/
def conditions (columns : Columns) : Option (List PyJson) :=
  match loads F columns.conditionsJson with
  | some (.arr items) => some items
  | _ => none

/-- `json.loads(row["error_json"]) if row["error_json"] else None`. -/
def error (columns : Columns) : Option PyJson :=
  match columns.errorJson with
  | none => some .null
  | some text => if text = [] then some .null else loads F text

/-- What `_row_to_job` reads in the columns: the specification, the error and the conditions. -/
def rowToJob (columns : Columns) : Option (JobSpec × PyJson × List PyJson) := do
  let spec ← JobSpec.readText F columns.specJson
  let error ← columns.error F
  let conditions ← columns.conditions F
  some (spec, error, conditions)

/-- The row that `submit` inserts. -/
def submitted (spec : JobSpec) (reason now : PyStr) : Columns where
  specJson := JobSpec.specText F spec
  errorJson := none
  conditionsJson := dumps F JobSpec.specStyle (.arr [condition "Accepted" true reason now])
  phase := .queued

/-- What the transactions of the store do to a row. -/
inductive Write where
  | claimNext
  | markRunning
  | finish (phase : JobPhase) (reason now : PyStr) (error : Option (List (PyStr × PyJson)))
  | requestCancel
  | recover

/-- `finish` of an attempt that owns the row. -/
def finish (columns : Columns) (phase : JobPhase) (reason now : PyStr) (error : Option (List (PyStr × PyJson))) : Option Columns :=
  if columns.phase.held then do
    let spec ← columns.specData F
    let (phase, reason) := if wantsCancel spec then (JobPhase.canceled, ofString "cancelled") else (phase, reason)
    let conditions ← columns.conditions F
    let errorJson := match error with
      | some (m :: ms) => some (dumps F JobSpec.specStyle (.obj (m :: ms)))
      | _ => none
    some { columns with
      phase, errorJson
      conditionsJson := dumps F JobSpec.specStyle (.arr (conditions ++ [condition "Ready" (phase = .succeeded) reason now])) }
  else
    some columns

/-- `request_cancel`. -/
def requestCancel (columns : Columns) : Option Columns :=
  if columns.phase.terminal then some columns
  else do
    let spec ← columns.specData F
    if wantsCancel spec then some columns
    else
      some { columns with
        phase := if columns.phase = .queued then .canceled else columns.phase
        specJson := dumps F JobSpec.specStyle (sortKeys (.obj (set spec (ofString "desired_state") (.str (ofString "cancelled"))))) }

/-- The recoveries, of a row that an attempt holds. -/
def recover (columns : Columns) : Option Columns :=
  if columns.phase.held then do
    let spec ← columns.specData F
    some { columns with phase := if wantsCancel spec then .canceled else .executorLost }
  else
    some columns

/-- A transaction on a row: `none` where it raises on a text. -/
def write (columns : Columns) : Write → Option Columns
  | .claimNext => some (if columns.phase = .queued then { columns with phase := .assigned } else columns)
  | .markRunning => some { columns with phase := .running }
  | .finish phase reason now error => columns.finish F phase reason now error
  | .requestCancel => columns.requestCancel F
  | .recover => columns.recover F

/-- The transactions on a row, one after the other. -/
def run (columns : Columns) (writes : List Write) : Option Columns := writes.foldlM (fun columns w => columns.write F w) columns

end Columns

end Texts

end SharkRail
