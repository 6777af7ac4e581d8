import SharkRail.Lib.JsonText

/-!
# The job specification

`JobSpec` with its checks, its dictionary and the reading of a request payload. A field holds whatever the payload gave: the
types are checked by `validate`, so a specification that has not been validated may hold any JSON value. A string is one of code points,
and a surrogate may be one.
-/

namespace SharkRail

open PyStr (ofString)

/-- The exceptions of the language that the service raises itself or lets through. `UnicodeEncodeError` has the string that has no bytes in
UTF-8. -/
inductive PyError where
  | valueError (message : PyStr)
  | typeError (message : PyStr)
  | unicodeEncodeError (object : PyStr)
  deriving DecidableEq

def defaultJobTimeoutSeconds : Int := 60 * 60
def maxJobTimeoutSeconds : Int := 24 * 60 * 60
def defaultJobMaxOutputBytes : Int := 16 * 1024 * 1024
def maxJobOutputBytes : Int := defaultJobMaxOutputBytes

/-- The keys a job payload may have. -/
def jobSpecFields : List PyStr :=
  ["command", "cwd", "env", "timeout_seconds", "idle_timeout_seconds", "max_output_bytes", "callback_endpoint_id", "callback",
    "desired_state"]

/-- The phase of a job. -/
inductive JobPhase where
  | queued
  | assigned
  | running
  | succeeded
  | failed
  | timedOut
  | canceled
  | executorLost
  | expired
  deriving DecidableEq, Repr

/-- The text of a phase, in rows, events and responses. -/
def JobPhase.value : JobPhase → String
  | .queued => "queued"
  | .assigned => "assigned"
  | .running => "running"
  | .succeeded => "succeeded"
  | .failed => "failed"
  | .timedOut => "timed_out"
  | .canceled => "canceled"
  | .executorLost => "executor_lost"
  | .expired => "expired"

def JobPhase.terminal : JobPhase → Bool
  | .succeeded | .failed | .timedOut | .canceled | .executorLost | .expired => true
  | .queued | .assigned | .running => false

/-- An attempt holds the job: the phases a finish or a recovery ends. -/
def JobPhase.held : JobPhase → Bool
  | .assigned | .running => true
  | _ => false

/-- A phase is queued, held, or terminal. -/
theorem JobPhase.held_of_not_terminal {p : JobPhase} (hlive : p.terminal = false) (hqueued : p ≠ .queued) :
    p.held = true := by
  cases p <;> simp_all [JobPhase.terminal, JobPhase.held]

theorem JobPhase.terminal_of_held {p : JobPhase} (h : p.held = true) : p.terminal = false := by
  cases p <;> simp_all [JobPhase.terminal, JobPhase.held]

/-- The specification of a job. -/
structure JobSpec where
  command : List PyJson
  cwd : PyJson := .null
  env : Option (List (PyStr × PyJson)) := none
  timeoutSeconds : PyJson := .int defaultJobTimeoutSeconds
  idleTimeoutSeconds : PyJson := .null
  maxOutputBytes : PyJson := .int defaultJobMaxOutputBytes
  callbackEndpointId : PyJson := .null
  desiredState : PyJson := .str (ofString "active")
  deriving DecidableEq

def isNull : PyJson → Bool
  | .null => true
  | _ => false

def isStr : PyJson → Bool
  | .str _ => true
  | _ => false

/-- The code points `str.strip` takes away. -/
def isSpace (c : CodePoint) : Bool :=
  let n := c.val
  (9 ≤ n && n ≤ 13) || (28 ≤ n && n ≤ 32) || n = 0x85 || n = 0xA0 || n = 0x1680 || (0x2000 ≤ n && n ≤ 0x200A) ||
    n = 0x2028 || n = 0x2029 || n = 0x202F || n = 0x205F || n = 0x3000

/-- A string with something left after `strip`. -/
def isExecutable : PyJson → Bool
  | .str s => s.any fun c => !isSpace c
  | _ => false

/-- A number of seconds within `0 < seconds ≤ MAX_JOB_TIMEOUT_SECONDS`; a boolean, an infinity or a NaN is none. -/
def isTimeout : PyJson → Bool
  | .int n => 0 < n && n ≤ maxJobTimeoutSeconds
  | .float (.finite q) => 0 < q && q ≤ maxJobTimeoutSeconds
  | _ => false

/-- An environment entry: a non-empty key without `=` and a string value. -/
def isEnvEntry (entry : PyStr × PyJson) : Bool := !entry.1.isEmpty && !entry.1.contains (CodePoint.ofChar '=') && isStr entry.2

/-- A byte count within `0 ≤ n ≤ MAX_JOB_OUTPUT_BYTES`. -/
def isOutputCap : PyJson → Bool
  | .int n => 0 ≤ n && n ≤ maxJobOutputBytes
  | _ => false

/-- A non-empty string. -/
def isEndpointId : PyJson → Bool
  | .str s => !s.isEmpty
  | _ => false

def isDesiredState : PyJson → Bool
  | .str s => s = ofString "active" || s = ofString "cancelled"
  | _ => false

namespace JobSpec

def commandOk (spec : JobSpec) : Bool :=
  match spec.command with
  | [] => false
  | executable :: arguments => isExecutable executable && arguments.all isStr

/-- The checks of a specification, in their order. -/
def validate (spec : JobSpec) : Except PyError Unit :=
  if !spec.commandOk then
    throw (.valueError (ofString "command must contain a non-empty executable followed by string arguments"))
  else if !isNull spec.cwd && !isStr spec.cwd then
    throw (.valueError (ofString "cwd must be a string"))
  else if !(spec.env.getD []).all isEnvEntry then
    throw (.valueError (ofString "env must contain valid string keys and values"))
  else if !isTimeout spec.timeoutSeconds then
    throw (.valueError (ofString "timeout_seconds must be positive and no greater than 86400"))
  else if !isNull spec.idleTimeoutSeconds && !isTimeout spec.idleTimeoutSeconds then
    throw (.valueError (ofString "idle_timeout_seconds must be positive and no greater than 86400"))
  else if !isOutputCap spec.maxOutputBytes then
    throw (.valueError (ofString "max_output_bytes must be a non-negative integer no greater than 16777216"))
  else if !isNull spec.callbackEndpointId && !isEndpointId spec.callbackEndpointId then
    throw (.valueError (ofString "callback endpoint_id must be a non-empty string"))
  else match spec.desiredState with
    | .arr _ => throw (.typeError (ofString "unhashable type: 'list'"))
    | .obj _ => throw (.typeError (ofString "unhashable type: 'dict'"))
    | desiredState =>
      if !isDesiredState desiredState then throw (.valueError (ofString "desired_state must be active or cancelled")) else pure ()

/-- `dict(self.env) if self.env is not None else None`. -/
def envJson : Option (List (PyStr × PyJson)) → PyJson
  | some env => .obj env
  | none => .null

/-- The specification as a dictionary. -/
def toDict (spec : JobSpec) : List (PyStr × PyJson) :=
  [(ofString "command", .arr spec.command),
    (ofString "cwd", spec.cwd),
    (ofString "env", envJson spec.env),
    (ofString "timeout_seconds", spec.timeoutSeconds),
    (ofString "idle_timeout_seconds", spec.idleTimeoutSeconds),
    (ofString "max_output_bytes", spec.maxOutputBytes),
    (ofString "callback_endpoint_id", spec.callbackEndpointId),
    (ofString "desired_state", spec.desiredState)]

/-- The least key that is not one of `allowed`: `min(set(value) - allowed)`. -/
def unknownField (allowed : List PyStr) (value : List (PyStr × PyJson)) : Option PyStr :=
  ((value.map (·.1)).filter fun k => !allowed.contains k).min?

/-- `payload.get(key, default)`. -/
def getD (value : List (PyStr × PyJson)) (key : String) (default : PyJson) : PyJson :=
  (PyJson.get? value (ofString key)).getD default

/-- The endpoint a payload names, through `callback` or `callback_endpoint_id`. -/
def callbackOf (value : List (PyStr × PyJson)) : Except PyError PyJson :=
  match getD value "callback" .null with
  | .null => pure (getD value "callback_endpoint_id" .null)
  | .obj callback =>
    match unknownField [ofString "endpoint_id"] callback with
    | some k => throw (.valueError (ofString "unknown callback field: " ++ k))
    | none =>
      if !isNull (getD value "callback_endpoint_id" .null) then
        throw (.valueError (ofString "callback_endpoint_id and callback are mutually exclusive"))
      else
        pure (getD callback "endpoint_id" .null)
  | _ => throw (.valueError (ofString "callback must be an object"))

/-- A timeout that is left out, or null, is the default one. -/
def timeoutOf : PyJson → PyJson
  | .null => .int defaultJobTimeoutSeconds
  | v => v

/-- Read a specification from the members of an object, and validate it. -/
def fromDict (value : List (PyStr × PyJson)) : Except PyError JobSpec := do
  if let some k := unknownField jobSpecFields value then
    throw (.valueError (ofString "unknown Job field: " ++ k))
  let command ← match getD value "command" .null with
    | .arr items => pure items
    | _ => throw (.typeError (ofString "command must be an array"))
  let env ← match getD value "env" .null with
    | .null => pure none
    | .obj env => pure (some env)
    | _ => throw (.valueError (ofString "env must be an object"))
  let callbackEndpointId ← callbackOf value
  let spec : JobSpec :=
    { command, env, callbackEndpointId
      timeoutSeconds := timeoutOf (getD value "timeout_seconds" .null)
      cwd := getD value "cwd" .null
      idleTimeoutSeconds := getD value "idle_timeout_seconds" .null
      maxOutputBytes := getD value "max_output_bytes" (.int defaultJobMaxOutputBytes)
      desiredState := getD value "desired_state" (.str (ofString "active")) }
  spec.validate
  pure spec

/-- The defaults of a specification pass its checks, for every command that names an executable. -/
theorem validate_defaults (executable : PyStr) (arguments : List PyStr) (h : isExecutable (.str executable) = true) :
    validate { command := .str executable :: arguments.map .str } = .ok () := by
  have hargs : (arguments.map PyJson.str).all isStr = true := by simp [isStr]
  have hactive : isDesiredState (.str (ofString "active")) = true := by simp [isDesiredState]
  simp [validate, commandOk, h, hargs, isNull, hactive, isTimeout, isOutputCap, defaultJobTimeoutSeconds, maxJobTimeoutSeconds,
    defaultJobMaxOutputBytes, maxJobOutputBytes]
  rfl

end JobSpec

end SharkRail
