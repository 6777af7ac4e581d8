import Mathlib
import SharkRail.Lib.Json
import SharkRail.Lib.PosixPath
import SharkRail.Runtime.Policy

/-!
# The fields of an execution policy

`ExecutionPolicy.from_dict`, on a POSIX host.
-/

namespace SharkRail

namespace Runtime

/-- What `from_dict` raises. -/
inductive PolicyFieldError where
  | valueError (message : String)
  | typeError (message : String)
  deriving DecidableEq

def PolicyFieldError.message : PolicyFieldError → String
  | .valueError message | .typeError message => message

/-- A string of an array. -/
def stringItem? : Json → Option String
  | .str s => some s
  | _ => none

/-- `_strings`, of a value that is there. -/
def stringsOf (key : String) : Json → Except PolicyFieldError (List String)
  | .arr items =>
    match items.mapM stringItem? with
    | some items => pure items
    | none => throw (.valueError (key ++ " must be an array of strings"))
  | _ => throw (.valueError (key ++ " must be an array of strings"))

/-- `_optional_strings`. -/
def optionalStrings (value : List (String × Json)) (key : String) : Except PolicyFieldError (Option (Finset PyStr)) :=
  match Json.get? value key with
  | none => pure none
  | some raw => do pure (some ((← stringsOf key raw).map PyStr.ofString).toFinset)

/-- `_boolean`. -/
def booleanOf (value : List (String × Json)) (key : String) (default : Bool) : Except PolicyFieldError Bool :=
  match Json.get? value key with
  | none => pure default
  | some (.bool b) => pure b
  | some _ => throw (.typeError (key ++ " must be a boolean"))

/-- `_optional_positive_int`. -/
def optionalPositiveInt (value : List (String × Json)) (key : String) : Except PolicyFieldError (Option Int) :=
  match Json.get? value key with
  | none | some .null => pure none
  | some (.int n) => if n ≤ 0 then throw (.valueError (key ++ " must be a positive integer")) else pure (some n)
  | some _ => throw (.valueError (key ++ " must be a positive integer"))

def policyFields : List String :=
  ["allowed_executables", "denied_executables", "allowed_cwd_roots", "allowed_env_keys", "allow_parent_environment",
    "require_absolute_executable", "require_timeout", "max_timeout_ms", "max_output_bytes", "max_memory_bytes", "max_cpu_time_seconds",
    "max_process_count"]

/-- `from_dict`. -/
def ExecutionPolicy.fromDict (value : List (String × Json)) : Except PolicyFieldError ExecutionPolicy := do
  let unknown := (value.map (·.1)).filter fun key => !policyFields.contains key
  if unknown ≠ [] then throw (.valueError ("unknown execution policy fields: " ++ ", ".intercalate (unknown.toFinset.sort (· ≤ ·))))
  let allowedExecutables ← optionalStrings value "allowed_executables"
  let deniedExecutables ← optionalStrings value "denied_executables"
  let allowedCwdRoots ← stringsOf "allowed_cwd_roots" ((Json.get? value "allowed_cwd_roots").getD (.arr []))
  let allowedEnvKeys ← optionalStrings value "allowed_env_keys"
  let allowParentEnvironment ← booleanOf value "allow_parent_environment" true
  let requireAbsoluteExecutable ← booleanOf value "require_absolute_executable" false
  let requireTimeout ← booleanOf value "require_timeout" false
  let maxTimeoutMs ← optionalPositiveInt value "max_timeout_ms"
  let maxOutputBytes ← optionalPositiveInt value "max_output_bytes"
  let maxMemoryBytes ← optionalPositiveInt value "max_memory_bytes"
  let maxCpuTimeSeconds ← optionalPositiveInt value "max_cpu_time_seconds"
  let maxProcessCount ← optionalPositiveInt value "max_process_count"
  pure
    { allowedExecutables, deniedExecutables := deniedExecutables.getD ∅
      allowedCwdRoots := allowedCwdRoots.map fun root => PyStr.ofString (PosixPath.ofText root).text
      allowedEnvKeys, allowParentEnvironment, requireAbsoluteExecutable, requireTimeout, maxTimeoutMs, maxOutputBytes, maxMemoryBytes
      maxCpuTimeSeconds, maxProcessCount }

end Runtime

end SharkRail
