import Mathlib
import SharkRail.Runtime.Routing

/-!
# The execution policy

`ExecutionPolicy` with `enforce` and `effective_spec`. A set of names is a finite set. The rules for paths of the host, its directories
and `str.casefold` are parameters.
-/

namespace SharkRail

namespace Runtime

open Integrations (CommandSpec ResourceLimits truthy)

/-- What the checks use of the host: `str.casefold`, `os.path.normcase`, the `name`, `is_absolute` and `resolve` of a `Path`,
`os.path.commonpath` of two paths, `none` where it raises `ValueError`, the text of the `TypeError` that `Path` raises for a value that
is no string, and the working directory. -/
structure Host where
  casefold : PyStr → PyStr
  normcase : PyStr → PyStr
  name : PyStr → PyStr
  isAbsolute : PyStr → Bool
  resolve : PyStr → PyStr
  commonpath : PyStr → PyStr → Option PyStr
  pathTypeError : PyJson → PyStr
  getcwd : PyStr

/-- What `enforce` raises: `PolicyViolation` with the rule it names, or the `TypeError` of a path that is no string. -/
inductive PolicyError where
  | violation (rule : String)
  | typeError (message : PyStr)
  deriving DecidableEq

structure ExecutionPolicy where
  allowedExecutables : Option (Finset PyStr) := none
  deniedExecutables : Finset PyStr := ∅
  allowedCwdRoots : List PyStr := []
  allowedEnvKeys : Option (Finset PyStr) := none
  allowParentEnvironment : Bool := true
  requireAbsoluteExecutable : Bool := false
  requireTimeout : Bool := false
  maxTimeoutMs : Option Int := none
  maxOutputBytes : Option Int := none
  maxMemoryBytes : Option Int := none
  maxCpuTimeSeconds : Option Int := none
  maxProcessCount : Option Int := none
  deriving DecidableEq

/-! ## Names -/

/-- `posixpath.basename`. -/
def posixBasename (path : PyStr) : PyStr := (path.reverse.takeWhile (· ≠ slash)).reverse

/-- `posixpath.isabs`. -/
def posixIsabs (path : PyStr) : Bool := path.head? = some slash

section

variable (host : Host)

/-- `_normalized`. -/
def normalized (names : Finset PyStr) : Finset PyStr := names.image host.normcase

/-- `_command_names`. -/
def commandNames (executable : PyStr) : Finset PyStr := normalized host {executable, host.name executable}

/-- `_posix_command_names`. -/
def posixCommandNames (executable : PyStr) : Finset PyStr := {executable, posixBasename executable}

/-- `_matches_windows_wsl_launcher`. -/
def matchesWindowsWslLauncher (executable : PyStr) (names : Finset PyStr) : Bool :=
  isWslLauncher host.casefold executable &&
    decide (({host.casefold executable, host.casefold (host.name (executable.map fun c => if c = backslash then slash else c))} ∩
      names.image host.casefold).Nonempty)

/-- `_is_within`. -/
def isWithin (path root : PyStr) : Bool := host.commonpath path root = some root

/-- `_native_cwd_is_allowed`. -/
def nativeCwdIsAllowed (spec : CommandSpec) (roots : List PyStr) : Except PolicyError Bool :=
  if truthy spec.cwd then
    match spec.cwd with
    | .str cwd => pure (roots.any fun root => isWithin host (host.resolve cwd) (host.resolve root))
    | value => throw (.typeError (host.pathTypeError value))
  else pure (roots.any fun root => isWithin host (host.resolve host.getcwd) (host.resolve root))

end

/-! ## The command that is checked: the one inside a WSL launcher, or the one of the host -/

/-- The executable that the rules are about. -/
def effectiveExecutable (spec : CommandSpec) (wsl : Option WslInvocation) : PyStr :=
  (wsl.map (·.executable)).getD spec.executable

section

variable (host : Host)

/-- The names by which the executable is requested. -/
def requestedNames (spec : CommandSpec) (wsl : Option WslInvocation) : Finset PyStr :=
  if wsl.isSome then posixCommandNames (effectiveExecutable spec wsl) else commandNames host (effectiveExecutable spec wsl)

/-- The names of a policy, as they are compared with the requested ones. -/
def policyNames (wsl : Option WslInvocation) (names : Finset PyStr) : Finset PyStr :=
  if wsl.isSome then names else normalized host names

def isAbsoluteExecutable (spec : CommandSpec) (wsl : Option WslInvocation) : Bool :=
  if wsl.isSome then posixIsabs (effectiveExecutable spec wsl) else host.isAbsolute (effectiveExecutable spec wsl)

end

/-- A rule that does not hold is raised. -/
def require (rule : String) (ok : Bool) : Except PolicyError Unit := if ok then pure () else throw (.violation rule)

/-- `_enforce_ceiling`. -/
def enforceCeiling (rule : String) (value ceiling : Option Int) : Except PolicyError Unit :=
  match ceiling, value with
  | some ceiling, some value => if value > ceiling then throw (.violation rule) else pure ()
  | _, _ => pure ()

namespace ExecutionPolicy

variable (host : Host)

/-- Some rule depends on the command that is executed in the end. -/
def checksEffectiveContext (policy : ExecutionPolicy) : Bool :=
  policy.allowedExecutables.isSome || decide policy.deniedExecutables.Nonempty || policy.requireAbsoluteExecutable ||
    !policy.allowedCwdRoots.isEmpty

/-- `_policy_wsl_invocation`. -/
def policyWslInvocation (policy : ExecutionPolicy) (spec : CommandSpec) : Except PolicyError (Option WslInvocation) :=
  if isWslLauncher host.casefold spec.executable ∧ policy.checksEffectiveContext then
    match parseWslInvocation host.casefold spec with
    | .ok wsl => pure wsl
    | .error _ => throw (.violation "wsl_command")
  else pure none

/-- The checks of the working directory: a WSL launcher has none that is resolved. -/
def enforceCwd (policy : ExecutionPolicy) (spec : CommandSpec) (wsl : Option WslInvocation) : Except PolicyError Unit :=
  if policy.allowedCwdRoots.isEmpty then pure ()
  else if wsl.isSome then throw (.violation "wsl_cwd_physical_resolution")
  else do require "allowed_cwd_roots" (← nativeCwdIsAllowed host spec policy.allowedCwdRoots)

def enforce (policy : ExecutionPolicy) (spec : CommandSpec) (timeoutMs maxOutputBytes : Option Int) : Except PolicyError Unit := do
  require "denied_executables"
    !(decide policy.deniedExecutables.Nonempty && matchesWindowsWslLauncher host spec.executable policy.deniedExecutables)
  let wsl ← policy.policyWslInvocation host spec
  let requested := requestedNames host spec wsl
  require "denied_executables"
    !(decide policy.deniedExecutables.Nonempty && decide (requested ∩ policyNames host wsl policy.deniedExecutables).Nonempty)
  require "allowed_executables"
    (policy.allowedExecutables.all fun allowed => decide (requested ∩ policyNames host wsl allowed).Nonempty)
  require "require_absolute_executable"
    (!policy.requireAbsoluteExecutable || isAbsoluteExecutable host spec wsl)
  policy.enforceCwd host spec wsl
  require "allow_parent_environment" (policy.allowParentEnvironment || !truthy spec.inheritEnv)
  require "allowed_env_keys"
    (policy.allowedEnvKeys.all fun allowed => (spec.env.getD []).all fun entry => decide (entry.1 ∈ allowed))
  require "require_timeout" (!policy.requireTimeout || timeoutMs.isSome)
  enforceCeiling "max_timeout_ms" timeoutMs policy.maxTimeoutMs
  enforceCeiling "max_output_bytes" maxOutputBytes policy.maxOutputBytes
  enforceCeiling "max_memory_bytes" spec.resources.memoryBytes policy.maxMemoryBytes
  enforceCeiling "max_cpu_time_seconds" spec.resources.cpuTimeSeconds policy.maxCpuTimeSeconds
  enforceCeiling "max_process_count" spec.resources.processCount policy.maxProcessCount

/-- `effective_spec`: a ceiling is also the default of a resource that the request leaves out. -/
def effectiveSpec (policy : ExecutionPolicy) (spec : CommandSpec) (timeoutMs maxOutputBytes : Option Int) :
    Except PolicyError CommandSpec := do
  policy.enforce host spec timeoutMs maxOutputBytes
  let requested := spec.resources
  let effective : ResourceLimits :=
    { memoryBytes := requested.memoryBytes.or policy.maxMemoryBytes
      cpuTimeSeconds := requested.cpuTimeSeconds.or policy.maxCpuTimeSeconds
      processCount := requested.processCount.or policy.maxProcessCount }
  pure (if effective = requested then spec else { spec with resources := effective })

end ExecutionPolicy

end Runtime

end SharkRail
