import SharkRail.Runtime.Runner
import SharkRail.Theorems.Policy

/-!
# Dry runs under a policy

A dry run asks the policy about the output cap that the runner was given; a run asks it about the cap that its session will have, which is
the default of the manager where none was given. The ceiling on output comes after all rules that do not read the cap (`enforce_eq`), so
the two decide differently exactly where these rules hold and the ceiling is below the default (`dryRun_predicts_iff`).
-/

namespace SharkRail

namespace Runtime

open Fallible
open Integrations (CommandSpec ExecutionError StartRequest)

/-! ## The rules before the ceilings of resources -/

/-- The policy without its ceilings for output and for resources. -/
def ExecutionPolicy.withoutCeilings (policy : ExecutionPolicy) : ExecutionPolicy :=
  { policy with maxOutputBytes := none, maxMemoryBytes := none, maxCpuTimeSeconds := none, maxProcessCount := none }

/-- The ceilings of the resources that a command asks for. -/
def ExecutionPolicy.enforceResources (policy : ExecutionPolicy) (spec : CommandSpec) : Except PolicyError Unit := do
  enforceCeiling "max_memory_bytes" spec.resources.memoryBytes policy.maxMemoryBytes
  enforceCeiling "max_cpu_time_seconds" spec.resources.cpuTimeSeconds policy.maxCpuTimeSeconds
  enforceCeiling "max_process_count" spec.resources.processCount policy.maxProcessCount

theorem enforceCeiling_none (rule : String) (value : Option Int) : enforceCeiling rule value none = pure () := by
  cases value <;> rfl

theorem enforceCeiling_no_value (rule : String) (ceiling : Option Int) : enforceCeiling rule none ceiling = pure () := by
  cases ceiling <;> rfl

variable {host : Host} {policy : ExecutionPolicy} {spec : CommandSpec} {timeoutMs idleTimeoutMs cap : Option Int} {rule : String}

/-- `enforce` reads the cap on output after every other rule but those for resources. -/
theorem enforce_eq : policy.enforce host spec timeoutMs cap = (do
    policy.withoutCeilings.enforce host spec timeoutMs none
    enforceCeiling "max_output_bytes" cap policy.maxOutputBytes
    policy.enforceResources spec) := by
  have hwsl : policy.withoutCeilings.policyWslInvocation host spec = policy.policyWslInvocation host spec := rfl
  have hcwd (wsl : Option WslInvocation) : policy.withoutCeilings.enforceCwd host spec wsl = policy.enforceCwd host spec wsl := rfl
  simp only [ExecutionPolicy.enforce, ExecutionPolicy.enforceResources, hwsl, hcwd, bind_assoc]
  simp only [ExecutionPolicy.withoutCeilings, enforceCeiling_none, pure_bind]
  rfl

/-- The cap of a run is refused exactly where it is above the ceiling. -/
theorem enforceCeiling_some {value ceiling : Int} :
    enforceCeiling rule (some value) (some ceiling) = if value > ceiling then .error (.violation rule) else .ok () := rfl

/-- No ceiling of a resource goes by the name of the one on output. -/
theorem enforceResources_ne_output : policy.enforceResources spec ≠ .error (.violation "max_output_bytes") := by
  unfold ExecutionPolicy.enforceResources enforceCeiling
  intro h
  repeat' split at h
  all_goals simp [bind, Except.bind, pure, Except.pure, throw, throwThe, MonadExceptOf.throw] at h

/-! ## What the two runs return -/

/-- A run returned that the policy denies the command by a rule. -/
def DeniedBy (rule : String) (run : Except Integrations.Raised (CommandResult × List LifecycleEvent)) : Prop :=
  ∃ result events error, run = .ok (result, events) ∧ result.error = some error ∧ error.code = .policyDenied ∧
    error.native = [(PyStr.ofString "rule", .str rule)]

theorem effectiveSpec_eq_violation : policy.effectiveSpec host spec timeoutMs cap = .error (.violation rule) ↔
    policy.enforce host spec timeoutMs cap = .error (.violation rule) := by
  unfold ExecutionPolicy.effectiveSpec
  cases policy.enforce host spec timeoutMs cap <;> simp [bind, Except.bind, pure, Except.pure]

variable {runner : CommandRunner} {backend : CommandBackend}

theorem deniedBy_failed {accepted : List (PyStr × PyJson)} {error : ExecutionError} {exitCode : Int} :
    DeniedBy rule (pure (runner.failed accepted error exitCode)) ↔
      error.code = .policyDenied ∧ error.native = [(PyStr.ofString "rule", .str rule)] := by
  constructor
  · rintro ⟨result, events, denied, hrun, herror, hdenied⟩
    cases pure_eq_ok.1 hrun
    cases herror
    exact hdenied
  · intro hdenied
    exact ⟨_, _, error, rfl, rfl, hdenied⟩

theorem not_deniedBy_throw {error : Integrations.Raised} : ¬DeniedBy rule (throw error) := by
  rintro ⟨_, _, _, hrun, _⟩
  exact absurd hrun throw_ne_ok

/-- A dry run reports the rule by which the policy denies the command with the cap as it was given. -/
theorem dryRun_deniedBy (hpolicy : runner.policy = some policy) : DeniedBy rule (runner.dryRunEvents host spec timeoutMs) ↔
    policy.enforce host spec timeoutMs runner.maxOutputBytes = .error (.violation rule) := by
  rw [← effectiveSpec_eq_violation]
  simp only [CommandRunner.dryRunEvents, hpolicy]
  split
  · rename_i hspec
    rw [hspec]
    constructor
    · rintro ⟨result, events, error, hrun, herror, -⟩
      cases pure_eq_ok.1 hrun
      cases herror
    · exact nofun
  · rename_i other hspec
    rw [hspec, deniedBy_failed]
    simp [policyDeniedError]
  · rename_i message hspec
    rw [hspec]
    exact ⟨fun h => absurd h not_deniedBy_throw, nofun⟩

/-- A process that does not start is not denied by the policy. -/
theorem launch_code {error : ExecutionError} (h : backend.launch spec = .error (.sharkRailError error)) : error.code ≠ .policyDenied := by
  unfold CommandBackend.launch at h
  split at h
  · cases h
  · cases h
    exact nofun
  · cases h
    exact nofun
  · rename_i raised hstart
    cases h
    exact backend.start_code spec error hstart

theorem checkLimits_code {request : StartRequest} {outputRetention : String} {error : ExecutionError}
    (h : ManagerLimits.checkLimits request outputRetention spec = .error (.sharkRailError error)) : error.code ≠ .policyDenied := by
  unfold ManagerLimits.checkLimits at h
  repeat' split at h
  all_goals first | cases h; exact nofun | cases h

/-- A session whose result carries an error was not denied by the policy. -/
theorem not_deniedBy_monitor {session : SessionLimits} {ended : SessionEnd} (h : backend.monitor session = .ok ended)
    {error : ExecutionError} (herror : ended.error.map (·.toExecutionError) = some error) : error.code ≠ .policyDenied := by
  obtain ⟨reported, hreported, rfl⟩ := Option.map_eq_some_iff.1 herror
  cases reported with
  | raised error => exact backend.monitor_code session ended error h hreported
  | _ => exact nofun

/-- What the manager raises where the policy lets the command through: no denial. -/
theorem start_code {manager : ManagerLimits} {request : StartRequest} {error : ExecutionError}
    (hspec : ∃ effective, manager.effectiveSpec host request = .ok effective) (hvalid : validateSpec request.spec = .ok ())
    (h : manager.start host backend.launch request "head" = .error (.sharkRailError error)) : error.code ≠ .policyDenied := by
  obtain ⟨effective, hspec⟩ := hspec
  simp only [ManagerLimits.start, hvalid, hspec, bind, Except.bind] at h
  split at h
  · rename_i hlimits
    cases h
    exact checkLimits_code hlimits
  · split at h
    · rename_i hlaunch
      cases h
      exact launch_code hlaunch
    · cases h

/-- A run reports the rule by which the policy denies the command with the cap that its session would have. -/
theorem session_deniedBy (hpolicy : runner.policy = some policy) (hvalid : validateSpec spec = .ok ()) :
    DeniedBy rule (runner.sessionEvents host backend spec timeoutMs idleTimeoutMs) ↔
      policy.enforce host spec timeoutMs (some (runner.maxOutputBytes.getD (16 * 1024 * 1024))) = .error (.violation rule) := by
  rw [← effectiveSpec_eq_violation]
  unfold CommandRunner.sessionEvents
  cases hspec : policy.effectiveSpec host spec timeoutMs (some (runner.maxOutputBytes.getD (16 * 1024 * 1024))) with
  | error e =>
    have hmanager : ({ policy := runner.policy } : ManagerLimits).effectiveSpec host
        { spec, timeoutMs, idleTimeoutMs, maxOutputBytes := runner.maxOutputBytes } = .error (policyDenied e) := by
      simp only [ManagerLimits.effectiveSpec, hpolicy, ManagerLimits.outputCap, hspec]
      rfl
    simp only [ManagerLimits.start, hvalid, hmanager, bind, Except.bind]
    cases e with
    | violation other =>
      simp only [policyDenied]
      rw [deniedBy_failed]
      simp
    | typeError message =>
      simp only [policyDenied]
      exact ⟨fun h => absurd h not_deniedBy_throw, nofun⟩
  | ok effective =>
    have hmanager : ({ policy := runner.policy } : ManagerLimits).effectiveSpec host
        { spec, timeoutMs, idleTimeoutMs, maxOutputBytes := runner.maxOutputBytes } = .ok effective := by
      simp only [ManagerLimits.effectiveSpec, hpolicy, ManagerLimits.outputCap, hspec]
      rfl
    refine ⟨fun h => ?_, nofun⟩
    exfalso
    dsimp only at h
    split at h
    · obtain ⟨result, events, error, hrun, herror, hcode, -⟩ := h
      obtain ⟨ended, hended, hresult⟩ := bind_eq_ok.1 hrun
      cases pure_eq_ok.1 hresult
      exact not_deniedBy_monitor hended herror hcode
    · rename_i error hstart
      exact start_code ⟨effective, hmanager⟩ hvalid hstart (deniedBy_failed.1 h).1
    · exact not_deniedBy_throw h

/-- A run of a valid command, as a dry run or by a session. -/
theorem runEvents_eq (hvalid : validateSpec spec = .ok ()) :
    runner.runEvents host backend spec timeoutMs idleTimeoutMs =
      if runner.dryRun then runner.dryRunEvents host spec timeoutMs
      else runner.sessionEvents host backend spec timeoutMs idleTimeoutMs := by
  rw [CommandRunner.runEvents, hvalid]
  rfl

/-! ## Agreement -/

/-- The cap is the only thing that a policy finds against the command, among the rules before the ceilings of resources, and it is the
default of the manager. -/
def DeniesDefaultCap (host : Host) (policy : ExecutionPolicy) (spec : CommandSpec) (timeoutMs cap : Option Int) : Prop :=
  cap = none ∧ (∃ ceiling, policy.maxOutputBytes = some ceiling ∧ ceiling < 16 * 1024 * 1024) ∧
    policy.withoutCeilings.enforce host spec timeoutMs none = .ok ()

/-- The two questions to the policy get the same answer unless it denies the default cap. -/
theorem enforce_default_iff :
    (∀ rule, policy.enforce host spec timeoutMs cap = .error (.violation rule) ↔
      policy.enforce host spec timeoutMs (some (cap.getD (16 * 1024 * 1024))) = .error (.violation rule)) ↔
    ¬DeniesDefaultCap host policy spec timeoutMs cap := by
  cases cap with
  | some cap => simp [DeniesDefaultCap]
  | none =>
    have hdry : policy.enforce host spec timeoutMs none = _ := enforce_eq
    have hrun : policy.enforce host spec timeoutMs (some (16 * 1024 * 1024)) = _ := enforce_eq
    rw [Option.getD_none, hdry, hrun]
    cases hrules : policy.withoutCeilings.enforce host spec timeoutMs none with
    | error e => simp [DeniesDefaultCap, hrules, bind, Except.bind]
    | ok u =>
      cases hceiling : policy.maxOutputBytes with
      | none => simp [DeniesDefaultCap, hceiling, enforceCeiling_none]
      | some ceiling =>
        rw [enforceCeiling_no_value, enforceCeiling_some]
        by_cases hbelow : ceiling < 16 * 1024 * 1024
        · -- the run is denied for its output, by a rule that no ceiling of a resource has
          rw [if_pos hbelow]
          have hdenies : DeniesDefaultCap host policy spec timeoutMs none := ⟨rfl, ⟨ceiling, hceiling, hbelow⟩, hrules⟩
          refine iff_of_false ?_ (not_not_intro hdenies)
          intro hagree
          have houtput := (hagree "max_output_bytes").2 rfl
          exact enforceResources_ne_output houtput
        · rw [if_neg hbelow]
          refine iff_of_true (fun rule => Iff.rfl) ?_
          rintro ⟨-, ⟨other, hother, hdefault⟩, -⟩
          rw [hceiling] at hother
          cases hother
          exact hbelow hdefault

/-- **A dry run predicts the policy decision, except about the default cap.** For every policy, every valid command and every timeout and
cap of the runner, given or not: the dry run and the run are denied by the same rules, if and only if it is not so that no cap is given, the
ceiling on output is below the default of the manager, and the rules before it let the command through. -/
theorem dryRun_predicts_iff (host : Host) (backend : CommandBackend) (policy : ExecutionPolicy) (spec : CommandSpec)
    (timeoutMs idleTimeoutMs cap : Option Int) (hvalid : validateSpec spec = .ok ()) :
    (∀ rule,
      DeniedBy rule (CommandRunner.runEvents host backend { dryRun := true, maxOutputBytes := cap, policy := some policy } spec timeoutMs
        idleTimeoutMs) ↔
      DeniedBy rule (CommandRunner.runEvents host backend { maxOutputBytes := cap, policy := some policy } spec timeoutMs
        idleTimeoutMs)) ↔
    ¬DeniesDefaultCap host policy spec timeoutMs cap := by
  rw [← enforce_default_iff]
  refine forall_congr' fun rule => ?_
  rw [runEvents_eq hvalid, runEvents_eq hvalid, if_pos rfl, if_neg Bool.false_ne_true, dryRun_deniedBy rfl, session_deniedBy rfl hvalid]

/-- A session that succeeds at once, a backend that has no other ones, a policy with a ceiling for output, and a command that it allows. -/
def promptEnd : SessionEnd :=
  { exitCode := 0, stdout := "", stderr := "", outputTruncated := false, reason := .success, error := none, events := [] }
def promptBackend : CommandBackend where
  start _ := .started
  monitor _ := .ok promptEnd
  start_code _ _ h := BackendStart.noConfusion h
  monitor_code _ ended error h herror := by
    have hended : promptEnd = ended := Except.ok.inj h
    rw [← hended] at herror
    exact absurd herror nofun

def outputPolicy : ExecutionPolicy := { deniedExecutables := {PyStr.ofString "blocked"}, maxOutputBytes := some 1024 }
def echoSpec : CommandSpec := { executable := "echo", argv := [.str "hello"] }

/-- With the cap given, both runs are denied for it. -/
theorem dryRun_predicts_given_cap :
    DeniedBy "max_output_bytes" (CommandRunner.runEvents posixHost promptBackend
      { dryRun := true, maxOutputBytes := some 2048, policy := some outputPolicy } echoSpec none none) ↔
    DeniedBy "max_output_bytes" (CommandRunner.runEvents posixHost promptBackend
      { maxOutputBytes := some 2048, policy := some outputPolicy } echoSpec none none) :=
  (dryRun_predicts_iff posixHost promptBackend outputPolicy echoSpec none none (some 2048) (by decide)).2 (fun h => nomatch h.1)
    "max_output_bytes"

/-- With no cap given, the run is denied for the default cap and the dry run is accepted. -/
theorem dryRun_accepts_default_cap :
    ¬ ∀ (host : Host) (backend : CommandBackend) (policy : ExecutionPolicy) (spec : CommandSpec) (timeoutMs idleTimeoutMs cap : Option Int),
      validateSpec spec = .ok () → ∀ rule,
        DeniedBy rule (CommandRunner.runEvents host backend { dryRun := true, maxOutputBytes := cap, policy := some policy } spec timeoutMs
          idleTimeoutMs) ↔
        DeniedBy rule (CommandRunner.runEvents host backend { maxOutputBytes := cap, policy := some policy } spec timeoutMs
          idleTimeoutMs) := by
  intro hall
  have hagree := hall posixHost promptBackend outputPolicy echoSpec none none none (by decide) "max_output_bytes"
  have hdry : outputPolicy.enforce posixHost echoSpec none none = .ok () := by decide
  have hrun : outputPolicy.enforce posixHost echoSpec none (some (16 * 1024 * 1024)) = .error (.violation "max_output_bytes") := by decide
  have hvalid : validateSpec echoSpec = .ok () := by decide
  rw [runEvents_eq hvalid, runEvents_eq hvalid, if_pos rfl, if_neg Bool.false_ne_true, dryRun_deniedBy rfl, session_deniedBy rfl hvalid,
    Option.getD_none, hdry, hrun] at hagree
  simp at hagree

end Runtime

end SharkRail
