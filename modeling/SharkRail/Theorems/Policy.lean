import SharkRail.Lib.Fallible
import SharkRail.Runtime.Policy

/-!
# The execution policy: enforced, monotone and stable

What a request meets that a policy accepts (`Accepted`), and from it the three properties of a policy: the specification it returns has
every ceiling in place and is its own effective specification, and a stricter policy accepts no more.
-/

namespace SharkRail

namespace Runtime

open Fallible
open Integrations (CommandSpec ResourceLimits truthy)

/-! ## What an accepted request meets -/

/-- A value within a ceiling, where both are there. -/
def Within (value ceiling : Option Int) : Prop := ∀ n ∈ value, ∀ m ∈ ceiling, n ≤ m

/-- A rule accepts where its condition holds. -/
theorem require_eq_ok {rule : String} {ok : Bool} : require rule ok = .ok () ↔ ok = true := by
  cases ok <;> simp [require, throw, throwThe, MonadExceptOf.throw, pure, Except.pure]

/-- A ceiling accepts what is within it. -/
theorem enforceCeiling_eq_ok {rule : String} {value ceiling : Option Int} :
    enforceCeiling rule value ceiling = .ok () ↔ Within value ceiling := by
  cases ceiling with
  | none => simp [enforceCeiling, Within, pure, Except.pure]
  | some m =>
    cases value with
    | none => simp [enforceCeiling, Within, pure, Except.pure]
    | some n =>
      by_cases h : n > m
      · simp [enforceCeiling, Within, h, throw, throwThe, MonadExceptOf.throw]
      · simpa [enforceCeiling, Within, h, pure, Except.pure] using Int.not_lt.1 h

/-- What `enforce` finds of a request that it lets through: the launcher is not denied, the command inside it, `wsl`, was read, and
every rule holds of it. -/
structure Accepted (host : Host) (policy : ExecutionPolicy) (spec : CommandSpec) (timeoutMs maxOutputBytes : Option Int)
    (wsl : Option WslInvocation) : Prop where
  launcher : ¬ policy.deniedExecutables.Nonempty ∨
    matchesWindowsWslLauncher host spec.executable policy.deniedExecutables = false
  invocation : policy.policyWslInvocation host spec = .ok wsl
  denied : ¬ policy.deniedExecutables.Nonempty ∨
    ¬ (requestedNames host spec wsl ∩ policyNames host wsl policy.deniedExecutables).Nonempty
  allowed : ∀ names, policy.allowedExecutables = some names →
    (requestedNames host spec wsl ∩ policyNames host wsl names).Nonempty
  absolute : policy.requireAbsoluteExecutable = false ∨ isAbsoluteExecutable host spec wsl = true
  cwd : policy.enforceCwd host spec wsl = .ok ()
  parentEnvironment : policy.allowParentEnvironment = true ∨ truthy spec.inheritEnv = false
  envKeys : ∀ names, policy.allowedEnvKeys = some names → ∀ entry ∈ spec.env.getD [], entry.1 ∈ names
  timeout : policy.requireTimeout = false ∨ timeoutMs.isSome = true
  maxTimeout : Within timeoutMs policy.maxTimeoutMs
  maxOutput : Within maxOutputBytes policy.maxOutputBytes
  maxMemory : Within spec.resources.memoryBytes policy.maxMemoryBytes
  maxCpuTime : Within spec.resources.cpuTimeSeconds policy.maxCpuTimeSeconds
  maxProcesses : Within spec.resources.processCount policy.maxProcessCount

section

variable {host : Host} {policy : ExecutionPolicy} {spec : CommandSpec} {timeoutMs maxOutputBytes : Option Int}

/-- A policy accepts what meets every rule of it. -/
theorem enforce_eq_ok : policy.enforce host spec timeoutMs maxOutputBytes = .ok () ↔
    ∃ wsl, Accepted host policy spec timeoutMs maxOutputBytes wsl := by
  unfold ExecutionPolicy.enforce
  simp only [bind_eq_ok (α := Option WslInvocation), check_eq_ok, require_eq_ok, enforceCeiling_eq_ok, Bool.or_eq_true,
    Bool.not_eq_true', Bool.and_eq_false_iff, decide_eq_false_iff_not, Option.all_eq_true, decide_eq_true_eq, List.all_eq_true]
  constructor
  · rintro ⟨launcher, wsl, invocation, denied, allowed, absolute, cwd, parent, env, timeout, ht, ho, hm, hc, hp⟩
    exact ⟨wsl, launcher, invocation, denied, allowed, absolute, cwd, parent, env, timeout, ht, ho, hm, hc, hp⟩
  · rintro ⟨wsl, h⟩
    exact ⟨h.launcher, wsl, h.invocation, h.denied, h.allowed, h.absolute, h.cwd, h.parentEnvironment, h.envKeys, h.timeout,
      h.maxTimeout, h.maxOutput, h.maxMemory, h.maxCpuTime, h.maxProcesses⟩

/-! ## The effective specification -/

/-- The resources that a policy puts in place of those that a request asks for. -/
def ExecutionPolicy.effectiveResources (policy : ExecutionPolicy) (requested : ResourceLimits) : ResourceLimits :=
  { memoryBytes := requested.memoryBytes.or policy.maxMemoryBytes
    cpuTimeSeconds := requested.cpuTimeSeconds.or policy.maxCpuTimeSeconds
    processCount := requested.processCount.or policy.maxProcessCount }

/-- The effective specification is the accepted one with the ceilings in the place of what was not given. -/
theorem effectiveSpec_eq_ok {spec' : CommandSpec} : policy.effectiveSpec host spec timeoutMs maxOutputBytes = .ok spec' ↔
    policy.enforce host spec timeoutMs maxOutputBytes = .ok () ∧
      spec' = { spec with resources := policy.effectiveResources spec.resources } := by
  unfold ExecutionPolicy.effectiveSpec
  rw [check_eq_ok]
  refine and_congr_right fun _ => ?_
  rw [pure_eq_ok]
  change (if policy.effectiveResources spec.resources = spec.resources then spec else _) = spec' ↔ _
  split
  case isTrue h => rw [h, eq_comm]
  case isFalse => exact eq_comm

/-- A ceiling that a value is put in place of, and that a value meets, is met by what is there afterwards. -/
theorem within_or {value ceiling : Option Int} (h : Within value ceiling) : Within (value.or ceiling) ceiling := by
  intro n hn m hm
  cases value with
  | some v => exact h n hn m hm
  | none =>
    have : some n = some m := hn.symm.trans hm
    cases this
    exact le_refl n

/-- A value with a ceiling put in its place is set and within the ceiling. -/
theorem set_of_within {value ceiling : Option Int} (h : Within value ceiling) {m : Int} (hm : ceiling = some m) :
    ∃ n, value.or ceiling = some n ∧ n ≤ m := by
  subst hm
  cases value with
  | some v => exact ⟨v, rfl, h v rfl m rfl⟩
  | none => exact ⟨m, rfl, le_refl m⟩

/-- Ceilings that are in their place stay there. -/
theorem effectiveResources_idem (policy : ExecutionPolicy) (r : ResourceLimits) :
    policy.effectiveResources (policy.effectiveResources r) = policy.effectiveResources r := by
  simp [ExecutionPolicy.effectiveResources, Option.or_assoc]

/-- The rules but those for resources read nothing of the resources, and the effective resources are within the ceilings. -/
theorem Accepted.effective {wsl : Option WslInvocation} (h : Accepted host policy spec timeoutMs maxOutputBytes wsl) :
    Accepted host policy { spec with resources := policy.effectiveResources spec.resources } timeoutMs maxOutputBytes wsl where
  launcher := h.launcher
  invocation := h.invocation
  denied := h.denied
  allowed := h.allowed
  absolute := h.absolute
  cwd := h.cwd
  parentEnvironment := h.parentEnvironment
  envKeys := h.envKeys
  timeout := h.timeout
  maxTimeout := h.maxTimeout
  maxOutput := h.maxOutput
  maxMemory := within_or h.maxMemory
  maxCpuTime := within_or h.maxCpuTime
  maxProcesses := within_or h.maxProcesses

end

/-! ## Stricter policies -/

/-- A restriction is newly present, or as narrow as the other one by `le`. -/
def Narrower {α : Type} (le : α → α → Prop) (q p : Option α) : Prop := ∀ b ∈ p, ∃ a ∈ q, le a b

/-- `q` is at least as strict as `p`: field by field, with the same roots of working directories. -/
structure ExecutionPolicy.AtLeastAsStrict (q p : ExecutionPolicy) : Prop where
  allowedExecutables : Narrower (· ⊆ ·) q.allowedExecutables p.allowedExecutables
  deniedExecutables : p.deniedExecutables ⊆ q.deniedExecutables
  allowedCwdRoots : q.allowedCwdRoots = p.allowedCwdRoots
  allowedEnvKeys : Narrower (· ⊆ ·) q.allowedEnvKeys p.allowedEnvKeys
  allowParentEnvironment : q.allowParentEnvironment = true → p.allowParentEnvironment = true
  requireAbsoluteExecutable : p.requireAbsoluteExecutable = true → q.requireAbsoluteExecutable = true
  requireTimeout : p.requireTimeout = true → q.requireTimeout = true
  maxTimeoutMs : Narrower (· ≤ ·) q.maxTimeoutMs p.maxTimeoutMs
  maxOutputBytes : Narrower (· ≤ ·) q.maxOutputBytes p.maxOutputBytes
  maxMemoryBytes : Narrower (· ≤ ·) q.maxMemoryBytes p.maxMemoryBytes
  maxCpuTimeSeconds : Narrower (· ≤ ·) q.maxCpuTimeSeconds p.maxCpuTimeSeconds
  maxProcessCount : Narrower (· ≤ ·) q.maxProcessCount p.maxProcessCount

/-- What is within a narrower ceiling is within a wider one. -/
theorem Within.of_narrower {value q p : Option Int} (hqp : Narrower (· ≤ ·) q p) (h : Within value q) : Within value p := by
  intro n hn m hm
  obtain ⟨c, hc, hcm⟩ := hqp m hm
  exact (h n hn c hc).trans hcm

/-- More names match more. -/
theorem matchesWindowsWslLauncher_mono {host : Host} {executable : PyStr} {a b : Finset PyStr} (hab : a ⊆ b)
    (h : matchesWindowsWslLauncher host executable b = false) : matchesWindowsWslLauncher host executable a = false := by
  rw [matchesWindowsWslLauncher, Bool.and_eq_false_iff] at h ⊢
  refine h.imp_right fun h => ?_
  rw [decide_eq_false_iff_not] at h ⊢
  exact fun hne => h (hne.mono (Finset.inter_subset_inter_left (Finset.image_subset_image hab)))

/-- More names are no fewer under the policy. -/
theorem policyNames_mono {host : Host} {wsl : Option WslInvocation} {a b : Finset PyStr} (hab : a ⊆ b) :
    policyNames host wsl a ⊆ policyNames host wsl b := by
  unfold policyNames normalized
  split
  · exact hab
  · exact Finset.image_subset_image hab

section

variable {q p : ExecutionPolicy}

/-- Every switch that makes the looser policy look inside a launcher is on in the stricter one. -/
theorem ExecutionPolicy.AtLeastAsStrict.checksEffectiveContext (h : q.AtLeastAsStrict p)
    (hp : p.checksEffectiveContext = true) : q.checksEffectiveContext = true := by
  simp only [ExecutionPolicy.checksEffectiveContext, Bool.or_eq_true, decide_eq_true_eq] at hp ⊢
  obtain ((hp | hp) | hp) | hp := hp
  · obtain ⟨names, hnames⟩ := Option.isSome_iff_exists.1 hp
    obtain ⟨a, ha, -⟩ := h.allowedExecutables names hnames
    exact .inl (.inl (.inl (Option.isSome_iff_exists.2 ⟨a, ha⟩)))
  · exact .inl (.inl (.inr (hp.mono h.deniedExecutables)))
  · exact .inl (.inr (h.requireAbsoluteExecutable hp))
  · exact .inr (h.allowedCwdRoots ▸ hp)

variable {host : Host} {spec : CommandSpec} {timeoutMs maxOutputBytes : Option Int}

/-- No switch is on: no rule of the policy depends on the command that is executed in the end. -/
theorem ExecutionPolicy.unswitched (h : p.checksEffectiveContext = false) :
    p.allowedExecutables = none ∧ ¬ p.deniedExecutables.Nonempty ∧ p.requireAbsoluteExecutable = false ∧
      p.allowedCwdRoots.isEmpty = true := by
  simp only [ExecutionPolicy.checksEffectiveContext, Bool.or_eq_false_iff, decide_eq_false_iff_not, Option.isSome_eq_false_iff,
    Option.isNone_iff_eq_none, Bool.not_eq_false'] at h
  exact ⟨h.1.1.1, h.1.1.2, h.1.2, h.2⟩

/-- The rules of the looser policy that read nothing of the executable hold where those of the stricter one do; the others are given. -/
theorem Accepted.of_names {wsl wsl' : Option WslInvocation} (hqp : q.AtLeastAsStrict p)
    (h : Accepted host q spec timeoutMs maxOutputBytes wsl) (invocation : p.policyWslInvocation host spec = .ok wsl')
    (denied : ¬ p.deniedExecutables.Nonempty ∨
      ¬ (requestedNames host spec wsl' ∩ policyNames host wsl' p.deniedExecutables).Nonempty)
    (allowed : ∀ names, p.allowedExecutables = some names →
      (requestedNames host spec wsl' ∩ policyNames host wsl' names).Nonempty)
    (absolute : p.requireAbsoluteExecutable = false ∨ isAbsoluteExecutable host spec wsl' = true)
    (cwd : p.enforceCwd host spec wsl' = .ok ()) : Accepted host p spec timeoutMs maxOutputBytes wsl' where
  launcher := by
    by_cases hp : p.deniedExecutables.Nonempty
    · have hq := h.launcher.resolve_left (not_not_intro (hp.mono hqp.deniedExecutables))
      exact .inr (matchesWindowsWslLauncher_mono hqp.deniedExecutables hq)
    · exact .inl hp
  invocation := invocation
  denied := denied
  allowed := allowed
  absolute := absolute
  cwd := cwd
  parentEnvironment := h.parentEnvironment.imp_left hqp.allowParentEnvironment
  envKeys names hnames entry hentry := by
    obtain ⟨a, ha, hsub⟩ := hqp.allowedEnvKeys names hnames
    exact hsub (h.envKeys a ha entry hentry)
  timeout := by
    cases hp : p.requireTimeout with
    | false => exact .inl rfl
    | true => exact .inr (h.timeout.resolve_left (by simp [hqp.requireTimeout hp]))
  maxTimeout := h.maxTimeout.of_narrower hqp.maxTimeoutMs
  maxOutput := h.maxOutput.of_narrower hqp.maxOutputBytes
  maxMemory := h.maxMemory.of_narrower hqp.maxMemoryBytes
  maxCpuTime := h.maxCpuTime.of_narrower hqp.maxCpuTimeSeconds
  maxProcesses := h.maxProcesses.of_narrower hqp.maxProcessCount

/-- Both policies look at the same command: the names are compared in the same way. -/
theorem Accepted.same_names {wsl : Option WslInvocation} (hqp : q.AtLeastAsStrict p)
    (h : Accepted host q spec timeoutMs maxOutputBytes wsl) (invocation : p.policyWslInvocation host spec = .ok wsl) :
    Accepted host p spec timeoutMs maxOutputBytes wsl := by
  refine h.of_names hqp invocation ?_ ?_ ?_ ?_
  · by_cases hp : p.deniedExecutables.Nonempty
    · have hq := h.denied.resolve_left (not_not_intro (hp.mono hqp.deniedExecutables))
      exact .inr fun hne => hq (hne.mono (Finset.inter_subset_inter_left (policyNames_mono hqp.deniedExecutables)))
    · exact .inl hp
  · intro names hnames
    obtain ⟨a, ha, hsub⟩ := hqp.allowedExecutables names hnames
    exact (h.allowed a ha).mono (Finset.inter_subset_inter_left (policyNames_mono hsub))
  · cases hp : p.requireAbsoluteExecutable with
    | false => exact .inl rfl
    | true => exact .inr (h.absolute.resolve_left (by simp [hqp.requireAbsoluteExecutable hp]))
  · have hcwd := h.cwd
    unfold ExecutionPolicy.enforceCwd at hcwd ⊢
    rwa [← hqp.allowedCwdRoots]

/-- A stricter policy accepts no more. The switch that makes a policy look inside a launcher is off in the looser policy, on in both, or
on in the stricter one alone; there the looser one has no rule about the executable. -/
theorem enforce_mono (hqp : q.AtLeastAsStrict p) (h : q.enforce host spec timeoutMs maxOutputBytes = .ok ()) :
    p.enforce host spec timeoutMs maxOutputBytes = .ok () := by
  obtain ⟨wsl, h⟩ := enforce_eq_ok.1 h
  rw [enforce_eq_ok]
  have hq := h.invocation
  unfold ExecutionPolicy.policyWslInvocation at hq
  by_cases hlauncher : isWslLauncher host.casefold spec.executable = true
  · cases hp : p.checksEffectiveContext with
    | true =>
      refine ⟨wsl, h.same_names hqp ?_⟩
      rw [if_pos ⟨hlauncher, hqp.checksEffectiveContext hp⟩] at hq
      unfold ExecutionPolicy.policyWslInvocation
      rwa [if_pos ⟨hlauncher, hp⟩]
    | false =>
      obtain ⟨hallowed, hdenied, habsolute, hcwd⟩ := ExecutionPolicy.unswitched hp
      refine ⟨none, h.of_names hqp ?_ (.inl hdenied) ?_ (.inl habsolute) ?_⟩
      · simp [ExecutionPolicy.policyWslInvocation, hp, pure, Except.pure]
      · simp [hallowed]
      · simp [ExecutionPolicy.enforceCwd, hcwd, pure, Except.pure]
  · rw [if_neg (fun hand => hlauncher hand.1)] at hq
    refine ⟨wsl, h.same_names hqp ?_⟩
    unfold ExecutionPolicy.policyWslInvocation
    rwa [if_neg (fun hand => hlauncher hand.1)]

end

/-! ## The three properties of a policy -/

/-- Every resource with a ceiling in the policy is set and at most that ceiling. -/
def ExecutionPolicy.CeilingsInPlace (policy : ExecutionPolicy) (r : ResourceLimits) : Prop :=
  (∀ m, policy.maxMemoryBytes = some m → ∃ n, r.memoryBytes = some n ∧ n ≤ m) ∧
    (∀ m, policy.maxCpuTimeSeconds = some m → ∃ n, r.cpuTimeSeconds = some n ∧ n ≤ m) ∧
      (∀ m, policy.maxProcessCount = some m → ∃ n, r.processCount = some n ∧ n ≤ m)

theorem Accepted.ceilingsInPlace {host : Host} {policy : ExecutionPolicy} {spec : CommandSpec} {timeoutMs maxOutputBytes : Option Int}
    {wsl : Option WslInvocation} (h : Accepted host policy spec timeoutMs maxOutputBytes wsl) :
    policy.CeilingsInPlace (policy.effectiveResources spec.resources) :=
  ⟨fun _ => set_of_within h.maxMemory, fun _ => set_of_within h.maxCpuTime, fun _ => set_of_within h.maxProcesses⟩

/-- An effective specification differs from the request in its resources alone, has every ceiling in place, and is its own effective
specification; and what a policy that is at least as strict accepts is accepted. -/
theorem effectiveSpec_enforced (host : Host) (policy : ExecutionPolicy) (spec : CommandSpec) (timeoutMs maxOutputBytes : Option Int) :
    (∀ effective, policy.effectiveSpec host spec timeoutMs maxOutputBytes = .ok effective →
      effective = { spec with resources := effective.resources } ∧ policy.CeilingsInPlace effective.resources ∧
        policy.effectiveSpec host effective timeoutMs maxOutputBytes = .ok effective) ∧
    (∀ q : ExecutionPolicy, q.AtLeastAsStrict policy →
      (q.enforce host spec timeoutMs maxOutputBytes = .ok () → policy.enforce host spec timeoutMs maxOutputBytes = .ok ()) ∧
      (∀ effective, q.effectiveSpec host spec timeoutMs maxOutputBytes = .ok effective →
        ∃ effective', policy.effectiveSpec host spec timeoutMs maxOutputBytes = .ok effective')) := by
  refine ⟨fun effective h => ?_, fun q hqp => ⟨enforce_mono hqp, fun effective h => ?_⟩⟩
  · obtain ⟨hok, rfl⟩ := effectiveSpec_eq_ok.1 h
    obtain ⟨wsl, haccepted⟩ := enforce_eq_ok.1 hok
    refine ⟨rfl, haccepted.ceilingsInPlace, effectiveSpec_eq_ok.2 ⟨enforce_eq_ok.2 ⟨wsl, haccepted.effective⟩, ?_⟩⟩
    simp [effectiveResources_idem]
  · obtain ⟨hok, -⟩ := effectiveSpec_eq_ok.1 h
    exact ⟨_, effectiveSpec_eq_ok.2 ⟨enforce_mono hqp hok, rfl⟩⟩

/-- A POSIX host, as far as lower-case names and resolved absolute paths go. -/
def posixHost : Host where
  casefold := id
  normcase := id
  name := posixBasename
  isAbsolute := posixIsabs
  resolve := id
  commonpath a b := if a = b then some a else none
  pathTypeError _ := "expected str, bytes or os.PathLike object"
  getcwd := "/"

/-- A policy with a memory ceiling, one that also names the Linux commands it allows, and a command in the launcher. -/
def ceilingPolicy : ExecutionPolicy := { maxMemoryBytes := some 4096 }
def namingPolicy : ExecutionPolicy := { maxMemoryBytes := some 1024, allowedExecutables := some {PyStr.ofString "ls"} }
def launcherSpec : CommandSpec :=
  { executable := "wsl.exe", argv := [.str "--cd", .str "/srv", .str "--exec", .str "/bin/ls"] }

/-- A policy that names executables besides is at least as strict. -/
theorem namingPolicy_atLeastAsStrict : namingPolicy.AtLeastAsStrict ceilingPolicy := by
  constructor <;> simp [namingPolicy, ceilingPolicy, Narrower]

theorem effectiveSpec_enforced_sample :
    (∃ effective, ceilingPolicy.effectiveSpec posixHost launcherSpec none (some 10) = .ok effective) ∧
    ceilingPolicy.effectiveSpec posixHost { launcherSpec with resources.memoryBytes := some 4096 } none (some 10) =
      .ok { launcherSpec with resources.memoryBytes := some 4096 } :=
  ⟨((effectiveSpec_enforced posixHost ceilingPolicy launcherSpec none (some 10)).2 namingPolicy
      namingPolicy_atLeastAsStrict).2 { launcherSpec with resources.memoryBytes := some 1024 } (by decide),
    ((effectiveSpec_enforced posixHost ceilingPolicy launcherSpec none (some 10)).1
      { launcherSpec with resources.memoryBytes := some 4096 } (by decide)).2.2⟩

end Runtime

end SharkRail
