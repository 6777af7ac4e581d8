import SharkRail.Runtime.Sessions
import SharkRail.Theorems.Policy

/-!
# The ceilings of a policy on the limits of sessions

The cap on the output of a session is set and within the ceiling of the policy, whatever the request left out. The timeout is within
its ceiling where the request gives one; a request without a timeout gets a session without one.
-/

namespace SharkRail

namespace Runtime

open Fallible
open Integrations (CommandSpec Raised StartRequest)

/-- A limit is set, and at most the ceiling there is. -/
def Bound (limit ceiling : Option Int) : Prop := ∀ m, ceiling = some m → ∃ n, limit = some n ∧ n ≤ m

/-- The ceilings bind a session that was started for a request: its timeout and its cap are set and within them, and the policy accepts
the request with these limits given explicitly. -/
structure CeilingsBind (host : Host) (policy : ExecutionPolicy) (request : StartRequest) (session : SessionLimits) : Prop where
  timeout : Bound session.timeoutMs policy.maxTimeoutMs
  output : Bound session.maxOutputBytes policy.maxOutputBytes
  explicit : policy.enforce host request.spec session.timeoutMs session.maxOutputBytes = .ok ()

section

variable {host : Host} {launch : CommandSpec → Except Integrations.Raised Unit} {manager : ManagerLimits} {policy : ExecutionPolicy}
  {request : StartRequest} {outputRetention : String} {session : SessionLimits}

/-- A session was started for a request that the policy accepts, with the cap and the timeout that the policy was asked about. -/
theorem start_eq_ok (hpolicy : manager.policy = some policy)
    (h : manager.start host launch request outputRetention = .ok session) :
    session.timeoutMs = request.timeoutMs ∧ session.maxOutputBytes = some (manager.outputCap request) ∧
      policy.effectiveSpec host request.spec request.timeoutMs (some (manager.outputCap request)) = .ok session.spec := by
  unfold ManagerLimits.start at h
  obtain ⟨-, h⟩ := check_eq_ok.1 h
  obtain ⟨spec, hspec, h⟩ := bind_eq_ok.1 h
  obtain ⟨-, h⟩ := check_eq_ok.1 h
  obtain ⟨-, h⟩ := check_eq_ok.1 h
  cases pure_eq_ok.1 h
  refine ⟨rfl, rfl, ?_⟩
  rw [ManagerLimits.effectiveSpec, hpolicy] at hspec
  dsimp only at hspec
  split at hspec
  · rename_i effective heffective
    rw [heffective, ← pure_eq_ok.1 hspec]
  · exact absurd hspec throw_ne_ok

/-- A limit that is given and accepted is bound. -/
theorem Within.bound {limit ceiling : Option Int} (h : Within limit ceiling) : Bound limit ceiling ↔ ceiling = none ∨ limit ≠ none := by
  constructor
  · intro hbound
    cases ceiling with
    | none => exact .inl rfl
    | some m =>
      obtain ⟨n, hn, -⟩ := hbound m rfl
      exact .inr (by simp [hn])
  · rintro (rfl | hlimit)
    · exact nofun
    · obtain ⟨n, rfl⟩ := Option.ne_none_iff_exists'.1 hlimit
      exact fun m hm => ⟨n, rfl, h n rfl m hm⟩

/-- The ceilings bind a started session if and only if the policy has no ceiling for the timeout or the request gives one. -/
theorem ceilings_bind_iff_timeout_given (host : Host) (launch : CommandSpec → Except Integrations.Raised Unit) (manager : ManagerLimits)
    (policy : ExecutionPolicy) (request : StartRequest) (outputRetention : String) (session : SessionLimits)
    (hpolicy : manager.policy = some policy) (h : manager.start host launch request outputRetention = .ok session) :
    CeilingsBind host policy request session ↔ policy.maxTimeoutMs = none ∨ request.timeoutMs ≠ none := by
  obtain ⟨htimeout, houtput, hspec⟩ := start_eq_ok hpolicy h
  obtain ⟨henforce, -⟩ := effectiveSpec_eq_ok.1 hspec
  obtain ⟨wsl, haccepted⟩ := enforce_eq_ok.1 henforce
  rw [← haccepted.maxTimeout.bound]
  constructor
  · intro hbind
    rw [← htimeout]
    exact hbind.timeout
  · intro hbound
    refine ⟨htimeout ▸ hbound, ?_, ?_⟩
    · rw [houtput]
      exact haccepted.maxOutput.bound.2 (.inr (Option.some_ne_none _))
    · rw [htimeout, houtput]
      exact henforce

end

/-- A policy with a ceiling for the timeout, and the session of a terminal under it. -/
def timedPolicy : ExecutionPolicy := { maxTimeoutMs := some 1000 }
def terminalSession : SessionLimits :=
  { spec := (acpRequest "ls" [] .null [] none).spec, maxOutputBytes := some (16 * 1024 * 1024), timeoutMs := none
    idleTimeoutMs := none, outputRetention := "tail" }

theorem ceilings_bind_sample :
    CeilingsBind posixHost timedPolicy { acpRequest "ls" [] .null [] none with timeoutMs := some 10 }
      { terminalSession with timeoutMs := some 10 } :=
  (ceilings_bind_iff_timeout_given posixHost (fun _ => pure ()) { policy := some timedPolicy } timedPolicy
    { acpRequest "ls" [] .null [] none with timeoutMs := some 10 } "tail" { terminalSession with timeoutMs := some 10 } rfl
    (by decide)).2 (.inr nofun)

/-- A terminal of the Agent Client Protocol, which gives no timeout, runs without one under a policy with a ceiling for it. -/
theorem terminal_without_timeout :
    ¬ ∀ (host : Host) (launch : CommandSpec → Except Integrations.Raised Unit) (manager : ManagerLimits) (policy : ExecutionPolicy)
      (request : StartRequest) (outputRetention : String) (session : SessionLimits),
      manager.policy = some policy → manager.start host launch request outputRetention = .ok session →
        CeilingsBind host policy request session := by
  intro hall
  have hbind := hall posixHost (fun _ => pure ()) { policy := some timedPolicy } timedPolicy (acpRequest "ls" [] .null [] none) "tail"
    terminalSession rfl (by decide)
  obtain ⟨n, hn, -⟩ := hbind.timeout 1000 rfl
  cases hn

end Runtime

end SharkRail
