import SharkRail.Theorems.Policy
import SharkRail.Theorems.Signals
import SharkRail.Theorems.TwoRuns

/-!
# Tenants are isolated

Both sides of the isolation in one statement: what a tenant does to the others, and what the others do to the answers that it gets.
-/

namespace SharkRail

namespace Tenant

open Store (OfTenant Untouched)

variable {cfg : RequestConfig} {tenantId : String}

/-- No call of a tenant reaches a job of another one, or changes rows of it, but for the expiry of a submission and the oldest events of
the shared log. And over services that agree on the rows and the output of a tenant, its calls get the same answers, up to new ids and
timestamps, where no limit is reached and the clocks let the same jobs expire. -/
theorem tenants_isolated (cfg : RequestConfig) (tenantId : String) :
    (∀ s, Service.Reachable cfg.toServiceConfig s → ∀ other, other ≠ tenantId → ∀ (request : TenantRequest) (call : TenantCall Uuid),
      (∀ jobId, call.job = some jobId → s.store.OfTenant other jobId →
        serve cfg tenantId request call s = (.error (.store (.jobNotFound jobId)), s)) ∧
      ∃ pruned, (pruned = s ∨ call.job = none ∧ pruned = (s.pruneExpired cfg request.clock request.before request.after).2) ∧
        Untouched cfg.store other pruned.store (serve cfg tenantId request call s).2.store ∧
        (serve cfg tenantId request call s).2.output = pruned.output) ∧
    ∀ s₁ s₂, Service.Reachable cfg.toServiceConfig s₁ → Service.Reachable cfg.toServiceConfig s₂ → Agree tenantId s₁ s₂ →
      ∀ times : Instant → Instant → Prop, (∀ r ∈ s₁.store.jobsOf tenantId, ∀ t ∈ r.completedAt, times t t) →
      ∀ requests₁ requests₂, List.Forall₂ (SameRequest cfg times) requests₁ requests₂ →
      ∀ t₁ t₂, Machine.run (step cfg tenantId) (start s₁) requests₁ = t₁ → Machine.run (step cfg tenantId) (start s₂) requests₂ = t₂ →
      (∀ request ∈ requests₁, Unforeseen t₁.created request ∧ Unforeseen t₂.created request) →
      (∀ answer ∈ t₁.answers, Roomy answer) → (∀ answer ∈ t₂.answers, Roomy answer) →
        List.Forall₂ (SameAnswer (ended t₁.created t₂.created (SameEpoch s₁.store.storeEpoch s₂.store.storeEpoch) times)) t₁.answers
          t₂.answers := by
  constructor
  · intro s hs other hne request call
    exact ⟨fun jobId hjob hother => serve_missing hjob (selectJob_of_other hs.store.wellFormed hne hother), serve_untouched hs.store hne⟩
  · intro s₁ s₂ hs₁ hs₂ hagree times htimes requests₁ requests₂ hrequests t₁ t₂ ht₁ ht₂ hunforeseen hroom₁ hroom₂
    exact run_alike hs₁ hs₂ hagree htimes hrequests ht₁ ht₂ hunforeseen hroom₁ hroom₂

/-- What two runs certainly have in common: the data that was read, and whether a submission created its job. -/
def seen : Except RequestError Answer → Option (Bytes ⊕ Bool)
  | .ok (.output data) => some (.inl data)
  | .ok (.submitted _ created) => some (.inr created)
  | _ => none

theorem seen_job (job : JobRecord) : seen (.ok (.job job)) = none := rfl

theorem seen_result (value : List (PyStr × PyJson)) : seen (.ok (.result value)) = none := rfl

theorem seen_eq {c : Correspondence} {answers₁ answers₂ : List (Except RequestError Answer)}
    (h : List.Forall₂ (SameAnswer c) answers₁ answers₂) : answers₁.map seen = answers₂.map seen := by
  induction h with
  | nil => rfl
  | cons hanswer _ ih =>
    rw [List.map_cons, List.map_cons, ih]
    congr 1
    cases hanswer with
    | submitted job₁ job₂ created => rfl
    | job job₁ job₂ => rw [seen_job, seen_job]
    | result job₁ job₂ => rw [seen_result, seen_result]
    | output data => rfl
    | missing => rfl
    | raised e => rfl

instance decidableRoomy : (answer : Except RequestError Answer) → Decidable (Roomy answer)
  | .error (.store (.admissionLimited message)) => .isFalse fun h => h message rfl
  | .error (.store (.jobNotFound _)) | .error (.store (.idempotencyConflict _)) | .error (.store (.storeError _))
  | .error (.store (.integrityError _)) | .error (.store (.overflowError _)) | .error (.store (.py _))
  | .error (.policy _) | .error (.fileNotFound _) | .ok _ => .isTrue fun _ h => by cases h

instance decidableOfTenant (tenantId : String) (jobId : Uuid) (s : Store) : Decidable (s.OfTenant tenantId jobId) :=
  inferInstanceAs (Decidable (∃ r ∈ s.jobs, r.id = jobId ∧ r.tenantId = tenantId))

/-- Two stores agree on all rows of a tenant. -/
structure SameRows (tenantId : String) (s₁ s₂ : Store) : Prop where
  jobs : ∀ r, r.tenantId = tenantId → (r ∈ s₁.jobs ↔ r ∈ s₂.jobs)
  outbox : ∀ o, s₁.OfTenant tenantId o.jobId → (o ∈ s₁.outbox ↔ o ∈ s₂.outbox)
  events : ∀ e, s₁.OfTenant tenantId e.jobId → (e ∈ s₁.events ↔ e ∈ s₂.events)

end Tenant

namespace Sample

def plainSpec : JobSpec := { command := [.str "echo", .str "hello"] }

def plainPayload : List (PyStr × PyJson) := [("command", .arr [.str "echo", .str "hello"])]

/-- A service with the digest of the plain specification, the only one met here. -/
def requestCfg : RequestConfig :=
  { serviceCfg with
    store := { host := { host with sha256 := fun _ => "46eb228b12199dce73d31e1323b559560b5f525404a7c1a8a848df0b06fd7520" } }
    host := Runtime.posixHost
    policy := {} }

/-- The same service with a log of one event. -/
def narrowCfg : RequestConfig := { requestCfg with store := { requestCfg.store with maxEventRecords := 1 } }

/-- A service at work on what was submitted. -/
def opened (submissions : List ServiceInput) : List ServiceInput := [.open "worker" none, .start (clockAt 1)] ++ submissions

/-- The first job is executed, and its process prints `data`. -/
def printed (data : Bytes) : List ServiceInput :=
  opened [.store (.submit "tenant" "old" plainSpec) (clockAt 1), .claim 30 (clockAt 2)] ++ calls 10 ++
    [.monitor 2 .exited, .monitor 2 (.completed (some 0) data [] false none)] ++ calls 8

def served (cfg : RequestConfig) (inputs : List ServiceInput) : Service :=
  Machine.run (Service.step cfg.toServiceConfig) (Service.create cfg.toServiceConfig) inputs

/-- A tenant submits the plain specification, once more. -/
def resubmits (clock : Reading) : TenantRequest := { call := .submit "old" plainPayload, clock }

/-- A service with a job of the tenant, alone or beside one that another tenant has under the key that the tenant is to use. -/
def quiet : Service := served requestCfg (opened [.store (.submit "tenant" "old" plainSpec) (clockAt 1)])
def busy : Service :=
  served requestCfg (opened [.store (.submit "tenant" "old" plainSpec) (clockAt 1), .store (.submit "other" "key" plainSpec) (clockAt 1)])

/-- A tenant submits a job twice, looks at it, cancels it, and looks at its old job. -/
def script : List TenantRequest :=
  [.submit "key" plainPayload, .submit "key" plainPayload, .get (.created 0), .readOutput (.created 0) "stdout", .cancel (.created 0),
    .result (.created 0), .get (.known 1)].map fun call => { call, clock := clockAt 2 }

/-- A tenant reads what its first job printed. -/
def reads : TenantRequest := { call := .readOutput (.known 1) "stdout", clock := clockAt 4 }

end Sample

namespace Tenant

open Sample

theorem reachable_served (cfg : RequestConfig) (inputs : List ServiceInput) : Service.Reachable cfg.toServiceConfig (served cfg inputs) :=
  ⟨inputs, rfl⟩

/-- The tenant does not reach the job of the other one, and its calls do not tell whether that job is there. -/
theorem tenants_isolated_sample :
    serve requestCfg "tenant" reads (.get 2) busy = (.error (.store (.jobNotFound 2)), busy) ∧
      List.Forall₂
        (SameAnswer (ended (Machine.run (step requestCfg "tenant") (start busy) script).created
          (Machine.run (step requestCfg "tenant") (start quiet) script).created
            (SameEpoch busy.store.storeEpoch quiet.store.storeEpoch) Eq))
        (Machine.run (step requestCfg "tenant") (start busy) script).answers
        (Machine.run (step requestCfg "tenant") (start quiet) script).answers := by
  obtain ⟨hothers, hruns⟩ := tenants_isolated requestCfg "tenant"
  have hbusy := reachable_served requestCfg
    (opened [.store (.submit "tenant" "old" plainSpec) (clockAt 1), .store (.submit "other" "key" plainSpec) (clockAt 1)])
  have hquiet := reachable_served requestCfg (opened [.store (.submit "tenant" "old" plainSpec) (clockAt 1)])
  have hrows : busy.store.jobsOf "tenant" = quiet.store.jobsOf "tenant" ∧ busy.store.outbox = quiet.store.outbox ∧
      busy.output.dirs.entries = quiet.output.dirs.entries ∧ busy.store.OfTenant "other" 2 := by decide +kernel
  have hagree : Agree "tenant" busy quiet := agree_of_eq hrows.1 hrows.2.1 (AList.ext hrows.2.2.1)
  have hrun : (∀ request ∈ script,
        (∀ x ∈ (Machine.run (step requestCfg "tenant") (start busy) script).created, request.call.job ≠ some (.known x)) ∧
        ∀ x ∈ (Machine.run (step requestCfg "tenant") (start quiet) script).created, request.call.job ≠ some (.known x)) ∧
      (∀ answer ∈ (Machine.run (step requestCfg "tenant") (start busy) script).answers, Roomy answer) ∧
      ∀ answer ∈ (Machine.run (step requestCfg "tenant") (start quiet) script).answers, Roomy answer := by decide +kernel
  refine ⟨(hothers busy hbusy "other" (by decide) reads (.get 2)).1 2 rfl hrows.2.2.2, ?_⟩
  exact hruns busy quiet hbusy hquiet hagree Eq (fun _ _ _ _ => rfl) script script
    (List.forall₂_same.2 fun request _ => .refl requestCfg request) _ _ rfl rfl
    (fun request hrequest => ⟨fun x hx hmem => (hrun.1 request hrequest).1 x hmem hx,
      fun x hx hmem => (hrun.1 request hrequest).2 x hmem hx⟩)
    hrun.2.1 hrun.2.2

/-- Processes that print different data leave the same rows; and the finished job has expired when it is submitted again long after. -/
theorem printed_runs :
    ((served requestCfg (printed [97])).store.jobs = (served requestCfg (printed [98])).store.jobs ∧
      (served requestCfg (printed [97])).store.outbox = (served requestCfg (printed [98])).store.outbox ∧
      (served requestCfg (printed [97])).store.events = (served requestCfg (printed [98])).store.events) ∧
    ((Machine.run (step requestCfg "tenant") (start (served requestCfg (printed [97]))) [reads]).answers.map seen = [some (.inl [97])] ∧
      (Machine.run (step requestCfg "tenant") (start (served requestCfg (printed [98]))) [reads]).answers.map seen = [some (.inl [98])]) ∧
    ((∀ answer ∈ (Machine.run (step requestCfg "tenant") (start (served requestCfg (printed [97]))) [reads]).answers, Roomy answer) ∧
      ∀ answer ∈ (Machine.run (step requestCfg "tenant") (start (served requestCfg (printed [98]))) [reads]).answers, Roomy answer) ∧
    ((Machine.run (step requestCfg "tenant") (start (served requestCfg (printed [97]))) [resubmits (clockAt 4)]).answers.map seen =
        [some (.inr false)] ∧
      (Machine.run (step requestCfg "tenant") (start (served requestCfg (printed [97]))) [resubmits (clockAt 4000)]).answers.map seen =
        [some (.inr true)]) ∧
    (∀ answer ∈ (Machine.run (step requestCfg "tenant") (start (served requestCfg (printed [97]))) [resubmits (clockAt 4)]).answers,
      Roomy answer) ∧
    ∀ answer ∈ (Machine.run (step requestCfg "tenant") (start (served requestCfg (printed [97]))) [resubmits (clockAt 4000)]).answers,
      Roomy answer := by
  decide +kernel

/-- The log of events is trimmed for all tenants; the rows of a tenant do not hold the data of its output; and what has expired depends
on the clock. -/
theorem isolation_limits :
    (¬∀ s, Service.Reachable narrowCfg.toServiceConfig s → ∀ (request : TenantRequest) (call : TenantCall Uuid),
      ∀ e ∈ (s.pruneExpired narrowCfg request.clock request.before request.after).2.store.events, s.store.OfTenant "other" e.jobId →
        e ∈ (serve narrowCfg "tenant" request call s).2.store.events) ∧
    (¬∀ s₁ s₂, Service.Reachable requestCfg.toServiceConfig s₁ → Service.Reachable requestCfg.toServiceConfig s₂ →
      SameRows "tenant" s₁.store s₂.store → ∀ requests : List TenantRequest,
      (∀ answer ∈ (Machine.run (step requestCfg "tenant") (start s₁) requests).answers, Roomy answer) →
      (∀ answer ∈ (Machine.run (step requestCfg "tenant") (start s₂) requests).answers, Roomy answer) →
      ∃ c, OneToOne c.ids ∧ List.Forall₂ (SameAnswer c) (Machine.run (step requestCfg "tenant") (start s₁) requests).answers
        (Machine.run (step requestCfg "tenant") (start s₂) requests).answers) ∧
    ¬∀ s, Service.Reachable requestCfg.toServiceConfig s → ∀ requests₁ requests₂ : List TenantRequest,
      List.Forall₂ (fun request₁ request₂ => request₁.call = request₂.call) requests₁ requests₂ →
      (∀ answer ∈ (Machine.run (step requestCfg "tenant") (start s) requests₁).answers, Roomy answer) →
      (∀ answer ∈ (Machine.run (step requestCfg "tenant") (start s) requests₂).answers, Roomy answer) →
      ∃ c, OneToOne c.ids ∧ List.Forall₂ (SameAnswer c) (Machine.run (step requestCfg "tenant") (start s) requests₁).answers
        (Machine.run (step requestCfg "tenant") (start s) requests₂).answers := by
  refine ⟨fun h => ?_, fun h => ?_, fun h => ?_⟩
  · have hrun := h _ (reachable_served narrowCfg (opened [.store (.submit "other" "old" plainSpec) (clockAt 1)])) (resubmits (clockAt 2))
      (.submit "old" plainPayload)
    revert hrun
    decide +kernel
  · obtain ⟨⟨hjobs, houtbox, hevents⟩, ⟨hread₁, hread₂⟩, ⟨hroom₁, hroom₂⟩, -⟩ := printed_runs
    obtain ⟨c, -, hsame⟩ := h _ _ (reachable_served requestCfg (printed [97])) (reachable_served requestCfg (printed [98]))
      ⟨fun r _ => by rw [hjobs], fun o _ => by rw [houtbox], fun e _ => by rw [hevents]⟩ [reads] hroom₁ hroom₂
    have hseen := seen_eq hsame
    rw [hread₁, hread₂] at hseen
    revert hseen
    decide
  · obtain ⟨-, -, -, ⟨hsubmitted₁, hsubmitted₂⟩, hroom₁, hroom₂⟩ := printed_runs
    obtain ⟨c, -, hsame⟩ := h _ (reachable_served requestCfg (printed [97])) [resubmits (clockAt 4)] [resubmits (clockAt 4000)]
      (.cons rfl .nil) hroom₁ hroom₂
    have hseen := seen_eq hsame
    rw [hsubmitted₁, hsubmitted₂] at hseen
    revert hseen
    decide

end Tenant

end SharkRail
