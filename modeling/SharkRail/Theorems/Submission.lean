import SharkRail.Lemmas.Pruning
import SharkRail.Theorems.Cancellation

/-!
# Submission

A submission is idempotent. The row of an accepted job keeps its tenant, its key and the digest of what was submitted, through
whatever else the row goes through, and the replay is looked up before any limit is looked at and adds nothing to store. A
submission begins with a pruning: an expired job may be gone by the time its key is looked up (`expired_key_accepts_again`).
-/

namespace SharkRail

namespace Store

open Fallible

variable {cfg : StoreConfig} {s s' : Store}

/-- What a row keeps of its submission. -/
structure SubmittedAs (tenantId key hash : String) (r : JobRow) : Prop where
  tenantId : r.tenantId = tenantId
  key : r.idempotencyKey = key
  hash : r.requestHash = hash

theorem SubmittedAs.rowStep {drawn : Uuid} {clock : Reading} {call : StoreCall} {row row' : JobRow} {kind : Option String}
    {notes : List OutboxRow} {tenantId key hash : String} (h : SubmittedAs tenantId key hash row)
    (hmove : RowStep drawn clock row call row' kind notes) : SubmittedAs tenantId key hash row' := by
  obtain ⟨-, htenant, hkey, hhash⟩ := hmove.key
  exact ⟨htenant.trans h.tenantId, hkey.trans h.key, hhash.trans h.hash⟩

/-- The stages of a submission of a specification that passes its checks. -/
theorem submit_of_pruned {clock : Reading} {before after : Option Cleaner} {tenantId key : String} {spec : JobSpec} {n : Nat}
    (hspec : spec.validate = .ok ()) (hchecked : checkSubmitter tenantId key = .ok ())
    (hpruned : pruneExpired cfg clock before after s = (.ok n, s')) :
    submit cfg clock before after tenantId key spec s = submitTransaction cfg clock tenantId key spec s' := by
  simp only [submit, hspec, hpruned, Outcome.andThen, hchecked]

/-- A submission that reached its transaction passed the checks before it. -/
theorem submit_reaches {clock : Reading} {before after : Option Cleaner} {tenantId key : String} {spec : JobSpec}
    {returned : JobRecord × Bool} (h : (submit cfg clock before after tenantId key spec s).1 = .ok returned) :
    spec.validate = .ok () ∧ checkSubmitter tenantId key = .ok () ∧
      ∃ n s', pruneExpired cfg clock before after s = (.ok n, s') := by
  unfold submit at h
  cases hspec : spec.validate with
  | error e => simp [hspec] at h
  | ok u =>
    rw [hspec] at h
    rcases hp : pruneExpired cfg clock before after s with ⟨r, s'⟩
    rw [hp] at h
    cases r with
    | error e => simp [Outcome.andThen] at h
    | ok n =>
      cases hchecked : checkSubmitter tenantId key with
      | error e => simp [Outcome.andThen, hchecked] at h
      | ok u => exact ⟨rfl, rfl, n, s', rfl⟩

/-- The key of a job is looked up before anything else, and the job found again is returned as it is. -/
theorem submitTransaction_replays (cfg : StoreConfig) (clock : Reading) {spec : JobSpec} {r : JobRow} {job : JobRecord}
    (hs : WellFormed s) (hr : r ∈ s.jobs) (hread : rowToJob r = .ok job)
    (hhash : r.requestHash = cfg.host.sha256 (specText cfg spec)) :
    submitTransaction cfg clock r.tenantId r.idempotencyKey spec s = (.ok (job, false), s) := by
  have hfound : s.jobs.find? (fun x => x.tenantId = r.tenantId && x.idempotencyKey = r.idempotencyKey) = some r := by
    have := Table.find?_key (fun x : JobRow => (x.tenantId, x.idempotencyKey)) hs.keys hr
    simpa only [Prod.mk.injEq, Bool.decide_and] using this
  refine transaction_commits ?_ (Int.le_refl _)
  simp only [hfound, hhash, ne_eq, not_true_eq_false, if_false, hread]
  rfl

/-- A key used with a different content is refused. -/
theorem submitTransaction_conflicts (cfg : StoreConfig) (clock : Reading) {spec : JobSpec} {r : JobRow}
    (hs : WellFormed s) (hr : r ∈ s.jobs) (hhash : r.requestHash ≠ cfg.host.sha256 (specText cfg spec)) :
    submitTransaction cfg clock r.tenantId r.idempotencyKey spec s =
      (.error (.idempotencyConflict "idempotency key was already used with different content"), s) := by
  have hfound : s.jobs.find? (fun x => x.tenantId = r.tenantId && x.idempotencyKey = r.idempotencyKey) = some r := by
    have := Table.find?_key (fun x : JobRow => (x.tenantId, x.idempotencyKey)) hs.keys hr
    simpa only [Prod.mk.injEq, Bool.decide_and] using this
  simp only [submitTransaction, transaction, hfound, ne_eq, hhash, not_false_eq_true, if_true]
  rfl

/-- A transaction refused for want of room found its key free, and leaves the store. -/
theorem submitTransaction_refused {clock : Reading} {tenantId key message : String} {spec : JobSpec} (hs : WellFormed s)
    (hread : Readable s)
    (h : submitTransaction cfg clock tenantId key spec s = (.error (.admissionLimited message), s')) :
    s' = s ∧ ∀ r ∈ s.jobs, ¬(r.tenantId = tenantId ∧ r.idempotencyKey = key) := by
  have hleft : s' = s := by
    rcases transaction_cases cfg _ s with ⟨e, he⟩ | ⟨a, s₁, -, he⟩
    · exact (Prod.mk.inj (h.symm.trans he)).2
    · cases h.symm.trans he
  refine ⟨hleft, ?_⟩
  rintro r hr ⟨rfl, rfl⟩
  obtain ⟨held, hholds⟩ := hread r hr
  by_cases hhash : r.requestHash = cfg.host.sha256 (specText cfg spec)
  · rw [submitTransaction_replays cfg clock hs hr hholds.rowToJob hhash] at h
    cases h
  · rw [submitTransaction_conflicts cfg clock hs hr hhash] at h
    cases h

/-- The checks of a submitter refuse no one for want of room. -/
theorem checkSubmitter_error {tenantId key : String} {e : StoreError} (h : checkSubmitter tenantId key = .error e) :
    ∃ p, e = .py p := by
  unfold checkSubmitter at h
  split at h
  · cases h
    exact ⟨_, rfl⟩
  · split at h
    · cases h
      exact ⟨_, rfl⟩
    · split at h
      · cases h
        exact ⟨_, rfl⟩
      · cases h

/-- A pruning that raises raises for its cutoff. -/
theorem pruneExpired_error {clock : Reading} {before after : Option Cleaner} {e : StoreError} (hs : WellFormed s)
    (h : (pruneExpired cfg clock before after s).1 = .error e) : e = .overflowError "date value out of range" := by
  cases hcutoff : clock.now.minusSeconds cfg.jobTtlSeconds with
  | none =>
    obtain ⟨m, s₁, h₁, -⟩ := finalizeOutputDeletions_returns cfg before s
    simp only [pruneExpired, h₁, Outcome.andThen, hcutoff] at h
    cases h
    rfl
  | some cutoff =>
    obtain ⟨n, s₁, h₁, -⟩ := pruneExpired_returns cfg clock before after hs hcutoff
    rw [h₁] at h
    cases h

/-- A submission refused for want of room changed no more than its pruning did. -/
theorem submit_refused {clock : Reading} {before after : Option Cleaner} {tenantId key message : String} {spec : JobSpec}
    (hs : Reachable cfg s)
    (h : submit cfg clock before after tenantId key spec s = (.error (.admissionLimited message), s')) :
    s' = (pruneExpired cfg clock before after s).2 ∧ (∀ r ∈ s'.jobs, ¬(r.tenantId = tenantId ∧ r.idempotencyKey = key)) ∧
      Shrinks s s' := by
  have hruns : Runs cfg Prunes s (pruneExpired cfg clock before after s).2 := pruneExpired_runs
  unfold submit at h
  cases hspec : spec.validate with
  | error e => simp [hspec] at h
  | ok u =>
    rw [hspec] at h
    rcases hp : pruneExpired cfg clock before after s with ⟨r, s₁⟩
    rw [hp] at h hruns
    cases r with
    | error e =>
      have hoverflow := pruneExpired_error hs.wellFormed (congrArg Prod.fst hp)
      subst hoverflow
      cases h
    | ok n =>
      cases hchecked : checkSubmitter tenantId key with
      | error e =>
        obtain ⟨p, rfl⟩ := checkSubmitter_error hchecked
        simp [Outcome.andThen, hchecked] at h
      | ok u =>
        simp only [Outcome.andThen, hchecked] at h
        have hs₁ := hruns.reachable hs
        obtain ⟨rfl, hfree⟩ := submitTransaction_refused hs₁.wellFormed hs₁.holds h
        cases hcutoff : clock.now.minusSeconds cfg.jobTtlSeconds with
        | none =>
          obtain ⟨m, s₂, h₂, -⟩ := finalizeOutputDeletions_returns cfg before s
          simp [pruneExpired, h₂, Outcome.andThen, hcutoff] at hp
        | some cutoff =>
          obtain ⟨m, s₂, h₂, hshrinks, -⟩ := pruneExpired_returns cfg clock before after hs.wellFormed hcutoff
          cases hp.symm.trans h₂
          exact ⟨rfl, hfree, hshrinks⟩

/-- The row of a job accepted by a submission. -/
theorem submittedAs_of_submit {clock : Reading} {before after : Option Cleaner} {tenantId key : String} {spec : JobSpec}
    {job : JobRecord} (hs : WellFormed s)
    (h : submit cfg clock before after tenantId key spec s = (.ok (job, true), s')) :
    RowsOf job.id (SubmittedAs tenantId key (cfg.host.sha256 (specText cfg spec))) s' := by
  obtain ⟨hspec, hchecked, n, s₁, hpruned⟩ := submit_reaches (congrArg Prod.fst h)
  rw [submit_of_pruned hspec hchecked hpruned] at h
  have hs₁ : WellFormed s₁ := by
    have hruns : Runs cfg Prunes s (pruneExpired cfg clock before after s).2 := pruneExpired_runs
    rw [hpruned] at hruns
    exact hruns.wellFormed hs
  rcases submit_cases cfg clock hs₁ tenantId key hspec with
    ⟨e, he⟩ | ⟨_, _, _, -, -, -, -, he⟩ | ⟨job', s₂, he, hjob, hdrawn, hchange⟩
  · cases h.symm.trans he
  · cases h.symm.trans he
  · cases h.symm.trans he
    have hid : job.id = s₁.drawn := congrArg JobRow.id hjob
    have hnew : s₁.drawn < s'.drawn := hdrawn ▸ Nat.lt_succ_self _
    refine ⟨hid ▸ hnew, fun r hr hrid => ?_⟩
    rcases hchange.row_from hr with hold | ⟨_, _, _, _, hmove, -⟩ | ⟨_, _, _, hcall, -, rfl, -⟩
    · exact absurd (hrid.trans hid) (hs₁.jobDrawn r hold).ne
    · cases hmove
    · cases hcall
      exact ⟨rfl, rfl, rfl⟩

/-- The job is not expired when a call reads the clock: the cutoff of the call is a date, and does not meet it. -/
def Unexpired (cfg : StoreConfig) (clock : Reading) (r : JobRow) (s : Store) : Prop :=
  ∃ cutoff, clock.now.minusSeconds cfg.jobTtlSeconds = some cutoff ∧ s.prunable cutoff r = false

/-- A submission is idempotent. Take a job that a submission created, in any state that any calls lead to since; its row is there
and not expired. The same submission returns the same job, whatever the row went through and however full the store is; one
with a different canonical text under the same key is a conflict; and neither changes more than the pruning it begins with.
In every state, a submission refused for want of room changes no more than that either: it leaves no job under its key, and no
row that was not there before. -/
theorem submit_idempotent {s₀ s₁ s₂ : Store} {first clock : Reading} {before after before' after' : Option Cleaner}
    {tenantId key : String} {spec : JobSpec} {job : JobRecord} {is : List (StoreCall × Reading)} {r : JobRow}
    (h : Reachable cfg s₀) (hsubmit : submit cfg first before after tenantId key spec s₀ = (.ok (job, true), s₁))
    (hrun : Machine.run (step cfg) s₁ is = s₂) (hr : r ∈ s₂.jobs) (hid : r.id = job.id)
    (hkept : Unexpired cfg clock r s₂) :
    (∃ job', submit cfg clock before' after' tenantId key spec s₂ =
        (.ok (job', false), (pruneExpired cfg clock before' after' s₂).2) ∧ job'.id = job.id) ∧
      (∀ spec', spec'.validate = .ok () → specText cfg spec' ≠ specText cfg spec →
        (cfg.host.sha256 (specText cfg spec) = cfg.host.sha256 (specText cfg spec') →
          specText cfg spec = specText cfg spec') →
        ∃ message, submit cfg clock before' after' tenantId key spec' s₂ =
          (.error (.idempotencyConflict message), (pruneExpired cfg clock before' after' s₂).2)) ∧
      ∀ s, Reachable cfg s → ∀ now b a tenantId' key' spec' message s',
        submit cfg now b a tenantId' key' spec' s = (.error (.admissionLimited message), s') →
          s' = (pruneExpired cfg now b a s).2 ∧ (∀ x ∈ s'.jobs, ¬(x.tenantId = tenantId' ∧ x.idempotencyKey = key')) ∧
            s'.jobs.Sublist s.jobs ∧ s'.events.Sublist s.events ∧ s'.outbox.Sublist s.outbox := by
  obtain ⟨hspec, hchecked, -⟩ := submit_reaches (congrArg Prod.fst hsubmit)
  have hs₁ : Reachable cfg s₁ := by
    have hruns : Runs cfg (fun i => Prunes i ∨ i.1 = .submit tenantId key spec) s₀
        (submit cfg first before after tenantId key spec s₀).2 := submit_runs
    rw [hsubmit] at hruns
    exact hruns.reachable h
  have hs₂ : Reachable cfg s₂ := hrun ▸ hs₁.run is
  have hsubmitted : RowsOf job.id (SubmittedAs tenantId key (cfg.host.sha256 (specText cfg spec))) s₂ :=
    hrun ▸ (submittedAs_of_submit h.wellFormed hsubmit).run hs₁.wellFormed fun _ _ _ _ _ _ _ hr hmove => hr.rowStep hmove
  obtain ⟨rfl, rfl, hhash⟩ := hsubmitted.2 r hr hid
  obtain ⟨cutoff, hcutoff, hunexpired⟩ := hkept
  obtain ⟨n, s₃, hpruned, -, hrows⟩ := pruneExpired_returns cfg clock before' after' hs₂.wellFormed hcutoff
  have hr₃ : r ∈ s₃.jobs := hrows r ⟨hr, hunexpired⟩
  have hs₃ : Reachable cfg s₃ := by
    have hruns : Runs cfg Prunes s₂ (pruneExpired cfg clock before' after' s₂).2 := pruneExpired_runs
    rw [hpruned] at hruns
    exact hruns.reachable hs₂
  refine ⟨?_, fun spec' hspec' htext hsha => ?_, ?_⟩
  · obtain ⟨held, hholds⟩ := hs₃.holds r hr₃
    refine ⟨{ r with spec := held.reread true }, ?_, hid⟩
    rw [submit_of_pruned hspec hchecked hpruned, hpruned]
    exact submitTransaction_replays cfg clock hs₃.wellFormed hr₃ hholds.rowToJob hhash
  · have hother : r.requestHash ≠ cfg.host.sha256 (specText cfg spec') := by
      rw [hhash]
      exact fun he => htext (hsha he).symm
    rw [submit_of_pruned hspec' hchecked hpruned, hpruned]
    exact ⟨_, submitTransaction_conflicts cfg clock hs₃.wellFormed hr₃ hother⟩
  · intro s hs now b a tenantId' key' spec' message s' hrefused
    obtain ⟨hleft, hfree, hshrinks⟩ := submit_refused hs hrefused
    exact ⟨hleft, hfree, hshrinks.jobs, hshrinks.events, hshrinks.outbox⟩

end Store

namespace Sample

/-- The store after the sample job was submitted. -/
def submittedStore : Store := (Store.submit cfg (clockAt 1) none none "tenant" "key" spec (Store.create cfg 0)).2

/-- What happens to the sample job after its submission: it is claimed and finished, and its notification delivered. -/
def deliveredRun : List (StoreCall × Reading) :=
  finishedRun.tail ++ [(.claimOutboxDue 1 (60 * Instant.second), clockAt 5), (.outboxDelivered 3 (some 4), clockAt 6)]

end Sample

namespace Store

open Fallible Sample

/-- The sample submission creates job 1. -/
theorem submit_returns_job : ∃ job : JobRecord, job.id = 1 ∧
    submit cfg (clockAt 1) none none "tenant" "key" spec (create cfg 0) = (.ok (job, true), submittedStore) := by
  have hsubmitted : ((submit cfg (clockAt 1) none none "tenant" "key" spec (create cfg 0)).1.toOption.any
      fun returned => returned.1.id = 1 && returned.2) = true := by decide +kernel
  obtain ⟨⟨job, created⟩, hjob, hcreated⟩ := exists_of_toOption hsubmitted
  obtain ⟨hjobId, rfl⟩ : job.id = 1 ∧ created = true := by simpa using hcreated
  have hstore : (submit cfg (clockAt 1) none none "tenant" "key" spec (create cfg 0)).2 = submittedStore := by
    unfold submittedStore
    exact Eq.refl _
  generalize submit cfg (clockAt 1) none none "tenant" "key" spec (create cfg 0) = outcome at hjob hstore ⊢
  refine ⟨job, hjobId, ?_⟩
  rw [← hjob, ← hstore]

/-- The row of the finished job is there, and the submission that comes an hour later prunes it and accepts its key again. -/
theorem expired_key_accepts_again :
    ¬∀ (is : List (StoreCall × Reading)) (first clock : Reading) (spec : JobSpec) (job : JobRecord) (s : Store),
      submit cfg first none none "tenant" "key" spec (create cfg 0) = (.ok (job, true), s) →
        (∃ r ∈ (Machine.run (step cfg) s is).jobs, r.id = job.id) →
          ∃ job', (submit cfg clock none none "tenant" "key" spec (Machine.run (step cfg) s is)).1 = .ok (job', false) ∧
            job'.id = job.id := by
  intro h
  obtain ⟨job, hjobId, hsubmit⟩ := submit_returns_job
  have hrun : (∃ r ∈ (Machine.run (step cfg) submittedStore deliveredRun).jobs, r.id = 1) ∧
      ((submit cfg (clockAt 4000) none none "tenant" "key" spec
        (Machine.run (step cfg) submittedStore deliveredRun)).1.toOption.any fun returned => returned.2) = true := by
    decide +kernel
  obtain ⟨hrow, hagain⟩ := hrun
  obtain ⟨job', hjob', hid⟩ := h deliveredRun (clockAt 1) (clockAt 4000) spec job submittedStore hsubmit (hjobId ▸ hrow)
  rw [hjob'] at hagain
  simp [Except.toOption] at hagain

/-- The sample job, cancelled while its attempt is under way, is found again by its submission, and its key is refused for the
same job with another intent. -/
theorem submit_idempotent_sample :
    ∃ (job : JobRecord) (s₂ : Store) (r : JobRow), Machine.run (step cfg) submittedStore
        [(.claimNext "worker" 30, clockAt 2), (.requestCancel 1 none, clockAt 3)] = s₂ ∧ r ∈ s₂.jobs ∧
      (∃ job', submit cfg (clockAt 4) none none "tenant" "key" spec s₂ =
        (.ok (job', false), (pruneExpired cfg (clockAt 4) none none s₂).2) ∧ job'.id = job.id) ∧
      ∃ message, submit cfg (clockAt 4) none none "tenant" "key" cancelledSpec s₂ =
        (.error (.idempotencyConflict message), (pruneExpired cfg (clockAt 4) none none s₂).2) := by
  obtain ⟨job, hjobId, hsubmit⟩ := submit_returns_job
  have hrow : ∃ r ∈ (Machine.run (step cfg) submittedStore
      [(.claimNext "worker" 30, clockAt 2), (.requestCancel 1 none, clockAt 3)]).jobs,
        r.id = 1 ∧ r.phase.terminal = false := by decide +kernel
  obtain ⟨r, hr, hid, hlive⟩ := hrow
  have hunexpired : Unexpired cfg (clockAt 4) r (Machine.run (step cfg) submittedStore
      [(.claimNext "worker" 30, clockAt 2), (.requestCancel 1 none, clockAt 3)]) :=
    ⟨_, rfl, by simp [prunable, hlive]⟩
  have hidempotent := @submit_idempotent cfg _ _ _ _ _ none none none none _ _ _ _ _ _
    (Machine.Reachable.init (step cfg) (create cfg 0)) hsubmit rfl hr (hid.trans hjobId.symm) hunexpired
  have hvalid : cancelledSpec.validate = .ok () := by decide +kernel
  have htext : specText cfg cancelledSpec ≠ specText cfg spec := by decide +kernel
  have hsha : cfg.host.sha256 (specText cfg spec) ≠ cfg.host.sha256 (specText cfg cancelledSpec) := by decide +kernel
  exact ⟨job, _, r, rfl, hr, hidempotent.1,
    hidempotent.2.1 cancelledSpec hvalid htext fun he => absurd he hsha⟩

end Store

end SharkRail
