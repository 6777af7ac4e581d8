import SharkRail.Theorems.Terminal

/-!
# Cancellation

A cancellation that was asked for wins. The intent is written into the specification once, with the next generation, and no
transaction takes it out again; every way to end an attempt reads it. A job that was submitted with the intent already has it
in its first generation.
-/

namespace SharkRail

namespace Store

variable {cfg : StoreConfig} {s : Store}

/-- The row of a job submitted with `spec`: the specification it holds, and the generation that goes with its intent. -/
structure Intent (spec : JobSpec) (r : JobRow) : Prop where
  holds : r.Holds spec.sorted ∨ r.Holds (JobRow.cancelledSpec spec.sorted)
  generation : r.generation = if r.cancelled = true ∧ spec.desiredState ≠ .str "cancelled" then 2 else 1

/-- A job is accepted in its first generation. -/
theorem intent_acceptedRow {now : Instant} {epoch jobId : Uuid} {tenantId key : String} {spec : JobSpec}
    (h : spec.Valid) : Intent spec (acceptedRow cfg now epoch jobId tenantId key spec) := by
  have hholds : (acceptedRow cfg now epoch jobId tenantId key spec).Holds spec.sorted := holds_acceptedRow h
  refine ⟨Or.inl hholds, ?_⟩
  rw [hholds.cancelled, if_neg]
  · rfl
  · rintro ⟨hcancelled, hactive⟩
    exact hactive (of_decide_eq_true hcancelled)

/-- A row moved keeps the generation that goes with its intent. -/
theorem Intent.rowStep {drawn : Uuid} {clock : Reading} {call : StoreCall} {row row' : JobRow} {kind : Option String}
    {notes : List OutboxRow} {spec : JobSpec} (hi : Intent spec row)
    (h : RowStep drawn clock row call row' kind notes) : Intent spec row' := by
  obtain ⟨held, hheld⟩ : ∃ held, row.Holds held ∧ (held = spec.sorted ∨ held = JobRow.cancelledSpec spec.sorted) := by
    rcases hi.holds with h | h
    · exact ⟨_, h, Or.inl rfl⟩
    · exact ⟨_, h, Or.inr rfl⟩
  obtain ⟨hholds, hwhich⟩ := hheld
  rcases h.holds hholds with ⟨hholds', hgen⟩ | ⟨hactive, hholds', hgen⟩
  · refine ⟨?_, ?_⟩
    · rcases hwhich with rfl | rfl
      · exact Or.inl hholds'
      · exact Or.inr hholds'
    · rw [hgen, hi.generation, hholds'.cancelled, hholds.cancelled]
  · rcases hwhich with rfl | rfl
    · have hsubmitted : spec.desiredState ≠ .str "cancelled" := by
        intro hd
        have hc := hholds.cancelled
        rw [hactive, show spec.sorted.desiredState = spec.desiredState from rfl, hd] at hc
        cases hc.trans (decide_eq_true rfl)
      refine ⟨Or.inr hholds', ?_⟩
      rw [hgen, hi.generation, if_neg (by simp [hactive]),
        if_pos ⟨hholds'.cancelled_of_cancelledSpec, hsubmitted⟩]
    -- the intent is written once
    · rw [hholds.cancelled_of_cancelledSpec] at hactive
      cases hactive

/-- The calls an attempt, a recovery, a restart and further requests make after a cancellation was asked for. -/
def Continues : StoreCall → Prop
  | .markRunning .. | .renewLease .. | .finish .. | .requestCancel .. | .recoverInterrupted | .recoverExpiredLeases ..
  | .reopen => True
  | .submit .. | .claimNext .. | .claimOutboxDue .. | .outboxDelivered .. | .outboxFailed .. | .prune ..
  | .clearManifest .. => False

/-- The intent to cancel is in the row, and if its attempt ended it ended in `canceled`, having seen the generation. -/
def Cancelling (r : JobRow) : Prop :=
  r.cancelled = true ∧ (r.phase.held = true ∨ (r.phase = .canceled ∧ r.observedGeneration = r.generation))

/-- Whatever ends the attempt reads the intent. -/
theorem Cancelling.rowStep {drawn : Uuid} {clock : Reading} {call : StoreCall} {row row' : JobRow} {kind : Option String}
    {notes : List OutboxRow} (hc : Cancelling row) (hcall : Continues call)
    (h : RowStep drawn clock row call row' kind notes) : Cancelling row' := by
  obtain ⟨hcancelled, hphase⟩ := hc
  cases h with
  | assigned => exact hcall.elim
  | running => exact ⟨hcancelled, Or.inl rfl⟩
  | renewed => exact ⟨hcancelled, hphase⟩
  | finished =>
    refine ⟨hcancelled, Or.inr ⟨?_, rfl⟩⟩
    simp [finishedRow, settledPhase, hcancelled]
  | cancelRequested _ _ _ hactive | cancelled _ _ _ hactive =>
    rw [hcancelled] at hactive
    cases hactive
  | interrupted | leaseExpired =>
    refine ⟨hcancelled, Or.inr ⟨?_, rfl⟩⟩
    simp [lostRow, lostPhase, hcancelled]

/-- The row of a job is there. -/
def Present (jobId : Uuid) (s : Store) : Prop := ∃ r ∈ s.jobs, r.id = jobId

theorem Present.change {call : StoreCall} {clock : Reading} {s' : Store} {jobId : Uuid} (hs : WellFormed s)
    (hp : Present jobId s) (hkeep : ¬Deletes cfg call) (h : Change cfg call clock s s') : Present jobId s' := by
  obtain ⟨r, hr, rfl⟩ := hp
  rcases h.row hs hr with hr' | ⟨r', _, _, hstep, hr', -⟩ | ⟨hdel, -⟩
  · exact ⟨r, hr', rfl⟩
  · exact ⟨r', hr', hstep.key.1⟩
  · exact absurd hdel hkeep

theorem Present.run {jobId : Uuid} {is : List (StoreCall × Reading)} (hs : WellFormed s) (hp : Present jobId s)
    (his : ∀ i ∈ is, ¬Deletes cfg i.1) : Present jobId (Machine.run (Store.step cfg) s is) := by
  induction is generalizing s with
  | nil => exact hp
  | cons i is ih =>
    have hcall := his i List.mem_cons_self
    refine ih (hs.step i) ?_ fun j hj => his j (List.mem_cons_of_mem _ hj)
    exact step_induct i hs hp fun _ _ hs hp h => hp.change hs hcall h

/-- Once `request_cancel` returned for a job whose attempt was under way, the job is cancelling. -/
theorem asked_of_requestCancel {clock : Reading} {tenantId : Option String} {r : JobRow} {job : JobRecord}
    (hs : WellFormed s) (hr : r ∈ s.jobs) (hholds : ∃ spec, r.Holds spec) (hheld : r.phase.held = true)
    (h : (requestCancel cfg clock r.id tenantId s).1 = .ok job) :
    RowsOf r.id Cancelling (requestCancel cfg clock r.id tenantId s).2 ∧ Present r.id (requestCancel cfg clock r.id tenantId s).2 := by
  have hsame : ∀ x ∈ s.jobs, x.id = r.id → x = r := fun x hx => Table.eq_of_key JobRow.id hs.jobIds hx hr
  rcases requestCancel_cases cfg clock hs r.id tenantId with ⟨e, he⟩ | ⟨row, hrow, hid, hset, he⟩ |
    ⟨row, hrow, hid, hlive, hactive, hchange, hjobs⟩
  · rw [he] at h
    cases h
  · rw [he]
    obtain rfl := hsame row hrow hid
    have hcancelled : row.cancelled = true := by simpa [JobPhase.terminal_of_held hheld] using hset
    refine ⟨⟨hs.jobDrawn row hr, fun x hx hid => ?_⟩, row, hr, rfl⟩
    rw [hsame x hx hid]
    exact ⟨hcancelled, Or.inl hheld⟩
  · obtain rfl := hsame row hrow hid
    obtain ⟨spec, hholds⟩ := hholds
    have hrequested : (cancelRequestedRow clock.now row row).Holds (JobRow.cancelledSpec spec) := hholds.cancel rfl
    have hqueued : row.phase ≠ .queued := fun hq => by simp [hq, JobPhase.held] at hheld
    refine ⟨⟨(hs.jobDrawn row hr).trans_le hchange.drawn_le, fun x hx hid => ?_⟩, ?_⟩
    · rw [hjobs, mem_replaceJob] at hx
      rcases hx with ⟨-, hne⟩ | ⟨rfl, -⟩
      · exact absurd hid hne
      · refine ⟨hrequested.cancelled_of_cancelledSpec, Or.inl ?_⟩
        simpa [cancelRequestedRow, hqueued] using hheld
    · refine ⟨cancelRequestedRow clock.now row row, ?_, rfl⟩
      rw [hjobs, mem_replaceJob]
      exact Or.inr ⟨rfl, row, hr, rfl⟩

/-- A job submitted is in the generation that goes with its intent. -/
theorem intends_of_submit {clock : Reading} {tenantId key : String} {spec : JobSpec} {job : JobRecord} {s₁ : Store}
    (hs : WellFormed s) (hspec : spec.validate = .ok ())
    (h : submitTransaction cfg clock tenantId key spec s = (.ok (job, true), s₁)) : RowsOf job.id (Intent spec) s₁ := by
  rcases submit_cases cfg clock hs tenantId key hspec with
    ⟨e, he⟩ | ⟨_, _, _, -, -, -, -, he⟩ | ⟨job', s', he, hjob, hdrawn, hchange⟩
  · rw [he] at h
    cases h
  · rw [he] at h
    cases h
  · rw [he] at h
    cases h
    have hid : job.id = s.drawn := congrArg JobRow.id hjob
    have hnew : s.drawn < s₁.drawn := hdrawn ▸ Nat.lt_succ_self _
    refine ⟨hid ▸ hnew, fun r hr hrid => ?_⟩
    rcases hchange.row_from hr with hold | ⟨_, _, _, _, hstep, -⟩ | ⟨_, _, _, hcall, -, rfl, -⟩
    · exact absurd (hrid.trans hid) (hs.jobDrawn r hold).ne
    · cases hstep
    · cases hcall
      exact intent_acceptedRow (JobSpec.validate_eq_ok.1 hspec)

/-- A cancellation asked for wins. Take a job that was submitted with `spec`, whatever happened since; its attempt is under way
when `request_cancel` returns for it. In every state that the attempt, recovery, restarts and further requests then lead to,
the intent is in the row, the generation was raised once in all (not at all if the job was submitted with the intent), and if
the attempt ended it ended in `canceled` and observed that generation. The row is there unless its store was lost. -/
theorem cancellation_wins {s₁ s₂ s₃ : Store} {submitted requested : Reading} {tenantId key : String} {spec : JobSpec}
    {job job' : JobRecord} {tenant : Option String} {mid is : List (StoreCall × Reading)} {r : JobRow}
    (h : Reachable cfg s) (hspec : spec.validate = .ok ())
    (hsubmit : submitTransaction cfg submitted tenantId key spec s = (.ok (job, true), s₁))
    (hmid : Machine.run (step cfg) s₁ mid = s₂) (hr : r ∈ s₂.jobs) (hid : r.id = job.id) (hheld : r.phase.held = true)
    (hcancel : requestCancel cfg requested job.id tenant s₂ = (.ok job', s₃)) (his : ∀ i ∈ is, Continues i.1) :
    (∀ r' ∈ (Machine.run (step cfg) s₃ is).jobs, r'.id = job.id →
      r'.cancelled = true ∧ r'.generation = (if spec.desiredState = .str "cancelled" then 1 else 2) ∧
        (r'.phase.held = true ∨ (r'.phase = .canceled ∧ r'.observedGeneration = r'.generation))) ∧
      ((∀ i ∈ is, i.1 = .reopen → cfg.volatile = false) →
        ∃ r' ∈ (Machine.run (step cfg) s₃ is).jobs, r'.id = job.id) := by
  have hs₁ : Reachable cfg s₁ := by
    have := h.next (.submit tenantId key spec, submitted)
    simpa [step, hspec, hsubmit] using this
  have hs₂ : Reachable cfg s₂ := hmid ▸ hs₁.run mid
  have hs₃ : Reachable cfg s₃ := by
    have := hs₂.next (.requestCancel job.id tenant, requested)
    simpa [step, hcancel] using this
  have hintends : RowsOf job.id (Intent spec) s₃ := by
    have hrun : RowsOf job.id (Intent spec)
        (Machine.run (step cfg) s₁ (mid ++ [(.requestCancel job.id tenant, requested)])) :=
      (intends_of_submit h.wellFormed hspec hsubmit).run hs₁.wellFormed fun _ _ _ _ _ _ _ hi hmove => hi.rowStep hmove
    simpa [Machine.run_append, hmid, step, hcancel] using hrun
  rw [← hid] at hcancel hintends ⊢
  obtain ⟨hasked, hpresent⟩ := asked_of_requestCancel hs₂.wellFormed hr (hs₂.holds r hr) hheld (congrArg Prod.fst hcancel)
  rw [hcancel] at hasked hpresent
  refine ⟨fun r' hr' hid' => ?_, fun hkept => ?_⟩
  · have hcancelling : RowsOf r.id Cancelling (Machine.run (step cfg) s₃ is) :=
      hasked.run hs₃.wellFormed fun i hi _ _ _ _ _ hc hmove => hc.rowStep (his i hi) hmove
    have hintent : RowsOf r.id (Intent spec) (Machine.run (step cfg) s₃ is) :=
      hintends.run hs₃.wellFormed fun _ _ _ _ _ _ _ hi hmove => hi.rowStep hmove
    obtain ⟨hcancelled, hphase⟩ := hcancelling.2 r' hr' hid'
    refine ⟨hcancelled, ?_, hphase⟩
    rw [(hintent.2 r' hr' hid').generation]
    by_cases hd : spec.desiredState = .str "cancelled" <;> simp [hd, hcancelled]
  · refine hpresent.run hs₃.wellFormed fun i hi hdel => ?_
    have hcont := his i hi
    rcases hdel with ⟨_, _, hcall⟩ | ⟨hcall, hvolatile⟩
    · rw [hcall] at hcont
      exact hcont
    · rw [hkept i hi hcall] at hvolatile
      cases hvolatile

end Store

namespace Sample

/-- The sample job is submitted, with whatever intent, and claimed: job 1, attempt 2. -/
def claimedStore (spec : JobSpec) : Store :=
  Machine.run (Store.step cfg) (Store.create cfg 0)
    [(.submit "tenant" "key" spec, clockAt 1), (.claimNext "worker" 30, clockAt 2)]

end Sample

namespace Store

open Fallible Sample

/-- A job submitted with the intent to cancel stays in its first generation when its attempt is cancelled. -/
theorem cancelled_at_submission :
    ¬∀ (spec : JobSpec) (is : List (StoreCall × Reading)) (requested : Reading), spec.validate = .ok () →
      ∀ s, s = Machine.run (step cfg) (create cfg 0) ((.submit "tenant" "key" spec, clockAt 1) :: is) →
        ∀ r ∈ s.jobs, r.phase.held = true →
          ∀ job s', requestCancel cfg requested r.id none s = (.ok job, s') → job.generation = 2 := by
  intro h
  have hvalid : cancelledSpec.validate = .ok () := by decide +kernel
  have hrun : ∃ r ∈ (claimedStore cancelledSpec).jobs, r.phase.held = true ∧
      ((requestCancel cfg (clockAt 3) r.id none (claimedStore cancelledSpec)).1.toOption.any
        fun job => job.generation = 1) = true := by decide +kernel
  obtain ⟨r, hr, hheld, hreturns⟩ := hrun
  obtain ⟨job, hjob, hgen⟩ := exists_of_toOption hreturns
  have hcancel : requestCancel cfg (clockAt 3) r.id none (claimedStore cancelledSpec) =
      (.ok job, (requestCancel cfg (clockAt 3) r.id none (claimedStore cancelledSpec)).2) := by rw [← hjob]
  have hraised := h cancelledSpec [(.claimNext "worker" 30, clockAt 2)] (clockAt 3) hvalid (claimedStore cancelledSpec) rfl r
    hr hheld job _ hcancel
  simp [hraised] at hgen

/-- The sample job, cancelled under way: a success reported later ends it in `canceled`, in its second generation. -/
theorem cancellation_wins_sample :
    ∃ s₃, (requestCancel cfg (clockAt 3) 1 none (claimedStore spec)).2 = s₃ ∧
      ∀ r' ∈ (Machine.run (step cfg) s₃ [(.finish 1 2 "worker" report, clockAt 4)]).jobs, r'.id = 1 →
        r'.cancelled = true ∧ r'.generation = (if spec.desiredState = .str "cancelled" then 1 else 2) ∧
          (r'.phase.held = true ∨ (r'.phase = .canceled ∧ r'.observedGeneration = r'.generation)) := by
  have hvalid : spec.validate = .ok () := by decide +kernel
  have hsubmitted : ((submitTransaction cfg (clockAt 1) "tenant" "key" spec (create cfg 0)).1.toOption.any
      fun returned => returned.1.id = 1 && returned.2) = true := by decide +kernel
  have hrun : ∃ r ∈ (claimedStore spec).jobs, r.id = 1 ∧ r.phase.held = true ∧
      ((requestCancel cfg (clockAt 3) 1 none (claimedStore spec)).1.toOption.any fun _ => true) = true := by
    decide +kernel
  obtain ⟨⟨job, created⟩, hjob, hcreated⟩ := exists_of_toOption hsubmitted
  obtain ⟨r, hr, hid, hheld, hreturns⟩ := hrun
  obtain ⟨job', hjob', -⟩ := exists_of_toOption hreturns
  obtain ⟨hjobId, rfl⟩ : job.id = 1 ∧ created = true := by simpa using hcreated
  have hsubmit : submitTransaction cfg (clockAt 1) "tenant" "key" spec (create cfg 0) =
      (.ok (job, true), (submitTransaction cfg (clockAt 1) "tenant" "key" spec (create cfg 0)).2) := by rw [← hjob]
  have hclaimed : Machine.run (step cfg) (submitTransaction cfg (clockAt 1) "tenant" "key" spec (create cfg 0)).2
      [(.claimNext "worker" 30, clockAt 2)] = claimedStore spec := by
    simp only [claimedStore, Machine.run_cons, Machine.run_nil, step, hvalid]
  have hcancel : requestCancel cfg (clockAt 3) job.id none (claimedStore spec) =
      (.ok job', (requestCancel cfg (clockAt 3) 1 none (claimedStore spec)).2) := by rw [hjobId, ← hjob']
  have hfinish : ∀ i ∈ [((.finish 1 2 "worker" report, clockAt 4) : StoreCall × Reading)], Continues i.1 := by
    simp [Continues]
  have hwins := cancellation_wins (Machine.Reachable.init (step cfg) (create cfg 0)) hvalid hsubmit hclaimed hr
    (hid.trans hjobId.symm) hheld hcancel hfinish
  rw [hjobId] at hwins
  exact ⟨_, rfl, hwins.1⟩

end Store

end SharkRail
