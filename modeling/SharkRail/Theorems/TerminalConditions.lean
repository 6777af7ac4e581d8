import SharkRail.Theorems.Revisions

/-!
# What a job that ended says

A job that `finish` ends has one `Ready` condition, which says how it ended, and the event of its phase at its last revision. The other
transactions that end a job leave its conditions as they are: a request to cancel a queued job, which logs the event of the request only,
and the two recoveries.
-/

namespace SharkRail

namespace Store

variable {cfg : StoreConfig} {s : Store} {jobId : Uuid}

/-! ## The ways a job ends -/

/-- The transaction would cancel the row while it is queued. -/
def CancelsQueued (input : StoreCall × Reading) (r : JobRow) : Prop :=
  ∃ tenantId, input.1 = .requestCancel r.id tenantId ∧ (∀ t ∈ tenantId, r.tenantId = t) ∧ r.phase = .queued ∧ r.cancelled = false

/-- The transaction is a recovery that would take the row for lost. -/
def Loses (input : StoreCall × Reading) (r : JobRow) : Prop :=
  r.phase.held = true ∧ (input.1 = .recoverInterrupted ∨
    ∃ excludeJobIds, input.1 = .recoverExpiredLeases excludeJobIds ∧ r.id ∉ excludeJobIds ∧ leaseExpired input.2.now r = true)

/-- The transaction would mark the row as running though it ended. -/
def Reopens (input : StoreCall × Reading) (r : JobRow) : Prop :=
  ∃ attemptId owner, input.1 = .markRunning r.id attemptId owner ∧ ownedBy r.id attemptId owner r = true ∧ r.phase.terminal = true

/-- The transaction neither ends the job otherwise than by `finish`, nor takes its end back. -/
def EndsByFinish (jobId : Uuid) (s : Store) (input : StoreCall × Reading) : Prop :=
  ∀ r ∈ s.jobs, r.id = jobId → ¬CancelsQueued input r ∧ ¬Loses input r ∧ ¬Reopens input r

/-! ## The condition -/

/-- One entry of the conditions says that the job is ready: whether it succeeded, and the reason of the job. -/
def ReadyAs (r : JobRow) : Prop :=
  ∃ c, r.conditionsJson.filter (fun c => c.type = .ready) = [c] ∧ (c.status = true ↔ r.phase = .succeeded) ∧ r.reason = some c.reason

/-- A job says how it ended once it has, and not before. -/
def Conditioned (r : JobRow) : Prop :=
  if r.phase.terminal then ReadyAs r else r.conditionsJson.filter (fun c => c.type = .ready) = []

theorem settledPhase_terminal {cancelled : Bool} {phase : JobPhase} (h : phase.terminal = true) :
    (settledPhase cancelled phase).terminal = true := by
  unfold settledPhase
  split
  · rfl
  · exact h

/-- What ends a job as `finish` does, or does not end it, keeps what its conditions say. -/
theorem RowStep.conditioned {drawn : Uuid} {input : StoreCall × Reading} {row row' : JobRow} {kind : Option String} {notes : List OutboxRow}
    (h : RowStep drawn input.2 row input.1 row' kind notes)
    (hguard : ¬CancelsQueued input row ∧ ¬Loses input row ∧ ¬Reopens input row) (hrow : Conditioned row) :
    Conditioned row' ∧ ¬CancelsQueued input row' ∧ ¬Loses input row' ∧ ¬Reopens input row' := by
  obtain ⟨call, clock⟩ := input
  obtain ⟨hcancel, hloses, hreopens⟩ := hguard
  dsimp only at h
  unfold Conditioned at hrow ⊢
  cases h with
  | assigned owner leaseSeconds hphase =>
    rw [hphase] at hrow
    exact ⟨hrow, by simp [CancelsQueued], by simp [Loses], by simp [Reopens]⟩
  | running attemptId owner howned =>
    have hlive : row.phase.terminal = false := by
      by_contra hterminal
      exact hreopens ⟨attemptId, owner, rfl, howned, by simpa using hterminal⟩
    rw [hlive] at hrow
    exact ⟨hrow, by simp [CancelsQueued], by simp [Loses], by simp [Reopens, runningRow, JobPhase.terminal]⟩
  | renewed => exact ⟨hrow, by simp [CancelsQueued], by simp [Loses], by simp [Reopens]⟩
  | finished attemptId owner report howned hphase hreport =>
    rw [JobPhase.terminal_of_held hphase] at hrow
    have hterminal : (finishedRow clock.now row report row).phase.terminal = true := settledPhase_terminal hreport
    refine ⟨?_, by simp [CancelsQueued], by simp [Loses], by simp [Reopens]⟩
    rw [if_pos hterminal]
    refine ⟨⟨.ready, decide (settledPhase row.cancelled report.phase = .succeeded), settledReason row.cancelled report.reason, clock.now⟩,
      ?_, decide_eq_true_iff, rfl⟩
    change (row.conditionsJson ++ [_]).filter _ = _
    rw [List.filter_append, hrow]
    rfl
  | cancelRequested tenantId htenant hphase hactive =>
    have hqueued : row.phase ≠ .queued := fun h => by simp [h, JobPhase.held] at hphase
    have hsame : (cancelRequestedRow clock.now row row).phase = row.phase := if_neg hqueued
    rw [JobPhase.terminal_of_held hphase] at hrow
    rw [hsame, JobPhase.terminal_of_held hphase]
    refine ⟨hrow, ?_, by simp [Loses], by simp [Reopens]⟩
    rintro ⟨-, -, -, hphase', -⟩
    exact hqueued (hsame.symm.trans hphase')
  | cancelled tenantId htenant hphase hactive => exact absurd ⟨tenantId, rfl, htenant, hphase, hactive⟩ hcancel
  | interrupted hphase => exact absurd ⟨hphase, .inl rfl⟩ hloses
  | leaseExpired excludeJobIds hphase hexcluded hlease => exact absurd ⟨hphase, .inr ⟨excludeJobIds, rfl, hexcluded, hlease⟩⟩ hloses

/-- In a run that ends the job by `finish` only, the job says how it ended. -/
theorem conditioned_run (cfg : StoreConfig) (inputs : List (StoreCall × Reading))
    (hg : Machine.Guarded (step cfg) (EndsByFinish jobId) (create cfg 0) inputs) :
    ∀ r ∈ (Machine.run (step cfg) (create cfg 0) inputs).jobs, r.id = jobId → Conditioned r := by
  have hrun : (fun s => WellFormed s ∧ ∀ r ∈ s.jobs, r.id = jobId → Conditioned r) (Machine.run (step cfg) (create cfg 0) inputs) := by
    refine Machine.run_induct_of_guarded (P := fun s => WellFormed s ∧ ∀ r ∈ s.jobs, r.id = jobId → Conditioned r) ?_ hg
      ⟨wellFormed_create 0, fun r hr => ?_⟩
    · rintro s input ⟨hs, hrows⟩ hguard
      refine ⟨hs.step input, fun r hr hid => ?_⟩
      have hstep : ∀ r ∈ (step cfg s input).jobs, r.id = jobId →
          Conditioned r ∧ ¬CancelsQueued input r ∧ ¬Loses input r ∧ ¬Reopens input r := by
        refine step_induct (P := fun s => ∀ r ∈ s.jobs, r.id = jobId →
            Conditioned r ∧ ¬CancelsQueued input r ∧ ¬Loses input r ∧ ¬Reopens input r) input hs
          (fun r hr hid => ⟨hrows r hr hid, hguard r hr hid⟩) fun s₁ s₂ _ hrows₁ hchange r' hr' hid' => ?_
        rcases hchange.row_from hr' with hr' | ⟨r, hr, kind, notes, hmove, -⟩ | ⟨tenantId, key, spec, hcall, -, rfl, -⟩
        · exact hrows₁ r' hr' hid'
        · obtain ⟨hconditioned, hallowed⟩ := hrows₁ r hr (hmove.key.1.symm.trans hid')
          exact hmove.conditioned hallowed hconditioned
        · refine ⟨rfl, ?_, ?_, ?_⟩
          · rintro ⟨_, hcancel, -⟩
            cases hcall.symm.trans hcancel
          · rintro ⟨-, hlost | ⟨_, hlost, -⟩⟩
            · cases hcall.symm.trans hlost
            · cases hcall.symm.trans hlost
          · rintro ⟨_, _, hreopen, -⟩
            cases hcall.symm.trans hreopen
      exact (hstep r hr hid).1
    · rw [(create_tables cfg 0).1] at hr
      cases hr
  exact hrun.2

/-! ## The event -/

/-- What ends a job, except for the request to cancel it while it is queued, logs the event of its phase. -/
theorem RowStep.terminal_kind {drawn : Uuid} {input : StoreCall × Reading} {row row' : JobRow} {kind : String} {notes : List OutboxRow}
    (h : RowStep drawn input.2 row input.1 row' (some kind) notes) (hguard : ¬CancelsQueued input row)
    (hterminal : row'.phase.terminal = true) : kind = "job." ++ row'.phase.value := by
  obtain ⟨call, clock⟩ := input
  dsimp only at h
  cases h with
  | assigned | running => cases hterminal
  | finished | interrupted | leaseExpired => rfl
  | cancelRequested tenantId htenant hphase =>
    have hqueued : row.phase ≠ .queued := fun h => by simp [h, JobPhase.held] at hphase
    have hsame : (cancelRequestedRow clock.now row row).phase = row.phase := if_neg hqueued
    rw [hsame, JobPhase.terminal_of_held hphase] at hterminal
    cases hterminal
  | cancelled tenantId htenant hphase hactive => exact absurd ⟨tenantId, rfl, htenant, hphase, hactive⟩ hguard

/-- A row keeps its phase as long as it keeps its revision. -/
theorem phase_of_revision (hs : WellFormed s) {r r' : JobRow} (hr : r ∈ s.jobs) (later : List (StoreCall × Reading))
    (hr' : r' ∈ (Machine.run (step cfg) s later).jobs) (hid : r'.id = r.id) (hrevision : r'.revision = r.revision) :
    r'.phase = r.phase := by
  have hrows : RowsOf r.id (fun x => r.revision < x.revision ∨ x.revision = r.revision ∧ x.phase = r.phase)
      (Machine.run (step cfg) s later) := by
    refine RowsOf.run hs ⟨hs.jobDrawn r hr, fun x hx hxid => ?_⟩ fun input _ drawn row row' kind notes hrow hmove => ?_
    · rw [Table.eq_of_key JobRow.id hs.jobIds hx hr hxid]
      exact .inr ⟨rfl, rfl⟩
    · cases kind with
      | some kind =>
        have hnext := hmove.revision_succ
        left
        rcases hrow with hlt | ⟨heq, -⟩ <;> omega
      | none =>
        obtain ⟨call, clock⟩ := input
        dsimp only at hmove
        cases hmove with
        | renewed => exact hrow
  rcases hrows.2 r' hr' hid with hlt | ⟨-, hphase⟩
  · exact absurd hrevision hlt.ne'
  · exact hphase

/-- The event of the end of a job is there as long as the job is, unless newer events fill the log, if the transaction that ended the job
was not the request to cancel it while it was queued. -/
theorem terminal_event (h : Reachable cfg s) (input : StoreCall × Reading) (later : List (StoreCall × Reading)) {r : JobRow}
    (hguard : ∀ r₀ ∈ s.jobs, r₀.id = r.id → ¬CancelsQueued input r₀) (hr : r ∈ (Machine.run (step cfg) s (input :: later)).jobs)
    (hterminal : r.phase.terminal = true) (hafter : ∃ r' ∈ (step cfg s input).jobs, r'.id = r.id ∧ r'.revision = r.revision)
    (hbefore : ∀ r₀ ∈ s.jobs, r₀.id = r.id → r₀.revision ≠ r.revision) :
    ∃ seq, s.nextSeq ≤ seq ∧
      ((∃ e ∈ (Machine.run (step cfg) s (input :: later)).events,
          e.seq = seq ∧ e.jobId = r.id ∧ e.revision = r.revision ∧ e.kind = "job." ++ r.phase.value) ∨
        FullOfNewer cfg s (input :: later) seq) := by
  obtain ⟨new, hlogged⟩ := step_logged h input
  obtain ⟨r', hr', hid', hrevision'⟩ := hafter
  have hphase : r.phase = r'.phase := phase_of_revision (h.wellFormed.step input) hr' later hr hid'.symm hrevision'.symm
  have hrow := hlogged.rows r' hr'
  generalize hlist : new.filter (fun e => e.jobId = r'.id) = own at hrow
  cases hrow with
  | kept hrow => exact absurd hrevision' (hbefore r' hrow hid')
  | renewed r₀ hr₀ attemptId owner leaseSeconds hcall hsame =>
    subst hsame
    exact absurd hrevision' (hbefore r₀ hr₀ hid')
  | accepted e hnew _ _ _ hcall hqueued =>
    rw [hphase, hqueued] at hterminal
    cases hterminal
  | moved e r₀ hr₀ drawn notes hstep hid heq =>
    have he : e ∈ new := by
      have hown : e ∈ new.filter fun e => e.jobId = r'.id := hlist ▸ List.mem_singleton_self e
      exact List.mem_of_mem_filter hown
    have hkind := hstep.terminal_kind (hguard r₀ hr₀ (hstep.key.1.symm.trans hid')) (hphase ▸ hterminal)
    have hseq : e.seq ∈ List.range' s.nextSeq new.length := hlogged.numbered ▸ List.mem_map_of_mem he
    refine ⟨e.seq, (List.mem_range'_1.1 hseq).1, ?_⟩
    refine (logged_kept_or_full h hlogged he later ⟨r, hr, (hid.trans hid').symm⟩).imp_left fun hkept => ?_
    exact ⟨e, hkept, rfl, hid.trans hid', heq.trans hrevision', hphase ▸ hkind⟩

/-! ## The job that ended -/

/-- In every run that ends the job by `finish` only and does not take its end back, the job that is terminal has the one condition that says
how it ended; and the event of its phase at its last revision, unless newer events fill the log. -/
theorem terminal_condition_and_event (cfg : StoreConfig) (inputs : List (StoreCall × Reading)) (jobId : Uuid)
    (hg : Machine.Guarded (step cfg) (EndsByFinish jobId) (create cfg 0) inputs) :
    let s := Machine.run (step cfg) (create cfg 0) inputs
    ∀ r ∈ s.jobs, r.id = jobId → r.phase.terminal = true →
      ReadyAs r ∧ ∀ before input later, inputs = before ++ input :: later →
        let s₀ := Machine.run (step cfg) (create cfg 0) before
        (∃ r' ∈ (step cfg s₀ input).jobs, r'.id = r.id ∧ r'.revision = r.revision) →
          (∀ r₀ ∈ s₀.jobs, r₀.id = r.id → r₀.revision ≠ r.revision) →
            ∃ seq, s₀.nextSeq ≤ seq ∧
              ((∃ e ∈ s.events, e.seq = seq ∧ e.jobId = r.id ∧ e.revision = r.revision ∧ e.kind = "job." ++ r.phase.value) ∨
                FullOfNewer cfg s₀ (input :: later) seq) := by
  intro s r hr hid hterminal
  constructor
  · have hconditioned := conditioned_run cfg inputs hg r hr hid
    rwa [Conditioned, if_pos hterminal] at hconditioned
  · rintro before input later rfl
    have hrun : s = Machine.run (step cfg) (Machine.run (step cfg) (create cfg 0) before) (input :: later) := Machine.run_append _ _ _ _
    have hbefore : Reachable cfg (Machine.run (step cfg) (create cfg 0) before) := ⟨before, rfl⟩
    have hguard := (Machine.guarded_append.1 hg).2.1
    dsimp only
    rw [hrun] at hr ⊢
    intro hafter hfresh
    exact terminal_event hbefore input later (fun r₀ hr₀ hid₀ => (hguard r₀ hr₀ (hid₀.trans hid)).1) hr hterminal hafter hfresh

open Sample in
/-- The job of the sample run is claimed, started and finished. -/
theorem terminal_condition_and_event_sample :
    ∃ r ∈ finishedStore.jobs, r.phase = .succeeded ∧ ReadyAs r ∧ ∃ seq, 4 ≤ seq ∧
      ((∃ e ∈ finishedStore.events, e.seq = seq ∧ e.jobId = r.id ∧ e.revision = r.revision ∧ e.kind = "job." ++ r.phase.value) ∨
        FullOfNewer Sample.cfg (Machine.run (step Sample.cfg) (create Sample.cfg 0) (finishedRun.take 3)) (finishedRun.drop 3) seq) := by
  have hsteps : (∃ r ∈ finishedStore.jobs, r.phase = .succeeded ∧ r.id = 1 ∧ r.revision = 4) ∧
      (∀ r ∈ (Machine.run (step Sample.cfg) (create Sample.cfg 0) (finishedRun.take 2)).jobs, r.phase.terminal = false) ∧
      (∀ r ∈ (Machine.run (step Sample.cfg) (create Sample.cfg 0) (finishedRun.take 3)).jobs, r.revision = 3) ∧
      (Machine.run (step Sample.cfg) (create Sample.cfg 0) (finishedRun.take 3)).nextSeq = 4 ∧
      ∃ r ∈ (step Sample.cfg (Machine.run (step Sample.cfg) (create Sample.cfg 0) (finishedRun.take 3))
        (.finish 1 2 "worker" report, clockAt 4)).jobs, r.id = 1 ∧ r.revision = 4 := by decide +kernel
  obtain ⟨⟨r, hr, hphase, hid, hrevision⟩, hrunning, hbefore, hseq, r', hr', hid', hrevision'⟩ := hsteps
  have hguard : Machine.Guarded (step Sample.cfg) (EndsByFinish 1) (create Sample.cfg 0) (finishedRun.take 2 ++ finishedRun.drop 2) := by
    refine Machine.guarded_append.2 ⟨⟨fun _ _ _ => ⟨nofun, nofun, nofun⟩, fun _ _ _ => ⟨nofun, nofun, nofun⟩, trivial⟩,
      fun r hr _ => ⟨nofun, nofun, ?_⟩, fun _ _ _ => ⟨nofun, nofun, nofun⟩, trivial⟩
    rintro ⟨-, -, -, -, hterminal⟩
    rw [hrunning r hr] at hterminal
    cases hterminal
  obtain ⟨hready, hevent⟩ := terminal_condition_and_event Sample.cfg _ 1 hguard r hr hid (by rw [hphase]; rfl)
  obtain ⟨seq, hle, hends⟩ := hevent (finishedRun.take 3) (.finish 1 2 "worker" report, clockAt 4) [] rfl
    ⟨r', hr', hid'.trans hid.symm, hrevision'.trans hrevision.symm⟩ fun r₀ hr₀ _ => by rw [hbefore r₀ hr₀, hrevision]; decide
  exact ⟨r, hr, hphase, hready, seq, hseq ▸ hle, hends⟩

open Sample in
/-- The sample job is cancelled while it waits: it is terminal, and its conditions do not say so. -/
theorem queued_cancel_not_ready :
    ¬∀ (cfg : StoreConfig) (inputs : List (StoreCall × Reading)), ∀ r ∈ (Machine.run (step cfg) (create cfg 0) inputs).jobs,
      r.phase.terminal = true → ReadyAs r := by
  intro h
  have hrow : ∃ r ∈ (Machine.run (step Sample.cfg) (create Sample.cfg 0)
      [(.submit "tenant" "key" spec, clockAt 1), (.requestCancel 1 none, clockAt 2)]).jobs,
        r.phase.terminal = true ∧ r.conditionsJson.filter (fun c => c.type = .ready) = [] := by decide +kernel
  obtain ⟨r, hr, hterminal, hnone⟩ := hrow
  obtain ⟨c, hone, -⟩ := h Sample.cfg _ r hr hterminal
  rw [hnone] at hone
  cases hone

end Store

end SharkRail
