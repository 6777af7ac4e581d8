import SharkRail.Lemmas.Service

/-!
# Starts

A claim takes a row out of `queued`, and no operation puts one back: not the recoveries, which end an attempt for good, and not a
second submission with the key, which finds the row. So `claim_next` returns a job once, the job has one execution, and the
execution calls `SessionManager.start` once (`started_at_most_once`), however often the service crashes and is opened again.
-/

namespace SharkRail

/-- An execution that has still to call `SessionManager.start`, if it comes to it. -/
def Pc.beforeStart : Pc → Bool
  | .checkStop | .checkStore | .createTask => true
  | _ => false

namespace Service

variable {cfg : ServiceConfig} {s : Service} {e e' : Execution} {input : ServiceInput} {jobId : Uuid}

/-- The jobs that `claim_next` returns in a step. -/
def claims (cfg : ServiceConfig) (s : Service) : ServiceInput → List Uuid
  | .claim leaseSeconds clock =>
    if s.started then
      match (s.store.claimNext cfg.store clock s.workerId leaseSeconds).1 with
      | .ok (some job) => [job.id]
      | _ => []
    else []
  | _ => []

/-- The jobs for which a step calls `SessionManager.start`. -/
def starts (s : Service) : ServiceInput → List Uuid
  | .execute attempt _ _ =>
    match s.executions.find? fun e => e.attempt = attempt with
    | some e => if e.pc = .createTask then [e.job.id] else []
    | none => []
  | _ => []

/-- A job that was claimed, or that ended before: it is not queued, and no row with its id ever is again. -/
def Claimed (jobId : Uuid) (s : Service) : Prop := Store.RowsOf jobId (fun r => r.phase ≠ .queued) s.store

/-- A job whose session was started, or never is: it was claimed, and its execution is past the start. -/
def Begun (jobId : Uuid) (s : Service) : Prop :=
  Claimed jobId s ∧ ∀ e ∈ s.executions, e.job.id = jobId → e.pc.beforeStart = false

/-! ## Claims -/

theorem mem_claims (h : jobId ∈ claims cfg s input) :
    ∃ leaseSeconds clock job, input = .claim leaseSeconds clock ∧ s.started = true ∧ jobId = job.id ∧
      (s.store.claimNext cfg.store clock s.workerId leaseSeconds).1 = .ok (some job) := by
  unfold claims at h
  split at h
  · rename_i leaseSeconds clock
    split at h
    · rename_i hstarted
      split at h
      · rename_i job hclaim
        exact ⟨leaseSeconds, clock, job, rfl, hstarted, List.mem_singleton.1 h, hclaim⟩
      · cases h
    · cases h
  · cases h

/-- The job a claim returns is of a queued row, and has an execution from then on. -/
theorem claimed_row (hs : Sound s) (h : jobId ∈ claims cfg s input) :
    (∃ row ∈ s.store.jobs, row.id = jobId ∧ row.phase = .queued) ∧
      ∃ e ∈ (step cfg s input).executions, e.job.id = jobId := by
  obtain ⟨leaseSeconds, clock, job, rfl, hstarted, rfl, hclaim⟩ := mem_claims h
  have hstep : step cfg s (.claim leaseSeconds clock) = s.claim cfg leaseSeconds clock := by simp [step, hstarted]
  rcases Store.claimNext_cases cfg.store clock hs.wellFormed s.workerId leaseSeconds with
    ⟨x, hx⟩ | hx | ⟨row, hrow, job', store, hphase, hx, hjob, -⟩
  · simp [hx] at hclaim
  · simp [hx] at hclaim
  · rw [hx] at hclaim
    cases hclaim
    have hattempt : job.attemptId = some s.store.drawn := (congrArg JobRow.attemptId hjob).trans rfl
    have hid : row.id = job.id := ((congrArg JobRow.id hjob).trans rfl).symm
    refine ⟨⟨row, hrow, hid, hphase⟩, { job, attempt := s.store.drawn }, ?_, rfl⟩
    rw [hstep]
    simp only [claim, hx, hattempt]
    exact List.mem_append_right _ (List.mem_singleton_self _)

theorem Claimed.step (hs : Sound s) (h : Claimed jobId s) (input : ServiceInput) : Claimed jobId (step cfg s input) :=
  store_induct cfg s input h fun _ _ _ => rowsOf_not_queued cfg hs.wellFormed h

theorem Claimed.run (hs : Sound s) (h : Claimed jobId s) (inputs : List ServiceInput) :
    Claimed jobId (Machine.run (Service.step cfg) s inputs) := by
  have hstep : ∀ s input, Sound s ∧ Claimed jobId s → Sound (Service.step cfg s input) ∧ Claimed jobId (Service.step cfg s input) :=
    fun _ input hs => ⟨hs.1.step input, hs.2.step hs.1 input⟩
  exact (Machine.run_induct hstep ⟨hs, h⟩ inputs).2

/-- A claim returns a job that was not claimed before. -/
theorem unclaimed_of_claims (hs : Sound s) (h : jobId ∈ claims cfg s input) : ¬Claimed jobId s := by
  obtain ⟨⟨row, hrow, hid, hphase⟩, -⟩ := claimed_row hs h
  exact fun hclaimed => hclaimed.2 row hrow hid hphase

theorem claimed_of_claims (hs : Sound s) (h : jobId ∈ claims cfg s input) : Claimed jobId (Service.step cfg s input) := by
  obtain ⟨-, e, he, rfl⟩ := claimed_row hs h
  exact (hs.step input).claimed e he

/-! ## Starts -/

/-- An execution never goes back to its start. -/
theorem resume_beforeStart (h : e.pc.beforeStart = false) (reply : Except Exc Reply) :
    (e.resume reply).pc.beforeStart = false := by
  have hraised : ∀ (e : Execution) x, (e.raised x).pc.beforeStart = false := fun _ _ => rfl
  have hleave : ∀ e : Execution, e.leave.pc.beforeStart = false := fun e => by
    unfold Execution.leave
    dsimp only
    split <;> rfl
  have hhandle : ∀ (e : Execution) x, (e.handle x).pc.beforeStart = false := fun e x => by cases x <;> rfl
  cases reply with
  | ok reply =>
    unfold Execution.resume Execution.proceed
    dsimp only
    split
    all_goals first | exact hraised _ _ | exact hleave _ | exact hhandle _ _ | simp_all [Pc.beforeStart]
  | error x =>
    unfold Execution.resume Execution.fail
    dsimp only
    split
    · exact hraised e x
    · split
      · rfl
      · exact hraised e x
    · split
      · rfl
      · exact hleave e
    · split
      · exact hhandle e _
      · exact hleave e
    all_goals first | rfl | exact hleave e

theorem callback_pc (e : Execution) (c : Callback) : (e.callback c).pc = e.pc := by
  cases c with
  | cancelStart origin =>
    unfold Execution.callback
    dsimp only
    split <;> rfl
  | cancelSession origin =>
    unfold Execution.callback
    dsimp only
    split
    · split <;> rfl
    · rfl

theorem Moved.beforeStart (h : Moved cfg s input e e') (hpc : e.pc.beforeStart = false) : e'.pc.beforeStart = false := by
  cases h with
  | kept => exact hpc
  | executed e clock fault reply s' _ _ => exact resume_beforeStart hpc reply
  | called e c rest => rw [callback_pc]; exact hpc
  | monitored => exact hpc
  | sent => exact hpc

theorem mem_starts (h : jobId ∈ starts s input) :
    ∃ e ∈ s.executions, ∃ clock fault, input = .execute e.attempt clock fault ∧ e.pc = .createTask ∧ jobId = e.job.id := by
  unfold starts at h
  split at h
  · rename_i attempt clock fault
    split at h
    · rename_i e hfound
      split at h
      · rename_i hpc
        obtain ⟨he, rfl⟩ := mem_of_find? hfound
        exact ⟨e, he, clock, fault, rfl, hpc, List.mem_singleton.1 h⟩
      · cases h
    · cases h
  · cases h

/-- A start is of a job that was claimed. -/
theorem claimed_of_starts (hs : Sound s) (h : jobId ∈ starts s input) : Claimed jobId s := by
  obtain ⟨e, he, _, _, -, -, rfl⟩ := mem_starts h
  exact hs.claimed e he

theorem Begun.step (hs : Sound s) (h : Begun jobId s) (input : ServiceInput) : Begun jobId (step cfg s input) := by
  refine ⟨h.1.step hs input, fun e' he' hid => ?_⟩
  cases hs.executes cfg input with
  | moved f hmoved hexecutions =>
    rw [hexecutions, List.mem_map] at he'
    obtain ⟨e, he, rfl⟩ := he'
    exact (hmoved e he).beforeStart (h.2 e he ((hmoved e he).sameRun.job ▸ hid))
  | crashed _ _ hexecutions =>
    rw [hexecutions] at he'
    cases he'
  | claimed leaseSeconds clock row job _ _ hrow hphase hrowId _ _ _ hexecutions =>
    rw [hexecutions, List.mem_append, List.mem_singleton] at he'
    rcases he' with he' | rfl
    · exact h.2 e' he' hid
    · exact absurd hphase (h.1.2 row hrow (hrowId.symm.trans hid))

/-- The session of a job is started when its execution has come to it. -/
theorem begun_of_starts (hs : Sound s) (h : jobId ∈ starts s input) : Begun jobId (Service.step cfg s input) := by
  refine ⟨(claimed_of_starts hs h).step hs input, ?_⟩
  obtain ⟨e, he, clock, fault, rfl, hpc, rfl⟩ := mem_starts h
  intro e' he' hid
  have hperform : s.perform cfg clock fault e = some (faulted fault s (.ok .unit, s)) := by simp [perform, hpc]
  have hstep : (Service.step cfg s (.execute e.attempt clock fault)).executions =
      (s.update e.attempt fun x => x.resume (faulted fault s (.ok .unit, s)).1).executions := by
    have hsame : (faulted fault s (.ok .unit, s)).2 = s := by cases fault <;> rfl
    simp only [Service.step, hs.find? he, execute, hperform, hsame]
  rw [hstep, mem_update] at he'
  obtain ⟨x, hx, rfl⟩ := he'
  have hsame : x = e := by
    refine Table.eq_of_key (fun e : Execution => e.job.id) hs.jobs hx he ?_
    split at hid
    · exact (Execution.sameRun_resume x _).job ▸ hid
    · exact hid
  subst hsame
  rw [if_pos rfl]
  cases fault <;> simp [faulted, Execution.resume, Execution.proceed, Execution.fail, hpc, Execution.raised, Pc.beforeStart]

/-! ## At most once -/

/-- No operation of the store puts a job back to `queued`. -/
theorem not_queued_again {store : Store} (hs : store.WellFormed) (call : StoreCall) (clock : Reading) {row row' : JobRow}
    (hrow : row ∈ store.jobs) (hrow' : row' ∈ (store.step cfg.store (call, clock)).jobs) (hid : row'.id = row.id)
    (hphase : row.phase ≠ .queued) : row'.phase ≠ .queued := by
  have hrows : Store.RowsOf row.id (fun r => r.phase ≠ .queued) store := by
    refine ⟨hs.jobDrawn row hrow, fun r hr hrid => ?_⟩
    rw [Table.eq_of_key JobRow.id hs.jobIds hr hrow hrid]
    exact hphase
  exact (rowsOf_not_queued cfg hs hrows).2 row' hrow' hid

/-- The jobs of the executions were returned by the claims so far. -/
theorem mem_claims_of_execution (cfg : ServiceConfig) (inputs : List ServiceInput) :
    ∀ e ∈ (Machine.run (step cfg) (create cfg) inputs).executions,
      e.job.id ∈ Machine.outputs (step cfg) (claims cfg) (create cfg) inputs := by
  have hstep : ∀ s input log, (Sound s ∧ ∀ e ∈ s.executions, e.job.id ∈ log) →
      Sound (step cfg s input) ∧ ∀ e ∈ (step cfg s input).executions, e.job.id ∈ log ++ claims cfg s input := by
    rintro s input log ⟨hs, hlog⟩
    refine ⟨hs.step input, fun e' he' => List.mem_append.2 ?_⟩
    rcases hs.execution_from he' with ⟨e, he, hmoved⟩ | ⟨leaseSeconds, clock, job, rfl, hstarted, hclaim, rfl⟩
    · exact Or.inl (hmoved.sameRun.job ▸ hlog e he)
    · exact Or.inr (by simp [claims, hstarted, hclaim])
  have hcreate : Sound (create cfg) ∧ ∀ e ∈ (create cfg).executions, e.job.id ∈ ([] : List Uuid) :=
    ⟨sound_create cfg, by simp [create]⟩
  simpa using (Machine.run_outputs_induct hstep hcreate inputs).2

/-- In every run of the service, over all its crashes and restarts, `claim_next` returns a job at most once and
`SessionManager.start` is called at most once for it, after it was claimed. A job that left `queued` is never queued again, neither
by the service nor by any other operation of its store. -/
theorem started_at_most_once (cfg : ServiceConfig) (inputs : List ServiceInput) :
    (Machine.outputs (step cfg) (claims cfg) (create cfg) inputs).Nodup ∧
      (Machine.outputs (step cfg) starts (create cfg) inputs).Nodup ∧
      (∀ input, ∀ jobId ∈ starts (Machine.run (step cfg) (create cfg) inputs) input,
        jobId ∈ Machine.outputs (step cfg) (claims cfg) (create cfg) inputs) ∧
      (∀ later, ∀ row ∈ (Machine.run (step cfg) (create cfg) inputs).store.jobs,
        ∀ row' ∈ (Machine.run (step cfg) (create cfg) (inputs ++ later)).store.jobs,
          row'.id = row.id → row.phase ≠ .queued → row'.phase ≠ .queued) ∧
      ∀ call clock, ∀ row ∈ (Machine.run (step cfg) (create cfg) inputs).store.jobs,
        ∀ row' ∈ ((Machine.run (step cfg) (create cfg) inputs).store.step cfg.store (call, clock)).jobs,
          row'.id = row.id → row.phase ≠ .queued → row'.phase ≠ .queued := by
  have hsound : Sound (Machine.run (step cfg) (create cfg) inputs) := Reachable.sound ⟨inputs, rfl⟩
  refine ⟨?_, ?_, ?_, ?_, ?_⟩
  · refine (Machine.nodup_outputs (P := Sound) (fun s jobId => Claimed jobId s) (fun _ input hs => hs.step input)
      ?_ (fun _ _ _ hs h => unclaimed_of_claims hs h) (fun _ _ _ hs h => claimed_of_claims hs h)
      (fun _ input _ hs h => h.step hs input) (sound_create cfg) inputs).1
    intro s input _
    unfold claims
    split
    · split
      · split <;> simp
      · exact List.nodup_nil
    · exact List.nodup_nil
  · refine (Machine.nodup_outputs (P := Sound) (fun s jobId => Begun jobId s) (fun _ input hs => hs.step input)
      ?_ ?_ (fun _ _ _ hs h => begun_of_starts hs h) (fun _ input _ hs h => h.step hs input) (sound_create cfg) inputs).1
    · intro s input _
      unfold starts
      split
      · split
        · split <;> simp
        · exact List.nodup_nil
      · exact List.nodup_nil
    · intro s input jobId _ h hbegun
      obtain ⟨e, he, _, _, -, hpc, rfl⟩ := mem_starts h
      have hpast := hbegun.2 e he rfl
      rw [hpc] at hpast
      cases hpast
  · intro input jobId h
    obtain ⟨e, he, _, _, -, -, rfl⟩ := mem_starts h
    exact mem_claims_of_execution cfg inputs e he
  · intro later row hrow row' hrow' hid hphase
    have hclaimed : Claimed row.id (Machine.run (step cfg) (create cfg) inputs) := by
      refine ⟨hsound.wellFormed.jobDrawn row hrow, fun r hr hrid => ?_⟩
      rw [Table.eq_of_key JobRow.id hsound.wellFormed.jobIds hr hrow hrid]
      exact hphase
    rw [Machine.run_append] at hrow'
    exact (hclaimed.run hsound later).2 row' hrow' hid
  · intro call clock row hrow row' hrow' hid hphase
    exact not_queued_again hsound.wellFormed call clock hrow hrow' hid hphase

end Service

end SharkRail
