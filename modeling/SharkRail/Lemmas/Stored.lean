import SharkRail.Lemmas.Committed
import SharkRail.Lemmas.Runs

/-!
# The output that is there

An execution publishes the output of its job before it finishes the job with the paths. As long as it discards no output that a row
refers to, the files of every row that has paths are there, with the bytes that `write_job` was called with: no other execution, no
pruning and no reconciliation touches them, wherever a crash falls.
-/

namespace SharkRail

/-- The output of the job is not written yet. -/
def Pc.unwritten : Pc → Bool
  | .writing _ => true
  | pc => !pc.past

/-- The next call of the execution is on the output of its job. -/
def Execution.rewrites (e : Execution) : Bool :=
  match e.pc, e.outputPaths with
  | .writing _, _ | .discarding _, some _ => true
  | _, _ => false

/-- The next call of the execution discards the output of its job. -/
def Execution.discards (e : Execution) : Bool :=
  match e.pc, e.outputPaths with
  | .discarding _, some _ => true
  | _, _ => false

namespace Service

variable {cfg : ServiceConfig} {s s' : Service} {e e' : Execution} {input : ServiceInput} {jobId : Uuid} {clock : Reading}
  {fault : Fault}

/-! ## The steps that change the output of a job -/

/-- A step that may change the output of a job. -/
inductive Rewrites (cfg : ServiceConfig) (s : Service) (jobId : Uuid) : ServiceInput → Prop where
  | executed (e : Execution) (clock : Reading) (fault : Fault) (he : e ∈ s.executions) (hjob : e.job.id = jobId)
      (hpc : e.rewrites = true) : Rewrites cfg s jobId (.execute e.attempt clock fault)
  | tornExecution (e : Execution) (done cleaned : Nat) (he : e ∈ s.executions) (hjob : e.job.id = jobId)
      (hpc : e.rewrites = true) : Rewrites cfg s jobId (.crash (.execution e.attempt done cleaned))
  | pruned (index : Nat) (fault : Fault) (pruner : Pruner) (row : DeletionRow) (hpruner : pruner ∈ s.pruners)
      (hrow : row ∈ pruner.rows) (hjob : row.jobId = jobId) : Rewrites cfg s jobId (.prune index fault)
  | tornPruner (index done : Nat) (pruner : Pruner) (row : DeletionRow) (hpruner : pruner ∈ s.pruners) (hrow : row ∈ pruner.rows)
      (hjob : row.jobId = jobId) : Rewrites cfg s jobId (.crash (.pruner index done))
  | opened (workerId : String) (torn : Option Nat) (hdown : s.up = false)
      (hleftover : cfg.store.volatile = true ∨ jobId ∉ (s.store.reopen cfg.store).referencedOutputJobIds) :
      Rewrites cfg s jobId (.open workerId torn)

/-- A call of an execution leaves the output of a job, if it is not on it. -/
theorem Advances.output (h : Advances cfg clock fault e s e' s') (hjob : e.job.id = jobId → e.rewrites = false) :
    s'.output.dirs.lookup (.job jobId) = s.output.dirs.lookup (.job jobId) := by
  have hother : e.rewrites = true → jobId ≠ e.job.id := fun h heq => by simp [hjob heq.symm] at h
  cases h with
  | wrote result _ _ hpc | unwritten result _ hpc =>
    exact Output.lookup_writeJob (hother (by simp [Execution.rewrites, hpc]))
  | discarded x stdoutPath stderrPath _ hpc hpaths =>
    exact Output.lookup_deleteJob (hother (by simp [Execution.rewrites, hpc, hpaths])) _ _
  | _ => rfl

/-- A step leaves the output of a job, unless it is on it. -/
theorem output_step (hs : Sound s) (hnot : ¬Rewrites cfg s jobId input) :
    (step cfg s input).output.dirs.lookup (.job jobId) = s.output.dirs.lookup (.job jobId) := by
  have hstep := hs.serviceStep cfg input
  generalize step cfg s input = s' at hstep
  cases hstep with
  | skipped | called | claimed | calledBack | monitored | requested | unrequested | sent | dropped | closed | snapshot | finalizing
  | started => rfl
  | advanced e e' s₁ clock fault he hadvances =>
    refine hadvances.output fun hjob => ?_
    by_contra hrewrites
    exact hnot (.executed e clock fault he hjob (by simpa using hrewrites))
  | pruned index fault pruner hpruner =>
    unfold pruneStep
    split
    · rfl
    · rename_i row rows hrows
      have hne : jobId ≠ row.jobId := fun hjob =>
        hnot (.pruned index fault pruner row (List.mem_of_getElem? hpruner) (by simp [hrows]) hjob.symm)
      split
      · rfl
      · dsimp only
        split <;> exact Output.lookup_deleteJob hne _ _
  | crashed tear =>
    change (s.tornOutput cfg tear).dirs.lookup (.job jobId) = _
    unfold tornOutput
    cases tear with
    | none => rfl
    | execution attempt done cleaned =>
      dsimp only
      split
      · rfl
      · rename_i e hfound
        obtain ⟨he, rfl⟩ := mem_of_find? hfound
        have hne : e.rewrites = true → jobId ≠ e.job.id := fun hpc hjob => hnot (.tornExecution e done cleaned he hjob.symm hpc)
        split
        · rename_i result paths hpc
          exact Output.lookup_tornWrite (hne (by simp [Execution.rewrites, hpc])) done cleaned
        · rename_i x stdoutPath stderrPath hpc hpaths
          exact Output.lookup_deleteJob (hne (by simp [Execution.rewrites, hpc, hpaths])) _ _
        · rfl
    | pruner index done =>
      dsimp only
      split
      · rename_i row rows hpruner
        have hne : jobId ≠ row.jobId := fun hjob =>
          hnot (.tornPruner index done _ row (List.mem_of_getElem? hpruner) List.mem_cons_self hjob.symm)
        exact Output.lookup_deleteJob hne _ _
      · rfl
  | opened workerId torn hdown =>
    have hopened : cfg.store.volatile = false ∧ jobId ∈ (s.store.reopen cfg.store).referencedOutputJobIds := by
      by_contra hleftover
      rw [not_and_or, Bool.not_eq_false] at hleftover
      exact hnot (.opened workerId torn hdown hleftover)
    have hkept : Output.leftover (s.store.reopen cfg.store).referencedOutputJobIds (.job jobId) = false := by
      simpa [Output.leftover] using hopened.2
    have hdirs : (openOutput cfg s.output).dirs = s.output.dirs := by simp [openOutput, hopened.1]
    unfold openStores
    cases torn with
    | none =>
      change ((openOutput cfg s.output).reconcile _).2.dirs.lookup (.job jobId) = _
      rw [Output.lookup_reconcile, hkept, hdirs]
      rfl
    | some done =>
      change ((openOutput cfg s.output).tornReconcile _ done).dirs.lookup (.job jobId) = _
      rw [Output.lookup_tornReconcile hkept, hdirs]

/-! ## The output of a job -/

/-- The output of a job is published: both files are there, with the bytes that `write_job` was called with. -/
def Published (s : Service) (jobId : Uuid) : Prop :=
  ∃ stdout stderr, (jobId, stdout, stderr) ∈ s.written ∧ Output.Holds s.output.dirs jobId stdout stderr

/-- `write_job` was called for a job. -/
def Written (s : Service) (jobId : Uuid) : Prop := jobId ∈ s.written.map fun w => w.1

/-- The calls of `write_job` after a step: those before it, and the one of an execution that writes its output. -/
theorem written_step (cfg : ServiceConfig) (hs : Sound s) (input : ServiceInput) :
    (step cfg s input).written = s.written ∨
      ∃ e ∈ s.executions, ∃ result clock fault, e.pc = .writing result ∧ input = .execute e.attempt clock fault ∧
        (step cfg s input).written = s.written ++ [(e.job.id, result.stdoutBytes, result.stderrBytes)] := by
  have hstep := hs.serviceStep cfg input
  generalize step cfg s input = s' at hstep
  cases hstep with
  | advanced e e' s₁ clock fault he hadvances =>
    cases hadvances with
    | wrote result _ _ hpc | unwritten result _ hpc => exact Or.inr ⟨e, he, result, clock, fault, hpc, rfl, rfl⟩
    | _ => exact Or.inl rfl
  | pruned index fault pruner =>
    obtain ⟨store, output, h⟩ := pruneStep_touches cfg fault pruner s
    rw [h]
    exact Or.inl rfl
  | opened workerId torn =>
    unfold openStores
    cases torn <;> exact Or.inl rfl
  | _ => exact Or.inl rfl

theorem Published.step (hs : Sound s) (h : Published s jobId) (hnot : ¬Rewrites cfg s jobId input) :
    Published (Service.step cfg s input) jobId := by
  obtain ⟨stdout, stderr, hwritten, hholds⟩ := h
  refine ⟨stdout, stderr, ?_, hholds.congr (output_step hs hnot)⟩
  rcases written_step cfg hs input with h | ⟨_, -, _, _, _, -, -, h⟩ <;> rw [h]
  · exact hwritten
  · exact List.mem_append_left _ hwritten

/-! ## The output of an execution -/

/-- What an execution has done about the output of its job, by where it stands. -/
structure Stage (cfg : ServiceConfig) (s : Service) (e : Execution) : Prop where
  unwritten : e.pc.unwritten = true →
    e.outputPaths = none ∧ Store.RowsOf e.job.id (fun r => r.hasOutput = false) s.store ∧ ¬Written s e.job.id
  result : ∀ report n, e.pc = .settling .result report n →
    e.outputPaths = some (jobPaths cfg.output e.job.id) ∧ report.stdoutPath = some (jobPaths cfg.output e.job.id).1 ∧
      report.stderrPath = some (jobPaths cfg.output e.job.id).2 ∧ (Store.Gone e.job.id s.store ∨ Published s e.job.id)
  report : ∀ settling report n, e.pc = .settling settling report n → settling ≠ .result → report.hasOutput = false
  disposing : e.pc = .disposing → e.outputPaths = none

/-- The executor discards no output that a row refers to. -/
def DiscardsUncommitted (s : Service) : ServiceInput → Prop
  | .execute attempt _ _ | .crash (.execution attempt _ _) =>
    ∀ e ∈ s.executions, e.attempt = attempt → e.discards = true → ∀ row ∈ s.store.jobs, row.id = e.job.id → row.hasOutput = false
  | _ => True

/-- What holds of the output as long as the executor discards none that a row refers to. -/
structure Stored (cfg : ServiceConfig) (s : Service) : Prop where
  documented : s.store.Documented cfg.output
  published : ∀ row ∈ s.store.jobs, row.hasOutput = true → Published s row.id
  executions : ∀ e ∈ s.executions, Stage cfg s e
  pruners : ∀ pruner ∈ s.pruners, ∀ row ∈ pruner.rows, row.Committed cfg.output ∧ Store.Gone row.jobId s.store
  written : (s.written.map fun w => w.1).Nodup
  claimed : ∀ jobId, Written s jobId → Store.RowsOf jobId (fun r => r.phase ≠ .queued) s.store
  down : s.up = false → s.executions = [] ∧ s.pruners = [] ∧ s.started = false

/-! ## Where an execution goes on -/

theorem leave_pc (e : Execution) : e.leave.pc = .popping ∨ e.leave.pc = .shuttingDown := by
  unfold Execution.leave
  dsimp only
  split
  · exact Or.inl rfl
  · exact Or.inr rfl

theorem handle_pc (e : Execution) (x : Exc) :
    (e.handle x).pc = .readIntent ∨ ∃ report : Store.Report, report.hasOutput = false ∧ (e.handle x).pc = .settling .handler report 0 := by
  cases x with
  | cancelledError => exact Or.inl rfl
  | error osError type message => exact Or.inr ⟨failureReport type message, rfl, rfl⟩

theorem proceed_settling_pc {settling : Settling} {report : Store.Report} {n : Nat} (h : e.pc = .settling settling report n) :
    ((e.proceed .unit).pc = .disposing ∧ (e.proceed .unit).outputPaths = none) ∨
      (e.proceed .unit).pc = .popping ∨ (e.proceed .unit).pc = .shuttingDown := by
  cases settling with
  | result =>
    left
    simp [Execution.proceed, h]
  | early | handler =>
    right
    simp only [Execution.proceed, h]
    exact leave_pc _

theorem fail_settling_pc {settling : Settling} {report : Store.Report} {n : Nat} (h : e.pc = .settling settling report n) (x : Exc) :
    (e.fail x).outputPaths = e.outputPaths ∧
      ((e.fail x).pc = .settling settling report (n + 1) ∨ (e.fail x).pc = .discarding x ∨
        (e.fail x).pc = .popping ∨ (e.fail x).pc = .shuttingDown) := by
  cases settling with
  | early =>
    simp only [Execution.fail, h]
    exact ⟨rfl, Or.inr (Or.inl rfl)⟩
  | result =>
    simp only [Execution.fail, h]
    split
    · exact ⟨rfl, Or.inl rfl⟩
    · exact ⟨rfl, Or.inr (Or.inl rfl)⟩
  | handler =>
    simp only [Execution.fail, h]
    split
    · exact ⟨rfl, Or.inl rfl⟩
    · exact ⟨rfl, Or.inr (Or.inr (leave_pc e))⟩

/-- How an execution goes on, as far as output is concerned. -/
inductive Continues (cfg : ServiceConfig) (fault : Fault) (e : Execution) (s : Service) (e' : Execution) (s' : Service) : Prop where
  | unwritten (hpc : e.pc.unwritten = true) (hwriting : ∀ result, e.pc ≠ .writing result) (hpc' : e'.pc.unwritten = true)
      (hpaths : e'.outputPaths = e.outputPaths)
  | wrote (result : CommandResult) (paths : String × String) (hpc : e.pc = .writing result)
      (hpc' : e'.pc = .settling .result (resultReport result paths.1 paths.2) 0) (hpaths : e'.outputPaths = some paths)
      (hwrite : (s.output.writeJob cfg.output fault e.job.id result.stdoutBytes result.stderrBytes).1 = .ok paths)
      (hs' : s' = { s with
        output := (s.output.writeJob cfg.output fault e.job.id result.stdoutBytes result.stderrBytes).2
        written := s.written ++ [(e.job.id, result.stdoutBytes, result.stderrBytes)] })
  | retries (settling : Settling) (report : Store.Report) (n : Nat) (hpc : e.pc = .settling settling report n)
      (hpc' : e'.pc = .settling settling report (n + 1)) (hpaths : e'.outputPaths = e.outputPaths)
  | reports (settling : Settling) (report : Store.Report) (hne : settling ≠ .result) (hreport : report.hasOutput = false)
      (hpc' : e'.pc = .settling settling report 0)
  | disposes (hpc' : e'.pc = .disposing) (hpaths : e'.outputPaths = none)
  | discards (x : Exc) (hpc' : e'.pc = .discarding x)
  | leaves (hpc' : e'.pc = .readIntent ∨ e'.pc = .popping ∨ e'.pc = .shuttingDown ∨ e'.pc = .executionDone ∨ e'.pc = .done)

theorem continues_leave : Continues cfg fault e s e.leave s' := .leaves (Or.inr ((leave_pc e).imp_right Or.inl))

theorem continues_handle (x : Exc) : Continues cfg fault e s (e.handle x) s' := by
  rcases handle_pc e x with h | ⟨report, hreport, h⟩
  · exact .leaves (Or.inl h)
  · exact .reports .handler report nofun hreport h

theorem continues_fail {settling : Settling} {report : Store.Report} {n : Nat} (h : e.pc = .settling settling report n) (x : Exc) :
    Continues cfg fault e s (e.fail x) s' := by
  obtain ⟨hpaths, h' | h' | h'⟩ := fail_settling_pc h x
  · exact .retries settling report n h h' hpaths
  · exact .discards x h'
  · exact .leaves (Or.inr (h'.imp_right Or.inl))

/-- An execution goes on in one of these ways. -/
theorem Advances.continues (h : Advances cfg clock fault e s e' s') : Continues cfg fault e s e' s' := by
  cases h with
  | unstopped hpc | unasked hpc | created hpc | registered hpc | stopRead hpc | started hpc | published hpc | rechecked _ hpc
  | marked _ hpc | signalled _ hpc | unsignalled hpc | cancelled _ _ _ hpc | waited _ _ hpc =>
    refine .unwritten ?_ ?_ rfl rfl <;> rw [hpc]
    · rfl
    · exact nofun
  | wrote result stdoutPath stderrPath hpc hwrite => exact .wrote result (stdoutPath, stderrPath) hpc rfl rfl hwrite rfl
  | stopped => exact .reports .early shutdownBeforeStart nofun rfl rfl
  | asked => exact .reports .early cancelledBeforeStart nofun rfl rfl
  | intentRead job => exact .reports .handler (interruptedReport job.isCancelled) nofun rfl rfl
  | settled settling report n job hpc =>
    rcases proceed_settling_pc hpc with ⟨h, hpaths⟩ | h
    · exact .disposes h hpaths
    · exact .leaves (Or.inr (h.imp_right Or.inl))
  | failed _ _ _ x hpc | unsettled _ _ _ x hpc | unheard _ _ _ x hpc => exact continues_fail hpc _
  | disposed | intentUnread => exact continues_leave
  | nothingToDiscard x => exact continues_handle x
  | discarded x _ _ _ _ _ he' =>
    rcases he' with rfl | rfl
    · exact continues_handle x
    · exact continues_leave
  | raised x | unregistered x | unmarked _ x | unwritten _ x => exact .discards x rfl
  | popped => exact .leaves (by simp)
  | shutDown => exact .leaves (by simp)
  | ended => exact .leaves (by simp)

end Service

end SharkRail
