import SharkRail.Lemmas.StoredRuns
import SharkRail.Theorems.Expiry
import SharkRail.Theorems.Tenants

/-!
# Committed output

The executor writes the output of a job, finishes the job with the paths, and discards the output when that fails. A `finish` that
raises after its transaction was committed is called again, and finds the job finished; only when the last call raises too does the
executor take committed output for uncommitted. As long as no execution gives up in this way, the output that a row refers to is there,
wherever the process crashes; an execution that does give up loses it.
-/

namespace SharkRail

namespace Sample

/-- A job is executed to its end, and its output is written; the store refuses the result three times. -/
def unsettled (data : Bytes) : List ServiceInput :=
  opened [.store (.submit "tenant" "old" plainSpec) (clockAt 1), .claim 30 (clockAt 2)] ++ calls 10 ++
    [.monitor 2 .exited, .monitor 2 (.completed (some 0) data [] false none)] ++ calls 2 ++
    List.replicate 3 (.execute 2 (clockAt 3) (.before (.error false "OperationalError" "database is locked")))

end Sample

namespace Service

variable {cfg : ServiceConfig} {s s' : Service} {e e' : Execution} {input : ServiceInput} {jobId : Uuid} {clock : Reading}
  {fault : Fault}

/-- The last `finish` of a result raises, though the row of the job refers to its output. -/
def givesUp (cfg : ServiceConfig) (s : Service) (input : ServiceInput) : Bool :=
  match input with
  | .execute attempt clock fault => s.executions.any fun e =>
    e.attempt = attempt &&
      match e.pc, s.perform cfg clock fault e with
      | .settling .result _ n, some (.error x, s') =>
        !(Execution.caught x && n < 2) && s'.store.jobs.any fun row => row.id = e.job.id && row.hasOutput
      | _, _ => false
  | _ => false

/-- What an execution that is to discard output knows: no row refers to it. -/
structure Discarding (s : Service) : Prop where
  early : ∀ e ∈ s.executions, ∀ report n, e.pc = .settling .early report n → e.outputPaths = none
  discards : ∀ e ∈ s.executions, e.discards = true → Store.RowsOf e.job.id (fun r => r.hasOutput = false) s.store

theorem Discarding.uncommitted (h : Discarding s) (input : ServiceInput) : DiscardsUncommitted s input := by
  unfold DiscardsUncommitted
  split
  · intro e he _ hdiscards
    exact (h.discards e he hdiscards).2
  · intro e he _ hdiscards
    exact (h.discards e he hdiscards).2
  · trivial

/-- Where nothing gives up, a `finish` of a result that raises for the last time leaves no row that refers to the output. -/
theorem noOutput_of_raised (he : e ∈ s.executions) (hkeeps : givesUp cfg s (.execute e.attempt clock fault) = false)
    {report : Store.Report} {n : Nat} (hpc : e.pc = .settling .result report n) {x : Exc}
    (hperform : s.perform cfg clock fault e = some (.error x, s')) (hraised : (Execution.caught x && decide (n < 2)) = false) :
    ∀ row ∈ s'.store.jobs, row.id = e.job.id → row.hasOutput = false := by
  intro row hrow hid
  by_contra houtput
  have hrows : (s'.store.jobs.any fun row => decide (row.id = e.job.id) && row.hasOutput) = true :=
    List.any_eq_true.2 ⟨row, hrow, by simpa [hid] using houtput⟩
  have hgives : givesUp cfg s (.execute e.attempt clock fault) = true := by
    refine List.any_eq_true.2 ⟨e, he, ?_⟩
    simp only [decide_true, Bool.true_and, hpc, hperform, hraised, Bool.not_false, hrows]
  rw [hgives] at hkeeps
  cases hkeeps

/-- An execution without output has none to discard. -/
theorem discards_of_none (h : e.outputPaths = none) : e.discards = false := by
  unfold Execution.discards
  rw [h]
  split
  · rename_i hpaths
    cases hpaths
  · rfl

theorem discards_leave (e : Execution) : e.leave.discards = false := by
  rcases leave_pc e with h | h <;> simp [Execution.discards, h]

theorem discards_handle (e : Execution) (x : Exc) : (e.handle x).discards = false := by
  rcases handle_pc e x with h | ⟨report, -, h⟩ <;> simp [Execution.discards, h]

/-- An execution comes to discard output from a `finish` of a result. -/
theorem Advances.discards_from (h : Advances cfg clock fault e s e' s') (hstage : Stage cfg s e)
    (hearly : ∀ report n, e.pc = .settling .early report n → e.outputPaths = none) (hdiscards : e'.discards = true) :
    ∃ report n, e.pc = .settling .result report n := by
  have hwritten : ∀ x : Exc, e.outputPaths = none → (e.raised x).discards = false := fun x hnone => discards_of_none hnone
  have hfailed : ∀ {settling report n} (x : Exc), e.pc = .settling settling report n → (e.fail x).discards = true →
      ∃ report n, e.pc = .settling .result report n := by
    intro settling report n x hpc hdiscards
    cases settling with
    | early =>
      simp only [Execution.fail, hpc, hwritten x (hearly report n hpc)] at hdiscards
      cases hdiscards
    | result => exact ⟨report, n, hpc⟩
    | handler =>
      simp only [Execution.fail, hpc] at hdiscards
      split at hdiscards
      · cases hdiscards
      · rw [discards_leave] at hdiscards
        cases hdiscards
  cases h with
  | raised x hpc =>
    have hnone : e.outputPaths = none := by
      cases hcase : e.pc with
      | disposing => exact hstage.disposing hcase
      | settling | writing | discarding | readIntent | popping | shuttingDown | executionDone | done => simp [hcase, Pc.inBody] at hpc
      | _ => exact (hstage.unwritten (by rw [hcase]; rfl)).1
    rw [hwritten x hnone] at hdiscards
    cases hdiscards
  | unregistered x hpc | unmarked _ x hpc | unwritten _ x hpc =>
    rw [hwritten x (hstage.unwritten (by rw [hpc]; rfl)).1] at hdiscards
    cases hdiscards
  | failed _ _ _ x hpc => exact hfailed _ hpc hdiscards
  | unsettled _ _ _ x hpc | unheard _ _ _ x hpc => exact hfailed x hpc hdiscards
  | settled settling report n _ hpc =>
    rcases proceed_settling_pc hpc with ⟨h, -⟩ | h | h <;> simp [Execution.discards, h] at hdiscards
  | disposed | intentUnread =>
    rw [discards_leave] at hdiscards
    cases hdiscards
  | nothingToDiscard x =>
    rw [discards_handle] at hdiscards
    cases hdiscards
  | discarded x _ _ _ _ _ he' =>
    rcases he' with rfl | rfl
    · rw [discards_handle] at hdiscards
      cases hdiscards
    · rw [discards_leave] at hdiscards
      cases hdiscards
  | _ => cases hdiscards

/-- An execution that finishes its job before the start has no output. -/
theorem Advances.early_from (h : Advances cfg clock fault e s e' s') (hstage : Stage cfg s e) {report : Store.Report} {n : Nat}
    (hearly : e'.pc = .settling .early report n) : e'.outputPaths = none := by
  have hleave : e.leave.pc ≠ .settling .early report n := by
    rcases leave_pc e with h | h <;> simp [h]
  have hhandle : ∀ x, (e.handle x).pc ≠ .settling .early report n := by
    intro x
    cases x <;> simp [Execution.handle]
  have hfail : ∀ {settling report' n'} (x : Exc), e.pc = .settling settling report' n' → (e.fail x).pc ≠ .settling .early report n := by
    intro settling report' n' x hpc
    cases settling with
    | early => simp [Execution.fail, hpc, Execution.raised]
    | result =>
      simp only [Execution.fail, hpc]
      split <;> simp [Execution.raised]
    | handler =>
      simp only [Execution.fail, hpc]
      split
      · simp
      · exact hleave
  cases h with
  | stopped hpc => exact (hstage.unwritten (by rw [hpc]; rfl)).1
  | asked _ hpc => exact (hstage.unwritten (by rw [hpc]; rfl)).1
  | settled settling report' n' _ hpc =>
    rcases proceed_settling_pc hpc with ⟨h, -⟩ | h | h <;> simp [h] at hearly
  | failed _ _ _ _ hpc | unsettled _ _ _ _ hpc | unheard _ _ _ _ hpc => exact absurd hearly (hfail _ hpc)
  | disposed | intentUnread => exact absurd hearly hleave
  | nothingToDiscard x => exact absurd hearly (hhandle x)
  | discarded x _ _ _ _ _ he' =>
    rcases he' with rfl | rfl
    · exact absurd hearly (hhandle x)
    · exact absurd hearly hleave
  | _ => cases hearly

/-- An execution that comes to discard output leaves no row that refers to it, unless it gives up. -/
theorem Performs.uncommitted {reply : Except Exc SharkRail.Reply} (h : Stored cfg s) (hd : Discarding s) (he : e ∈ s.executions)
    (hkeeps : givesUp cfg s (.execute e.attempt clock fault) = false) (hcall : Performs cfg clock fault e s reply s')
    (hdiscards : (e.resume reply).discards = true) : ∀ row ∈ s'.store.jobs, row.id = e.job.id → row.hasOutput = false := by
  obtain ⟨report, n, hpc⟩ := hcall.advances.discards_from (h.executions e he) (hd.early e he) hdiscards
  cases hcall with
  | settled settling report' n' reply s' hpc' hfinish =>
    cases hpc.symm.trans hpc'
    have hperform : s.perform cfg clock fault e = some (reply, s') := by
      simp only [perform, hpc, hfinish]
    cases reply with
    | ok a => simp [Execution.resume, Execution.proceed, hpc, Execution.discards] at hdiscards
    | error x =>
      refine noOutput_of_raised he hkeeps hpc hperform ?_
      by_contra hretries
      rw [Bool.not_eq_false] at hretries
      have hretried : e.fail x = { e with pc := .settling .result report (n + 1) } := by
        simp only [Execution.fail, hpc, hretries, if_true]
      change (e.fail x).discards = true at hdiscards
      rw [hretried] at hdiscards
      cases hdiscards
  | raised _ hfallible => simp [hpc, Pc.fallible] at hfallible
  | readStop hpc' | passed hpc' | popped hpc' => simp [hpc] at hpc'
  | readStore _ hpc' => simp [hpc] at hpc'
  | marked _ _ hpc' | registered _ hpc' | started hpc' | published hpc' | readSignal _ hpc' | cancelled _ _ _ hpc' | waited _ _ hpc'
  | wrote _ hpc' | undiscarded _ hpc' | discarded _ _ _ hpc' => cases hpc.symm.trans hpc'

/-- Where no execution gives up, the executions that are to discard output go on knowing that no row refers to it. -/
theorem Discarding.step (hs : Sound s) (h : Stored cfg s) (hd : Discarding s) (hkeeps : givesUp cfg s input = false) :
    Discarding (Service.step cfg s input) := by
  have hquiet : ∀ e ∈ s.executions, e.discards = true →
      Store.RowsOf e.job.id (fun r => r.hasOutput = false) (Service.step cfg s input).store := by
    intro e he hdiscards
    refine noOutput_step h hs he (hd.discards e he hdiscards) ?_
    intro _ _ _ report n hpc
    simp [Execution.discards, hpc] at hdiscards
  constructor
  · intro e' he' report n hpc
    rcases hs.execution_from he' with ⟨e, he, hmoved⟩ | ⟨_, _, _, -, -, -, rfl⟩
    · cases hmoved with
      | kept => exact hd.early _ he report n hpc
      | monitored e | sent e => exact hd.early e he report n hpc
      | called _ c rest =>
        rw [(callback_frame { e with callbacks := rest } c).1] at hpc
        exact (callback_outputPaths { e with callbacks := rest } c).trans (hd.early e he report n hpc)
      | executed _ _ _ _ _ hcall => exact hcall.advances.early_from (h.executions e he) hpc
    · cases hpc
  · intro e' he' hdiscards
    rcases hs.execution_from he' with ⟨e, he, hmoved⟩ | ⟨_, _, _, -, -, -, rfl⟩
    · cases hmoved with
      | kept => exact hquiet _ he hdiscards
      | monitored e | sent e => exact hquiet e he hdiscards
      | called _ c rest =>
        have hsame := Execution.sameRun_callback { e with callbacks := rest } c
        rw [hsame.job]
        refine hquiet e he ?_
        simpa only [Execution.discards, (callback_frame { e with callbacks := rest } c).1,
          callback_outputPaths { e with callbacks := rest } c] using hdiscards
      | executed _ clock fault reply s' hcall hnext =>
        rw [(Execution.sameRun_resume e reply).job]
        refine ⟨(hs.claimed e he).1.trans_le (drawn_le cfg s _ hs.wellFormed), ?_⟩
        rw [hnext]
        change ∀ row ∈ s'.store.jobs, _
        exact hcall.uncommitted h hd he hkeeps hdiscards
    · cases hdiscards

/-- What holds of the output where no execution has given up. -/
structure Kept (cfg : ServiceConfig) (s : Service) : Prop where
  sound : Sound s
  stored : Stored cfg s
  discarding : Discarding s

theorem Kept.step (h : Kept cfg s) (hkeeps : givesUp cfg s input = false) : Kept cfg (Service.step cfg s input) :=
  ⟨h.sound.step input, h.stored.step h.sound (h.discarding.uncommitted input), h.discarding.step h.sound h.stored hkeeps⟩

theorem kept_create (cfg : ServiceConfig) : Kept cfg (create cfg) :=
  ⟨sound_create cfg, stored_create cfg, by simp [create], by simp [create]⟩

/-- No step of a run gives up committed output. -/
def Persistent (cfg : ServiceConfig) (inputs : List ServiceInput) : Prop :=
  Machine.Guarded (Service.step cfg) (fun s input => givesUp cfg s input = false) (create cfg) inputs

instance (cfg : ServiceConfig) (inputs : List ServiceInput) : Decidable (Persistent cfg inputs) :=
  inferInstanceAs (Decidable (Machine.Guarded _ _ _ _))

theorem Persistent.kept {inputs : List ServiceInput} (h : Persistent cfg inputs) :
    Kept cfg (Machine.run (Service.step cfg) (create cfg) inputs) :=
  Machine.run_induct_of_guarded (P := Kept cfg) (fun _ _ hkept hkeeps => hkept.step hkeeps) h (kept_create cfg)

/-- The executor discards no output that a row refers to, at no step of a run in which no execution gives up: a call that discards
output, or a crash in the middle of it, finds no row with output. -/
theorem committed_output_spared (cfg : ServiceConfig) {inputs : List ServiceInput} (h : Persistent cfg inputs) :
    Machine.Guarded (Service.step cfg) DiscardsUncommitted (create cfg) inputs := by
  unfold Persistent at h
  have hkept := kept_create cfg
  generalize create cfg = s at h hkept
  induction inputs generalizing s with
  | nil => trivial
  | cons input inputs ih => exact ⟨hkept.discarding.uncommitted input, ih _ h.2 (hkept.step h.1)⟩

open Sample in
/-- No row refers to the output, and the call that discards it may. -/
theorem committed_output_spared_sample :
    Machine.Guarded (Service.step requestCfg.toServiceConfig) DiscardsUncommitted (create requestCfg.toServiceConfig)
        (unsettled [104, 105] ++ calls 1) ∧
      (SharkRail.Sample.served requestCfg (unsettled [104, 105])).output.readStream 1 .stdout = some [104, 105] ∧
      (SharkRail.Sample.served requestCfg (unsettled [104, 105] ++ calls 1)).output.readStream 1 .stdout = none :=
  ⟨committed_output_spared _ (by decide +kernel), by decide +kernel, by decide +kernel⟩

/-! ## Reading the output back -/

/-- The stream of a path of a job. -/
theorem streamOf_outputPath (out : OutputConfig) (jobId : Uuid) (stream : Stream) :
    streamOf out jobId (outputPath out jobId stream) = some stream := by
  have hne : outputPath out jobId .stderr ≠ outputPath out jobId .stdout := by
    intro heq
    have hlist := congrArg String.toList heq
    simp [outputPath, Stream.value] at hlist
  cases stream with
  | stdout => simp [streamOf]
  | stderr => simp [streamOf, hne]

/-- Of rows with a column unique, one is met by its value. -/
theorem filter_key {α κ : Type} [DecidableEq κ] (key : α → κ) {t : List α} (hn : (t.map key).Nodup) {r : α} (hr : r ∈ t) :
    t.filter (fun x => key x = key r) = [r] := by
  induction t with
  | nil => cases hr
  | cons x t ih =>
    rw [List.map_cons, List.nodup_cons] at hn
    have hfresh : ∀ y ∈ t, key y ≠ key x := by
      intro y hy heq
      exact hn.1 (heq ▸ List.mem_map_of_mem hy)
    rcases List.mem_cons.1 hr with rfl | hr
    · rw [List.filter_cons_of_pos (by simp), List.filter_eq_nil_iff.2 (by simpa using hfresh)]
    · rw [List.filter_cons_of_neg (by simpa using fun heq => hfresh r hr heq.symm)]
      exact ih hn.2 hr

/-- A path of a job that has output reads what its file holds. -/
theorem read_outputPath {out : OutputConfig} {o : Output} {stream : Stream} {data : Bytes}
    (h : Files.read o.dirs (.job jobId) (.bin stream) = some data) :
    o.read out jobId (some (outputPath out jobId stream)) = .ok data := by
  have hdata : o.readStream jobId stream = some data := h
  simp only [Output.read, streamOf_outputPath, hdata]

/-- The tenant of a job reads its row, and so does the service itself. -/
theorem get_row {store : Store} (hs : store.WellFormed) (hr : store.Readable) {row : JobRow} (hrow : row ∈ store.jobs)
    {tenantId : Option String} (htenant : ∀ t ∈ tenantId, row.tenantId = t) :
    ∃ job, store.get row.id tenantId = .ok job ∧ job.toJobRow = row := by
  obtain ⟨spec, hholds⟩ := hr row hrow
  refine ⟨{ row with spec := spec.reread true }, ?_, rfl⟩
  unfold Store.get
  rw [Store.selectJob_of_mem hs hrow htenant]
  exact hholds.rowToJob

/-- In a run in which no execution gives up, `read_output` gives the bytes that `write_job` was called with, for every row that refers to
output: the job is terminal, and `write_job` was called once for it. -/
theorem output_read_back (cfg : RequestConfig) {inputs : List ServiceInput} (h : Persistent cfg.toServiceConfig inputs) :
    ∀ row ∈ (Machine.run (Service.step cfg.toServiceConfig) (create cfg.toServiceConfig) inputs).store.jobs, row.hasOutput = true →
      row.phase.terminal = true ∧ ∃ stdout stderr,
        (Machine.run (Service.step cfg.toServiceConfig) (create cfg.toServiceConfig) inputs).written.filter (fun w => w.1 = row.id) =
          [(row.id, stdout, stderr)] ∧
        ∀ tenantId : Option String, (∀ t ∈ tenantId, row.tenantId = t) →
          (Machine.run (Service.step cfg.toServiceConfig) (create cfg.toServiceConfig) inputs).readOutput cfg row.id "stdout" tenantId =
              .ok (.output stdout) ∧
          (Machine.run (Service.step cfg.toServiceConfig) (create cfg.toServiceConfig) inputs).readOutput cfg row.id "stderr" tenantId =
              .ok (.output stderr) := by
  have hkept := h.kept
  have hreach : Reachable cfg.toServiceConfig (Machine.run (Service.step cfg.toServiceConfig) (create cfg.toServiceConfig) inputs) :=
    ⟨inputs, rfl⟩
  generalize Machine.run (Service.step cfg.toServiceConfig) (create cfg.toServiceConfig) inputs = s at hkept hreach
  intro row hrow houtput
  have hcommitted := hkept.stored.documented.rows row hrow houtput
  obtain ⟨stdout, stderr, hwritten, hholds⟩ := hkept.stored.published row hrow houtput
  refine ⟨hcommitted.terminal, stdout, stderr, ?_, fun tenantId htenant => ?_⟩
  · exact filter_key (fun w : Uuid × Bytes × Bytes => w.1) hkept.stored.written hwritten
  · obtain ⟨job, hget, hjob⟩ := get_row hreach.store.wellFormed hreach.store.holds hrow htenant
    have hread : s.get row.id tenantId = .ok job := by
      unfold Service.get
      rw [hget]
      rfl
    have hstdout : s.output.read cfg.output job.id job.stdoutPath = .ok stdout := by
      rw [hjob, hcommitted.stdoutPath]
      exact read_outputPath hholds.stdout
    have hstderr : s.output.read cfg.output job.id job.stderrPath = .ok stderr := by
      rw [hjob, hcommitted.stderrPath]
      exact read_outputPath hholds.stderr
    have hreadOutput : ∀ stream, s.readOutput cfg row.id stream tenantId =
        if stream = "stdout" then Answer.output <$> s.output.read cfg.output job.id job.stdoutPath
        else if stream = "stderr" then Answer.output <$> s.output.read cfg.output job.id job.stderrPath
        else throw (.store (.py (.valueError "stream must be stdout or stderr"))) := by
      intro stream
      unfold readOutput
      rw [hread]
      rfl
    rw [hreadOutput, hreadOutput, if_pos rfl, if_neg (by decide), if_pos rfl, hstdout, hstderr]
    exact ⟨rfl, rfl⟩

open Sample in
/-- What the process of a job printed is read back. -/
theorem output_read_back_sample : ∃ row ∈ (Sample.served requestCfg (printed [104, 105])).store.jobs, row.phase = .succeeded ∧
    (Sample.served requestCfg (printed [104, 105])).readOutput requestCfg row.id "stdout" (some "tenant") = .ok (.output [104, 105]) := by
  have hrun : (Sample.served requestCfg (printed [104, 105])).written = [(1, [104, 105], [])] ∧
      ∃ row ∈ (Sample.served requestCfg (printed [104, 105])).store.jobs,
        row.phase = .succeeded ∧ row.hasOutput = true ∧ row.id = 1 ∧ row.tenantId = "tenant" := by decide +kernel
  have hpersistent : Persistent requestCfg.toServiceConfig (printed [104, 105]) := by decide +kernel
  have hread := output_read_back requestCfg hpersistent
  unfold Sample.served at hrun ⊢
  obtain ⟨hwritten, row, hrow, hphase, houtput, hid, htenant⟩ := hrun
  obtain ⟨-, stdout, stderr, hfilter, hread⟩ := hread row hrow houtput
  rw [hwritten, hid] at hfilter
  cases hfilter
  exact ⟨row, hrow, hphase, (hread (some "tenant") (by simp [htenant])).1⟩

/-! ## Giving up -/

/-- Giving up, call by call: the last `finish` of a result raises, with a row that refers to the output. -/
theorem of_givesUp {attempt : Uuid} (h : givesUp cfg s (.execute attempt clock fault) = true) :
    ∃ e ∈ s.executions, e.attempt = attempt ∧ ∃ report n x s', e.pc = .settling .result report n ∧
      s.perform cfg clock fault e = some (.error x, s') ∧ (Execution.caught x && decide (n < 2)) = false ∧
        ∃ row ∈ s'.store.jobs, row.id = e.job.id ∧ row.hasOutput = true := by
  obtain ⟨e, he, hgives⟩ := List.any_eq_true.1 h
  rw [Bool.and_eq_true, decide_eq_true_eq] at hgives
  obtain ⟨hattempt, hgives⟩ := hgives
  split at hgives
  · rename_i report n x s' hpc hperform
    rw [Bool.and_eq_true, Bool.not_eq_true'] at hgives
    obtain ⟨hraised, hrows⟩ := hgives
    obtain ⟨row, hrow, houtput⟩ := List.any_eq_true.1 hrows
    rw [Bool.and_eq_true, decide_eq_true_eq] at houtput
    exact ⟨e, he, hattempt, report, n, x, s', hpc, hperform, hraised, row, hrow, houtput.1, houtput.2⟩
  · cases hgives

/-- An execution that discards the output it wrote leaves no directory of its job, and the store as it is. -/
theorem step_discarding (hs : Sound s) (he : e ∈ s.executions) {x : Exc} (hpc : e.pc = .discarding x)
    (hpaths : e.outputPaths = some (jobPaths cfg.output e.job.id)) (clock : Reading) :
    (step cfg s (.execute e.attempt clock .none)).store = s.store ∧
      (step cfg s (.execute e.attempt clock .none)).output.dirs.lookup (.job e.job.id) = none := by
  obtain ⟨hreturns, hgone⟩ := Output.deleteJob_returns cfg.output s.output e.job.id
  have hperform : s.perform cfg clock .none e = some
      ((s.output.deleteJob cfg.output .none e.job.id (some (jobPaths cfg.output e.job.id).1)
          (some (jobPaths cfg.output e.job.id).2)).1.map fun _ => .unit,
        { s with output := (s.output.deleteJob cfg.output .none e.job.id (some (jobPaths cfg.output e.job.id).1)
          (some (jobPaths cfg.output e.job.id).2)).2 }) := by
    simp only [perform, hpc, hpaths]
  simp only [step, hs.find? he, execute, hperform]
  exact ⟨rfl, hgone⟩

/-- An execution that gives up loses the output of its job: its next call removes the directory that the row refers to. Until then the
run may be any in which no execution gave up. -/
theorem given_up_is_lost (cfg : ServiceConfig) {inputs : List ServiceInput} (h : Persistent cfg inputs) {attempt : Uuid} {clock : Reading}
    {fault : Fault} (hgives : givesUp cfg (Machine.run (Service.step cfg) (create cfg) inputs) (.execute attempt clock fault) = true)
    (clock' : Reading) :
    ∃ row ∈ (Machine.run (Service.step cfg) (create cfg)
      (inputs ++ [.execute attempt clock fault, .execute attempt clock' .none])).store.jobs,
      row.phase.terminal = true ∧ row.hasOutput = true ∧
        (Machine.run (Service.step cfg) (create cfg)
          (inputs ++ [.execute attempt clock fault, .execute attempt clock' .none])).output.dirs.lookup (.job row.id) = none := by
  rw [Machine.run_append]
  have hkept := h.kept
  generalize Machine.run (Service.step cfg) (create cfg) inputs = s at hkept hgives
  obtain ⟨e, he, rfl, report, n, x, s', hpc, hperform, hraised, row, hrow, hid, houtput⟩ := of_givesUp hgives
  have hguard : DiscardsUncommitted s (.execute e.attempt clock fault) := hkept.discarding.uncommitted _
  have hsound : Sound (Service.step cfg s (.execute e.attempt clock fault)) := hkept.sound.step _
  have hstored := hkept.stored.step hkept.sound hguard
  have hadvances := (performs_of_perform hperform).advances
  have hresumed : e.resume (.error x) = e.raised x := by
    simp only [Execution.resume, Execution.fail, hpc, hraised, Bool.false_eq_true, if_false]
  have hnext : Service.step cfg s (.execute e.attempt clock fault) = s'.replace e (e.raised x) := by
    have hsame : s'.executions = s.executions := hadvances.frame.1
    simp only [Service.step, hkept.sound.find? he, execute, hperform]
    rw [hkept.sound.update_eq_replace he hsame, hresumed]
  rw [hnext] at hsound hstored
  have hmem : e.raised x ∈ (s'.replace e (e.raised x)).executions :=
    (mem_replace (hadvances.frame.1 ▸ he)).2 (Or.inr rfl)
  have hpaths := ((hkept.stored.executions e he).result report n hpc).1
  obtain ⟨hstore, hgone⟩ := @step_discarding cfg _ _ hsound hmem x rfl hpaths clock'
  have hrow' : row ∈ (s'.replace e (e.raised x)).store.jobs := hrow
  refine ⟨row, ?_, (hstored.documented.rows row hrow' houtput).terminal, houtput, ?_⟩
  · rw [Machine.run_cons, Machine.run_cons, Machine.run_nil, hnext]
    exact hstore ▸ hrow'
  · rw [Machine.run_cons, Machine.run_cons, Machine.run_nil, hnext, hid]
    exact hgone

open Sample in
/-- A job is executed, and its `finish` is committed and raises, twice. -/
def unheardRun : List ServiceInput :=
  opened [.store (.submit "tenant" "old" plainSpec) (clockAt 1), .claim 30 (clockAt 2)] ++ calls 10 ++
    [.monitor 2 .exited, .monitor 2 (.completed (some 0) [104, 105] [] false none)] ++ calls 2 ++
    List.replicate 2 (.execute 2 (clockAt 3) (.after (.error false "OperationalError" "disk I/O error")))

open Sample in
/-- A third `finish` that raises after its transaction loses the output of the job. -/
theorem given_up_is_lost_sample :
    ∃ row ∈ (Sample.served requestCfg (unheardRun ++ [.execute 2 (clockAt 3) (.after (.error false "OperationalError" "disk I/O error")),
        .execute 2 (clockAt 4) .none])).store.jobs,
      row.phase.terminal = true ∧ row.hasOutput = true ∧
        (Sample.served requestCfg (unheardRun ++ [.execute 2 (clockAt 3) (.after (.error false "OperationalError" "disk I/O error")),
          .execute 2 (clockAt 4) .none])).output.dirs.lookup (.job row.id) = none := by
  have hpersistent : Persistent requestCfg.toServiceConfig unheardRun := by decide +kernel
  have hgives : givesUp requestCfg.toServiceConfig (Sample.served requestCfg unheardRun)
      (.execute 2 (clockAt 3) (.after (.error false "OperationalError" "disk I/O error"))) = true := by decide +kernel
  unfold Sample.served at hgives ⊢
  exact given_up_is_lost requestCfg.toServiceConfig hpersistent hgives (clockAt 4)

/-! ## After a restart -/

/-- A service that is opened has the output of every row that refers to some, and no other directory than of such a row or of a
manifest: what executions and prunings left behind is gone, wherever the crash fell. The account of the quota is what is there. -/
theorem restart_reconciles (cfg : ServiceConfig) {inputs : List ServiceInput} (h : Persistent cfg inputs)
    (hdown : (Machine.run (Service.step cfg) (create cfg) inputs).up = false) (workerId : String) :
    (∀ row ∈ (Machine.run (Service.step cfg) (create cfg) (inputs ++ [.open workerId none])).store.jobs, row.hasOutput = true →
        Published (Machine.run (Service.step cfg) (create cfg) (inputs ++ [.open workerId none])) row.id) ∧
      (∀ d, ((Machine.run (Service.step cfg) (create cfg) (inputs ++ [.open workerId none])).output.dirs.lookup d).isSome = true →
        ∃ jobId, d = .job jobId ∧
          ((∃ row ∈ (Machine.run (Service.step cfg) (create cfg) (inputs ++ [.open workerId none])).store.jobs,
              row.id = jobId ∧ row.hasOutput = true) ∨
            ∃ manifest ∈ (Machine.run (Service.step cfg) (create cfg) (inputs ++ [.open workerId none])).store.deletions,
              manifest.jobId = jobId)) ∧
      (Machine.run (Service.step cfg) (create cfg) (inputs ++ [.open workerId none])).output.usedBytes =
        scanSize (Machine.run (Service.step cfg) (create cfg) (inputs ++ [.open workerId none])).output.dirs := by
  rw [Machine.run_append, Machine.run_cons, Machine.run_nil]
  have hkept := h.kept
  generalize Machine.run (Service.step cfg) (create cfg) inputs = s at hkept hdown
  have hopened : Service.step cfg s (.open workerId none) = s.openStores cfg workerId none := by
    simp only [Service.step, hdown, Bool.false_eq_true, if_false]
  refine ⟨(hkept.step rfl).stored.published, ?_, ?_⟩
  · rw [hopened]
    intro d hd
    change (((openOutput cfg s.output).reconcile _).2.dirs.lookup d).isSome = true at hd
    rw [Output.lookup_reconcile] at hd
    split at hd
    · cases hd
    · rename_i hkeeps
      cases d with
      | staging jobId token => exact absurd rfl hkeeps
      | job jobId =>
        refine ⟨jobId, rfl, ?_⟩
        have hreferenced : jobId ∈ (s.store.reopen cfg.store).referencedOutputJobIds := by simpa [Output.leftover] using hkeeps
        rcases List.mem_append.1 hreferenced with hrow | hmanifest
        · obtain ⟨row, hselected, rfl⟩ := List.mem_map.1 hrow
          obtain ⟨hjobs, houtput⟩ := Table.mem_select.1 hselected
          exact Or.inl ⟨row, hjobs, rfl, houtput⟩
        · obtain ⟨manifest, hdeletions, rfl⟩ := List.mem_map.1 hmanifest
          exact Or.inr ⟨manifest, hdeletions, rfl⟩
  · rw [hopened]
    rfl

open Sample in
/-- The process crashes after a job was executed, and the output of the job is there when the service is opened again. -/
theorem restart_reconciles_sample : ∃ row ∈
    (Sample.served requestCfg (printed [104, 105] ++ [.crash .none] ++ [.open "worker" none])).store.jobs,
    Published (Sample.served requestCfg (printed [104, 105] ++ [.crash .none] ++ [.open "worker" none])) row.id := by
  have hrow : ∃ row ∈ (Sample.served requestCfg (printed [104, 105] ++ [.crash .none] ++ [.open "worker" none])).store.jobs,
      row.hasOutput = true := by decide +kernel
  obtain ⟨row, hrow, houtput⟩ := hrow
  have hpersistent : Persistent requestCfg.toServiceConfig (printed [104, 105] ++ [.crash .none]) := by decide +kernel
  have hopened := restart_reconciles requestCfg.toServiceConfig hpersistent (by decide +kernel) "worker"
  exact ⟨row, hrow, hopened.1 row hrow houtput⟩

/-! ## Maintenance -/

/-- Two undisturbed steps of a pruning see to its next manifest: the directory is removed, and the manifest cleared. -/
theorem prune_pair (cfg : ServiceConfig) (s : Service) {index : Nat} {row : DeletionRow} {rows : List DeletionRow}
    (hpruner : s.pruners[index]? = some ⟨row :: rows, false⟩) (hrow : row.Committed cfg.output) :
    Machine.run (Service.step cfg) s [.prune index .none, .prune index .none] =
      { s with
        pruners := s.pruners.set index ⟨rows, false⟩
        output := (s.output.deleteJob cfg.output .none row.jobId row.stdoutPath row.stderrPath).2
        store := (s.store.clearManifest cfg.store row.jobId).2 } := by
  have hreturns : (s.output.deleteJob cfg.output .none row.jobId row.stdoutPath row.stderrPath).1 = .ok () := by
    rw [hrow.stdoutPath, hrow.stderrPath]
    exact (Output.deleteJob_returns cfg.output s.output row.jobId).1
  have hfirst : Service.step cfg s (.prune index .none) =
      { s with
        pruners := s.pruners.set index ⟨row :: rows, true⟩
        output := (s.output.deleteJob cfg.output .none row.jobId row.stdoutPath row.stderrPath).2 } := by
    simp only [Service.step, hpruner, pruneStep, Bool.false_eq_true, if_false, hreturns]
  have hlength : index < s.pruners.length := (List.getElem?_eq_some_iff.1 hpruner).1
  rw [Machine.run_cons, Machine.run_cons, Machine.run_nil, hfirst]
  simp only [Service.step, List.getElem?_set_self hlength, pruneStep, if_true, List.set_set]

/-- Left undisturbed, a pruning sees to all its manifests: each of them is cleared and its directory removed, the other directories and
the rows stay. -/
theorem prune_all (cfg : ServiceConfig) {index : Nat} {rows : List DeletionRow} (hrows : ∀ row ∈ rows, row.Committed cfg.output)
    (s : Service) (hpruner : s.pruners[index]? = some ⟨rows, false⟩) :
    (Machine.run (Service.step cfg) s (List.replicate rows.length [.prune index .none, .prune index .none]).flatten).store.jobs =
      s.store.jobs ∧
      (∀ manifest, manifest ∈ (Machine.run (Service.step cfg) s
          (List.replicate rows.length [.prune index .none, .prune index .none]).flatten).store.deletions ↔
        manifest ∈ s.store.deletions ∧ ∀ row ∈ rows, row.jobId ≠ manifest.jobId) ∧
      ∀ jobId, (Machine.run (Service.step cfg) s
          (List.replicate rows.length [.prune index .none, .prune index .none]).flatten).output.dirs.lookup (.job jobId) =
        if jobId ∈ rows.map (·.jobId) then none else s.output.dirs.lookup (.job jobId) := by
  induction rows generalizing s with
  | nil => simp
  | cons row rows ih =>
    have hrow := hrows row List.mem_cons_self
    have hlength : index < s.pruners.length := (List.getElem?_eq_some_iff.1 hpruner).1
    rw [List.length_cons, List.replicate_succ, List.flatten_cons, Machine.run_append, prune_pair cfg s hpruner hrow]
    obtain ⟨hjobs, hdeletions, hdirs⟩ := ih (fun r hr => hrows r (List.mem_cons_of_mem _ hr))
      { s with
        pruners := s.pruners.set index ⟨rows, false⟩
        output := (s.output.deleteJob cfg.output .none row.jobId row.stdoutPath row.stderrPath).2
        store := (s.store.clearManifest cfg.store row.jobId).2 } (by simp [hlength])
    refine ⟨hjobs.trans ?_, fun manifest => ?_, fun jobId => ?_⟩
    · obtain ⟨n, store, hcleared, hsame, -⟩ := Store.clearManifest_returns cfg.store row.jobId s.store
      change (s.store.clearManifest cfg.store row.jobId).2.jobs = s.store.jobs
      rw [hcleared]
      exact hsame
    · rw [hdeletions]
      change manifest ∈ (s.store.clearManifest cfg.store row.jobId).2.deletions ∧ _ ↔ _
      rw [Store.clearManifest_eq, Table.mem_delete, List.forall_mem_cons]
      simp only [decide_eq_false_iff_not, and_assoc, ne_eq, eq_comm (a := row.jobId)]
    · rw [hdirs]
      change (if _ then none else (s.output.deleteJob cfg.output .none row.jobId row.stdoutPath row.stderrPath).2.dirs.lookup _) = _
      by_cases hjob : jobId = row.jobId
      · subst hjob
        have hgone := (Output.deleteJob_returns cfg.output s.output row.jobId).2
        rw [← hrow.stdoutPath, ← hrow.stderrPath] at hgone
        simp [hgone]
      · rw [Output.lookup_deleteJob hjob]
        simp [hjob]

/-- Maintenance that is left undisturbed finishes: every manifest is cleared, its directory is removed, and every row keeps its output.
Each manifest takes two steps, so the run is as long as twice their number. -/
theorem maintenance_finishes (cfg : ServiceConfig) {inputs : List ServiceInput} (h : Persistent cfg inputs) {s s' : Service}
    (hs : Machine.run (Service.step cfg) (create cfg) inputs = s) (hup : s.up = true)
    (hs' : Machine.run (Service.step cfg) s
      (.finalize :: List.replicate (2 * s.store.deletions.length) (.prune s.pruners.length .none)) = s') :
    s'.store.deletions = [] ∧ s'.store.jobs = s.store.jobs ∧
      (∀ manifest ∈ s.store.deletions, s'.output.dirs.lookup (.job manifest.jobId) = none) ∧
      ∀ row ∈ s'.store.jobs, row.hasOutput = true → Published s' row.id := by
  have hkept := h.kept
  rw [hs] at hkept
  let rows := Table.selectBy (·.createdAt) (fun _ => true) s.store.deletions
  have hrows : ∀ row, row ∈ rows ↔ row ∈ s.store.deletions := by
    simp [rows, Table.selectBy, Table.select]
  have hlength : rows.length = s.store.deletions.length := by
    simp [rows, Table.selectBy, Table.select, List.length_insertionSort]
  have hfinalized : Service.step cfg s .finalize = { s with pruners := s.pruners ++ [⟨rows, false⟩] } := by
    simp only [Service.step, hup, if_true]
    rfl
  have hinputs : List.replicate (2 * s.store.deletions.length) (ServiceInput.prune s.pruners.length .none) =
      (List.replicate rows.length [.prune s.pruners.length .none, .prune s.pruners.length .none]).flatten := by
    have hpair : [ServiceInput.prune s.pruners.length .none, .prune s.pruners.length .none] =
        List.replicate 2 (.prune s.pruners.length .none) := rfl
    rw [hpair, List.flatten_replicate_replicate, hlength, Nat.mul_comm]
  obtain ⟨hjobs, hdeletions, hdirs⟩ := prune_all cfg (fun row hrow => hkept.stored.documented.manifests row ((hrows row).1 hrow))
    { s with pruners := s.pruners ++ [⟨rows, false⟩] } (show (s.pruners ++ [⟨rows, false⟩])[s.pruners.length]? = _ by simp)
  have hstored := hs'
  rw [Machine.run_cons, hfinalized, hinputs] at hs'
  rw [hs'] at hjobs hdeletions hdirs
  refine ⟨?_, hjobs, fun manifest hmanifest => ?_, ?_⟩
  · refine List.eq_nil_iff_forall_not_mem.2 fun manifest hmanifest => ?_
    obtain ⟨hmem, hne⟩ := (hdeletions manifest).1 hmanifest
    exact hne manifest ((hrows manifest).2 hmem) rfl
  · rw [hdirs, if_pos (List.mem_map_of_mem ((hrows manifest).2 hmanifest))]
  · rw [← hstored]
    refine (Machine.run_induct_of_guarded (P := Kept cfg) (fun _ _ hkept hkeeps => hkept.step hkeeps) ?_ hkept).stored.published
    refine Machine.guarded_of_forall (fun input hinput s => ?_) s
    rcases List.mem_cons.1 hinput with rfl | hinput
    · rfl
    · rw [(List.mem_replicate.1 hinput).2]
      rfl

open Sample in
/-- A job is executed and expires. -/
def expiredRun : List ServiceInput := printed [104, 105] ++ [.store (.prune true 100000000) (clockAt 90)]

open Sample in
/-- The job of the run has a manifest, which maintenance clears. -/
theorem maintenance_finishes_sample : ((Sample.served requestCfg expiredRun).store.deletions.map (·.jobId)) = [1] ∧
    (Machine.run (Service.step requestCfg.toServiceConfig) (Sample.served requestCfg expiredRun)
      [.finalize, .prune 0 .none, .prune 0 .none]).store.deletions = [] := by
  have hpersistent : Persistent requestCfg.toServiceConfig expiredRun := by decide +kernel
  have hrun : (Sample.served requestCfg expiredRun).up = true ∧ (Sample.served requestCfg expiredRun).store.deletions.map (·.jobId) = [1] ∧
      (Sample.served requestCfg expiredRun).pruners.length = 0 := by decide +kernel
  obtain ⟨s, hs⟩ : ∃ s, Sample.served requestCfg expiredRun = s := ⟨_, rfl⟩
  rw [hs] at hrun ⊢
  obtain ⟨hup, hmanifests, hpruners⟩ := hrun
  have hlength : s.store.deletions.length = 1 := by simpa using congrArg List.length hmanifests
  have hfinished := maintenance_finishes requestCfg.toServiceConfig hpersistent hs hup rfl
  rw [hlength, hpruners] at hfinished
  exact ⟨hmanifests, hfinished.1⟩

end Service

end SharkRail
