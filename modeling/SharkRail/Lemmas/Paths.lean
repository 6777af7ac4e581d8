import SharkRail.Lemmas.Stored
import SharkRail.Service.Requests

/-!
# The paths of the output

In every state that a service reaches, whatever it discards, the paths in a row are those of the streams of its own job: `finish` writes
the ones that `write_job` returned for the job, or none.
-/

namespace SharkRail

variable {cfg : OutputConfig} {clock : Reading}

/-- The paths in a row are those of the streams of its job, where it has any. -/
def JobRow.OwnPaths (cfg : OutputConfig) (r : JobRow) : Prop := ∀ stream, ∀ path ∈ r.path stream, path = outputPath cfg r.id stream

namespace Store

/-- The paths in a report are those of the streams of a job, where it has any. -/
structure Report.OwnPaths (cfg : OutputConfig) (jobId : Uuid) (report : Report) : Prop where
  stdout : ∀ path ∈ report.stdoutPath, path = outputPath cfg jobId .stdout
  stderr : ∀ path ∈ report.stderrPath, path = outputPath cfg jobId .stderr

/-- A report without output has no paths but its own. -/
theorem Report.ownPaths_of_none {jobId : Uuid} {report : Report} (h : report.hasOutput = false) : report.OwnPaths cfg jobId := by
  unfold Report.hasOutput at h
  rw [Bool.or_eq_false_iff, Option.isSome_eq_false_iff, Option.isSome_eq_false_iff, Option.isNone_iff_eq_none,
    Option.isNone_iff_eq_none] at h
  refine ⟨fun path hpath => ?_, fun path hpath => ?_⟩
  · rw [h.1] at hpath
    cases hpath
  · rw [h.2] at hpath
    cases hpath

/-- A row that steps keeps its own paths, where the report of its finish has them. -/
theorem RowStep.ownPaths {drawn : Uuid} {row row' : JobRow} {call : StoreCall} {kind : Option String} {notes : List OutboxRow}
    (h : RowStep drawn clock row call row' kind notes) (hrow : row.OwnPaths cfg)
    (hfinish : ∀ jobId attemptId owner report, call = .finish jobId attemptId owner report → report.OwnPaths cfg jobId) :
    row'.OwnPaths cfg := by
  have hid := h.key.1
  intro stream path hpath
  rw [hid]
  rcases h.output with ⟨hstdout, hstderr⟩ | ⟨attemptId, owner, report, hcall, -, hstdout, hstderr⟩
  · cases stream with
    | stdout => exact hrow .stdout path (hstdout.symm.trans hpath)
    | stderr => exact hrow .stderr path (hstderr.symm.trans hpath)
  · have hreport := hfinish row.id attemptId owner report hcall
    cases stream with
    | stdout => exact hreport.stdout path (hstdout.symm.trans hpath)
    | stderr => exact hreport.stderr path (hstderr.symm.trans hpath)

/-- Every row of the store has its own paths. -/
def OwnPaths (cfg : OutputConfig) (s : Store) : Prop := ∀ r ∈ s.jobs, r.OwnPaths cfg

/-- A call keeps the paths of every row its own, where the report of a finish has them. -/
theorem OwnPaths.step {store : StoreConfig} {s : Store} (hs : WellFormed s) (h : OwnPaths cfg s) (call : StoreCall) (clock : Reading)
    (hfinish : ∀ jobId attemptId owner report, call = .finish jobId attemptId owner report → report.OwnPaths cfg jobId) :
    OwnPaths cfg (step store s (call, clock)) := by
  refine step_induct (P := OwnPaths cfg) (call, clock) hs h ?_
  intro s₁ s₂ _ h hchange row' hrow'
  rcases hchange.row_from hrow' with hrow | ⟨row, hrow, _, _, hmove, -⟩ | ⟨_, _, _, -, -, rfl, -⟩
  · exact h row' hrow
  · exact hmove.ownPaths (h row hrow) hfinish
  · intro stream path hpath
    cases stream <;> cases hpath

/-- A submission keeps the paths of every row its own. -/
theorem OwnPaths.submit {store : StoreConfig} {s : Store} (hs : WellFormed s) (h : OwnPaths cfg s) (tenantId key : String)
    (spec : JobSpec) :
    OwnPaths cfg (Store.step store s (.submit tenantId key spec, clock)) := by
  refine h.step hs (.submit tenantId key spec) clock ?_
  intro jobId attemptId owner report hcall
  cases hcall

/-- A request to cancel keeps the paths of every row its own. -/
theorem OwnPaths.requestCancel {store : StoreConfig} {s : Store} (hs : WellFormed s) (h : OwnPaths cfg s) (jobId : Uuid)
    (tenantId : Option String) : OwnPaths cfg (Store.step store s (.requestCancel jobId tenantId, clock)) := by
  refine h.step hs (.requestCancel jobId tenantId) clock ?_
  intro jobId attemptId owner report hcall
  cases hcall

end Store

namespace Service

variable {cfg : ServiceConfig} {s : Service}

/-- An execution reports the paths of its own job. -/
def Reporting (cfg : ServiceConfig) (e : Execution) : Prop :=
  ∀ settling report n, e.pc = .settling settling report n → report.OwnPaths cfg.output e.job.id

/-- What an execution is about to report depends on where it is. -/
theorem Reporting.of_pc {e e' : Execution} (h : Reporting cfg e) (hpc : e'.pc = e.pc) (hjob : e'.job = e.job) : Reporting cfg e' := by
  intro settling report n hsettling
  rw [hjob]
  exact h settling report n (hpc ▸ hsettling)

/-- An execution that continues reports its own paths. -/
theorem Continues.reporting {fault : Fault} {e e' : Execution} {s' : Service} (h : Continues cfg fault e s e' s') (hr : Reporting cfg e)
    (hjob : e'.job = e.job) : Reporting cfg e' := by
  intro settling report n hsettling
  rw [hjob]
  cases h with
  | unwritten _ _ hpc' =>
    rw [hsettling] at hpc'
    cases hpc'
  | wrote result paths _ hpc' _ hwrite =>
    rw [hsettling] at hpc'
    cases hpc'
    obtain ⟨rfl, -⟩ := Output.writeJob_returned hwrite
    refine ⟨?_, ?_⟩ <;> rintro path ⟨⟩ <;> rfl
  | retries settling' report' n' hpc hpc' =>
    rw [hsettling] at hpc'
    cases hpc'
    exact hr settling report n' hpc
  | reports settling' report' _ hreport hpc' =>
    rw [hsettling] at hpc'
    cases hpc'
    exact Store.Report.ownPaths_of_none hreport
  | disposes hpc' =>
    rw [hsettling] at hpc'
    cases hpc'
  | discards x hpc' =>
    rw [hsettling] at hpc'
    cases hpc'
  | leaves hpc' =>
    rw [hsettling] at hpc'
    simp at hpc'

/-- What every state has: the rows have their own paths, and the executions report them. -/
structure Pathed (cfg : ServiceConfig) (s : Service) : Prop where
  rows : s.store.OwnPaths cfg.output
  executions : ∀ e ∈ s.executions, Reporting cfg e

/-- Every input keeps the paths of every row its own. -/
theorem Pathed.step (hs : Sound s) (h : Pathed cfg s) (input : ServiceInput) : Pathed cfg (Service.step cfg s input) := by
  constructor
  · refine store_induct (P := Store.OwnPaths cfg.output) cfg s input h.rows fun call clock heffect => ?_
    refine h.rows.step hs.wellFormed call clock ?_
    rintro jobId attemptId owner report rfl
    cases heffect with
    | shared call clock hshared => cases hshared
    | settled e settling report n clock fault he hpc => exact h.executions e he settling report n hpc
  · intro e' he'
    rcases hs.execution_from he' with ⟨e, he, hmoved⟩ | ⟨_, _, _, -, -, -, rfl⟩
    · have hr := h.executions e he
      have hjob := hmoved.sameRun.job
      cases hmoved with
      | kept => exact hr
      | executed _ _ _ _ _ hcall => exact hcall.advances.continues.reporting hr hjob
      | called _ c => exact hr.of_pc (callback_frame _ c).1 hjob
      | monitored => exact hr.of_pc rfl hjob
      | sent => exact hr.of_pc rfl hjob
    · intro settling report n hpc
      cases hpc

/-- In every reachable service the paths of a row are its own. -/
theorem Reachable.pathed (h : Reachable cfg s) : Pathed cfg s := by
  have hboth : Sound s ∧ Pathed cfg s := by
    have hcreated : Pathed cfg (create cfg) := by
      refine ⟨fun r hr => ?_, fun e he => absurd he List.not_mem_nil⟩
      rw [show (create cfg).store.jobs = [] from (Store.create_tables cfg.store 0).1] at hr
      cases hr
    exact Machine.Reachable.invariant (P := fun s => Sound s ∧ Pathed cfg s) h ⟨sound_create cfg, hcreated⟩
      fun _ input hs => ⟨hs.1.step input, hs.2.step hs.1 input⟩
  exact hboth.2

end Service

end SharkRail
