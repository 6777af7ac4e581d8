import SharkRail.Lemmas.Lives
import SharkRail.Lemmas.Output

/-!
# The output that rows refer to

A row gets its paths from the `finish` of its job, and a manifest has them from the row it replaces. A row that has paths is terminal,
and the paths are those of its job, as long as every report that refers to output gives these.
-/

namespace SharkRail

/-- A row refers to output. -/
def JobRow.hasOutput (r : JobRow) : Bool := r.stdoutPath.isSome || r.stderrPath.isSome

/-- A row that refers to its output is terminal, and has both paths of its job. -/
structure JobRow.Committed (cfg : OutputConfig) (r : JobRow) : Prop where
  terminal : r.phase.terminal = true
  stdoutPath : r.stdoutPath = some (jobPaths cfg r.id).1
  stderrPath : r.stderrPath = some (jobPaths cfg r.id).2

/-- A manifest of the output of its job. -/
structure DeletionRow.Committed (cfg : OutputConfig) (d : DeletionRow) : Prop where
  stdoutPath : d.stdoutPath = some (jobPaths cfg d.jobId).1
  stderrPath : d.stderrPath = some (jobPaths cfg d.jobId).2

theorem JobRow.Committed.manifest {cfg : OutputConfig} {r : JobRow} (h : r.Committed cfg) (t : Instant) :
    (⟨r.id, r.stdoutPath, r.stderrPath, t⟩ : DeletionRow).Committed cfg := ⟨h.stdoutPath, h.stderrPath⟩

namespace Store

variable {cfg : StoreConfig} {out : OutputConfig} {call : StoreCall} {clock : Reading} {s s' : Store} {jobId : Uuid}

/-- A report refers to output. -/
def Report.hasOutput (report : Report) : Bool := report.stdoutPath.isSome || report.stderrPath.isSome

/-- A report that refers to output has both paths of the job. -/
def Report.Reports (out : OutputConfig) (jobId : Uuid) (report : Report) : Prop :=
  report.hasOutput = true → report.stdoutPath = some (jobPaths out jobId).1 ∧ report.stderrPath = some (jobPaths out jobId).2

/-- A row moved keeps its paths, or `finish` wrote them. -/
theorem RowStep.output {drawn : Uuid} {row row' : JobRow} {kind : Option String} {notes : List OutboxRow}
    (h : RowStep drawn clock row call row' kind notes) :
    (row'.stdoutPath = row.stdoutPath ∧ row'.stderrPath = row.stderrPath) ∨
      ∃ attemptId owner report, call = .finish row.id attemptId owner report ∧ row'.phase.terminal = true ∧
        row'.stdoutPath = report.stdoutPath ∧ row'.stderrPath = report.stderrPath := by
  cases h with
  | finished attemptId owner report _ _ hreport =>
    refine Or.inr ⟨attemptId, owner, report, rfl, ?_, rfl, rfl⟩
    change (settledPhase row.cancelled report.phase).terminal = true
    cases row.cancelled
    · exact hreport
    · rfl
  | assigned | running | renewed | cancelRequested | cancelled | interrupted | leaseExpired => exact Or.inl ⟨rfl, rfl⟩

theorem RowStep.hasOutput {drawn : Uuid} {row row' : JobRow} {kind : Option String} {notes : List OutboxRow}
    (h : RowStep drawn clock row call row' kind notes) :
    row'.hasOutput = row.hasOutput ∨
      ∃ attemptId owner report, call = .finish row.id attemptId owner report ∧ row'.hasOutput = report.hasOutput := by
  rcases h.output with ⟨hstdout, hstderr⟩ | ⟨attemptId, owner, report, hcall, -, hstdout, hstderr⟩
  · left
    simp only [JobRow.hasOutput, hstdout, hstderr]
  · right
    refine ⟨attemptId, owner, report, hcall, ?_⟩
    simp only [JobRow.hasOutput, Report.hasOutput, hstdout, hstderr]

/-- A row has output where it had some, or where its job was just finished with some. -/
theorem hasOutput_step (hs : WellFormed s) (call : StoreCall) (clock : Reading) :
    ∀ row' ∈ (step cfg s (call, clock)).jobs, row'.hasOutput = true →
      (∃ row ∈ s.jobs, row.id = row'.id ∧ row.hasOutput = true) ∨
        ∃ attemptId owner report, call = .finish row'.id attemptId owner report ∧ report.hasOutput = true := by
  refine step_induct (P := fun s' => ∀ row' ∈ s'.jobs, row'.hasOutput = true →
    (∃ row ∈ s.jobs, row.id = row'.id ∧ row.hasOutput = true) ∨
      ∃ attemptId owner report, call = .finish row'.id attemptId owner report ∧ report.hasOutput = true)
    (call, clock) hs (fun row hrow houtput => Or.inl ⟨row, hrow, rfl, houtput⟩) ?_
  intro s₁ s₂ _ h hchange row' hrow' houtput
  rcases hchange.row_from hrow' with hrow | ⟨row, hrow, _, _, hmove, -⟩ | ⟨_, _, _, -, -, rfl, -⟩
  · exact h row' hrow houtput
  · rw [hmove.key.1]
    rcases hmove.hasOutput with hsame | ⟨attemptId, owner, report, hcall, hsame⟩
    · exact h row hrow (hsame ▸ houtput)
    · exact Or.inr ⟨attemptId, owner, report, hcall, hsame ▸ houtput⟩
  · cases houtput

/-- The rows of a job have no output until it is finished with some. -/
theorem noOutput_step (hs : WellFormed s) (h : RowsOf jobId (fun r => r.hasOutput = false) s) {call : StoreCall} {clock : Reading}
    (hcall : ∀ attemptId owner report, call = .finish jobId attemptId owner report → report.hasOutput = false) :
    RowsOf jobId (fun r => r.hasOutput = false) (step cfg s (call, clock)) :=
  h.step_row hs fun drawn row row' kind notes hid hrow hmove => by
    rcases hmove.hasOutput with hsame | ⟨attemptId, owner, report, hfinish, hsame⟩
    · exact hsame.trans hrow
    · exact hsame.trans (hcall attemptId owner report (hid ▸ hfinish))

/-- The rows and the manifests that refer to output have the paths of their jobs. -/
structure Documented (out : OutputConfig) (s : Store) : Prop where
  rows : ∀ r ∈ s.jobs, r.hasOutput = true → r.Committed out
  manifests : ∀ d ∈ s.deletions, d.Committed out

theorem Documented.change (h : Documented out s) (hchange : Change cfg call clock s s')
    (hmark : ∀ jobId attemptId owner, call = .markRunning jobId attemptId owner → ∀ r ∈ s.jobs, r.id = jobId → r.hasOutput = false)
    (hfinish : ∀ jobId attemptId owner report, call = .finish jobId attemptId owner report → report.Reports out jobId) :
    Documented out s' := by
  refine ⟨fun row' hrow' houtput => ?_, ?_⟩
  · rcases hchange.row_from hrow' with hrow | ⟨row, hrow, _, _, hmove, -⟩ | ⟨_, _, _, -, -, rfl, -⟩
    · exact h.rows row' hrow houtput
    · have hid := hmove.key.1
      rcases hmove.output with ⟨hstdout, hstderr⟩ | ⟨attemptId, owner, report, hcall, hterminal, hstdout, hstderr⟩
      · have hbefore : row.hasOutput = true := by
          rwa [JobRow.hasOutput, hstdout, hstderr] at houtput
        have hrow := h.rows row hrow hbefore
        refine ⟨?_, by rw [hstdout, hid, hrow.stdoutPath], by rw [hstderr, hid, hrow.stderrPath]⟩
        -- A terminal row is moved by `mark_running` only.
        obtain ⟨attemptId, owner, hcall, -⟩ := hmove.terminal hrow.terminal
        rw [hmark row.id attemptId owner hcall row ‹_› rfl] at hbefore
        cases hbefore
      · have hreports : report.hasOutput = true := by
          rwa [JobRow.hasOutput, hstdout, hstderr] at houtput
        obtain ⟨hout, herr⟩ := hfinish row.id attemptId owner report hcall hreports
        exact ⟨hterminal, by rw [hstdout, hid, hout], by rw [hstderr, hid, herr]⟩
    · cases houtput
  · intro d hd
    cases hchange with
    | accepted _ _ _ _ _ _ _ _ _ _ hdeletions | moved _ _ _ _ _ _ _ _ _ _ hdeletions | released _ _ _ _ _ hdeletions
    | delivery _ _ _ _ _ _ _ hdeletions => exact h.manifests d (hdeletions ▸ hd)
    | pruned hasCleaner cutoff row _ hrow _ _ _ _ _ hdeletions =>
      rw [hdeletions] at hd
      split at hd
      · exact h.manifests d hd
      · rename_i hsome
        rcases Table.mem_insert.1 hd with hd | rfl
        · exact h.manifests d hd
        · refine (h.rows row hrow ?_).manifest _
          by_contra hnone
          refine hsome ?_
          simpa [JobRow.hasOutput] using hnone
    | cleared _ _ hdeletions =>
      rw [hdeletions, Table.mem_delete] at hd
      exact h.manifests d hd.1
    | restarted _ htables =>
      split at htables
      · rw [htables, (create_tables cfg s.drawn).2.2.1] at hd
        cases hd
      · rw [htables] at hd
        exact h.manifests d hd

theorem Documented.step (hs : WellFormed s) (h : Documented out s) (call : StoreCall) (clock : Reading)
    (hmark : ∀ jobId attemptId owner, call = .markRunning jobId attemptId owner → RowsOf jobId (fun r => r.hasOutput = false) s)
    (hfinish : ∀ jobId attemptId owner report, call = .finish jobId attemptId owner report → report.Reports out jobId) :
    Documented out (step cfg s (call, clock)) := by
  refine (step_induct (P := fun s' => Documented out s' ∧ ∀ jobId attemptId owner, call = .markRunning jobId attemptId owner →
    RowsOf jobId (fun r => r.hasOutput = false) s') (call, clock) hs ⟨h, hmark⟩ ?_).1
  rintro s₁ s₂ - ⟨h, hmark⟩ hchange
  refine ⟨h.change hchange (fun jobId attemptId owner hcall => (hmark jobId attemptId owner hcall).2) hfinish, ?_⟩
  rintro jobId attemptId owner rfl
  refine (hmark jobId attemptId owner rfl).change (fun row row' kind notes hrow hmove => ?_) hchange
  rcases hmove.hasOutput with hsame | ⟨_, _, _, hcall, -⟩
  · exact hsame.trans hrow
  · cases hcall

end Store

end SharkRail
