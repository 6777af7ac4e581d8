import SharkRail.Lemmas.Lives
import SharkRail.Service.Run

/-!
# The intent to cancel

What the store says of the intent of a job: a row that has it keeps it, only `request_cancel` writes it, and whoever reads the job
reads it. `RowsOf` covers a row that was deleted since.
-/

namespace SharkRail

namespace Store

variable {cfg : StoreConfig} {clock : Reading} {s : Store} {jobId : Uuid}

/-- `request_cancel` was committed for a job, or it was submitted with the intent, and its row is there. -/
def Asked (jobId : Uuid) (s : Store) : Prop := ∃ row ∈ s.jobs, row.id = jobId ∧ row.cancelled = true

/-- Every row of a job has the intent to cancel. -/
def Intended (jobId : Uuid) (s : Store) : Prop := RowsOf jobId (fun r => r.cancelled = true) s

/-- A row moved keeps its intent. -/
theorem RowStep.keeps_intent {drawn : Uuid} {call : StoreCall} {row row' : JobRow} {kind : Option String} {notes : List OutboxRow}
    (h : RowStep drawn clock row call row' kind notes) (hrow : row.cancelled = true) : row'.cancelled = true := by
  cases h with
  | cancelRequested _ _ _ hactive | cancelled _ _ _ hactive =>
    rw [hrow] at hactive
    cases hactive
  | assigned | running | renewed | finished | interrupted | leaseExpired => exact hrow

/-- A row moved gets the intent from `request_cancel` only. -/
theorem RowStep.gets_intent {drawn : Uuid} {call : StoreCall} {row row' : JobRow} {kind : Option String} {notes : List OutboxRow}
    (h : RowStep drawn clock row call row' kind notes) (hrow : row.cancelled = false) :
    row'.cancelled = false ∨ ∃ tenantId, call = .requestCancel row.id tenantId := by
  cases h with
  | cancelRequested tenantId | cancelled tenantId => exact Or.inr ⟨tenantId, rfl⟩
  | assigned | running | renewed | finished | interrupted | leaseExpired => exact Or.inl hrow

theorem Intended.step (hs : WellFormed s) (h : Intended jobId s) (input : StoreCall × Reading) : Intended jobId (step cfg s input) :=
  RowsOf.step hs h fun _ _ _ _ _ hrow hmove => hmove.keeps_intent hrow

theorem intended_of_asked (hs : WellFormed s) (h : Asked jobId s) : Intended jobId s := by
  obtain ⟨row, hrow, rfl, hcancelled⟩ := h
  refine ⟨hs.jobDrawn row hrow, fun r hr hid => ?_⟩
  rwa [Table.eq_of_key JobRow.id hs.jobIds hr hrow hid]

/-- A job gets the intent from a `request_cancel` for it. -/
theorem asked_step (hs : WellFormed s) (hdrawn : jobId < s.drawn) {call : StoreCall} (h : Asked jobId (step cfg s (call, clock))) :
    Asked jobId s ∨ ∃ tenantId, call = .requestCancel jobId tenantId := by
  by_contra hnot
  obtain ⟨hunasked, hcall⟩ := not_or.1 hnot
  have hrows : RowsOf jobId (fun r => r.id = jobId ∧ r.cancelled = false) s :=
    ⟨hdrawn, fun r hr hid => ⟨hid, by simpa using fun hcancelled => hunasked ⟨r, hr, hid, hcancelled⟩⟩⟩
  have hrows' : RowsOf jobId (fun r => r.id = jobId ∧ r.cancelled = false) (step cfg s (call, clock)) := by
    refine RowsOf.step hs hrows fun drawn row row' kind notes hrow hmove => ⟨hmove.key.1.trans hrow.1, ?_⟩
    refine (hmove.gets_intent hrow.2).resolve_right ?_
    rintro ⟨tenantId, rfl⟩
    exact hcall ⟨tenantId, by rw [hrow.1]⟩
  obtain ⟨row, hrow, hid, hcancelled⟩ := h
  rw [(hrows'.2 row hrow hid).2] at hcancelled
  cases hcancelled

/-- A job that reads reads the intent of its row. -/
theorem isCancelled_of_rowToJob (hr : Readable s) {row : JobRow} (hrow : row ∈ s.jobs) :
    ∃ job, rowToJob row = .ok job ∧ job.isCancelled = row.cancelled := by
  obtain ⟨spec, hholds⟩ := hr row hrow
  refine ⟨_, hholds.rowToJob, ?_⟩
  rw [hholds.cancelled, ← hholds.desiredState]
  rfl

theorem isCancelled_of_get (hr : Readable s) {job : JobRecord} (h : s.get jobId none = .ok job) :
    ∃ row ∈ s.jobs, row.id = jobId ∧ job.isCancelled = row.cancelled := by
  unfold get at h
  rw [Fallible.bind_eq_ok] at h
  obtain ⟨row, hread, hjob⟩ := h
  obtain ⟨hrow, hid, -⟩ := mem_of_selectJob hread
  obtain ⟨job', hjob', hcancelled⟩ := isCancelled_of_rowToJob hr hrow
  cases hjob.symm.trans hjob'
  exact ⟨row, hrow, hid, hcancelled⟩

/-- A job whose row is there is read. -/
theorem get_of_row (hs : WellFormed s) (hr : Readable s) {row : JobRow} (hrow : row ∈ s.jobs) :
    ∃ job, s.get row.id none = .ok job ∧ job.isCancelled = row.cancelled := by
  obtain ⟨job, hjob, hcancelled⟩ := isCancelled_of_rowToJob hr hrow
  refine ⟨job, ?_, hcancelled⟩
  have hfound : s.jobs.find? (fun r => r.id = row.id && (none : Option String).all fun t => r.tenantId = t) = some row := by
    simpa using Table.find?_key JobRow.id hs.jobIds hrow
  unfold get selectJob
  rw [hfound]
  exact hjob

/-- `request_cancel` leaves the store, or returns the job as it reads it back. -/
theorem requestCancel_returned (cfg : StoreConfig) (clock : Reading) (jobId : Uuid) (tenantId : Option String) (s : Store) :
    (requestCancel cfg clock jobId tenantId s).2 = s ∨
      (requestCancel cfg clock jobId tenantId s).1 = (requestCancel cfg clock jobId tenantId s).2.get jobId none := by
  unfold requestCancel
  rcases transaction_cases cfg _ s with ⟨e, h⟩ | ⟨a, s', hb, h⟩
  · rw [h]
    exact Or.inl rfl
  · rw [h]
    cases a with
    | none => exact Or.inr rfl
    | some job =>
      left
      change s' = s
      simp only [Fallible.bind_eq_ok] at hb
      obtain ⟨row, -, hb⟩ := hb
      split at hb
      · simp only [Fallible.bind_eq_ok, Fallible.pure_eq_ok, Prod.mk.injEq] at hb
        obtain ⟨_, -, -, rfl⟩ := hb
        rfl
      · simp only [Fallible.bind_eq_ok] at hb
        obtain ⟨_, -, _, -, hb⟩ := hb
        split at hb
        · simp only [Fallible.bind_eq_ok, Fallible.pure_eq_ok, Prod.mk.injEq] at hb
          obtain ⟨_, -, hnone, -⟩ := hb
          cases hnone
        · simp only [Fallible.pure_eq_ok, Prod.mk.injEq] at hb
          cases hb.1

/-- A `request_cancel` that writes the intent of a job returns the job with it. -/
theorem asked_requestCancel (hs : WellFormed s) (hr : Readable s) (hdrawn : jobId < s.drawn) {jobId' : Uuid} {tenantId : Option String}
    (h : Asked jobId (requestCancel cfg clock jobId' tenantId s).2) :
    Asked jobId s ∨
      jobId' = jobId ∧ ∃ job, (requestCancel cfg clock jobId' tenantId s).1 = .ok job ∧ job.isCancelled = true := by
  by_cases hbefore : Asked jobId s
  · exact Or.inl hbefore
  have hstep : Asked jobId (step cfg s (.requestCancel jobId' tenantId, clock)) := h
  obtain ⟨tenantId', hcall⟩ := (asked_step hs hdrawn hstep).resolve_left hbefore
  cases hcall
  refine Or.inr ⟨rfl, ?_⟩
  have hs' : WellFormed (requestCancel cfg clock jobId tenantId s).2 := hs.step (.requestCancel jobId tenantId, clock)
  have hr' : Readable (requestCancel cfg clock jobId tenantId s).2 :=
    step_induct (.requestCancel jobId tenantId, clock) hs hr fun _ _ _ hr hc => hr.change hc
  rcases requestCancel_returned cfg clock jobId tenantId s with hsame | hread
  · rw [hsame] at h
    exact absurd h hbefore
  · obtain ⟨row, hrow, rfl, hcancelled⟩ := h
    obtain ⟨job, hget, hjob⟩ := get_of_row hs' hr' hrow
    exact ⟨job, hread.trans hget, hjob.trans hcancelled⟩

end Store

end SharkRail
