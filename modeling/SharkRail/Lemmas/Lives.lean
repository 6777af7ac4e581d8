import SharkRail.Lemmas.Spec
import SharkRail.Lemmas.Steps

/-!
# The life of a row

What a change means for one job row: it stays, it is moved by a `RowStep`, or it is gone, and where a row comes from. The
invariants of a job follow from these and from the cases of `RowStep`.
-/

namespace SharkRail

namespace Store

variable {cfg : StoreConfig} {call : StoreCall} {clock : Reading} {s s' : Store}

/-- A call that may delete job rows: pruning, and the restart of a store in memory. -/
def Deletes (cfg : StoreConfig) (call : StoreCall) : Prop :=
  (∃ hasCleaner cutoff, call = .prune hasCleaner cutoff) ∨ (call = .reopen ∧ cfg.volatile = true)

/-- A row after a change: it is there as it was, or moved, or gone. -/
theorem Change.row (hs : WellFormed s) (h : Change cfg call clock s s') {r : JobRow} (hr : r ∈ s.jobs) :
    r ∈ s'.jobs ∨
      (∃ r' kind notes, RowStep s.drawn clock r call r' kind notes ∧ r' ∈ s'.jobs ∧
        s'.outbox = s.outbox ++ notes) ∨
      (Deletes cfg call ∧ ∀ x ∈ s'.jobs, x.id ≠ r.id) := by
  cases h with
  | accepted _ _ _ _ _ _ _ hjobs =>
    refine Or.inl ?_
    rw [hjobs, Table.mem_insert]
    exact Or.inl hr
  | moved row row' kind notes hrow hstep hjobs hevents hquiet houtbox =>
    by_cases hid : r.id = row.id
    · have e : r = row := Table.eq_of_key JobRow.id hs.jobIds hr hrow hid
      subst e
      refine Or.inr (Or.inl ⟨row', kind, notes, hstep, ?_, houtbox⟩)
      rw [hjobs, mem_replaceJob]
      exact Or.inr ⟨rfl, r, hr, rfl⟩
    · refine Or.inl ?_
      rw [hjobs, mem_replaceJob]
      exact Or.inl ⟨hr, hid⟩
  | released _ _ _ hjobs => exact Or.inl (hjobs ▸ hr)
  | delivery _ _ _ _ _ hjobs => exact Or.inl (hjobs ▸ hr)
  | cleared _ _ _ hjobs => exact Or.inl (hjobs ▸ hr)
  | pruned hasCleaner cutoff row hcall hrow hprunable houtput hjobs =>
    by_cases hid : r.id = row.id
    · refine Or.inr (Or.inr ⟨Or.inl ⟨hasCleaner, cutoff, hcall⟩, fun x hx => ?_⟩)
      rw [hjobs, Table.mem_delete] at hx
      rw [hid]
      simpa using hx.2
    · refine Or.inl ?_
      rw [hjobs, Table.mem_delete]
      exact ⟨hr, by simpa using hid⟩
  | restarted hcall htables =>
    split at htables
    · rename_i hvolatile
      refine Or.inr (Or.inr ⟨Or.inr ⟨hcall, hvolatile⟩, fun x hx => ?_⟩)
      rw [htables, (create_tables cfg s.drawn).1] at hx
      cases hx
    · exact Or.inl (htables ▸ hr)

/-- Where a row comes from: it was there, it was moved, or it was just accepted. -/
theorem Change.row_from (h : Change cfg call clock s s') {r' : JobRow} (hr' : r' ∈ s'.jobs) :
    r' ∈ s.jobs ∨
      (∃ r ∈ s.jobs, ∃ kind notes, RowStep s.drawn clock r call r' kind notes ∧
        s'.outbox = s.outbox ++ notes) ∨
      (∃ tenantId key spec, call = .submit tenantId key spec ∧ spec.validate = .ok () ∧
        r' = acceptedRow cfg clock.now s.storeEpoch s.drawn tenantId key spec ∧ s'.outbox = s.outbox) := by
  cases h with
  | accepted tenantId key spec hcall hspec _ _ hjobs _ houtbox =>
    rw [hjobs, Table.mem_insert] at hr'
    rcases hr' with hr' | rfl
    · exact Or.inl hr'
    · exact Or.inr (Or.inr ⟨tenantId, key, spec, hcall, hspec, rfl, houtbox⟩)
  | moved row row' kind notes hrow hstep hjobs _ _ houtbox =>
    rw [hjobs, mem_replaceJob] at hr'
    rcases hr' with ⟨hr', -⟩ | ⟨rfl, -⟩
    · exact Or.inl hr'
    · exact Or.inr (Or.inl ⟨row, hrow, kind, notes, hstep, houtbox⟩)
  | released _ _ _ hjobs => exact Or.inl (hjobs ▸ hr')
  | delivery _ _ _ _ _ hjobs => exact Or.inl (hjobs ▸ hr')
  | cleared _ _ _ hjobs => exact Or.inl (hjobs ▸ hr')
  | pruned _ _ _ _ _ _ _ hjobs =>
    rw [hjobs, Table.mem_delete] at hr'
    exact Or.inl hr'.1
  | restarted _ htables =>
    split at htables
    · rw [htables, (create_tables cfg s.drawn).1] at hr'
      cases hr'
    · rw [htables] at hr'
      exact Or.inl hr'

/-- An id that was drawn, and what holds of every row that has it. An id belongs to one job, so this is about the whole life of
its row, wherever the row is. -/
def RowsOf (jobId : Uuid) (P : JobRow → Prop) (s : Store) : Prop := jobId < s.drawn ∧ ∀ r ∈ s.jobs, r.id = jobId → P r

/-- What every move of a row keeps, a change keeps. -/
theorem RowsOf.change {jobId : Uuid} {P : JobRow → Prop} (h : RowsOf jobId P s)
    (hstep : ∀ row row' kind notes, P row → RowStep s.drawn clock row call row' kind notes → P row')
    (hc : Change cfg call clock s s') : RowsOf jobId P s' := by
  refine ⟨h.1.trans_le hc.drawn_le, fun r' hr' hid => ?_⟩
  rcases hc.row_from hr' with hr' | ⟨r, hr, _, _, hmove, -⟩ | ⟨_, _, _, -, -, rfl, -⟩
  · exact h.2 r' hr' hid
  · exact hstep _ _ _ _ (h.2 r hr (hmove.key.1.symm.trans hid)) hmove
  · exact absurd hid h.1.ne'

theorem RowsOf.step {jobId : Uuid} {P : JobRow → Prop} {input : StoreCall × Reading} (hs : WellFormed s)
    (h : RowsOf jobId P s)
    (hstep : ∀ drawn row row' kind notes, P row → RowStep drawn input.2 row input.1 row' kind notes → P row') :
    RowsOf jobId P (step cfg s input) :=
  step_induct input hs h fun _ _ _ h hc => h.change (hstep _) hc

/-- What every move of a row of the job keeps, a transaction keeps. -/
theorem RowsOf.step_row {jobId : Uuid} {P : JobRow → Prop} {input : StoreCall × Reading} (hs : WellFormed s) (h : RowsOf jobId P s)
    (hstep : ∀ drawn row row' kind notes, row.id = jobId → P row → RowStep drawn input.2 row input.1 row' kind notes → P row') :
    RowsOf jobId P (Store.step cfg s input) := by
  have hrows : RowsOf jobId (fun r => r.id = jobId ∧ P r) (Store.step cfg s input) := by
    refine RowsOf.step hs ⟨h.1, fun r hr hid => ⟨hid, h.2 r hr hid⟩⟩ fun drawn row row' kind notes hrow hmove => ?_
    exact ⟨hmove.key.1.trans hrow.1, hstep drawn row row' kind notes hrow.1 hrow.2 hmove⟩
  exact ⟨hrows.1, fun r hr hid => (hrows.2 r hr hid).2⟩

theorem WellFormed.run (hs : WellFormed s) (is : List (StoreCall × Reading)) : WellFormed (Machine.run (Store.step cfg) s is) :=
  Machine.run_induct (fun _ i hs => hs.step i) hs is

/-- What every move of a row by a call of the run keeps, the run keeps. -/
theorem RowsOf.run {jobId : Uuid} {P : JobRow → Prop} {is : List (StoreCall × Reading)} (hs : WellFormed s)
    (h : RowsOf jobId P s)
    (hstep : ∀ i ∈ is, ∀ drawn row row' kind notes, P row → RowStep drawn i.2 row i.1 row' kind notes → P row') :
    RowsOf jobId P (Machine.run (Store.step cfg) s is) := by
  induction is generalizing s with
  | nil => exact h
  | cons i is ih =>
    have hfirst : RowsOf jobId P (Store.step cfg s i) := h.step hs (hstep i List.mem_cons_self)
    exact ih (hs.step i) hfirst fun j hj => hstep j (List.mem_cons_of_mem _ hj)

/-- An id that was drawn and has no row never gets one again. -/
def Gone (jobId : Uuid) (s : Store) : Prop := jobId < s.drawn ∧ ∀ r ∈ s.jobs, r.id ≠ jobId

theorem Gone.change {jobId : Uuid} (hg : Gone jobId s) (h : Change cfg call clock s s') : Gone jobId s' :=
  RowsOf.change (P := fun _ => False) hg (fun _ _ _ _ h _ => h) h

theorem Gone.step {jobId : Uuid} (hs : WellFormed s) (hg : Gone jobId s) (input : StoreCall × Reading) :
    Gone jobId (step cfg s input) :=
  step_induct input hs hg fun _ _ _ hg h => hg.change h

theorem Gone.run {jobId : Uuid} (hs : WellFormed s) (hg : Gone jobId s) (is : List (StoreCall × Reading)) :
    Gone jobId (Machine.run (Store.step cfg) s is) :=
  RowsOf.run (P := fun _ => False) hs hg fun _ _ _ _ _ _ _ h _ => h

/-- A row moved was not terminal, unless `mark_running` moved it. -/
theorem RowStep.terminal {drawn : Uuid} {row row' : JobRow} {kind : Option String} {notes : List OutboxRow}
    (h : RowStep drawn clock row call row' kind notes) (ht : row.phase.terminal = true) :
    ∃ attemptId owner, call = .markRunning row.id attemptId owner ∧ ownedBy row.id attemptId owner row = true := by
  have hheld : row.phase.held ≠ true := fun h => absurd ht (by simp [JobPhase.terminal_of_held h])
  have hqueued : row.phase ≠ .queued := fun h => absurd ht (by simp [h, JobPhase.terminal])
  cases h with
  | running attemptId owner howned => exact ⟨attemptId, owner, rfl, howned⟩
  | assigned _ _ hphase | cancelled _ _ hphase => exact absurd hphase hqueued
  | renewed _ _ _ _ hphase | finished _ _ _ _ hphase | cancelRequested _ _ hphase | interrupted hphase
  | leaseExpired _ hphase => exact absurd hphase hheld

/-- No row becomes queued again. -/
theorem RowStep.not_queued {drawn : Uuid} {row row' : JobRow} {kind : Option String} {notes : List OutboxRow}
    (h : RowStep drawn clock row call row' kind notes) (hq : row.phase ≠ .queued) : row'.phase ≠ .queued := by
  cases h with
  | assigned _ _ hphase | cancelled _ _ hphase => exact absurd hphase hq
  | running => exact nofun
  | renewed => exact hq
  | finished _ _ report _ _ hreport =>
    intro h
    change settledPhase row.cancelled report.phase = .queued at h
    cases hc : row.cancelled <;> simp only [settledPhase, hc] at h
    · rw [if_neg (by simp)] at h
      simp [h, JobPhase.terminal] at hreport
    · simp at h
  | cancelRequested => simp [cancelRequestedRow, hq]
  | interrupted | leaseExpired =>
    change lostPhase row.cancelled ≠ .queued
    cases row.cancelled <;> simp [lostPhase]

/-- A row moved holds the specification it held, or that one with the intent to cancel, in the next generation. -/
theorem RowStep.holds {drawn : Uuid} {row row' : JobRow} {kind : Option String} {notes : List OutboxRow} {spec : JobSpec}
    (h : RowStep drawn clock row call row' kind notes) (hr : row.Holds spec) :
    (row'.Holds spec ∧ row'.generation = row.generation) ∨
      (row.cancelled = false ∧ row'.Holds (JobRow.cancelledSpec spec) ∧ row'.generation = row.generation + 1) := by
  cases h with
  | cancelRequested _ _ _ hactive | cancelled _ _ _ hactive => exact Or.inr ⟨hactive, hr.cancel rfl, rfl⟩
  | assigned | running | renewed | finished | interrupted | leaseExpired => exact Or.inl ⟨hr.of_specJson rfl, rfl⟩

/-- Every row holds a specification. -/
def Readable (s : Store) : Prop := ∀ r ∈ s.jobs, ∃ spec, r.Holds spec

theorem Readable.change (hr : Readable s) (h : Change cfg call clock s s') : Readable s' := by
  intro r' hr'
  rcases h.row_from hr' with hr' | ⟨r, hmem, _, _, hstep, -⟩ | ⟨_, _, spec, -, hspec, rfl, -⟩
  · exact hr r' hr'
  · obtain ⟨spec, hholds⟩ := hr r hmem
    rcases hstep.holds hholds with ⟨h, -⟩ | ⟨-, h, -⟩
    · exact ⟨_, h⟩
    · exact ⟨_, h⟩
  · exact ⟨_, holds_acceptedRow (JobSpec.validate_eq_ok.1 hspec)⟩

/-- Every row of a store in use holds a specification. -/
theorem Reachable.holds (h : Reachable cfg s) : Readable s :=
  h.induct (fun r hr => by simp [(create_tables cfg 0).1] at hr) fun _ _ _ _ _ hr h => hr.change h

/-! ## Outbox rows -/

/-- Where an outbox row comes from: it was there, its claim was taken back, it was delivered to, or it was just added. -/
theorem Change.outbox_from (h : Change cfg call clock s s') {o' : OutboxRow} (ho' : o' ∈ s'.outbox) :
    o' ∈ s.outbox ∨ (∃ o ∈ s.outbox, Released clock o call o') ∨
      (∃ o ∈ s.outbox, OutboxStep s.drawn clock o call o' ∧ s'.outbox = replaceOutbox o.eventId o' s.outbox) ∨
      (o'.eventId = s.drawn ∧ o'.state = .pending ∧ o'.deliveryAttemptId = none ∧ o'.attempts = 0) := by
  cases h with
  | accepted _ _ _ _ _ _ _ _ _ houtbox => exact Or.inl (houtbox ▸ ho')
  | moved row row' kind notes hrow hstep hjobs hevents hquiet houtbox =>
    rw [houtbox, List.mem_append] at ho'
    rcases ho' with ho' | ho'
    · exact Or.inl ho'
    · obtain ⟨hid, -, hstate, htoken, hattempts⟩ := hstep.notes.2 o' ho'
      exact Or.inr (Or.inr (Or.inr ⟨hid, hstate, htoken, hattempts⟩))
  | released f hstep houtbox =>
    rw [houtbox, List.mem_map] at ho'
    obtain ⟨o, ho, rfl⟩ := ho'
    rcases hstep o ho with he | hr
    · exact Or.inl (he.symm ▸ ho)
    · exact Or.inr (Or.inl ⟨o, ho, hr⟩)
  | delivery o o₁ ho hstep houtbox =>
    have hmem := ho'
    rw [houtbox, mem_replaceOutbox] at hmem
    rcases hmem with ⟨hold, -⟩ | ⟨rfl, -⟩
    · exact Or.inl hold
    · exact Or.inr (Or.inr (Or.inl ⟨o, ho, hstep, houtbox⟩))
  | pruned _ _ _ _ _ _ _ _ houtbox =>
    rw [houtbox, Table.mem_delete] at ho'
    exact Or.inl ho'.1
  | cleared _ _ _ _ houtbox => exact Or.inl (houtbox ▸ ho')
  | restarted _ htables =>
    split at htables
    · rw [htables, (create_tables cfg s.drawn).2.1] at ho'
      cases ho'
    · rw [htables] at ho'
      exact Or.inl ho'

/-- An outbox row after a change: it is there as it was, its claim was taken back, it was delivered to, or it is gone. -/
theorem Change.outbox_row (hs : WellFormed s) (h : Change cfg call clock s s') {o : OutboxRow} (ho : o ∈ s.outbox) :
    o ∈ s'.outbox ∨ (∃ o' ∈ s'.outbox, Released clock o call o') ∨
      (∃ o' ∈ s'.outbox, OutboxStep s.drawn clock o call o') ∨ Deletes cfg call := by
  cases h with
  | accepted _ _ _ _ _ _ _ _ _ houtbox => exact Or.inl (houtbox ▸ ho)
  | moved _ _ _ _ _ _ _ _ _ houtbox =>
    refine Or.inl ?_
    rw [houtbox, List.mem_append]
    exact Or.inl ho
  | released f hstep houtbox =>
    have hmem : f o ∈ s'.outbox := by
      rw [houtbox]
      exact List.mem_map_of_mem ho
    rcases hstep o ho with he | hr
    · exact Or.inl (he ▸ hmem)
    · exact Or.inr (Or.inl ⟨f o, hmem, hr⟩)
  | delivery o₁ o' ho₁ hstep houtbox =>
    by_cases hid : o.eventId = o₁.eventId
    · obtain rfl := Table.eq_of_key OutboxRow.eventId hs.eventIds ho ho₁ hid
      refine Or.inr (Or.inr (Or.inl ⟨o', ?_, hstep⟩))
      rw [houtbox, mem_replaceOutbox]
      exact Or.inr ⟨rfl, o, ho, rfl⟩
    · refine Or.inl ?_
      rw [houtbox, mem_replaceOutbox]
      exact Or.inl ⟨ho, hid⟩
  | pruned hasCleaner cutoff _ hcall => exact Or.inr (Or.inr (Or.inr (Or.inl ⟨hasCleaner, cutoff, hcall⟩)))
  | cleared _ _ _ _ houtbox => exact Or.inl (houtbox ▸ ho)
  | restarted hcall htables =>
    split at htables
    · rename_i hvolatile
      exact Or.inr (Or.inr (Or.inr (Or.inr ⟨hcall, hvolatile⟩)))
    · exact Or.inl (htables ▸ ho)

end Store

end SharkRail
