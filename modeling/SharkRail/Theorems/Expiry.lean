import SharkRail.Lemmas.Lives
import SharkRail.Lemmas.Pruning
import SharkRail.Lib.ClockOrder
import SharkRail.Theorems.Terminal

/-!
# What expires

A pruning deletes the jobs that ended longer ago than the retention, and nothing of the others. It compares the texts of instants, which
stand in their order; it deletes a job with output only where there is a cleaner for the files, and the manifest it leaves stays until the
cleaner has returned.
-/

namespace SharkRail

/-- The clock reads dates. -/
def Reading.IsDatetime (clock : Reading) : Prop := clock.now.IsDatetime ∧ ∀ u, (clock.later u).IsDatetime

theorem Reading.isDatetime_at {t : Instant} (h : t.IsDatetime) : (Reading.at t).IsDatetime := ⟨h, fun _ => h⟩

namespace Store

open Fallible

variable {cfg : StoreConfig} {call : StoreCall} {clock : Reading} {s s' : Store}

/-! ## The instants of a row -/

/-- A row was created, and completed, at dates. -/
def JobRow.IsDated (r : JobRow) : Prop := r.createdAt.IsDatetime ∧ ∀ t ∈ r.completedAt, t.IsDatetime

/-- A clock that reads dates writes dates. -/
theorem RowStep.isDated {drawn : Uuid} {row row' : JobRow} {kind : Option String} {notes : List OutboxRow}
    (h : RowStep drawn clock row call row' kind notes) (hclock : clock.IsDatetime) (hrow : JobRow.IsDated row) : JobRow.IsDated row' := by
  have hcompleted : ∀ {t : Instant}, t.IsDatetime → ∀ t' ∈ some t, Instant.IsDatetime t' := by
    rintro t ht t' ⟨⟩
    exact ht
  cases h with
  | assigned | running | renewed => exact hrow
  | finished => exact ⟨hrow.1, hcompleted hclock.1⟩
  | interrupted | leaseExpired => exact ⟨hrow.1, hcompleted (hclock.2 _)⟩
  | cancelRequested tenantId htenant hphase =>
    refine ⟨hrow.1, ?_⟩
    have hqueued : row.phase ≠ .queued := fun h => by simp [h, JobPhase.held] at hphase
    simpa [cancelRequestedRow, hqueued] using hrow.2
  | cancelled tenantId htenant hphase =>
    refine ⟨hrow.1, ?_⟩
    have hnow : (cancelRequestedRow clock.now row row).completedAt = some clock.now := if_pos hphase
    rw [hnow]
    exact hcompleted hclock.1

theorem isDated_run (inputs : List (StoreCall × Reading)) (hinputs : ∀ i ∈ inputs, i.2.IsDatetime) (hs : WellFormed s)
    (h : ∀ r ∈ s.jobs, JobRow.IsDated r) : ∀ r ∈ (Machine.run (step cfg) s inputs).jobs, JobRow.IsDated r := by
  induction inputs generalizing s with
  | nil => exact h
  | cons input inputs ih =>
    obtain ⟨hclock, hinputs⟩ := List.forall_mem_cons.1 hinputs
    refine ih hinputs (hs.step input) ?_
    refine step_induct (P := fun s => ∀ r ∈ s.jobs, JobRow.IsDated r) input hs h fun s₁ s₂ _ hrows hchange r' hr' => ?_
    rcases hchange.row_from hr' with hr' | ⟨r, hr, kind, notes, hmove, -⟩ | ⟨tenantId, key, spec, -, -, rfl, -⟩
    · exact hrows r' hr'
    · exact hmove.isDated hclock (hrows r hr)
    · exact ⟨hclock.1, by simp [acceptedRow]⟩

/-! ## The manifests -/

/-- A job has one manifest. -/
def OneManifest (s : Store) : Prop := (s.deletions.map (·.jobId)).Nodup

theorem OneManifest.change (hs : WellFormed s) (h : OneManifest s) (hc : Change cfg call clock s s') : OneManifest s' := by
  unfold OneManifest at h ⊢
  cases hc with
  | accepted _ _ _ _ _ _ _ _ _ _ hdeletions => rwa [hdeletions]
  | moved _ _ _ _ _ _ _ _ _ _ hdeletions => rwa [hdeletions]
  | released _ _ _ _ _ hdeletions => rwa [hdeletions]
  | delivery _ _ _ _ _ _ _ hdeletions => rwa [hdeletions]
  | pruned _ _ row _ hrow _ _ _ _ _ hdeletions =>
    rw [hdeletions]
    split
    · exact h
    · unfold Table.insert
      rw [List.map_append, List.nodup_append]
      refine ⟨h, List.nodup_singleton _, ?_⟩
      rintro a ha b (_ | ⟨_, ⟨⟩⟩) rfl
      obtain ⟨d, hd, hid⟩ := List.mem_map.1 ha
      exact hs.manifestGone d hd row hrow hid.symm
  | cleared _ _ hdeletions =>
    rw [hdeletions]
    exact h.sublist Table.sublist_map_delete
  | restarted _ htables =>
    split at htables
    · rw [htables, (create_tables cfg s.drawn).2.2.1]
      exact .nil
    · rw [htables]
      exact h

theorem Reachable.oneManifest (h : Reachable cfg s) : OneManifest s := by
  refine h.induct ?_ fun _ _ _ _ hs hd hc => hd.change hs hc
  unfold OneManifest
  rw [(create_tables cfg 0).2.2.1]
  exact .nil

/-- A transaction takes a manifest away only where it clears it, or starts a store in memory anew. -/
theorem Change.manifest (hc : Change cfg call clock s s') {d : DeletionRow} (hd : d ∈ s.deletions) :
    d ∈ s'.deletions ∨ call = .clearManifest d.jobId ∨ call = .reopen ∧ cfg.volatile = true := by
  cases hc with
  | accepted _ _ _ _ _ _ _ _ _ _ hdeletions => exact .inl (hdeletions ▸ hd)
  | moved _ _ _ _ _ _ _ _ _ _ hdeletions => exact .inl (hdeletions ▸ hd)
  | released _ _ _ _ _ hdeletions => exact .inl (hdeletions ▸ hd)
  | delivery _ _ _ _ _ _ _ hdeletions => exact .inl (hdeletions ▸ hd)
  | pruned _ _ row _ _ _ _ _ _ _ hdeletions =>
    left
    rw [hdeletions]
    split
    · exact hd
    · exact Table.mem_insert.2 (.inl hd)
  | cleared jobId hcall hdeletions =>
    by_cases hid : d.jobId = jobId
    · exact .inr (.inl (hid ▸ hcall))
    · left
      rw [hdeletions]
      exact Table.mem_delete.2 ⟨hd, by simpa using hid⟩
  | restarted hcall htables =>
    split at htables
    · rename_i hvolatile
      exact .inr (.inr ⟨hcall, hvolatile⟩)
    · exact .inl (htables ▸ hd)

theorem manifest_step (hs : WellFormed s) (input : StoreCall × Reading) {d : DeletionRow} (hd : d ∈ s.deletions) :
    d ∈ (step cfg s input).deletions ∨ input.1 = .clearManifest d.jobId ∨ input.1 = .reopen ∧ cfg.volatile = true := by
  refine step_induct (P := fun s => d ∈ s.deletions ∨ input.1 = .clearManifest d.jobId ∨ input.1 = .reopen ∧ cfg.volatile = true) input hs
    (.inl hd) fun s₁ s₂ _ h hchange => ?_
  rcases h with hd | hgone
  · exact hchange.manifest hd
  · exact .inr hgone

theorem clearManifest_eq (cfg : StoreConfig) (jobId : Uuid) (s : Store) :
    (clearManifest cfg jobId s).2.deletions = Table.delete (fun d => d.jobId = jobId) s.deletions := by
  have hdelta := Table.deleteDelta_nonneg (p := fun d : DeletionRow => d.jobId = jobId) (t := s.deletions) deletionRow_bytes_nonneg
  unfold clearManifest
  rw [transaction_commits rfl]
  · rfl
  · unfold deleteDeletions
    dsimp only
    omega

/-- A manifest that finalizing took away is one of a job for which the cleaner returned; none is added. -/
theorem finalizeEach_deletions (cfg : StoreConfig) (cleaner : Cleaner) (rows : List DeletionRow) (n : Nat) (s : Store) :
    (∀ d ∈ (finalizeEach cfg cleaner rows n s).2.deletions, d ∈ s.deletions) ∧
      ∀ d ∈ s.deletions, d ∉ (finalizeEach cfg cleaner rows n s).2.deletions → ∃ row ∈ rows, row.jobId = d.jobId ∧ cleaner row = true := by
  induction rows generalizing n s with
  | nil => exact ⟨fun d hd => hd, fun d hd hnot => absurd hd hnot⟩
  | cons row rows ih =>
    unfold finalizeEach
    split
    · rename_i hcleaned
      obtain ⟨k, s₁, h₁, -⟩ := clearManifest_returns cfg row.jobId s
      have hdeletions := clearManifest_eq cfg row.jobId s
      rw [h₁] at hdeletions ⊢
      obtain ⟨hfrom, hgone⟩ := ih (n + k) s₁
      refine ⟨fun d hd => ?_, fun d hd hnot => ?_⟩
      · have hd₁ := hfrom d hd
        rw [hdeletions] at hd₁
        exact (Table.mem_delete.1 hd₁).1
      · by_cases hid : d.jobId = row.jobId
        · exact ⟨row, List.mem_cons_self, hid.symm, hcleaned⟩
        · have hd₁ : d ∈ s₁.deletions := by
            rw [hdeletions]
            exact Table.mem_delete.2 ⟨hd, by simpa using hid⟩
          obtain ⟨x, hx, hfound⟩ := hgone d hd₁ hnot
          exact ⟨x, List.mem_cons_of_mem _ hx, hfound⟩
    · obtain ⟨hfrom, hgone⟩ := ih n s
      refine ⟨hfrom, fun d hd hnot => ?_⟩
      obtain ⟨x, hx, hfound⟩ := hgone d hd hnot
      exact ⟨x, List.mem_cons_of_mem _ hx, hfound⟩

theorem finalizeOutputDeletions_deletions (cfg : StoreConfig) (cleaner : Option Cleaner) (hone : OneManifest s) :
    ∀ d ∈ s.deletions, d ∉ (finalizeOutputDeletions cfg cleaner s).2.deletions → ∃ c ∈ cleaner, c d = true := by
  intro d hd hnot
  cases cleaner with
  | none => exact absurd hd hnot
  | some c =>
    obtain ⟨row, hrow, hid, hcleaned⟩ := (finalizeEach_deletions cfg c _ 0 s).2 d hd hnot
    obtain rfl := Table.eq_of_key DeletionRow.jobId hone (Table.mem_selectBy.1 hrow).1 hd hid
    exact ⟨c, rfl, hcleaned⟩

/-! ## The jobs that are deleted -/

/-- A job is expired: it ended longer ago than the retention, no delivery of it is still to come, and there is a cleaner for its output. -/
def Expired (cfg : StoreConfig) (now : Instant) (hasCleaner : Bool) (s : Store) (r : JobRow) : Prop :=
  r.phase.terminal = true ∧ (∃ t ∈ r.completedAt, t < now - cfg.jobTtlSeconds * Instant.second) ∧
    (∀ o ∈ s.outbox, o.jobId = r.id → o.state ≠ .pending ∧ o.state ≠ .delivering) ∧
    (hasCleaner = true ∨ r.stdoutPath = none ∧ r.stderrPath = none)

theorem undelivered_eq_false {o : OutboxState} : o.undelivered = false ↔ o ≠ .pending ∧ o ≠ .delivering := by
  cases o <;> simp [OutboxState.undelivered]

theorem cleanable_iff {hasCleaner : Bool} {r : JobRow} :
    cleanable hasCleaner r = true ↔ hasCleaner = true ∨ r.stdoutPath = none ∧ r.stderrPath = none := by
  unfold cleanable
  rw [Bool.or_eq_true, Bool.not_eq_true', Bool.or_eq_false_iff, Option.isSome_eq_false_iff, Option.isNone_iff_eq_none,
    Option.isSome_eq_false_iff, Option.isNone_iff_eq_none]

/-- The clauses of the two statements of the pruning say that the job is expired. -/
theorem expired_iff {now cutoff : Instant} {hasCleaner : Bool} {r : JobRow} (hcutoff : now.minusSeconds cfg.jobTtlSeconds = some cutoff) :
    Expired cfg now hasCleaner s r ↔ (s.prunable cutoff r && cleanable hasCleaner r) = true := by
  have heq : cutoff = now - cfg.jobTtlSeconds * Instant.second := by
    unfold Instant.minusSeconds at hcutoff
    split at hcutoff
    · exact (Option.some.inj hcutoff).symm
    · cases hcutoff
  unfold Expired prunable
  rw [Bool.and_eq_true, cleanable_iff, Bool.and_eq_true, Bool.and_eq_true, and_assoc, and_assoc, heq]
  refine and_congr_right fun _ => and_congr ?_ (and_congr_left fun _ => ?_)
  · rw [Option.any_eq_true]
    simp only [decide_eq_true_eq]
    exact Iff.rfl
  · rw [Bool.not_eq_true', List.any_eq_false]
    refine forall₂_congr fun o _ => ?_
    rw [Bool.not_eq_true, Bool.and_eq_false_imp, decide_eq_true_eq, undelivered_eq_false]

/-- Where the retention goes back before the first date, no job is expired. -/
theorem not_expired_of_overflow {now : Int} {hasCleaner : Bool} {r : JobRow} (httl : 0 ≤ cfg.jobTtlSeconds)
    (hnow : Instant.IsDatetime now) (hr : JobRow.IsDated r) (hcutoff : Instant.minusSeconds now cfg.jobTtlSeconds = none) :
    ¬ Expired cfg now hasCleaner s r := by
  rintro ⟨-, ⟨t, ht, hlt⟩, -⟩
  have hmin := (hr.2 t ht).1
  have hkept : (-62135596800000000 : Int) ≤ now - cfg.jobTtlSeconds * 1000000 := (hmin.trans_lt hlt).le
  have hlast : now ≤ (253402300799999999 : Int) := hnow.2
  have hdays : -999999999 ≤ cfg.jobTtlSeconds / 86400 ∧ cfg.jobTtlSeconds / 86400 ≤ 999999999 := by omega
  have hend : now - cfg.jobTtlSeconds * 1000000 ≤ (253402300799999999 : Int) := by omega
  rw [Instant.minusSeconds, if_pos ⟨hdays.1, hdays.2, hkept, hend⟩] at hcutoff
  cases hcutoff

/-- What a pruning leaves of the tables: the rows of the jobs that are not expired. -/
structure ExpiredGone (cfg : StoreConfig) (now : Instant) (hasCleaner : Bool) (s s' : Store) : Prop where
  jobs : ∀ r, r ∈ s'.jobs ↔ r ∈ s.jobs ∧ ¬ Expired cfg now hasCleaner s r
  events : ∀ e, e ∈ s'.events ↔ e ∈ s.events ∧ ∀ r ∈ s.jobs, Expired cfg now hasCleaner s r → e.jobId ≠ r.id
  outbox : ∀ o, o ∈ s'.outbox ↔ o ∈ s.outbox ∧ ∀ r ∈ s.jobs, Expired cfg now hasCleaner s r → o.jobId ≠ r.id

/-- The rows that the transaction deletes are those of the expired jobs. -/
theorem RowsDeleted.expiredGone {now cutoff : Instant} {hasCleaner : Bool} (hcutoff : now.minusSeconds cfg.jobTtlSeconds = some cutoff)
    (hs : WellFormed s)
    (h : RowsDeleted clock ((Table.select (s.prunable cutoff) s.jobs).filter (cleanable hasCleaner)) s s') :
    ExpiredGone cfg now hasCleaner s s' := by
  have hrows : ∀ row, row ∈ (Table.select (s.prunable cutoff) s.jobs).filter (cleanable hasCleaner) ↔
      row ∈ s.jobs ∧ Expired cfg now hasCleaner s row := by
    intro row
    rw [List.mem_filter, Table.mem_select, expired_iff hcutoff, Bool.and_eq_true, and_assoc]
  refine ⟨fun r => ?_, fun e => ?_, fun o => ?_⟩
  · rw [h.left hs, expired_iff hcutoff, Bool.not_eq_true]
  · rw [h.events]
    simp only [hrows, and_imp]
  · rw [h.outbox]
    simp only [hrows, and_imp]

/-- A pruning: the expired jobs go, a manifest goes only after its cleaner returned, and so for the manifests it writes. -/
theorem pruneExpired_deletes (cfg : StoreConfig) (clock : Reading) (before after : Option Cleaner) {cutoff : Instant} (hs : Reachable cfg s)
    (hcutoff : clock.now.minusSeconds cfg.jobTtlSeconds = some cutoff) :
    ExpiredGone cfg clock.now after.isSome s (pruneExpired cfg clock before after s).2 ∧
      (∀ d ∈ s.deletions, d ∉ (pruneExpired cfg clock before after s).2.deletions →
        (∃ c ∈ before, c d = true) ∨ ∃ c ∈ after, c d = true) ∧
      ∀ r ∈ s.jobs, Expired cfg clock.now after.isSome s r → (r.stdoutPath.isSome || r.stderrPath.isSome) = true →
        ⟨r.id, r.stdoutPath, r.stderrPath, clock.later r.id⟩ ∈ (pruneExpired cfg clock before after s).2.deletions ∨
          ∃ c ∈ after, c ⟨r.id, r.stdoutPath, r.stderrPath, clock.later r.id⟩ = true := by
  obtain ⟨m, s₁, h₁, hjobs, hevents, houtbox, -⟩ := finalizeOutputDeletions_returns cfg before s
  have hs₁ : Reachable cfg s₁ := by
    have hruns : Runs cfg Prunes s (finalizeOutputDeletions cfg before s).2 := finalizeOutputDeletions_runs clock
    rw [h₁] at hruns
    exact hruns.reachable hs
  obtain ⟨n, s₂, h₂, hdeleted⟩ := pruneTransaction_deletes cfg clock after.isSome cutoff hs₁.wellFormed
  have hs₂ : Reachable cfg s₂ := by
    have hstep : step cfg s₁ (.prune after.isSome cutoff, clock) = s₂ := congrArg Prod.snd h₂
    exact hstep ▸ hs₁.run [(.prune after.isSome cutoff, clock)]
  obtain ⟨k, s₃, h₃, hjobs', hevents', houtbox', -⟩ := finalizeOutputDeletions_returns cfg after s₂
  have hreturned : pruneExpired cfg clock before after s = (.ok n, s₃) := by
    simp only [pruneExpired, h₁, Outcome.andThen, hcutoff, h₂, h₃]
  have hfirst := finalizeOutputDeletions_deletions cfg before hs.oneManifest
  have hlast := finalizeOutputDeletions_deletions cfg after hs₂.oneManifest
  rw [h₁] at hfirst
  rw [h₃] at hlast
  have hexpired : ∀ r, Expired cfg clock.now after.isSome s₁ r ↔ Expired cfg clock.now after.isSome s r := by
    intro r
    rw [expired_iff hcutoff, expired_iff hcutoff, prunable_congr houtbox]
  have hgone := hdeleted.expiredGone hcutoff hs₁.wellFormed
  rw [hreturned]
  refine ⟨⟨fun r => ?_, fun e => ?_, fun o => ?_⟩, fun d hd hnot => ?_, fun r hr hexp houtput => ?_⟩
  · rw [hjobs', hgone.jobs, hjobs, hexpired]
  · rw [hevents', hgone.events, hevents, hjobs]
    simp only [hexpired]
  · rw [houtbox', hgone.outbox, houtbox, hjobs]
    simp only [hexpired]
  · by_cases hd₁ : d ∈ s₁.deletions
    · exact .inr (hlast d ((hdeleted.deletions d).2 (.inl hd₁)) hnot)
    · exact .inl (hfirst d hd hd₁)
  · have hmanifest := (hdeleted.deletions ⟨r.id, r.stdoutPath, r.stderrPath, clock.later r.id⟩).2 (.inr ⟨r, ?_, houtput, rfl⟩)
    · by_cases hkept : (⟨r.id, r.stdoutPath, r.stderrPath, clock.later r.id⟩ : DeletionRow) ∈ s₃.deletions
      · exact .inl hkept
      · exact .inr (hlast _ hmanifest hkept)
    · have hp := (expired_iff hcutoff).1 ((hexpired r).2 hexp)
      rw [Bool.and_eq_true] at hp
      exact List.mem_filter.2 ⟨Table.mem_select.2 ⟨hjobs ▸ hr, hp.1⟩, hp.2⟩

/-! ## The oldest job -/

/-- The job that `claim_next` returns is a queued one, and none of the queued jobs was created before it. -/
theorem claimNext_oldest {owner : String} {leaseSeconds : Int} {job : JobRecord} (hs : WellFormed s)
    (h : claimNext cfg clock owner leaseSeconds s = (.ok (some job), s')) :
    ∃ row ∈ s.jobs, row.id = job.id ∧ row.phase = .queued ∧ ∀ r ∈ s.jobs, r.phase = .queued → row.createdAt ≤ r.createdAt := by
  rcases claimNext_cases cfg clock hs owner leaseSeconds with ⟨e, hraised⟩ | hnone | ⟨row, hrow, job', s₁, hphase, hclaimed, hjob, -⟩
  · cases h.symm.trans hraised
  · cases h.symm.trans hnone
  · cases h.symm.trans hclaimed
    have hid : row.id = job.id := (congrArg JobRow.id hjob).symm
    refine ⟨row, hrow, hid, hphase, fun r hr hqueued => ?_⟩
    unfold claimNext at h
    rcases transaction_cases cfg _ s with ⟨e, hraised⟩ | ⟨a, s₂, hbody, hreturned⟩
    · cases h.symm.trans hraised
    · cases h.symm.trans hreturned
      split at hbody
      · cases hbody
      · rename_i first hfirst
        have hle := Table.le_of_head?_selectBy hfirst hr (by simpa using hqueued)
        -- the row that was assigned is the first one: the record that is returned is read back under its id
        have hsame : first = row := by
          obtain ⟨hmem, hfirstPhase⟩ := Table.mem_selectBy.1 (List.mem_of_mem_head? hfirst)
          refine Table.eq_of_key JobRow.id hs.jobIds hmem hrow ?_
          dsimp only at hbody
          split at hbody
          · cases hbody
          · obtain ⟨s₃, -, hbody⟩ := bind_eq_ok.1 hbody
            obtain ⟨row', hread, hbody⟩ := bind_eq_ok.1 hbody
            obtain ⟨job'', hrecord, hbody⟩ := bind_eq_ok.1 hbody
            cases hbody
            obtain ⟨-, hreadId, -⟩ := mem_of_selectJob hread
            rw [hid, ← hreadId, ← rowToJob_eq hrecord]
        rwa [hsame] at hle

/-! ## The claim of the pruning -/

/-- Pruning deletes exactly the expired jobs, with their events and notifications, and leaves all others; a deleted job with output gets its
manifest in the same transaction, and a manifest goes only after its cleaner returned. The texts of the instants that the store compares
stand in the order of the instants, and so the job that is claimed is the one that was created first. -/
theorem prune_deletes_expired (cfg : StoreConfig) (httl : 0 ≤ cfg.jobTtlSeconds) (inputs : List (StoreCall × Reading))
    (hinputs : ∀ i ∈ inputs, i.2.IsDatetime) (clock : Reading) (hclock : clock.IsDatetime) (cleaner : Option (Cleaner × Cleaner)) :
    let s := Machine.run (step cfg) (create cfg 0) inputs
    let pruned := (pruneExpired cfg clock (cleaner.map (·.1)) (cleaner.map (·.2)) s).2
    ExpiredGone cfg clock.now cleaner.isSome s pruned ∧
      (∀ hasCleaner cutoff, ∀ r ∈ s.jobs, r ∉ (step cfg s (.prune hasCleaner cutoff, clock)).jobs →
        (r.stdoutPath.isSome || r.stderrPath.isSome) = true →
        ⟨r.id, r.stdoutPath, r.stderrPath, clock.later r.id⟩ ∈ (step cfg s (.prune hasCleaner cutoff, clock)).deletions) ∧
      (∀ r ∈ s.jobs, r ∉ pruned.jobs → (r.stdoutPath.isSome || r.stderrPath.isSome) = true →
        ⟨r.id, r.stdoutPath, r.stderrPath, clock.later r.id⟩ ∈ pruned.deletions ∨
          ∃ c ∈ cleaner, c.2 ⟨r.id, r.stdoutPath, r.stderrPath, clock.later r.id⟩ = true) ∧
      (∀ d ∈ s.deletions, d ∉ pruned.deletions → ∃ c ∈ cleaner, c.1 d = true ∨ c.2 d = true) ∧
      (∀ input, ∀ d ∈ s.deletions, d ∉ (step cfg s input).deletions →
        input.1 = .clearManifest d.jobId ∨ input.1 = .reopen ∧ cfg.volatile = true) ∧
      (∀ cutoff, clock.now.minusSeconds cfg.jobTtlSeconds = some cutoff → ∀ r ∈ s.jobs, ∀ t ∈ r.completedAt,
        (t.isoformat < cutoff.isoformat ↔ t < cutoff)) ∧
      (∀ owner leaseSeconds job s', claimNext cfg clock owner leaseSeconds s = (.ok (some job), s') →
        ∃ row ∈ s.jobs, row.id = job.id ∧ row.phase = .queued ∧ ∀ r ∈ s.jobs, r.phase = .queued →
          row.createdAt ≤ r.createdAt ∧ ¬ r.createdAt.isoformat < row.createdAt.isoformat) ∧
      ∀ t t' : Instant, t.IsDatetime → t'.IsDatetime → (t.isoformat < t'.isoformat ↔ t < t') := by
  intro s pruned
  have hs : Reachable cfg s := ⟨inputs, rfl⟩
  have hdated : ∀ r ∈ s.jobs, JobRow.IsDated r := by
    refine isDated_run inputs hinputs (wellFormed_create 0) fun r hr => ?_
    rw [(create_tables cfg 0).1] at hr
    cases hr
  have hsome : (cleaner.map (·.2)).isSome = cleaner.isSome := Option.isSome_map
  have hpruned : ExpiredGone cfg clock.now cleaner.isSome s pruned ∧
      (∀ d ∈ s.deletions, d ∉ pruned.deletions → (∃ c ∈ cleaner.map (·.1), c d = true) ∨ ∃ c ∈ cleaner.map (·.2), c d = true) ∧
      ∀ r ∈ s.jobs, Expired cfg clock.now cleaner.isSome s r → (r.stdoutPath.isSome || r.stderrPath.isSome) = true →
        ⟨r.id, r.stdoutPath, r.stderrPath, clock.later r.id⟩ ∈ pruned.deletions ∨
          ∃ c ∈ cleaner.map (·.2), c ⟨r.id, r.stdoutPath, r.stderrPath, clock.later r.id⟩ = true := by
    cases hcutoff : clock.now.minusSeconds cfg.jobTtlSeconds with
    | none =>
      obtain ⟨m, s₁, h₁, hjobs, hevents, houtbox, -⟩ := finalizeOutputDeletions_returns cfg (cleaner.map (·.1)) s
      have hfirst := finalizeOutputDeletions_deletions cfg (cleaner.map (·.1)) hs.oneManifest
      have hleft : pruned = s₁ := by
        simp only [pruned, pruneExpired, h₁, Outcome.andThen, hcutoff]
      have hnone : ∀ r ∈ s.jobs, ¬ Expired cfg clock.now cleaner.isSome s r := fun r hr =>
        not_expired_of_overflow httl hclock.1 (hdated r hr) hcutoff
      rw [h₁] at hfirst
      rw [hleft]
      refine ⟨⟨fun r => ?_, fun e => ?_, fun o => ?_⟩, fun d hd hnot => .inl (hfirst d hd hnot), fun r hr hexp => absurd hexp (hnone r hr)⟩
      · rw [hjobs]
        exact ⟨fun hr => ⟨hr, hnone r hr⟩, fun h => h.1⟩
      · rw [hevents]
        exact ⟨fun he => ⟨he, fun r hr hexp => absurd hexp (hnone r hr)⟩, fun h => h.1⟩
      · rw [houtbox]
        exact ⟨fun ho => ⟨ho, fun r hr hexp => absurd hexp (hnone r hr)⟩, fun h => h.1⟩
    | some cutoff => exact hsome ▸ pruneExpired_deletes cfg clock _ _ hs hcutoff
  obtain ⟨hgone, hmanifests, hwritten⟩ := hpruned
  refine ⟨hgone, fun hasCleaner cutoff r hr hnot houtput => ?_, fun r hr hnot houtput => ?_, fun d hd hnot => ?_, fun input d hd hnot => ?_,
    fun cutoff hcutoff r hr t ht => ?_, fun owner leaseSeconds job s' hclaim => ?_, fun t t' => Instant.isoformat_lt_iff⟩
  · obtain ⟨n, s₁, h₁, hdeleted⟩ := pruneTransaction_deletes cfg clock hasCleaner cutoff hs.wellFormed
    have hstep : step cfg s (.prune hasCleaner cutoff, clock) = s₁ := congrArg Prod.snd h₁
    rw [hstep] at hnot ⊢
    have hrow : (s.prunable cutoff r && cleanable hasCleaner r) = true := by
      rw [hdeleted.left hs.wellFormed] at hnot
      simpa [hr] using hnot
    rw [Bool.and_eq_true] at hrow
    exact (hdeleted.deletions _).2 (.inr ⟨r, List.mem_filter.2 ⟨Table.mem_select.2 ⟨hr, hrow.1⟩, hrow.2⟩, houtput, rfl⟩)
  · have hexp : Expired cfg clock.now cleaner.isSome s r := by
      by_contra hkept
      exact hnot ((hgone.jobs r).2 ⟨hr, hkept⟩)
    rcases hwritten r hr hexp houtput with hkept | ⟨c, hc, hreturned⟩
    · exact .inl hkept
    · obtain ⟨pair, hpair, rfl⟩ := Option.map_eq_some_iff.1 hc
      exact .inr ⟨pair, hpair, hreturned⟩
  · rcases hmanifests d hd hnot with ⟨c, hc, hreturned⟩ | ⟨c, hc, hreturned⟩
    · obtain ⟨pair, hpair, rfl⟩ := Option.map_eq_some_iff.1 hc
      exact ⟨pair, hpair, .inl hreturned⟩
    · obtain ⟨pair, hpair, rfl⟩ := Option.map_eq_some_iff.1 hc
      exact ⟨pair, hpair, .inr hreturned⟩
  · exact (manifest_step hs.wellFormed input hd).resolve_left hnot
  · have hcutoffDated : cutoff.IsDatetime := by
      unfold Instant.minusSeconds at hcutoff
      split at hcutoff
      · rename_i hinside
        exact Option.some.inj hcutoff ▸ hinside.2.2
      · cases hcutoff
    exact Instant.isoformat_lt_iff ((hdated r hr).2 t ht) hcutoffDated
  · obtain ⟨row, hrow, hid, hphase, holdest⟩ := claimNext_oldest hs.wellFormed hclaim
    refine ⟨row, hrow, hid, hphase, fun r hr hqueued => ⟨holdest r hr hqueued, fun hbefore => ?_⟩⟩
    rw [Instant.isoformat_lt_iff (hdated r hr).1 (hdated row hrow).1] at hbefore
    exact absurd (holdest r hr hqueued) (Int.not_le.2 hbefore)

/-- A job without callback that leaves output and ends four seconds after the epoch. -/
def expiringRun : List (StoreCall × Reading) :=
  [(.submit "tenant" "key" { Sample.spec with callbackEndpointId := .null }, Sample.clockAt 1), (.claimNext "worker" 30, Sample.clockAt 2),
    (.markRunning 1 2 "worker", Sample.clockAt 3),
    (.finish 1 2 "worker" { Sample.report with stdoutPath := some "1/stdout", stdoutBytes := 5 }, Sample.clockAt 4)]

open Sample in
/-- A month later it is deleted, and its manifest stays while the cleaner fails. -/
theorem prune_deletes_expired_sample :
    ∃ r ∈ (Machine.run (step Sample.cfg) (create Sample.cfg 0) expiringRun).jobs,
      r ∉ (pruneExpired Sample.cfg (clockAt 2592000) (some fun _ => true) (some fun _ => false)
        (Machine.run (step Sample.cfg) (create Sample.cfg 0) expiringRun)).2.jobs ∧
      ⟨r.id, some "1/stdout", none, 2592000000000⟩ ∈
        (pruneExpired Sample.cfg (clockAt 2592000) (some fun _ => true) (some fun _ => false)
          (Machine.run (step Sample.cfg) (create Sample.cfg 0) expiringRun)).2.deletions := by
  have hrow : (Machine.run (step Sample.cfg) (create Sample.cfg 0) expiringRun).outbox = [] ∧
      ∃ r ∈ (Machine.run (step Sample.cfg) (create Sample.cfg 0) expiringRun).jobs,
        r.phase = .succeeded ∧ r.completedAt = some 4000000 ∧ r.stdoutPath = some "1/stdout" ∧ r.stderrPath = none := by decide +kernel
  have hdates : ∀ i ∈ expiringRun, i.2.IsDatetime := by
    simp only [expiringRun, List.forall_mem_cons, clockAt]
    refine ⟨Reading.isDatetime_at ?_, Reading.isDatetime_at ?_, Reading.isDatetime_at ?_, Reading.isDatetime_at ?_, by simp⟩ <;> decide
  have hpruned := prune_deletes_expired Sample.cfg (by decide) expiringRun hdates (clockAt 2592000)
    (Reading.isDatetime_at (by decide)) (some (fun _ => true, fun _ => false))
  simp only [Option.map_some, Option.isSome_some] at hpruned
  generalize (pruneExpired _ _ _ _ _).2 = pruned at hpruned ⊢
  obtain ⟨hgone, -, hmanifest, -⟩ := hpruned
  obtain ⟨houtbox, r, hr, hphase, hcompleted, hout, herr⟩ := hrow
  have hexpired : Expired Sample.cfg (clockAt 2592000).now true (Machine.run (step Sample.cfg) (create Sample.cfg 0) expiringRun) r := by
    refine ⟨by rw [hphase]; rfl, ⟨4000000, hcompleted, by decide⟩, ?_, .inl rfl⟩
    rw [houtbox]
    simp
  have hnot : r ∉ pruned.jobs := fun h => ((hgone.jobs r).1 h).2 hexpired
  refine ⟨r, hr, hnot, ?_⟩
  rcases hmanifest r hr hnot (by rw [hout]; rfl) with hkept | ⟨c, hc, hreturned⟩
  · rwa [hout, herr] at hkept
  · cases hc
    cases hreturned

end Store

end SharkRail
