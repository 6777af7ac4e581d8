import SharkRail.Lemmas.Output
import SharkRail.Theorems.Capacity
import SharkRail.Theorems.Submission
import SharkRail.Service.Requests

/-!
# What requests answer

The answers of the transactions behind the requests of a tenant, in every store that can be reached: which of its ends each of them
comes to, what it returns there, and what it leaves in the tables. The only end that depends on more than the rows of the tenant is that
of a limit.
-/

namespace SharkRail

namespace Store

open Fallible

variable {cfg : StoreConfig} {clock : Reading} {s s' : Store} {tenantId key : String} {jobId : Uuid} {row : JobRow}

/-! ## Reading a job -/

/-- The row of a job that is read for a tenant: it is found where it is there and the tenant's, and nothing else is found. -/
theorem selectJob_of_mem (hs : WellFormed s) (hrow : row ∈ s.jobs) {tenant : Option String} (htenant : ∀ t ∈ tenant, row.tenantId = t) :
    s.selectJob row.id tenant = .ok row := by
  have hfound : s.jobs.find? (fun r => r.id = row.id && (tenant.all fun t => r.tenantId = t)) = some row := by
    cases h : s.jobs.find? (fun r => r.id = row.id && (tenant.all fun t => r.tenantId = t)) with
    | none =>
      rw [List.find?_eq_none] at h
      refine absurd ?_ (h row hrow)
      cases tenant with
      | none => simp
      | some t => simp [htenant t rfl]
    | some r =>
      have hid : r.id = row.id := by
        have := List.find?_some h
        rw [Bool.and_eq_true, decide_eq_true_eq] at this
        exact this.1
      rw [Table.eq_of_key JobRow.id hs.jobIds (List.mem_of_find?_eq_some h) hrow hid]
  unfold selectJob
  rw [hfound]
  rfl

/-- A job that no row of the tenant is of cannot be selected. -/
theorem selectJob_missing {tenant : Option String} (h : ∀ r ∈ s.jobs, r.id = jobId → ∃ t ∈ tenant, r.tenantId ≠ t) :
    s.selectJob jobId tenant = .error (.jobNotFound jobId) := by
  have hnone : s.jobs.find? (fun r => r.id = jobId && (tenant.all fun t => r.tenantId = t)) = none := by
    rw [List.find?_eq_none]
    intro r hr hfound
    rw [Bool.and_eq_true, decide_eq_true_eq] at hfound
    obtain ⟨t, ht, hne⟩ := h r hr hfound.1
    cases ht
    simpa [hne] using hfound.2
  unfold selectJob
  rw [hnone]
  rfl

/-! ## Cancellation -/

/-- A request to cancel any other job writes the intent and returns the job with it, unless the rows would outgrow their limit, or the job
is queued and can not be announced. -/
theorem requestCancel_writes (clock : Reading) {tenant : Option String} (hs : Sound cfg s) (h : s.selectJob jobId tenant = .ok row)
    (hactive : (row.phase.terminal || row.cancelled) = false) :
    requestCancel cfg clock jobId tenant s = (.error (.admissionLimited "metadata capacity is full"), s) ∨
      (row.phase = .queued ∧ ¬row.Notifiable ∧ ∃ endpoint ∈ row.unencodable,
        requestCancel cfg clock jobId tenant s = (.error (.py (.unicodeEncodeError endpoint)), s)) ∨
      ∃ job s', requestCancel cfg clock jobId tenant s = (.ok job, s') ∧ rowToJob (cancelRequestedRow clock.now row row) = .ok job ∧
        Moved cfg (cancelMove clock.now row) s s' := by
  obtain ⟨hreturns, hraises⟩ := requestCancel_active clock hs h (by rw [hactive]; exact Bool.false_ne_true)
  obtain ⟨hrow, rfl, -⟩ := mem_of_selectJob h
  obtain ⟨spec, hspec⟩ := hs.readable row hrow
  have hcancelled : (cancelRequestedRow clock.now row row).Holds (JobRow.cancelledSpec spec) := hspec.cancel rfl
  by_cases hnotifiable : row.phase = .queued → row.Notifiable
  · obtain ⟨s', hmoved, -, hread, hcancel⟩ := hreturns hnotifiable
    have hget : s'.get row.id none = .ok { cancelRequestedRow clock.now row row with spec := (JobRow.cancelledSpec spec).reread true } :=
      bind_eq_ok.2 ⟨_, hread, hcancelled.rowToJob⟩
    unfold committed at hcancel
    split at hcancel
    · exact .inl hcancel
    · exact .inr (.inr ⟨_, s', hcancel.trans (congrArg (·, s') hget), hcancelled.rowToJob, hmoved⟩)
  · push Not at hnotifiable
    exact .inr (.inl ⟨hnotifiable.1, hnotifiable.2, hraises hnotifiable.1 hnotifiable.2⟩)

/-! ## Submission -/

/-- A transaction whose body returns is committed, or it is refused for the room it takes. -/
theorem transaction_returns {α : Type} {body : Store → Except StoreError (α × Store)} {a : α} (h : body s = .ok (a, s')) :
    transaction cfg body s = (.error (.admissionLimited "metadata capacity is full"), s) ∨ transaction cfg body s = (.ok a, s') := by
  unfold transaction
  rw [h]
  dsimp only
  split
  · exact .inl rfl
  · exact .inr rfl

/-- A specification under a key that the tenant has not used is accepted, unless a limit is reached. -/
theorem submitTransaction_accepts (clock : Reading) {spec : JobSpec} (hs : Sound cfg s) (hspec : spec.validate = .ok ())
    (hnew : ∀ r ∈ s.jobs, ¬(r.tenantId = tenantId ∧ r.idempotencyKey = key)) :
    (∃ message, submitTransaction cfg clock tenantId key spec s = (.error (.admissionLimited message), s)) ∨
      ∃ job s', submitTransaction cfg clock tenantId key spec s = (.ok (job, true), s') ∧
        rowToJob (acceptedRow cfg clock.now s.storeEpoch s.drawn tenantId key spec) = .ok job ∧
        s'.jobs = Table.insert s.jobs (acceptedRow cfg clock.now s.storeEpoch s.drawn tenantId key spec) ∧ s'.outbox = s.outbox ∧
        s'.storeEpoch = s.storeEpoch ∧ s'.drawn = s.drawn + 1 := by
  have hnone : s.jobs.find? (fun r => r.tenantId = tenantId && r.idempotencyKey = key) = none := by
    rw [List.find?_eq_none]
    intro r hr hfound
    rw [Bool.and_eq_true, decide_eq_true_eq, decide_eq_true_eq] at hfound
    exact hnew r hr hfound
  let row := acceptedRow cfg clock.now s.storeEpoch s.drawn tenantId key spec
  have hread : rowToJob row = .ok { row with spec := spec.sorted.reread true } :=
    (holds_acceptedRow (JobSpec.validate_eq_ok.1 hspec)).rowToJob
  by_cases hfull : s.full cfg tenantId = true
  · left
    refine ⟨"job admission capacity is full", ?_⟩
    unfold submitTransaction
    rw [transaction_error]
    rw [hnone]
    dsimp only
    rw [if_pos hfull]
    rfl
  · have hunlogged : ∀ e ∈ (s.draw.2.insertJob cfg row).events, ¬(e.jobId = s.drawn ∧ e.revision = 1 ∧ e.kind = "job.accepted") := by
      rintro e he ⟨hid, -⟩
      obtain ⟨r, hr, hre, -⟩ := hs.dated e he
      exact absurd (hs.wellFormed.jobDrawn r hr) (by rw [hre, hid]; exact lt_irrefl _)
    obtain ⟨s₁, hevent⟩ := event_returns cfg clock.now hunlogged
    obtain ⟨bytes, hs₁⟩ := event_eq hevent
    have hmem : row ∈ s₁.jobs := by
      rw [hs₁]
      exact Table.mem_insert.2 (.inr rfl)
    have hfound : s₁.rowOf s.drawn = .ok row := by
      obtain ⟨r, hr⟩ := rowOf_returns hmem
      obtain ⟨hrmem, hid, -⟩ := mem_of_selectJob hr
      rw [hs₁] at hrmem
      rcases Table.mem_insert.1 hrmem with hold | rfl
      · exact absurd hid (hs.wellFormed.jobDrawn r hold).ne
      · exact hr
    have hbody : submitTransaction cfg clock tenantId key spec s = (.error (.admissionLimited "metadata capacity is full"), s) ∨
        submitTransaction cfg clock tenantId key spec s = (.ok ({ row with spec := spec.sorted.reread true }, true), s₁) := by
      unfold submitTransaction
      refine transaction_returns ?_
      rw [hnone]
      dsimp only
      rw [if_neg hfull]
      exact bind_eq_ok.2 ⟨s₁, hevent, bind_eq_ok.2 ⟨row, hfound, bind_eq_ok.2 ⟨_, hread, rfl⟩⟩⟩
    rcases hbody with hrefused | haccepted
    · exact .inl ⟨_, hrefused⟩
    · refine .inr ⟨_, _, haccepted, hread, ?_⟩
      rw [hs₁]
      exact ⟨rfl, rfl, rfl, rfl⟩

/-! ## Expiry -/

/-- The transaction of `prune_expired`, with a cleaner, deletes the expired jobs with their notifications, and no other row of these
tables. -/
theorem pruneTransaction_tables (cfg : StoreConfig) (clock : Reading) (cutoff : Instant) (hs : WellFormed s) :
    ∃ n s', pruneTransaction cfg clock true cutoff s = (.ok n, s') ∧
      (∀ r, r ∈ s'.jobs ↔ r ∈ s.jobs ∧ s.prunable cutoff r = false) ∧
      ∀ r ∈ s'.jobs, ∀ o, o.jobId = r.id → (o ∈ s'.outbox ↔ o ∈ s.outbox) := by
  obtain ⟨n, s', hreturned, hdeleted⟩ := pruneTransaction_deletes cfg clock true cutoff hs
  refine ⟨n, s', hreturned, fun r => ?_, fun r hr o hjob => ?_⟩
  · rw [hdeleted.left hs, cleanable, Bool.true_or, Bool.and_true]
  · rw [hdeleted.outbox]
    refine and_iff_left_of_imp fun _ row hrow => ?_
    rw [hjob]
    exact ((hdeleted.jobs r).1 hr).2 row hrow

end Store

namespace Service

variable {cfg : RequestConfig} {s s' s'' : Service} {jobIds : List Uuid}

/-! ## The pruning of a submission -/

/-- What the removal of expired output leaves: the tables but the manifests, and the directories of all other jobs. -/
structure Finalized (cfg : RequestConfig) (jobIds : List Uuid) (s s' : Service) : Prop where
  jobs : s'.store.jobs = s.store.jobs
  outbox : s'.store.outbox = s.store.outbox
  events : s'.store.events = s.store.events
  drawn : s'.store.drawn = s.store.drawn
  epoch : s'.store.storeEpoch = s.store.storeEpoch
  reachable : Store.Reachable cfg.store s.store → Store.Reachable cfg.store s'.store
  dirs : ∀ jobId ∉ jobIds, s'.output.dirs.lookup (.job jobId) = s.output.dirs.lookup (.job jobId)

/-- No deletion is finished. -/
theorem Finalized.refl : Finalized cfg jobIds s s := ⟨rfl, rfl, rfl, rfl, rfl, id, fun _ _ => rfl⟩

/-- Some deletions are finished, and then some others. -/
theorem Finalized.trans (h : Finalized cfg jobIds s s') (h' : Finalized cfg jobIds s' s'') : Finalized cfg jobIds s s'' :=
  ⟨h'.jobs.trans h.jobs, h'.outbox.trans h.outbox, h'.events.trans h.events, h'.drawn.trans h.drawn, h'.epoch.trans h.epoch,
    fun hs => h'.reachable (h.reachable hs), fun jobId hid => (h'.dirs jobId hid).trans (h.dirs jobId hid)⟩

/-- One deletion is finished or left. -/
theorem finalizeRow_finalized (removal : Uuid → Removal) (s : Service) {row : DeletionRow} (hrow : row.jobId ∈ jobIds) :
    Finalized cfg jobIds s (finalizeRow cfg removal s row) := by
  have hdirs : ∀ jobId ∉ jobIds,
      (s.output.deleteJob cfg.output (removal row.jobId).fault row.jobId row.stdoutPath row.stderrPath).2.dirs.lookup (.job jobId) =
        s.output.dirs.lookup (.job jobId) := by
    intro jobId hid
    refine Output.lookup_deleteJob ?_ row.stdoutPath row.stderrPath
    rintro rfl
    exact hid hrow
  unfold finalizeRow
  split
  rename_i reply output hdeleted
  rw [hdeleted] at hdirs
  split
  · obtain ⟨n, store, hcleared, hjobs, hevents, houtbox, hdrawn, hepoch⟩ := Store.clearManifest_returns cfg.store row.jobId s.store
    rw [hcleared]
    refine ⟨hjobs, houtbox, hevents, hdrawn, hepoch, fun hs => ?_, hdirs⟩
    have hnext := hs.next (.clearManifest row.jobId, .at 0)
    simpa [Store.step, hcleared] using hnext
  · exact ⟨rfl, rfl, rfl, rfl, rfl, id, hdirs⟩

/-- Some deletions are finished or left. -/
theorem finalizeRows_finalized (removal : Uuid → Removal) (s : Service) {rows : List DeletionRow}
    (hrows : ∀ row ∈ rows, row.jobId ∈ jobIds) : Finalized cfg jobIds s (rows.foldl (finalizeRow cfg removal) s) := by
  induction rows generalizing s with
  | nil => exact .refl
  | cons row rows ih =>
    obtain ⟨hrow, hrows⟩ := List.forall_mem_cons.1 hrows
    exact (finalizeRow_finalized removal s hrow).trans (ih (finalizeRow cfg removal s row) hrows)

/-- The deletions of the manifests are finished or left. -/
theorem finalizeOutputDeletions_finalized (cfg : RequestConfig) (removal : Uuid → Removal) (s : Service) :
    Finalized cfg (s.store.deletions.map (·.jobId)) s (s.finalizeOutputDeletions cfg removal) :=
  finalizeRows_finalized removal s fun row hrow => List.mem_map.2 ⟨row, (Table.mem_selectBy.1 hrow).1, rfl⟩

/-- What an expiry leaves: the jobs it keeps, with their notifications and their output. -/
structure Pruned (cfg : RequestConfig) (kept : JobRow → Bool) (s s' : Service) : Prop where
  jobs : ∀ r, r ∈ s'.store.jobs ↔ r ∈ s.store.jobs ∧ kept r = true
  outbox : ∀ r ∈ s'.store.jobs, ∀ o, o.jobId = r.id → (o ∈ s'.store.outbox ↔ o ∈ s.store.outbox)
  dirs : ∀ r ∈ s'.store.jobs, s'.output.dirs.lookup (.job r.id) = s.output.dirs.lookup (.job r.id)
  drawn : s'.store.drawn = s.store.drawn
  epoch : s'.store.storeEpoch = s.store.storeEpoch
  reachable : Store.Reachable cfg.store s'.store

/-- A job that has its row has no manifest. -/
theorem not_mem_manifests {store : Store} (hs : store.WellFormed) {r : JobRow} (hr : r ∈ store.jobs) :
    r.id ∉ store.deletions.map (·.jobId) := by
  intro hmem
  obtain ⟨d, hd, hid⟩ := List.mem_map.1 hmem
  exact hs.manifestGone d hd r hr hid.symm

/-- To finish deletions prunes nothing of the jobs that are there. -/
theorem Finalized.pruned (h : Finalized cfg (s.store.deletions.map (·.jobId)) s s') (hs : Store.Reachable cfg.store s.store) :
    Pruned cfg (fun _ => true) s s' :=
  ⟨fun r => by rw [h.jobs, and_iff_left rfl], fun _ _ _ _ => by rw [h.outbox],
    fun r hr => h.dirs r.id (not_mem_manifests hs.wellFormed (h.jobs ▸ hr)), h.drawn, h.epoch, h.reachable hs⟩

/-- What two prunings keep is kept by both. -/
theorem Pruned.trans {kept kept' : JobRow → Bool} (h : Pruned cfg kept s s') (h' : Pruned cfg kept' s' s'') :
    Pruned cfg (fun r => kept r && kept' r) s s'' := by
  have hmem : ∀ r ∈ s''.store.jobs, r ∈ s'.store.jobs := fun r hr => ((h'.jobs r).1 hr).1
  refine ⟨fun r => ?_, fun r hr o ho => ?_, fun r hr => ?_, h'.drawn.trans h.drawn, h'.epoch.trans h.epoch, h'.reachable⟩
  · rw [h'.jobs, h.jobs, Bool.and_eq_true, and_assoc]
  · rw [h'.outbox r hr o ho, h.outbox r (hmem r hr) o ho]
  · rw [h'.dirs r hr, h.dirs r (hmem r hr)]

/-- The transaction of a pruning, and nothing else. -/
theorem pruned_of_transaction (cfg : RequestConfig) (clock : Reading) (cutoff : Instant) (hs : Store.Reachable cfg.store s.store) :
    ∃ n store, s.store.pruneTransaction cfg.store clock true cutoff = (.ok n, store) ∧
      Pruned cfg (fun r => !s.store.prunable cutoff r) s { s with store } := by
  obtain ⟨n, store, hpruned, hjobs, houtbox⟩ := Store.pruneTransaction_tables cfg.store clock cutoff hs.wellFormed
  have hstep : Store.step cfg.store s.store (.prune true cutoff, clock) = store := congrArg Prod.snd hpruned
  have hshrinks : Store.Shrinks s.store store :=
    hstep ▸ Store.step_induct (P := Store.Shrinks s.store) (.prune true cutoff, clock) hs.wellFormed .refl
      fun _ _ _ h hchange => h.trans hchange.shrinks
  refine ⟨n, store, hpruned, fun r => ?_, houtbox, fun _ _ => rfl, hshrinks.drawn, hshrinks.storeEpoch,
    hstep ▸ hs.next (.prune true cutoff, clock)⟩
  rw [hjobs, Bool.not_eq_true']

/-- A pruning returns where its cutoff is a date, and raises before it where it is none. -/
theorem pruneExpired_cases (clock : Reading) (before after : Uuid → Removal) (hs : Store.Reachable cfg.store s.store) :
    match clock.now.minusSeconds cfg.store.jobTtlSeconds with
    | some cutoff => ∃ s', s.pruneExpired cfg clock before after = (.ok (), s') ∧ Pruned cfg (fun r => !s.store.prunable cutoff r) s s'
    | none => ∃ s', s.pruneExpired cfg clock before after = (.error (.overflowError "date value out of range"), s') ∧
        Pruned cfg (fun _ => true) s s' := by
  have hfirst := finalizeOutputDeletions_finalized cfg before s
  have hpruned := hfirst.pruned hs
  unfold pruneExpired
  cases hcutoff : clock.now.minusSeconds cfg.store.jobTtlSeconds with
  | none => exact ⟨_, rfl, hpruned⟩
  | some cutoff =>
    obtain ⟨n, store, hreturned, hdeleted⟩ := pruned_of_transaction cfg clock cutoff hpruned.reachable
    have hlast := (finalizeOutputDeletions_finalized cfg after
      { s.finalizeOutputDeletions cfg before with store }).pruned hdeleted.reachable
    dsimp only
    rw [hreturned]
    refine ⟨_, rfl, ?_⟩
    have hall := (hpruned.trans hdeleted).trans hlast
    simpa only [Bool.true_and, Bool.and_true, Store.prunable_congr hfirst.outbox] using hall

/-- A pruning raises where the date overflows, and nothing else. -/
theorem pruneExpired_error {clock : Reading} {before after : Uuid → Removal} {e : StoreError} (hs : Store.Reachable cfg.store s.store)
    (h : (s.pruneExpired cfg clock before after).1 = .error e) : e = .overflowError "date value out of range" := by
  have hcases := pruneExpired_cases clock before after hs
  split at hcases
  · obtain ⟨s', hreturned, -⟩ := hcases
    rw [hreturned] at h
    cases h
  · obtain ⟨s', hraised, -⟩ := hcases
    rw [hraised] at h
    cases h
    rfl

/-- The state that a pruning leaves, whether it returns or raises. -/
theorem pruneExpired_leaves (cfg : RequestConfig) (clock : Reading) (before after : Uuid → Removal)
    (hs : Store.Reachable cfg.store s.store) :
    ∃ kept, Pruned cfg kept s (s.pruneExpired cfg clock before after).2 := by
  have hcases := pruneExpired_cases clock before after hs
  split at hcases
  · obtain ⟨s', hreturned, hpruned⟩ := hcases
    exact ⟨_, by rwa [hreturned]⟩
  · obtain ⟨s', hraised, hpruned⟩ := hcases
    exact ⟨_, by rwa [hraised]⟩

/-- What a submission answers for its transaction. -/
def submitAnswer : Except StoreError (JobRecord × Bool) → Except RequestError Answer
  | .error e => .error (.store e)
  | .ok (job, created) => .ok (.submitted job created)

/-- A submission is refused, before its pruning or after it, or its transaction runs on what the pruning left. -/
theorem submit_cases (clock : Reading) (before after : Uuid → Removal) (tenantId key : String) (payload : List (PyStr × PyJson))
    (hs : Store.Reachable cfg.store s.store) :
    ∃ pruned, (pruned = s ∨ pruned = (s.pruneExpired cfg clock before after).2) ∧ Store.Reachable cfg.store pruned.store ∧
      pruned.store.drawn = s.store.drawn ∧
      ((∃ e, s.submit cfg clock before after tenantId key payload = (.error e, pruned)) ∨
        ∃ spec, spec.validate = .ok () ∧ s.submit cfg clock before after tenantId key payload =
          (submitAnswer (pruned.store.submitTransaction cfg.store clock tenantId key spec).1,
            { pruned with store := (pruned.store.submitTransaction cfg.store clock tenantId key spec).2 })) := by
  obtain ⟨kept, hpruned⟩ := pruneExpired_leaves cfg clock before after hs
  unfold submit
  split
  · exact ⟨s, .inl rfl, hs, rfl, .inl ⟨_, rfl⟩⟩
  · rename_i spec _
    unfold submitSpec
    split
    · exact ⟨s, .inl rfl, hs, rfl, .inl ⟨_, rfl⟩⟩
    · rename_i hspec
      refine ⟨_, .inr rfl, hpruned.reachable, hpruned.drawn, ?_⟩
      split
      · rename_i h
        rw [h]
        exact .inl ⟨_, rfl⟩
      · rename_i h
        rw [h]
        split
        · exact .inl ⟨_, rfl⟩
        · refine .inr ⟨spec, hspec, ?_⟩
          split
          · rename_i htransaction
            rw [htransaction]
            rfl
          · rename_i htransaction
            rw [htransaction]
            rfl

end Service

end SharkRail
