import SharkRail.Theorems.Requests

/-!
# Cancelling a queued job

A queued job is cancelled by the request itself: no worker is asked. What decides is the intent that is stored with the job, which
`submit` takes from its caller, the endpoint that is told, and the room the row takes once it says why the job ended.
-/

namespace SharkRail

namespace Store

open Fallible

variable {cfg : StoreConfig} {s : Store} {row : JobRow}

/-- A job that is not queued is handed out by no claim of any later store. -/
theorem not_claimed_after (hs : WellFormed s) {jobId : Uuid} (h : RowsOf jobId (fun r => r.phase ≠ .queued) s)
    (later : List (StoreCall × Reading)) (clock : Reading) (owner : String) (leaseSeconds : Int) {job : JobRecord}
    (hclaim : (claimNext cfg clock owner leaseSeconds (Machine.run (step cfg) s later)).1 = .ok (some job)) : job.id ≠ jobId := by
  intro hid
  have hlater : RowsOf jobId (fun r => r.phase ≠ .queued) (Machine.run (step cfg) s later) :=
    h.run hs fun _ _ _ _ _ _ _ hq hmove => hmove.not_queued hq
  rcases claimNext_cases cfg clock (hs.run later) owner leaseSeconds with ⟨e, he⟩ | he | ⟨r, hr, job', s', hqueued, he, hrow, -⟩
  · rw [he] at hclaim
    cases hclaim
  · rw [he] at hclaim
    cases hclaim
  · rw [he] at hclaim
    cases hclaim
    have hrid : r.id = jobId := by
      rw [← hid, hrow]
      rfl
    exact hlater.2 r hr hrid hqueued

/-- What a request to cancel makes of a queued job. -/
structure CancelledAtOnce (cfg : StoreConfig) (row : JobRow) (job : JobRecord) (s' : Store) : Prop where
  isRow : job.id = row.id
  phase : job.phase = .canceled
  completed : job.completedAt.isSome = true
  observed : job.observedGeneration = job.generation
  unclaimed : ∀ later clock owner leaseSeconds claimed,
    (claimNext cfg clock owner leaseSeconds (Machine.run (step cfg) s' later)).1 = .ok (some claimed) → claimed.id ≠ row.id

/-- A queued row that the request writes is cancelled at once. -/
theorem cancelledAtOnce_of_moved {clock : Reading} {job : JobRecord} {s' : Store} (hs : WellFormed s) (hs' : WellFormed s')
    (hrow : row ∈ s.jobs) (hqueued : row.phase = .queued) (hread : rowToJob (cancelRequestedRow clock.now row row) = .ok job)
    (hmoved : Moved cfg (cancelMove clock.now row) s s') : CancelledAtOnce cfg row job s' := by
  have hjob : job.toJobRow = cancelRequestedRow clock.now row row := rowToJob_eq hread
  have hphase : (cancelRequestedRow clock.now row row).phase = .canceled := if_pos hqueued
  have hrows : RowsOf row.id (fun r => r.phase ≠ .queued) s' := by
    refine ⟨?_, fun r hr hid => ?_⟩
    · rw [hmoved.drawn]
      exact (hs.jobDrawn row hrow).trans_le (Nat.le_add_right _ _)
    · rw [hmoved.jobs, mem_replaceJob] at hr
      rcases hr with ⟨-, hne⟩ | ⟨rfl, -⟩
      · exact absurd hid hne
      · intro hq
        exact absurd (hphase.symm.trans hq) (by decide)
  refine ⟨?_, ?_, ?_, ?_, fun later clock owner leaseSeconds claimed => not_claimed_after hs' hrows later clock owner leaseSeconds⟩
  · rw [hjob]
    rfl
  · rw [hjob, hphase]
  · rw [hjob]
    simp [cancelRequestedRow, hqueued]
  · rw [hjob]
    exact if_pos hqueued

/-- In every store that can be reached, a request to cancel a queued job cancels it at once, and for good, exactly when the job was
not submitted with that intent, the endpoint it names, if any, has no surrogate, and the rows have the room for what the request writes. -/
theorem queued_cancel_immediate (cfg : StoreConfig) (inputs : List (StoreCall × Reading)) (clock : Reading) (row : JobRow)
    (tenant : Option String) (hrow : row ∈ (Machine.run (step cfg) (create cfg 0) inputs).jobs) (hqueued : row.phase = .queued)
    (htenant : ∀ t ∈ tenant, row.tenantId = t) :
    let s := Machine.run (step cfg) (create cfg 0) inputs
    (∃ job s', requestCancel cfg clock row.id tenant s = (.ok job, s') ∧ CancelledAtOnce cfg row job s') ↔
      row.cancelled = false ∧ row.Notifiable ∧ Fits cfg (growth cfg (s.cancelMoves clock row.id tenant) s) s := by
  intro s
  have hreachable : Reachable cfg s := ⟨inputs, rfl⟩
  have hs : Sound cfg s := hreachable.sound
  have hfound : s.selectJob row.id tenant = .ok row := selectJob_of_mem hs.wellFormed hrow htenant
  have hlimit := requestCancel_fits clock row.id tenant hs hreachable.exact
  have hmoves (hactive : (row.phase.terminal || row.cancelled) = false) : s.cancelMoves clock row.id tenant =
    [cancelMove clock.now row] := by
    unfold cancelMoves
    rw [hfound]
    exact if_neg (by rw [hactive]; exact Bool.false_ne_true)
  constructor
  · rintro ⟨job, s', hreturned, hcancelled⟩
    have hintent : row.cancelled = false := by
      -- a job with the intent is returned as it is, queued
      by_contra hintent
      rw [Bool.not_eq_false] at hintent
      obtain ⟨spec, hspec⟩ := hs.readable row hrow
      have hsettled := requestCancel_settled cfg clock hfound (by rw [hintent, Bool.or_true]) hspec.rowToJob
      rw [hreturned] at hsettled
      cases hsettled
      exact absurd (hqueued.symm.trans hcancelled.phase) (by decide)
    have hactive : (row.phase.terminal || row.cancelled) = false := by rw [hqueued, hintent]; rfl
    have hnotifiable : row.Notifiable := by
      by_contra hnot
      obtain ⟨endpoint, -, hraised⟩ :=
        (requestCancel_active clock hs hfound (by rw [hactive]; exact Bool.false_ne_true)).2 hqueued hnot
      cases hreturned.symm.trans hraised
    refine ⟨hintent, hnotifiable, hlimit.1 (fun message => by rw [hreturned]; nofun) fun m hm _ => ?_⟩
    rw [hmoves hactive, List.mem_singleton] at hm
    rw [hm]
    exact hnotifiable
  · rintro ⟨hintent, hnotifiable, hfits⟩
    have hactive : (row.phase.terminal || row.cancelled) = false := by rw [hqueued, hintent]; rfl
    rcases requestCancel_writes clock hs hfound hactive with hrefused | ⟨-, hnot, -⟩ | ⟨job, s', hreturned, hread, hmoved⟩
    · exact absurd (congrArg Prod.fst hrefused) (hlimit.2 (fun _ => hfits) _)
    · exact absurd hnotifiable hnot
    · have hs' : WellFormed s' := by
        have hstep : (step cfg s (.requestCancel row.id tenant, clock)) = s' := congrArg Prod.snd hreturned
        exact hstep ▸ hs.wellFormed.step (.requestCancel row.id tenant, clock)
      exact ⟨job, s', hreturned, cancelledAtOnce_of_moved hs.wellFormed hs' hrow hqueued hread hmoved⟩

end Store

/-- A job is submitted, and nothing else. -/
def Sample.submission (spec : JobSpec) : List (StoreCall × Reading) := [(.submit "tenant" "key" spec, clockAt 1)]

namespace Store

open Sample in
/-- The sample job is cancelled at once while it waits. -/
theorem queued_cancel_immediate_sample :
    ∃ row ∈ (Machine.run (step Sample.cfg) (create Sample.cfg 0) (submission spec)).jobs, ∃ job s',
      requestCancel Sample.cfg (clockAt 2) row.id (some "tenant") (Machine.run (step Sample.cfg) (create Sample.cfg 0) (submission spec)) =
          (.ok job, s') ∧ CancelledAtOnce Sample.cfg row job s' := by
  have hrow : ∃ row ∈ (Machine.run (step Sample.cfg) (create Sample.cfg 0) (submission spec)).jobs,
      row.phase = .queued ∧ row.tenantId = "tenant" ∧ row.cancelled = false ∧ row.Notifiable ∧ row.id = 1 := by decide +kernel
  obtain ⟨row, hrow, hqueued, htenant, hintent, hnotifiable, hid⟩ := hrow
  refine ⟨row, hrow, ?_⟩
  refine (queued_cancel_immediate Sample.cfg (submission spec) (clockAt 2) row (some "tenant") hrow hqueued ?_).2
    ⟨hintent, hnotifiable, ?_⟩
  · rintro t ⟨⟩
    exact htenant
  · left
    rw [hid]
    decide +kernel

open Sample in
/-- A job submitted with the intent to cancel is queued, and the request to cancel it returns it queued. -/
theorem queued_with_intent_claimed :
    ¬∀ (cfg : StoreConfig) (inputs : List (StoreCall × Reading)) (clock : Reading) (row : JobRow),
      row ∈ (Machine.run (step cfg) (create cfg 0) inputs).jobs → row.phase = .queued →
        ∃ job s', requestCancel cfg clock row.id none (Machine.run (step cfg) (create cfg 0) inputs) = (.ok job, s') ∧
          CancelledAtOnce cfg row job s' := by
  intro h
  have hrow : ∃ row ∈ (Machine.run (step Sample.cfg) (create Sample.cfg 0) (submission cancelledSpec)).jobs,
      row.phase = .queued ∧ ((requestCancel Sample.cfg (clockAt 2) row.id none
        (Machine.run (step Sample.cfg) (create Sample.cfg 0) (submission cancelledSpec))).1.toOption.all
          fun job => job.phase ≠ .canceled) = true := by decide +kernel
  obtain ⟨row, hrow, hqueued, hreturned⟩ := hrow
  obtain ⟨job, s', hcancel, hcancelled⟩ := h Sample.cfg (submission cancelledSpec) (clockAt 2) row hrow hqueued
  rw [hcancel] at hreturned
  simp [Except.toOption, hcancelled.phase] at hreturned

end Store

end SharkRail
