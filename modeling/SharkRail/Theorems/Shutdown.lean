import SharkRail.Theorems.Signals

/-!
# Requests and shutdowns

A job ends in `canceled` because somebody asked for it: every path to that phase reads the intent from the store, but for one. A
shutdown cancels a running session the way a request does, and its result does not say who asked. As long as no shutdown meets a live
session of a job that nobody asked to cancel, `canceled` means a request, and an attempt that only a shutdown interrupted ends in
`executor_lost`.
-/

namespace SharkRail

namespace Store

variable {cfg : StoreConfig} {clock : Reading} {s : Store} {jobId : Uuid}

/-- A `request_cancel` that returns the job with the intent leaves its rows with it. -/
theorem intended_of_returned (hs : WellFormed s) (hr : Readable s) {tenantId : Option String} {job : JobRecord}
    (h : (requestCancel cfg clock jobId tenantId s).1 = .ok job) (hcancelled : job.isCancelled = true) :
    Intended jobId (requestCancel cfg clock jobId tenantId s).2 := by
  have hsame : ∀ row ∈ s.jobs, ∀ r ∈ s.jobs, r.id = row.id → r = row := fun row hrow r hr =>
    Table.eq_of_key JobRow.id hs.jobIds hr hrow
  rcases requestCancel_cases cfg clock hs jobId tenantId with ⟨e, he⟩ | ⟨row, hrow, rfl, -, he⟩ |
    ⟨row, hrow, rfl, -, -, hchange, hjobs⟩
  · rw [he] at h
    cases h
  · rw [he] at h ⊢
    obtain ⟨job', hjob', hintent⟩ := isCancelled_of_rowToJob hr hrow
    cases h.symm.trans hjob'
    refine ⟨hs.jobDrawn row hrow, fun r hr hid => ?_⟩
    rw [hsame row hrow r hr hid]
    exact hintent.symm.trans hcancelled
  · obtain ⟨spec, hholds⟩ := hr row hrow
    have hrequested : (cancelRequestedRow clock.now row row).Holds (JobRow.cancelledSpec spec) := hholds.cancel rfl
    refine ⟨(hs.jobDrawn row hrow).trans_le hchange.drawn_le, fun r hr hid => ?_⟩
    rw [hjobs, mem_replaceJob] at hr
    rcases hr with ⟨-, hne⟩ | ⟨rfl, -⟩
    · exact absurd hid hne
    · exact hrequested.cancelled_of_cancelledSpec

/-- A row of a job that was claimed. If it is terminal, and nobody asked to cancel it, its executor was lost. -/
structure LostRow (r : JobRow) : Prop where
  claimed : r.phase ≠ .queued
  lost : r.phase.terminal = true → r.phase = .executorLost ∨ r.cancelled = true

/-- A row moved is lost if it ends, unless its attempt reports another phase. -/
theorem RowStep.lost {drawn : Uuid} {call : StoreCall} {row row' : JobRow} {kind : Option String} {notes : List OutboxRow}
    (h : RowStep drawn clock row call row' kind notes) (hrow : LostRow row)
    (hreport : ∀ attemptId owner report, call = .finish row.id attemptId owner report →
      report.phase = .executorLost ∨ row.cancelled = true) : LostRow row' := by
  refine ⟨h.not_queued hrow.claimed, ?_⟩
  cases h with
  | assigned | running => exact nofun
  | renewed => exact hrow.lost
  | finished attemptId owner report =>
    intro _
    change settledPhase row.cancelled report.phase = .executorLost ∨ row.cancelled = true
    rcases hreport attemptId owner report rfl with hphase | hcancelled
    · cases hcancelled : row.cancelled with
      | true => exact Or.inr rfl
      | false => exact Or.inl (by simp [settledPhase, hphase])
    · exact Or.inr hcancelled
  | cancelRequested _ _ hphase =>
    intro hterminal
    have hsame : (cancelRequestedRow clock.now row row).phase = row.phase := if_neg hrow.claimed
    rw [hsame, JobPhase.terminal_of_held hphase] at hterminal
    cases hterminal
  | cancelled _ _ hphase => exact absurd hphase hrow.claimed
  | interrupted | leaseExpired =>
    intro _
    change lostPhase row.cancelled = .executorLost ∨ row.cancelled = true
    cases row.cancelled <;> simp [lostPhase]

/-- Every canceled row has the intent to cancel. -/
def CanceledAsked (s : Store) : Prop := ∀ r ∈ s.jobs, r.phase = .canceled → r.cancelled = true

/-- A row moved that is canceled has the intent, if a report that its attempt was cancelled says so for a reason. -/
theorem RowStep.canceled {drawn : Uuid} {call : StoreCall} {row row' : JobRow} {kind : Option String} {notes : List OutboxRow}
    {spec : JobSpec} (h : RowStep drawn clock row call row' kind notes) (hholds : row.Holds spec)
    (hrow : row.phase = .canceled → row.cancelled = true)
    (hreport : ∀ attemptId owner report, call = .finish row.id attemptId owner report → report.phase = .canceled →
      row.cancelled = true) (hphase : row'.phase = .canceled) : row'.cancelled = true := by
  cases h with
  | assigned | running => cases hphase
  | renewed => exact hrow hphase
  | finished attemptId owner report =>
    change settledPhase row.cancelled report.phase = .canceled at hphase
    change row.cancelled = true
    cases hcancelled : row.cancelled with
    | true => rfl
    | false =>
      rw [hcancelled] at hphase
      exact hcancelled ▸ hreport attemptId owner report rfl hphase
  | cancelRequested | cancelled =>
    have hrequested : (cancelRequestedRow clock.now row row).Holds (JobRow.cancelledSpec spec) := hholds.cancel rfl
    exact hrequested.cancelled_of_cancelledSpec
  | interrupted | leaseExpired =>
    change lostPhase row.cancelled = .canceled at hphase
    change row.cancelled = true
    cases hcancelled : row.cancelled with
    | true => rfl
    | false =>
      rw [hcancelled] at hphase
      cases hphase

/-- A transaction cancels a row that has the intent, unless its attempt reports that it was cancelled. -/
theorem CanceledAsked.step (hs : WellFormed s) (hr : Readable s) (h : CanceledAsked s) (call : StoreCall)
    (hreport : ∀ jobId attemptId owner report, call = .finish jobId attemptId owner report → report.phase = .canceled →
      Intended jobId s) : CanceledAsked (step cfg s (call, clock)) := by
  refine (step_induct (P := fun s' => CanceledAsked s' ∧ Readable s' ∧ ∀ jobId, Intended jobId s → Intended jobId s')
    (call, clock) hs ⟨h, hr, fun _ => id⟩ ?_).1
  rintro s₁ s₂ - ⟨h, hr, hintended⟩ hchange
  refine ⟨fun r hrow hphase => ?_, hr.change hchange, fun jobId hi => ?_⟩
  · rcases hchange.row_from hrow with hrow | ⟨row, hrow, _, _, hmove, -⟩ | ⟨_, _, _, -, -, rfl, -⟩
    · exact h r hrow hphase
    · obtain ⟨spec, hholds⟩ := hr row hrow
      refine hmove.canceled hholds (h row hrow) (fun attemptId owner report hcall hcanceled => ?_) hphase
      exact (hintended row.id (hreport row.id attemptId owner report hcall hcanceled)).2 row hrow rfl
    · cases hphase
  · exact RowsOf.change (hintended jobId hi) (fun _ _ _ _ hrow hmove => hmove.keeps_intent hrow) hchange

end Store

/-! ## Where a cancellation comes from -/

/-- A call that only a job with the intent to cancel gives rise to. -/
def Pc.asks : Pc → Prop
  | .markRunning cancelRequested | .signal cancelRequested | .cancelling cancelRequested => cancelRequested = true
  | .writing result => result.reason = .cancelled
  | .settling _ report _ => report.phase = .canceled
  | _ => False

/-- A session that was cancelled, or whose result says so. -/
def Session.Cancelled (session : Session) : Prop :=
  session.completionReason = some .cancelled ∨ ∃ result ∈ session.result, result.reason = .cancelled

namespace Service

variable {cfg : ServiceConfig} {s s' : Service} {e e' : Execution} {input : ServiceInput}

/-- Something about an execution says that its job was asked to cancel: a signal or a callback of a request, its session, or where it
stands. -/
def Asks (s : Service) (e : Execution) : Prop :=
  (∃ signal ∈ s.signals, signal.target = e.attempt ∧ signal.origin = .request) ∨
    Callback.cancelSession .request ∈ e.callbacks ∨ (∃ session ∈ e.session, session.Cancelled) ∨ e.pc.asks

/-- A shutdown spares the live sessions of the jobs that nobody asked to cancel: a step that cancels a live session for it is about a
job with the intent. -/
def SparesSessions (s : Service) : ServiceInput → Prop
  | .callback attempt =>
    ∀ e ∈ s.executions, e.attempt = attempt → e.pc.loopRuns = true → e.callbacks.head? = some (.cancelSession .shutdown) →
      e.session.any (·.cancellable) = true → ∀ row ∈ s.store.jobs, row.id = e.job.id → row.cancelled = true
  | .execute attempt _ .none =>
    ∀ e ∈ s.executions, e.attempt = attempt → e.pc = .cancelling false → e.session.any (·.cancellable) = true →
      ∀ row ∈ s.store.jobs, row.id = e.job.id → row.cancelled = true
  | _ => True

/-- Whether a shutdown spares the sessions is decided at each step. -/
instance decidableSparesSessions (s : Service) : (input : ServiceInput) → Decidable (SparesSessions s input)
  | .callback attempt =>
    inferInstanceAs (Decidable (∀ e ∈ s.executions, e.attempt = attempt → e.pc.loopRuns = true →
      e.callbacks.head? = some (.cancelSession .shutdown) → e.session.any (·.cancellable) = true →
        ∀ row ∈ s.store.jobs, row.id = e.job.id → row.cancelled = true))
  | .execute attempt _ .none =>
    inferInstanceAs (Decidable (∀ e ∈ s.executions, e.attempt = attempt → e.pc = .cancelling false →
      e.session.any (·.cancellable) = true → ∀ row ∈ s.store.jobs, row.id = e.job.id → row.cancelled = true))
  | .execute _ _ (.before _) | .execute _ _ (.after _) | .execute _ _ (.torn ..) | .store .. | .claim .. | .monitor .. | .cancel ..
  | .signal _ | .close | .snapshot | .finalize | .prune .. | .crash _ | .open .. | .start _ => .isTrue trivial

end Service

namespace Session

variable {session session' : Session}

/-- `SessionManager.cancel` leaves the session, or takes effect on a live one. -/
theorem cancel_cases (h : session.cancel = .ok session') :
    session' = session ∨ (session.cancellable = true ∧ session'.result = session.result) := by
  unfold cancel at h
  split at h
  · cases h
    exact Or.inl rfl
  · rename_i hsteps
    split at h
    · rename_i hlive
      cases h
      refine Or.inr ⟨?_, rfl⟩
      simp only [Bool.or_eq_true, not_or] at hsteps
      simp [cancellable, hlive, hsteps.1.1]
    · cases h

/-- A result gives `cancelled` as its reason where the session was cancelled. -/
theorem completionReason_of_resultReason {returncode : Option Int} {error : Option MonitorError}
    (h : session.resultReason returncode error = .cancelled) : session.completionReason = some .cancelled := by
  unfold resultReason at h
  split at h
  · split at h <;> cases h
  · cases hreason : session.completionReason with
    | none =>
      rw [hreason, Option.getD_none] at h
      split at h <;> cases h
    | some reason =>
      rw [hreason, Option.getD_some] at h
      rw [h]

/-- The monitor does not cancel a session. -/
theorem Cancelled.of_monitor {event : MonitorEvent} (h : (session.monitor event).Cancelled) : session.Cancelled := by
  unfold monitor at h
  split at h
  · split at h
    · rcases h with h | h
      · cases ‹Bool› <;> cases h
      · exact Or.inr h
    · exact h
  · split at h
    · exact h
    · exact h
  · dsimp only at h
    split at h
    · exact h
    · rcases h with h | ⟨result, hresult, hreason⟩
      · exact Or.inl h
      · rw [Option.mem_some_iff] at hresult
        subst hresult
        exact Or.inl (completionReason_of_resultReason hreason)

end Session

namespace Service

variable {cfg : ServiceConfig} {s s' : Service} {e e' : Execution} {input : ServiceInput}

/-- An execution that leaves its handler asks for nothing. -/
theorem leave_not_asks (e : Execution) : ¬e.leave.pc.asks := by
  unfold Execution.leave
  dsimp only
  split <;> exact id

/-- An execution that handles an exception asks for nothing. -/
theorem handle_not_asks (e : Execution) (x : Exc) : ¬(e.handle x).pc.asks := by
  cases x with
  | cancelledError => exact id
  | error => exact JobPhase.noConfusion

/-- An execution that has settled asks for nothing. -/
theorem proceed_not_asks {settling : Settling} {report : Store.Report} {n : Nat} (h : e.pc = .settling settling report n) :
    ¬(e.proceed .unit).pc.asks := by
  cases settling with
  | result => simp [Execution.proceed, h, Pc.asks]
  | early | handler =>
    simp only [Execution.proceed, h]
    exact leave_not_asks _

/-- A retry reports what the first call reported. -/
theorem asks_of_fail {settling : Settling} {report : Store.Report} {n : Nat} (h : e.pc = .settling settling report n) (x : Exc)
    (hasks : (e.fail x).pc.asks) : e.pc.asks := by
  rw [h]
  cases settling with
  | early => simp [Execution.fail, h, Execution.raised, Pc.asks] at hasks
  | result =>
    simp only [Execution.fail, h] at hasks
    split at hasks
    · exact hasks
    · exact hasks.elim
  | handler =>
    simp only [Execution.fail, h] at hasks
    split at hasks
    · exact hasks
    · exact (leave_not_asks e hasks).elim

/-- A job that was read as cancelled was asked to be. -/
theorem intended_of_get (hs : Sound s) (hr : Store.Readable s.store) {jobId : Uuid} {job : JobRecord}
    (hget : s.store.get jobId none = .ok job) (hcancelled : job.isCancelled = true) : Store.Intended jobId s.store := by
  obtain ⟨row, hrow, hid, hsame⟩ := Store.isCancelled_of_get hr hget
  exact Store.intended_of_asked hs.wellFormed ⟨row, hrow, hid, hsame.symm.trans hcancelled⟩

/-- Only a cancelled result makes the phase canceled. -/
theorem cancelled_of_phaseForResult {reason : CompletionReason} {exitCode : Int} (h : phaseForResult reason exitCode = .canceled) :
    reason = .cancelled := by
  unfold phaseForResult at h
  split at h
  · cases h
  · split at h
    · cases h
    · split at h
      · assumption
      · cases h

/-- What an execution says of a request after a call, it said before, or the store says. -/
theorem Advances.asks {clock : Reading} {fault : Fault} (hs : Sound s) (hr : Store.Readable s.store) (he : e ∈ s.executions)
    (hspares : SparesSessions s (.execute e.attempt clock fault)) (h : Advances cfg clock fault e s e' s')
    (hasks : (∃ session ∈ e'.session, session.Cancelled) ∨ e'.pc.asks) : Asks s e ∨ Store.Intended e.job.id s.store := by
  have hsession : (∃ session ∈ e.session, session.Cancelled) → Asks s e ∨ Store.Intended e.job.id s.store :=
    fun h => Or.inl (Or.inr (Or.inr (Or.inl h)))
  have hpc : e.pc.asks → Asks s e ∨ Store.Intended e.job.id s.store := fun h => Or.inl (Or.inr (Or.inr (Or.inr h)))
  cases h with
  | asked job _ hget hcancelled => exact Or.inr (intended_of_get hs hr hget hcancelled)
  | stopped => exact hasks.elim hsession JobPhase.noConfusion
  | started => 
    rcases hasks with ⟨session, hmem, hcancelled⟩ | hasks
    · cases hmem
      rcases hcancelled with h | ⟨_, h, -⟩ <;> cases h
    · exact hasks.elim
  | rechecked job _ hget => exact hasks.elim hsession fun hcancelled => Or.inr (intended_of_get hs hr hget hcancelled)
  | marked c hpc' | signalled c hpc' => exact hasks.elim hsession fun hc => hpc (by rw [hpc']; exact hc)
  | cancelled c session session' hpc' hfault hold hcancel =>
    rcases hasks with ⟨_, hmem, hcancelled⟩ | hasks
    · cases hmem
      cases hc : c with
      | true => exact hpc (by rw [hpc']; exact hc)
      | false =>
        rcases Session.cancel_cases hcancel with rfl | ⟨hcancellable, -⟩
        · exact hsession ⟨session', hold, hcancelled⟩
        · subst hc hfault
          exact Or.inr ⟨(hs.claimed e he).1, hspares e he rfl hpc' (by rw [hold]; exact hcancellable)⟩
    · exact hasks.elim
  | waited session result _ hold hresult =>
    exact hasks.elim hsession fun hreason => hsession ⟨session, hold, Or.inr ⟨result, hresult, hreason⟩⟩
  | wrote result _ _ hpc' =>
    exact hasks.elim hsession fun hphase => hpc (by rw [hpc']; exact cancelled_of_phaseForResult hphase)
  | settled _ _ _ _ hpc' =>
    rw [(Execution.sameSignals_proceed_settling hpc').session] at hasks
    exact hasks.elim hsession fun h => (proceed_not_asks hpc' h).elim
  | failed _ _ _ _ hpc' | unsettled _ _ _ _ hpc' | unheard _ _ _ _ hpc' =>
    rw [(Execution.sameSignals_fail_settling hpc' _).session] at hasks
    exact hasks.elim hsession fun h => hpc (asks_of_fail hpc' _ h)
  | disposed | intentUnread => exact hasks.elim hsession fun h => (leave_not_asks e h).elim
  | nothingToDiscard x =>
    rw [(Execution.sameSignals_handle e x).session] at hasks
    exact hasks.elim hsession fun h => (handle_not_asks e x h).elim
  | discarded x _ _ _ _ _ he' =>
    rcases he' with rfl | rfl
    · rw [(Execution.sameSignals_handle e x).session] at hasks
      exact hasks.elim hsession fun h => (handle_not_asks e x h).elim
    · exact hasks.elim hsession fun h => (leave_not_asks e h).elim
  | intentRead job _ hget =>
    refine hasks.elim hsession fun hphase => Or.inr (intended_of_get hs hr hget ?_)
    cases hcancelled : job.isCancelled with
    | true => rfl
    | false =>
      rw [hcancelled] at hphase
      cases hphase
  | _ => exact hasks.elim hsession False.elim

/-- A signal is sent to an execution of the process, and one of a request to one whose job has the intent to cancel. -/
def Sincere (s : Service) (signal : Signal) : Prop :=
  ∃ e ∈ s.executions, e.attempt = signal.target ∧ (signal.origin = .request → Store.Intended e.job.id s.store)

/-- What holds as long as shutdowns spare the sessions nobody asked to cancel: an execution that speaks of a request is of a job with
the intent to cancel. -/
structure Honest (s : Service) : Prop where
  executions : ∀ e ∈ s.executions, Asks s e → Store.Intended e.job.id s.store
  signals : ∀ signal ∈ s.signals, Sincere s signal
  rows : Store.CanceledAsked s.store

/-- A cancellation that was asked for stays so. -/
theorem intended_step (hs : Sound s) {jobId : Uuid} (h : Store.Intended jobId s.store) (input : ServiceInput) :
    Store.Intended jobId (step cfg s input).store :=
  store_induct (P := Store.Intended jobId) cfg s input h fun _ _ _ => h.step hs.wellFormed _

/-- A cancellation that was asked for stays so after every run. -/
theorem intended_run (hs : Sound s) {jobId : Uuid} (h : Store.Intended jobId s.store) (inputs : List ServiceInput) :
    Store.Intended jobId (Machine.run (step cfg) s inputs).store := by
  have hstep : ∀ s input, (Sound s ∧ Store.Intended jobId s.store) → Sound (step cfg s input) ∧
    Store.Intended jobId (step cfg s input).store :=
    fun _ input h => ⟨h.1.step input, intended_step h.1 h.2 input⟩
  exact (Machine.run_induct hstep ⟨hs, h⟩ inputs).2

/-- An execution is there after a step, unless the process ended, and its signals with it. -/
theorem Sound.survives (cfg : ServiceConfig) (hs : Sound s) (he : e ∈ s.executions) (input : ServiceInput) :
    (Service.step cfg s input).signals = [] ∨ ∃ e' ∈ (Service.step cfg s input).executions, Execution.SameRun e e' := by
  cases hs.executes cfg input with
  | moved f hmoved hexecutions =>
    right
    rw [hexecutions]
    exact ⟨f e, List.mem_map_of_mem he, (hmoved e he).sameRun⟩
  | crashed tear hinput =>
    left
    rw [hinput]
    rfl
  | claimed _ _ _ _ _ _ _ _ _ _ _ _ hexecutions =>
    right
    rw [hexecutions]
    exact ⟨e, List.mem_append_left _ he, rfl, rfl⟩

/-- The signals after a step: those before it, and those to the runs that a request or a snapshot finds. -/
theorem Sound.signals_from (hs : Sound s) (hl : Linked s) (hr : Store.Readable s.store) (input : ServiceInput) {signal : Signal}
    (hsignal : signal ∈ (Service.step cfg s input).signals) : signal ∈ s.signals ∨ Sincere (Service.step cfg s input) signal := by
  have hstep := hs.serviceStep cfg input
  generalize Service.step cfg s input = s' at hstep hsignal
  cases hstep with
  | requested jobId tenantId clock job _ hrequest hcancelled =>
    rcases List.mem_append.1 hsignal with hsignal | hsignal
    · exact Or.inl hsignal
    · right
      simp only [Option.mem_toList, Option.map_eq_some_iff] at hsignal
      obtain ⟨target, hactive, rfl⟩ := hsignal
      obtain ⟨e, he, hjob, hattempt⟩ := hl.owner jobId target hactive
      refine ⟨e, he, hattempt, fun _ => ?_⟩
      rw [hjob]
      exact Store.intended_of_returned hs.wellFormed hr hrequest hcancelled
  | snapshot =>
    rcases List.mem_append.1 hsignal with hsignal | hsignal
    · exact Or.inl hsignal
    · right
      obtain ⟨run, hrun, rfl⟩ := List.mem_map.1 hsignal
      obtain ⟨e, he, -, hattempt⟩ := hl.owner run.1 run.2 (AList.mem_lookup_iff.2 hrun)
      exact ⟨e, he, hattempt, nofun⟩
  | crashed tear => cases hsignal
  | advanced e e' s' clock fault he hadvances =>
    obtain ⟨-, hsignals, -⟩ := hadvances.frame
    exact Or.inl (hsignals ▸ hsignal)
  | pruned index fault pruner =>
    obtain ⟨store, output, h⟩ := pruneStep_touches cfg fault pruner s
    rw [h] at hsignal
    exact Or.inl hsignal
  | opened workerId torn =>
    unfold openStores at hsignal
    cases torn <;> exact Or.inl hsignal
  | sent index _ _ | dropped index => exact Or.inl (List.mem_of_mem_eraseIdx hsignal)
  | skipped | called | claimed | calledBack | monitored | unrequested | closed | finalizing | started => exact Or.inl hsignal

/-- Every signal of a step is for a job whose cancellation was asked for, or of the shutdown. -/
theorem Honest.signals_step (cfg : ServiceConfig) (hs : Sound s) (hl : Linked s) (hr : Store.Readable s.store) (h : Honest s)
    (input : ServiceInput) :
    ∀ signal ∈ (Service.step cfg s input).signals, Sincere (Service.step cfg s input) signal := by
  intro signal hsignal
  rcases hs.signals_from hl hr input hsignal with hold | hnew
  · obtain ⟨e, he, hattempt, hintended⟩ := h.signals signal hold
    rcases hs.survives cfg he input with hnone | ⟨e', he', hsame⟩
    · rw [hnone] at hsignal
      cases hsignal
    · refine ⟨e', he', hsame.attempt.trans hattempt, fun horigin => ?_⟩
      rw [hsame.job]
      exact intended_step hs (hintended horigin) input
  · exact hnew

/-- A callback that cancels a session for a request is one of a job with the intent; one for a shutdown meets no live session of
another job. -/
theorem asks_callback {c : Callback} {rest : List Callback} (hs : Sound s) (he : e ∈ s.executions)
    (hcallbacks : e.callbacks = c :: rest) (hloop : e.pc.loopRuns = true) (hspares : SparesSessions s (.callback e.attempt))
    (hasks : (∃ session ∈ ({ e with callbacks := rest }.callback c).session, session.Cancelled) ∨
      ({ e with callbacks := rest }.callback c).pc.asks) : Asks s e ∨ Store.Intended e.job.id s.store := by
  rw [(callback_frame _ c).1] at hasks
  rcases hasks with ⟨session, hmem, hcancelled⟩ | hasks
  · cases c with
    | cancelStart origin =>
      unfold Execution.callback at hmem
      dsimp only at hmem
      split at hmem <;> exact Or.inl (Or.inr (Or.inr (Or.inl ⟨session, hmem, hcancelled⟩)))
    | cancelSession origin =>
      cases origin with
      | request => exact Or.inl (Or.inr (Or.inl (hcallbacks ▸ List.mem_cons_self)))
      | shutdown =>
        unfold Execution.callback at hmem
        dsimp only at hmem
        split at hmem
        · rename_i held hheld
          split at hmem
          · rename_i session' hcancel
            cases hmem
            rcases Session.cancel_cases hcancel with rfl | ⟨hcancellable, -⟩
            · exact Or.inl (Or.inr (Or.inr (Or.inl ⟨_, hheld, hcancelled⟩)))
            · refine Or.inr ⟨(hs.claimed e he).1, hspares e he rfl hloop (by rw [hcallbacks]; rfl) ?_⟩
              rw [hheld]
              exact hcancellable
          · exact Or.inl (Or.inr (Or.inr (Or.inl ⟨session, hmem, hcancelled⟩)))
        · exact Or.inl (Or.inr (Or.inr (Or.inl ⟨session, hmem, hcancelled⟩)))
  · exact Or.inl (Or.inr (Or.inr (Or.inr hasks)))

/-- A callback that runs is not registered again. -/
theorem callback_callbacks (e : Execution) (c : Callback) : (e.callback c).callbacks = e.callbacks := by
  cases c with
  | cancelStart origin =>
    unfold Execution.callback
    dsimp only
    split <;> rfl
  | cancelSession origin =>
    unfold Execution.callback
    dsimp only
    split
    · split <;> rfl
    · rfl

/-- A callback of a request comes from a signal of one. -/
theorem Moved.callbacks (hs : Sound s) (h : Honest s) (he : e ∈ s.executions) (hmoved : Moved cfg s input e e')
    (hcallback : Callback.cancelSession .request ∈ e'.callbacks) : Store.Intended e.job.id s.store := by
  have hbefore : Callback.cancelSession .request ∈ e.callbacks → Store.Intended e.job.id s.store :=
    fun hmem => h.executions e he (Or.inr (Or.inl hmem))
  cases hmoved with
  | kept | monitored => exact hbefore hcallback
  | executed _ clock fault reply s₁ hcall _ =>
    rw [hcall.advances.callbacks] at hcallback
    exact hbefore hcallback
  | called _ c rest hcallbacks =>
    rw [callback_callbacks] at hcallback
    exact hbefore (hcallbacks ▸ List.mem_cons_of_mem _ hcallback)
  | sent _ index signal hsignal htarget =>
    rw [List.mem_append, List.mem_singleton] at hcallback
    rcases hcallback with hmem | hsent
    · exact hbefore hmem
    · have horigin : signal.origin = .request := by
        split at hsent
        · exact (Callback.cancelSession.inj hsent).symm
        · cases hsent
      obtain ⟨x, hx, hattempt, hintended⟩ := h.signals signal (List.mem_of_getElem? hsignal)
      obtain rfl := Table.eq_of_key Execution.attempt hs.attempts hx he (hattempt.trans htarget)
      exact hintended horigin

/-- The next report of an execution that says its job was cancelled is about a job with the intent. -/
theorem Honest.step (hs : Sound s) (hl : Linked s) (hr : Store.Readable s.store) (h : Honest s) (hspares : SparesSessions s input) :
    Honest (Service.step cfg s input) := by
  have hsignals := h.signals_step cfg hs hl hr input
  refine ⟨fun e' he' hasks => ?_, hsignals, ?_⟩
  · rcases hasks with ⟨signal, hsignal, htarget, horigin⟩ | hasks
    · obtain ⟨x, hx, hattempt, hintended⟩ := hsignals signal hsignal
      obtain rfl := Table.eq_of_key Execution.attempt (hs.step input).attempts hx he' (hattempt.trans htarget)
      exact hintended horigin
    obtain ⟨e, he, hmoved⟩ | ⟨_, _, _, -, -, -, rfl⟩ := hs.execution_from he'
    case inr => rcases hasks with hmem | ⟨_, hmem, -⟩ | hpc <;> first | cases hmem | exact hpc.elim
    have hbefore : Asks s e ∨ Store.Intended e.job.id s.store → Store.Intended e'.job.id (Service.step cfg s input).store := by
      rw [hmoved.sameRun.job]
      rintro (hasked | hintended)
      · exact intended_step hs (h.executions e he hasked) input
      · exact intended_step hs hintended input
    rcases hasks with hcallback | hasks
    · exact hbefore (Or.inr (hmoved.callbacks hs h he hcallback))
    · cases hmoved with
      | kept => exact hbefore (Or.inl (Or.inr (Or.inr hasks)))
      | executed _ clock fault reply s₁ hcall _ => exact hbefore (hcall.advances.asks hs hr he hspares hasks)
      | called _ c rest hcallbacks hloop => exact hbefore (asks_callback hs he hcallbacks hloop hspares hasks)
      | monitored _ event =>
        refine hbefore (Or.inl (Or.inr (Or.inr (hasks.imp_left ?_))))
        rintro ⟨session, hmem, hcancelled⟩
        obtain ⟨held, hheld, rfl⟩ := Option.map_eq_some_iff.1 hmem
        exact ⟨held, hheld, hcancelled.of_monitor⟩
      | sent => exact hbefore (Or.inl (Or.inr (Or.inr hasks)))
  · rcases store_step cfg s input with hstore | ⟨call, clock, heffect, hstore⟩
    · rw [hstore]
      exact h.rows
    · rw [hstore]
      refine h.rows.step hs.wellFormed hr call fun jobId attemptId owner report hcall hphase => ?_
      subst hcall
      cases heffect with
      | shared _ _ hshared => cases hshared
      | settled e settling report n _ _ he hpc =>
        exact h.executions e he (Or.inr (Or.inr (Or.inr (by rw [hpc]; exact hphase))))

end Service

/-! ## How an interrupted attempt ends -/

/-- An execution that a shutdown stopped at its start, on its way to report that. -/
def Execution.OnPath (e : Execution) : Prop :=
  match e.pc with
  | .starting => e.startCancelled = true
  | .discarding x => x = .cancelledError
  | .settling .early report _ | .settling .handler report _ => report.phase = .executorLost ∨ report.phase = .canceled
  | .readIntent | .popping | .shuttingDown | .executionDone | .done => True
  | _ => False

namespace Store

variable {cfg : StoreConfig} {clock : Reading} {s : Store} {jobId : Uuid}

/-- A claim leaves the row of its job assigned. -/
theorem lost_of_claim (hs : WellFormed s) {owner : String} {leaseSeconds : Int} {job : JobRecord}
    (h : (claimNext cfg clock owner leaseSeconds s).1 = .ok (some job)) :
    RowsOf job.id LostRow (claimNext cfg clock owner leaseSeconds s).2 := by
  rcases claimNext_cases cfg clock hs owner leaseSeconds with ⟨e, he⟩ | he | ⟨row, hrow, job', s', hphase, he, hjob, hjobs, hdrawn, -⟩
  · rw [he] at h
    cases h
  · rw [he] at h
    cases h
  · rw [he] at h ⊢
    cases h
    have hid : job.id = row.id := (congrArg JobRow.id hjob).trans rfl
    refine ⟨?_, fun r hr hrid => ?_⟩
    · rw [hid]
      exact (hs.jobDrawn row hrow).trans_le (hdrawn ▸ Nat.le_succ _)
    · change r ∈ s'.jobs at hr
      rw [hjobs, mem_replaceJob] at hr
      rcases hr with ⟨-, hne⟩ | ⟨rfl, -⟩
      · exact absurd (hrid.trans hid) hne
      · exact ⟨JobPhase.noConfusion, nofun⟩

/-- A `finish` that returns leaves the job terminal. -/
theorem terminal_of_finish (hs : WellFormed s) {attemptId : Uuid} {owner : String} {report : Report} {job : JobRecord}
    (h : (finish cfg clock jobId attemptId owner report s).1 = .ok job) :
    RowsOf jobId (fun r => r.phase.terminal = true) (finish cfg clock jobId attemptId owner report s).2 := by
  rcases finish_cases cfg clock hs jobId attemptId owner report with ⟨e, he⟩ | ⟨row, hrow, howned, hterminal, he⟩ |
    ⟨row, hrow, rfl, -, hreport, -, hchange, hjobs⟩
  · rw [he] at h
    cases h
  · rw [he]
    obtain ⟨rfl, -⟩ := ownedBy_iff.1 howned
    refine ⟨hs.jobDrawn row hrow, fun r hr hid => ?_⟩
    rw [Table.eq_of_key JobRow.id hs.jobIds hr hrow hid]
    exact hterminal
  · refine ⟨(hs.jobDrawn row hrow).trans_le hchange.drawn_le, fun r hr hid => ?_⟩
    rw [hjobs, mem_replaceJob] at hr
    rcases hr with ⟨-, hne⟩ | ⟨rfl, -⟩
    · exact absurd hid hne
    · change (settledPhase row.cancelled report.phase).terminal = true
      cases row.cancelled
      · exact hreport
      · rfl

end Store

namespace Service

variable {cfg : ServiceConfig} {s s' : Service} {e e' : Execution} {input : ServiceInput}

/-- The call an execution makes of its own job is no other's. -/
theorem Sound.of_job (hs : Sound s) {x : Execution} (hx : x ∈ s.executions) (he : e ∈ s.executions) (hjob : x.job.id = e.job.id) :
    x = e := Table.eq_of_key (fun e : Execution => e.job.id) hs.jobs hx he hjob

/-- A row that is lost stays so, unless an execution of its job reports another phase. -/
theorem lost_step {jobId : Uuid} (hs : Sound s) (h : Store.RowsOf jobId Store.LostRow s.store) (input : ServiceInput)
    (hreport : ∀ e ∈ s.executions, e.job.id = jobId → ∀ settling report n, e.pc = .settling settling report n →
      report.phase = .executorLost ∨ Store.Intended jobId s.store) :
    Store.RowsOf jobId Store.LostRow (step cfg s input).store := by
  have hfinish : ∀ call clock, StoreEffect s input call clock → ∀ attemptId owner report,
      call = .finish jobId attemptId owner report → report.phase = .executorLost ∨ Store.Intended jobId s.store := by
    intro call clock heffect attemptId owner report hcall
    cases heffect with
    | settled x settling report' n _ _ hx hpc =>
      obtain ⟨hjob, -, -, hsame⟩ := StoreCall.finish.inj hcall
      exact hsame ▸ hreport x hx hjob settling report' n hpc
    | shared _ _ hshared =>
      subst hcall
      cases hshared
    | _ => cases hcall
  by_cases hintended : Store.Intended jobId s.store
  · have hboth : Store.RowsOf jobId (fun r => Store.LostRow r ∧ r.cancelled = true) s.store :=
      ⟨h.1, fun r hr hid => ⟨h.2 r hr hid, hintended.2 r hr hid⟩⟩
    have hboth' := store_induct (P := Store.RowsOf jobId fun r => Store.LostRow r ∧ r.cancelled = true) cfg s input hboth
      fun call clock _ => hboth.step_row hs.wellFormed fun _ _ _ _ _ _ hrow hmove =>
        ⟨hmove.lost hrow.1 fun _ _ _ _ => Or.inr hrow.2, hmove.keeps_intent hrow.2⟩
    exact ⟨hboth'.1, fun r hr hid => (hboth'.2 r hr hid).1⟩
  · refine store_induct (P := Store.RowsOf jobId Store.LostRow) cfg s input h fun call clock heffect =>
      h.step_row hs.wellFormed fun _ _ _ _ _ hid hrow hmove => hmove.lost hrow fun attemptId owner report hcall => ?_
    exact Or.inl ((hfinish call clock heffect attemptId owner report (hid ▸ hcall)).resolve_right hintended)

/-- A terminal job stays terminal once its execution is past its start. -/
theorem terminal_step (hs : Sound s) (he : e ∈ s.executions) (hpast : e.pc.past = true)
    (h : Store.RowsOf e.job.id (fun r => r.phase.terminal = true) s.store) (input : ServiceInput) :
    Store.RowsOf e.job.id (fun r => r.phase.terminal = true) (step cfg s input).store := by
  refine store_induct (P := Store.RowsOf e.job.id fun r => r.phase.terminal = true) cfg s input h fun call clock heffect =>
    h.step_row hs.wellFormed fun _ row row' _ _ hid hrow hmove => ?_
  obtain ⟨attemptId, owner, hcall, -⟩ := hmove.terminal hrow
  rw [hid] at hcall
  subst hcall
  generalize hjob : e.job.id = jobId at heffect
  cases heffect with
  | shared _ _ hshared => cases hshared
  | marked x c _ _ hx hpc =>
    obtain rfl := hs.of_job hx he hjob.symm
    rw [hpc] at hpast
    cases hpast

/-- How the attempt of an execution ends: lost, or as its job was asked to, as long as a shutdown is all that stopped it. -/
structure Ends (s : Service) (e : Execution) : Prop where
  unsettled : e.pc.past = false → Store.RowsOf e.job.id Store.LostRow s.store
  interrupted : e.interrupted = true → e.failed = false →
    Store.Intended e.job.id s.store ∨ (e.OnPath ∧ Store.RowsOf e.job.id Store.LostRow s.store)
  persisted : e.persisted = true → e.pc.past = true ∧ Store.RowsOf e.job.id (fun r => r.phase.terminal = true) s.store

/-- An execution that leaves its handler is on the path to its report. -/
theorem onPath_leave (e : Execution) : e.leave.OnPath := by
  cases hregistered : e.registered <;> simp [Execution.OnPath, Execution.leave, hregistered]

/-- An exception on the path that is not a failure is the cancellation of the start. -/
theorem onPath_raised {x : Exc} (h : (e.raised x).failed = false) : (e.raised x).OnPath := by
  change x = .cancelledError
  by_contra hx
  simp [Execution.raised, hx] at h

/-- An execution that has settled is on that path. -/
theorem onPath_proceed {settling : Settling} {report : Store.Report} {n : Nat} (hpc : e.pc = .settling settling report n)
    (h : e.OnPath) : (e.proceed .unit).OnPath := by
  cases settling with
  | result => simp [Execution.OnPath, hpc] at h
  | early | handler =>
    simp only [Execution.proceed, hpc]
    exact onPath_leave _

/-- An execution whose report was refused is on that path where it has not failed. -/
theorem onPath_fail {settling : Settling} {report : Store.Report} {n : Nat} (hpc : e.pc = .settling settling report n) (x : Exc)
    (h : e.OnPath) (hfailed : (e.fail x).failed = false) : (e.fail x).OnPath := by
  cases settling with
  | early =>
    simp only [Execution.fail, hpc] at hfailed ⊢
    exact onPath_raised hfailed
  | result => simp [Execution.OnPath, hpc] at h
  | handler =>
    simp only [Execution.fail, hpc] at hfailed ⊢
    split
    · simpa only [Execution.OnPath, hpc] using h
    · exact onPath_leave e

/-- An execution that handles an exception is on that path. -/
theorem onPath_handle {x : Exc} (hpc : e.pc = .discarding x) (h : e.OnPath) : (e.handle x).OnPath := by
  have hx : x = .cancelledError := by simpa only [Execution.OnPath, hpc] using h
  subst hx
  trivial

/-- What an execution failed at stays failed. -/
theorem Advances.not_failed {clock : Reading} {fault : Fault} (h : Advances cfg clock fault e s e' s') (hfailed : e'.failed = false) :
    e.failed = false := by
  have hraised : ∀ x, (e.raised x).failed = false → e.failed = false := fun x h => by
    simp only [Execution.raised, Bool.or_eq_false_iff] at h
    exact h.1
  have hfail : ∀ settling report n x, e.pc = .settling settling report n → (e.fail x).failed = false → e.failed = false := by
    intro settling report n x hpc h
    cases settling <;> simp only [Execution.fail, hpc] at h
    · exact hraised x h
    · split at h
      · exact h
      · exact hraised x h
    · split at h <;> exact h
  cases h with
  | raised x | unregistered x | unmarked _ x | unwritten _ x => exact hraised x hfailed
  | settled settling _ _ _ hpc =>
    cases settling <;> simp only [Execution.proceed, hpc] at hfailed <;> exact hfailed
  | failed _ _ _ _ hpc | unsettled _ _ _ _ hpc | unheard _ _ _ _ hpc => exact hfail _ _ _ _ hpc hfailed
  | nothingToDiscard x => cases x <;> exact hfailed
  | discarded x _ _ _ _ _ he' =>
    rcases he' with rfl | rfl
    · cases x <;> exact hfailed
    · exact hfailed
  | _ => exact hfailed

/-- An execution that a shutdown stopped goes on to report it; one that is stopped now is at its start, or its live session is
cancelled. -/
theorem Advances.onPath {clock : Reading} {fault : Fault} (h : Advances cfg clock fault e s e' s')
    (hpath : e.interrupted = true → e.failed = false → e.OnPath) (hinterrupted : e'.interrupted = true)
    (hfailed : e'.failed = false) :
    e'.OnPath ∨ (e.pc = .cancelling false ∧ fault = .none ∧ e.session.any (·.cancellable) = true) := by
  have hbefore := h.not_failed hfailed
  have hsame : e'.interrupted = e.interrupted → e.OnPath := fun hsame => hpath (hsame ▸ hinterrupted) hbefore
  cases h with
  | raised x | unregistered x | unmarked _ x | unwritten _ x => exact Or.inl (onPath_raised hfailed)
  | stopped => exact Or.inl (Or.inl rfl)
  | stopRead hpc =>
    left
    rcases Bool.or_eq_true_iff.1 hinterrupted with hold | hstop
    · have := hpath hold hbefore
      simp [Execution.OnPath, hpc] at this
    · exact hstop
  | started hpc hstart =>
    have := hsame rfl
    simp [Execution.OnPath, hpc, hstart] at this
  | cancelled c session session' hpc hfault hsession =>
    rcases Bool.or_eq_true_iff.1 hinterrupted with hold | hnow
    · have := hpath hold hbefore
      simp [Execution.OnPath, hpc] at this
    · right
      obtain ⟨horigin, hcancellable⟩ := Bool.and_eq_true_iff.1 hnow
      refine ⟨?_, hfault, hcancellable⟩
      cases c
      · exact hpc
      · simp at horigin
  | settled _ _ _ _ hpc => exact Or.inl (onPath_proceed hpc (hsame (Execution.sameSignals_proceed_settling hpc).interrupted))
  | failed _ _ _ _ hpc | unsettled _ _ _ _ hpc | unheard _ _ _ _ hpc =>
    exact Or.inl (onPath_fail hpc _ (hsame (Execution.sameSignals_fail_settling hpc _).interrupted) hfailed)
  | nothingToDiscard x hpc => exact Or.inl (onPath_handle hpc (hsame (Execution.sameSignals_handle e x).interrupted))
  | discarded x _ _ _ hpc _ he' =>
    rcases he' with rfl | rfl
    · exact Or.inl (onPath_handle hpc (hsame (Execution.sameSignals_handle e x).interrupted))
    · exact Or.inl (onPath_leave e)
  | disposed | intentUnread => exact Or.inl (onPath_leave e)
  | intentRead job =>
    left
    cases job.isCancelled
    · exact Or.inl rfl
    · exact Or.inr rfl
  | popped | shutDown | ended => exact Or.inl trivial
  | unstopped hpc | asked _ hpc | unasked hpc | created hpc | registered hpc | published hpc | rechecked _ hpc | marked _ hpc
  | signalled _ hpc | unsignalled hpc | waited _ _ hpc | wrote _ _ _ hpc =>
    have := hsame rfl
    simp [Execution.OnPath, hpc] at this

/-- An execution that is past its start stays so. -/
theorem Advances.past {clock : Reading} {fault : Fault} (h : Advances cfg clock fault e s e' s') (hpast : e.pc.past = true) :
    e'.pc.past = true := by
  cases h with
  | settled _ _ _ _ hpc => exact Execution.proceed_settling_past hpc
  | failed _ _ _ _ hpc | unsettled _ _ _ _ hpc | unheard _ _ _ _ hpc => exact Execution.fail_settling_past hpc _
  | disposed | intentUnread => exact Execution.leave_past e
  | nothingToDiscard x => exact Execution.handle_past e x
  | discarded x _ _ _ _ _ he' =>
    rcases he' with rfl | rfl
    · exact Execution.handle_past e x
    · exact Execution.leave_past e
  | raised | stopped | asked | unregistered | unmarked | waited | wrote | unwritten | intentRead | popped | shutDown | ended => rfl
  | unstopped hpc | unasked hpc | created hpc | registered hpc | stopRead hpc | started hpc | published hpc | rechecked _ hpc
  | marked _ hpc | signalled _ hpc | unsignalled hpc | cancelled _ _ _ hpc =>
    rw [hpc] at hpast
    cases hpast

/-- A shutdown stops an execution before its session ends. -/
theorem Advances.interrupts {clock : Reading} {fault : Fault} (h : Advances cfg clock fault e s e' s')
    (hinterrupted : e'.interrupted = true) : e.interrupted = true ∨ e.pc.past = false := by
  cases h with
  | stopped hpc | stopRead hpc | cancelled _ _ _ hpc => exact Or.inr (by rw [hpc]; rfl)
  | settled _ _ _ _ hpc => exact Or.inl ((Execution.sameSignals_proceed_settling hpc).interrupted ▸ hinterrupted)
  | failed _ _ _ _ hpc | unsettled _ _ _ _ hpc | unheard _ _ _ _ hpc =>
    exact Or.inl ((Execution.sameSignals_fail_settling hpc _).interrupted ▸ hinterrupted)
  | nothingToDiscard x => exact Or.inl ((Execution.sameSignals_handle e x).interrupted ▸ hinterrupted)
  | discarded x _ _ _ _ _ he' =>
    rcases he' with rfl | rfl
    · exact Or.inl ((Execution.sameSignals_handle e x).interrupted ▸ hinterrupted)
    · exact Or.inl hinterrupted
  | _ => exact Or.inl hinterrupted

/-- An execution persists its report by a `finish` that returns. -/
theorem Advances.persists {clock : Reading} {fault : Fault} (h : Advances cfg clock fault e s e' s') (hpersisted : e'.persisted = true) :
    e.persisted = true ∨ ((∃ settling report n, e.pc = .settling settling report n) ∧
      ∃ report job, (s.store.finish cfg.store clock e.job.id e.attempt s.workerId report).1 = .ok job ∧
        s'.store = (s.store.finish cfg.store clock e.job.id e.attempt s.workerId report).2) := by
  have hfail : ∀ settling report n x, e.pc = .settling settling report n → (e.fail x).persisted = e.persisted := by
    intro settling report n x hpc
    cases settling <;> simp only [Execution.fail, hpc]
    · rfl
    all_goals split <;> rfl
  cases h with
  | settled settling report n job hpc _ hfinish => exact Or.inr ⟨⟨settling, report, n, hpc⟩, report, job, hfinish, rfl⟩
  | failed _ _ _ _ hpc | unsettled _ _ _ _ hpc | unheard _ _ _ _ hpc => exact Or.inl (hfail _ _ _ _ hpc ▸ hpersisted)
  | nothingToDiscard x => cases x <;> exact Or.inl hpersisted
  | discarded x _ _ _ _ _ he' =>
    rcases he' with rfl | rfl
    · cases x <;> exact Or.inl hpersisted
    · exact Or.inl hpersisted
  | _ => exact Or.inl hpersisted

/-- An execution that a callback stops is at its start, or its live session is cancelled. -/
theorem interrupted_callback {c : Callback} (hinterrupted : (e.callback c).interrupted = true) :
    (e.interrupted = true ∧ (e.callback c).OnPath = e.OnPath) ∨ (e.pc = .starting ∧ (e.callback c).OnPath) ∨
      (c = .cancelSession .shutdown ∧ e.session.any (·.cancellable) = true) := by
  cases c with
  | cancelStart origin =>
    unfold Execution.callback at hinterrupted ⊢
    dsimp only at hinterrupted ⊢
    split
    · rename_i hpc
      refine Or.inr (Or.inl ⟨hpc, ?_⟩)
      simp [Execution.OnPath, hpc]
    · rename_i hpc
      rw [if_neg hpc] at hinterrupted
      exact Or.inl ⟨hinterrupted, rfl⟩
  | cancelSession origin =>
    unfold Execution.callback at hinterrupted ⊢
    dsimp only at hinterrupted ⊢
    cases hsession : e.session with
    | none =>
      simp only [hsession] at hinterrupted
      exact Or.inl ⟨hinterrupted, rfl⟩
    | some session =>
      simp only [hsession] at hinterrupted ⊢
      cases hcancel : session.cancel with
      | error x =>
        simp only [hcancel] at hinterrupted
        exact Or.inl ⟨hinterrupted, rfl⟩
      | ok session' =>
        simp only [hcancel, Execution.cancelSession, Bool.or_eq_true, Bool.and_eq_true, decide_eq_true_eq] at hinterrupted
        rcases hinterrupted with hold | ⟨rfl, hcancellable⟩
        · exact Or.inl ⟨hold, rfl⟩
        · exact Or.inr (Or.inr ⟨rfl, by simpa [hsession] using hcancellable⟩)

/-- A callback changes neither whether the execution failed nor whether its report was persisted. -/
theorem callback_kept (e : Execution) (c : Callback) : (e.callback c).failed = e.failed ∧ (e.callback c).persisted = e.persisted := by
  cases c with
  | cancelStart origin =>
    unfold Execution.callback
    dsimp only
    split <;> exact ⟨rfl, rfl⟩
  | cancelSession origin =>
    unfold Execution.callback
    dsimp only
    split
    · split <;> exact ⟨rfl, rfl⟩
    · exact ⟨rfl, rfl⟩

/-- An execution that is past its start stays so, whatever step is taken. -/
theorem Moved.past (h : Moved cfg s input e e') (hpast : e.pc.past = true) : e'.pc.past = true := by
  cases h with
  | kept | monitored | sent => exact hpast
  | executed _ clock fault reply s₁ hcall _ => exact hcall.advances.past hpast
  | called _ c rest => rwa [(callback_frame _ c).1]

/-- An execution that has not failed after a step had not before it. -/
theorem Moved.not_failed (h : Moved cfg s input e e') (hfailed : e'.failed = false) : e.failed = false := by
  cases h with
  | kept | monitored | sent => exact hfailed
  | executed _ clock fault reply s₁ hcall _ => exact hcall.advances.not_failed hfailed
  | called _ c rest => rwa [(callback_kept _ c).1] at hfailed

/-- An execution that a shutdown stopped was stopped before, or it is in its run. -/
theorem Moved.interrupts (h : Moved cfg s input e e') (hinterrupted : e'.interrupted = true) :
    e.interrupted = true ∨ e.pc.past = false ∨
      (input = .callback e.attempt ∧ e.callbacks.head? = some (.cancelSession .shutdown) ∧ e.pc.loopRuns = true ∧
        e.session.any (·.cancellable) = true) := by
  cases h with
  | kept | monitored | sent => exact Or.inl hinterrupted
  | executed _ clock fault reply s₁ hcall _ => exact (hcall.advances.interrupts hinterrupted).imp_right Or.inl
  | called _ c rest hcallbacks hloop =>
    rcases interrupted_callback hinterrupted with ⟨hold, -⟩ | ⟨hpc, -⟩ | ⟨rfl, hcancellable⟩
    · exact Or.inl hold
    · change e.pc = .starting at hpc
      exact Or.inr (Or.inl (by rw [hpc]; rfl))
    · exact Or.inr (Or.inr ⟨rfl, by rw [hcallbacks]; rfl, hloop, hcancellable⟩)

/-- An execution that a shutdown stopped stays on its path, unless it is its live session that is cancelled. -/
theorem Moved.onPath (hs : Sound s) (he : e ∈ s.executions) (h : Moved cfg s input e e') (hspares : SparesSessions s input)
    (hpath : e.interrupted = true → e.failed = false → e.OnPath) (hinterrupted : e'.interrupted = true)
    (hfailed : e'.failed = false) : e'.OnPath ∨ Store.Intended e.job.id s.store := by
  have hdrawn := (hs.claimed e he).1
  cases h with
  | kept => exact Or.inl (hpath hinterrupted hfailed)
  | monitored | sent => exact Or.inl (hpath hinterrupted hfailed)
  | executed _ clock fault reply s₁ hcall _ =>
    refine (hcall.advances.onPath hpath hinterrupted hfailed).imp_right ?_
    rintro ⟨hpc, rfl, hcancellable⟩
    exact ⟨hdrawn, hspares e he rfl hpc hcancellable⟩
  | called _ c rest hcallbacks hloop =>
    rw [(callback_kept _ c).1] at hfailed
    rcases interrupted_callback hinterrupted with ⟨hold, hsame⟩ | ⟨-, honPath⟩ | ⟨rfl, hcancellable⟩
    · left
      rw [hsame]
      exact hpath hold hfailed
    · exact Or.inl honPath
    · exact Or.inr ⟨hdrawn, hspares e he rfl hloop (by rw [hcallbacks]; rfl) hcancellable⟩

/-- Every execution ends the way it should, step after step. -/
theorem ends_step (hs : Sound s) (hh : Honest s) (hspares : SparesSessions s input) (h : ∀ e ∈ s.executions, Ends s e) :
    ∀ e' ∈ (Service.step cfg s input).executions, Ends (Service.step cfg s input) e' := by
  intro e' he'
  rcases hs.execution_from he' with ⟨e, he, hmoved⟩ | ⟨leaseSeconds, clock, job, rfl, hstarted, hclaim, rfl⟩
  case inr =>
    refine ⟨fun _ => ?_, nofun, nofun⟩
    rw [store_claim hstarted]
    exact Store.lost_of_claim hs.wellFormed hclaim
  have hends := h e he
  have hjob := hmoved.sameRun.job
  refine ⟨fun hpast => ?_, fun hinterrupted hfailed => ?_, fun hpersisted => ?_⟩
  · rw [hjob]
    have hbefore : e.pc.past = false := by
      by_contra hpast'
      rw [hmoved.past (eq_true_of_ne_false hpast')] at hpast
      cases hpast
    refine lost_step hs (hends.unsettled hbefore) input fun x hx hid settling report n hpc => ?_
    rw [← hs.of_job hx he hid, hpc] at hbefore
    cases hbefore
  · rw [hjob]
    by_cases hintended : Store.Intended e.job.id s.store
    · exact Or.inl (intended_step hs hintended input)
    have hpath : e.interrupted = true → e.failed = false → e.OnPath := fun hi hf =>
      ((hends.interrupted hi hf).resolve_left hintended).1
    refine Or.inr ⟨(hmoved.onPath hs he hspares hpath hinterrupted hfailed).resolve_right hintended, ?_⟩
    have hlost : Store.RowsOf e.job.id Store.LostRow s.store ∧ (e.pc.past = false ∨ e.OnPath) := by
      rcases hmoved.interrupts hinterrupted with hold | hbefore | ⟨rfl, hhead, hloop, hcancellable⟩
      · have := (hends.interrupted hold (hmoved.not_failed hfailed)).resolve_left hintended
        exact ⟨this.2, Or.inr this.1⟩
      · exact ⟨hends.unsettled hbefore, Or.inl hbefore⟩
      · exact absurd ⟨(hs.claimed e he).1, hspares e he rfl hloop hhead hcancellable⟩ hintended
    refine lost_step hs hlost.1 input fun x hx hid settling report n hpc => ?_
    obtain rfl := hs.of_job hx he hid
    rcases hlost.2 with hbefore | honPath
    · rw [hpc] at hbefore
      cases hbefore
    · have hphase : report.phase = .executorLost ∨ report.phase = .canceled := by
        cases settling with
        | result => simp [Execution.OnPath, hpc] at honPath
        | early | handler => simpa only [Execution.OnPath, hpc] using honPath
      refine hphase.imp_right fun hcanceled => hh.executions x he (Or.inr (Or.inr (Or.inr ?_)))
      rw [hpc]
      exact hcanceled
  · rw [hjob]
    have hkept : e.persisted = true → e'.pc.past = true ∧
        Store.RowsOf e.job.id (fun r => r.phase.terminal = true) (step cfg s input).store := fun hold =>
      ⟨hmoved.past (hends.persisted hold).1, terminal_step hs he (hends.persisted hold).1 (hends.persisted hold).2 input⟩
    cases hmoved with
    | kept | monitored | sent => exact hkept hpersisted
    | called _ c rest => exact hkept ((callback_kept { e with callbacks := rest } c).2 ▸ hpersisted)
    | executed _ clock fault reply s₁ hcall hnext =>
      rcases hcall.advances.persists hpersisted with hold | ⟨⟨settling, report, n, hpc⟩, report', job, hfinish, hstore⟩
      · exact hkept hold
      · refine ⟨hcall.advances.past (by rw [hpc]; rfl), ?_⟩
        rw [hnext]
        change Store.RowsOf e.job.id _ s₁.store
        rw [hstore]
        exact Store.terminal_of_finish hs.wellFormed hfinish

/-- The attempt of a claimed job is over: no execution of it is left that makes a call. -/
def Over (jobId : Uuid) (s : Service) : Prop := ∀ e ∈ s.executions, e.job.id = jobId → e.pc = .done

/-- A job whose attempt is over has no other, and its row stays lost. -/
theorem over_step {jobId : Uuid} (hs : Sound s) (hover : Over jobId s) (hlost : Store.RowsOf jobId Store.LostRow s.store)
    (input : ServiceInput) :
    Over jobId (Service.step cfg s input) ∧ Store.RowsOf jobId Store.LostRow (Service.step cfg s input).store := by
  refine ⟨fun e' he' hjob => ?_, lost_step hs hlost input fun e he hjob settling report n hpc => ?_⟩
  · cases hs.executes cfg input with
    | moved f hmoved hexecutions =>
      rw [hexecutions, List.mem_map] at he'
      obtain ⟨e, he, rfl⟩ := he'
      have hmoved := hmoved e he
      have hdone := hover e he (hmoved.sameRun.job ▸ hjob)
      generalize f e = e' at hmoved
      cases hmoved with
      | kept | monitored | sent => exact hdone
      | executed _ clock fault reply s₁ hcall _ => exact absurd hdone hcall.advances.not_done
      | called _ c rest => exact (callback_frame _ c).1.trans hdone
    | crashed tear _ hexecutions =>
      rw [hexecutions] at he'
      cases he'
    | claimed leaseSeconds clock row job hinput hstarted hrow hphase hid hclaim hjobs hdrawn hexecutions =>
      rw [hexecutions, List.mem_append, List.mem_singleton] at he'
      rcases he' with he' | rfl
      · exact hover e' he' hjob
      · exact absurd hphase (hlost.2 row hrow (hid.symm.trans hjob)).claimed
  · cases (hover e he hjob).symm.trans hpc

/-- A lost job whose attempts are over stays lost in every run. -/
theorem over_run {jobId : Uuid} (hs : Sound s) (hover : Over jobId s) (hlost : Store.RowsOf jobId Store.LostRow s.store)
    (inputs : List ServiceInput) : Store.RowsOf jobId Store.LostRow (Machine.run (Service.step cfg) s inputs).store := by
  have hstep : ∀ s input, (Sound s ∧ Over jobId s ∧ Store.RowsOf jobId Store.LostRow s.store) → Sound (Service.step cfg s input) ∧
      Over jobId (Service.step cfg s input) ∧ Store.RowsOf jobId Store.LostRow (Service.step cfg s input).store :=
    fun s input h => ⟨h.1.step input, over_step h.1 h.2.1 h.2.2 input⟩
  exact (Machine.run_induct hstep ⟨hs, hover, hlost⟩ inputs).2.2

/-- What holds of a run in which every shutdown spares the sessions nobody asked to cancel. -/
theorem honest_run {inputs : List ServiceInput} (hg : Machine.Guarded (step cfg) SparesSessions (create cfg) inputs) :
    Honest (Machine.run (step cfg) (create cfg) inputs) ∧
      ∀ e ∈ (Machine.run (step cfg) (create cfg) inputs).executions, Ends (Machine.run (step cfg) (create cfg) inputs) e := by
  have hstep : ∀ s input, (Reachable cfg s ∧ Honest s ∧ ∀ e ∈ s.executions, Ends s e) → SparesSessions s input →
      Reachable cfg (step cfg s input) ∧ Honest (step cfg s input) ∧
        ∀ e ∈ (step cfg s input).executions, Ends (step cfg s input) e := by
    rintro s input ⟨hreach, hhonest, hends⟩ hspares
    exact ⟨hreach.next input, hhonest.step hreach.sound hreach.linked hreach.store.holds hspares,
      ends_step hreach.sound hhonest hspares hends⟩
  have hcreate : Reachable cfg (create cfg) ∧ Honest (create cfg) ∧ ∀ e ∈ (create cfg).executions, Ends (create cfg) e := by
    refine ⟨Machine.Reachable.init _ _, ⟨by simp [create], by simp [create], ?_⟩, by simp [create]⟩
    simp [Store.CanceledAsked, create, (Store.create_tables cfg.store 0).1]
  exact (Machine.run_induct_of_guarded hstep hg hcreate).2

/-- In every run whose shutdowns cancel no live session of a job that nobody asked to cancel: a canceled job has the intent to
cancel; and an attempt that caught no exception, that a shutdown stopped, and whose job nobody asked to cancel, ends in
`executor_lost`. It ends in no other phase while it is executed, it is there once `finish` returned, and it ends in no other phase
once its execution has ended, or the process has. -/
theorem canceled_was_asked (cfg : ServiceConfig) (inputs : List ServiceInput)
    (hspares : Machine.Guarded (step cfg) SparesSessions (create cfg) inputs) :
    (∀ row ∈ (Machine.run (step cfg) (create cfg) inputs).store.jobs, row.phase = .canceled → row.cancelled = true) ∧
      ∀ e ∈ (Machine.run (step cfg) (create cfg) inputs).executions, e.interrupted = true → e.failed = false →
        (∀ row ∈ (Machine.run (step cfg) (create cfg) inputs).store.jobs, row.id = e.job.id → row.cancelled = false →
          (row.phase.terminal = true → row.phase = .executorLost) ∧ (e.persisted = true → row.phase = .executorLost)) ∧
        ∀ later, (e.pc = .done ∨ ∃ tear rest, later = .crash tear :: rest) →
          ∀ row ∈ (Machine.run (step cfg) (create cfg) (inputs ++ later)).store.jobs, row.id = e.job.id → row.cancelled = false →
            row.phase.terminal = true → row.phase = .executorLost := by
  obtain ⟨hhonest, hends⟩ := honest_run hspares
  have hsound : Sound (Machine.run (step cfg) (create cfg) inputs) := Reachable.sound ⟨inputs, rfl⟩
  refine ⟨hhonest.rows, fun e he hinterrupted hfailed => ?_⟩
  have hend := hends e he
  have hlost : ∀ row : JobRow, Store.LostRow row → row.cancelled = false → row.phase.terminal = true → row.phase = .executorLost :=
    fun row hrow hcancelled hterminal => (hrow.lost hterminal).resolve_right (by simp [hcancelled])
  refine ⟨fun row hrow hid hcancelled => ?_, fun later hlater row hrow hid hcancelled => ?_⟩
  · rcases hend.interrupted hinterrupted hfailed with hintended | ⟨-, hrows⟩
    · simp [hintended.2 row hrow hid] at hcancelled
    · exact ⟨hlost row (hrows.2 row hrow hid) hcancelled,
        fun hpersisted => hlost row (hrows.2 row hrow hid) hcancelled ((hend.persisted hpersisted).2.2 row hrow hid)⟩
  · rw [Machine.run_append] at hrow
    rcases hend.interrupted hinterrupted hfailed with hintended | ⟨-, hrows⟩
    · simp [(intended_run hsound hintended later).2 row hrow hid] at hcancelled
    · refine hlost row ((?_ : Store.RowsOf e.job.id Store.LostRow _).2 row hrow hid) hcancelled
      rcases hlater with hdone | ⟨tear, rest, rfl⟩
      · refine over_run hsound (fun x hx hjob => ?_) hrows later
        obtain rfl := hsound.of_job hx he hjob
        exact hdone
      · refine over_run (hsound.step (.crash tear)) ?_ hrows rest
        exact fun x hx => by cases hx

open Sample in
/-- A shutdown comes while the run of a job is registered: its start is cancelled, and the job ends in `executor_lost`. -/
def stoppedRun : List ServiceInput :=
  [.open "worker" none, .start (clockAt 1), .store (.submit "tenant" "key" spec) (clockAt 1), .claim 30 (clockAt 2)] ++ calls 4 ++
    [.close] ++ calls 8

open Sample in
/-- The execution of an attempt that a shutdown stops is done, and its job is lost. -/
theorem canceled_was_asked_sample :
    ∃ e ∈ (Machine.run (step serviceCfg) (create serviceCfg) stoppedRun).executions,
      e.pc = .done ∧ ∃ row ∈ (Machine.run (step serviceCfg) (create serviceCfg) stoppedRun).store.jobs,
        row.id = e.job.id ∧ row.phase = .executorLost := by
  have hrun : Machine.Guarded (step serviceCfg) SparesSessions (create serviceCfg) stoppedRun ∧
      ∃ e ∈ (Machine.run (step serviceCfg) (create serviceCfg) stoppedRun).executions,
        (e.pc = .done ∧ e.interrupted = true ∧ e.failed = false ∧ e.persisted = true) ∧
          ∃ row ∈ (Machine.run (step serviceCfg) (create serviceCfg) stoppedRun).store.jobs, row.id = e.job.id ∧ row.cancelled = false := by
    decide +kernel
  obtain ⟨hspares, e, he, ⟨hdone, hinterrupted, hfailed, hpersisted⟩, row, hrow, hid, hcancelled⟩ := hrun
  obtain ⟨-, hends⟩ := canceled_was_asked serviceCfg stoppedRun hspares
  exact ⟨e, he, hdone, row, hrow, hid, ((hends e he hinterrupted hfailed).1 row hrow hid hcancelled).2 hpersisted⟩

open Sample in
/-- A shutdown comes while the session runs: the session is cancelled, its result says no more than that, and the job is `canceled`
though nobody asked for it. -/
theorem shutdown_cancels :
    ¬∀ inputs : List ServiceInput, ∀ row ∈ (Machine.run (step serviceCfg) (create serviceCfg) inputs).store.jobs,
      row.phase = .canceled → row.cancelled = true := by
  intro h
  have hrun := h (waitingRun ++ [.close, .snapshot, .signal 0, .callback 2] ++ exits (-15) ++ calls 3)
  revert hrun
  decide +kernel

end Service

end SharkRail
