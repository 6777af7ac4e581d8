import SharkRail.Lemmas.Intent
import SharkRail.Lemmas.Runs
import SharkRail.Theorems.Terminal

/-!
# Signals

A cancellation that was written, or a shutdown, reaches an execution in one of two ways: the execution reads it before it waits for
its session, or a thread finds the run in `_active` and signals it. The lock around the request and around the publication of the
session leaves no window between the two: an execution that waits has had its session cancelled, or the signal is on its way and
reaches the loop in which it waits.
-/

namespace SharkRail

namespace Service

variable {cfg : ServiceConfig} {s s' : Service} {e e' : Execution} {input : ServiceInput} {jobId : Uuid}

/-- A signal for an execution is on its way: a thread is about to send it, or its coroutine was submitted to the loop of the run. -/
def Pending (s : Service) (e : Execution) : Prop :=
  (∃ signal ∈ s.signals, signal.target = e.attempt) ∨ ∃ origin, Callback.cancelSession origin ∈ e.callbacks

/-- `SessionManager.cancel` was invoked for an execution, or a signal that invokes it is on its way. -/
def Told (s : Service) (e : Execution) : Prop := e.cancelCalled = true ∨ Pending s e

/-- What an execution does about the intent to cancel its job: it has read it, or it is told. Before the last time it reads the
store, and once it is done with waiting, there is nothing it has to do. -/
def Heeds (s : Service) (e : Execution) : Prop :=
  match e.pc with
  | .markRunning cancelRequested => cancelRequested = true
  | .signal cancelRequested => cancelRequested = true ∨ Told s e
  | .waiting => Told s e
  | _ => True

/-! ## An execution that is told -/

/-- No step takes a signal back but the one that sends it. -/
theorem Told.of_signals (h : Told s e) (hsignals : ∀ signal ∈ s.signals, signal.target = e.attempt → signal ∈ s'.signals)
    (hattempt : e'.attempt = e.attempt) (hcallbacks : e'.callbacks = e.callbacks)
    (hcalled : e.cancelCalled = true → e'.cancelCalled = true) : Told s' e' := by
  rcases h with h | ⟨signal, hsignal, htarget⟩ | ⟨origin, horigin⟩
  · exact Or.inl (hcalled h)
  · exact Or.inr (Or.inl ⟨signal, hsignals signal hsignal htarget, htarget.trans hattempt.symm⟩)
  · exact Or.inr (Or.inr ⟨origin, hcallbacks ▸ horigin⟩)

theorem mem_eraseIdx_of_ne {signals : List Signal} {index : Nat} {signal other : Signal} (h : signals[index]? = some signal)
    (hother : other ∈ signals) (hne : other ≠ signal) : other ∈ signals.eraseIdx index := by
  obtain ⟨i, hi⟩ := List.mem_iff_getElem?.1 hother
  refine List.mem_eraseIdx_iff_getElem?.2 ⟨i, fun heq => ?_, hi⟩
  subst heq
  exact hne (Option.some.inj (hi.symm.trans h))

/-- A call of an execution leaves its callbacks, and what was cancelled. -/
theorem Advances.told {clock : Reading} {fault : Fault} (h : Advances cfg clock fault e s e' s') (ht : Told s e) : Told s' e' := by
  obtain ⟨-, hsignals, -⟩ := h.frame
  have hsame : Execution.SameSignals e e' → Told s' e' := fun hsame =>
    ht.of_signals (fun signal hsignal _ => hsignals ▸ hsignal) h.sameRun.attempt hsame.callbacks fun hc => hsame.cancelCalled.trans hc
  cases h with
  | settled _ _ _ _ hpc => exact hsame (Execution.sameSignals_proceed_settling hpc)
  | failed _ _ _ _ hpc | unsettled _ _ _ _ hpc | unheard _ _ _ _ hpc => exact hsame (Execution.sameSignals_fail_settling hpc _)
  | nothingToDiscard => exact hsame (Execution.sameSignals_handle e _)
  | discarded _ _ _ _ _ _ he' =>
    rcases he' with rfl | rfl
    · exact hsame (Execution.sameSignals_handle e _)
    · exact hsame ⟨rfl, rfl, rfl, rfl, rfl, rfl⟩
  | cancelled => exact Or.inl rfl
  | _ => exact ht.of_signals (fun _ hsignal _ => hsignal) rfl rfl id

/-- A callback that cancels the session invokes `SessionManager.cancel`; another one takes nothing back. -/
theorem told_callback {c : Callback} {rest : List Callback} (hcallbacks : e.callbacks = c :: rest) (hsession : e.session.isSome = true)
    (ht : Told s e) : Told s ({ e with callbacks := rest }.callback c) := by
  obtain ⟨session, hsession⟩ := Option.isSome_iff_exists.1 hsession
  cases c with
  | cancelSession origin =>
    left
    unfold Execution.callback
    dsimp only
    rw [hsession]
    dsimp only
    split <;> rfl
  | cancelStart origin =>
    have hkept : Told s { e with callbacks := rest } := by
      rcases ht with h | h | ⟨origin', horigin⟩
      · exact Or.inl h
      · exact Or.inr (Or.inl h)
      · rw [hcallbacks] at horigin
        exact Or.inr (Or.inr ⟨origin', (List.mem_cons.1 horigin).resolve_left nofun⟩)
    unfold Execution.callback
    dsimp only
    split
    · exact hkept.of_signals (fun _ hsignal _ => hsignal) rfl rfl id
    · exact hkept

/-- An execution that is told, and whose session is published, stays told. -/
theorem Told.step (hs : Sound s) (he : e ∈ s.executions) (hsession : e.session.isSome = true) (hpublished : e.published = true)
    (ht : Told s e) (input : ServiceInput) (he' : e' ∈ (Service.step cfg s input).executions) (hattempt : e'.attempt = e.attempt) :
    Told (Service.step cfg s input) e' := by
  have hstep := hs.serviceStep cfg input
  have hsound : Sound (Service.step cfg s input) := hs.step input
  generalize Service.step cfg s input = s' at hstep hsound he'
  have hkept : ∀ s₁ : Service, (∀ signal ∈ s.signals, signal.target = e.attempt → signal ∈ s₁.signals) → e' ∈ s.executions →
    Told s₁ e' := by
    intro s₁ hsignals hmem
    obtain rfl := Table.eq_of_key Execution.attempt hs.attempts hmem he hattempt
    exact ht.of_signals hsignals rfl rfl id
  -- An execution replaced: the one that is told, or another one.
  have hreplaced : ∀ (s₁ : Service) (x x' : Execution), x ∈ s₁.executions → s₁.executions = s.executions →
      (∀ signal ∈ s.signals, signal.target = e.attempt → x.attempt ≠ e.attempt → signal ∈ s₁.signals) →
      Execution.SameRun x x' → (x = e → Told s₁ x') → e' ∈ (s₁.replace x x').executions → Told (s₁.replace x x') e' := by
    intro s₁ x x' hx hexecutions hsignals hsame htold hmem
    rw [mem_replace hx] at hmem
    rcases hmem with ⟨hmem, hne⟩ | rfl
    · exact hkept _ (fun signal hsignal htarget => hsignals signal hsignal htarget (hattempt ▸ Ne.symm hne)) (hexecutions ▸ hmem)
    · refine htold (Table.eq_of_key Execution.attempt hs.attempts (hexecutions ▸ hx) he (hsame.attempt.symm.trans hattempt))
  cases hstep with
  | skipped => exact hkept _ (fun _ hsignal _ => hsignal) he'
  | called | unrequested | closed | finalizing | started => exact hkept _ (fun _ hsignal _ => hsignal) he'
  | requested | snapshot => exact hkept _ (fun _ hsignal _ => List.mem_append_left _ hsignal) he'
  | opened workerId torn =>
    unfold openStores at he' ⊢
    cases torn <;> exact hkept _ (fun _ hsignal _ => hsignal) he'
  | pruned index fault pruner =>
    obtain ⟨store, output, h⟩ := pruneStep_touches cfg fault pruner s
    rw [h] at he' ⊢
    exact hkept _ (fun _ hsignal _ => hsignal) he'
  | crashed tear => simp [crash] at he'
  | claimed leaseSeconds clock row job =>
    rw [List.mem_append, List.mem_singleton] at he'
    rcases he' with he' | rfl
    · exact hkept _ (fun _ hsignal _ => hsignal) he'
    · exact absurd hattempt (hs.drawn e he).ne'
  | dropped index signal hsignal htarget =>
    refine hkept _ (fun other hother htold => mem_eraseIdx_of_ne hsignal hother ?_) he'
    rintro rfl
    exact htarget e he htold.symm
  | advanced x x' s₁ clock fault hx hadvances =>
    obtain ⟨hexecutions, hsignals, -⟩ := hadvances.frame
    refine hreplaced s₁ x x' (hexecutions ▸ hx) hexecutions (fun signal hsignal _ _ => hsignals ▸ hsignal) hadvances.sameRun ?_ he'
    rintro rfl
    exact hadvances.told ht
  | calledBack x c rest hx hcallbacks =>
    have hsame := Execution.sameRun_callback { x with callbacks := rest } c
    refine hreplaced s x _ hx rfl (fun _ hsignal _ _ => hsignal) ⟨hsame.job, hsame.attempt⟩ ?_ he'
    rintro rfl
    exact told_callback hcallbacks hsession ht
  | monitored x event hx =>
    refine hreplaced s x _ hx rfl (fun _ hsignal _ _ => hsignal) ⟨rfl, rfl⟩ ?_ he'
    rintro rfl
    exact ht.of_signals (fun _ hsignal _ => hsignal) rfl rfl id
  | sent index signal x hsignal hx htarget =>
    refine hreplaced _ x _ hx rfl (fun other hother htold hne => mem_eraseIdx_of_ne hsignal hother ?_) ⟨rfl, rfl⟩ ?_ he'
    · rintro rfl
      exact hne (htarget.symm.trans htold)
    · rintro rfl
      exact Or.inr (Or.inr ⟨signal.origin, by simp [hpublished]⟩)

/-! ## An execution that heeds the intent -/

theorem heeds_of_past (h : e.pc.past = true) : Heeds s e := by
  unfold Heeds
  cases hpc : e.pc <;> first | trivial | simp [hpc, Pc.past] at h

/-- An execution that stays where it stands heeds the intent as long as it is told. -/
theorem Heeds.of_pc (h : Heeds s e) (hpc : e'.pc = e.pc) (htold : e.pc.published = true → Told s e → Told s' e') : Heeds s' e' := by
  unfold Heeds at h ⊢
  rw [hpc]
  cases hcase : e.pc with
  | markRunning => simpa only [hcase] using h
  | signal c =>
    simp only [hcase] at h ⊢
    exact h.imp_right (htold (by rw [hcase]; rfl))
  | waiting =>
    simp only [hcase] at h ⊢
    exact htold (by rw [hcase]; rfl) h
  | _ => trivial

/-- An execution that goes on heeds the intent: it reads it while it holds the lock, and has its session cancelled before it
waits. -/
theorem Heeds.advance {clock : Reading} {fault : Fault} {next : Service} (hr : Store.Readable s.store)
    (hi : Store.Intended e.job.id s.store) (h : Heeds s e) (hadvances : Advances cfg clock fault e s e' s')
    (htold : e.pc.published = true → Told s e → Told next e') : Heeds next e' := by
  cases hadvances with
  | rechecked job hpc hget =>
    obtain ⟨row, hrow, hid, hcancelled⟩ := Store.isCancelled_of_get hr hget
    exact hcancelled.trans (hi.2 row hrow hid)
  | marked c hpc =>
    have hc : c = true := by simpa only [Heeds, hpc] using h
    exact Or.inl hc
  | unsignalled hpc =>
    have hsignal : false = true ∨ Told s e := by simpa only [Heeds, hpc] using h
    exact htold (by rw [hpc]; rfl) (hsignal.resolve_left nofun)
  | cancelled => exact Or.inl rfl
  | settled _ _ _ _ hpc => exact heeds_of_past (Execution.proceed_settling_past hpc)
  | failed _ _ _ _ hpc | unsettled _ _ _ _ hpc | unheard _ _ _ _ hpc => exact heeds_of_past (Execution.fail_settling_past hpc _)
  | disposed | intentUnread => exact heeds_of_past (Execution.leave_past e)
  | nothingToDiscard x => exact heeds_of_past (Execution.handle_past e x)
  | discarded x _ _ _ _ _ he' =>
    rcases he' with rfl | rfl
    · exact heeds_of_past (Execution.handle_past e x)
    · exact heeds_of_past (Execution.leave_past e)
  | _ => trivial

/-- The executions of a job that has the intent heed it, whatever step is taken. -/
theorem heeds_step (hs : Sound s) (hl : Linked s) (hr : Store.Readable s.store) (hi : Store.Intended jobId s.store)
    (h : ∀ e ∈ s.executions, e.job.id = jobId → Heeds s e) (input : ServiceInput) :
    ∀ e ∈ (step cfg s input).executions, e.job.id = jobId → Heeds (step cfg s input) e := by
  intro e' he' hjob
  rcases hs.execution_from he' with ⟨e, he, hmoved⟩ | ⟨_, _, _, -, -, -, rfl⟩
  · have hsame := hmoved.sameRun
    rw [hsame.job] at hjob
    have hheeds := h e he hjob
    have htold : e.pc.published = true → Told s e → Told (step cfg s input) e' := fun hpublished ht =>
      ht.step hs he (hl.session e he (Pc.started_of_published hpublished)) (hl.published e he hpublished) input he' hsame.attempt
    cases hmoved with
    | kept | monitored | sent => exact hheeds.of_pc rfl htold
    | called _ c rest => exact hheeds.of_pc (callback_frame _ c).1 htold
    | executed _ clock fault reply s₁ hcall _ => exact hheeds.advance hr (hjob ▸ hi) hcall.advances htold
  · trivial

/-- A request that writes the intent of a job leaves its executions heeding it: it waits for the lock, and signals the run that is
registered. -/
theorem heeds_requested (hl : Linked s) (hfree : s.locked = false) {signals : List Signal} {store : Store} (he : e ∈ s.executions)
    (hsignals : signals = ((s.active.lookup e.job.id).map fun target => ⟨target, .request⟩).toList) :
    Heeds { s with store, signals := s.signals ++ signals } e := by
  have htold : e.pc.published = true → Told { s with store, signals := s.signals ++ signals } e := by
    intro hpc
    have hactive := hl.active e he (Pc.registered_of_started (Pc.started_of_published hpc))
    refine Or.inr (Or.inl ⟨⟨e.attempt, .request⟩, List.mem_append_right _ ?_, rfl⟩)
    rw [hsignals, hactive]
    exact List.mem_singleton_self _
  unfold Heeds
  cases hpc : e.pc with
  | markRunning c =>
    have hlocked : s.locked = true := List.any_eq_true.2 ⟨e, he, by rw [hpc]; rfl⟩
    rw [hfree] at hlocked
    cases hlocked
  | signal c => exact Or.inr (htold (by rw [hpc]; rfl))
  | waiting => exact htold (by rw [hpc]; rfl)
  | _ => trivial

/-- What holds in every state: an execution whose job was asked to cancel heeds it. -/
def Heeding (s : Service) : Prop := ∀ e ∈ s.executions, Store.Asked e.job.id s.store → Heeds s e

theorem Heeding.step (hs : Sound s) (hl : Linked s) (hr : Store.Readable s.store) (h : Heeding s) (input : ServiceInput) :
    Heeding (Service.step cfg s input) := by
  intro e' he' hasked
  by_cases hbefore : Store.Asked e'.job.id s.store
  · refine heeds_step hs hl hr (Store.intended_of_asked hs.wellFormed hbefore) (fun e he hjob => h e he ?_) input e' he' rfl
    rwa [hjob]
  -- The step wrote the intent, so it is a request for this job.
  obtain ⟨e, he, hmoved⟩ | ⟨_, _, _, -, -, -, rfl⟩ := hs.execution_from he'
  case inr => trivial
  have hdrawn : e'.job.id < s.store.drawn := hmoved.sameRun.job ▸ (hs.claimed e he).1
  obtain ⟨tenantId, clock, rfl⟩ : ∃ tenantId clock, input = .cancel e'.job.id tenantId clock := by
    rcases store_step cfg s input with hstore | ⟨call, clock, heffect, hstore⟩
    · exact absurd (hstore ▸ hasked) hbefore
    · rw [hstore] at hasked
      obtain ⟨tenantId, hcall⟩ := (Store.asked_step hs.wellFormed hdrawn hasked).resolve_left hbefore
      subst hcall
      cases heffect with
      | shared _ _ hshared => cases hshared
      | requested jobId tenantId clock => exact ⟨tenantId, clock, rfl⟩
  have hstep := hs.serviceStep cfg (.cancel e'.job.id tenantId clock)
  generalize Service.step cfg s (.cancel e'.job.id tenantId clock) = s' at hstep he' hasked
  generalize hjobId : e'.job.id = jobId at hstep hasked hbefore hdrawn
  cases hstep with
  | skipped => exact absurd hasked hbefore
  | requested _ _ _ _ hfree => exact heeds_requested hl hfree he' (by rw [hjobId])
  | unrequested _ _ _ _ hrequest =>
    obtain ⟨-, job, hreturned, hcancelled⟩ := (Store.asked_requestCancel hs.wellFormed hr hdrawn hasked).resolve_left hbefore
    rw [hrequest job hreturned] at hcancelled
    cases hcancelled

/-! ## Shutdown -/

/-- What holds in every state: an execution that waits while the service stops is told, or will be by the snapshot of `close`. -/
def Stopping (s : Service) : Prop :=
  ∀ e ∈ s.executions, e.pc = .waiting → s.stop = true → Told s e ∨ s.snapshotted = false

/-- The flags of `close` are changed by its two steps, and reset by a crash. -/
theorem Sound.flags (cfg : ServiceConfig) (hs : Sound s) (input : ServiceInput) :
    ((Service.step cfg s input).stop = s.stop ∧ (Service.step cfg s input).snapshotted = s.snapshotted) ∨
      Service.step cfg s input = { s with stop := true } ∨ Service.step cfg s input = s.snapshot ∨
      (Service.step cfg s input).executions = [] := by
  have hstep := hs.serviceStep cfg input
  generalize Service.step cfg s input = s' at hstep
  cases hstep with
  | closed => exact Or.inr (Or.inl rfl)
  | snapshot => exact Or.inr (Or.inr (Or.inl rfl))
  | crashed => exact Or.inr (Or.inr (Or.inr rfl))
  | advanced e e' s' clock fault he hadvances =>
    obtain ⟨-, -, hstop, hsnapshot, -⟩ := hadvances.frame
    exact Or.inl ⟨hstop, hsnapshot⟩
  | pruned index fault pruner =>
    obtain ⟨store, output, h⟩ := pruneStep_touches cfg fault pruner s
    rw [h]
    exact Or.inl ⟨rfl, rfl⟩
  | opened workerId torn =>
    unfold openStores
    cases torn <;> exact Or.inl ⟨rfl, rfl⟩
  | skipped | called | claimed | calledBack | monitored | requested | unrequested | sent | dropped | finalizing | started =>
    exact Or.inl ⟨rfl, rfl⟩

/-- A call of an execution leaves the flag. -/
theorem Sound.stop_execute (hs : Sound s) {attempt : Uuid} {clock : Reading} {fault : Fault} :
    (Service.step cfg s (.execute attempt clock fault)).stop = s.stop := by
  have hstep := hs.serviceStep cfg (.execute attempt clock fault)
  generalize Service.step cfg s (.execute attempt clock fault) = s' at hstep
  cases hstep with
  | skipped => rfl
  | advanced e e' s' _ _ _ hadvances => exact hadvances.frame.2.2.1

/-- `close` signals every run that is registered. -/
theorem told_snapshot (hl : Linked s) (he : e ∈ s.executions) (hpc : e.pc.registered = true) : Told s.snapshot e := by
  have hentry : ⟨e.job.id, e.attempt⟩ ∈ s.active.entries := AList.mem_lookup_iff.1 (hl.active e he hpc)
  exact Or.inr (Or.inl ⟨⟨e.attempt, .shutdown⟩, List.mem_append_right _ (List.mem_map.2 ⟨_, hentry, rfl⟩), rfl⟩)

/-- An execution that waits waited before, or has just passed by the flag or by the cancellation of its session. -/
theorem Advances.waiting {clock : Reading} {fault : Fault} (h : Advances cfg clock fault e s e' s') (hpc : e'.pc = .waiting) :
    s.stop = false ∨ e'.cancelCalled = true := by
  have hpast : e'.pc.past = true → False := fun h => by rw [hpc] at h; cases h
  cases h with
  | unsignalled _ hstop => exact Or.inl hstop
  | cancelled => exact Or.inr rfl
  | settled _ _ _ _ hpc' => exact (hpast (Execution.proceed_settling_past hpc')).elim
  | failed _ _ _ _ hpc' | unsettled _ _ _ _ hpc' | unheard _ _ _ _ hpc' =>
    exact (hpast (Execution.fail_settling_past hpc' _)).elim
  | disposed | intentUnread => exact (hpast (Execution.leave_past e)).elim
  | nothingToDiscard x => exact (hpast (Execution.handle_past e x)).elim
  | discarded x _ _ _ _ _ he' =>
    rcases he' with rfl | rfl
    · exact (hpast (Execution.handle_past e x)).elim
    · exact (hpast (Execution.leave_past e)).elim
  | _ => cases hpc

theorem Stopping.step (hs : Sound s) (hl : Linked s) (h : Stopping s) (input : ServiceInput) :
    Stopping (Service.step cfg s input) := by
  intro e' he' hpc hstop
  obtain ⟨e, he, hmoved⟩ | ⟨_, _, _, -, -, -, rfl⟩ := hs.execution_from he'
  case inr => cases hpc
  have hsame := hmoved.sameRun
  have hwaited : e.pc = .waiting → Told (Service.step cfg s input) e' ∨ (Service.step cfg s input).snapshotted = false := by
    intro hwaiting
    have hpublished : e.pc.published = true := by rw [hwaiting]; rfl
    have htold : Told s e → Told (Service.step cfg s input) e' := fun ht =>
      ht.step hs he (hl.session e he (Pc.started_of_published hpublished)) (hl.published e he hpublished) input he' hsame.attempt
    rcases hs.flags cfg input with ⟨hstop', hsnapshot⟩ | hclosed | hsnapped | hnone
    · rw [hsnapshot]
      exact (h e he hwaiting (hstop' ▸ hstop)).imp_left htold
    · cases hbefore : s.stop with
      | true =>
        rw [hclosed]
        exact (h e he hwaiting hbefore).imp_left fun ht => hclosed ▸ htold ht
      | false =>
        right
        rw [hclosed]
        simpa [hbefore] using fun hsnapped => hl.snapshot hsnapped
    · rw [hsnapped] at he' ⊢
      obtain rfl := Table.eq_of_key Execution.attempt hs.attempts he' he hsame.attempt
      exact Or.inl (told_snapshot hl he (by rw [hwaiting]; rfl))
    · rw [hnone] at he'
      cases he'
  cases hmoved with
  | kept | monitored | sent => exact hwaited hpc
  | called e c rest => exact hwaited ((callback_frame { e with callbacks := rest } c).1.symm.trans hpc)
  | executed e clock fault reply s₁ hcall _ =>
    rcases hcall.advances.waiting hpc with hrunning | hcancelled
    · rw [hs.stop_execute, hrunning] at hstop
      cases hstop
    · exact Or.inl (Or.inl hcancelled)

/-! ## No signal is lost -/

/-- What holds in every state the service can be in. -/
theorem Reachable.heeding (h : Reachable cfg s) : Heeding s ∧ Stopping s := by
  have hstep : ∀ s input, (Reachable cfg s ∧ Heeding s ∧ Stopping s) → Reachable cfg (step cfg s input) ∧
      Heeding (step cfg s input) ∧ Stopping (step cfg s input) := by
    rintro s input ⟨hreach, hheeding, hstopping⟩
    exact ⟨hreach.next input, hheeding.step hreach.sound hreach.linked hreach.store.holds input,
      hstopping.step hreach.sound hreach.linked input⟩
  have hcreate : Reachable cfg (create cfg) ∧ Heeding (create cfg) ∧ Stopping (create cfg) :=
    ⟨Machine.Reachable.init _ _, by simp [Heeding, create], by simp [Stopping, create]⟩
  exact (Machine.Reachable.invariant (P := fun s => Reachable cfg s ∧ Heeding s ∧ Stopping s) h hcreate hstep).2

/-- The executions of a job that was asked to cancel heed it in every later state, even once its row was deleted. -/
theorem heeds_run (h : Reachable cfg s) (hi : Store.Intended jobId s.store)
    (hheeds : ∀ e ∈ s.executions, e.job.id = jobId → Heeds s e) (inputs : List ServiceInput) :
    ∀ e ∈ (Machine.run (step cfg) s inputs).executions, e.job.id = jobId → Heeds (Machine.run (step cfg) s inputs) e := by
  have hstep : ∀ s input, (Reachable cfg s ∧ Store.Intended jobId s.store ∧ ∀ e ∈ s.executions, e.job.id = jobId → Heeds s e) →
      Reachable cfg (step cfg s input) ∧ Store.Intended jobId (step cfg s input).store ∧
        ∀ e ∈ (step cfg s input).executions, e.job.id = jobId → Heeds (step cfg s input) e := by
    rintro s input ⟨hreach, hi, hheeds⟩
    refine ⟨hreach.next input, ?_, heeds_step hreach.sound hreach.linked hreach.store.holds hi hheeds input⟩
    exact store_induct (P := Store.Intended jobId) cfg s input hi fun _ _ _ => hi.step hreach.store.wellFormed _
  exact (Machine.run_induct hstep ⟨h, hi, hheeds⟩ inputs).2.2

/-- A signal sent to an execution that waits is submitted to its loop. -/
theorem signal_arrives (cfg : ServiceConfig) (hl : Linked s) (he : e ∈ s.executions) (hpc : e.pc = .waiting) {index : Nat} {signal : Signal}
    (hsignal : s.signals[index]? = some signal) (htarget : signal.target = e.attempt) :
    ∃ e' ∈ (step cfg s (.signal index)).executions,
      e'.attempt = e.attempt ∧ e'.pc = .waiting ∧ Callback.cancelSession signal.origin ∈ e'.callbacks := by
  have hpublished := hl.published e he (by rw [hpc]; rfl)
  unfold step
  simp only [hsignal, send]
  refine ⟨_, mem_update.2 ⟨e, he, if_pos htarget.symm⟩, rfl, hpc, ?_⟩
  simp [hpublished]

/-- A coroutine submitted to the loop of an execution that waits invokes `SessionManager.cancel`. -/
theorem callback_arrives (cfg : ServiceConfig) (hl : Linked s) (he : e ∈ s.executions) (hpc : e.pc = .waiting) {origin : Origin}
    {rest : List Callback}
    (hcallbacks : e.callbacks = .cancelSession origin :: rest) :
    ∃ e' ∈ (step cfg s (.callback e.attempt)).executions, e'.attempt = e.attempt ∧ e'.cancelCalled = true := by
  obtain ⟨session, hsession⟩ := Option.isSome_iff_exists.1 (hl.session e he (by rw [hpc]; rfl))
  refine ⟨_, mem_update.2 ⟨e, he, if_pos rfl⟩, ?_⟩
  simp only [hcallbacks, hpc, Pc.loopRuns, if_true]
  refine ⟨(Execution.sameRun_callback _ _).attempt, ?_⟩
  unfold Execution.callback
  simp only [hsession]
  split <;> rfl

/-- No signal is lost. Once the intent to cancel a job was written, its execution waits for its session only with
`SessionManager.cancel` invoked on it, or with a signal on its way that invokes it; while the service stops, or with its run still
to be found by the snapshot of `close`. A signal on its way is submitted to the loop in which the execution waits, and invokes
`SessionManager.cancel` there. -/
theorem waits_with_signal (cfg : ServiceConfig) (inputs later : List ServiceInput) (jobId : Uuid) :
    (Store.Asked jobId (Machine.run (step cfg) (create cfg) inputs).store →
      ∀ e ∈ (Machine.run (step cfg) (create cfg) (inputs ++ later)).executions, e.job.id = jobId → e.pc = .waiting →
        Told (Machine.run (step cfg) (create cfg) (inputs ++ later)) e) ∧
      ((Machine.run (step cfg) (create cfg) inputs).stop = true →
        ∀ e ∈ (Machine.run (step cfg) (create cfg) inputs).executions, e.pc = .waiting →
          Told (Machine.run (step cfg) (create cfg) inputs) e ∨
            (Machine.run (step cfg) (create cfg) inputs).snapshotted = false ∧
              (Machine.run (step cfg) (create cfg) inputs).active.lookup e.job.id = some e.attempt) ∧
      ∀ e ∈ (Machine.run (step cfg) (create cfg) inputs).executions, e.pc = .waiting →
        (∀ (index : Nat) (signal : Signal), (Machine.run (step cfg) (create cfg) inputs).signals[index]? = some signal →
          signal.target = e.attempt →
            ∃ e' ∈ (Machine.run (step cfg) (create cfg) (inputs ++ [.signal index])).executions,
              e'.attempt = e.attempt ∧ e'.pc = .waiting ∧ Callback.cancelSession signal.origin ∈ e'.callbacks) ∧
          ∀ (origin : Origin) (rest : List Callback), e.callbacks = .cancelSession origin :: rest →
            ∃ e' ∈ (Machine.run (step cfg) (create cfg) (inputs ++ [.callback e.attempt])).executions,
              e'.attempt = e.attempt ∧ e'.cancelCalled = true := by
  have hreach : Reachable cfg (Machine.run (step cfg) (create cfg) inputs) := ⟨inputs, rfl⟩
  refine ⟨fun hasked e he hjob hpc => ?_, fun hstop e he hpc => ?_, fun e he hpc => ⟨fun index signal hsignal htarget => ?_,
    fun origin rest hcallbacks => ?_⟩⟩
  · rw [Machine.run_append] at he ⊢
    have hi := Store.intended_of_asked hreach.store.wellFormed hasked
    have hheeds := heeds_run hreach hi (fun e he hjob => hreach.heeding.1 e he (hjob ▸ hasked)) later e he hjob
    simpa only [Heeds, hpc] using hheeds
  · refine (hreach.heeding.2 e he hpc hstop).imp_right fun hsnapshot => ⟨hsnapshot, ?_⟩
    exact hreach.linked.active e he (by rw [hpc]; rfl)
  · rw [Machine.run_append]
    exact signal_arrives cfg hreach.linked he hpc hsignal htarget
  · rw [Machine.run_append]
    exact callback_arrives cfg hreach.linked he hpc hcallbacks

end Service

/-! ## A sample service -/

namespace Sample

def serviceCfg : ServiceConfig := { store := cfg, output := { root := "/srv/output" }, sessionId := fun _ => "session" }

/-- The next calls of the execution of job 1, attempt 2. -/
def calls (n : Nat) : List ServiceInput := List.replicate n (.execute 2 (clockAt 3) .none)

/-- A service is opened and started, and the execution of its first job has come to wait for its session. -/
def waitingRun : List ServiceInput :=
  [.open "worker" none, .start (clockAt 1), .store (.submit "tenant" "key" spec) (clockAt 1), .claim 30 (clockAt 2)] ++ calls 10

/-- The process exits with a return code. -/
def exits (returncode : Int) : List ServiceInput :=
  [.monitor 2 .exited, .monitor 2 (.completed (some returncode) [] [] false none)]

end Sample

namespace Service

open Sample in
/-- A request that is written when the session has ended finds nothing to cancel. -/
theorem request_after_wait :
    ¬∀ inputs : List ServiceInput, ∀ e ∈ (Machine.run (step serviceCfg) (create serviceCfg) inputs).executions,
      (∃ row ∈ (Machine.run (step serviceCfg) (create serviceCfg) inputs).store.jobs,
        row.id = e.job.id ∧ row.cancelled = true ∧ row.phase.terminal = false) →
      e.pc.past = true → e.session = none ∨ e.startCancelled = true ∨ e.cancelCalled = true := by
  intro h
  have hrun := h (waitingRun ++ exits 0 ++ calls 1 ++ [.cancel 1 none (clockAt 4)])
  revert hrun
  decide +kernel

end Service

end SharkRail
