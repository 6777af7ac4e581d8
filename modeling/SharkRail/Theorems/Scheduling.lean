import SharkRail.Lemmas.Scheduling
import SharkRail.Theorems.Signals

/-!
# In-flight jobs

`_inflight` never outgrows the pool. As long as the pool takes what it is handed, every job in it has a future whose end takes it out
again (`inflight_accounted`); a `submit` that raises leaves its job there for good (`inflight_leaked`). And a recovery of expired leases
spares every job that this process executes, unless a lease runs out between the snapshot of `_inflight` and the recovery
(`live_jobs_spared`); a clock that moves past the lease of a job claimed in between loses it (`live_job_lost`).
-/

namespace SharkRail

namespace Scheduler

open Relation

variable {cfg : ServiceConfig} {settings : ExecutorSettings} {s s' : Scheduler}

/-! ## The service behind the scheduler -/

/-- A move is a step of the service, or none. -/
theorem Move.service {lost : Prop} (h : Move cfg settings lost s s') :
    s'.service = s.service ∨ ∃ input, s'.service = s.service.step cfg input := by
  cases h with
  | served input => exact .inr ⟨input, rfl⟩
  | claimed _ _ clock => exact .inr ⟨.claim settings.leaseSeconds clock, rfl⟩
  | finished f clock => exact .inr ⟨.execute f.attempt clock .none, rfl⟩
  | attachedDone _ _ job clock => exact .inr ⟨.execute job.attempt clock .none, rfl⟩
  | crashed tear => exact .inr ⟨.crash tear, rfl⟩
  | acquired | measured | turned | left | dropped | recorded | submitted | attached => exact .inl rfl

/-- The controllers choose among the steps of the service: every run of them is one of its runs. -/
theorem service_reachable (cfg : ServiceConfig) (settings : ExecutorSettings) (inputs : List SchedulerInput) :
    Service.Reachable cfg (Machine.run (step cfg settings) (create cfg) inputs).service := by
  refine Machine.run_induct (P := fun s : Scheduler => Service.Reachable cfg s.service) (fun s input h => ?_)
    ⟨[], rfl⟩ inputs
  have hmoves : ReflTransGen (Move cfg settings True) s (s.step cfg settings input) := moves_of_step input (.inl trivial)
  generalize s.step cfg settings input = s' at hmoves
  induction hmoves with
  | refl => exact h
  | tail _ hmove ih =>
    rcases hmove.service with hsame | ⟨input, hnext⟩
    · exact hsame ▸ ih
    · exact hnext ▸ ih.next input

/-! ## Callbacks -/

/-- Every job in `_inflight` has a future with a callback that is still to come, or is on its way to one. -/
structure Covered (s : Scheduler) : Prop where
  covered : ∀ jobId ∈ s.inflight, (∃ f ∈ s.futures, f.jobId = jobId ∧ f.callback = true) ∨
    ∃ i job, (s.controllers i).recorded = some job ∧ job.jobId = jobId
  attachable : ∀ i left job, s.controllers i = .attaching left job → ∃ f ∈ s.futures, f.toClaimedJob = job
  unset : ∀ i left job, s.controllers i = .attaching left job → ∀ f ∈ s.futures, f.attempt = job.attempt → f.callback = false
  begun : ∀ i job, (s.controllers i).inHand = some job → ∀ e ∈ s.service.executions, e.attempt = job.attempt → e.pc ≠ .done
  due : ∀ f ∈ s.futures, f.callback = true → ∀ e ∈ s.service.executions, e.attempt = f.attempt → e.pc ≠ .done

/-- A job that is on its way stays so when a controller without one goes on. -/
theorem recorded_goTo {index : Nat} {next : Controller} {jobId : Uuid} (hpc : (s.controllers index).recorded = none)
    (h : ∃ i job, (s.controllers i).recorded = some job ∧ job.jobId = jobId) :
    ∃ i job, ((s.goTo index next).controllers i).recorded = some job ∧ job.jobId = jobId := by
  obtain ⟨i, job, hrecorded, hid⟩ := h
  refine ⟨i, job, ?_, hid⟩
  rw [goTo_ne]
  · exact hrecorded
  · rintro rfl
    rw [hpc] at hrecorded
    cases hrecorded

/-- No other controller has a job in hand. -/
theorem inHand_alone (ht : Tracked settings s) {i k : Nat} {job : ClaimedJob} (hjob : (s.controllers i).inHand = some job)
    (hk : k ≠ i) : (s.controllers k).inHand = none :=
  Controller.inHand_of_not_scheduling (ht.alone (Controller.scheduling_of_inHand hjob) hk)

namespace Covered

section Goes

variable {index : Nat} {next : Controller}

/-- The jobs that get their callback have a future, when the controller that goes on is not the one to set it. -/
theorem attachable_goTo (h : Covered s) (hnext : ∀ left job, next ≠ .attaching left job) :
    ∀ i left job, (s.goTo index next).controllers i = .attaching left job → ∃ f ∈ s.futures, f.toClaimedJob = job :=
  forall_goTo (P := fun c => ∀ left job, c = .attaching left job → ∃ f ∈ s.futures, f.toClaimedJob = job)
    (fun left job hjob => absurd hjob (hnext left job)) h.attachable

/-- Their callback is not set yet. -/
theorem unset_goTo (h : Covered s) (hnext : ∀ left job, next ≠ .attaching left job) :
    ∀ i left job, (s.goTo index next).controllers i = .attaching left job →
      ∀ f ∈ s.futures, f.attempt = job.attempt → f.callback = false :=
  forall_goTo (P := fun c => ∀ left job, c = .attaching left job → ∀ f ∈ s.futures, f.attempt = job.attempt → f.callback = false)
    (fun left job hjob => absurd hjob (hnext left job)) h.unset

/-- The execution of a job in hand is not done, when the one of the controller that goes on is not. -/
theorem begun_goTo (h : Covered s)
    (hnext : ∀ job, next.inHand = some job → ∀ e ∈ s.service.executions, e.attempt = job.attempt → e.pc ≠ .done) :
    ∀ i job, ((s.goTo index next).controllers i).inHand = some job → ∀ e ∈ s.service.executions, e.attempt = job.attempt → e.pc ≠ .done :=
  forall_goTo (P := fun c => ∀ job, c.inHand = some job → ∀ e ∈ s.service.executions, e.attempt = job.attempt → e.pc ≠ .done)
    hnext h.begun

/-- A controller that has no job on its way goes on without one. -/
theorem move (h : Covered s) (scheduler : Option Nat) (hpc : (s.controllers index).recorded = none) (hnext : next.inHand = none) :
    Covered ({ s with scheduler }.goTo index next) := by
  have hattaching : ∀ left job, next ≠ .attaching left job := by
    rintro left job rfl
    cases hnext
  refine ⟨fun jobId hmem => (h.covered jobId hmem).imp_right (recorded_goTo hpc), h.attachable_goTo hattaching,
    h.unset_goTo hattaching, h.begun_goTo fun job hjob => ?_, h.due⟩
  rw [hnext] at hjob
  cases hjob

end Goes

end Covered

/-- A step of the service that leaves the callbacks to the pool takes no execution to its end. -/
theorem serve_done (h : Tracked settings s) {input : ServiceInput} (hserves : s.Serves input) {job : ClaimedJob}
    (hexecutes : s.Executes job) (hopen : ∀ e ∈ s.service.executions, e.attempt = job.attempt → e.pc ≠ .done) :
    ∀ e' ∈ (s.serve cfg input).service.executions, e'.attempt = job.attempt → e'.pc ≠ .done := by
  intro e' he' hattempt hdone
  obtain ⟨e, he, hbefore, -, hends⟩ := execution_before h.sound hexecutes he' hattempt
  rcases hends hdone with hpc | ⟨hpc, clock, fault, rfl⟩
  · exact hopen e he hbefore hpc
  · have hended : s.ended job.attempt = true := List.any_eq_true.2 ⟨e, he, by simp [hbefore, hpc]⟩
    exact absurd (hended.symm.trans hserves.2) nofun

theorem Covered.serve (h : Covered s) (ht : Tracked settings s) {input : ServiceInput} (hserves : s.Serves input) :
    Covered (s.serve cfg input) :=
  ⟨h.covered, h.attachable, h.unset, fun i job hjob => serve_done ht hserves (ht.hands i job hjob) (h.begun i job hjob),
    fun f hf hcallback => serve_done ht hserves (ht.futures f hf) (h.due f hf hcallback)⟩

/-- The callback of a future: what is left in `_inflight` is covered as it was. -/
theorem covered_executionDone (ht : Tracked settings s) {job : ClaimedJob} (clock : Reading) (hexecutes : s.Executes job)
    (hcovered : ∀ jobId ∈ s.inflight, jobId ≠ job.jobId → (∃ f ∈ s.futures, f.jobId = jobId ∧ f.callback = true) ∨
      ∃ i job, (s.controllers i).recorded = some job ∧ job.jobId = jobId)
    (hattachable : ∀ i left job, s.controllers i = .attaching left job → ∃ f ∈ s.futures, f.toClaimedJob = job)
    (hunset : ∀ i left job, s.controllers i = .attaching left job → ∀ f ∈ s.futures, f.attempt = job.attempt → f.callback = false)
    (hbegun : ∀ i job, (s.controllers i).inHand = some job → ∀ e ∈ s.service.executions, e.attempt = job.attempt → e.pc ≠ .done)
    (hdue : ∀ f ∈ s.futures, f.callback = true → ∀ e ∈ s.service.executions, e.attempt = f.attempt → e.pc ≠ .done)
    (hothers : ∀ i job', (s.controllers i).inHand = some job' → job'.attempt ≠ job.attempt) :
    Covered (s.executionDone cfg job clock) := by
  have hopen : ∀ job' : ClaimedJob, s.Executes job' → job'.attempt ≠ job.attempt →
      (∀ e ∈ s.service.executions, e.attempt = job'.attempt → e.pc ≠ .done) →
      ∀ e' ∈ (s.executionDone cfg job clock).service.executions, e'.attempt = job'.attempt → e'.pc ≠ .done := by
    intro job' hexecutes' hne hopen e' he' hattempt hdone
    obtain ⟨e, he, hbefore, -, hends⟩ := execution_before ht.sound hexecutes' he' hattempt
    rcases hends hdone with hpc | ⟨-, _, _, hinput⟩
    · exact hopen e he hbefore hpc
    · injection hinput with hsame
      exact hne hsame.symm
  refine ⟨fun jobId hmem => ?_, fun i left job' hk => ?_, fun i left job' hk f' hf' hattempt => ?_,
    fun i job' hjob => hopen job' (ht.hands i job' hjob) (hothers i job' hjob) (hbegun i job' hjob), fun f' hf' hcallback => ?_⟩
  · obtain ⟨hmem, hne⟩ := List.mem_filter.1 hmem
    rcases hcovered jobId hmem (by simpa using hne) with ⟨f, hf, rfl, hcallback⟩ | hway
    · refine .inl ⟨f, List.mem_map.2 ⟨f, hf, if_neg fun hsame => ?_⟩, rfl, hcallback⟩
      exact absurd ((ht.jobId_iff (ht.futures f hf) hexecutes).1 hsame) (by simpa using hne)
    · exact .inr hway
  · obtain ⟨f, hf, rfl⟩ := hattachable i left job' hk
    refine ⟨_, List.mem_map_of_mem hf, ?_⟩
    split <;> rfl
  · obtain ⟨f, hf, hjob, hset⟩ := mem_setCallback hf'
    rw [hset]
    split
    · rfl
    · exact hunset i left job' hk f hf (hjob ▸ hattempt)
  · obtain ⟨f, hf, hjob, hset⟩ := mem_setCallback hf'
    rw [hset] at hcallback
    split at hcallback
    · cases hcallback
    · rename_i hne
      rw [hjob]
      exact hopen f.toClaimedJob (ht.futures f hf) hne (hdue f hf hcallback)

namespace Covered

section Moves

variable {i left : Nat} {job : ClaimedJob}

/-- A claimed job is in hand, and its execution has just begun. -/
theorem claimed (h : Covered s) (ht : Tracked settings s) {clock : Reading} (hstarted : s.service.started = true)
    (hpc : s.controllers i = .claiming (left + 1)) (hclaim : s.claimNext cfg settings clock = .ok (some job)) :
    Covered ((s.serve cfg (.claim settings.leaseSeconds clock)).goTo i (.recording left job)) := by
  obtain ⟨⟨e, he, hattempt, -, hbegin⟩, -⟩ := ht.claim hstarted hclaim
  have hserved : Covered (s.serve cfg (.claim settings.leaseSeconds clock)) := h.serve ht trivial
  have hsound : Service.Sound (s.service.step cfg (.claim settings.leaseSeconds clock)) := ht.sound.step _
  have hrecorded : ((s.serve cfg (.claim settings.leaseSeconds clock)).controllers i).recorded = none := by
    change (s.controllers i).recorded = none
    rw [hpc]
    rfl
  refine ⟨fun jobId hmem => (hserved.covered jobId hmem).imp_right (recorded_goTo hrecorded), hserved.attachable_goTo nofun,
    hserved.unset_goTo nofun, hserved.begun_goTo fun job' hjob e' he' hattempt' => ?_, hserved.due⟩
  cases hjob
  rw [Table.eq_of_key Execution.attempt hsound.attempts he' he (hattempt'.trans hattempt.symm), hbegin]
  exact nofun

/-- A job that is put into `_inflight` is on its way to its future. -/
theorem recorded (h : Covered s) (hpc : s.controllers i = .recording left job) :
    Covered ({ s with inflight := s.inflight.insert job.jobId }.goTo i (.submitting left job)) := by
  have hrecorded : (s.controllers i).recorded = none := by rw [hpc]; rfl
  refine ⟨fun jobId hmem => ?_, h.attachable_goTo nofun, h.unset_goTo nofun, h.begun_goTo fun job' hjob => ?_, h.due⟩
  · rcases List.mem_insert_iff.1 hmem with rfl | hmem
    · exact .inr ⟨i, job, by rw [goTo_self]; rfl, rfl⟩
    · exact (h.covered jobId hmem).imp_right (recorded_goTo hrecorded)
  · cases hjob
    exact h.begun i job (by rw [hpc]; rfl)

/-- A job that the pool took has a future, and is on its way to the callback of it. -/
theorem submitted (h : Covered s) (ht : Tracked settings s) (hpc : s.controllers i = .submitting left job) :
    Covered (({ s with futures := s.futures ++ [⟨job, false⟩] } : Scheduler).goTo i (.attaching left job)) := by
  have hjob : (s.controllers i).inHand = some job := by rw [hpc]; rfl
  refine ⟨fun jobId hmem => ?_, fun k left' job' hk => ?_, fun k left' job' hk f hf hattempt => ?_,
    h.begun_goTo fun job' hjob' => ?_, fun f hf hcallback => ?_⟩
  · rcases h.covered jobId hmem with ⟨f, hf, hid, hcallback⟩ | ⟨k, job', hrecorded, hid⟩
    · exact .inl ⟨f, List.mem_append_left _ hf, hid, hcallback⟩
    · refine .inr ⟨k, job', ?_, hid⟩
      by_cases heq : k = i
      · subst heq
        rw [goTo_self]
        rwa [hpc] at hrecorded
      · rw [goTo_ne _ _ heq]
        exact hrecorded
  · by_cases heq : k = i
    · subst heq
      rw [goTo_self] at hk
      cases hk
      exact ⟨⟨job, false⟩, List.mem_append_right _ (List.mem_singleton_self _), rfl⟩
    · rw [goTo_ne _ _ heq] at hk
      obtain ⟨f, hf, hsame⟩ := h.attachable k left' job' hk
      exact ⟨f, List.mem_append_left _ hf, hsame⟩
  · by_cases heq : k = i
    · subst heq
      rw [goTo_self] at hk
      cases hk
      rcases List.mem_append.1 hf with hf | hf
      · exact absurd hattempt (ht.unsubmitted k job (by rw [hpc]; rfl) f hf)
      · rw [List.mem_singleton.1 hf]
    · rw [goTo_ne _ _ heq] at hk
      have hfree := inHand_alone ht hjob heq
      have hk : s.controllers k = .attaching left' job' := hk
      rw [hk] at hfree
      cases hfree
  · cases hjob'
    exact h.begun i job hjob
  · rcases List.mem_append.1 hf with hf | hf
    · exact h.due f hf hcallback
    · rw [List.mem_singleton.1 hf] at hcallback
      cases hcallback

/-- A job whose future got its callback is covered by it. -/
theorem attached (h : Covered s) (ht : Tracked settings s) (hpc : s.controllers i = .attaching left job) :
    Covered ({ s with futures := setCallback job.attempt true s.futures }.goTo i (.claiming left)) := by
  have hjob : (s.controllers i).inHand = some job := by rw [hpc]; rfl
  refine ⟨fun jobId hmem => ?_, fun k left' job' hk => ?_, fun k left' job' hk => ?_, h.begun_goTo nofun,
    fun f' hf' hcallback => ?_⟩
  · rcases h.covered jobId hmem with ⟨f, hf, hid, hcallback⟩ | ⟨k, job', hrecorded, hid⟩
    · refine .inl ⟨if f.attempt = job.attempt then { f with callback := true } else f, List.mem_map_of_mem hf, ?_⟩
      split
      · exact ⟨hid, rfl⟩
      · exact ⟨hid, hcallback⟩
    · by_cases heq : k = i
      · subst heq
        rw [hpc] at hrecorded
        cases hrecorded
        obtain ⟨f, hf, rfl⟩ := h.attachable k left job hpc
        exact .inl ⟨_, List.mem_map_of_mem hf, by rw [if_pos rfl]; exact ⟨hid, rfl⟩⟩
      · exact .inr ⟨k, job', by rw [goTo_ne _ _ heq]; exact hrecorded, hid⟩
  · by_cases heq : k = i
    · subst heq
      rw [goTo_self] at hk
      cases hk
    · rw [goTo_ne _ _ heq] at hk
      obtain ⟨f, hf, rfl⟩ := h.attachable k left' job' hk
      refine ⟨_, List.mem_map_of_mem hf, ?_⟩
      split <;> rfl
  · by_cases heq : k = i
    · subst heq
      rw [goTo_self] at hk
      cases hk
    · rw [goTo_ne _ _ heq] at hk
      have hfree := inHand_alone ht hjob heq
      have hk : s.controllers k = .attaching left' job' := hk
      rw [hk] at hfree
      cases hfree
  · obtain ⟨f, hf, hsame, hset⟩ := mem_setCallback hf'
    rw [hsame]
    by_cases heq : f.attempt = job.attempt
    · rw [heq]
      exact h.begun i job hjob
    · rw [hset, if_neg heq] at hcallback
      exact h.due f hf hcallback

/-- The callback of a future that has ended takes out its job only: no controller has it in hand. -/
theorem finished (h : Covered s) (ht : Tracked settings s) {f : JobFuture} (hf : f ∈ s.futures) (hcallback : f.callback = true)
    (clock : Reading) : Covered (s.executionDone cfg f.toClaimedJob clock) := by
  refine covered_executionDone ht clock (ht.futures f hf) (fun jobId hmem _ => h.covered jobId hmem) h.attachable h.unset h.begun h.due
    fun i job' hjob hsame => ?_
  cases hc : s.controllers i with
  | attaching left job =>
    rw [hc] at hjob
    cases hjob
    exact absurd ((h.unset i left job' hc f hf hsame.symm).symm.trans hcallback) nofun
  | recording left job | submitting left job =>
    have hunsubmitted : (s.controllers i).unsubmitted = some job' := by rwa [hc] at hjob ⊢
    exact ht.unsubmitted i job' hunsubmitted f hf hsame.symm
  | _ => rw [hc] at hjob; cases hjob

/-- A future that has ended before it got its callback has it called at once. -/
theorem attachedDone (h : Covered s) (ht : Tracked settings s) (clock : Reading) (hpc : s.controllers i = .attaching left job) :
    Covered ((s.executionDone cfg job clock).goTo i (.claiming left)) := by
  have hjob : (s.controllers i).inHand = some job := by rw [hpc]; rfl
  have hroom := ht.room i
  rw [hpc] at hroom
  have hgone : Tracked settings (s.goTo i (.claiming left)) := ht.goTo (fun _ => Controller.scheduling_of_inHand hjob) hroom rfl
  refine covered_executionDone hgone clock (ht.hands i job hjob) (fun jobId hmem hne => ?_) (h.attachable_goTo nofun)
    (h.unset_goTo nofun) (h.begun_goTo nofun) h.due fun k job' hk => ?_
  · refine (h.covered jobId hmem).imp_right ?_
    rintro ⟨k, job', hrecorded, hid⟩
    refine ⟨k, job', ?_, hid⟩
    rw [goTo_ne]
    · exact hrecorded
    · rintro rfl
      rw [hpc] at hrecorded
      cases hrecorded
      exact hne hid.symm
  · by_cases heq : k = i
    · subst heq
      rw [goTo_self] at hk
      cases hk
    · rw [goTo_ne _ _ heq] at hk
      have hfree := inHand_alone ht hjob heq
      rw [hk] at hfree
      cases hfree

end Moves

/-- A move that drops no job leaves every job covered. -/
theorem next (h : Covered s) (ht : Tracked settings s) (hmove : Move cfg settings False s s') : Covered s' := by
  cases hmove with
  | served input hserves => exact h.serve ht hserves
  | acquired i hfree =>
    refine h.move (some i) ?_ rfl
    cases hrecorded : (s.controllers i).recorded with
    | none => rfl
    | some job =>
      have hholder := ht.holder i (Controller.scheduling_of_inHand (Controller.inHand_of_recorded hrecorded))
      exact absurd (hfree.symm.trans hholder) nofun
  | measured i hpc => exact h.move s.scheduler (by rw [hpc]; rfl) rfl
  | turned i next hpc hnext =>
    refine h.move s.scheduler ?_ (Controller.inHand_of_not_scheduling hnext)
    cases hc : s.controllers i <;> first | rfl | (rw [hc] at hpc; cases hpc)
  | left i next hpc hnext => exact h.move _ hpc (Controller.inHand_of_not_scheduling hnext)
  | dropped i hlost => exact hlost.elim
  | claimed i left clock job hstarted hpc hclaim => exact h.claimed ht hstarted hpc hclaim
  | recorded i left job hpc => exact h.recorded hpc
  | submitted i left job hpc => exact h.submitted ht hpc
  | attached i left job hpc _ => exact h.attached ht hpc
  | finished f clock hf hcallback _ _ => exact h.finished ht hf hcallback clock
  | attachedDone i left job clock hpc _ _ => exact h.attachedDone ht clock hpc
  | crashed tear => exact ⟨nofun, nofun, nofun, nofun, nofun⟩

end Covered

theorem Covered.step (h : Covered s) (ht : Tracked settings s) {input : SchedulerInput} (hhands : s.HandsOver input) :
    Covered (s.step cfg settings input) := by
  have hmoves : ReflTransGen (Move cfg settings False) s (s.step cfg settings input) := moves_of_step input (.inr hhands)
  generalize s.step cfg settings input = s' at hmoves
  have hboth : Tracked settings s' ∧ Covered s' := by
    induction hmoves with
    | refl => exact ⟨ht, h⟩
    | tail _ hmove ih => exact ⟨ih.1.next hmove, ih.2.next ih.1 hmove⟩
  exact hboth.2

theorem covered_run {inputs : List SchedulerInput} (hhands : Machine.Guarded (step cfg settings) HandsOver (create cfg) inputs) :
    Covered (Machine.run (step cfg settings) (create cfg) inputs) := by
  have hstep : ∀ s input, Tracked settings s ∧ Covered s → s.HandsOver input →
      Tracked settings (s.step cfg settings input) ∧ Covered (s.step cfg settings input) :=
    fun s input h hhands => ⟨h.1.step input, h.2.step h.1 hhands⟩
  have hcreate : Covered (create cfg) := ⟨nofun, nofun, nofun, nofun, nofun⟩
  exact (Machine.run_induct_of_guarded hstep hhands ⟨tracked_create cfg settings, hcreate⟩).2

/-- `_inflight` never holds more jobs than the pool has workers. And in every run in which the pool takes what it is handed, whenever no
controller schedules, every job in `_inflight` has a future with a callback that is still to come: its execution goes on, and once it has
ended the callback takes the job out. -/
theorem inflight_accounted (cfg : ServiceConfig) (settings : ExecutorSettings) (inputs : List SchedulerInput) :
    let s := Machine.run (step cfg settings) (create cfg) inputs
    s.inflight.length ≤ settings.workers ∧
      (Machine.Guarded (step cfg settings) HandsOver (create cfg) inputs → s.scheduler = none → ∀ jobId ∈ s.inflight,
        ∃ f ∈ s.futures, f.jobId = jobId ∧ f.callback = true ∧
          ∃ e ∈ s.service.executions, e.attempt = f.attempt ∧ e.job.id = jobId ∧ e.pc ≠ .done ∧
            (e.pc = .executionDone → s.service.locked = false → ∀ clock,
              jobId ∉ (s.step cfg settings (.executionDone f.attempt clock)).inflight)) := by
  intro s
  have htracked : Tracked settings s := tracked_run cfg settings inputs
  refine ⟨?_, fun hhands hfree jobId hmem => ?_⟩
  · have hroom := htracked.room 0
    omega
  have hcovered : Covered s := covered_run hhands
  rcases hcovered.covered jobId hmem with ⟨f, hf, rfl, hcallback⟩ | ⟨i, job, hrecorded, -⟩
  · obtain ⟨e, he, hattempt, hid⟩ := htracked.futures f hf
    refine ⟨f, hf, rfl, hcallback, e, he, hattempt, hid, hcovered.due f hf hcallback e he hattempt, fun hpc hunlocked clock => ?_⟩
    have hended : s.ended f.attempt = true := List.any_eq_true.2 ⟨e, he, by simp [hattempt, hpc]⟩
    -- the step may find another future of the attempt, but that is of the same job
    unfold step
    dsimp only
    cases hfound : s.futures.find? fun f' => f'.attempt = f.attempt && f'.callback with
    | none =>
      have hnone := List.find?_eq_none.1 hfound f hf
      simp [hcallback] at hnone
    | some f' =>
      have hf' := List.mem_of_find?_eq_some hfound
      have hsame := List.find?_some hfound
      simp only [Bool.and_eq_true, decide_eq_true_eq] at hsame
      have hjob : f'.jobId = f.jobId := (htracked.jobId_iff (htracked.futures f' hf') (htracked.futures f hf)).1 hsame.1
      simp only [hended, hunlocked, Bool.not_false, Bool.and_self, if_true]
      intro hmem'
      have hkept := (List.mem_filter.1 hmem').2
      simp [hjob] at hkept
  · have hholder := htracked.holder i (Controller.scheduling_of_inHand (Controller.inHand_of_recorded hrecorded))
    exact absurd (hfree.symm.trans hholder) nofun

end Scheduler

/-! ## Recoveries -/

namespace Store

/-- A recovery of expired leases leaves the rows of a job that it excludes, or whose lease has not run out. -/
theorem recoverExpiredLeases_spares {cfg : StoreConfig} {s : Store} (hs : WellFormed s) {clock : Reading} {excludeJobIds : List Uuid}
    {jobId : Uuid} (h : jobId ∈ excludeJobIds ∨ ∀ r ∈ s.jobs, r.id = jobId → leaseExpired clock.now r = false) :
    ∀ r : JobRow, r.id = jobId → (r ∈ (step cfg s (.recoverExpiredLeases excludeJobIds, clock)).jobs ↔ r ∈ s.jobs) := by
  refine step_induct (P := fun s' => ∀ r : JobRow, r.id = jobId → (r ∈ s'.jobs ↔ r ∈ s.jobs)) _ hs (fun _ _ => Iff.rfl) ?_
  intro s₁ s₂ _ hkept hchange r hid
  cases hchange with
  | accepted _ _ _ hcall => cases hcall
  | moved row row' kind notes hrow hstep hjobs =>
    have hkey : row'.id = row.id := hstep.key.1
    have hother : row.id ≠ jobId := by
      intro hsame
      cases hstep with
      | leaseExpired _ _ hexcluded hlease =>
        rcases h with hmem | hunexpired
        · exact hexcluded (hsame ▸ hmem)
        · exact absurd (hlease.symm.trans (hunexpired row ((hkept row hsame).1 hrow) hsame)) nofun
    rw [hjobs, mem_replaceJob, ← hkept r hid]
    constructor
    · rintro (⟨hr, -⟩ | ⟨rfl, -⟩)
      · exact hr
      · exact absurd (hkey.symm.trans hid) hother
    · exact fun hr => .inl ⟨hr, fun hsame => hother (hsame.symm.trans hid)⟩
  | released _ _ _ hjobs => rw [hjobs]; exact hkept r hid
  | delivery _ _ _ _ _ hjobs => rw [hjobs]; exact hkept r hid
  | pruned _ _ _ hcall => cases hcall
  | cleared _ _ _ hjobs => rw [hjobs]; exact hkept r hid
  | restarted hcall => cases hcall

end Store

namespace Scheduler

variable {cfg : ServiceConfig} {settings : ExecutorSettings} {s : Scheduler}

/-- The process is between the `claim_next` of a job and the end of its `_execute_job`. -/
def Live (s : Scheduler) (jobId : Uuid) : Prop :=
  (∃ i job, (s.controllers i).unsubmitted = some job ∧ job.jobId = jobId) ∨
    ∃ f ∈ s.futures, f.jobId = jobId ∧
      ∃ e ∈ s.service.executions, e.attempt = f.attempt ∧ e.pc ≠ .executionDone ∧ e.pc ≠ .done

/-- A job that a snapshot of `_inflight` does not have: it was put into it later, or has still to be. -/
def Missed (s : Scheduler) (snapshot : List Uuid) (jobId : Uuid) : Prop :=
  (jobId ∈ s.inflight ∧ jobId ∉ snapshot) ∨ ∃ i left job, s.controllers i = .recording left job ∧ job.jobId = jobId

/-- A live job is in `_inflight`, or about to be. -/
theorem Live.missed (h : Tracked settings s) {jobId : Uuid} (hlive : s.Live jobId) {snapshot : List Uuid} (hnot : jobId ∉ snapshot) :
    s.Missed snapshot jobId := by
  rcases hlive with ⟨i, job, hunsubmitted, rfl⟩ | ⟨f, hf, rfl, e, he, hattempt, -, hopen⟩
  · cases hc : s.controllers i with
    | recording left job' =>
      rw [hc] at hunsubmitted
      cases hunsubmitted
      exact .inr ⟨i, left, job, hc, rfl⟩
    | submitting left job' =>
      rw [hc] at hunsubmitted
      cases hunsubmitted
      exact .inl ⟨h.recorded i left job hc, hnot⟩
    | _ => rw [hc] at hunsubmitted; cases hunsubmitted
  · exact .inl ⟨h.running f hf e he hattempt hopen, hnot⟩

/-- In every run, a recovery of expired leases by a controller leaves the row of every live job as it is, if no lease has run out of a
job that its snapshot of `_inflight` misses. -/
theorem live_jobs_spared (cfg : ServiceConfig) (settings : ExecutorSettings) (inputs : List SchedulerInput) (index : Nat) (due : Bool)
    (clock : Reading) (interruption : Interruption) (snapshot : List Uuid) :
    let s := Machine.run (step cfg settings) (create cfg) inputs
    s.controllers index = .recovering snapshot →
    (∀ jobId, s.Missed snapshot jobId → ∀ r ∈ s.service.store.jobs, r.id = jobId → Store.leaseExpired clock.now r = false) →
    ∀ jobId, s.Live jobId → ∀ r : JobRow, r.id = jobId →
      (r ∈ (s.step cfg settings (.controller index due clock interruption)).service.store.jobs ↔ r ∈ s.service.store.jobs) := by
  intro s hpc hmissed jobId hlive r hid
  have htracked : Tracked settings s := tracked_run cfg settings inputs
  have hserved : r ∈ (s.serve cfg (.store (.recoverExpiredLeases snapshot) clock)).service.store.jobs ↔ r ∈ s.service.store.jobs := by
    unfold serve Service.step
    dsimp only
    split
    · refine Store.recoverExpiredLeases_spares htracked.sound.wellFormed ?_ r hid
      by_cases hmem : jobId ∈ snapshot
      · exact .inl hmem
      · exact .inr (hmissed jobId (hlive.missed htracked hmem))
    · exact Iff.rfl
  unfold step
  dsimp only
  split
  · unfold advance
    simp only [hpc]
    cases interruption with
    | none => exact hserved
    | before => exact Iff.rfl
    | after => exact hserved
  · exact Iff.rfl

end Scheduler

/-! ## A sample of controllers -/

namespace Sample

/-- The next `n` calls of a controller. -/
def turn (index n : Nat) (seconds : Int) : List SchedulerInput := List.replicate n (.controller index false (clockAt seconds) .none)

/-- A service with a queued job. -/
def queuedRun : List SchedulerInput :=
  [.service (.open "worker" none), .service (.start (clockAt 1)), .service (.store (.submit "tenant" "key" spec) (clockAt 1))]

/-- A controller has handed a job to the pool, and taken its snapshot. -/
def snapshotRun : List SchedulerInput := queuedRun ++ turn 0 8 2 ++ [.controller 0 true (clockAt 2) .none]

/-- A controller takes its snapshot, then another one claims a job. -/
def delayedRun : List SchedulerInput :=
  queuedRun.take 2 ++ turn 1 4 1 ++ [.controller 1 true (clockAt 1) .none] ++ queuedRun.drop 2 ++ turn 0 3 2

end Sample

namespace Scheduler

open Sample in
/-- A job that was claimed and handed to the pool, with its future. -/
theorem inflight_accounted_sample :
    let s := Machine.run (step serviceCfg {}) (create serviceCfg) (queuedRun ++ turn 0 8 2)
    s.inflight = [1] ∧ s.inflight.length ≤ 2 ∧ ∃ f ∈ s.futures, f.jobId = 1 ∧ f.callback = true := by
  have hrun : (Machine.run (step serviceCfg {}) (create serviceCfg) (queuedRun ++ turn 0 8 2)).inflight = [1] ∧
      (Machine.run (step serviceCfg {}) (create serviceCfg) (queuedRun ++ turn 0 8 2)).scheduler = none ∧
      Machine.Guarded (step serviceCfg {}) HandsOver (create serviceCfg) (queuedRun ++ turn 0 8 2) := by decide +kernel
  obtain ⟨hinflight, hfree, hhands⟩ := hrun
  obtain ⟨hlength, hfutures⟩ := inflight_accounted serviceCfg {} (queuedRun ++ turn 0 8 2)
  obtain ⟨f, hf, hid, hcallback, -⟩ := hfutures hhands hfree 1 (by rw [hinflight]; exact List.mem_singleton_self 1)
  exact ⟨hinflight, hlength, f, hf, hid, hcallback⟩

open Sample in
/-- The pool raises when the job is handed to it: the job stays in `_inflight` without a future. -/
theorem inflight_leaked :
    ¬∀ inputs : List SchedulerInput,
      let s := Machine.run (step serviceCfg {}) (create serviceCfg) inputs
      s.scheduler = none → ∀ jobId ∈ s.inflight, ∃ f ∈ s.futures, f.jobId = jobId ∧ f.callback = true := by
  intro h
  have hrun := h (queuedRun ++ turn 0 4 2 ++ [.controller 0 false (clockAt 2) .before])
  revert hrun
  decide +kernel

open Sample in
/-- A recovery whose snapshot has the job that runs, long after its lease. -/
theorem live_jobs_spared_sample :
    let s := Machine.run (step serviceCfg {}) (create serviceCfg) snapshotRun
    s.service.store.jobs.map (·.id) = [1] ∧ ∀ r : JobRow, r.id = 1 →
      (r ∈ (s.step serviceCfg {} (.controller 0 true (clockAt 40) .none)).service.store.jobs ↔ r ∈ s.service.store.jobs) := by
  have hrun : (Machine.run (step serviceCfg {}) (create serviceCfg) snapshotRun).service.store.jobs.map (·.id) = [1] ∧
      (Machine.run (step serviceCfg {}) (create serviceCfg) snapshotRun).controllers 0 = .recovering [1] ∧
      (∃ f ∈ (Machine.run (step serviceCfg {}) (create serviceCfg) snapshotRun).futures, f.jobId = 1 ∧
        ∃ e ∈ (Machine.run (step serviceCfg {}) (create serviceCfg) snapshotRun).service.executions,
          e.attempt = f.attempt ∧ e.pc ≠ .executionDone ∧ e.pc ≠ .done) ∧
      (Machine.run (step serviceCfg {}) (create serviceCfg) snapshotRun).inflight = [1] ∧
      (Machine.run (step serviceCfg {}) (create serviceCfg) snapshotRun).scheduler = none := by decide +kernel
  obtain ⟨hids, hsnapshot, hruns, hinflight, hfree⟩ := hrun
  refine ⟨hids, live_jobs_spared serviceCfg {} snapshotRun 0 true (clockAt 40) .none [1] hsnapshot (fun jobId hmissed => ?_) 1 (.inr hruns)⟩
  rcases hmissed with ⟨hmem, hnot⟩ | ⟨i, left, job, hc, -⟩
  · exact absurd (hinflight ▸ hmem) hnot
  · have hholder := (tracked_run serviceCfg {} snapshotRun).holder i (by rw [hc]; rfl)
    exact absurd (hfree.symm.trans hholder) nofun

open Sample in
/-- A controller claims a job after another one took its snapshot, and is delayed; the lease runs out before the other one recovers. -/
theorem live_job_lost :
    ¬∀ (inputs : List SchedulerInput) (index : Nat) (due : Bool) (clock : Reading) (snapshot : List Uuid),
      let s := Machine.run (step serviceCfg {}) (create serviceCfg) inputs
      s.controllers index = .recovering snapshot → ∀ jobId, s.Live jobId →
        ∀ r ∈ (s.step serviceCfg {} (.controller index due clock .none)).service.store.jobs, r.id = jobId →
          (r.phase = .executorLost ∨ r.phase = .canceled) → r ∈ s.service.store.jobs := by
  intro h
  have hrun : ((Machine.run (step serviceCfg {}) (create serviceCfg) delayedRun).controllers 0).unsubmitted = some ⟨1, 2⟩ ∧
      (Machine.run (step serviceCfg {}) (create serviceCfg) delayedRun).controllers 1 = .recovering [] ∧
      ∃ r ∈ ((Machine.run (step serviceCfg {}) (create serviceCfg) delayedRun).step serviceCfg {}
          (.controller 1 true (clockAt 40) .none)).service.store.jobs,
        r.id = 1 ∧ r.phase = .executorLost ∧ r ∉ (Machine.run (step serviceCfg {}) (create serviceCfg) delayedRun).service.store.jobs := by
    decide +kernel
  obtain ⟨hunsubmitted, hsnapshot, r, hr, hid, hlost, hnot⟩ := hrun
  exact hnot (h delayedRun 1 true (clockAt 40) [] hsnapshot 1 (.inl ⟨0, ⟨1, 2⟩, hunsubmitted, rfl⟩) r hr hid (.inl hlost))

end Scheduler

end SharkRail
