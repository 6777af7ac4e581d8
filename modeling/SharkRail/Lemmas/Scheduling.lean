import SharkRail.Lemmas.Runs
import SharkRail.Service.Scheduling

/-!
# What a controller can do

`Move` lists what the calls of the controllers and the ends of the futures do, one effect at a time. A step of the scheduler is one move
or two (`moves_of_step`), and every reachable service behind it is reachable in `Service.step`: the controllers only choose among its
steps. `Tracked` is what every move keeps: the lock has one holder, the free capacity is his, and a job that is handed to the pool is in
`_inflight` until its callback has run.
-/

namespace SharkRail

namespace Controller

/-- The jobs that the controller may still claim under the capacity it measured. -/
def turns : Controller → Nat
  | .claiming left | .submitting left _ | .attaching left _ => left
  | .recording left _ => left + 1
  | _ => 0

/-- The job that the controller claimed and whose future has no callback yet. -/
def inHand : Controller → Option ClaimedJob
  | .recording _ job | .submitting _ job | .attaching _ job => some job
  | _ => none

/-- The job in hand, once it is in `_inflight`. -/
def recorded : Controller → Option ClaimedJob
  | .submitting _ job | .attaching _ job => some job
  | _ => none

/-- The job in hand, while the pool does not know it. -/
def unsubmitted : Controller → Option ClaimedJob
  | .recording _ job | .submitting _ job => some job
  | _ => none

/-- A call hands the job over, if it is to. -/
def HandsOver (interruption : Interruption) : Controller → Prop
  | .submitting .. => interruption = .none
  | .attaching .. => interruption ≠ .before
  | .waiting | .measuring | .claiming _ | .recording .. | .checkingRenewal | .renewing _ | .checkingReconcile | .recovering _ => True

instance (interruption : Interruption) : (c : Controller) → Decidable (c.HandsOver interruption)
  | .submitting .. => inferInstanceAs (Decidable (interruption = .none))
  | .attaching .. => inferInstanceAs (Decidable (interruption ≠ .before))
  | .waiting | .measuring | .claiming _ | .recording .. | .checkingRenewal | .renewing _ | .checkingReconcile | .recovering _ =>
    .isTrue trivial

/-- A controller that does not schedule has no turn left. -/
theorem turns_of_not_scheduling {c : Controller} (h : c.scheduling = false) : c.turns = 0 := by
  cases c <;> first | rfl | cases h

/-- A controller that does not schedule has no job in hand. -/
theorem inHand_of_not_scheduling {c : Controller} (h : c.scheduling = false) : c.inHand = none := by
  cases c <;> first | rfl | cases h

/-- A job that is not submitted yet is in hand. -/
theorem inHand_of_unsubmitted {c : Controller} {job : ClaimedJob} (h : c.unsubmitted = some job) : c.inHand = some job := by
  cases c <;> first | exact h | cases h

/-- A job that was recorded is in hand. -/
theorem inHand_of_recorded {c : Controller} {job : ClaimedJob} (h : c.recorded = some job) : c.inHand = some job := by
  cases c <;> first | exact h | cases h

/-- A controller with a job in hand schedules. -/
theorem scheduling_of_inHand {c : Controller} {job : ClaimedJob} (h : c.inHand = some job) : c.scheduling = true := by
  cases c <;> first | rfl | cases h

end Controller

/-! ## Executions over a step of the service -/

namespace Service

variable {cfg : ServiceConfig} {s : Service} {e e' : Execution} {input : ServiceInput}

/-- An execution that goes on does not come to its end, unless it is at its callback. -/
theorem resume_done {reply : Except Exc Reply} (h : (e.resume reply).pc = .done) : e.pc = .executionDone ∨ e.pc = .done := by
  have hleave : ∀ e : Execution, e.leave.pc ≠ .done := fun e => by
    unfold Execution.leave
    dsimp only
    split <;> exact nofun
  have hhandle : ∀ (e : Execution) x, (e.handle x).pc ≠ .done := fun e x => by cases x <;> exact nofun
  have hraised : ∀ (e : Execution) x, (e.raised x).pc ≠ .done := fun _ _ => nofun
  cases reply with
  | ok reply =>
    unfold Execution.resume Execution.proceed at h
    dsimp only at h
    split at h
    all_goals first | exact absurd h (hraised _ _) | exact absurd h (hleave _) | exact absurd h (hhandle _ _) | simp_all
  | error x =>
    unfold Execution.resume Execution.fail at h
    dsimp only at h
    split at h
    · exact absurd h (hraised _ _)
    · split at h
      · cases h
      · exact absurd h (hraised _ _)
    · split at h
      · cases h
      · exact absurd h (hleave _)
    · split at h
      · exact absurd h (hhandle _ _)
      · exact absurd h (hleave _)
    all_goals first | exact absurd h (hleave _) | exact absurd h (hraised _ _) | exact .inl ‹_› | exact .inr ‹_› | cases h

/-- A step that takes an execution to its end runs the callback of its future. -/
theorem Moved.done (h : Moved cfg s input e e') (hdone : e'.pc = .done) :
    e.pc = .done ∨ e.pc = .executionDone ∧ ∃ clock fault, input = .execute e.attempt clock fault := by
  cases h with
  | kept => exact .inl hdone
  | executed e clock fault reply s' hcall _ => exact (resume_done hdone).symm.imp_right fun hpc => ⟨hpc, clock, fault, rfl⟩
  | called e c rest => exact .inl ((callback_frame { e with callbacks := rest } c).1.symm.trans hdone)
  | monitored => exact .inl hdone
  | sent => exact .inl hdone

/-- What is at its end stays there. -/
theorem Moved.stays (h : Moved cfg s input e e') (hdone : e.pc = .done) : e'.pc = .done := by
  cases h with
  | kept | monitored | sent => exact hdone
  | executed e clock fault reply s' hcall _ => exact absurd hdone hcall.advances.not_done
  | called e c rest => exact (callback_frame { e with callbacks := rest } c).1.trans hdone

end Service

/-! ## Moves -/

namespace Scheduler

open Relation

variable {cfg : ServiceConfig} {settings : ExecutorSettings} {s s' : Scheduler}

/-- A step of the service that leaves the executions to the pool, and runs no callback of a future. -/
def Serves (s : Scheduler) : ServiceInput → Prop
  | .crash _ => False
  | .execute attempt _ _ => (∃ f ∈ s.futures, f.attempt = attempt) ∧ s.ended attempt = false
  | _ => True

/-- The callbacks of the futures of an attempt, set. -/
def setCallback (attempt : Uuid) (callback : Bool) (futures : List JobFuture) : List JobFuture :=
  futures.map fun f => if f.attempt = attempt then { f with callback } else f

/-- One effect of a step. A job is dropped where a call raises between its entry in `_inflight` and the callback of its future; `lost`
says whether that may come. -/
inductive Move (cfg : ServiceConfig) (settings : ExecutorSettings) (lost : Prop) (s : Scheduler) : Scheduler → Prop where
  | served (input : ServiceInput) (hserves : s.Serves input) : Move cfg settings lost s (s.serve cfg input)
  | acquired (i : Nat) (hfree : s.scheduler = none) :
      Move cfg settings lost s ({ s with scheduler := some i }.goTo i .measuring)
  | measured (i : Nat) (hpc : s.controllers i = .measuring) :
      Move cfg settings lost s (s.goTo i (.claiming (settings.workers - s.inflight.length)))
  | turned (i : Nat) (next : Controller) (hpc : (s.controllers i).scheduling = false) (hnext : next.scheduling = false) :
      Move cfg settings lost s (s.goTo i next)
  | left (i : Nat) (next : Controller) (hpc : (s.controllers i).recorded = none) (hnext : next.scheduling = false) :
      Move cfg settings lost s (s.leaveTo i next)
  | dropped (i : Nat) (hlost : lost) : Move cfg settings lost s (s.raised i)
  | claimed (i left : Nat) (clock : Reading) (job : ClaimedJob) (hstarted : s.service.started = true)
      (hpc : s.controllers i = .claiming (left + 1)) (hclaim : s.claimNext cfg settings clock = .ok (some job)) :
      Move cfg settings lost s ((s.serve cfg (.claim settings.leaseSeconds clock)).goTo i (.recording left job))
  | recorded (i left : Nat) (job : ClaimedJob) (hpc : s.controllers i = .recording left job) :
      Move cfg settings lost s ({ s with inflight := s.inflight.insert job.jobId }.goTo i (.submitting left job))
  | submitted (i left : Nat) (job : ClaimedJob) (hpc : s.controllers i = .submitting left job) :
      Move cfg settings lost s (({ s with futures := s.futures ++ [⟨job, false⟩] } : Scheduler).goTo i (.attaching left job))
  | attached (i left : Nat) (job : ClaimedJob) (hpc : s.controllers i = .attaching left job) (hopen : s.ended job.attempt = false) :
      Move cfg settings lost s ({ s with futures := setCallback job.attempt true s.futures }.goTo i (.claiming left))
  | finished (f : JobFuture) (clock : Reading) (hf : f ∈ s.futures) (hcallback : f.callback = true)
      (hended : s.ended f.attempt = true) (hfree : s.service.locked = false) :
      Move cfg settings lost s (s.executionDone cfg f.toClaimedJob clock)
  | attachedDone (i left : Nat) (job : ClaimedJob) (clock : Reading) (hpc : s.controllers i = .attaching left job)
      (hended : s.ended job.attempt = true) (hfree : s.service.locked = false) :
      Move cfg settings lost s ((s.executionDone cfg job clock).goTo i (.claiming left))
  | crashed (tear : Tear) : Move cfg settings lost s { service := s.service.step cfg (.crash tear) }

/-- The pool takes every job that a controller hands to it: `submit` does not raise, nor does `add_done_callback` before the callback is
there. -/
def HandsOver (s : Scheduler) : SchedulerInput → Prop
  | .controller index _ _ interruption => (s.controllers index).HandsOver interruption
  | .executionDone .. | .service _ => True

instance (s : Scheduler) : (input : SchedulerInput) → Decidable (s.HandsOver input)
  | .controller index _ _ interruption => inferInstanceAs (Decidable ((s.controllers index).HandsOver interruption))
  | .executionDone .. | .service _ => .isTrue trivial

/-- Where a controller raises, it does not matter where it would go on. -/
theorem raised_goTo (index : Nat) (next : Controller) (s : Scheduler) : (s.goTo index next).raised index = s.raised index := by
  simp only [raised, leaveTo, goTo]
  congr 1
  funext i
  split <;> rfl

/-- A call outside of the scheduling: its effect, if it comes to it, and where the controller goes on. -/
theorem called_moves {lost : Prop} (index : Nat) (interruption : Interruption) {input : ServiceInput} (hserves : s.Serves input)
    {next : Controller} (hpc : (s.controllers index).scheduling = false) (hnext : next.scheduling = false) :
    ReflTransGen (Move cfg settings lost) s (s.called index interruption (s.serve cfg input) next) := by
  have hrecorded : (s.controllers index).recorded = none := by
    cases hc : s.controllers index <;> first | rfl | (rw [hc] at hpc; cases hpc)
  cases interruption with
  | none => exact .tail (.single (.served input hserves)) (.turned index next hpc hnext)
  | before => exact .single (.left index .waiting hrecorded rfl)
  | after => exact .tail (.single (.served input hserves)) (.left index .waiting hrecorded rfl)

/-- The next call of a controller is one move or two. -/
theorem moves_of_advance {lost : Prop} (index : Nat) (due : Bool) (clock : Reading) (interruption : Interruption)
    (hstarted : s.service.started = true) (h : lost ∨ s.HandsOver (.controller index due clock interruption)) :
    ReflTransGen (Move cfg settings lost) s (s.advance cfg settings index due clock interruption) := by
  unfold advance
  cases hpc : s.controllers index with
  | waiting =>
    dsimp only
    split
    · exact .refl
    · rename_i hwait
      have hfree : s.scheduler = none := by
        cases hholder : s.scheduler with
        | none => rfl
        | some i => simp [hholder] at hwait
      exact .single (.acquired index hfree)
  | measuring =>
    dsimp only
    split
    · exact .refl
    · exact .single (.measured index hpc)
  | claiming left =>
    have hrecorded : (s.controllers index).recorded = none := by rw [hpc]; rfl
    cases left with
    | zero => exact .single (.left index .checkingRenewal hrecorded rfl)
    | succ left =>
      have hserved : ∀ next : Controller, next.scheduling = false → ReflTransGen (Move cfg settings lost) s
          ((s.serve cfg (.claim settings.leaseSeconds clock)).leaveTo index next) := fun next hnext =>
        .tail (.single (.served (.claim settings.leaseSeconds clock) trivial)) (.left index next hrecorded hnext)
      dsimp only
      split
      · rename_i job hclaim
        cases interruption with
        | none => exact .single (.claimed index left clock job hstarted hpc hclaim)
        | before => exact .single (.left index .waiting hrecorded rfl)
        | after => exact hserved .waiting rfl
      · cases interruption with
        | none => exact hserved .checkingRenewal rfl
        | before => exact .single (.left index .waiting hrecorded rfl)
        | after => exact hserved .waiting rfl
      · exact hserved .waiting rfl
  | recording left job =>
    dsimp only
    split
    · exact .refl
    · exact .single (.recorded index left job hpc)
  | submitting left job =>
    simp only [HandsOver, hpc, Controller.HandsOver] at h
    cases interruption with
    | none => exact .single (.submitted index left job hpc)
    | before => exact .single (.dropped index (h.resolve_right nofun))
    | after =>
      have hsubmitted : Move cfg settings lost s _ := .submitted index left job hpc
      have hmoves := ReflTransGen.tail (.single hsubmitted) (.dropped index (h.resolve_right nofun))
      rw [raised_goTo] at hmoves
      exact hmoves
  | attaching left job =>
    simp only [HandsOver, hpc, Controller.HandsOver] at h
    have hattach : ¬(s.ended job.attempt && s.service.locked) = true →
        Move cfg settings lost s ((s.addDoneCallback cfg job clock).goTo index (.claiming left)) := by
      intro hwait
      unfold addDoneCallback
      split
      · rename_i hended
        exact .attachedDone index left job clock hpc hended (by simpa [hended] using hwait)
      · rename_i hopen
        exact .attached index left job hpc (by simpa using hopen)
    dsimp only
    split
    · exact .refl
    · rename_i hwait
      cases interruption with
      | none => exact .single (hattach hwait)
      | before => exact .single (.dropped index (h.resolve_right (· rfl)))
      | after =>
        have hattached : (((s.addDoneCallback cfg job clock).goTo index (.claiming left)).controllers index).recorded = none := by
          simp [goTo, Controller.recorded]
        have hmoves := ReflTransGen.tail (.single (hattach hwait)) (.left index .waiting hattached rfl)
        change ReflTransGen _ s (raised index _) at hmoves
        rw [raised_goTo] at hmoves
        exact hmoves
  | checkingRenewal =>
    have hfree : (s.controllers index).scheduling = false := by rw [hpc]; rfl
    dsimp only
    split
    · exact .single (.turned index _ hfree rfl)
    · split
      · exact .refl
      · exact .single (.turned index _ hfree rfl)
  | renewing runs =>
    have hfree : (s.controllers index).scheduling = false := by rw [hpc]; rfl
    cases runs with
    | nil => exact .single (.turned index _ hfree rfl)
    | cons run runs => exact called_moves index interruption (by trivial) hfree rfl
  | checkingReconcile =>
    have hfree : (s.controllers index).scheduling = false := by rw [hpc]; rfl
    dsimp only
    split
    · exact .single (.turned index _ hfree rfl)
    · split
      · exact .refl
      · exact .single (.turned index _ hfree rfl)
  | recovering inflight =>
    have hfree : (s.controllers index).scheduling = false := by rw [hpc]; rfl
    exact called_moves index interruption (by trivial) hfree rfl

/-- Every step is a sequence of moves. -/
theorem moves_of_step {lost : Prop} (input : SchedulerInput) (h : lost ∨ s.HandsOver input) :
    ReflTransGen (Move cfg settings lost) s (s.step cfg settings input) := by
  unfold step
  split
  · split
    · exact moves_of_advance _ _ _ _ ‹_› h
    · exact .refl
  · split
    · rename_i attempt clock _ f hfound
      have hf := List.mem_of_find?_eq_some hfound
      have hfound := List.find?_some hfound
      simp only [Bool.and_eq_true, decide_eq_true_eq] at hfound
      obtain ⟨rfl, hcallback⟩ := hfound
      split
      · rename_i hready
        simp only [Bool.and_eq_true, Bool.not_eq_true'] at hready
        exact .single (.finished f clock hf hcallback hready.1 hready.2)
      · exact .refl
    · exact .refl
  · exact .single (.crashed _)
  · rename_i input hcrash
    split
    · rename_i hpermits
      refine .single (.served input ?_)
      cases input with
      | crash tear => exact absurd rfl (hcrash tear)
      | execute attempt clock fault =>
        simp only [permits, Bool.and_eq_true, List.any_eq_true, decide_eq_true_eq, Bool.not_eq_true'] at hpermits
        exact hpermits
      | _ => trivial
    · exact .refl

/-! ## What every move keeps -/

/-- The execution of a claimed job. -/
def Executes (s : Scheduler) (job : ClaimedJob) : Prop :=
  ∃ e ∈ s.service.executions, e.attempt = job.attempt ∧ e.job.id = job.jobId

/-- The lock has one holder, and the capacity that is left after his turns is enough; futures and jobs in hand are of executions, a job
that is not handed over has no future, and what was handed over is in `_inflight` until its callback has run. -/
structure Tracked (settings : ExecutorSettings) (s : Scheduler) : Prop where
  sound : Service.Sound s.service
  holder : ∀ i, (s.controllers i).scheduling = true → s.scheduler = some i
  room : ∀ i, s.inflight.length + (s.controllers i).turns ≤ settings.workers
  futures : ∀ f ∈ s.futures, s.Executes f.toClaimedJob
  hands : ∀ i job, (s.controllers i).inHand = some job → s.Executes job
  unsubmitted : ∀ i job, (s.controllers i).unsubmitted = some job → ∀ f ∈ s.futures, f.attempt ≠ job.attempt
  recorded : ∀ i left job, s.controllers i = .submitting left job → job.jobId ∈ s.inflight
  running : ∀ f ∈ s.futures, ∀ e ∈ s.service.executions, e.attempt = f.attempt → e.pc ≠ .done → f.jobId ∈ s.inflight

/-- Only one controller has turns, and only one has a job in hand. -/
theorem Tracked.alone (h : Tracked settings s) {i k : Nat} (hi : (s.controllers i).scheduling = true) (hk : k ≠ i) :
    (s.controllers k).scheduling = false := by
  by_contra hscheduling
  have hholder := h.holder k (by simpa using hscheduling)
  rw [h.holder i hi] at hholder
  exact hk (Option.some.inj hholder).symm

/-- The executions of two claimed jobs are one if their attempts are, and if their jobs are. -/
theorem Tracked.jobId_iff (h : Tracked settings s) {a b : ClaimedJob} (ha : s.Executes a) (hb : s.Executes b) :
    a.attempt = b.attempt ↔ a.jobId = b.jobId := by
  obtain ⟨e, he, hattempt, hid⟩ := ha
  obtain ⟨e', he', hattempt', hid'⟩ := hb
  constructor
  · intro hsame
    obtain rfl := Table.eq_of_key Execution.attempt h.sound.attempts he he' (by rw [hattempt, hattempt', hsame])
    rw [← hid, ← hid']
  · intro hsame
    obtain rfl := Table.eq_of_key (fun e : Execution => e.job.id) h.sound.jobs he he' (by rw [hid, hid', hsame])
    rw [← hattempt, ← hattempt']

/-- The controller is where it went. -/
theorem goTo_self (index : Nat) (next : Controller) (s : Scheduler) : (s.goTo index next).controllers index = next := if_pos rfl

/-- The other controllers stay where they are. -/
theorem goTo_ne {index k : Nat} (next : Controller) (s : Scheduler) (h : k ≠ index) :
    (s.goTo index next).controllers k = s.controllers k := if_neg h

/-- Whatever holds of the controllers holds still, if it holds of where the one goes on. -/
theorem forall_goTo {P : Controller → Prop} {index : Nat} {next : Controller} (hnext : P next) (h : ∀ i, P (s.controllers i)) (i : Nat) :
    P ((s.goTo index next).controllers i) := by
  unfold goTo
  dsimp only
  split
  · exact hnext
  · exact h i

/-- A controller goes on with no job in hand. -/
theorem Tracked.move (h : Tracked settings s) {index : Nat} {next : Controller} (scheduler : Option Nat)
    (hholder : ∀ i, ((s.goTo index next).controllers i).scheduling = true → scheduler = some i)
    (hroom : s.inflight.length + next.turns ≤ settings.workers) (hhand : next.inHand = none) :
    Tracked settings ({ s with scheduler }.goTo index next) := by
  refine ⟨h.sound, hholder, forall_goTo (s := s) (P := fun c => s.inflight.length + c.turns ≤ settings.workers) hroom h.room, h.futures,
    ?_, ?_, ?_, h.running⟩
  · refine forall_goTo (s := s) (P := fun c => ∀ job, c.inHand = some job → s.Executes job) (fun job hjob => ?_) h.hands
    rw [hhand] at hjob
    cases hjob
  · refine forall_goTo (s := s) (P := fun c => ∀ job, c.unsubmitted = some job → ∀ f ∈ s.futures, f.attempt ≠ job.attempt)
      (fun job hjob => ?_) h.unsubmitted
    rw [Controller.inHand_of_unsubmitted hjob] at hhand
    cases hhand
  · refine forall_goTo (s := s) (P := fun c => ∀ left job, c = .submitting left job → job.jobId ∈ s.inflight)
      (fun left job hjob => ?_) h.recorded
    rw [hjob] at hhand
    cases hhand

/-- A controller that has no job in hand keeps the lock, or has none. -/
theorem Tracked.goTo (h : Tracked settings s) {index : Nat} {next : Controller}
    (hscheduling : next.scheduling = true → (s.controllers index).scheduling = true)
    (hroom : s.inflight.length + next.turns ≤ settings.workers) (hhand : next.inHand = none) :
    Tracked settings (s.goTo index next) := by
  refine h.move s.scheduler (fun i hi => ?_) hroom hhand
  by_cases heq : i = index
  · subst heq
    rw [goTo_self] at hi
    exact h.holder i (hscheduling hi)
  · rw [goTo_ne _ _ heq] at hi
    exact h.holder i hi

/-- A controller that leaves its turn keeps the account. -/
theorem Tracked.leaveTo (h : Tracked settings s) {index : Nat} {next : Controller} (hnext : next.scheduling = false) :
    Tracked settings (s.leaveTo index next) := by
  have hroom := h.room index
  refine h.move _ (fun i hi => ?_) ?_ (Controller.inHand_of_not_scheduling hnext)
  · by_cases heq : i = index
    · subst heq
      rw [goTo_self, hnext] at hi
      cases hi
    · rw [goTo_ne _ _ heq] at hi
      have hholder := h.holder i hi
      rw [hholder, if_neg (by simpa using heq)]
  · rw [Controller.turns_of_not_scheduling hnext]
    omega

/-- The executions of claimed jobs go on over a step of the service. -/
theorem Executes.serve (hs : Service.Sound s.service) {job : ClaimedJob} (h : s.Executes job) {input : ServiceInput}
    (hcrash : ∀ tear, input ≠ .crash tear) : (s.serve cfg input).Executes job := by
  obtain ⟨e, he, hattempt, hid⟩ := h
  unfold Executes Scheduler.serve
  dsimp only
  cases hs.executes cfg input with
  | moved f hmoved hexecutions =>
    rw [hexecutions]
    have hsame := (hmoved e he).sameRun
    exact ⟨f e, List.mem_map_of_mem he, hsame.attempt.trans hattempt, hsame.job ▸ hid⟩
  | crashed tear hinput => exact absurd hinput (hcrash tear)
  | claimed _ _ _ _ _ _ _ _ _ _ _ _ hexecutions =>
    rw [hexecutions]
    exact ⟨e, List.mem_append_left _ he, hattempt, hid⟩

/-- An execution of a claimed job after a step of the service is the one before it, and at its end if that was, or if its callback
ran. -/
theorem execution_before (hs : Service.Sound s.service) {job : ClaimedJob} (h : s.Executes job) {input : ServiceInput} {e' : Execution}
    (he' : e' ∈ (s.serve cfg input).service.executions) (hattempt : e'.attempt = job.attempt) :
    ∃ e ∈ s.service.executions, e.attempt = job.attempt ∧ (e.pc = .done → e'.pc = .done) ∧
      (e'.pc = .done → e.pc = .done ∨ e.pc = .executionDone ∧ ∃ clock fault, input = .execute job.attempt clock fault) := by
  rcases hs.execution_from he' with ⟨e, he, hmoved⟩ | ⟨leaseSeconds, clock, claimed, rfl, hstarted, hclaim, rfl⟩
  · have hsame := hmoved.sameRun.attempt.symm.trans hattempt
    exact ⟨e, he, hsame, hmoved.stays, fun hdone => hsame ▸ hmoved.done hdone⟩
  · obtain ⟨e, he, hbefore, -⟩ := h
    have hdrawn := hs.drawn e he
    rw [hbefore, ← hattempt] at hdrawn
    exact absurd hdrawn (Nat.lt_irrefl _)

/-- A step of the service that runs no callback. -/
theorem Tracked.serve (h : Tracked settings s) {input : ServiceInput} (hserves : s.Serves input) :
    Tracked settings (s.serve cfg input) := by
  have hcrash : ∀ tear, input ≠ .crash tear := by
    rintro tear rfl
    exact hserves
  refine ⟨h.sound.step input, h.holder, h.room, fun f hf => (h.futures f hf).serve h.sound hcrash,
    fun i job hjob => (h.hands i job hjob).serve h.sound hcrash, h.unsubmitted, h.recorded, fun f hf e' he' hattempt hopen => ?_⟩
  obtain ⟨e, he, hbefore, hstays, -⟩ := execution_before h.sound (h.futures f hf) he' hattempt
  exact h.running f hf e he hbefore fun hdone => hopen (hstays hdone)

/-- What a claim returns has an execution from then on, which has still to begin, of an attempt that no future is of. -/
theorem Tracked.claim (h : Tracked settings s) {clock : Reading} {job : ClaimedJob} (hstarted : s.service.started = true)
    (hclaim : s.claimNext cfg settings clock = .ok (some job)) :
    (∃ e ∈ (s.serve cfg (.claim settings.leaseSeconds clock)).service.executions,
      e.attempt = job.attempt ∧ e.job.id = job.jobId ∧ e.pc = .checkStop) ∧ ∀ f ∈ s.futures, f.attempt ≠ job.attempt := by
  unfold claimNext at hclaim
  rcases Store.claimNext_cases cfg.store clock h.sound.wellFormed s.service.workerId settings.leaseSeconds with
    ⟨x, hx⟩ | hx | ⟨row, -, claimed, store, -, hx, hrow, -⟩
  · simp [hx, Except.map] at hclaim
  · simp [hx, Except.map] at hclaim
  · have hattempt : claimed.attemptId = some s.service.store.drawn := (congrArg JobRow.attemptId hrow).trans rfl
    simp only [hx, Except.map, Option.bind_some, hattempt, Option.map_some] at hclaim
    cases hclaim
    refine ⟨⟨{ job := claimed, attempt := s.service.store.drawn }, ?_, rfl, rfl, rfl⟩, fun f hf hsame => ?_⟩
    · simp only [Scheduler.serve, Service.step, hstarted, if_true, Service.claim, hx, hattempt]
      exact List.mem_append_right _ (List.mem_singleton_self _)
    · obtain ⟨e, he, hbefore, -⟩ := h.futures f hf
      have hdrawn := h.sound.drawn e he
      rw [hbefore, hsame] at hdrawn
      exact absurd hdrawn (Nat.lt_irrefl _)

/-- A claimed job is in the hand of the controller that claimed it. -/
theorem Tracked.claimed (h : Tracked settings s) {i left : Nat} {clock : Reading} {job : ClaimedJob}
    (hstarted : s.service.started = true) (hpc : s.controllers i = .claiming (left + 1))
    (hclaim : s.claimNext cfg settings clock = .ok (some job)) :
    Tracked settings ((s.serve cfg (.claim settings.leaseSeconds clock)).goTo i (.recording left job)) := by
  obtain ⟨⟨e, he, hattempt, hid, -⟩, hfresh⟩ := h.claim hstarted hclaim
  have hserved : Tracked settings (s.serve cfg (.claim settings.leaseSeconds clock)) := h.serve trivial
  have hroom := h.room i
  rw [hpc] at hroom
  refine ⟨hserved.sound, fun k hk => ?_, ?_, hserved.futures, ?_, ?_, ?_, hserved.running⟩
  · by_cases heq : k = i
    · subst heq
      exact h.holder k (by rw [hpc]; rfl)
    · rw [goTo_ne _ _ heq] at hk
      exact h.holder k hk
  · exact forall_goTo (P := fun c => s.inflight.length + c.turns ≤ settings.workers) hroom hserved.room
  · refine forall_goTo (P := fun c => ∀ job, c.inHand = some job → Executes _ job) (fun job' hjob => ?_) hserved.hands
    cases hjob
    exact ⟨e, he, hattempt, hid⟩
  · refine forall_goTo (P := fun c => ∀ job, c.unsubmitted = some job → ∀ f ∈ s.futures, f.attempt ≠ job.attempt)
      (fun job' hjob => ?_) hserved.unsubmitted
    cases hjob
    exact hfresh
  · exact forall_goTo (P := fun c => ∀ left job, c = .submitting left job → job.jobId ∈ s.inflight) nofun hserved.recorded

/-- The job in hand is put into `_inflight`. -/
theorem Tracked.record (h : Tracked settings s) {i left : Nat} {job : ClaimedJob} (hpc : s.controllers i = .recording left job) :
    Tracked settings ({ s with inflight := s.inflight.insert job.jobId }.goTo i (.submitting left job)) := by
  have hscheduling : (s.controllers i).scheduling = true := by rw [hpc]; rfl
  have hroom : s.inflight.length + (left + 1) ≤ settings.workers := by
    have hroom := h.room i
    rwa [hpc] at hroom
  have hlength : (s.inflight.insert job.jobId).length ≤ s.inflight.length + 1 := by
    rw [List.length_insert]
    split <;> omega
  refine ⟨h.sound, fun k hk => ?_, fun k => ?_, h.futures, ?_, ?_, fun k left' job' hk => ?_, fun f hf e he hattempt hopen => ?_⟩
  · by_cases heq : k = i
    · subst heq
      exact h.holder k hscheduling
    · exact h.holder k (by rwa [goTo_ne _ _ heq] at hk)
  · by_cases heq : k = i
    · subst heq
      rw [goTo_self]
      change (s.inflight.insert job.jobId).length + left ≤ _
      omega
    · rw [goTo_ne _ _ heq]
      change (s.inflight.insert job.jobId).length + (s.controllers k).turns ≤ _
      rw [Controller.turns_of_not_scheduling (h.alone hscheduling heq)]
      omega
  · refine forall_goTo (P := fun c => ∀ job, c.inHand = some job → s.Executes job) (fun job' hjob => ?_) h.hands
    cases hjob
    exact h.hands i job (by rw [hpc]; rfl)
  · refine forall_goTo (P := fun c => ∀ job, c.unsubmitted = some job → ∀ f ∈ s.futures, f.attempt ≠ job.attempt)
      (fun job' hjob => ?_) h.unsubmitted
    cases hjob
    exact h.unsubmitted i job (by rw [hpc]; rfl)
  · by_cases heq : k = i
    · subst heq
      rw [goTo_self] at hk
      cases hk
      exact List.mem_insert_iff.2 (.inl rfl)
    · rw [goTo_ne _ _ heq] at hk
      exact List.mem_insert_iff.2 (.inr (h.recorded k left' job' hk))
  · exact List.mem_insert_iff.2 (.inr (h.running f hf e he hattempt hopen))

/-- The job in hand is handed to the pool. -/
theorem Tracked.submit (h : Tracked settings s) {i left : Nat} {job : ClaimedJob} (hpc : s.controllers i = .submitting left job) :
    Tracked settings (({ s with futures := s.futures ++ [⟨job, false⟩] } : Scheduler).goTo i (.attaching left job)) := by
  have hscheduling : (s.controllers i).scheduling = true := by rw [hpc]; rfl
  have hroom := h.room i
  rw [hpc] at hroom
  refine ⟨h.sound, fun k hk => ?_, ?_, fun f hf => ?_, ?_, fun k job' hk => ?_, ?_, fun f hf e he hattempt hopen => ?_⟩
  · by_cases heq : k = i
    · subst heq
      exact h.holder k hscheduling
    · exact h.holder k (by rwa [goTo_ne _ _ heq] at hk)
  · exact forall_goTo (P := fun c => s.inflight.length + c.turns ≤ settings.workers) hroom h.room
  · rcases List.mem_append.1 hf with hf | hf
    · exact h.futures f hf
    · rw [List.mem_singleton.1 hf]
      exact h.hands i job (by rw [hpc]; rfl)
  · refine forall_goTo (P := fun c => ∀ job, c.inHand = some job → s.Executes job) (fun job' hjob => ?_) h.hands
    cases hjob
    exact h.hands i job (by rw [hpc]; rfl)
  · by_cases heq : k = i
    · subst heq
      rw [goTo_self] at hk
      cases hk
    · rw [goTo_ne _ _ heq] at hk
      have hfree := Controller.inHand_of_not_scheduling (h.alone hscheduling heq)
      rw [Controller.inHand_of_unsubmitted hk] at hfree
      cases hfree
  · exact forall_goTo (P := fun c => ∀ left job, c = .submitting left job → job.jobId ∈ s.inflight) nofun h.recorded
  · rcases List.mem_append.1 hf with hf | hf
    · exact h.running f hf e he hattempt hopen
    · rw [List.mem_singleton.1 hf]
      exact h.recorded i left job hpc

/-- The futures stay those of their jobs; of one the callback is set. -/
theorem mem_setCallback {attempt : Uuid} {callback : Bool} {futures : List JobFuture} {f' : JobFuture}
    (h : f' ∈ setCallback attempt callback futures) :
    ∃ f ∈ futures, f'.toClaimedJob = f.toClaimedJob ∧ f'.callback = if f.attempt = attempt then callback else f.callback := by
  obtain ⟨f, hf, rfl⟩ := List.mem_map.1 h
  refine ⟨f, hf, ?_⟩
  split <;> exact ⟨rfl, rfl⟩

/-- Callbacks are set without a change of the jobs of the futures. -/
theorem Tracked.setCallback (h : Tracked settings s) (attempt : Uuid) (callback : Bool) :
    Tracked settings { s with futures := setCallback attempt callback s.futures } := by
  refine ⟨h.sound, h.holder, h.room, fun f' hf' => ?_, h.hands, fun i job hjob f' hf' => ?_, h.recorded,
    fun f' hf' e he hattempt hopen => ?_⟩
  · obtain ⟨f, hf, hjob, -⟩ := mem_setCallback hf'
    rw [hjob]
    exact h.futures f hf
  · obtain ⟨f, hf, hjob', -⟩ := mem_setCallback hf'
    rw [hjob']
    exact h.unsubmitted i job hjob f hf
  · obtain ⟨f, hf, hjob, -⟩ := mem_setCallback hf'
    rw [hjob] at hattempt ⊢
    exact h.running f hf e he hattempt hopen

/-- `_execution_done` takes an execution that has ended to its end. -/
theorem executionDone_done (hs : Service.Sound s.service) {job : ClaimedJob} (clock : Reading) (hended : s.ended job.attempt = true)
    (hfree : s.service.locked = false) {e' : Execution} (he' : e' ∈ (s.executionDone cfg job clock).service.executions)
    (hattempt : e'.attempt = job.attempt) : e'.pc = .done := by
  obtain ⟨e, he, hmatches⟩ := List.any_eq_true.1 hended
  simp only [Bool.and_eq_true, decide_eq_true_eq] at hmatches
  obtain ⟨hbefore, hpc⟩ := hmatches
  have hperform : s.service.perform cfg clock .none e =
      some (.ok .unit, { s.service with active := s.service.active.erase e.job.id }) := by
    simp [Service.perform, hpc, hfree]
  have hexecutions : (s.executionDone cfg job clock).service.executions =
      (s.service.update e.attempt fun e => e.resume (.ok .unit)).executions := by
    simp only [executionDone, Scheduler.serve, Service.step, ← hbefore, hs.find? he, Service.execute, hperform]
    rfl
  rw [hexecutions, Service.mem_update] at he'
  obtain ⟨x, hx, rfl⟩ := he'
  have hsame : x = e := by
    refine Table.eq_of_key Execution.attempt hs.attempts hx he ?_
    split at hattempt
    · assumption
    · exact hattempt.trans hbefore.symm
  subst hsame
  simp [Execution.resume, Execution.proceed, hpc]

/-- The callback of a future takes its job out of `_inflight`, and no other. -/
theorem Tracked.executionDone (h : Tracked settings s) {job : ClaimedJob} (clock : Reading) (hexecutes : s.Executes job)
    (hended : s.ended job.attempt = true) (hfree : s.service.locked = false)
    (hsubmitted : ∀ i job', (s.controllers i).unsubmitted = some job' → job'.attempt ≠ job.attempt) :
    Tracked settings (s.executionDone cfg job clock) := by
  have hcrash : ∀ tear, ServiceInput.execute job.attempt clock .none ≠ .crash tear := nofun
  have hother : ∀ {job' : ClaimedJob}, s.Executes job' → job'.attempt ≠ job.attempt → job'.jobId ∈ s.inflight →
      job'.jobId ∈ s.inflight.filter (· ≠ job.jobId) := by
    intro job' hexecutes' hne hmem
    refine List.mem_filter.2 ⟨hmem, ?_⟩
    simpa using fun hsame => hne ((h.jobId_iff hexecutes' hexecutes).2 hsame)
  have hsound : Service.Sound (s.service.step cfg (.execute job.attempt clock .none)) := h.sound.step _
  refine ⟨hsound, h.holder, fun i => ?_, fun f' hf' => ?_, fun i job' hjob => (h.hands i job' hjob).serve h.sound hcrash,
    fun i job' hjob f' hf' => ?_, fun i left job' hk => ?_, fun f' hf' e' he' hattempt hopen => ?_⟩
  · have hlength := List.length_filter_le (fun x => decide (x ≠ job.jobId)) s.inflight
    have hroom := h.room i
    change (s.inflight.filter _).length + (s.controllers i).turns ≤ _
    omega
  · obtain ⟨f, hf, hjob, -⟩ := mem_setCallback hf'
    rw [hjob]
    exact (h.futures f hf).serve h.sound hcrash
  · obtain ⟨f, hf, hjob', -⟩ := mem_setCallback hf'
    rw [hjob']
    exact h.unsubmitted i job' hjob f hf
  · have hjob : (s.controllers i).unsubmitted = some job' := by
      have hk : s.controllers i = .submitting left job' := hk
      rw [hk]
      rfl
    exact hother (h.hands i job' (Controller.inHand_of_unsubmitted hjob)) (hsubmitted i job' hjob) (h.recorded i left job' hk)
  · obtain ⟨f, hf, hjob, -⟩ := mem_setCallback hf'
    rw [hjob] at hattempt ⊢
    obtain ⟨e, he, hbefore, hstays, -⟩ := execution_before h.sound (h.futures f hf) he' hattempt
    refine hother (h.futures f hf) (fun hsame => ?_) (h.running f hf e he hbefore fun hdone => hopen (hstays hdone))
    exact hopen (executionDone_done h.sound clock hended hfree he' (hattempt.trans hsame))

/-- Every move keeps it. -/
theorem Tracked.next {lost : Prop} (h : Tracked settings s) (hmove : Move cfg settings lost s s') : Tracked settings s' := by
  cases hmove with
  | served input hserves => exact h.serve hserves
  | acquired i hfree =>
    have hroom := h.room i
    refine h.move (some i) (fun k hk => ?_) ?_ rfl
    · by_cases heq : k = i
      · rw [heq]
      · rw [goTo_ne _ _ heq] at hk
        exact absurd (hfree.symm.trans (h.holder k hk)) nofun
    · change s.inflight.length + 0 ≤ _
      omega
  | measured i hpc =>
    have hroom := h.room i
    refine h.goTo (fun _ => by rw [hpc]; rfl) ?_ rfl
    change s.inflight.length + (settings.workers - s.inflight.length) ≤ _
    omega
  | turned i next hpc hnext =>
    have hroom := h.room i
    refine h.goTo (fun hscheduling => ?_) ?_ (Controller.inHand_of_not_scheduling hnext)
    · rw [hnext] at hscheduling
      cases hscheduling
    · rw [Controller.turns_of_not_scheduling hnext]
      omega
  | left i next _ hnext => exact h.leaveTo hnext
  | dropped i _ => exact h.leaveTo rfl
  | claimed i left clock job hstarted hpc hclaim => exact h.claimed hstarted hpc hclaim
  | recorded i left job hpc => exact h.record hpc
  | submitted i left job hpc => exact h.submit hpc
  | attached i left job hpc _ =>
    have hroom := h.room i
    rw [hpc] at hroom
    exact (h.setCallback job.attempt true).goTo (fun _ => by change (s.controllers i).scheduling = true; rw [hpc]; rfl) hroom rfl
  | finished f clock hf _ hended hfree =>
    exact h.executionDone clock (h.futures f hf) hended hfree fun i job' hjob hsame => h.unsubmitted i job' hjob f hf hsame.symm
  | attachedDone i left job clock hpc hended hfree =>
    have hscheduling : (s.controllers i).scheduling = true := by rw [hpc]; rfl
    have hdone : Tracked settings (s.executionDone cfg job clock) := by
      refine h.executionDone clock (h.hands i job (by rw [hpc]; rfl)) hended hfree fun k job' hjob => ?_
      by_cases heq : k = i
      · subst heq
        rw [hpc] at hjob
        cases hjob
      · have hfree := Controller.inHand_of_not_scheduling (h.alone hscheduling heq)
        rw [Controller.inHand_of_unsubmitted hjob] at hfree
        cases hfree
    have hroom := hdone.room i
    change _ + (s.controllers i).turns ≤ _ at hroom
    rw [hpc] at hroom
    exact hdone.goTo (fun _ => hscheduling) hroom rfl
  | crashed tear =>
    exact ⟨h.sound.step (.crash tear), nofun, fun _ => Nat.zero_le _, nofun, nofun, nofun, nofun, nofun⟩

/-- Every step keeps the account. -/
theorem Tracked.step (h : Tracked settings s) (input : SchedulerInput) : Tracked settings (s.step cfg settings input) := by
  have hmoves : ReflTransGen (Move cfg settings True) s (s.step cfg settings input) := moves_of_step input (.inl trivial)
  generalize s.step cfg settings input = s' at hmoves
  induction hmoves with
  | refl => exact h
  | tail _ hmove ih => exact ih.next hmove

/-- Nothing is in flight at the start. -/
theorem tracked_create (cfg : ServiceConfig) (settings : ExecutorSettings) : Tracked settings (create cfg) :=
  ⟨Service.sound_create cfg, nofun, fun _ => Nat.zero_le _, nofun, nofun, nofun, nofun, nofun⟩

/-- Every run keeps the account. -/
theorem tracked_run (cfg : ServiceConfig) (settings : ExecutorSettings) (inputs : List SchedulerInput) :
    Tracked settings (Machine.run (step cfg settings) (create cfg) inputs) :=
  Machine.run_induct (fun _ input h => h.step input) (tracked_create cfg settings) inputs

end Scheduler

end SharkRail
