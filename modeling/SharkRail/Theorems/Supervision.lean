import Mathlib
import SharkRail.Service.ControlMaster
import SharkRail.Theorems.Ownership

/-!
# The supervision of Workers

The control process runs one Worker at a time: the next one starts when the one before is gone and its registered process groups were handed
to the cleanup. A Worker is attended to from its start to the cleanup (`Attended`), and where the main thread is says how far the last one
has come (`Stands`).
-/

namespace SharkRail

namespace Ownership

namespace Generation

variable {registry : Registry} {g : Generation}

/-- A generation that is served as it should, and one that is over: what was handed to the cleanup are the records that were admitted and
whose unregistration was not served. -/
structure Supervised (registry : Registry) (g : Generation) : Prop where
  sound : g.orphans = none → Sound registry g
  ended : g.orphans.isSome = true → g.alive = false
  handed : ∀ orphans ∈ g.orphans, ∀ record, record ∈ orphans ↔ Registered registry g.served record

/-- A generation that is served as it should is supervised. -/
theorem Sound.supervised (h : Sound registry g) : Supervised registry g :=
  ⟨fun _ => h, h.ended, fun orphans horphans => (h.settled orphans horphans).2⟩

/-- A Worker that was just started. -/
theorem supervised_start (registry : Registry) : Supervised registry {} := by
  refine Sound.supervised ⟨fun _ => ⟨rfl, List.Pairwise.nil, fun record => ?_⟩, ?_, ?_, ?_, ?_⟩
  · simp [Registered]
  all_goals simp

/-- Once its records were handed over nothing happens to a generation. -/
theorem step_of_over (halive : g.alive = false) (horphans : g.orphans.isSome = true) (input : OwnershipInput) :
    g.step registry input = g := by
  have hsome : g.orphans ≠ none := Option.isSome_iff_ne_none.1 horphans
  cases input with
  | spawn | receive | timeout => simp [Generation.step, halive]
  | close => simp [Generation.step, halive]
  | register i | unregister i =>
    unfold Generation.step
    dsimp only
    split
    · simp [halive]
    · rfl
  | die =>
    change { g with alive := false } = g
    rw [← halive]
  | service turns => simp [Generation.step, hsome]
  | finish turns => simp [Generation.step, hsome]

/-- A last time the messages are served, and what is registered then is handed over. -/
theorem handed_finish (h : Sound registry g) (halive : g.alive = false) (horphans : g.orphans = none) (turns : ℕ → Turn) :
    Supervised registry (g.step registry (.finish turns)) ∧ (g.step registry (.finish turns)).orphans.isSome = true := by
  have hserved := (h.serves horphans).service turns
  have hfinish : g.step registry (.finish turns) = g.finishOwnershipGeneration registry turns := by
    simp [Generation.step, halive, horphans]
  rw [hfinish]
  unfold finishOwnershipGeneration
  obtain ⟨queue, acks, owned, served, heq⟩ := serviceOwnershipMessages_eq g g.queue turns
  rw [heq] at hserved ⊢
  dsimp only at hserved ⊢
  refine ⟨⟨?_, fun _ => halive, ?_⟩, rfl⟩
  · intro hnone
    cases hnone
  · intro orphans ho
    cases ho
    exact hserved.owned

/-- One input of the Worker, of its pipe or of the Master. -/
theorem Supervised.step (h : Supervised registry g) (input : OwnershipInput) : Supervised registry (g.step registry input) := by
  cases horphans : g.orphans with
  | some orphans =>
    have hover : g.orphans.isSome = true := by rw [horphans]; rfl
    rw [step_of_over (h.ended hover) hover]
    exact h
  | none =>
    have hsound := h.sound horphans
    have hnext : Drains g input → Supervised registry (g.step registry input) := fun hdrains => (hsound.step hdrains).supervised
    cases input with
    | finish turns =>
      cases halive : g.alive with
      | false => exact (handed_finish hsound halive horphans turns).1
      | true =>
        have hsame : g.step registry (.finish turns) = g := by simp [Generation.step, halive]
        rw [hsame]
        exact h
    | spawn | register | unregister | receive | timeout | close | die | service => exact hnext trivial

/-- A Worker that has ended does not come back to life. -/
theorem alive_step (input : OwnershipInput) (h : (g.step registry input).alive = true) : g.alive = true := by
  by_contra hdead
  rw [Bool.not_eq_true] at hdead
  revert h
  cases input with
  | spawn | receive | timeout | close => simp [Generation.step, hdead]
  | register i | unregister i =>
    unfold Generation.step
    dsimp only
    split <;> simp [hdead]
  | die => simp [Generation.step]
  | service turns =>
    unfold Generation.step
    dsimp only
    split
    · obtain ⟨queue, acks, owned, served, heq⟩ := serviceOwnershipMessages_eq g g.queue turns
      rw [heq]
      simp [hdead]
    · simp [hdead]
  | finish turns =>
    unfold Generation.step finishOwnershipGeneration
    dsimp only
    split
    · obtain ⟨queue, acks, owned, served, heq⟩ := serviceOwnershipMessages_eq g g.queue turns
      rw [heq]
      simp [hdead]
    · simp [hdead]

/-- Only the end of a generation hands its records over. -/
theorem orphans_of_not_finish (horphans : g.orphans = none) (input : OwnershipInput) (hinput : ∀ turns, input ≠ .finish turns) :
    (g.step registry input).orphans = none := by
  have hrequest : ∀ (g : Generation) (i : ℕ) (operation : Operation) (sent : Bool), (g.request i operation sent).orphans = g.orphans := by
    intro g i operation sent
    unfold Generation.request
    split <;> rfl
  cases input with
  | spawn | timeout | close =>
    unfold Generation.step
    dsimp only
    split <;> exact horphans
  | receive =>
    unfold Generation.step Generation.receive
    dsimp only
    split
    · split
      · split
        · exact horphans
        · split
          · split <;> exact horphans
          · exact horphans
      · exact horphans
    · exact horphans
  | register i sent =>
    unfold Generation.step
    dsimp only
    split
    · split
      · unfold Generation.register
        split
        · split
          · exact horphans
          · dsimp only
            rw [hrequest]
            exact horphans
        · exact horphans
      · exact horphans
    · exact horphans
  | unregister i sent =>
    unfold Generation.step
    dsimp only
    split
    · split
      · unfold Generation.unregister
        split
        · exact horphans
        · rw [hrequest]
          exact horphans
      · exact horphans
    · exact horphans
  | die => exact horphans
  | service turns =>
    obtain ⟨queue, acks, owned, served, heq⟩ := serviceOwnershipMessages_eq g g.queue turns
    have hservice : g.step registry (.service turns) = g.serviceOwnershipMessages registry g.queue turns := if_pos horphans
    rw [hservice, heq]
    exact horphans
  | finish turns => exact absurd rfl (hinput turns)

/-- Records that were handed to the cleanup are not taken back. -/
theorem orphans_step (h : Supervised registry g) (input : OwnershipInput) (horphans : g.orphans.isSome = true) :
    (g.step registry input).orphans.isSome = true := by
  rw [step_of_over (h.ended horphans) horphans]
  exact horphans

end Generation

end Ownership

namespace Service

namespace Master

open Ownership ControlMaster

variable {settings : ControlSettings} {s : ControlMaster} {worker worker' : Worker} {now now' : ℚ} {pc : MasterPc}
  {turns : ℕ → Turn} {hosts : ℕ → GroupHost} {starts : Bool}

/-! ## The cleanup -/

/-- The group of a record is killed where it is one that the host takes for what was registered. -/
theorem orphanedGroup_eq_some {host : GroupHost} {process : OwnershipRecord} {pgid : ℤ} :
    orphanedGroup host process = some pgid ↔ 0 < process.pid ∧ process.processTree = .processGroup ∧ process.pgid = some pgid ∧ 0 < pgid ∧
      ownedProcessGroupIsCurrent host process = true := by
  unfold orphanedGroup
  cases process.pgid with
  | none => simp
  | some group =>
    dsimp only
    split_ifs with hpid hskip
    · simp [hpid]
    · simp only [Option.some.injEq, false_iff]
      rintro ⟨-, htree, rfl, hpgid, hcurrent⟩
      simp [htree, hcurrent, hpgid.not_ge] at hskip
    · simp only [ne_eq, not_or, not_not, Bool.not_eq_true', Bool.not_eq_false] at hskip
      simp only [Option.some.injEq]
      constructor
      · rintro rfl
        exact ⟨lt_of_not_ge hpid, hskip.1, rfl, lt_of_not_ge hskip.2.1, hskip.2.2⟩
      · exact fun h => h.2.2.1

/-- The groups that are killed are those of the records that stand for what they were registered as. -/
theorem mem_cleanupOrphanProcesses {processes : List OwnershipRecord} {hosts : ℕ → GroupHost} {pgid : ℤ} :
    pgid ∈ cleanupOrphanProcesses processes hosts ↔ ∃ i process, processes[i]? = some process ∧
      orphanedGroup (hosts i) process = some pgid := by
  induction processes generalizing hosts with
  | nil => simp [cleanupOrphanProcesses]
  | cons process processes ih =>
    rw [cleanupOrphanProcesses, List.mem_append, ih, Option.mem_toList]
    constructor
    · rintro (h | ⟨i, other, hi, h⟩)
      · exact ⟨0, process, rfl, h⟩
      · exact ⟨i + 1, other, hi, h⟩
    · rintro ⟨i, other, hi, h⟩
      cases i with
      | zero =>
        obtain rfl : process = other := by simpa using hi
        exact .inl h
      | succ i => exact .inr ⟨i, other, hi, h⟩

/-! ## Workers that are looked after -/

/-- A Worker is killed only after it was sent `SIGTERM` and given the time to drain, and the cleanup follows its end. -/
structure Attended (settings : ControlSettings) (worker : Worker) : Prop where
  generation : Generation.Supervised settings.registry worker.generation
  cleaned : ∀ orphans ∈ worker.generation.orphans, ∃ hosts ∈ worker.hosts,
    worker.orphanedGroups = cleanupOrphanProcesses orphans hosts
  gone : worker.killed.isSome = true → worker.generation.alive = false
  spared : ∀ killed ∈ worker.killed, ∃ terminated ∈ worker.terminated,
    isBefore killed (Binary64.round (terminated + settings.workerDrainTimeoutSeconds)) = false

/-- What is known of the Worker that was started last, by where the main thread is. -/
def Stands (settings : ControlSettings) (now : ℚ) (worker : Worker) : MasterPc → Prop
  | .checkingStop | .starting | .deciding | .delaying _ _ | .ended _ => worker.generation.orphans.isSome = true
  | .joined | .finishing _ => worker.generation.alive = false
  | .draining deadline _ => worker.generation.alive = true →
      ∃ terminated ∈ worker.terminated, deadline = Binary64.round (terminated + settings.workerDrainTimeoutSeconds)
  | .killing _ => worker.generation.alive = true →
      ∃ terminated ∈ worker.terminated, isBefore now (Binary64.round (terminated + settings.workerDrainTimeoutSeconds)) = false
  | .checkingAlive _ | .servicing _ | .waiting _ | .reading _ | .checkingProgress _ | .leavingWorker _ | .terminating _ => True

/-- The Workers are attended to, those before the last one are over, and the main thread is where it should be. -/
structure Supervised (settings : ControlSettings) (s : ControlMaster) : Prop where
  workers : ∀ worker ∈ s.workers, Attended settings worker
  earlier : ∀ worker ∈ s.workers.tail, worker.generation.orphans.isSome = true
  stands : ∀ worker ∈ s.workers.head?, Stands settings s.now worker s.pc

/-- A Worker that goes on does not come back to life, and its records are not taken back from the cleanup. -/
structure Evolves (worker worker' : Worker) : Prop where
  alive : worker'.generation.alive = true → worker.generation.alive = true
  orphans : worker.generation.orphans.isSome = true → worker'.generation.orphans.isSome = true
  terminated : worker'.terminated = worker.terminated

/-- A deadline that has passed has passed for good. -/
theorem isBefore_mono {deadline : PyFloat} (hle : now ≤ now') (h : isBefore now deadline = false) : isBefore now' deadline = false := by
  unfold isBefore PyFloat.lt at h ⊢
  cases deadline with
  | finite q =>
    rw [decide_eq_false_iff_not] at h ⊢
    exact fun hlt => h (hle.trans_lt hlt)
  | inf negative => exact h
  | nan => rfl

/-- What is known of the last Worker outlasts what it does itself and the time that passes. -/
theorem Stands.evolves (h : Stands settings now worker pc) (hevolves : Evolves worker worker') (hle : now ≤ now') :
    Stands settings now' worker' pc := by
  have hdead : worker.generation.alive = false → worker'.generation.alive = false := by
    intro hdead
    by_contra halive
    rw [hevolves.alive (by simpa using halive)] at hdead
    cases hdead
  cases pc with
  | checkingStop | starting | deciding | delaying | ended => exact hevolves.orphans h
  | joined | finishing => exact hdead h
  | draining deadline ending =>
    intro halive
    rw [hevolves.terminated]
    exact h (hevolves.alive halive)
  | killing ending =>
    intro halive
    obtain ⟨terminated, hterminated, hpassed⟩ := h (hevolves.alive halive)
    rw [hevolves.terminated]
    exact ⟨terminated, hterminated, isBefore_mono hle hpassed⟩
  | checkingAlive | servicing | waiting | reading | checkingProgress | leavingWorker | terminating => trivial

/-- A worker that stays as it is evolves. -/
theorem evolves_refl (worker : Worker) : Evolves worker worker := ⟨id, id, rfl⟩

/-- Whatever happens in a Worker and on its pipe, it is attended to. -/
theorem Attended.step (h : Attended settings worker) (input : OwnershipInput) (hinput : ∀ turns, input ≠ .finish turns) :
    Attended settings { worker with generation := worker.generation.step settings.registry input } ∧
      Evolves worker { worker with generation := worker.generation.step settings.registry input } := by
  have halive : (worker.generation.step settings.registry input).alive = true → worker.generation.alive = true :=
    Generation.alive_step input
  refine ⟨⟨h.generation.step input, fun orphans horphans => ?_, fun hkilled => ?_, h.spared⟩,
    ⟨halive, Generation.orphans_step h.generation input, rfl⟩⟩
  · cases hold : worker.generation.orphans with
    | some orphans' =>
      have hover : worker.generation.orphans.isSome = true := by rw [hold]; rfl
      rw [Generation.step_of_over (h.generation.ended hover) hover] at horphans
      exact h.cleaned orphans horphans
    | none =>
      rw [Generation.orphans_of_not_finish hold input hinput] at horphans
      cases horphans
  · by_contra hsome
    have hdead := h.gone hkilled
    rw [halive (by simpa using hsome)] at hdead
    cases hdead

/-- What a Worker does itself, and that its messages are served, are no end of its generation. -/
theorem ofWorker_not_finish {input : OwnershipInput} (h : ofWorker input = true) (turns : ℕ → Turn) : input ≠ .finish turns := by
  rintro rfl
  cases h

/-- The cleanup of a Worker that has ended kills the groups that the hosts it meets take for what was registered; a Worker that is over
stays as it is. -/
theorem Attended.finishWorker (h : Attended settings worker) (hdead : worker.generation.alive = false) (turns : ℕ → Turn)
    (hosts : ℕ → GroupHost) : Attended settings (finishWorker settings turns hosts (worker.meets hosts)) ∧
      (finishWorker settings turns hosts (worker.meets hosts)).generation.orphans.isSome = true := by
  unfold ControlMaster.finishWorker Worker.meets
  cases hopen : worker.generation.orphans with
  | some orphans =>
    have hover : worker.generation.orphans.isSome = true := by rw [hopen]; rfl
    simp only [Option.isSome_some, if_true, hover]
    exact ⟨h, trivial⟩
  | none =>
    obtain ⟨hsupervised, hover⟩ := Generation.handed_finish (h.generation.sound hopen) hdead hopen turns
    simp only [Option.isSome_none, Bool.false_eq_true, if_false, hopen]
    refine ⟨⟨hsupervised, fun orphans ho => ⟨hosts, rfl, ?_⟩, fun _ => hsupervised.ended hover, h.spared⟩, hover⟩
    dsimp only at ho ⊢
    rw [ho]
    rfl

/-- Only the last Worker is changed. -/
theorem head?_updateWorker (f : Worker → Worker) (s : ControlMaster) : (s.updateWorker f).workers.head? = s.workers.head?.map f := by
  unfold updateWorker
  cases s.workers <;> rfl

/-- Only the worker of the turn is updated. -/
theorem tail_updateWorker (f : Worker → Worker) (s : ControlMaster) : (s.updateWorker f).workers.tail = s.workers.tail := by
  unfold updateWorker
  cases s.workers <;> rfl

/-- A worker after the update is the updated one or one of those before. -/
theorem mem_updateWorker {f : Worker → Worker} (h : worker ∈ (s.updateWorker f).workers) :
    (∃ before ∈ s.workers.head?, worker = f before) ∨ worker ∈ s.workers.tail := by
  unfold updateWorker at h
  cases hworkers : s.workers with
  | nil => simp [hworkers] at h
  | cons latest workers => simpa [hworkers] using h

/-- The Worker that was started last is changed; the main thread goes on or stays. -/
theorem Supervised.update (h : Supervised settings s) {f : Worker → Worker} {pc : MasterPc}
    (hf : ∀ worker ∈ s.workers.head?, Attended settings (f worker) ∧ Stands settings s.now (f worker) pc) :
    Supervised settings ((s.updateWorker f).goTo pc) where
  workers := by
    intro worker hworker
    rcases mem_updateWorker hworker with ⟨before, hbefore, rfl⟩ | hold
    · exact (hf before hbefore).1
    · exact h.workers worker (List.mem_of_mem_tail hold)
  earlier := by
    intro worker hworker
    exact h.earlier worker ((tail_updateWorker f s) ▸ hworker)
  stands := by
    intro worker hworker
    obtain ⟨before, hbefore, rfl⟩ := Option.map_eq_some_iff.1 ((head?_updateWorker f s).symm.trans hworker)
    exact (hf before hbefore).2

/-- Only the main thread goes on. -/
theorem Supervised.goTo (h : Supervised settings s) {pc : MasterPc}
    (hstands : ∀ worker ∈ s.workers.head?, Stands settings s.now worker pc) :
    Supervised settings (s.goTo pc) :=
  ⟨h.workers, h.earlier, hstands⟩

/-- The last Worker is attended to. -/
theorem Supervised.head (h : Supervised settings s) (hworker : worker ∈ s.workers.head?) : Attended settings worker :=
  h.workers worker (List.mem_of_mem_head? hworker)

/-- The Worker or its pipe goes on while the main thread is where it is, or goes where nothing is known. -/
theorem Supervised.evolve (h : Supervised settings s) (input : OwnershipInput) (hinput : ∀ turns, input ≠ .finish turns) {pc : MasterPc}
    (hpc : ∀ worker, Stands settings s.now worker s.pc → Stands settings s.now worker pc) :
    Supervised settings ((s.updateWorker fun worker =>
      { worker with generation := worker.generation.step settings.registry input }).goTo pc) := by
  refine h.update fun worker hworker => ?_
  obtain ⟨hattended, hevolves⟩ := (h.head hworker).step input hinput
  exact ⟨hattended, hpc _ ((h.stands worker hworker).evolves hevolves le_rfl)⟩

/-- What `is_alive` says of the last Worker. -/
theorem isAlive_eq_false (hdead : s.isAlive = false) (hworker : worker ∈ s.workers.head?) : worker.generation.alive = false := by
  unfold isAlive at hdead
  rw [Option.mem_def.1 hworker] at hdead
  exact hdead

/-- At the end of a turn the Worker is over, whether the main thread waits, returns or raises. -/
theorem Supervised.decide (h : Supervised settings s) (hpc : s.pc = .deciding) : Supervised settings (s.decide settings) := by
  have hstands := h.stands
  rw [hpc] at hstands
  unfold ControlMaster.decide
  split
  · exact h.goTo fun _ _ => trivial
  · exact h.goTo fun _ _ => trivial
  · exact ⟨h.workers, h.earlier, hstands⟩

/-- A Worker starts: the one before was handed over, so it is one of the earlier ones now. -/
theorem Supervised.start (h : Supervised settings s) (hpc : s.pc = .starting) :
    Supervised settings { s with workers := {} :: s.workers, heartbeats := [], pc := .checkingAlive s.now } := by
  have hstands := h.stands
  rw [hpc] at hstands
  refine ⟨fun worker hworker => ?_, fun worker hworker => ?_, fun _ _ => trivial⟩
  · rcases List.mem_cons.1 hworker with rfl | hold
    · exact ⟨Generation.supervised_start _, by simp, by simp, by simp⟩
    · exact h.workers worker hold
  · cases hworkers : s.workers with
    | nil => simp [hworkers] at hworker
    | cons latest workers =>
      simp only [List.tail_cons, hworkers, List.mem_cons] at hworker
      rcases hworker with rfl | hold
      · exact hstands worker (by rw [hworkers]; rfl)
      · exact h.earlier worker (by rw [hworkers]; exact hold)

/-- The generation of a worker that is alive is alive. -/
theorem alive_of_isAlive (halive : s.isAlive = true) (hworker : worker ∈ s.workers.head?) : worker.generation.alive = true := by
  unfold isAlive at halive
  rw [Option.mem_def.1 hworker] at halive
  exact halive

/-- A Worker that is alive is sent `SIGTERM`: it was not killed, since a Worker that was is not alive. -/
theorem Supervised.terminate (h : Supervised settings s) (halive : s.isAlive = true) (ending : Option Ending) :
    Supervised settings (s.terminate.goTo (.draining (Binary64.round (s.now + settings.workerDrainTimeoutSeconds)) ending)) := by
  refine h.update fun worker hworker => ⟨?_, fun _ => ⟨s.now, rfl, rfl⟩⟩
  have hattended := h.head hworker
  refine ⟨hattended.generation, hattended.cleaned, hattended.gone, fun killed hkilled => ?_⟩
  have hgone := hattended.gone (by rw [Option.mem_def.1 hkilled]; rfl)
  simp [alive_of_isAlive halive hworker] at hgone

/-- The Worker is gone, or the time that it was given to drain has passed. -/
theorem Supervised.drained (h : Supervised settings s) {deadline : PyFloat} {ending : Option Ending}
    (hpc : s.pc = .draining deadline ending)
    (hdone : ¬(s.isAlive && isBefore s.now deadline) = true) : Supervised settings (s.goTo (.killing ending)) := by
  have hstands := h.stands
  rw [hpc] at hstands
  refine h.goTo fun worker hworker halive => ?_
  obtain ⟨terminated, hterminated, rfl⟩ := hstands worker hworker halive
  refine ⟨terminated, hterminated, ?_⟩
  have halive' : s.isAlive = true := by
    unfold isAlive
    rw [Option.mem_def.1 hworker]
    exact halive
  simpa [halive'] using hdone

/-- A Worker that is still alive is killed. -/
theorem Supervised.kill (h : Supervised settings s) {ending : Option Ending} (hpc : s.pc = .killing ending) (halive : s.isAlive = true) :
    Supervised settings ((s.kill settings).goTo (.finishing ending)) := by
  have hstands := h.stands
  rw [hpc] at hstands
  refine h.update fun worker hworker => ⟨?_, rfl⟩
  obtain ⟨hstepped, -⟩ := (h.head hworker).step .die (by simp)
  refine ⟨hstepped.generation, hstepped.cleaned, fun _ => rfl, fun killed hkilled => ?_⟩
  obtain rfl : s.now = killed := Option.some.inj hkilled
  exact hstands worker hworker (alive_of_isAlive halive hworker)

/-- The records of a Worker that has ended are handed to the cleanup. -/
theorem Supervised.finish (h : Supervised settings s) {ending : Option Ending} (hpc : s.pc = .finishing ending) (turns : ℕ → Turn)
    (hosts : ℕ → GroupHost) : Supervised settings
      ((s.updateWorker fun worker => finishWorker settings turns hosts (worker.meets hosts)).goTo
      (match ending with
        | none => .deciding
        | some ending => .ended ending)) := by
  have hstands := h.stands
  rw [hpc] at hstands
  refine h.update fun worker hworker => ?_
  obtain ⟨hattended, hover⟩ := (h.head hworker).finishWorker (hstands worker hworker) turns hosts
  refine ⟨hattended, ?_⟩
  cases ending <;> exact hover

/-- The next action of the main thread. -/
theorem Supervised.advance (h : Supervised settings s) (turns : ℕ → Turn) (hosts : ℕ → GroupHost) (starts : Bool) :
    Supervised settings (s.advance settings turns hosts starts) := by
  have hstands := h.stands
  rw [ControlMaster.advance]
  cases hpc : s.pc with
  | checkingStop =>
    rw [hpc] at hstands
    refine h.goTo fun worker hworker => ?_
    split
    · trivial
    · exact hstands worker hworker
  | starting =>
    dsimp only
    split
    · exact h.start hpc
    · exact h.goTo fun _ _ => trivial
  | servicing lastProgress => exact h.evolve (.service turns) (by simp) fun _ _ => trivial
  | checkingAlive lastProgress | waiting lastProgress | checkingProgress lastProgress =>
    refine h.goTo fun worker hworker => ?_
    split <;> trivial
  | reading lastProgress => exact ⟨h.workers, h.earlier, fun _ _ => trivial⟩
  | leavingWorker stalled =>
    refine h.goTo fun worker hworker => ?_
    split
    · trivial
    · rename_i hjoined
      simp only [Bool.or_eq_true, not_or, Bool.not_eq_true] at hjoined
      exact isAlive_eq_false hjoined.2 hworker
  | joined =>
    refine h.evolve (.service turns) (by simp) fun worker hworker => ?_
    rw [hpc] at hworker
    exact hworker
  | terminating ending =>
    dsimp only
    split
    · rename_i halive
      exact h.terminate halive ending
    · rename_i hdead
      exact h.goTo fun worker hworker => isAlive_eq_false (by simpa using hdead) hworker
  | draining deadline ending =>
    dsimp only
    split
    · exact @Supervised.evolve settings s h (.service turns) (by simp) s.pc fun _ hstands => hstands
    · rename_i hdone
      exact h.drained hpc hdone
  | killing ending =>
    dsimp only
    split
    · rename_i halive
      exact h.kill hpc halive
    · rename_i hdead
      exact h.goTo fun worker hworker => isAlive_eq_false (by simpa using hdead) hworker
  | finishing ending =>
    have hfinish := h.finish hpc turns hosts
    cases ending <;> exact hfinish
  | deciding => exact h.decide hpc
  | delaying since delay =>
    rw [hpc] at hstands
    dsimp only
    split
    · exact h.goTo hstands
    · exact h
  | ended ending => exact h

/-- One input of the control process. -/
theorem Supervised.step (h : Supervised settings s) (input : MasterInput) : Supervised settings (s.step settings input) := by
  cases input with
  | elapse seconds =>
    refine ⟨h.workers, h.earlier, fun worker hworker => ?_⟩
    exact (h.stands worker hworker).evolves (evolves_refl worker) (le_add_of_nonneg_right seconds.2)
  | signal => exact ⟨h.workers, h.earlier, h.stands⟩
  | worker input =>
    unfold ControlMaster.step
    dsimp only
    split
    · rename_i hinput
      exact @Supervised.evolve settings s h input (ofWorker_not_finish hinput) s.pc fun _ hstands => hstands
    · exact h
  | heartbeat heartbeat =>
    unfold ControlMaster.step
    dsimp only
    split
    · exact ⟨h.workers, h.earlier, h.stands⟩
    · exact h
  | raises =>
    unfold ControlMaster.step
    dsimp only
    split
    · exact h.goTo fun _ _ => trivial
    · exact h
  | advance turns hosts starts => exact h.advance turns hosts starts

/-- There is no worker at the start. -/
theorem supervised_create (settings : ControlSettings) : Supervised settings ControlMaster.create :=
  ⟨fun _ h => absurd h List.not_mem_nil, fun _ h => absurd h List.not_mem_nil, fun _ h => by cases h⟩

/-- What was registered passed the checks that the cleanup makes first. -/
theorem registered_fields {host : Ownership.Host} {record : OwnershipRecord} (h : registeredProcessIsCurrent .posix host record = true) :
    0 < record.pid ∧ record.processTree = .processGroup ∧ ∃ pgid, record.pgid = some pgid ∧ 0 < pgid := by
  unfold registeredProcessIsCurrent at h
  split_ifs at h with hidentity
  obtain ⟨hpid, -⟩ := not_or.1 hidentity
  dsimp only at h
  split at h
  · rename_i pgid htree hpgid
    exact ⟨lt_of_not_ge hpid, htree, pgid, hpgid, (of_decide_eq_true h).1⟩
  · cases h

/-- A Worker that is over: it has ended, what was handed to the cleanup are the records that were admitted and whose unregistration was not
read, and the groups that were killed are theirs, as far as the host that the cleanup met at each took it for what was registered. -/
def Over (settings : ControlSettings) (worker : Worker) : Prop :=
  worker.generation.alive = false ∧ ∃ orphans, worker.generation.orphans = some orphans ∧
    (∀ record, record ∈ orphans ↔ Generation.Registered settings.registry worker.generation.served record) ∧
    ∃ hosts ∈ worker.hosts, ∀ pgid, pgid ∈ worker.orphanedGroups ↔
      ∃ i record, orphans[i]? = some record ∧ record.pgid = some pgid ∧ ownedProcessGroupIsCurrent (hosts i) record = true

/-- A Worker whose records were handed to the cleanup is over. -/
theorem Attended.over (h : Attended settings worker) (hover : worker.generation.orphans.isSome = true) : Over settings worker := by
  obtain ⟨orphans, horphans⟩ := Option.isSome_iff_exists.1 hover
  obtain ⟨hosts, hhosts, hgroups⟩ := h.cleaned orphans horphans
  have hregistered := h.generation.handed orphans horphans
  refine ⟨h.generation.ended hover, orphans, horphans, hregistered, hosts, hhosts, fun pgid => ?_⟩
  rw [hgroups, mem_cleanupOrphanProcesses]
  constructor
  · rintro ⟨i, record, hi, hgroup⟩
    obtain ⟨-, -, hpgid, -, hcurrent⟩ := orphanedGroup_eq_some.1 hgroup
    exact ⟨i, record, hi, hpgid, hcurrent⟩
  · rintro ⟨i, record, hi, hpgid, hcurrent⟩
    obtain ⟨⟨served, -, payload, -, -, hchecked, ⟨⟩⟩, -⟩ := (hregistered record).1 (List.mem_of_getElem? hi)
    obtain ⟨hpid, htree, pgid', hpgid', hpos⟩ := registered_fields hchecked
    obtain rfl : pgid = pgid' := Option.some.inj (hpgid.symm.trans hpgid')
    exact ⟨i, record, hi, orphanedGroup_eq_some.2 ⟨hpid, htree, hpgid, hpos, hcurrent⟩⟩

/-- In every order of what the control process, its Workers, the clock and the signals do, also where the control process raises: no two
Workers are alive, every Worker but the last is over before the next one starts, each is over when the control process has ended, and a
Worker is killed only when the time that it was given to drain has passed since it was sent `SIGTERM`. -/
theorem workers_supervised (settings : ControlSettings) (inputs : List MasterInput) :
    (Machine.run (ControlMaster.step settings) ControlMaster.create inputs).workers.countP (·.generation.alive) ≤ 1 ∧
      (∀ worker ∈ (Machine.run (ControlMaster.step settings) ControlMaster.create inputs).workers.tail, Over settings worker) ∧
      (∀ ending, (Machine.run (ControlMaster.step settings) ControlMaster.create inputs).pc = .ended ending →
        ∀ worker ∈ (Machine.run (ControlMaster.step settings) ControlMaster.create inputs).workers, Over settings worker) ∧
      ∀ worker ∈ (Machine.run (ControlMaster.step settings) ControlMaster.create inputs).workers, ∀ killed ∈ worker.killed,
        ∃ terminated ∈ worker.terminated, isBefore killed (Binary64.round (terminated + settings.workerDrainTimeoutSeconds)) = false := by
  have h : Supervised settings (Machine.run (ControlMaster.step settings) ControlMaster.create inputs) :=
    Machine.run_induct (P := Supervised settings) (fun _ input h => h.step input) (supervised_create settings) inputs
  generalize Machine.run (ControlMaster.step settings) ControlMaster.create inputs = s at h
  have htail : ∀ worker ∈ s.workers.tail, Over settings worker := fun worker hworker =>
    (h.workers worker (List.mem_of_mem_tail hworker)).over (h.earlier worker hworker)
  refine ⟨?_, htail, fun ending hpc worker hworker => ?_, fun worker hworker => (h.workers worker hworker).spared⟩
  · cases hworkers : s.workers with
    | nil => simp
    | cons latest workers =>
      rw [hworkers] at htail
      have hdead : workers.countP (·.generation.alive) = 0 := by
        rw [List.countP_eq_zero]
        intro worker hworker
        simp [(htail worker hworker).1]
      rw [List.countP_cons, hdead]
      split <;> simp
  · have hstands := h.stands
    rw [hpc] at hstands
    cases hworkers : s.workers with
    | nil => simp [hworkers] at hworker
    | cons latest workers =>
      rw [hworkers] at hworker htail
      rcases List.mem_cons.1 hworker with rfl | hold
      · refine (h.workers worker (by rw [hworkers]; exact hworker)).over (hstands worker ?_)
        rw [hworkers]
        rfl
      · exact htail worker hold

end Master

end Service

end SharkRail
