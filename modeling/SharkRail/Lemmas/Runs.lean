import SharkRail.Lemmas.Executions

/-!
# The run of an execution

What `_active`, `session_id` and the session say about an execution: from its registration until it is done with waiting, the entry
of its job in `_active` is its own, and it has a session from the start on.
-/

namespace SharkRail

/-- The run is registered, and its session has not ended. -/
def Pc.registered : Pc → Bool
  | .checkStopAgain | .starting | .publish | .recheck | .markRunning _ | .signal _ | .cancelling _ | .waiting => true
  | _ => false

/-- The session runs. -/
def Pc.started : Pc → Bool
  | .publish | .recheck | .markRunning _ | .signal _ | .cancelling _ | .waiting => true
  | _ => false

/-- The run has the id of its session. -/
def Pc.published : Pc → Bool
  | .recheck | .markRunning _ | .signal _ | .cancelling _ | .waiting => true
  | _ => false

/-- The session ended, or was never to start. -/
def Pc.past : Pc → Bool
  | .settling .. | .writing _ | .disposing | .discarding _ | .readIntent | .popping | .shuttingDown | .executionDone | .done => true
  | _ => false

/-- An execution that is registered has not left its handler. -/
theorem Pc.not_past_of_registered {pc : Pc} (h : pc.registered = true) : pc.past = false := by
  cases pc <;> first | rfl | cases h

/-- An execution that was started is registered. -/
theorem Pc.registered_of_started {pc : Pc} (h : pc.started = true) : pc.registered = true := by
  cases pc <;> first | rfl | cases h

/-- An execution whose session is published was started. -/
theorem Pc.started_of_published {pc : Pc} (h : pc.published = true) : pc.started = true := by
  cases pc <;> first | rfl | cases h

namespace Execution

variable {e : Execution}

/-- An execution that leaves its handler is past it. -/
theorem leave_past (e : Execution) : e.leave.pc.past = true := by
  unfold leave
  dsimp only
  split <;> rfl

/-- The parts of an execution that other threads write, and what was done to its session. -/
structure SameSignals (e e' : Execution) : Prop where
  callbacks : e'.callbacks = e.callbacks
  published : e'.published = e.published
  session : e'.session = e.session
  cancelCalled : e'.cancelCalled = e.cancelCalled
  interrupted : e'.interrupted = e.interrupted
  startCancelled : e'.startCancelled = e.startCancelled

/-- To handle an exception sends no signal. -/
theorem sameSignals_handle (e : Execution) (x : Exc) : SameSignals e (e.handle x) := by cases x <;> exact ⟨rfl, rfl, rfl, rfl, rfl, rfl⟩

/-- To settle sends no signal. -/
theorem sameSignals_proceed_settling {settling : Settling} {report : Store.Report} {n : Nat} (h : e.pc = .settling settling report n) :
    SameSignals e (e.proceed .unit) := by
  cases settling <;> simp only [proceed, h] <;> exact ⟨rfl, rfl, rfl, rfl, rfl, rfl⟩

/-- A report that is refused sends no signal. -/
theorem sameSignals_fail_settling {settling : Settling} {report : Store.Report} {n : Nat} (h : e.pc = .settling settling report n)
    (x : Exc) : SameSignals e (e.fail x) := by
  cases settling <;> simp only [fail, h]
  · exact ⟨rfl, rfl, rfl, rfl, rfl, rfl⟩
  all_goals split <;> exact ⟨rfl, rfl, rfl, rfl, rfl, rfl⟩

/-- An execution that handles an exception is past its handler. -/
theorem handle_past (e : Execution) (x : Exc) : (e.handle x).pc.past = true := by cases x <;> rfl

/-- An execution that has settled is past its handler. -/
theorem proceed_settling_past {settling : Settling} {report : Store.Report} {n : Nat} (h : e.pc = .settling settling report n) :
    (e.proceed .unit).pc.past = true := by
  cases settling with
  | result => simp [proceed, h, Pc.past]
  | early | handler => simpa [proceed, h] using leave_past _

/-- An execution whose report was refused is past its handler. -/
theorem fail_settling_past {settling : Settling} {report : Store.Report} {n : Nat} (h : e.pc = .settling settling report n)
    (x : Exc) : (e.fail x).pc.past = true := by
  cases settling with
  | early => simp [fail, h, raised, Pc.past]
  | result =>
    simp only [fail, h]
    split <;> rfl
  | handler =>
    simp only [fail, h]
    split
    · rfl
    · exact leave_past e

end Execution

namespace Service

variable {cfg : ServiceConfig} {s s' : Service} {e e' : Execution} {clock : Reading} {fault : Fault}

/-- What the executions have to do with `_active` and their sessions. -/
structure Linked (s : Service) : Prop where
  active : ∀ e ∈ s.executions, e.pc.registered = true → s.active.lookup e.job.id = some e.attempt
  owner : ∀ jobId attempt, s.active.lookup jobId = some attempt → ∃ e ∈ s.executions, e.job.id = jobId ∧ e.attempt = attempt
  session : ∀ e ∈ s.executions, e.pc.started = true → e.session.isSome = true
  published : ∀ e ∈ s.executions, e.pc.published = true → e.published = true
  snapshot : s.snapshotted = true → s.stop = true

/-- The parts of the service that a call of an execution leaves. -/
theorem Advances.frame (h : Advances cfg clock fault e s e' s') :
    s'.executions = s.executions ∧ s'.signals = s.signals ∧ s'.stop = s.stop ∧ s'.snapshotted = s.snapshotted ∧
      s'.workerId = s.workerId ∧ s'.pruners = s.pruners ∧ s'.up = s.up := by
  cases h <;> exact ⟨rfl, rfl, rfl, rfl, rfl, rfl, rfl⟩

/-- An execution that advances stays the run of its attempt. -/
theorem Advances.sameRun (h : Advances cfg clock fault e s e' s') : Execution.SameRun e e' := by
  cases h with
  | settled | failed | unsettled | unheard => first | exact Execution.sameRun_proceed _ _ | exact Execution.sameRun_fail _ _
  | nothingToDiscard => exact Execution.sameRun_handle _ _
  | discarded _ _ _ _ _ _ he' =>
    rcases he' with rfl | rfl
    · exact Execution.sameRun_handle _ _
    · exact ⟨rfl, rfl⟩
  | _ => exact ⟨rfl, rfl⟩

/-- A call of an execution leaves its callbacks. -/
theorem Advances.callbacks (h : Advances cfg clock fault e s e' s') : e'.callbacks = e.callbacks := by
  cases h with
  | settled _ _ _ _ hpc => exact (Execution.sameSignals_proceed_settling hpc).callbacks
  | failed _ _ _ _ hpc | unsettled _ _ _ _ hpc | unheard _ _ _ _ hpc => exact (Execution.sameSignals_fail_settling hpc _).callbacks
  | nothingToDiscard => exact (Execution.sameSignals_handle _ _).callbacks
  | discarded _ _ _ _ _ _ he' =>
    rcases he' with rfl | rfl
    · exact (Execution.sameSignals_handle _ _).callbacks
    · rfl
  | _ => rfl

/-- An execution registers its own run and takes it out again, and touches no other. -/
theorem Advances.active (h : Advances cfg clock fault e s e' s') :
    s'.active = s.active ∨ s'.active = s.active.insert e.job.id e.attempt ∨ s'.active = s.active.erase e.job.id := by
  cases h with
  | registered | unregistered => exact Or.inr (Or.inl rfl)
  | popped | ended => exact Or.inr (Or.inr rfl)
  | _ => exact Or.inl rfl

/-- The links of one execution. -/
structure LinkedTo (s : Service) (e : Execution) : Prop where
  active : e.pc.registered = true → s.active.lookup e.job.id = some e.attempt
  session : e.pc.started = true → e.session.isSome = true
  published : e.pc.published = true → e.published = true

/-- An execution that left its handler needs no link. -/
theorem LinkedTo.of_past (h : e.pc.past = true) : LinkedTo s e := by
  have hnot : ∀ {p : Prop}, e.pc.registered = true → p := fun hr => by simp [Pc.not_past_of_registered hr] at h
  exact ⟨hnot, fun hs => hnot (Pc.registered_of_started hs), fun hp => hnot (Pc.registered_of_started (Pc.started_of_published hp))⟩

/-- An execution that is not registered needs no link. -/
theorem LinkedTo.of_unregistered (h : e.pc.registered = false) : LinkedTo s e := by
  have hnot : ∀ {p : Prop}, e.pc.registered = true → p := fun hr => by simp [hr] at h
  exact ⟨hnot, fun hs => hnot (Pc.registered_of_started hs), fun hp => hnot (Pc.registered_of_started (Pc.started_of_published hp))⟩

/-- Every execution is linked. -/
theorem Linked.of (hl : Linked s) (he : e ∈ s.executions) : LinkedTo s e := ⟨hl.active e he, hl.session e he, hl.published e he⟩

/-- An execution that goes on keeps its links. -/
theorem LinkedTo.advance (hl : LinkedTo s e) (h : Advances cfg clock fault e s e' s') : LinkedTo s' e' := by
  cases h with
  | registered => exact ⟨fun _ => AList.lookup_insert _, nofun, nofun⟩
  | stopRead hpc => exact ⟨fun _ => hl.active (by rw [hpc]; rfl), nofun, nofun⟩
  | started hpc => exact ⟨fun _ => hl.active (by rw [hpc]; rfl), fun _ => rfl, nofun⟩
  | published hpc =>
    have hactive := hl.active (by rw [hpc]; rfl)
    refine ⟨fun _ => hactive, fun _ => hl.session (by rw [hpc]; rfl), fun _ => ?_⟩
    simp [hactive]
  | rechecked _ hpc | marked _ hpc | signalled _ hpc | unsignalled hpc =>
    exact ⟨fun _ => hl.active (by rw [hpc]; rfl), fun _ => hl.session (by rw [hpc]; rfl), fun _ => hl.published (by rw [hpc]; rfl)⟩
  | cancelled _ _ _ hpc =>
    exact ⟨fun _ => hl.active (by rw [hpc]; rfl), fun _ => rfl, fun _ => hl.published (by rw [hpc]; rfl)⟩
  | unstopped | unasked | created => exact .of_unregistered rfl
  | settled _ _ _ _ hpc => exact .of_past (Execution.proceed_settling_past hpc)
  | failed _ _ _ _ hpc | unsettled _ _ _ _ hpc | unheard _ _ _ _ hpc => exact .of_past (Execution.fail_settling_past hpc _)
  | disposed | intentUnread => exact .of_past (Execution.leave_past e)
  | nothingToDiscard x => exact .of_past (Execution.handle_past e x)
  | discarded x _ _ _ _ _ he' =>
    rcases he' with rfl | rfl
    · exact .of_past (Execution.handle_past e x)
    · exact .of_past (Execution.leave_past e)
  | raised | stopped | asked | unregistered | unmarked | waited | wrote | unwritten | intentRead | popped | shutDown | ended =>
    exact .of_past rfl

/-- A callback leaves where the execution stands, and the session it has. -/
theorem callback_frame (e : Execution) (c : Callback) :
    (e.callback c).pc = e.pc ∧ (e.callback c).published = e.published ∧ (e.callback c).session.isSome = e.session.isSome := by
  cases c with
  | cancelStart origin =>
    unfold Execution.callback
    dsimp only
    split <;> exact ⟨rfl, rfl, rfl⟩
  | cancelSession origin =>
    unfold Execution.callback
    dsimp only
    split
    · rename_i session hsession
      split
      · exact ⟨rfl, rfl, by simp [hsession, Execution.cancelSession]⟩
      · exact ⟨rfl, rfl, rfl⟩
    · exact ⟨rfl, rfl, rfl⟩

/-- Where `_active`, the executions and the flags are as they were, the links are. -/
theorem Linked.of_same (hl : Linked s) (hactive : s'.active = s.active) (hexecutions : s'.executions = s.executions)
    (hsnapshot : s'.snapshotted = true → s'.stop = true) : Linked s' := by
  refine ⟨?_, ?_, ?_, ?_, hsnapshot⟩
  · rw [hexecutions, hactive]
    exact hl.active
  · rw [hexecutions, hactive]
    exact hl.owner
  · rw [hexecutions]
    exact hl.session
  · rw [hexecutions]
    exact hl.published

/-- Another execution is of another job. -/
theorem Sound.other (hs : Sound s) {x : Execution} (hx : x ∈ s.executions) (he : e ∈ s.executions)
    (hne : x.attempt ≠ e.attempt) : x.job.id ≠ e.job.id := fun hjob =>
  hne (by rw [Table.eq_of_key (fun e : Execution => e.job.id) hs.jobs hx he hjob])

/-- An execution that went on keeps the links of the others. -/
theorem Linked.replace (hs : Sound s) (hl : Linked s) (he : e ∈ s.executions) (hexecutions : s'.executions = s.executions)
    (hsnapshot : s'.snapshotted = true → s'.stop = true)
    (hactive : s'.active = s.active ∨ s'.active = s.active.insert e.job.id e.attempt ∨ s'.active = s.active.erase e.job.id)
    (hsame : Execution.SameRun e e') (hlinked : LinkedTo s' e') : Linked (s'.replace e e') := by
  have hkept : ∀ jobId ≠ e.job.id, s'.active.lookup jobId = s.active.lookup jobId := by
    intro jobId hne
    rcases hactive with h | h | h <;> rw [h]
    · exact AList.lookup_insert_ne hne
    · exact AList.lookup_erase_ne hne
  have hlinks : ∀ x ∈ (s'.replace e e').executions, LinkedTo s' x := by
    intro x hx
    rw [mem_replace (hexecutions ▸ he), hexecutions] at hx
    rcases hx with ⟨hx, hne⟩ | rfl
    · have hold := hl.of hx
      refine ⟨fun hpc => ?_, hold.session, hold.published⟩
      rw [hkept _ (hs.other hx he hne)]
      exact hold.active hpc
    · exact hlinked
  refine ⟨fun x hx => (hlinks x hx).active, fun jobId attempt hlookup => ?_, fun x hx => (hlinks x hx).session,
    fun x hx => (hlinks x hx).published, hsnapshot⟩
  change s'.active.lookup jobId = some attempt at hlookup
  simp only [mem_replace (hexecutions ▸ he), hexecutions]
  have hold : s.active.lookup jobId = some attempt → ∃ x, ((x ∈ s.executions ∧ x.attempt ≠ e.attempt) ∨ x = e') ∧
      x.job.id = jobId ∧ x.attempt = attempt := by
    intro hlookup
    obtain ⟨x, hx, hjob, hattempt⟩ := hl.owner jobId attempt hlookup
    by_cases hne : x.attempt = e.attempt
    · obtain rfl := Table.eq_of_key Execution.attempt hs.attempts hx he hne
      exact ⟨e', Or.inr rfl, hsame.job ▸ hjob, hsame.attempt.trans hattempt⟩
    · exact ⟨x, Or.inl ⟨hx, hne⟩, hjob, hattempt⟩
  by_cases hjob : jobId = e.job.id
  · subst hjob
    rcases hactive with h | h | h <;> rw [h] at hlookup
    · exact hold hlookup
    · rw [AList.lookup_insert, Option.some.injEq] at hlookup
      exact ⟨e', Or.inr rfl, by rw [hsame.job], hsame.attempt.trans hlookup⟩
    · rw [AList.lookup_erase] at hlookup
      cases hlookup
  · exact hold ((hkept jobId hjob) ▸ hlookup)

/-- The links stay when an execution hears of its session or of a signal. -/
theorem Linked.heard (hs : Sound s) (hl : Linked s) (he : e ∈ s.executions) (hsame : Execution.SameRun e e') (hpc : e'.pc = e.pc)
    (hsession : e'.session.isSome = e.session.isSome) (hpublished : e'.published = e.published) : Linked (s.replace e e') := by
  refine hl.replace hs he rfl hl.snapshot (Or.inl rfl) hsame ⟨fun h => ?_, fun h => ?_, fun h => ?_⟩
  · rw [hsame.job, hsame.attempt]
    exact hl.active e he (hpc ▸ h)
  · rw [hsession]
    exact hl.session e he (hpc ▸ h)
  · rw [hpublished]
    exact hl.published e he (hpc ▸ h)

/-- The executions stay linked after every input. -/
theorem Linked.step (hs : Sound s) (hl : Linked s) (input : ServiceInput) : Linked (Service.step cfg s input) := by
  have hstep := hs.serviceStep cfg input
  generalize Service.step cfg s input = s' at hstep
  cases hstep with
  | skipped => exact hl
  | called | requested | unrequested | dropped | finalizing | started => exact hl.of_same rfl rfl hl.snapshot
  | closed => exact hl.of_same rfl rfl fun _ => rfl
  | snapshot hstop => exact hl.of_same rfl rfl fun _ => hstop
  | pruned index fault pruner =>
    obtain ⟨store, output, h⟩ := pruneStep_touches cfg fault pruner s
    rw [h]
    exact hl.of_same rfl rfl hl.snapshot
  | crashed tear => exact ⟨by simp [crash], by simp [crash], by simp [crash], by simp [crash], nofun⟩
  | opened workerId torn =>
    unfold openStores
    cases torn <;> exact hl.of_same rfl rfl hl.snapshot
  | claimed leaseSeconds clock row job =>
    have hlinks : ∀ x ∈ s.executions ++ [{ job, attempt := s.store.drawn }], LinkedTo s x := by
      intro x hx
      rw [List.mem_append, List.mem_singleton] at hx
      rcases hx with hx | rfl
      · exact hl.of hx
      · exact .of_unregistered rfl
    refine ⟨fun x hx => (hlinks x hx).active, fun jobId attempt hlookup => ?_, fun x hx => (hlinks x hx).session,
      fun x hx => (hlinks x hx).published, hl.snapshot⟩
    obtain ⟨x, hx, hjob, hattempt⟩ := hl.owner jobId attempt hlookup
    exact ⟨x, List.mem_append_left _ hx, hjob, hattempt⟩
  | advanced e e' s' clock fault he hadvances =>
    obtain ⟨hexecutions, -, hstop, hsnapshot, -⟩ := hadvances.frame
    refine hl.replace hs he hexecutions ?_ hadvances.active hadvances.sameRun ((hl.of he).advance hadvances)
    rw [hstop, hsnapshot]
    exact hl.snapshot
  | calledBack e c rest he =>
    obtain ⟨hpc, hpublished, hsession⟩ := callback_frame { e with callbacks := rest } c
    have hsame := Execution.sameRun_callback { e with callbacks := rest } c
    exact hl.heard hs he ⟨hsame.job, hsame.attempt⟩ hpc hsession hpublished
  | monitored e event he => exact hl.heard hs he ⟨rfl, rfl⟩ rfl (by simp) rfl
  | sent index signal e _ he =>
    have hl' : Linked { s with signals := s.signals.eraseIdx index } := hl.of_same rfl rfl hl.snapshot
    exact hl'.heard ⟨hs.wellFormed, hs.attempts, hs.jobs, hs.drawn, hs.claimed⟩ he ⟨rfl, rfl⟩ rfl rfl rfl

/-- There is no execution at the start. -/
theorem linked_create (cfg : ServiceConfig) : Linked (create cfg) :=
  ⟨by simp [create], by simp [create], by simp [create], by simp [create], nofun⟩

/-- In every state of the service the executions are linked to `_active` and to their sessions. -/
theorem Reachable.linked (h : Reachable cfg s) : Linked s := by
  have hboth : Sound s ∧ Linked s :=
    Machine.Reachable.invariant (P := fun s => Sound s ∧ Linked s) h ⟨sound_create cfg, linked_create cfg⟩
      fun _ input hs => ⟨hs.1.step input, hs.2.step hs.1 input⟩
  exact hboth.2

end Service

end SharkRail
