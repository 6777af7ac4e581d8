import SharkRail.Lemmas.Operations
import SharkRail.Service.Run

/-!
# What a step of the service can do

`Performs` lists what the calls of an execution do and reply, and `Moved` how a step moves an execution: it goes on with a reply, runs
a callback, hears of its session or is sent a signal, and stays of its job and its attempt. A step calls the store at most once
(`StoreEffect`), so whatever holds over every run of the store holds of the store of a service in use.
-/

namespace SharkRail

/-- The calls that may raise and leave the service as it is: all but those on the output, those of `finish` and those that take a run
out of `_active`. -/
def Pc.fallible : Pc → Bool
  | .settling .. | .writing _ | .discarding _ | .popping | .executionDone | .done => false
  | _ => true

namespace Service

variable {cfg : ServiceConfig} {s s' : Service} {e e' : Execution} {clock : Reading} {fault : Fault}
  {reply : Except Exc Reply}

/-! ## The calls of an execution -/

/-- A call comes back as it is, or raises before or after its effect. -/
theorem faulted_cases (fault : Fault) (s : Service) (r : Except Exc Reply × Service) :
    faulted fault s r = r ∨ (∃ x, faulted fault s r = (.error x, s)) ∨ ∃ x, faulted fault s r = (.error x, r.2) := by
  cases fault with
  | none => exact Or.inl rfl
  | before x => exact Or.inr (Or.inl ⟨x, rfl⟩)
  | after x => exact Or.inr (Or.inr ⟨x, rfl⟩)
  | torn _ _ x => exact Or.inr (Or.inl ⟨x, rfl⟩)

/-- What the call of an execution replies, and what it does to the service. A call that raises may do so before or after its
effect. -/
inductive Performs (cfg : ServiceConfig) (clock : Reading) (fault : Fault) (e : Execution) (s : Service) :
    Except Exc Reply → Service → Prop where
  | raised (x : Exc) (hpc : e.pc.fallible = true) : Performs cfg clock fault e s (.error x) s
  | readStop (hpc : e.pc = .checkStop ∨ e.pc = .checkStopAgain) : Performs cfg clock fault e s (.ok (.flag s.stop)) s
  | readStore (job : JobRecord) (hpc : e.pc = .checkStore ∨ e.pc = .recheck ∨ e.pc = .readIntent)
      (hget : s.store.get e.job.id none = .ok job) : Performs cfg clock fault e s (.ok (.flag job.isCancelled)) s
  | settled (settling : Settling) (report : Store.Report) (n : Nat) (reply : Except Exc Reply) (s' : Service)
      (hpc : e.pc = .settling settling report n)
      (hcall : faulted fault s (onStore (fun _ => .unit)
        (s.store.finish cfg.store clock e.job.id e.attempt s.workerId report) s) = (reply, s')) :
      Performs cfg clock fault e s reply s'
  | marked (cancelRequested : Bool) (reply : Except Exc Reply) (hpc : e.pc = .markRunning cancelRequested)
      (hreply : (∃ x, reply = .error x) ∨ reply = .ok .unit) :
      Performs cfg clock fault e s reply
        { s with store := (s.store.markRunning cfg.store clock e.job.id e.attempt s.workerId).2 }
  | passed (hpc : e.pc = .createTask ∨ e.pc = .disposing ∨ e.pc = .shuttingDown) :
      Performs cfg clock fault e s (.ok .unit) s
  | registered (reply : Except Exc Reply) (hpc : e.pc = .register) (hfree : s.locked = false)
      (hreply : (∃ x, reply = .error x) ∨ reply = .ok .unit) :
      Performs cfg clock fault e s reply { s with active := s.active.insert e.job.id e.attempt }
  | started (hpc : e.pc = .starting) (hstart : e.startCancelled = false) :
      Performs cfg clock fault e s (.ok (.session { id := cfg.sessionId e.attempt })) s
  | published (hpc : e.pc = .publish) (hfree : s.locked = false) :
      Performs cfg clock fault e s (.ok (.flag (s.active.lookup e.job.id = some e.attempt))) s
  | readSignal (cancelRequested : Bool) (hpc : e.pc = .signal cancelRequested) :
      Performs cfg clock fault e s (.ok (.flag (s.stop || cancelRequested))) s
  | cancelled (cancelRequested : Bool) (session session' : Session) (hpc : e.pc = .cancelling cancelRequested)
      (hfault : fault = .none) (hsession : e.session = some session) (hcancel : session.cancel = .ok session') :
      Performs cfg clock fault e s (.ok (.session session')) s
  | waited (session : Session) (result : CommandResult) (hpc : e.pc = .waiting) (hsession : e.session = some session)
      (hresult : session.result = some result) : Performs cfg clock fault e s (.ok (.result (some result))) s
  | wrote (result : CommandResult) (hpc : e.pc = .writing result) :
      Performs cfg clock fault e s
        ((s.output.writeJob cfg.output fault e.job.id result.stdoutBytes result.stderrBytes).1.map
          fun p => .paths p.1 p.2)
        { s with
          output := (s.output.writeJob cfg.output fault e.job.id result.stdoutBytes result.stderrBytes).2
          written := s.written ++ [(e.job.id, result.stdoutBytes, result.stderrBytes)] }
  | undiscarded (x : Exc) (hpc : e.pc = .discarding x) (hpaths : e.outputPaths = none) :
      Performs cfg clock fault e s (.ok .unit) s
  | discarded (x : Exc) (stdoutPath stderrPath : String) (hpc : e.pc = .discarding x)
      (hpaths : e.outputPaths = some (stdoutPath, stderrPath)) :
      Performs cfg clock fault e s
        ((s.output.deleteJob cfg.output fault e.job.id (some stdoutPath) (some stderrPath)).1.map fun _ => .unit)
        { s with output := (s.output.deleteJob cfg.output fault e.job.id (some stdoutPath) (some stderrPath)).2 }
  | popped (hpc : e.pc = .popping ∨ e.pc = .executionDone) :
      Performs cfg clock fault e s (.ok .unit) { s with active := s.active.erase e.job.id }

/-- A call without an effect replies, or raises. -/
theorem performs_of_faulted {r : Except Exc Reply}
    (hpc : e.pc.fallible = true) (hok : ∀ a, fault = .none → r = .ok a → Performs cfg clock fault e s (.ok a) s)
    (h : faulted fault s (r, s) = (reply, s')) : Performs cfg clock fault e s reply s' := by
  cases fault with
  | none =>
    cases h
    cases reply with
    | error x => exact .raised x hpc
    | ok a => exact hok a rfl rfl
  | before x | after x | torn _ _ x =>
    cases h
    exact .raised x hpc

/-- An execution registers, unless the lock is taken or the call raises. -/
theorem performs_register (hpc : e.pc = .register) (h : s.perform cfg clock fault e = some (reply, s')) :
    Performs cfg clock fault e s reply s' := by
  unfold perform at h
  rw [hpc] at h
  dsimp only at h
  split at h
  · cases h
  · rename_i hfree
    have hregistered : ∀ reply, (∃ x, reply = .error x) ∨ reply = .ok .unit →
        Performs cfg clock fault e s reply { s with active := s.active.insert e.job.id e.attempt } :=
      fun reply hreply => .registered reply hpc (by simpa using hfree) hreply
    rcases faulted_cases fault s (.ok .unit, { s with active := s.active.insert e.job.id e.attempt }) with
      he | ⟨x, he⟩ | ⟨x, he⟩
    · cases (Option.some.inj h).symm.trans he
      exact hregistered _ (Or.inr rfl)
    · cases (Option.some.inj h).symm.trans he
      exact .raised x (by rw [hpc]; rfl)
    · cases (Option.some.inj h).symm.trans he
      exact hregistered _ (Or.inl ⟨x, rfl⟩)

/-- A start is published, refused or raised. -/
theorem performs_starting (hpc : e.pc = .starting) (h : s.perform cfg clock fault e = some (reply, s')) :
    Performs cfg clock fault e s reply s' := by
  unfold perform at h
  rw [hpc] at h
  dsimp only at h
  split at h
  · split at h
    · cases h
      exact .raised _ (by rw [hpc]; rfl)
    · rename_i hstart
      cases h
      exact .started hpc (by simpa using hstart)
  all_goals
    cases h
    exact .raised _ (by rw [hpc]; rfl)

/-- An execution publishes its session, unless the lock is taken or the call raises. -/
theorem performs_publish (hpc : e.pc = .publish) (h : s.perform cfg clock fault e = some (reply, s')) :
    Performs cfg clock fault e s reply s' := by
  unfold perform at h
  rw [hpc] at h
  dsimp only at h
  split at h
  · cases h
  · rename_i hfree
    refine performs_of_faulted (by rw [hpc]; rfl) ?_ (Option.some.inj h)
    rintro a - ⟨⟩
    exact .published hpc (by simpa using hfree)

/-- An attempt is marked as running, whatever the store replies. -/
theorem performs_markRunning {cancelRequested : Bool} (hpc : e.pc = .markRunning cancelRequested)
    (h : s.perform cfg clock fault e = some (reply, s')) :
    Performs cfg clock fault e s reply s' := by
  unfold perform at h
  rw [hpc] at h
  have hmarked : ∀ reply, (∃ x, reply = .error x) ∨ reply = .ok .unit →
      Performs cfg clock fault e s reply
        { s with store := (s.store.markRunning cfg.store clock e.job.id e.attempt s.workerId).2 } :=
    fun reply hreply => .marked cancelRequested reply hpc hreply
  rcases faulted_cases fault s (onStore (fun _ => .unit)
      (s.store.markRunning cfg.store clock e.job.id e.attempt s.workerId) s) with he | ⟨x, he⟩ | ⟨x, he⟩
  · cases (Option.some.inj h).symm.trans he
    refine hmarked _ ?_
    cases (s.store.markRunning cfg.store clock e.job.id e.attempt s.workerId).1 with
    | error x => exact Or.inl ⟨_, rfl⟩
    | ok job => exact Or.inr rfl
  · cases (Option.some.inj h).symm.trans he
    exact .raised x (by rw [hpc]; rfl)
  · cases (Option.some.inj h).symm.trans he
    exact hmarked _ (Or.inl ⟨x, rfl⟩)

/-- The session is cancelled, or the call raises. -/
theorem performs_cancelling {cancelRequested : Bool} (hpc : e.pc = .cancelling cancelRequested)
    (h : s.perform cfg clock fault e = some (reply, s')) :
    Performs cfg clock fault e s reply s' := by
  unfold perform at h
  rw [hpc] at h
  dsimp only at h
  rw [Option.map_eq_some_iff] at h
  obtain ⟨session, hsession, h⟩ := h
  refine performs_of_faulted (by rw [hpc]; rfl) ?_ h
  intro a hfault ha
  cases hcancel : session.cancel with
  | error x => simp [hcancel, Except.map] at ha
  | ok session' =>
    rw [hcancel] at ha
    cases ha
    exact .cancelled cancelRequested session session' hpc hfault hsession hcancel

/-- The result of the session is waited for, or the wait raises. -/
theorem performs_waiting (hpc : e.pc = .waiting) (h : s.perform cfg clock fault e = some (reply, s')) :
    Performs cfg clock fault e s reply s' := by
  unfold perform at h
  rw [hpc] at h
  dsimp only at h
  split at h
  · rw [Option.map_eq_some_iff] at h
    obtain ⟨result, hresult, h⟩ := h
    cases h
    rw [Option.bind_eq_some_iff] at hresult
    obtain ⟨session, hsession, hresult⟩ := hresult
    exact .waited session result hpc hsession hresult
  all_goals
    cases h
    exact .raised _ (by rw [hpc]; rfl)

/-- The calls do what `Performs` lists. -/
theorem performs_of_perform (h : s.perform cfg clock fault e = some (reply, s')) :
    Performs cfg clock fault e s reply s' := by
  cases hpc : e.pc with
  | checkStop =>
    unfold perform at h
    rw [hpc] at h
    refine performs_of_faulted (by rw [hpc]; rfl) ?_ (Option.some.inj h)
    rintro a - ⟨⟩
    exact .readStop (Or.inl hpc)
  | checkStopAgain =>
    unfold perform at h
    rw [hpc] at h
    refine performs_of_faulted (by rw [hpc]; rfl) ?_ (Option.some.inj h)
    rintro a - ⟨⟩
    exact .readStop (Or.inr hpc)
  | checkStore | recheck | readIntent =>
    unfold perform at h
    rw [hpc] at h
    refine performs_of_faulted (by rw [hpc]; rfl) ?_ (Option.some.inj h)
    rintro a - ha
    cases hget : s.store.get e.job.id none with
    | error x => simp [hget, replyOf] at ha
    | ok job =>
      rw [hget] at ha
      cases ha
      exact .readStore job (by simp [hpc]) hget
  | settling settling report n =>
    unfold perform at h
    rw [hpc] at h
    exact .settled settling report n reply s' hpc (Option.some.inj h)
  | createTask | disposing | shuttingDown =>
    unfold perform at h
    rw [hpc] at h
    refine performs_of_faulted (by rw [hpc]; rfl) ?_ (Option.some.inj h)
    rintro a - ⟨⟩
    exact .passed (by simp [hpc])
  | register => exact performs_register hpc h
  | starting => exact performs_starting hpc h
  | publish => exact performs_publish hpc h
  | markRunning cancelRequested => exact performs_markRunning hpc h
  | signal cancelRequested =>
    unfold perform at h
    rw [hpc] at h
    refine performs_of_faulted (by rw [hpc]; rfl) ?_ (Option.some.inj h)
    rintro a - ⟨⟩
    exact .readSignal cancelRequested hpc
  | cancelling cancelRequested => exact performs_cancelling hpc h
  | waiting => exact performs_waiting hpc h
  | writing result =>
    unfold perform at h
    rw [hpc] at h
    cases h
    exact .wrote result hpc
  | discarding x =>
    unfold perform at h
    rw [hpc] at h
    dsimp only at h
    split at h
    · rename_i hpaths
      cases h
      exact .undiscarded x hpc hpaths
    · rename_i stdoutPath stderrPath hpaths
      cases h
      exact .discarded x stdoutPath stderrPath hpc hpaths
  | popping | executionDone =>
    unfold perform at h
    rw [hpc] at h
    dsimp only at h
    split at h
    · cases h
    · cases h
      exact .popped (by simp [hpc])
  | done =>
    unfold perform at h
    rw [hpc] at h
    cases h

/-- The call of an execution changes the store, the output and `_active`, and no other part of the service. -/
theorem Performs.touches (h : Performs cfg clock fault e s reply s') :
    ∃ store output written active, s' = { s with store, output, written, active } := by
  cases h with
  | settled _ _ _ _ _ _ hcall =>
    rcases faulted_cases fault s (onStore (fun _ => .unit)
        (s.store.finish cfg.store clock e.job.id e.attempt s.workerId _) s) with he | ⟨x, he⟩ | ⟨x, he⟩ <;>
      cases hcall.symm.trans he <;> exact ⟨_, _, _, _, rfl⟩
  | raised | readStop | readStore | marked | passed | registered | started | published | readSignal | cancelled | waited
  | wrote | undiscarded | discarded | popped => exact ⟨_, _, _, _, rfl⟩

end Service

/-! ## How an execution goes on -/

namespace Execution

variable {e : Execution}

/-- An execution goes on as the execution of its job, with the run it registered. -/
structure SameRun (e e' : Execution) : Prop where
  job : e'.job = e.job
  attempt : e'.attempt = e.attempt

/-- To handle an exception leaves the run of the attempt. -/
theorem sameRun_handle (e : Execution) (x : Exc) : SameRun e (e.handle x) := by cases x <;> exact ⟨rfl, rfl⟩

/-- To fail leaves the run of the attempt. -/
theorem sameRun_fail (e : Execution) (x : Exc) : SameRun e (e.fail x) := by
  unfold fail
  split
  · exact ⟨rfl, rfl⟩
  · split <;> exact ⟨rfl, rfl⟩
  · split <;> exact ⟨rfl, rfl⟩
  · split
    · exact sameRun_handle e _
    · exact ⟨rfl, rfl⟩
  all_goals exact ⟨rfl, rfl⟩

/-- To proceed leaves the run of the attempt. -/
theorem sameRun_proceed (e : Execution) (reply : Reply) : SameRun e (e.proceed reply) := by
  unfold proceed
  split
  all_goals first | exact ⟨rfl, rfl⟩ | exact sameRun_handle e _

/-- To resume leaves the run of the attempt. -/
theorem sameRun_resume (e : Execution) (reply : Except Exc Reply) : SameRun e (e.resume reply) := by
  cases reply with
  | ok reply => exact sameRun_proceed e reply
  | error x => exact sameRun_fail e x

/-- A callback leaves the run of the attempt. -/
theorem sameRun_callback (e : Execution) (c : Callback) : SameRun e (e.callback c) := by
  cases c with
  | cancelStart origin =>
    unfold callback
    dsimp only
    split <;> exact ⟨rfl, rfl⟩
  | cancelSession origin =>
    unfold callback
    dsimp only
    split
    · split <;> exact ⟨rfl, rfl⟩
    · exact ⟨rfl, rfl⟩

end Execution

namespace Service

variable {cfg : ServiceConfig} {s s' : Service} {e e' : Execution} {clock : Reading}

/-! ## How a step moves an execution -/

/-- What a step does to an execution that it keeps. -/
inductive Moved (cfg : ServiceConfig) (s : Service) : ServiceInput → Execution → Execution → Prop where
  | kept (input : ServiceInput) (e : Execution) : Moved cfg s input e e
  | executed (e : Execution) (clock : Reading) (fault : Fault) (reply : Except Exc Reply) (s' : Service)
      (hcall : Performs cfg clock fault e s reply s')
      (hnext : step cfg s (.execute e.attempt clock fault) = s'.update e.attempt fun e => e.resume reply) :
      Moved cfg s (.execute e.attempt clock fault) e (e.resume reply)
  | called (e : Execution) (c : Callback) (rest : List Callback) (hcallbacks : e.callbacks = c :: rest)
      (hloop : e.pc.loopRuns = true) : Moved cfg s (.callback e.attempt) e ({ e with callbacks := rest }.callback c)
  | monitored (e : Execution) (event : MonitorEvent) (hloop : e.pc.loopRuns = true) :
      Moved cfg s (.monitor e.attempt event) e { e with session := e.session.map (·.monitor event) }
  | sent (e : Execution) (index : Nat) (signal : Signal) (hsignal : s.signals[index]? = some signal)
      (htarget : signal.target = e.attempt) :
      Moved cfg s (.signal index) e
        { e with callbacks := e.callbacks ++
            [if e.published then .cancelSession signal.origin else .cancelStart signal.origin] }

/-- An execution that moves stays the run of its attempt. -/
theorem Moved.sameRun {input : ServiceInput} (h : Moved cfg s input e e') : Execution.SameRun e e' := by
  cases h with
  | kept => exact ⟨rfl, rfl⟩
  | executed => exact Execution.sameRun_resume _ _
  | called => exact ⟨(Execution.sameRun_callback _ _).job, (Execution.sameRun_callback _ _).attempt⟩
  | monitored => exact ⟨rfl, rfl⟩
  | sent => exact ⟨rfl, rfl⟩

/-- The executions after an update are those before it, with the one of the attempt changed. -/
theorem mem_update {attempt : Uuid} {f : Execution → Execution} :
    e' ∈ (s.update attempt f).executions ↔ ∃ e ∈ s.executions, (if e.attempt = attempt then f e else e) = e' := by
  simp only [update, Table.mem_update, decide_eq_true_eq]

/-- A job claimed is executed as a new attempt: the ends of `claim`. -/
theorem claim_cases (cfg : ServiceConfig) (s : Service) (leaseSeconds : Int) (clock : Reading)
    (hs : s.store.WellFormed) :
    s.claim cfg leaseSeconds clock = s ∨
      ∃ row ∈ s.store.jobs, ∃ job : JobRecord, row.phase = .queued ∧ job.id = row.id ∧
        s.claim cfg leaseSeconds clock =
          { s with
            store := (s.store.claimNext cfg.store clock s.workerId leaseSeconds).2
            executions := s.executions ++ [{ job, attempt := s.store.drawn }] } ∧
        (s.store.claimNext cfg.store clock s.workerId leaseSeconds).1 = .ok (some job) ∧
        (s.store.claimNext cfg.store clock s.workerId leaseSeconds).2.jobs =
          Store.replaceJob row.id (Store.assignedRow clock s.store.drawn s.workerId leaseSeconds row) s.store.jobs ∧
        (s.store.claimNext cfg.store clock s.workerId leaseSeconds).2.drawn = s.store.drawn + 1 := by
  rcases Store.claimNext_cases cfg.store clock hs s.workerId leaseSeconds with ⟨x, h⟩ | h |
    ⟨row, hrow, job, store, hphase, h, hjob, hjobs, hdrawn, -⟩
  · left
    simp only [claim, h]
  · left
    simp only [claim, h]
  · right
    have hattempt : job.attemptId = some s.store.drawn := (congrArg JobRow.attemptId hjob).trans rfl
    have hid : job.id = row.id := (congrArg JobRow.id hjob).trans rfl
    refine ⟨row, hrow, job, hphase, hid, ?_, by rw [h], by rw [h]; exact hjobs, by rw [h]; exact hdrawn⟩
    simp only [claim, h, hattempt]

/-- What holds of the executions of a process: they are of different attempts and of different jobs, and their jobs were claimed. -/
structure Sound (s : Service) : Prop where
  wellFormed : s.store.WellFormed
  attempts : (s.executions.map (·.attempt)).Nodup
  jobs : (s.executions.map (·.job.id)).Nodup
  drawn : ∀ e ∈ s.executions, e.attempt < s.store.drawn
  claimed : ∀ e ∈ s.executions, Store.RowsOf e.job.id (fun r => r.phase ≠ .queued) s.store

/-- The execution of an attempt is the one a step finds. -/
theorem Sound.find? (hs : Sound s) (he : e ∈ s.executions) :
    s.executions.find? (fun x => x.attempt = e.attempt) = some e := Table.find?_key Execution.attempt hs.attempts he

/-- An execution found by its attempt. -/
theorem mem_of_find? {attempt : Uuid} (h : s.executions.find? (fun x => x.attempt = attempt) = some e) :
    e ∈ s.executions ∧ e.attempt = attempt :=
  ⟨List.mem_of_find?_eq_some h, by simpa using List.find?_some h⟩

/-- The executions after a step: each of them moved, none after a crash, or one more after a claim. -/
inductive Executes (cfg : ServiceConfig) (s : Service) (input : ServiceInput) (executions : List Execution) : Prop where
  | moved (f : Execution → Execution) (hmoved : ∀ e ∈ s.executions, Moved cfg s input e (f e))
      (hexecutions : executions = s.executions.map f)
  | crashed (tear : Tear) (hinput : input = .crash tear) (hexecutions : executions = [])
  | claimed (leaseSeconds : Int) (clock : Reading) (row : JobRow) (job : JobRecord)
      (hinput : input = .claim leaseSeconds clock) (hstarted : s.started = true) (hrow : row ∈ s.store.jobs)
      (hphase : row.phase = .queued) (hid : job.id = row.id)
      (hclaim : (s.store.claimNext cfg.store clock s.workerId leaseSeconds).1 = .ok (some job))
      (hjobs : (s.store.claimNext cfg.store clock s.workerId leaseSeconds).2.jobs =
        Store.replaceJob row.id (Store.assignedRow clock s.store.drawn s.workerId leaseSeconds row) s.store.jobs)
      (hdrawn : (s.store.claimNext cfg.store clock s.workerId leaseSeconds).2.drawn = s.store.drawn + 1)
      (hexecutions : executions = s.executions ++ [{ job, attempt := s.store.drawn }])

/-- The executions stay as they are. -/
theorem Executes.kept {input : ServiceInput} : Executes cfg s input s.executions :=
  .moved id (fun e _ => .kept input e) (List.map_id _).symm

/-- An execution changed in place: the others are kept. -/
theorem Executes.update {input : ServiceInput} {attempt : Uuid} {f : Execution → Execution}
    (h : ∀ e ∈ s.executions, e.attempt = attempt → Moved cfg s input e (f e)) :
    Executes cfg s input (s.update attempt f).executions := by
  refine .moved _ (fun e he => ?_) rfl
  simp only [decide_eq_true_eq]
  split
  · rename_i hattempt
    exact h e he hattempt
  · exact .kept input e

/-- What a step does to the executions. -/
theorem Sound.executes (cfg : ServiceConfig) (hs : Sound s) (input : ServiceInput) :
    Executes cfg s input (step cfg s input).executions := by
  cases input with
  | store call clock =>
    unfold step
    dsimp only
    split <;> exact .kept
  | claim leaseSeconds clock =>
    unfold step
    dsimp only
    split
    · rename_i hstarted
      rcases claim_cases cfg s leaseSeconds clock hs.wellFormed with h | ⟨row, hrow, job, hphase, hid, h, hclaim, hjobs, hdrawn⟩
      · rw [h]
        exact .kept
      · rw [h]
        exact .claimed leaseSeconds clock row job rfl hstarted hrow hphase hid hclaim hjobs hdrawn rfl
    · exact .kept
  | execute attempt clock fault =>
    unfold step
    dsimp only
    split
    · rename_i e hfound
      obtain ⟨he, rfl⟩ := mem_of_find? hfound
      unfold execute
      split
      · rename_i reply s' hperform
        have hcall := performs_of_perform hperform
        obtain ⟨_, _, _, _, rfl⟩ := hcall.touches
        refine Executes.update (s := s) fun x hx hattempt => ?_
        obtain rfl := Table.eq_of_key Execution.attempt hs.attempts hx he hattempt
        exact .executed x clock fault reply _ hcall (by simp only [step, hfound, execute, hperform])
      · exact .kept
    · exact .kept
  | callback attempt =>
    refine Executes.update fun x _ hattempt => ?_
    subst hattempt
    split
    · rename_i c rest hcallbacks
      split
      · rename_i hloop
        exact .called x c rest hcallbacks hloop
      · exact .kept _ x
    · exact .kept _ x
  | monitor attempt event =>
    refine Executes.update fun x _ hattempt => ?_
    subst hattempt
    split
    · rename_i hloop
      exact .monitored x event hloop
    · exact .kept _ x
  | cancel jobId tenantId clock =>
    unfold step cancel
    dsimp only
    split
    · split
      · split
        · split <;> exact .kept
        · exact .kept
      · exact .kept
    · exact .kept
  | signal index =>
    unfold step
    dsimp only
    split
    · rename_i signal hsignal
      exact Executes.update (s := s) fun x _ hattempt => .sent x index signal hsignal hattempt.symm
    · exact .kept
  | close | snapshot | finalize =>
    unfold step
    dsimp only
    split <;> exact .kept
  | prune index fault =>
    unfold step pruneStep
    dsimp only
    split
    · split
      · exact .kept
      · split
        · exact .kept
        · split <;> exact .kept
    · exact .kept
  | crash tear => exact .crashed tear rfl rfl
  | «open» workerId torn =>
    unfold step openStores
    dsimp only
    split
    · exact .kept
    · split <;> exact .kept
  | start clock =>
    unfold step
    dsimp only
    split <;> exact .kept

/-- Where an execution comes from: a step moved it, or a claim made it. -/
theorem Sound.execution_from (hs : Sound s) {input : ServiceInput} (he' : e' ∈ (step cfg s input).executions) :
    (∃ e ∈ s.executions, Moved cfg s input e e') ∨
      ∃ leaseSeconds clock job, input = .claim leaseSeconds clock ∧ s.started = true ∧
        (s.store.claimNext cfg.store clock s.workerId leaseSeconds).1 = .ok (some job) ∧
        e' = { job, attempt := s.store.drawn } := by
  cases hs.executes cfg input with
  | moved f hmoved hexecutions =>
    rw [hexecutions, List.mem_map] at he'
    obtain ⟨e, he, rfl⟩ := he'
    exact Or.inl ⟨e, he, hmoved e he⟩
  | crashed tear _ hexecutions =>
    rw [hexecutions] at he'
    cases he'
  | claimed leaseSeconds clock row job hinput hstarted _ _ _ hclaim _ _ hexecutions =>
    rw [hexecutions, List.mem_append, List.mem_singleton] at he'
    rcases he' with he' | rfl
    · exact Or.inl ⟨e', he', .kept input e'⟩
    · exact Or.inr ⟨leaseSeconds, clock, job, hinput, hstarted, hclaim, rfl⟩

/-! ## What a step does to the store -/

/-- The call of the store that a step makes. -/
inductive StoreEffect (s : Service) : ServiceInput → StoreCall → Reading → Prop where
  | shared (call : StoreCall) (clock : Reading) (hshared : isShared call = true) :
      StoreEffect s (.store call clock) call clock
  | claimed (leaseSeconds : Int) (clock : Reading) (hstarted : s.started = true) :
      StoreEffect s (.claim leaseSeconds clock) (.claimNext s.workerId leaseSeconds) clock
  | settled (e : Execution) (settling : Settling) (report : Store.Report) (n : Nat) (clock : Reading) (fault : Fault)
      (he : e ∈ s.executions) (hpc : e.pc = .settling settling report n) :
      StoreEffect s (.execute e.attempt clock fault) (.finish e.job.id e.attempt s.workerId report) clock
  | marked (e : Execution) (cancelRequested : Bool) (clock : Reading) (fault : Fault) (he : e ∈ s.executions)
      (hpc : e.pc = .markRunning cancelRequested) :
      StoreEffect s (.execute e.attempt clock fault) (.markRunning e.job.id e.attempt s.workerId) clock
  | requested (jobId : Uuid) (tenantId : Option String) (clock : Reading) (hfree : s.locked = false) :
      StoreEffect s (.cancel jobId tenantId clock) (.requestCancel jobId tenantId) clock
  | cleared (index : Nat) (fault : Fault) (clock : Reading) (row : DeletionRow) (rows : List DeletionRow)
      (hpruner : s.pruners[index]? = some ⟨row :: rows, true⟩) :
      StoreEffect s (.prune index fault) (.clearManifest row.jobId) clock
  | reopened (workerId : String) (torn : Option Nat) (clock : Reading) (hdown : s.up = false) :
      StoreEffect s (.open workerId torn) .reopen clock
  | recovered (clock : Reading) : StoreEffect s (.start clock) .recoverInterrupted clock

/-- A step calls the store at most once. -/
theorem store_step (cfg : ServiceConfig) (s : Service) (input : ServiceInput) :
    (step cfg s input).store = s.store ∨
      ∃ call clock, StoreEffect s input call clock ∧
        (step cfg s input).store = s.store.step cfg.store (call, clock) := by
  cases input with
  | store call clock =>
    unfold step
    dsimp only
    split
    · rename_i hshared
      rw [Bool.and_eq_true] at hshared
      exact Or.inr ⟨_, _, .shared call clock hshared.2, rfl⟩
    · exact Or.inl rfl
  | claim leaseSeconds clock =>
    unfold step
    dsimp only
    split
    · rename_i hstarted
      refine Or.inr ⟨_, clock, .claimed leaseSeconds clock hstarted, ?_⟩
      unfold claim
      dsimp only
      split
      · split <;> rfl
      · rfl
    · exact Or.inl rfl
  | execute attempt clock fault =>
    unfold step
    dsimp only
    split
    · rename_i e hfound
      obtain ⟨he, rfl⟩ := mem_of_find? hfound
      unfold execute
      split
      · rename_i reply s' hperform
        change s'.store = s.store ∨ _
        have hcall := performs_of_perform hperform
        cases hcall with
        | settled settling report n _ _ hpc hcall =>
          have hsettled : s'.store = s.store ∨ s'.store = (s.store.finish cfg.store clock e.job.id e.attempt s.workerId report).2 := by
            rcases faulted_cases fault s (onStore (fun _ => .unit)
                (s.store.finish cfg.store clock e.job.id e.attempt s.workerId report) s) with he | ⟨x, he⟩ | ⟨x, he⟩ <;>
              cases hcall.symm.trans he
            · exact Or.inr rfl
            · exact Or.inl rfl
            · exact Or.inr rfl
          rcases hsettled with h | h
          · exact Or.inl h
          · exact Or.inr ⟨_, clock, .settled e settling report n clock fault he hpc, h⟩
        | marked c _ hpc => exact Or.inr ⟨_, clock, .marked e c clock fault he hpc, rfl⟩
        | raised | readStop | readStore | passed | registered | started | published | readSignal | cancelled | waited
        | wrote | undiscarded | discarded | popped => exact Or.inl rfl
      · exact Or.inl rfl
    · exact Or.inl rfl
  | cancel jobId tenantId clock =>
    unfold step
    dsimp only
    split
    · rename_i hfree
      rw [Bool.and_eq_true] at hfree
      refine Or.inr ⟨_, clock, .requested jobId tenantId clock (by simpa using hfree.2), ?_⟩
      unfold cancel
      dsimp only
      split
      · split
        · split <;> rfl
        · rfl
      · rfl
    · exact Or.inl rfl
  | prune index fault =>
    unfold step
    dsimp only
    split
    · rename_i pruner hpruner
      unfold pruneStep
      split
      · exact Or.inl rfl
      · rename_i row rows hrows
        split
        · rename_i hdeleted
          refine Or.inr ⟨_, .at 0, .cleared index fault (.at 0) row rows ?_, rfl⟩
          obtain ⟨prows, pdeleted⟩ := pruner
          cases hrows
          cases hdeleted
          exact hpruner
        · dsimp only
          split <;> exact Or.inl rfl
    · exact Or.inl rfl
  | «open» workerId torn =>
    unfold step
    dsimp only
    split
    · exact Or.inl rfl
    · rename_i hdown
      refine Or.inr ⟨_, .at 0, .reopened workerId torn (.at 0) (by simpa using hdown), ?_⟩
      unfold openStores
      split <;> rfl
  | start clock =>
    unfold step
    dsimp only
    split
    · exact Or.inr ⟨_, clock, .recovered clock, rfl⟩
    · exact Or.inl rfl
  | callback | monitor | crash => exact Or.inl rfl
  | signal index =>
    unfold step
    dsimp only
    split <;> exact Or.inl rfl
  | close | snapshot | finalize =>
    unfold step
    dsimp only
    split <;> exact Or.inl rfl

/-- What every call of the store keeps, a step of the service keeps. -/
theorem store_induct {P : Store → Prop} (cfg : ServiceConfig) (s : Service) (input : ServiceInput) (h : P s.store)
    (hstep : ∀ call clock, StoreEffect s input call clock → P (s.store.step cfg.store (call, clock))) :
    P (step cfg s input).store := by
  rcases store_step cfg s input with he | ⟨call, clock, heffect, he⟩
  · rw [he]
    exact h
  · rw [he]
    exact hstep call clock heffect

/-- A reachable service is reachable after every input. -/
theorem Reachable.next (h : Reachable cfg s) (input : ServiceInput) : Reachable cfg (step cfg s input) :=
  Machine.Reachable.next _ h input

/-- The store of a service in use is a store in use. -/
theorem Reachable.store (h : Reachable cfg s) : Store.Reachable cfg.store s.store :=
  Machine.Reachable.invariant (P := fun s => Store.Reachable cfg.store s.store) h
    (show Store.Reachable cfg.store (create cfg).store from Machine.Reachable.init _ _)
    fun s input hs => store_induct cfg s input hs fun _ _ _ => hs.next _

/-- No row of a job is queued again. -/
theorem rowsOf_not_queued (cfg : ServiceConfig) {jobId : Uuid} {store : Store} {input : StoreCall × Reading} (hs : store.WellFormed)
    (h : Store.RowsOf jobId (fun r => r.phase ≠ .queued) store) :
    Store.RowsOf jobId (fun r => r.phase ≠ .queued) (store.step cfg.store input) :=
  h.step hs fun _ _ _ _ _ hq hmove => hmove.not_queued hq

/-- No input takes back an id that was drawn. -/
theorem drawn_le (cfg : ServiceConfig) (s : Service) (input : ServiceInput) (hs : s.store.WellFormed) :
    s.store.drawn ≤ (step cfg s input).store.drawn :=
  store_induct (P := fun store => s.store.drawn ≤ store.drawn) cfg s input le_rfl fun _ _ _ => hs.drawn_le_step cfg.store _

/-- A claim of a started service is one of its store. -/
theorem store_claim {leaseSeconds : Int} (hstarted : s.started = true) :
    (step cfg s (.claim leaseSeconds clock)).store = (s.store.claimNext cfg.store clock s.workerId leaseSeconds).2 := by
  unfold step claim
  dsimp only
  rw [if_pos hstarted]
  split
  · split <;> rfl
  · rfl

/-- The jobs and the attempts of the executions stay, but for those of a claim. -/
theorem Sound.step (hs : Sound s) (input : ServiceInput) : Sound (Service.step cfg s input) := by
  have hwf : (Service.step cfg s input).store.WellFormed :=
    store_induct (P := Store.WellFormed) cfg s input hs.wellFormed fun _ _ _ => hs.wellFormed.step _
  have hdrawn := drawn_le cfg s input hs.wellFormed
  have hclaimed : ∀ e ∈ s.executions,
      Store.RowsOf e.job.id (fun r => r.phase ≠ .queued) (Service.step cfg s input).store := fun e he =>
    store_induct cfg s input (hs.claimed e he) fun _ _ _ => rowsOf_not_queued cfg hs.wellFormed (hs.claimed e he)
  cases hs.executes cfg input with
  | moved f hmoved hexecutions =>
    have hsame := fun e he => (hmoved e he).sameRun
    refine ⟨hwf, ?_, ?_, fun e' he' => ?_, fun e' he' => ?_⟩
    · rw [hexecutions, List.map_map]
      exact (List.map_congr_left fun e he => (hsame e he).attempt) ▸ hs.attempts
    · rw [hexecutions, List.map_map]
      exact (List.map_congr_left fun e he => congrArg (fun job : JobRecord => job.id) (hsame e he).job) ▸ hs.jobs
    · rw [hexecutions, List.mem_map] at he'
      obtain ⟨e, he, rfl⟩ := he'
      rw [(hsame e he).attempt]
      exact (hs.drawn e he).trans_le hdrawn
    · rw [hexecutions, List.mem_map] at he'
      obtain ⟨e, he, rfl⟩ := he'
      rw [(hsame e he).job]
      exact hclaimed e he
  | crashed tear _ hexecutions =>
    refine ⟨hwf, ?_, ?_, ?_, ?_⟩ <;> rw [hexecutions] <;> simp
  | claimed leaseSeconds clock row job hinput hstarted hrow hphase hid hclaim hjobs hnext hexecutions =>
    have hstore : (Service.step cfg s input).store =
        (s.store.claimNext cfg.store clock s.workerId leaseSeconds).2 := by
      rw [hinput]
      exact store_claim hstarted
    have hother : ∀ e ∈ s.executions, e.job.id ≠ job.id := fun e he heq =>
      (hs.claimed e he).2 row hrow (heq.trans hid).symm hphase
    have hassigned : Store.RowsOf job.id (fun r => r.phase ≠ .queued) (Service.step cfg s input).store := by
      have hid_drawn : job.id < s.store.drawn := hid ▸ hs.wellFormed.jobDrawn row hrow
      refine ⟨hid_drawn.trans_le hdrawn, fun r hr hrid => ?_⟩
      rw [hstore, hjobs, Store.mem_replaceJob] at hr
      rcases hr with ⟨-, hne⟩ | ⟨rfl, -⟩
      · exact absurd (hrid.trans hid) hne
      · exact JobPhase.noConfusion
    refine ⟨hwf, ?_, ?_, fun e' he' => ?_, fun e' he' => ?_⟩
    · rw [hexecutions, List.map_append, List.nodup_append]
      refine ⟨hs.attempts, List.nodup_singleton _, fun a ha b hb => ?_⟩
      obtain ⟨e, he, rfl⟩ := List.mem_map.1 ha
      rw [List.mem_singleton.1 hb]
      exact (hs.drawn e he).ne
    · rw [hexecutions, List.map_append, List.nodup_append]
      refine ⟨hs.jobs, List.nodup_singleton _, fun a ha b hb => ?_⟩
      obtain ⟨e, he, rfl⟩ := List.mem_map.1 ha
      rw [List.mem_singleton.1 hb]
      exact hother e he
    · rw [hexecutions, List.mem_append, List.mem_singleton] at he'
      rcases he' with he' | rfl
      · exact (hs.drawn e' he').trans_le hdrawn
      · rw [hstore, hnext]
        exact Nat.lt_succ_self _
    · rw [hexecutions, List.mem_append, List.mem_singleton] at he'
      rcases he' with he' | rfl
      · exact hclaimed e' he'
      · exact hassigned

/-- A new service is sound. -/
theorem sound_create (cfg : ServiceConfig) : Sound (create cfg) :=
  ⟨Store.wellFormed_create 0, List.nodup_nil, List.nodup_nil, by simp [create], by simp [create]⟩

/-- In every state of the service the executions are of jobs that were claimed, one of each. -/
theorem Reachable.sound (h : Reachable cfg s) : Sound s :=
  Machine.Reachable.invariant h (sound_create cfg) fun _ input hs => hs.step input

end Service

end SharkRail
