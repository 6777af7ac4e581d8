import SharkRail.Lemmas.Service

/-!
# What an execution does

`Advances` lists the calls of an execution together with how it goes on after them, branch by branch of `_execute_job`, and
`ServiceStep` every step of the service. An invariant of the executions is proved against these cases.
-/

namespace SharkRail

/-- A call whose exceptions lead to the handlers at once. -/
def Pc.inBody : Pc → Bool
  | .checkStop | .checkStore | .createTask | .register | .checkStopAgain | .starting | .publish | .recheck | .markRunning _
  | .signal _ | .cancelling _ | .waiting | .disposing => true
  | _ => false

namespace Service

variable {cfg : ServiceConfig} {s s' : Service} {e e' : Execution} {clock : Reading} {fault : Fault}
  {reply : Except Exc Reply}

/-- An execution makes a call and goes on: the execution and the service after it. -/
inductive Advances (cfg : ServiceConfig) (clock : Reading) (fault : Fault) (e : Execution) (s : Service) :
    Execution → Service → Prop where
  | raised (x : Exc) (hpc : e.pc.inBody = true) : Advances cfg clock fault e s (e.raised x) s
  | stopped (hpc : e.pc = .checkStop) (hstop : s.stop = true) :
      Advances cfg clock fault e s { e with pc := .settling .early shutdownBeforeStart 0, interrupted := true } s
  | unstopped (hpc : e.pc = .checkStop) : Advances cfg clock fault e s { e with pc := .checkStore } s
  | asked (job : JobRecord) (hpc : e.pc = .checkStore) (hget : s.store.get e.job.id none = .ok job)
      (hcancelled : job.isCancelled = true) :
      Advances cfg clock fault e s { e with pc := .settling .early cancelledBeforeStart 0 } s
  | unasked (hpc : e.pc = .checkStore) : Advances cfg clock fault e s { e with pc := .createTask } s
  | created (hpc : e.pc = .createTask) : Advances cfg clock fault e s { e with pc := .register } s
  | registered (hpc : e.pc = .register) (hfree : s.locked = false) :
      Advances cfg clock fault e s { e with pc := .checkStopAgain, registered := true }
        { s with active := s.active.insert e.job.id e.attempt }
  | unregistered (x : Exc) (hpc : e.pc = .register) (hfree : s.locked = false) :
      Advances cfg clock fault e s (e.raised x) { s with active := s.active.insert e.job.id e.attempt }
  | stopRead (hpc : e.pc = .checkStopAgain) :
      Advances cfg clock fault e s
        { e with pc := .starting, startCancelled := s.stop, interrupted := e.interrupted || s.stop } s
  | started (hpc : e.pc = .starting) (hstart : e.startCancelled = false) :
      Advances cfg clock fault e s { e with pc := .publish, session := some { id := cfg.sessionId e.attempt } } s
  | published (hpc : e.pc = .publish) (hfree : s.locked = false) :
      Advances cfg clock fault e s
        { e with pc := .recheck, published := e.published || decide (s.active.lookup e.job.id = some e.attempt) } s
  | rechecked (job : JobRecord) (hpc : e.pc = .recheck) (hget : s.store.get e.job.id none = .ok job) :
      Advances cfg clock fault e s { e with pc := .markRunning job.isCancelled } s
  | marked (cancelRequested : Bool) (hpc : e.pc = .markRunning cancelRequested) :
      Advances cfg clock fault e s { e with pc := .signal cancelRequested }
        { s with store := (s.store.markRunning cfg.store clock e.job.id e.attempt s.workerId).2 }
  | unmarked (cancelRequested : Bool) (x : Exc) (hpc : e.pc = .markRunning cancelRequested) :
      Advances cfg clock fault e s (e.raised x)
        { s with store := (s.store.markRunning cfg.store clock e.job.id e.attempt s.workerId).2 }
  | signalled (cancelRequested : Bool) (hpc : e.pc = .signal cancelRequested)
      (hsignal : (s.stop || cancelRequested) = true) :
      Advances cfg clock fault e s { e with pc := .cancelling cancelRequested } s
  | unsignalled (hpc : e.pc = .signal false) (hstop : s.stop = false) :
      Advances cfg clock fault e s { e with pc := .waiting } s
  | cancelled (cancelRequested : Bool) (session session' : Session) (hpc : e.pc = .cancelling cancelRequested)
      (hfault : fault = .none) (hsession : e.session = some session) (hcancel : session.cancel = .ok session') :
      Advances cfg clock fault e s
        { e.cancelSession session' (if cancelRequested then .request else .shutdown) with pc := .waiting } s
  | waited (session : Session) (result : CommandResult) (hpc : e.pc = .waiting) (hsession : e.session = some session)
      (hresult : session.result = some result) : Advances cfg clock fault e s { e with pc := .writing result } s
  | wrote (result : CommandResult) (stdoutPath stderrPath : String) (hpc : e.pc = .writing result)
      (hwrite : (s.output.writeJob cfg.output fault e.job.id result.stdoutBytes result.stderrBytes).1 =
        .ok (stdoutPath, stderrPath)) :
      Advances cfg clock fault e s
        { e with
          pc := .settling .result (resultReport result stdoutPath stderrPath) 0
          outputPaths := some (stdoutPath, stderrPath) }
        { s with
          output := (s.output.writeJob cfg.output fault e.job.id result.stdoutBytes result.stderrBytes).2
          written := s.written ++ [(e.job.id, result.stdoutBytes, result.stderrBytes)] }
  | unwritten (result : CommandResult) (x : Exc) (hpc : e.pc = .writing result)
      (hwrite : (s.output.writeJob cfg.output fault e.job.id result.stdoutBytes result.stderrBytes).1 = .error x) :
      Advances cfg clock fault e s (e.raised x)
        { s with
          output := (s.output.writeJob cfg.output fault e.job.id result.stdoutBytes result.stderrBytes).2
          written := s.written ++ [(e.job.id, result.stdoutBytes, result.stderrBytes)] }
  | settled (settling : Settling) (report : Store.Report) (n : Nat) (job : JobRecord) (hpc : e.pc = .settling settling report n)
      (hfault : fault = .none)
      (hfinish : (s.store.finish cfg.store clock e.job.id e.attempt s.workerId report).1 = .ok job) :
      Advances cfg clock fault e s (e.proceed .unit)
        { s with store := (s.store.finish cfg.store clock e.job.id e.attempt s.workerId report).2 }
  | failed (settling : Settling) (report : Store.Report) (n : Nat) (x : StoreError) (hpc : e.pc = .settling settling report n)
      (hfault : fault = .none)
      (hfinish : (s.store.finish cfg.store clock e.job.id e.attempt s.workerId report).1 = .error x) :
      Advances cfg clock fault e s (e.fail x.exc)
        { s with store := (s.store.finish cfg.store clock e.job.id e.attempt s.workerId report).2 }
  | unsettled (settling : Settling) (report : Store.Report) (n : Nat) (x : Exc) (hpc : e.pc = .settling settling report n)
      (hfault : fault = .before x ∨ ∃ done cleaned, fault = .torn done cleaned x) :
      Advances cfg clock fault e s (e.fail x) s
  | unheard (settling : Settling) (report : Store.Report) (n : Nat) (x : Exc) (hpc : e.pc = .settling settling report n)
      (hfault : fault = .after x) :
      Advances cfg clock fault e s (e.fail x)
        { s with store := (s.store.finish cfg.store clock e.job.id e.attempt s.workerId report).2 }
  | disposed (hpc : e.pc = .disposing) : Advances cfg clock fault e s e.leave s
  | nothingToDiscard (x : Exc) (hpc : e.pc = .discarding x) (hpaths : e.outputPaths = none) :
      Advances cfg clock fault e s (e.handle x) s
  | discarded (x : Exc) (stdoutPath stderrPath : String) (e' : Execution) (hpc : e.pc = .discarding x)
      (hpaths : e.outputPaths = some (stdoutPath, stderrPath)) (he' : e' = e.handle x ∨ e' = e.leave) :
      Advances cfg clock fault e s e'
        { s with output := (s.output.deleteJob cfg.output fault e.job.id (some stdoutPath) (some stderrPath)).2 }
  | intentRead (job : JobRecord) (hpc : e.pc = .readIntent) (hget : s.store.get e.job.id none = .ok job) :
      Advances cfg clock fault e s { e with pc := .settling .handler (interruptedReport job.isCancelled) 0 } s
  | intentUnread (hpc : e.pc = .readIntent) : Advances cfg clock fault e s e.leave s
  | popped (hpc : e.pc = .popping) :
      Advances cfg clock fault e s { e with pc := .shuttingDown } { s with active := s.active.erase e.job.id }
  | shutDown (hpc : e.pc = .shuttingDown) : Advances cfg clock fault e s { e with pc := .executionDone } s
  | ended (hpc : e.pc = .executionDone) :
      Advances cfg clock fault e s { e with pc := .done } { s with active := s.active.erase e.job.id }

/-- How an execution goes on with what its call replied. -/
theorem Performs.advances (h : Performs cfg clock fault e s reply s') : Advances cfg clock fault e s (e.resume reply) s' := by
  cases h with
  | raised x hpc =>
    cases hcase : e.pc with
    | readIntent => simpa [Execution.resume, Execution.fail, hcase] using .intentUnread hcase
    | shuttingDown => simpa [Execution.resume, Execution.fail, hcase] using .shutDown hcase
    | settling | writing | discarding | popping | executionDone | done => simp [hcase, Pc.fallible] at hpc
    | _ => simpa [Execution.resume, Execution.fail, hcase] using .raised x (by rw [hcase]; rfl)
  | readStop hpc =>
    rcases hpc with hpc | hpc
    · cases hstop : s.stop with
      | true => simpa [Execution.resume, Execution.proceed, hpc] using .stopped hpc hstop
      | false => simpa [Execution.resume, Execution.proceed, hpc] using .unstopped hpc
    · simpa [Execution.resume, Execution.proceed, hpc] using .stopRead hpc
  | readStore job hpc hget =>
    rcases hpc with hpc | hpc | hpc
    · cases hcancelled : job.isCancelled with
      | true => simpa [Execution.resume, Execution.proceed, hpc] using .asked job hpc hget hcancelled
      | false => simpa [Execution.resume, Execution.proceed, hpc] using .unasked hpc
    · simpa [Execution.resume, Execution.proceed, hpc] using .rechecked job hpc hget
    · simpa [Execution.resume, Execution.proceed, hpc] using .intentRead job hpc hget
  | settled settling report n reply s' hpc hcall =>
    cases fault with
    | none =>
      cases hfinish : (s.store.finish cfg.store clock e.job.id e.attempt s.workerId report).1 with
      | ok job =>
        simp only [faulted, onStore, hfinish, replyOf, Prod.mk.injEq] at hcall
        obtain ⟨rfl, rfl⟩ := hcall
        exact .settled settling report n job hpc rfl hfinish
      | error x =>
        simp only [faulted, onStore, hfinish, replyOf, Prod.mk.injEq] at hcall
        obtain ⟨rfl, rfl⟩ := hcall
        exact .failed settling report n x hpc rfl hfinish
    | before x =>
      cases hcall
      exact .unsettled settling report n x hpc (Or.inl rfl)
    | after x =>
      cases hcall
      exact .unheard settling report n x hpc rfl
    | torn done cleaned x =>
      cases hcall
      exact .unsettled settling report n x hpc (Or.inr ⟨done, cleaned, rfl⟩)
  | marked c reply hpc hreply =>
    rcases hreply with ⟨x, rfl⟩ | rfl
    · simpa [Execution.resume, Execution.fail, hpc] using .unmarked c x hpc
    · simpa [Execution.resume, Execution.proceed, hpc] using .marked c hpc
  | passed hpc =>
    rcases hpc with hpc | hpc | hpc
    · simpa [Execution.resume, Execution.proceed, hpc] using .created hpc
    · simpa [Execution.resume, Execution.proceed, hpc] using .disposed hpc
    · simpa [Execution.resume, Execution.proceed, hpc] using .shutDown hpc
  | registered reply hpc hfree hreply =>
    rcases hreply with ⟨x, rfl⟩ | rfl
    · simpa [Execution.resume, Execution.fail, hpc] using .unregistered x hpc hfree
    · simpa [Execution.resume, Execution.proceed, hpc] using .registered hpc hfree
  | started hpc hstart => simpa [Execution.resume, Execution.proceed, hpc] using .started hpc hstart
  | published hpc hfree => simpa [Execution.resume, Execution.proceed, hpc] using .published hpc hfree
  | readSignal c hpc =>
    cases hsignal : s.stop || c with
    | true => simpa [Execution.resume, Execution.proceed, hpc] using .signalled c hpc hsignal
    | false =>
      obtain ⟨hstop, rfl⟩ : s.stop = false ∧ c = false := by simpa using hsignal
      simpa [Execution.resume, Execution.proceed, hpc] using .unsignalled hpc hstop
  | cancelled c session session' hpc hfault hsession hcancel =>
    simpa [Execution.resume, Execution.proceed, hpc] using .cancelled c session session' hpc hfault hsession hcancel
  | waited session result hpc hsession hresult =>
    simpa [Execution.resume, Execution.proceed, hpc] using .waited session result hpc hsession hresult
  | wrote result hpc =>
    cases hwrite : (s.output.writeJob cfg.output fault e.job.id result.stdoutBytes result.stderrBytes).1 with
    | ok paths => simpa [Execution.resume, Execution.proceed, hpc] using .wrote result paths.1 paths.2 hpc hwrite
    | error x => simpa [Execution.resume, Execution.fail, hpc] using .unwritten result x hpc hwrite
  | undiscarded x hpc hpaths => simpa [Execution.resume, Execution.proceed, hpc] using .nothingToDiscard x hpc hpaths
  | discarded x stdoutPath stderrPath hpc hpaths =>
    refine .discarded x stdoutPath stderrPath _ hpc hpaths ?_
    cases (s.output.deleteJob cfg.output fault e.job.id (some stdoutPath) (some stderrPath)).1 with
    | ok u => exact Or.inl (by simp [Execution.resume, Execution.proceed, Except.map, hpc])
    | error y =>
      simp only [Except.map, Execution.resume, Execution.fail, hpc]
      split
      · exact Or.inl rfl
      · exact Or.inr rfl
  | popped hpc =>
    rcases hpc with hpc | hpc
    · simpa [Execution.resume, Execution.proceed, hpc] using .popped hpc
    · simpa [Execution.resume, Execution.proceed, hpc] using .ended hpc

/-- An execution at its end makes no call. -/
theorem Advances.not_done {clock : Reading} {fault : Fault} (h : Advances cfg clock fault e s e' s') : e.pc ≠ .done := by
  intro hdone
  cases h with
  | raised x hpc =>
    rw [hdone] at hpc
    cases hpc
  | stopped hpc | unstopped hpc | asked _ hpc | unasked hpc | created hpc | registered hpc | unregistered _ hpc | stopRead hpc
  | started hpc | published hpc | rechecked _ hpc | marked _ hpc | unmarked _ _ hpc | signalled _ hpc | unsignalled hpc
  | cancelled _ _ _ hpc | waited _ _ hpc | wrote _ _ _ hpc | unwritten _ _ hpc | settled _ _ _ _ hpc | failed _ _ _ _ hpc
  | unsettled _ _ _ _ hpc | unheard _ _ _ _ hpc | disposed hpc | nothingToDiscard _ hpc | discarded _ _ _ _ hpc
  | intentRead _ hpc | intentUnread hpc | popped hpc | shutDown hpc | ended hpc => cases hdone.symm.trans hpc

/-! ## Every step -/

/-- An execution replaced by another one. -/
def replace (e e' : Execution) (s : Service) : Service := s.update e.attempt fun _ => e'

/-- The executions once one of them was replaced. -/
theorem mem_replace (he : e ∈ s.executions) {x : Execution} :
    x ∈ (s.replace e e').executions ↔ (x ∈ s.executions ∧ x.attempt ≠ e.attempt) ∨ x = e' := by
  rw [replace, mem_update]
  constructor
  · rintro ⟨y, hy, rfl⟩
    split
    · exact Or.inr rfl
    · exact Or.inl ⟨hy, ‹_›⟩
  · rintro (⟨hx, hne⟩ | rfl)
    · exact ⟨x, hx, if_neg hne⟩
    · exact ⟨e, he, if_pos rfl⟩

/-- An execution changed in place is replaced, since its attempt is its own. -/
theorem Sound.update_eq_replace (hs : Sound s) (he : e ∈ s.executions) (hexecutions : s'.executions = s.executions)
    (f : Execution → Execution) : s'.update e.attempt f = s'.replace e (f e) := by
  unfold replace update Table.update
  rw [hexecutions]
  congr 1
  refine List.map_congr_left fun x hx => ?_
  by_cases hattempt : x.attempt = e.attempt
  · rw [Table.eq_of_key Execution.attempt hs.attempts hx he hattempt]
  · simp [hattempt]

/-- A change that leaves the executions it meets is none. -/
theorem update_eq_self {attempt : Uuid} {f : Execution → Execution} (h : ∀ e ∈ s.executions, e.attempt = attempt → f e = e) :
    s.update attempt f = s := by
  have hexecutions : Table.update (fun e : Execution => e.attempt = attempt) f s.executions = s.executions := by
    unfold Table.update
    conv_rhs => rw [← List.map_id s.executions]
    refine List.map_congr_left fun e he => ?_
    by_cases hattempt : e.attempt = attempt
    · simp [hattempt, h e he hattempt]
    · simp [hattempt]
  unfold update
  rw [hexecutions]

/-- A step of the service: the service after it, or the same one where the input does not fit. -/
inductive ServiceStep (cfg : ServiceConfig) (s : Service) : ServiceInput → Service → Prop where
  | skipped (input : ServiceInput) : ServiceStep cfg s input s
  | called (call : StoreCall) (clock : Reading) (hup : s.up = true) (hshared : isShared call = true) :
      ServiceStep cfg s (.store call clock) { s with store := s.store.step cfg.store (call, clock) }
  | claimed (leaseSeconds : Int) (clock : Reading) (row : JobRow) (job : JobRecord) (hstarted : s.started = true)
      (hrow : row ∈ s.store.jobs) (hphase : row.phase = .queued) (hid : job.id = row.id)
      (hjobs : (s.store.claimNext cfg.store clock s.workerId leaseSeconds).2.jobs =
        Store.replaceJob row.id (Store.assignedRow clock s.store.drawn s.workerId leaseSeconds row) s.store.jobs) :
      ServiceStep cfg s (.claim leaseSeconds clock)
        { s with
          store := (s.store.claimNext cfg.store clock s.workerId leaseSeconds).2
          executions := s.executions ++ [{ job, attempt := s.store.drawn }] }
  | advanced (e e' : Execution) (s' : Service) (clock : Reading) (fault : Fault) (he : e ∈ s.executions)
      (hadvances : Advances cfg clock fault e s e' s') : ServiceStep cfg s (.execute e.attempt clock fault) (s'.replace e e')
  | calledBack (e : Execution) (c : Callback) (rest : List Callback) (he : e ∈ s.executions) (hcallbacks : e.callbacks = c :: rest)
      (hloop : e.pc.loopRuns = true) :
      ServiceStep cfg s (.callback e.attempt) (s.replace e ({ e with callbacks := rest }.callback c))
  | monitored (e : Execution) (event : MonitorEvent) (he : e ∈ s.executions) (hloop : e.pc.loopRuns = true) :
      ServiceStep cfg s (.monitor e.attempt event) (s.replace e { e with session := e.session.map (·.monitor event) })
  | requested (jobId : Uuid) (tenantId : Option String) (clock : Reading) (job : JobRecord) (hfree : s.locked = false)
      (hrequest : (s.store.requestCancel cfg.store clock jobId tenantId).1 = .ok job) (hcancelled : job.isCancelled = true) :
      ServiceStep cfg s (.cancel jobId tenantId clock)
        { s with
          store := (s.store.requestCancel cfg.store clock jobId tenantId).2
          signals := s.signals ++ ((s.active.lookup jobId).map fun target => ⟨target, .request⟩).toList }
  | unrequested (jobId : Uuid) (tenantId : Option String) (clock : Reading) (hfree : s.locked = false)
      (hrequest : ∀ job, (s.store.requestCancel cfg.store clock jobId tenantId).1 = .ok job → job.isCancelled = false) :
      ServiceStep cfg s (.cancel jobId tenantId clock)
        { s with store := (s.store.requestCancel cfg.store clock jobId tenantId).2 }
  | sent (index : Nat) (signal : Signal) (e : Execution) (hsignal : s.signals[index]? = some signal) (he : e ∈ s.executions)
      (htarget : signal.target = e.attempt) :
      ServiceStep cfg s (.signal index)
        ({ s with signals := s.signals.eraseIdx index }.replace e
          { e with callbacks := e.callbacks ++
              [if e.published then Callback.cancelSession signal.origin else Callback.cancelStart signal.origin] })
  | dropped (index : Nat) (signal : Signal) (hsignal : s.signals[index]? = some signal)
      (htarget : ∀ e ∈ s.executions, e.attempt ≠ signal.target) :
      ServiceStep cfg s (.signal index) { s with signals := s.signals.eraseIdx index }
  | closed (hstarted : s.started = true) : ServiceStep cfg s .close { s with stop := true }
  | snapshot (hstop : s.stop = true) (hfree : s.locked = false) : ServiceStep cfg s .snapshot s.snapshot
  | finalizing (hup : s.up = true) :
      ServiceStep cfg s .finalize
        { s with pruners := s.pruners ++ [{ rows := Table.selectBy (·.createdAt) (fun _ => true) s.store.deletions }] }
  | pruned (index : Nat) (fault : Fault) (pruner : Pruner) (hpruner : s.pruners[index]? = some pruner) :
      ServiceStep cfg s (.prune index fault)
        { (s.pruneStep cfg fault pruner).2 with pruners := s.pruners.set index (s.pruneStep cfg fault pruner).1 }
  | crashed (tear : Tear) : ServiceStep cfg s (.crash tear) (s.crash cfg tear)
  | opened (workerId : String) (torn : Option Nat) (hdown : s.up = false) :
      ServiceStep cfg s (.open workerId torn) (s.openStores cfg workerId torn)
  | started (clock : Reading) (hup : s.up = true) (started : Bool) :
      ServiceStep cfg s (.start clock) { s with store := (s.store.recoverInterrupted cfg.store clock).2, started }

/-- A step of the pruning changes the store and the output, and no other part of the service. -/
theorem pruneStep_touches (cfg : ServiceConfig) (fault : Fault) (pruner : Pruner) (s : Service) :
    ∃ store output, (s.pruneStep cfg fault pruner).2 = { s with store, output } := by
  unfold pruneStep
  split
  · exact ⟨_, _, rfl⟩
  · split
    · exact ⟨_, _, rfl⟩
    · dsimp only
      split <;> exact ⟨_, _, rfl⟩

/-- A change of one execution is a step if it is one where it changes the execution. -/
theorem Sound.updated (hs : Sound s) {input : ServiceInput} {attempt : Uuid} {f : Execution → Execution}
    (h : ∀ e ∈ s.executions, e.attempt = attempt → f e = e ∨ ServiceStep cfg s input (s.replace e (f e))) :
    ServiceStep cfg s input (s.update attempt f) := by
  by_cases hfixed : ∀ e ∈ s.executions, e.attempt = attempt → f e = e
  · rw [update_eq_self hfixed]
    exact .skipped input
  · push Not at hfixed
    obtain ⟨e, he, hattempt, hne⟩ := hfixed
    have hreplaced := (h e he hattempt).resolve_left hne
    subst hattempt
    rwa [hs.update_eq_replace he rfl]

/-- A claim takes the job that is due, or nothing. -/
theorem Sound.serviceStep_claim (cfg : ServiceConfig) (hs : Sound s) (leaseSeconds : Int) (clock : Reading) :
    ServiceStep cfg s (.claim leaseSeconds clock) (Service.step cfg s (.claim leaseSeconds clock)) := by
  unfold Service.step
  dsimp only
  split
  · rename_i hstarted
    rcases claim_cases cfg s leaseSeconds clock hs.wellFormed with h | ⟨row, hrow, job, hphase, hid, h, -, hjobs, -⟩
    · rw [h]
      exact .skipped _
    · rw [h]
      exact .claimed leaseSeconds clock row job hstarted hrow hphase hid hjobs
  · exact .skipped _

/-- The execution of an attempt makes its next call, if it can. -/
theorem Sound.serviceStep_execute (cfg : ServiceConfig) (hs : Sound s) (attempt : Uuid) (clock : Reading) (fault : Fault) :
    ServiceStep cfg s (.execute attempt clock fault) (Service.step cfg s (.execute attempt clock fault)) := by
  unfold Service.step
  dsimp only
  split
  · rename_i e hfound
    obtain ⟨he, rfl⟩ := mem_of_find? hfound
    unfold execute
    split
    · rename_i reply s' hperform
      have hcall := performs_of_perform hperform
      have hadvances := hcall.advances
      obtain ⟨_, _, _, _, rfl⟩ := hcall.touches
      refine hs.update_eq_replace he ?_ _ ▸ .advanced e _ _ clock fault he hadvances
      rfl
    · exact .skipped _
  · exact .skipped _

/-- A request to cancel leaves a signal for a job that is active, unless it is refused. -/
theorem serviceStep_cancel (cfg : ServiceConfig) (s : Service) (jobId : Uuid) (tenantId : Option String) (clock : Reading) :
    ServiceStep cfg s (.cancel jobId tenantId clock) (Service.step cfg s (.cancel jobId tenantId clock)) := by
  unfold Service.step
  dsimp only
  split
  · rename_i hfree
    have hfree : s.locked = false := by simpa using (Bool.and_eq_true_iff.1 hfree).2
    unfold cancel
    dsimp only
    split
    · rename_i job hrequest
      split
      · rename_i hcancelled
        have hrequested := ServiceStep.requested jobId tenantId clock job hfree hrequest hcancelled
        split
        · rename_i hactive
          simpa [hactive] using hrequested
        · rename_i hactive
          simpa [hactive] using hrequested
      · rename_i hcancelled
        refine .unrequested jobId tenantId clock hfree fun job' hrequest' => ?_
        cases hrequest.symm.trans hrequest'
        simpa using hcancelled
    · rename_i x hrequest
      exact .unrequested jobId tenantId clock hfree fun job hrequest' => nomatch hrequest.symm.trans hrequest'
  · exact .skipped _

/-- A signal reaches the execution that it is for, if that one is still there. -/
theorem Sound.serviceStep_signal (cfg : ServiceConfig) (hs : Sound s) (index : Nat) :
    ServiceStep cfg s (.signal index) (Service.step cfg s (.signal index)) := by
  unfold Service.step
  dsimp only
  split
  · rename_i signal hsignal
    unfold send
    by_cases hfound : ∃ e ∈ s.executions, e.attempt = signal.target
    · obtain ⟨e, he, htarget⟩ := hfound
      rw [← htarget, hs.update_eq_replace he]
      · exact .sent index signal e hsignal he htarget.symm
      · rfl
    · rw [update_eq_self (s := { s with signals := s.signals.eraseIdx index }) fun e he htarget => absurd ⟨e, he, htarget⟩ hfound]
      exact .dropped index signal hsignal fun e he htarget => hfound ⟨e, he, htarget⟩
  · exact .skipped _

/-- A pruner takes its next step. -/
theorem serviceStep_prune (cfg : ServiceConfig) (s : Service) (index : Nat) (fault : Fault) :
    ServiceStep cfg s (.prune index fault) (Service.step cfg s (.prune index fault)) := by
  unfold Service.step
  dsimp only
  split
  · rename_i pruner hpruner
    obtain ⟨store, output, htouches⟩ := pruneStep_touches cfg fault pruner s
    have hpruned : ServiceStep cfg s _ _ := .pruned index fault pruner hpruner
    rw [htouches] at hpruned ⊢
    exact hpruned
  · exact .skipped _

/-- Every step is one of these. -/
theorem Sound.serviceStep (cfg : ServiceConfig) (hs : Sound s) (input : ServiceInput) :
    ServiceStep cfg s input (Service.step cfg s input) := by
  cases input with
  | store call clock =>
    unfold Service.step
    dsimp only
    split
    · rename_i hshared
      rw [Bool.and_eq_true] at hshared
      exact .called call clock hshared.1 hshared.2
    · exact .skipped _
  | claim leaseSeconds clock => exact hs.serviceStep_claim cfg leaseSeconds clock
  | execute attempt clock fault => exact hs.serviceStep_execute cfg attempt clock fault
  | callback attempt =>
    refine hs.updated fun e he hattempt => ?_
    subst hattempt
    split
    · rename_i c rest hcallbacks
      split
      · exact Or.inr (.calledBack e c rest he hcallbacks ‹_›)
      · exact Or.inl rfl
    · exact Or.inl rfl
  | monitor attempt event =>
    refine hs.updated fun e he hattempt => ?_
    subst hattempt
    split
    · exact Or.inr (.monitored e event he ‹_›)
    · exact Or.inl rfl
  | cancel jobId tenantId clock => exact serviceStep_cancel cfg s jobId tenantId clock
  | signal index => exact hs.serviceStep_signal cfg index
  | close =>
    unfold Service.step
    dsimp only
    split
    · exact .closed ‹_›
    · exact .skipped _
  | snapshot =>
    unfold Service.step
    dsimp only
    split
    · rename_i h
      simp only [Bool.and_eq_true, Bool.not_eq_true'] at h
      exact .snapshot h.1.1 h.2
    · exact .skipped _
  | finalize =>
    unfold Service.step
    dsimp only
    split
    · exact .finalizing ‹_›
    · exact .skipped _
  | prune index fault => exact serviceStep_prune cfg s index fault
  | crash tear => exact .crashed tear
  | «open» workerId torn =>
    unfold Service.step
    dsimp only
    split
    · exact .skipped _
    · rename_i hdown
      exact .opened workerId torn (by simpa using hdown)
  | start clock =>
    unfold Service.step
    dsimp only
    split
    · rename_i h
      exact .started clock (Bool.and_eq_true_iff.1 h).1 _
    · exact .skipped _

end Service

end SharkRail
