import SharkRail.Runtime.Admission
import SharkRail.Theorems.Lifecycle

/-!
# Atomic admission

The two counters of the manager count the calls of `start` by where they are, and a place that a call reserves goes over to the session
it registers (`Balanced`). So the limit holds, and a call that raises leaves nothing behind (`admission_atomic`); its handle is disposed
of by the cleanup, which may outlive the call.
-/

namespace SharkRail

namespace Runtime

namespace SessionTasks

variable {s : SessionTasks}

/-! ## What the tasks leave to the start and to the monitor -/

/-- A task that neither starts nor monitors the session. -/
structure Apart (s s' : SessionTasks) : Prop where
  start : s'.start = s.start
  monitor : s'.monitor = s.monitor

/-- A legal transition is neither of the start nor of the monitor. -/
theorem transition_apart {target : SessionState} {s' : SessionTasks} (h : s.transition target = some s') : Apart s s' := by
  unfold transition at h
  split at h
  · cases h
    exact ⟨rfl, rfl⟩
  · cases h

/-- To report the killed tree is neither of the start nor of the monitor. -/
theorem reportKillTree_apart (s : SessionTasks) : Apart s s.reportKillTree := by
  unfold reportKillTree
  split <;> exact ⟨rfl, rfl⟩

/-- The end of an escalation is neither of the start nor of the monitor. -/
theorem endCancellation_apart (s : SessionTasks) (failed : Bool) (owner : Option Nat) : Apart s (s.endCancellation failed owner) := by
  cases owner <;> exact ⟨rfl, rfl⟩

/-- The begin of an escalation is neither of the start nor of the monitor. -/
theorem beginCancellation_apart (s : SessionTasks) (owner : Option Nat) : Apart s (s.beginCancellation owner) := by
  unfold beginCancellation
  split
  · exact endCancellation_apart s false owner
  · split
    · exact endCancellation_apart s true owner
    · split
      · exact endCancellation_apart s false owner
      · dsimp only
        split
        · split
          · rename_i hmoved
            have hapart := transition_apart hmoved
            exact ⟨hapart.start, hapart.monitor⟩
          · have hapart := endCancellation_apart s.refused true owner
            exact ⟨hapart.start, hapart.monitor⟩
        · exact ⟨rfl, rfl⟩

/-- The task that holds the lock leaves the start and the monitor where they are. -/
theorem stepOperations_apart (s : SessionTasks) (input : SessionInput) : Apart s (s.stepOperations input) := by
  have hrefl : Apart s s := ⟨rfl, rfl⟩
  cases input with
  | cancelFails abandons =>
    unfold stepOperations
    dsimp only
    split
    · rename_i last _ _
      cases abandons with
      | true =>
        have hapart := reportKillTree_apart { s with abandoned := s.abandoned ++ [last] }
        exact ⟨hapart.start, hapart.monitor⟩
      | false =>
        have hapart := reportKillTree_apart s
        exact ⟨hapart.start, hapart.monitor⟩
    · exact hrefl
  | cancellationBegins =>
    unfold stepOperations
    dsimp only
    split
    · exact beginCancellation_apart s _
    · exact hrefl
  | policyRefused =>
    unfold stepOperations
    dsimp only
    split
    · exact endCancellation_apart s _ _
    · exact hrefl
  | cancellationEnds =>
    unfold stepOperations
    dsimp only
    split
    · exact endCancellation_apart s _ _
    · exact hrefl
  | operate kind =>
    unfold stepOperations
    dsimp only
    split
    · cases kind <;> exact ⟨rfl, rfl⟩
    · exact hrefl
  | escalates step =>
    unfold stepOperations
    dsimp only
    split
    · split <;> exact ⟨rfl, rfl⟩
    · exact hrefl
  | abandonedEscalates i step =>
    unfold stepOperations
    dsimp only
    split
    · split <;> exact ⟨rfl, rfl⟩
    · exact hrefl
  | cancel | operationEnds | cancelReturns | cleanedUp =>
    unfold stepOperations
    dsimp only
    split <;> exact ⟨rfl, rfl⟩
  | _ => exact ⟨rfl, rfl⟩

/-- The readers leave the start and the monitor where they are. -/
theorem stepReaders_apart (s : SessionTasks) (input : SessionInput) : Apart s (s.stepReaders input) := by
  have hk := stepReaders_keeps s input
  exact ⟨hk.start, hk.monitor⟩

/-- The disposals leave the start and the monitor where they are. -/
theorem stepDisposals_apart (s : SessionTasks) (input : SessionInput) : Apart s (s.stepDisposals input) := by
  have hrefl : Apart s s := ⟨rfl, rfl⟩
  cases input with
  | disposeLocks i =>
    unfold stepDisposals
    dsimp only
    split
    · split <;> exact ⟨rfl, rfl⟩
    · exact hrefl
  | waitEnds i =>
    unfold stepDisposals
    dsimp only
    split <;> exact ⟨rfl, rfl⟩
  | disposalEnds i outcome =>
    unfold stepDisposals
    dsimp only
    split
    · cases outcome with
      | returned =>
        unfold SessionTasks.disposed
        dsimp only
        split
        · exact ⟨rfl, rfl⟩
        · split <;> exact ⟨rfl, rfl⟩
      | timedOut => exact ⟨rfl, rfl⟩
      | raised => exact ⟨rfl, rfl⟩
    · exact hrefl
  | prune =>
    unfold stepDisposals
    dsimp only
    split
    · split
      · rename_i hmoved
        have hapart := transition_apart hmoved
        exact ⟨hapart.start, hapart.monitor⟩
      · exact ⟨rfl, rfl⟩
    · exact hrefl
  | _ => exact ⟨rfl, rfl⟩

/-- A monitor that is at its end stays there. -/
theorem stepMonitor_terminal (hterminal : s.monitor.terminal = true) (input : SessionInput) :
    (s.stepMonitor input).monitor.terminal = true := by
  cases hm : s.monitor with
  | reporting | done => cases input <;> simp [stepMonitor, hm, MonitorPc.terminal, completeSession, emit]
  | _ => rw [hm] at hterminal; cases hterminal

/-- The monitor leaves the start where it is. -/
theorem stepMonitor_start (h : Coherent s) (input : SessionInput) : (s.stepMonitor input).start = s.start := by
  rcases stepMonitor_spec h input with heq | hm
  · rw [heq]
  · obtain ⟨state, completedAt, events, cancellationSteps, monitor, heq⟩ := hm.same
    rw [heq]

/-- Another task than the start leaves the start where it is, and a monitor that has moved the session to its end. -/
theorem step_of_not_ofStart (h : Coherent s) {input : SessionInput} (hinput : input.ofStart = false) :
    (s.step input).start = s.start ∧ (s.monitor.terminal = true → (s.step input).monitor.terminal = true) := by
  have hof : ∀ {s'}, Apart s s' → s'.start = s.start ∧ (s.monitor.terminal = true → s'.monitor.terminal = true) := fun hapart =>
    ⟨hapart.start, fun hterminal => by rw [hapart.monitor]; exact hterminal⟩
  have hmonitor : (s.stepMonitor input).start = s.start ∧ (s.monitor.terminal = true → (s.stepMonitor input).monitor.terminal = true) :=
    ⟨stepMonitor_start h input, fun hterminal => stepMonitor_terminal hterminal input⟩
  have hreaders := hof (stepReaders_apart s input)
  have hoperations := hof (stepOperations_apart s input)
  have hdisposals := hof (stepDisposals_apart s input)
  cases input with
  | accept | launch | degraded | startEnds _ | startFails => cases hinput
  | processExits | deadline | monitorFails | drained | drainTimesOut | drainKilled | backendDisposed _ | collected _
    | limitReported | completes => exact hmonitor
  | reads _ _ | readerEnds _ => exact hreaders
  | cancel | operate _ | operationEnds | cancellationBegins | policyRefused | escalates _ | cancelReturns | cancelFails _
    | cleanedUp | cancellationEnds | abandonedEscalates _ _ | abandonedEnds _ => exact hoperations
  | dispose | disposeLocks _ | waitEnds _ | disposalEnds _ _ | prune => exact hdisposals

/-- A start that has registered its session does not go back. -/
theorem step_not_admitted {input : SessionInput} (hinput : input.ofStart = true) (hstart : s.start ≠ .admitted) :
    (s.step input).start ≠ .admitted := by
  cases input with
  | accept =>
    unfold SessionTasks.step stepStart
    dsimp only
    rw [if_neg hstart]
    exact hstart
  | launch =>
    unfold SessionTasks.step stepStart launch
    dsimp only
    split
    · split
      · split <;> nofun
      · nofun
    · exact hstart
  | degraded =>
    unfold SessionTasks.step stepStart
    dsimp only
    split <;> exact hstart
  | startEnds readers =>
    unfold SessionTasks.step stepStart
    dsimp only
    split
    · nofun
    · exact hstart
  | startFails =>
    unfold SessionTasks.step stepStart
    dsimp only
    split
    · nofun
    · nofun
    · exact hstart
  | _ => cases hinput

/-- A session counts for the admission while its start has registered it and its monitor has not moved it to its end. -/
theorem Coherent.counts_iff (h : Coherent s) :
    (s.registered && s.state.counts) = true ↔ s.start.registers = true ∧ s.monitor.terminal = false := by
  have hcounts : s.state.counts = true ↔ s.monitor.terminal = false := by
    constructor
    · intro hcounts
      by_contra hterminal
      rcases h.state_of_terminal (by simpa using hterminal) with hs | hs | hs <;> rw [hs] at hcounts <;> cases hcounts
    · intro hterminal
      by_contra hcounts
      have hstate : s.state = .completed ∨ s.state = .failed ∨ s.state = .disposed := by
        cases hs : s.state <;> rw [hs] at hcounts <;> simp [SessionState.counts] at hcounts ⊢
      rw [h.terminal hstate] at hterminal
      cases hterminal
  rw [Bool.and_eq_true, hcounts, h.registered, and_assoc]
  refine and_congr_right fun _ => and_iff_right_of_imp fun hterminal hdisposed => ?_
  rw [h.terminal (Or.inr (Or.inr hdisposed))] at hterminal
  cases hterminal

end SessionTasks

/-! ## Calls of `start` -/

/-- The call is past its admission, has not registered its session and has not failed. -/
def AdmissionPc.reserves : AdmissionPc → Bool
  | .starting | .settling | .releasing => true
  | _ => false

/-- The call has registered its session and has not failed. -/
def AdmissionPc.registers : AdmissionPc → Bool
  | .emitting | .returned => true
  | _ => false

/-- The call has failed. -/
def AdmissionPc.fails : AdmissionPc → Bool
  | .releasing | .cleaning | .raised => true
  | _ => false

/-- Where the start of the session of a call is. -/
def AdmissionPc.starts : AdmissionPc → List (Option StartPc)
  | .starting | .settling | .releasing => [none]
  | .emitting => [some .accepting, some .launching]
  | .returned => [some .done]
  | .cleaning | .raised => [none, some .failed]

/-- The calls of a cleanup, by where it is. -/
def CleanupPc.calls : Option CleanupPc → List HandleCall
  | none | some .scheduled | some .dropped => []
  | some .killing | some .leaving => [.killTree]
  | some .disposing | some .ended => [.killTree, .dispose]

/-- The cleanup has not come to the disposal. -/
def CleanupPc.owes : CleanupPc → Bool
  | .scheduled | .dropped | .killing | .leaving => true
  | .disposing | .ended => false

/-- What a call has done fits where it is. -/
structure Start.Fits (start : Start) : Prop where
  coherent : ∀ s ∈ start.session, s.Coherent
  session : start.session.map (fun s => s.start) ∈ start.pc.starts
  cleanup : start.cleanup = none ∨ start.pc.fails = true
  handle : start.handle = true → start.pc.registers = true ∨ start.cleanup ≠ none
  calls : start.calls = CleanupPc.calls start.cleanup
  owes : start.pc = .raised → ∀ cleanup ∈ start.cleanup, cleanup.owes = true →
    cleanup ≠ .scheduled ∧ start.cleanupTimedOut = true

namespace Start

variable {start : Start}

/-- The session of a call is registered as long as the call has not failed and the session is not disposed of. -/
theorem Fits.registered_iff (h : start.Fits) :
    start.registered = true ↔ start.pc.registers = true ∧ ∀ s ∈ start.session, s.state ≠ .disposed := by
  have hsession := h.session
  unfold Start.registered
  cases hs : start.session with
  | none =>
    rw [hs] at hsession
    cases hpc : start.pc <;> rw [hpc] at hsession <;> simp [AdmissionPc.starts, AdmissionPc.registers] at hsession ⊢
  | some s =>
    rw [hs] at hsession
    rw [Option.any_some, (h.coherent s hs).registered]
    have hregisters : s.start.registers = true ↔ start.pc.registers = true := by
      cases hpc : start.pc <;> rw [hpc] at hsession <;>
        simp [AdmissionPc.starts, AdmissionPc.registers] at hsession ⊢
      · rcases hsession with hp | hp <;> rw [hp] <;> rfl
      · rw [hsession]; rfl
      · rw [hsession]; rfl
      · rw [hsession]; rfl
    rw [hregisters]
    simp

/-- A session counts while its start emits. -/
theorem Fits.counts_of_emitting (h : start.Fits) (hpc : start.pc = .emitting) : start.counts = true := by
  have hsession := h.session
  rw [hpc] at hsession
  unfold Start.counts
  cases hs : start.session with
  | none => rw [hs] at hsession; simp [AdmissionPc.starts] at hsession
  | some s =>
    have hcoherent := h.coherent s hs
    rw [hs] at hsession
    have hstart : s.start = .accepting ∨ s.start = .launching := by simpa [AdmissionPc.starts] using hsession
    rw [Option.any_some, hcoherent.counts_iff]
    have hlive : s.start ≠ .done := by rcases hstart with hp | hp <;> rw [hp] <;> nofun
    rw [(hcoherent.state_of_start hlive).1]
    refine ⟨?_, rfl⟩
    rcases hstart with hp | hp <;> rw [hp] <;> rfl

/-- The session of a call may go on while what it did fits. -/
theorem Fits.withSession (h : start.Fits) {session : Option SessionTasks} (hcoherent : ∀ s ∈ session, s.Coherent)
    (hsession : session.map (fun s => s.start) ∈ start.pc.starts) : Fits { start with session } :=
  ⟨hcoherent, hsession, h.cleanup, h.handle, h.calls, h.owes⟩

/-- Another task than the start goes on. -/
theorem Fits.stepSession (h : start.Fits) {input : SessionInput} (hinput : input.ofStart = false) :
    Fits { start with session := start.session.map fun s => s.step input } ∧
      (Start.counts { start with session := start.session.map fun s => s.step input } = true → start.counts = true) := by
  have hstep : ∀ s ∈ start.session, (s.step input).Coherent ∧ (s.step input).start = s.start ∧
      (s.monitor.terminal = true → (s.step input).monitor.terminal = true) := fun s hs =>
    ⟨((h.coherent s hs).step input).1, SessionTasks.step_of_not_ofStart (h.coherent s hs) hinput⟩
  constructor
  · refine h.withSession (fun s' hs' => ?_) ?_
    · obtain ⟨s, hs, rfl⟩ := Option.map_eq_some_iff.1 hs'
      exact (hstep s hs).1
    · have hstarts : (start.session.map fun s => s.step input).map (fun s => s.start) = start.session.map fun s => s.start := by
        rw [Option.map_map]
        exact Option.map_congr fun s hs => (hstep s hs).2.1
      rw [hstarts]
      exact h.session
  · intro hcounts
    obtain ⟨s', hs', hcounts'⟩ := (Option.any_eq_true _ _).1 hcounts
    obtain ⟨s, hs, rfl⟩ := Option.map_eq_some_iff.1 hs'
    obtain ⟨hcoherent, hstart, hterminal⟩ := hstep s hs
    obtain ⟨hregisters, hnot⟩ := hcoherent.counts_iff.1 hcounts'
    refine (Option.any_eq_true _ _).2 ⟨s, hs, (h.coherent s hs).counts_iff.2 ⟨hstart ▸ hregisters, ?_⟩⟩
    by_contra hended
    rw [hterminal (by simpa using hended)] at hnot
    cases hnot

/-- A call without a session, or with one that it takes back, gives its handle to the cleanup. -/
theorem Fits.cleanUp (h : start.Fits) (hbefore : start.pc.fails = false) (pc : AdmissionPc) (hpc : pc.fails = true) (handle : Bool)
    {session : Option SessionTasks} (hcoherent : ∀ s ∈ session, s.Coherent)
    (hsession : session.map (fun s => s.start) ∈ pc.starts) (hnot : pc ≠ .raised) :
    Fits (Start.cleanUp pc { start with handle, session }) := by
  have hcleanup : start.cleanup = none := by
    refine h.cleanup.resolve_right ?_
    rw [hbefore]
    nofun
  have hcalls := h.calls
  rw [hcleanup] at hcalls
  exact ⟨hcoherent, hsession, Or.inr hpc, fun _ => Or.inr nofun, hcalls, fun hraised => absurd hraised hnot⟩

/-- The cleanup goes on, past its first step. -/
theorem Fits.cleansUp (h : start.Fits) {old new : CleanupPc} (hold : start.cleanup = some old) {calls : List HandleCall}
    (hcalls : calls = CleanupPc.calls (some new)) (hnew : new ≠ .scheduled) (howes : new.owes = true → old.owes = true) :
    Fits { start with cleanup := some new, calls } := by
  refine ⟨h.coherent, h.session, Or.inr (h.cleanup.resolve_left ?_), fun _ => Or.inr nofun, hcalls, fun hraised pc hpc hopen => ?_⟩
  · rw [hold]
    nofun
  · cases hpc
    exact ⟨hnew, (h.owes hraised old hold (howes hopen)).2⟩

/-- The settle gives up on the cleanup of a call. -/
theorem Fits.giveUp (h : start.Fits) (hfails : start.pc.fails = true) (hpc : start.pc ≠ .raised) : Fits start.giveUp := by
  refine ⟨h.coherent, h.session, Or.inr hfails, fun hhandle => (h.handle hhandle).imp_right fun hsome => ?_, ?_,
    fun hraised => absurd hraised hpc⟩
  · unfold Start.giveUp
    dsimp only
    split
    · nofun
    · exact hsome
  · have hcalls := h.calls
    unfold Start.giveUp
    dsimp only
    split
    · rename_i hscheduled
      rw [hscheduled] at hcalls
      exact hcalls
    · exact hcalls

/-- A cleanup that is given up is scheduled no longer. -/
theorem giveUp_ne_scheduled (start : Start) : start.giveUp.cleanup ≠ some .scheduled := by
  unfold Start.giveUp
  dsimp only
  split
  · nofun
  · assumption

/-- A call raises, with its cleanup at the disposal or given up on. -/
theorem Fits.raises (h : start.Fits) (hbefore : start.pc.registers = false)
    (howes : ∀ cleanup ∈ start.cleanup, cleanup.owes = true → cleanup ≠ .scheduled ∧ start.cleanupTimedOut = true) :
    Fits { start with pc := .raised } := by
  refine ⟨h.coherent, ?_, Or.inr rfl, fun hhandle => ?_, h.calls, fun _ => howes⟩
  · have hsession := h.session
    cases hpc : start.pc <;> rw [hpc] at hsession hbefore <;> simp [AdmissionPc.starts, AdmissionPc.registers] at hsession hbefore ⊢
    · exact Or.inl hsession
    · exact Or.inl hsession
    · exact Or.inl hsession
    · exact hsession
    · exact hsession
  · refine Or.inr ((h.handle hhandle).resolve_left ?_)
    rw [hbefore]
    nofun

end Start

/-! ## The manager -/

/-- The count changes by the item that is replaced and the one in its place. -/
theorem countP_set {α : Type} {p : α → Bool} {l : List α} {k : Nat} {a b : α} (h : l[k]? = some a) :
    (l.set k b).countP p + (p a).toNat = l.countP p + (p b).toNat := by
  obtain ⟨hk, rfl⟩ := List.getElem?_eq_some_iff.1 h
  have hpos : p l[k] = true → 0 < l.countP p := fun hp => List.countP_pos_iff.2 ⟨_, List.getElem_mem hk, hp⟩
  rw [List.countP_set hk]
  cases hold : p l[k] with
  | true =>
    have := hpos hold
    cases p b <;> simp <;> omega
  | false => cases p b <;> simp

namespace SessionManager

variable {maxActiveSessions : Nat} {m : SessionManager}

/-- The counters count the calls by where they are, and the calls that hold a place are within the limit. -/
structure Balanced (maxActiveSessions : Nat) (m : SessionManager) : Prop where
  fits : ∀ start ∈ m.starts, start.Fits
  starting : m.startingSessions = m.starts.countP fun start => start.pc.reserves
  started : m.startedSessions = m.starts.countP fun start => start.pc.registers
  places : m.activeCount + m.starts.countP (fun start => start.pc.reserves) ≤ maxActiveSessions

/-- One call goes on: the counters follow it, and it holds no more places than before. -/
theorem Balanced.set (h : Balanced maxActiveSessions m) {k : Nat} {old new : Start} (hk : m.starts[k]? = some old) (hfits : new.Fits)
    {starting started : Int}
    (hstarting : starting + old.pc.reserves.toNat = m.startingSessions + new.pc.reserves.toNat)
    (hstarted : started + old.pc.registers.toNat = m.startedSessions + new.pc.registers.toNat)
    (hplaces : new.counts.toNat + new.pc.reserves.toNat ≤ old.counts.toNat + old.pc.reserves.toNat) :
    Balanced maxActiveSessions
      { m.set k new with
        startingSessions := starting
        startedSessions := started } := by
  have hreserves := countP_set (p := fun start : Start => start.pc.reserves) (b := new) hk
  have hregisters := countP_set (p := fun start : Start => start.pc.registers) (b := new) hk
  have hcounts := countP_set (p := Start.counts) (b := new) hk
  have hfits' : ∀ start ∈ m.starts.set k new, start.Fits := by
    intro start hstart
    rcases List.mem_or_eq_of_mem_set hstart with hmem | rfl
    · exact h.fits start hmem
    · exact hfits
  have hbalance := h.starting
  have hbalance' := h.started
  have hlimit := h.places
  unfold activeCount at hlimit
  refine ⟨hfits', ?_, ?_, ?_⟩
  · change starting = ((m.starts.set k new).countP fun start => start.pc.reserves : Nat)
    omega
  · change started = ((m.starts.set k new).countP fun start => start.pc.registers : Nat)
    omega
  · change (m.starts.set k new).countP Start.counts + (m.starts.set k new).countP (fun start => start.pc.reserves) ≤ maxActiveSessions
    omega

/-- A step of a session keeps the counters right. -/
theorem Balanced.stepSession (h : Balanced maxActiveSessions m) (k : Nat) (input : SessionInput) :
    Balanced maxActiveSessions (m.stepSession k input) := by
  unfold SessionManager.stepSession
  split
  · rename_i start hk
    split
    · exact h
    · rename_i hinput
      obtain ⟨hfits, hcounts⟩ := (h.fits start (List.mem_of_getElem? hk)).stepSession (by simpa using hinput)
      refine h.set hk hfits rfl rfl (Nat.add_le_add_right ?_ _)
      exact Bool.toNat_le_toNat hcounts
  · exact h

/-- To prune completed sessions keeps the counters right. -/
theorem Balanced.prune (h : Balanced maxActiveSessions m) (pruned : List Nat) :
    Balanced maxActiveSessions (m.pruneCompletedSessions pruned) := by
  unfold pruneCompletedSessions
  induction pruned generalizing m with
  | nil => exact h
  | cons k pruned ih => exact ih (h.stepSession k .prune)

/-- A call that raises where it holds its place keeps the counters right. -/
theorem Balanced.raised (h : Balanced maxActiveSessions m) {k : Nat} {old start : Start} (hk : m.starts[k]? = some old)
    (hfits : start.Fits) (hpc : start.pc = old.pc) (hreserves : old.pc.reserves = true)
    (howes : ∀ cleanup ∈ start.cleanup, cleanup.owes = true → cleanup ≠ .scheduled ∧ start.cleanupTimedOut = true) :
    Balanced maxActiveSessions (m.raised k start) := by
  have hregisters : old.pc.registers = false := by
    cases hold : old.pc <;> rw [hold] at hreserves <;> first | rfl | cases hreserves
  have hraised := hfits.raises (by rw [hpc]; exact hregisters) howes
  refine h.set hk hraised ?_ ?_ ?_
  · rw [hreserves]
    simp [AdmissionPc.reserves]
  · rw [hregisters]
    simp [AdmissionPc.registers]
  · rw [hreserves]
    exact (Bool.toNat_le _).trans (Nat.le_add_left _ _)

/-- A call that emits the first event keeps the counters right. -/
theorem Balanced.emits (h : Balanced maxActiveSessions m) {k : Nat} {start : Start} (hk : m.starts[k]? = some start)
    (hpc : start.pc = .emitting) {input : SessionInput} (hinput : input.ofStart = true) :
    Balanced maxActiveSessions (m.emits k input start) := by
  have hfits := h.fits start (List.mem_of_getElem? hk)
  have hcounts := hfits.counts_of_emitting hpc
  have hsession := hfits.session
  rw [hpc] at hsession
  have hplaces : ∀ new : Start, new.pc.reserves = false →
      new.counts.toNat + new.pc.reserves.toNat ≤ start.counts.toNat + start.pc.reserves.toNat := by
    intro new hnew
    rw [hnew, hcounts]
    exact Nat.le_add_right_of_le (Bool.toNat_le _)
  unfold SessionManager.emits
  cases hs : start.session with
  | none => exact h
  | some s =>
    rw [hs] at hsession
    have hcoherent : ∀ s' ∈ some (s.step input), s'.Coherent := by
      rintro _ ⟨⟩
      exact ((hfits.coherent s hs).step input).1
    have hgoesOn : (s.step input).start ≠ .admitted := by
      refine SessionTasks.step_not_admitted hinput ?_
      have hstart : s.start = .accepting ∨ s.start = .launching := by simpa [AdmissionPc.starts] using hsession
      rcases hstart with hp | hp <;> rw [hp] <;> nofun
    dsimp only
    split
    · rename_i hfailed
      have hnew := hfits.cleanUp (by rw [hpc]; rfl) .cleaning rfl start.handle hcoherent
        (by simp [AdmissionPc.starts, hfailed]) nofun
      refine h.set hk hnew ?_ ?_ (hplaces _ rfl)
      · simp [hpc, Start.cleanUp, AdmissionPc.reserves]
      · simp [hpc, Start.cleanUp, AdmissionPc.registers]
    · rename_i hdone
      have hcleanup : start.cleanup = none := by
        refine hfits.cleanup.resolve_right ?_
        rw [hpc]
        nofun
      have hnew : Start.Fits { start with pc := .returned, session := some (s.step input) } :=
        ⟨hcoherent, by simp [AdmissionPc.starts, hdone], Or.inl hcleanup, fun _ => Or.inl rfl, hfits.calls, nofun⟩
      refine h.set hk hnew ?_ ?_ (hplaces _ rfl)
      · simp [hpc, AdmissionPc.reserves]
      · simp [hpc, AdmissionPc.registers]
    · rename_i hnotFailed hnotDone
      have hnew : Start.Fits { start with session := some (s.step input) } := by
        refine hfits.withSession hcoherent ?_
        rw [hpc]
        cases hstart : (s.step input).start with
        | accepting | launching => simp [AdmissionPc.starts, hstart]
        | admitted => exact absurd hstart hgoesOn
        | done => exact absurd hstart hnotDone
        | failed => exact absurd hstart hnotFailed
      refine h.set hk hnew rfl rfl (hplaces _ ?_)
      change start.pc.reserves = false
      rw [hpc]
      rfl

/-- A call whose handle was returned keeps the counters right. -/
theorem Balanced.handleReturned (h : Balanced maxActiveSessions m) {k : Nat} {start : Start} (hk : m.starts[k]? = some start)
    (hpc : start.pc = .starting) (registers : Bool) : Balanced maxActiveSessions (m.handleReturned k registers start) := by
  have hfits := h.fits start (List.mem_of_getElem? hk)
  have hplaces : ∀ new : Start, new.pc.reserves = false →
      new.counts.toNat + new.pc.reserves.toNat ≤ start.counts.toNat + start.pc.reserves.toNat := by
    intro new hnew
    rw [hnew, hpc]
    exact (Bool.toNat_le _).trans (Nat.le_add_left _ _)
  have hcoherent : ∀ s ∈ some (SessionTasks.step {} .accept), s.Coherent := by
    rintro _ ⟨⟩
    exact (SessionTasks.coherent_start.step .accept).1
  have hcleanup : start.cleanup = none := by
    refine hfits.cleanup.resolve_right ?_
    rw [hpc]
    nofun
  have haccepting : (some (SessionTasks.step {} .accept)).map (fun s => s.start) ∈ AdmissionPc.emitting.starts := by decide
  unfold SessionManager.handleReturned
  dsimp only
  split
  · have hnew : Start.Fits { start with pc := .emitting, handle := true, session := some (SessionTasks.step {} .accept) } :=
      ⟨hcoherent, haccepting, Or.inl hcleanup, fun _ => Or.inl rfl, hfits.calls, nofun⟩
    refine h.set hk hnew ?_ ?_ (hplaces _ rfl)
    · simp [hpc, AdmissionPc.reserves]
    · simp [hpc, AdmissionPc.registers]
  · have hnone : start.session.map (fun s => s.start) ∈ AdmissionPc.cleaning.starts := by
      have hsession := hfits.session
      rw [hpc] at hsession
      exact List.mem_cons.2 (Or.inl (List.mem_singleton.1 hsession))
    have hnew := hfits.cleanUp (by rw [hpc]; rfl) .cleaning rfl true hfits.coherent hnone nofun
    refine h.set hk hnew ?_ ?_ (hplaces _ rfl)
    · simp [hpc, Start.cleanUp, AdmissionPc.reserves]
    · simp [hpc, Start.cleanUp, AdmissionPc.registers]

/-- A call goes on that keeps its place, and its session. -/
theorem Balanced.keeps (h : Balanced maxActiveSessions m) {k : Nat} {start new : Start} (hk : m.starts[k]? = some start)
    (hfits : new.Fits) (hreserves : new.pc.reserves = start.pc.reserves) (hregisters : new.pc.registers = start.pc.registers)
    (hsession : new.session = start.session) : Balanced maxActiveSessions (m.set k new) := by
  refine h.set hk hfits (by rw [hreserves]) (by rw [hregisters]) ?_
  unfold Start.counts
  rw [hreserves, hsession]

/-- A step of a call keeps the counters right. -/
theorem Balanced.stepCall (h : Balanced maxActiveSessions m) {k : Nat} {start : Start} (hk : m.starts[k]? = some start)
    (input : ManagerInput) : Balanced maxActiveSessions (m.stepCall k start input) := by
  have hfits := h.fits start (List.mem_of_getElem? hk)
  have hsession := hfits.session
  have hidle : start.pc.fails = false →
      ∀ cleanup ∈ start.cleanup, cleanup.owes = true → cleanup ≠ .scheduled ∧ start.cleanupTimedOut = true := by
    intro hbefore cleanup hcleanup
    rcases hfits.cleanup with hnone | hfails
    · cases hnone.symm.trans hcleanup
    · cases hbefore.symm.trans hfails
  have hgaveUp : ∀ cleanup ∈ start.giveUp.cleanup, cleanup.owes = true → cleanup ≠ .scheduled ∧ start.giveUp.cleanupTimedOut = true := by
    refine fun cleanup hcleanup _ => ⟨?_, rfl⟩
    rintro rfl
    exact start.giveUp_ne_scheduled hcleanup
  have hended : start.cleanup = some .ended →
      ∀ cleanup ∈ start.cleanup, cleanup.owes = true → cleanup ≠ .scheduled ∧ start.cleanupTimedOut = true := by
    intro hended cleanup hcleanup howes
    cases hended.symm.trans hcleanup
    cases howes
  cases input with
  | returns _ registers =>
    unfold SessionManager.stepCall
    dsimp only
    split
    · rename_i hpc
      exact h.handleReturned hk hpc registers
    · rename_i hpc
      rw [hpc] at hsession
      have hnew := hfits.cleanUp (by rw [hpc]; rfl) .releasing rfl true hfits.coherent hsession nofun
      exact h.keeps hk hnew (by rw [hpc]; rfl) (by rw [hpc]; rfl) rfl
    · exact h
  | raises _ =>
    unfold SessionManager.stepCall
    dsimp only
    split
    · rename_i hpc
      exact h.raised hk hfits rfl (by rw [hpc]; rfl) (hidle (by rw [hpc]; rfl))
    · rename_i hpc
      exact h.raised hk hfits rfl (by rw [hpc]; rfl) (hidle (by rw [hpc]; rfl))
    · exact h
  | cancelled _ =>
    unfold SessionManager.stepCall
    dsimp only
    split
    · rename_i hpc
      rw [hpc] at hsession
      have hcleanup : start.cleanup = none := by
        refine hfits.cleanup.resolve_right ?_
        rw [hpc]
        nofun
      have hnew : Start.Fits { start with pc := .settling } :=
        ⟨hfits.coherent, hsession, Or.inl hcleanup, fun hhandle => ?_, hfits.calls, nofun⟩
      · exact h.keeps hk hnew (by rw [hpc]; rfl) (by rw [hpc]; rfl) rfl
      · have hheld := hfits.handle hhandle
        rw [hpc] at hheld
        exact hheld
    · rename_i hpc
      exact h.emits hk hpc rfl
    · exact h
  | settleTimesOut _ =>
    unfold SessionManager.stepCall
    dsimp only
    split
    · rename_i hpc
      exact h.raised hk hfits rfl (by rw [hpc]; rfl) (hidle (by rw [hpc]; rfl))
    · rename_i hpc
      exact h.raised hk (hfits.giveUp (by rw [hpc]; rfl) (by rw [hpc]; nofun)) rfl (by rw [hpc]; rfl) hgaveUp
    · rename_i hpc
      have hnew := (hfits.giveUp (by rw [hpc]; rfl) (by rw [hpc]; nofun)).raises
        (by change start.pc.registers = false; rw [hpc]; rfl) hgaveUp
      exact h.keeps hk hnew (by rw [hpc]; rfl) (by rw [hpc]; rfl) rfl
    · exact h
  | emits _ input =>
    unfold SessionManager.stepCall
    dsimp only
    split
    · rename_i hpc
      split
      · rename_i hinput
        exact h.emits hk hpc hinput
      · exact h
    · exact h
  | kills _ =>
    unfold SessionManager.stepCall
    dsimp only
    split
    · rename_i hcleanup
      have hcalls : start.calls ++ [.killTree] = CleanupPc.calls (some .killing) := by
        rw [hfits.calls, hcleanup]
        rfl
      exact h.keeps hk (hfits.cleansUp hcleanup hcalls nofun fun _ => rfl) rfl rfl rfl
    · exact h
  | killed _ =>
    unfold SessionManager.stepCall
    dsimp only
    split
    · rename_i hcleanup
      have hcalls : start.calls = CleanupPc.calls (some .leaving) := by
        rw [hfits.calls, hcleanup]
        rfl
      exact h.keeps hk (hfits.cleansUp hcleanup hcalls nofun fun _ => rfl) rfl rfl rfl
    · exact h
  | disposes _ =>
    unfold SessionManager.stepCall
    dsimp only
    split
    · rename_i hcleanup
      have hcalls : start.calls ++ [.dispose] = CleanupPc.calls (some .disposing) := by
        rw [hfits.calls, hcleanup]
        rfl
      exact h.keeps hk (hfits.cleansUp hcleanup hcalls nofun nofun) rfl rfl rfl
    · exact h
  | cleanedUp _ =>
    unfold SessionManager.stepCall
    dsimp only
    split
    · rename_i hcleanup
      have hcalls : start.calls = CleanupPc.calls (some .ended) := by
        rw [hfits.calls, hcleanup]
        rfl
      exact h.keeps hk (hfits.cleansUp hcleanup hcalls nofun nofun) rfl rfl rfl
    · exact h
  | settled _ =>
    unfold SessionManager.stepCall
    dsimp only
    split
    · rename_i hpc
      split
      · rename_i hdone
        exact h.raised hk hfits rfl (by rw [hpc]; rfl) (hended hdone)
      · exact h
    · rename_i hpc
      split
      · rename_i hdone
        have hnew := hfits.raises (by rw [hpc]; rfl) (hended hdone)
        exact h.keeps hk hnew (by rw [hpc]; rfl) (by rw [hpc]; rfl) rfl
      · exact h
    · exact h
  | _ => exact h

/-- A new call keeps the counters right. -/
theorem Balanced.start (h : Balanced maxActiveSessions m) (refused : Bool) (pruned : List Nat) :
    Balanced maxActiveSessions (m.start maxActiveSessions refused pruned) := by
  have hpruned := h.prune pruned
  unfold SessionManager.start
  dsimp only
  generalize m.pruneCompletedSessions pruned = m at hpruned ⊢
  have hcall : ∀ pc : AdmissionPc, none ∈ pc.starts → Start.Fits { pc := pc } := fun pc hpc =>
    ⟨fun s hs => (by cases hs), hpc, Or.inl rfl, nofun, rfl, nofun⟩
  have hfits : ∀ pc : AdmissionPc, none ∈ pc.starts → ∀ start ∈ m.starts ++ [{ pc := pc }], start.Fits := by
    intro pc hpc start hstart
    rcases List.mem_append.1 hstart with hmem | hmem
    · exact hpruned.fits start hmem
    · rw [List.mem_singleton.1 hmem]
      exact hcall pc hpc
  split
  · refine ⟨hfits _ (by decide), ?_, ?_, ?_⟩
    · rw [List.countP_append]
      exact hpruned.starting
    · rw [List.countP_append]
      exact hpruned.started
    · unfold activeCount
      rw [List.countP_append, List.countP_append]
      exact hpruned.places
  · rename_i hadmitted
    rw [not_or, hpruned.starting] at hadmitted
    refine ⟨hfits _ (by decide), ?_, ?_, ?_⟩
    · rw [List.countP_append, hpruned.starting]
      rfl
    · rw [List.countP_append]
      exact hpruned.started
    · have hlimit := hadmitted.2
      unfold activeCount at hlimit ⊢
      rw [List.countP_append, List.countP_append]
      change m.starts.countP Start.counts + 0 + (m.starts.countP (fun start => start.pc.reserves) + 1) ≤ maxActiveSessions
      omega

/-- Every step of the manager keeps the counters right. -/
theorem Balanced.step (h : Balanced maxActiveSessions m) (input : ManagerInput) :
    Balanced maxActiveSessions (m.step maxActiveSessions input) := by
  cases input with
  | start refused pruned => exact h.start refused pruned
  | prune pruned => exact h.prune pruned
  | session k input => exact h.stepSession k input
  | returns k _ | raises k | cancelled k | settleTimesOut k | emits k _ | kills k | killed k | disposes k | cleanedUp k
    | settled k =>
    simp only [SessionManager.step]
    split
    · rename_i start hk
      exact h.stepCall hk _
    · exact h

/-- In every run of calls of `start` and of the tasks of their sessions: the sessions that count and the places that are reserved are
within the limit; the counters count the calls that are past the admission and have neither registered a session nor failed, and those
that have registered one and not failed; and a session is registered while its call has not failed, up to its disposal. The handle of a
call that raises was killed, unless the settle of the cleanup gave up on it before its first step; and it is disposed of, unless the
settle gave up before the disposal: on a cleanup that never runs, or on one that is still in `kill_tree` or in the wait for the exit, or
just past them. -/
theorem admission_atomic (maxActiveSessions : Nat) (inputs : List ManagerInput) :
    let m := Machine.run (SessionManager.step maxActiveSessions) {} inputs
    m.activeCount + m.startingSessions ≤ maxActiveSessions ∧
      m.startingSessions = m.starts.countP (fun start => start.pc.reserves) ∧
      m.startedSessions = m.starts.countP (fun start => start.pc.registers) ∧
      ∀ start ∈ m.starts,
        (start.registered = true ↔ start.pc.registers = true ∧ ∀ s ∈ start.session, s.state ≠ .disposed) ∧
          (start.pc = .raised → start.handle = true →
            (.killTree ∈ start.calls ∨ start.cleanup = some .dropped ∧ start.cleanupTimedOut = true) ∧
              (.dispose ∈ start.calls ∨
                (start.cleanup = some .dropped ∨ start.cleanup = some .killing ∨ start.cleanup = some .leaving) ∧
                  start.cleanupTimedOut = true)) := by
  intro m
  have h : Balanced maxActiveSessions m :=
    Machine.run_induct (fun m input hm => hm.step input) ⟨fun start hstart => (by cases hstart), rfl, rfl, Nat.zero_le _⟩ inputs
  refine ⟨?_, h.starting, h.started, fun start hstart => ⟨(h.fits start hstart).registered_iff, fun hraised hhandle => ?_⟩⟩
  · have hplaces := h.places
    rw [h.starting]
    omega
  · have hfits := h.fits start hstart
    have hcleanup := (hfits.handle hhandle).resolve_left (by rw [hraised]; nofun)
    have howes := hfits.owes hraised
    rw [hfits.calls]
    cases hc : start.cleanup with
    | none => exact absurd hc hcleanup
    | some pc =>
      cases pc with
      | scheduled => exact absurd rfl (howes _ hc rfl).1
      | dropped => exact ⟨Or.inr ⟨rfl, (howes _ hc rfl).2⟩, Or.inr ⟨Or.inl rfl, (howes _ hc rfl).2⟩⟩
      | killing => exact ⟨Or.inl (by simp [CleanupPc.calls]), Or.inr ⟨Or.inr (Or.inl rfl), (howes _ hc rfl).2⟩⟩
      | leaving => exact ⟨Or.inl (by simp [CleanupPc.calls]), Or.inr ⟨Or.inr (Or.inr rfl), (howes _ hc rfl).2⟩⟩
      | disposing | ended => exact ⟨Or.inl (by simp [CleanupPc.calls]), Or.inl (by simp [CleanupPc.calls])⟩

/-- The ownership of a process cannot be registered; the settle of the cleanup ends by its deadline while its tree is killed. -/
theorem slow_kill_outlives_start :
    ¬∀ inputs : List ManagerInput, ∀ start ∈ (Machine.run (SessionManager.step 1) {} inputs).starts,
      start.pc = .raised → start.handle = true → .dispose ∈ start.calls := by
  intro h
  have hrun := h [.start false [], .returns 0 false, .kills 0, .settleTimesOut 0]
  revert hrun
  decide

end SessionManager

end Runtime

end SharkRail
