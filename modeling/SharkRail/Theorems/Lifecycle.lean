import SharkRail.Runtime.SessionTasks

/-!
# Legal transitions

The state of a session fits the places where its start and its monitor are, in every order of the steps of its tasks (`Coherent`). So
only the last transition of a disposal can be refused, which does not look whether the monitor has moved the session to a terminal
state (`legal_iff`).
-/

namespace SharkRail

namespace Runtime

/-- The states of a session that has no monitor yet. -/
def StartPc.states : StartPc → List SessionState
  | .admitted => [.created]
  | .accepting => [.accepted]
  | .launching => [.running, .cancelling]
  | .failed => [.accepted, .running, .cancelling]
  | .done => []

/-- The states of a session that has a monitor. -/
def MonitorPc.states : MonitorPc → List SessionState
  | .absent => []
  | .waiting | .killing => [.running, .cancelling]
  | .exited | .drainTimedOut | .limited | .disposing false | .collecting false => [.draining]
  | .disposing true | .collecting true => [.running, .cancelling, .draining]
  | .reporting => [.failed, .disposed]
  | .done => [.completed, .failed, .disposed]
  | .raised => []

/-- The session is registered, as far as its start goes. -/
def StartPc.registers : StartPc → Bool
  | .accepting | .launching | .done => true
  | .admitted | .failed => false

namespace SessionTasks

variable {s s' : SessionTasks}

/-- The state of a session fits its tasks. -/
structure Coherent (s : SessionTasks) : Prop where
  state : s.state ∈ if s.monitor = .absent then s.start.states else s.monitor.states
  started : s.start = .done ↔ s.monitor ≠ .absent
  registered : s.registered = true ↔ s.start.registers = true ∧ s.state ≠ .disposed
  completedAt : s.completedAt = true → s.monitor = .done
  listed : s.disposedListed = true → s.state = .disposed
  returned : .returned ∈ s.disposals → s.state = .disposed
  owner : ∀ pc i, s.operation = some (.cancellation pc (some i)) → s.disposals[i]? = some .cancelling

/-- No transition was refused, and no disposal raised an exception but a `SharkRailError`. -/
def Faultless (s : SessionTasks) : Prop := s.invalid = false ∧ .raised false ∉ s.disposals

/-- A step that changes nothing of the lifecycle, and gives the lock to no disposal. -/
structure Keeps (s s' : SessionTasks) : Prop where
  state : s'.state = s.state
  registered : s'.registered = s.registered
  disposedListed : s'.disposedListed = s.disposedListed
  completedAt : s'.completedAt = s.completedAt
  start : s'.start = s.start
  monitor : s'.monitor = s.monitor
  disposals : s'.disposals = s.disposals
  invalid : s'.invalid = s.invalid
  owner : ∀ pc i, s'.operation = some (.cancellation pc (some i)) → ∃ pc', s.operation = some (.cancellation pc' (some i))

/-- Nothing happens. -/
theorem Keeps.refl (s : SessionTasks) : Keeps s s := ⟨rfl, rfl, rfl, rfl, rfl, rfl, rfl, rfl, fun pc _ h => ⟨pc, h⟩⟩

/-- A step that changes nothing of the lifecycle keeps the fit. -/
theorem Coherent.keeps (h : Coherent s) (hk : Keeps s s') : Coherent s' where
  state := by rw [hk.state, hk.monitor, hk.start]; exact h.state
  started := by rw [hk.start, hk.monitor]; exact h.started
  registered := by rw [hk.registered, hk.start, hk.state]; exact h.registered
  completedAt := by rw [hk.completedAt, hk.monitor]; exact h.completedAt
  listed := by rw [hk.disposedListed, hk.state]; exact h.listed
  returned := by rw [hk.disposals, hk.state]; exact h.returned
  owner := by
    intro pc i hop
    obtain ⟨pc', hop'⟩ := hk.owner pc i hop
    rw [hk.disposals]
    exact h.owner pc' i hop'

/-- A step that changes nothing of the lifecycle is no fault. -/
theorem Keeps.faultless (hk : Keeps s s') : Faultless s' ↔ Faultless s := by
  rw [Faultless, Faultless, hk.invalid, hk.disposals]

/-! ## What the tasks find -/

/-- The state of a session is one of those of its monitor. -/
theorem Coherent.state_of_monitor (h : Coherent s) (hmonitor : s.monitor ≠ .absent) : s.state ∈ s.monitor.states := by
  have hstate := h.state
  rwa [if_neg hmonitor] at hstate

/-- The state of a session that starts is one of those of the start, and there is no monitor yet. -/
theorem Coherent.state_of_start (h : Coherent s) (hstart : s.start ≠ .done) : s.monitor = .absent ∧ s.state ∈ s.start.states := by
  have habsent : s.monitor = .absent := by
    by_contra hmonitor
    exact hstart (h.started.2 hmonitor)
  have hstate := h.state
  rw [if_pos habsent] at hstate
  exact ⟨habsent, hstate⟩

/-- A terminal state, or the end, only fits a monitor that has moved the session there. -/
theorem terminal_of_mem_states {pc : MonitorPc} {state : SessionState} (hfits : state ∈ pc.states)
    (hstate : state = .completed ∨ state = .failed ∨ state = .disposed) : pc.terminal = true := by
  cases pc with
  | reporting | done => rfl
  | disposing failed | collecting failed =>
    cases failed <;> rcases hstate with rfl | rfl | rfl <;> simp [MonitorPc.states] at hfits
  | _ => rcases hstate with rfl | rfl | rfl <;> simp [MonitorPc.states] at hfits

/-- No such state fits a session without a monitor. -/
theorem not_mem_startStates {pc : StartPc} {state : SessionState}
    (hstate : state = .completed ∨ state = .failed ∨ state = .disposed) : state ∉ pc.states := by
  rcases hstate with rfl | rfl | rfl <;> cases pc <;> simp [StartPc.states]

/-- A session is completed, failed or disposed of only when its monitor has moved it to a terminal state. -/
theorem Coherent.terminal (h : Coherent s) (hstate : s.state = .completed ∨ s.state = .failed ∨ s.state = .disposed) :
    s.monitor.terminal = true := by
  by_cases hmonitor : s.monitor = .absent
  · have hstart := h.state
    rw [if_pos hmonitor] at hstart
    exact absurd hstart (not_mem_startStates hstate)
  · exact terminal_of_mem_states (h.state_of_monitor hmonitor) hstate

/-- When the monitor has moved the session to a terminal state, it is completed, failed or disposed of. -/
theorem Coherent.state_of_terminal (h : Coherent s) (hterminal : s.monitor.terminal = true) :
    s.state = .completed ∨ s.state = .failed ∨ s.state = .disposed := by
  have hfits := h.state_of_monitor (by rintro habsent; rw [habsent] at hterminal; cases hterminal)
  cases hm : s.monitor with
  | reporting =>
    rw [hm] at hfits
    exact Or.inr (by simpa [MonitorPc.states] using hfits)
  | done =>
    rw [hm] at hfits
    simpa [MonitorPc.states] using hfits
  | _ => rw [hm] at hterminal; cases hterminal

/-- An active session is registered unless its start failed, and has no terminal monitor. -/
theorem Coherent.not_terminal (h : Coherent s) (hactive : s.state.active = true) : s.monitor.terminal = false := by
  by_contra hterminal
  rcases h.state_of_terminal (by simpa using hterminal) with hs | hs | hs <;> rw [hs] at hactive <;> cases hactive

/-! ## Steps of the monitor -/

/-- The monitor goes on, in a state that fits; it registers and disposes of nothing. -/
structure Monitors (s s' : SessionTasks) : Prop where
  same : ∃ state completedAt events cancellationSteps monitor,
    s' = { s with state, completedAt, events, cancellationSteps, monitor }
  present : s.monitor ≠ .absent
  goesOn : s'.monitor ≠ .absent
  state : s'.state ∈ s'.monitor.states
  disposed : s'.state = .disposed ↔ s.state = .disposed
  completedAt : s'.completedAt = true → s'.monitor = .done

/-- A step of the monitor keeps the fit. -/
theorem Coherent.monitors (h : Coherent s) (hm : Monitors s s') : Coherent s' := by
  obtain ⟨⟨state, completedAt, events, cancellationSteps, monitor, rfl⟩, hpresent, hgoesOn, hstate, hdisposed, hcompleted⟩ := hm
  refine ⟨?_, ?_, ?_, hcompleted, ?_, ?_, h.owner⟩
  · rw [if_neg hgoesOn]
    exact hstate
  · exact ⟨fun _ => hgoesOn, fun _ => h.started.2 hpresent⟩
  · rw [h.registered]
    exact and_congr_right fun _ => not_congr hdisposed.symm
  · exact fun hl => hdisposed.2 (h.listed hl)
  · exact fun hr => hdisposed.2 (h.returned hr)

/-- A step of the monitor is no fault. -/
theorem Monitors.faultless (hm : Monitors s s') : Faultless s' ↔ Faultless s := by
  obtain ⟨⟨state, completedAt, events, cancellationSteps, monitor, rfl⟩, -⟩ := hm
  exact Iff.rfl

/-- To report the killed tree adds events and steps, and nothing else. -/
theorem reportKillTree_eq (s : SessionTasks) :
    ∃ events cancellationSteps, s.reportKillTree = { s with events, cancellationSteps } := by
  unfold reportKillTree
  split
  · exact ⟨_, _, rfl⟩
  · exact ⟨_, _, rfl⟩

/-- The session drains when its process has exited. -/
theorem processExited_eq (h : Coherent s) (hmonitor : s.monitor = .waiting ∨ s.monitor = .killing) :
    (s.state = .running ∨ s.state = .cancelling) ∧
      s.processExited = { { s with state := .draining }.emit .processExited with monitor := .exited } := by
  have hstate : s.state = .running ∨ s.state = .cancelling := by
    have hfits := h.state_of_monitor (by rcases hmonitor with hm | hm <;> rw [hm] <;> nofun)
    rcases hmonitor with hm | hm <;> rw [hm] at hfits <;> simpa [MonitorPc.states] using hfits
  refine ⟨hstate, ?_⟩
  rcases hstate with hs | hs <;> simp [processExited, transition, SessionState.transitions, hs]

/-- The monitor goes on when the process exits. -/
theorem processExited_monitors (h : Coherent s) (hmonitor : s.monitor = .waiting ∨ s.monitor = .killing) :
    Monitors s s.processExited := by
  obtain ⟨hstate, hexited⟩ := processExited_eq h hmonitor
  have hcompleted : s.completedAt ≠ true := fun hc => by
    rcases hmonitor with hm | hm <;> cases hm.symm.trans (h.completedAt hc)
  rw [hexited]
  refine ⟨⟨_, _, _, _, _, rfl⟩, ?_, nofun, by simp [emit, MonitorPc.states], ⟨nofun, fun hd => ?_⟩, fun hc => absurd hc hcompleted⟩
  · rcases hmonitor with hm | hm <;> rw [hm] <;> nofun
  · rcases hstate with hs | hs <;> cases hs.symm.trans hd

/-- The session fails when the monitor reports its error. -/
theorem reportError_eq (h : Coherent s)
    (hmonitor : s.monitor = .collecting true ∨ s.monitor = .limited) :
    (s.state = .running ∨ s.state = .cancelling ∨ s.state = .draining) ∧
      s.reportError = { { s with state := .failed }.emit .sessionError with monitor := .reporting } := by
  have hstate : s.state = .running ∨ s.state = .cancelling ∨ s.state = .draining := by
    have hfits := h.state_of_monitor (by rcases hmonitor with hm | hm <;> rw [hm] <;> nofun)
    rcases hmonitor with hm | hm <;> rw [hm] at hfits <;>
      simp only [MonitorPc.states, List.mem_cons, List.not_mem_nil, or_false] at hfits
    · exact hfits
    · exact Or.inr (Or.inr hfits)
  refine ⟨hstate, ?_⟩
  rcases hstate with hs | hs | hs <;> simp [reportError, transition, SessionState.transitions, SessionState.terminal, hs]

/-- The monitor goes on when it reports an error. -/
theorem reportError_monitors (h : Coherent s) (hmonitor : s.monitor = .collecting true ∨ s.monitor = .limited) :
    Monitors s s.reportError := by
  obtain ⟨hstate, hreported⟩ := reportError_eq h hmonitor
  have hcompleted : s.completedAt ≠ true := fun hc => by
    rcases hmonitor with hm | hm <;> cases hm.symm.trans (h.completedAt hc)
  rw [hreported]
  refine ⟨⟨_, _, _, _, _, rfl⟩, ?_, nofun, by simp [emit, MonitorPc.states], ⟨nofun, fun hd => ?_⟩, fun hc => absurd hc hcompleted⟩
  · rcases hmonitor with hm | hm <;> rw [hm] <;> nofun
  · rcases hstate with hs | hs | hs <;> cases hs.symm.trans hd

/-- A session is completed that drained without an error. -/
theorem afterReaders_eq (h : Coherent s) (hmonitor : s.monitor = .collecting false) :
    s.state = .draining ∧ s.afterReaders false false = { s with state := .completed }.completeSession := by
  have hstate : s.state = .draining := by
    have hfits := h.state_of_monitor (by rw [hmonitor]; nofun)
    rw [hmonitor] at hfits
    simpa [MonitorPc.states] using hfits
  refine ⟨hstate, ?_⟩
  simp [afterReaders, transition, SessionState.transitions, hstate]

/-- After the readers the session is completed, or an error is reported. -/
theorem afterReaders_monitors (h : Coherent s) {failed : Bool} (hmonitor : s.monitor = .collecting failed) (resourceHit : Bool) :
    Monitors s (s.afterReaders failed resourceHit) := by
  have hpresent : s.monitor ≠ .absent := by rw [hmonitor]; nofun
  have hcompleted : s.completedAt ≠ true := fun hc => by cases hmonitor.symm.trans (h.completedAt hc)
  cases failed with
  | true => exact reportError_monitors h (Or.inl hmonitor)
  | false =>
    obtain ⟨hstate, hcompletes⟩ := afterReaders_eq h hmonitor
    cases resourceHit with
    | true =>
      exact ⟨⟨_, _, _, _, _, rfl⟩, hpresent, nofun, by simp [emit, afterReaders, MonitorPc.states, hstate], Iff.rfl,
        fun hc => absurd hc hcompleted⟩
    | false =>
      rw [hcompletes]
      exact ⟨⟨_, _, _, _, _, rfl⟩, hpresent, nofun, by simp [completeSession, emit, MonitorPc.states],
        ⟨nofun, fun hd => by cases hstate.symm.trans hd⟩, fun _ => rfl⟩

/-- The monitor goes on in the state that the session has. -/
theorem monitors_of_state (h : Coherent s) {events : List LifecycleEventType} {cancellationSteps : List CancellationStep}
    {monitor : MonitorPc} (hpresent : s.monitor ≠ .absent) (hnotDone : s.monitor ≠ .done) (hgoesOn : monitor ≠ .absent)
    (hstates : ∀ state ∈ s.monitor.states, state ∈ monitor.states) :
    Monitors s { s with events, cancellationSteps, monitor } :=
  ⟨⟨_, _, _, _, _, rfl⟩, hpresent, hgoesOn, hstates _ (h.state_of_monitor hpresent), Iff.rfl,
    fun hc => absurd (h.completedAt hc) hnotDone⟩

/-- The monitor goes on or does nothing. -/
theorem stepMonitor_spec (h : Coherent s) (input : SessionInput) :
    s.stepMonitor input = s ∨ Monitors s (s.stepMonitor input) := by
  cases input with
  | processExits =>
    unfold stepMonitor
    dsimp only
    split
    · rename_i hm
      exact Or.inr (processExited_monitors h (Or.inl hm))
    · rename_i hm
      exact Or.inr (processExited_monitors h (Or.inr hm))
    · exact Or.inl rfl
  | deadline =>
    unfold stepMonitor
    dsimp only
    split
    · rename_i hm
      obtain ⟨events, cancellationSteps, heq⟩ := reportKillTree_eq s
      rw [heq]
      exact Or.inr (monitors_of_state h (by rw [hm]; nofun) (by rw [hm]; nofun) nofun (by rw [hm]; exact fun _ hs => hs))
    · exact Or.inl rfl
  | monitorFails =>
    unfold stepMonitor
    dsimp only
    split
    · rename_i hm
      exact Or.inr (monitors_of_state h (by rw [hm]; nofun) (by rw [hm]; nofun) nofun (by rw [hm]; simp [MonitorPc.states]))
    · rename_i hm
      exact Or.inr (monitors_of_state h (by rw [hm]; nofun) (by rw [hm]; nofun) nofun (by rw [hm]; simp [MonitorPc.states]))
    · rename_i hm
      exact Or.inr (monitors_of_state h (by rw [hm]; nofun) (by rw [hm]; nofun) nofun (by rw [hm]; simp [MonitorPc.states]))
    · rename_i hm
      exact Or.inr (monitors_of_state h (by rw [hm]; nofun) (by rw [hm]; nofun) nofun (by rw [hm]; simp [MonitorPc.states]))
    · exact Or.inl rfl
  | drained =>
    unfold stepMonitor
    dsimp only
    split
    · rename_i hm
      exact Or.inr (monitors_of_state h (by rw [hm.1]; nofun) (by rw [hm.1]; nofun) nofun (by rw [hm.1]; exact fun _ hs => hs))
    · exact Or.inl rfl
  | drainTimesOut =>
    unfold stepMonitor
    dsimp only
    split
    · rename_i hm
      obtain ⟨events, cancellationSteps, heq⟩ := reportKillTree_eq (s.emit .resourceLimitHit)
      rw [heq]
      exact Or.inr (monitors_of_state h (by rw [hm]; nofun) (by rw [hm]; nofun) nofun (by rw [hm]; exact fun _ hs => hs))
    · exact Or.inl rfl
  | drainKilled =>
    unfold stepMonitor
    dsimp only
    split
    · rename_i hm
      exact Or.inr (monitors_of_state h (by rw [hm]; nofun) (by rw [hm]; nofun) nofun (by rw [hm]; simp [MonitorPc.states]))
    · exact Or.inl rfl
  | backendDisposed outcome =>
    unfold stepMonitor
    dsimp only
    split
    · rename_i failed hm
      refine Or.inr (monitors_of_state h (by rw [hm]; nofun) (by rw [hm]; nofun) nofun ?_)
      rw [hm]
      cases failed <;> cases outcome <;> simp [MonitorPc.states]
    · exact Or.inl rfl
  | collected resourceHit =>
    unfold stepMonitor
    dsimp only
    split
    · rename_i failed hm
      split
      · exact Or.inr (afterReaders_monitors h hm resourceHit)
      · exact Or.inl rfl
    · exact Or.inl rfl
  | limitReported =>
    unfold stepMonitor
    dsimp only
    split
    · rename_i hm
      exact Or.inr (reportError_monitors h (Or.inr hm))
    · exact Or.inl rfl
  | completes =>
    unfold stepMonitor
    dsimp only
    split
    · rename_i hm
      have hfits := h.state_of_monitor (by rw [hm]; nofun)
      rw [hm] at hfits
      refine Or.inr ⟨⟨_, _, _, _, _, rfl⟩, by rw [hm]; nofun, nofun, ?_, Iff.rfl, fun _ => rfl⟩
      exact List.mem_cons_of_mem _ hfits
    · exact Or.inl rfl
  | _ => exact Or.inl rfl

/-! ## Steps of the start -/

/-- The start goes on while there is no monitor; it disposes of nothing. -/
structure Launches (s s' : SessionTasks) : Prop where
  same : ∃ state registered events start monitor readers, s' = { s with state, registered, events, start, monitor, readers }
  before : s.start ≠ .done
  state : s'.state ∈ if s'.monitor = .absent then s'.start.states else s'.monitor.states
  started : s'.start = .done ↔ s'.monitor ≠ .absent
  registered : s'.registered = s'.start.registers
  live : s'.state ≠ .disposed

/-- A session without a monitor was not disposed of and has no result. -/
theorem Coherent.live (h : Coherent s) (hstart : s.start ≠ .done) : s.state ≠ .disposed ∧ s.completedAt ≠ true := by
  obtain ⟨habsent, hstate⟩ := h.state_of_start hstart
  refine ⟨fun hd => not_mem_startStates (Or.inr (Or.inr hd)) hstate, fun hc => ?_⟩
  have hdone := h.completedAt hc
  rw [habsent] at hdone
  cases hdone

/-- A step of the start keeps the fit. -/
theorem Coherent.launches (h : Coherent s) (hl : Launches s s') : Coherent s' := by
  obtain ⟨⟨state, registered, events, start, monitor, readers, rfl⟩, hbefore, hstate, hstarted, hregistered, hlive⟩ := hl
  obtain ⟨hlive', hcompleted⟩ := h.live hbefore
  refine ⟨hstate, hstarted, ?_, fun hc => absurd hc hcompleted, fun hd => absurd (h.listed hd) hlive',
    fun hr => absurd (h.returned hr) hlive', h.owner⟩
  rw [hregistered]
  exact ⟨fun hr => ⟨hr, hlive⟩, fun hr => hr.1⟩

/-- A step of the start is no fault. -/
theorem Launches.faultless (hl : Launches s s') : Faultless s' ↔ Faultless s := by
  obtain ⟨⟨state, registered, events, start, monitor, readers, rfl⟩, -⟩ := hl
  exact Iff.rfl

/-- The start goes on or changes nothing of the lifecycle. -/
theorem stepStart_spec (h : Coherent s) (input : SessionInput) :
    Keeps s (s.stepStart input) ∨ Launches s (s.stepStart input) := by
  cases input with
  | accept =>
    unfold stepStart
    dsimp only
    split
    · rename_i hstart
      obtain ⟨habsent, hstate⟩ := h.state_of_start (by rw [hstart]; nofun)
      rw [hstart] at hstate
      have hcreated : s.state = .created := by simpa [StartPc.states] using hstate
      have haccepted : s.accept =
          { { { s with registered := true } with state := .accepted }.emit .accepted with start := .accepting } := by
        simp [accept, transition, SessionState.transitions, hcreated]
      rw [haccepted]
      refine Or.inr ⟨⟨_, _, _, _, _, _, rfl⟩, by rw [hstart]; nofun, ?_, ?_, rfl, nofun⟩
      · simp [emit, habsent, StartPc.states]
      · exact iff_of_false nofun (fun hm => hm habsent)
    · exact Or.inl (Keeps.refl s)
  | launch =>
    unfold stepStart
    dsimp only
    split
    · rename_i hstart
      obtain ⟨habsent, hstate⟩ := h.state_of_start (by rw [hstart]; nofun)
      rw [hstart] at hstate
      have haccepted : s.state = .accepted := by simpa [StartPc.states] using hstate
      have hregistered : s.registered = true := h.registered.2 ⟨by rw [hstart]; rfl, by rw [haccepted]; nofun⟩
      have hlaunched : s.launch = { { s with state := .running }.emit .processStarted with start := .launching } := by
        simp [launch, transition, SessionState.transitions, haccepted]
      rw [hlaunched]
      refine Or.inr ⟨⟨_, _, _, _, _, _, rfl⟩, by rw [hstart]; nofun, ?_, ?_, hregistered, nofun⟩
      · simp [emit, habsent, StartPc.states]
      · exact iff_of_false nofun (fun hm => hm habsent)
    · exact Or.inl (Keeps.refl s)
  | degraded =>
    unfold stepStart
    dsimp only
    split
    · exact Or.inl ⟨rfl, rfl, rfl, rfl, rfl, rfl, rfl, rfl, fun pc _ hop => ⟨pc, hop⟩⟩
    · exact Or.inl (Keeps.refl s)
  | startEnds readers =>
    unfold stepStart
    dsimp only
    split
    · rename_i hstart
      obtain ⟨habsent, hstate⟩ := h.state_of_start (by rw [hstart]; nofun)
      have hlive := (h.live (by rw [hstart]; nofun)).1
      rw [hstart] at hstate
      have hregistered : s.registered = true := h.registered.2 ⟨by rw [hstart]; rfl, hlive⟩
      refine Or.inr ⟨⟨_, _, _, _, _, _, rfl⟩, by rw [hstart]; nofun, ?_, ?_, hregistered, hlive⟩
      · rw [if_neg nofun]
        exact hstate
      · exact iff_of_true rfl nofun
    · exact Or.inl (Keeps.refl s)
  | startFails =>
    have hfails : ∀ pc, s.start = pc → pc ≠ .done → (∀ state ∈ pc.states, state ∈ StartPc.failed.states) →
        Launches s s.abandonStart := by
      intro pc hstart hpc hstates
      obtain ⟨habsent, hstate⟩ := h.state_of_start (by rw [hstart]; exact hpc)
      have hlive := (h.live (by rw [hstart]; exact hpc)).1
      refine ⟨⟨_, _, _, _, _, _, rfl⟩, by rw [hstart]; exact hpc, ?_, ?_, rfl, hlive⟩
      · change s.state ∈ if s.monitor = .absent then StartPc.failed.states else s.monitor.states
        rw [if_pos habsent]
        exact hstates _ (hstart ▸ hstate)
      · exact iff_of_false nofun (fun hm => hm habsent)
    unfold stepStart
    dsimp only
    split
    · rename_i hstart
      exact Or.inr (hfails _ hstart nofun (by simp [StartPc.states]))
    · rename_i hstart
      exact Or.inr (hfails _ hstart nofun (by simp [StartPc.states]))
    · exact Or.inl (Keeps.refl s)
  | _ => exact Or.inl (Keeps.refl s)

/-! ## Steps of the readers -/

/-- The readers change nothing of the lifecycle. -/
theorem stepReaders_keeps (s : SessionTasks) (input : SessionInput) : Keeps s (s.stepReaders input) := by
  cases input with
  | reads stream kind =>
    unfold stepReaders
    dsimp only
    split
    · exact ⟨rfl, rfl, rfl, rfl, rfl, rfl, rfl, rfl, fun pc _ hop => ⟨pc, hop⟩⟩
    · exact Keeps.refl s
  | readerEnds stream => exact ⟨rfl, rfl, rfl, rfl, rfl, rfl, rfl, rfl, fun pc _ hop => ⟨pc, hop⟩⟩
  | _ => exact Keeps.refl s

/-! ## Disposals and their cancellations -/

/-- A disposal goes on that holds no lock afterwards. -/
theorem Coherent.setDisposal (h : Coherent s) {i : Nat} {pc : DisposePc} (hreturned : pc = .returned → s.state = .disposed)
    (hfree : ∀ pc', s.operation = some (.cancellation pc' (some i)) → False) : Coherent (s.setDisposal i pc) := by
  refine ⟨h.state, h.started, h.registered, h.completedAt, h.listed, fun hr => ?_, fun pc' j hop => ?_⟩
  · rcases List.mem_or_eq_of_mem_set hr with hr | hr
    · exact h.returned hr
    · exact hreturned hr.symm
  · have hne : i ≠ j := fun heq => hfree pc' (heq ▸ hop)
    change (s.disposals.set i pc)[j]? = _
    rw [List.getElem?_set_ne hne]
    exact h.owner pc' j hop

/-- A disposal that goes on is a fault just where it raises something else than a `SharkRailError`. -/
theorem faultless_setDisposal {i : Nat} {old pc : DisposePc} (hold : s.disposals[i]? = some old) (hne : old ≠ .raised false) :
    Faultless (s.setDisposal i pc) ↔ Faultless s ∧ pc ≠ .raised false := by
  have hi : i < s.disposals.length := (List.getElem?_eq_some_iff.1 hold).1
  have hmem : .raised false ∈ s.disposals.set i pc ↔ .raised false ∈ s.disposals ∨ pc = .raised false := by
    constructor
    · intro hm
      rcases List.mem_or_eq_of_mem_set hm with hm | hm
      · exact Or.inl hm
      · exact Or.inr hm.symm
    · rintro (hm | rfl)
      · obtain ⟨j, hj⟩ := List.mem_iff_getElem?.1 hm
        have hij : i ≠ j := by
          rintro rfl
          exact hne (Option.some.inj (hold.symm.trans hj))
        exact List.mem_iff_getElem?.2 ⟨j, by rw [List.getElem?_set_ne hij]; exact hj⟩
      · exact List.mem_set hi _
  unfold Faultless
  change s.invalid = false ∧ .raised false ∉ s.disposals.set i pc ↔ _
  rw [hmem, not_or, and_assoc]

/-- The end of an escalation keeps the fit and is no fault. -/
theorem endCancellation_spec (h : Coherent s) {pc : CancelPc} {owner : Option Nat}
    (hop : s.operation = some (.cancellation pc owner)) (failed : Bool) :
    Coherent (s.endCancellation failed owner) ∧ (Faultless (s.endCancellation failed owner) ↔ Faultless s) := by
  have hkeeps : Keeps s { s with operation := none } := ⟨rfl, rfl, rfl, rfl, rfl, rfl, rfl, rfl, nofun⟩
  have hreleased := h.keeps hkeeps
  unfold endCancellation
  cases owner with
  | none => exact ⟨hreleased, hkeeps.faultless⟩
  | some i =>
    have hcancelling := h.owner pc i hop
    dsimp only
    refine ⟨hreleased.setDisposal ?_ nofun, (faultless_setDisposal hcancelling nofun).trans ?_⟩
    · split
      · nofun
      · split <;> nofun
    · refine and_iff_left ?_
      split
      · nofun
      · split <;> nofun

/-- The begin of an escalation keeps the fit and is no fault. -/
theorem beginCancellation_spec (h : Coherent s) {owner : Option Nat} (hop : s.operation = some (.cancellation .created owner)) :
    Coherent (s.beginCancellation owner) ∧ (Faultless (s.beginCancellation owner) ↔ Faultless s) := by
  have hescalates : Keeps s { s with operation := some (.cancellation (.escalating none) owner) } := by
    refine ⟨rfl, rfl, rfl, rfl, rfl, rfl, rfl, rfl, ?_⟩
    rintro pc i ⟨⟩
    exact ⟨.created, hop⟩
  unfold beginCancellation
  split
  · exact endCancellation_spec h hop false
  · split
    · exact endCancellation_spec h hop true
    · split
      · exact endCancellation_spec h hop false
      · dsimp only
        split
        · rename_i hrunning
          have hcancelling : s.transition .cancelling = some { s with state := .cancelling } := by
            simp [transition, SessionState.transitions, hrunning]
          rw [hcancelling]
          have hmoved : Coherent { s with state := .cancelling } := by
            refine ⟨?_, h.started, ?_, h.completedAt, ?_, ?_, h.owner⟩
            · have hstate := h.state
              rw [hrunning] at hstate
              change SessionState.cancelling ∈ if s.monitor = .absent then s.start.states else s.monitor.states
              split at hstate
              · rename_i habsent
                rw [if_pos habsent]
                cases hs : s.start <;> rw [hs] at hstate <;> simp [StartPc.states] at hstate ⊢
              · rename_i hpresent
                rw [if_neg hpresent]
                cases hm : s.monitor with
                | disposing failed | collecting failed => rw [hm] at hstate; cases failed <;> simp [MonitorPc.states] at hstate ⊢
                | _ => rw [hm] at hstate; simp [MonitorPc.states] at hstate ⊢
            · rw [h.registered, hrunning]
              simp
            · intro hl
              cases hrunning.symm.trans (h.listed hl)
            · intro hr
              cases hrunning.symm.trans (h.returned hr)
          have hkeeps : Keeps { s with state := .cancelling }
              { s with state := .cancelling, operation := some (.cancellation (.escalating none) owner) } :=
            ⟨rfl, rfl, rfl, rfl, rfl, rfl, rfl, rfl, hescalates.owner⟩
          exact ⟨hmoved.keeps hkeeps, hkeeps.faultless⟩
        · exact ⟨h.keeps hescalates, hescalates.faultless⟩

/-- The steps of a cancellation and of the other operations, but its first and its last, change nothing of the lifecycle. -/
theorem Keeps.operation {pc : CancelPc} {owner : Option Nat} (hop : s.operation = some (.cancellation pc owner)) (pc' : CancelPc)
    {events : List LifecycleEventType} {cancellationSteps : List CancellationStep} {abandoned : List (Option CancellationStep)} :
    Keeps s { s with events, cancellationSteps, abandoned, operation := some (.cancellation pc' owner) } := by
  refine ⟨rfl, rfl, rfl, rfl, rfl, rfl, rfl, rfl, ?_⟩
  rintro x i ⟨⟩
  exact ⟨pc, hop⟩

/-- The task that holds the lock keeps the fit and makes no fault. -/
theorem stepOperations_spec (h : Coherent s) (input : SessionInput) :
    Coherent (s.stepOperations input) ∧ (Faultless (s.stepOperations input) ↔ Faultless s) := by
  have hof : ∀ {s'}, Keeps s s' → Coherent s' ∧ (Faultless s' ↔ Faultless s) := fun hk => ⟨h.keeps hk, hk.faultless⟩
  cases input with
  | cancel =>
    unfold stepOperations
    dsimp only
    split
    · exact hof ⟨rfl, rfl, rfl, rfl, rfl, rfl, rfl, rfl, nofun⟩
    · exact hof (Keeps.refl s)
  | operate kind =>
    unfold stepOperations
    dsimp only
    split
    · split
      · exact hof ⟨rfl, rfl, rfl, rfl, rfl, rfl, rfl, rfl, nofun⟩
      · exact hof ⟨rfl, rfl, rfl, rfl, rfl, rfl, rfl, rfl, nofun⟩
    · exact hof (Keeps.refl s)
  | operationEnds =>
    unfold stepOperations
    dsimp only
    split
    · exact hof ⟨rfl, rfl, rfl, rfl, rfl, rfl, rfl, rfl, nofun⟩
    · exact hof (Keeps.refl s)
  | cancellationBegins =>
    unfold stepOperations
    dsimp only
    split
    · rename_i hop
      exact beginCancellation_spec h hop
    · exact hof (Keeps.refl s)
  | policyRefused =>
    unfold stepOperations
    dsimp only
    split
    · rename_i hop
      exact endCancellation_spec h hop _
    · exact hof (Keeps.refl s)
  | escalates step =>
    unfold stepOperations
    dsimp only
    split
    · rename_i hop
      split
      · exact hof (Keeps.operation hop _)
      · exact hof (Keeps.refl s)
    · exact hof (Keeps.refl s)
  | cancelReturns =>
    unfold stepOperations
    dsimp only
    split
    · rename_i hop
      exact hof (Keeps.operation hop _)
    · exact hof (Keeps.refl s)
  | cancelFails abandons =>
    unfold stepOperations
    dsimp only
    split
    · rename_i last owner hop
      obtain ⟨events, cancellationSteps, heq⟩ :=
        reportKillTree_eq (if abandons = true then { s with abandoned := s.abandoned ++ [last] } else s)
      rw [heq]
      cases abandons with
      | true => exact hof (Keeps.operation hop _)
      | false => exact hof (Keeps.operation hop _)
    · exact hof (Keeps.refl s)
  | cleanedUp =>
    unfold stepOperations
    dsimp only
    split
    · rename_i hop
      exact hof (Keeps.operation hop _)
    · exact hof (Keeps.refl s)
  | cancellationEnds =>
    unfold stepOperations
    dsimp only
    split
    · rename_i failed owner hop
      exact endCancellation_spec h hop failed
    · exact hof (Keeps.refl s)
  | abandonedEscalates i step =>
    unfold stepOperations
    dsimp only
    split
    · split
      · exact hof ⟨rfl, rfl, rfl, rfl, rfl, rfl, rfl, rfl, fun pc _ hop => ⟨pc, hop⟩⟩
      · exact hof (Keeps.refl s)
    · exact hof (Keeps.refl s)
  | abandonedEnds i => exact hof ⟨rfl, rfl, rfl, rfl, rfl, rfl, rfl, rfl, fun pc _ hop => ⟨pc, hop⟩⟩
  | _ => exact hof (Keeps.refl s)

/-- A disposal whose backend returns finds the session moved to a terminal state by the monitor, and its backend raises nothing. -/
def Undisturbed (s : SessionTasks) : SessionInput → Prop
  | .disposalEnds i outcome => ∀ failed, s.disposals[i]? = some (.disposing failed) →
      outcome ≠ .raised ∧ (outcome = .returned → s.monitor.terminal = true)
  | _ => True

/-- No task moves a session to the state that is kept for compatibility. -/
theorem Coherent.not_canceled (h : Coherent s) : s.state ≠ .canceled := by
  intro hs
  have hstate := h.state
  rw [hs] at hstate
  split at hstate
  · cases hstart : s.start <;> rw [hstart] at hstate <;> simp [StartPc.states] at hstate
  · cases hm : s.monitor with
    | disposing failed | collecting failed => rw [hm] at hstate; cases failed <;> simp [MonitorPc.states] at hstate
    | _ => rw [hm] at hstate; simp [MonitorPc.states] at hstate

/-- The last transition of a disposal is legal exactly when the monitor has moved the session to a terminal state. -/
theorem disposal_legal (h : Coherent s) (hlive : s.state ≠ .disposed) :
    .disposed ∈ s.state.transitions ↔ s.monitor.terminal = true := by
  constructor
  · intro hlegal
    cases hs : s.state with
    | completed => exact h.terminal (Or.inl hs)
    | failed => exact h.terminal (Or.inr (Or.inl hs))
    | canceled => exact absurd hs h.not_canceled
    | _ => rw [hs] at hlegal; simp [SessionState.transitions] at hlegal
  · intro hterminal
    rcases h.state_of_terminal hterminal with hs | hs | hs
    · rw [hs]
      decide
    · rw [hs]
      decide
    · exact absurd hs hlive

/-- The session ends, disposed of and taken out, by a disposal or by the pruning. -/
theorem Coherent.ends (h : Coherent s) (hterminal : s.monitor.terminal = true) (listed : Bool) (disposals : List DisposePc)
    (howner : ∀ pc i, s.operation = some (.cancellation pc (some i)) → disposals[i]? = some .cancelling) :
    Coherent { s with state := .disposed, registered := false, disposedListed := listed, disposals } := by
  have hpresent : s.monitor ≠ .absent := by
    rintro habsent
    rw [habsent] at hterminal
    cases hterminal
  refine ⟨?_, h.started, ?_, h.completedAt, fun _ => rfl, fun _ => rfl, howner⟩
  · change SessionState.disposed ∈ if s.monitor = .absent then s.start.states else s.monitor.states
    rw [if_neg hpresent]
    cases hm : s.monitor with
    | reporting | done => simp [MonitorPc.states]
    | _ => rw [hm] at hterminal; cases hterminal
  · exact iff_of_false nofun (fun hr => hr.2 rfl)

/-- The end of a disposal keeps the fit, and is a fault just where the monitor is not at its end. -/
theorem disposed_spec (h : Coherent s) {i : Nat} {failed : Bool} (hold : s.disposals[i]? = some (.disposing failed)) :
    Coherent (s.disposed i failed) ∧ (Faultless (s.disposed i failed) ↔ Faultless s ∧ s.monitor.terminal = true) := by
  have hpc : (if failed = true then DisposePc.raised true else .returned) ≠ .raised false := by cases failed <;> nofun
  have hfree : ∀ pc, s.operation = some (.cancellation pc (some i)) → False := fun pc hop => by
    cases hold.symm.trans (h.owner pc i hop)
  have howner : ∀ pc j, s.operation = some (.cancellation pc (some j)) →
      (s.disposals.set i (if failed = true then .raised true else .returned))[j]? = some .cancelling := by
    intro pc j hop
    have hne : i ≠ j := fun heq => hfree pc (heq ▸ hop)
    rw [List.getElem?_set_ne hne]
    exact h.owner pc j hop
  have hfaultless : ∀ state, Faultless
      { s with
        state, registered := false, disposedListed := true
        disposals := s.disposals.set i (if failed = true then .raised true else .returned) } ↔ Faultless s := fun state =>
    (faultless_setDisposal hold nofun).trans (and_iff_left hpc)
  unfold SessionTasks.disposed
  dsimp only
  split
  · rename_i hdisposed
    have hterminal := h.terminal (Or.inr (Or.inr hdisposed))
    have hends := h.ends hterminal true _ howner
    rw [← hdisposed] at hends
    exact ⟨hends, (hfaultless s.state).trans (and_iff_left hterminal).symm⟩
  · rename_i hlive
    unfold transition
    by_cases hlegal : .disposed ∈ s.state.transitions
    · have hterminal := (disposal_legal h hlive).1 hlegal
      rw [if_pos hlegal]
      exact ⟨h.ends hterminal true _ howner, (hfaultless .disposed).trans (and_iff_left hterminal).symm⟩
    · rw [if_neg hlegal]
      have hrefused : Coherent s.refused := ⟨h.state, h.started, h.registered, h.completedAt, h.listed, h.returned, h.owner⟩
      refine ⟨hrefused.setDisposal nofun hfree, iff_of_false (fun hf => ?_) (fun hf => hlegal ((disposal_legal h hlive).2 hf.2))⟩
      cases hf.1

/-- The disposals keep the fit, and are a fault just where the step that ends one is disturbed. -/
theorem stepDisposals_spec (h : Coherent s) (input : SessionInput) :
    Coherent (s.stepDisposals input) ∧ (Faultless (s.stepDisposals input) ↔ Faultless s ∧
      ∀ i outcome, input = .disposalEnds i outcome → Undisturbed s input) := by
  have hsame : ∀ {s'}, (∀ i outcome, input ≠ .disposalEnds i outcome) → Coherent s' ∧ (Faultless s' ↔ Faultless s) →
      Coherent s' ∧ (Faultless s' ↔ Faultless s ∧ ∀ i outcome, input = .disposalEnds i outcome → Undisturbed s input) :=
    fun hinput hs => ⟨hs.1, hs.2.trans (and_iff_left fun i outcome heq => absurd heq (hinput i outcome)).symm⟩
  cases input with
  | dispose =>
    refine hsame nofun ⟨⟨h.state, h.started, h.registered, h.completedAt, h.listed, fun hr => ?_, fun pc i hop => ?_⟩, ?_⟩
    · rcases List.mem_append.1 hr with hr | hr
      · exact h.returned hr
      · rw [List.mem_singleton] at hr
        split at hr
        · rename_i hlisted
          exact h.listed hlisted
        · split at hr
          · cases hr
          · split at hr <;> cases hr
    · have hcancelling := h.owner pc i hop
      change (s.disposals ++ [_])[i]? = _
      rw [List.getElem?_append_left (List.getElem?_eq_some_iff.1 hcancelling).1]
      exact hcancelling
    · unfold Faultless
      change s.invalid = false ∧ .raised false ∉ s.disposals ++ [_] ↔ _
      rw [List.mem_append, List.mem_singleton, not_or]
      refine and_congr_right fun _ => and_iff_left ?_
      split
      · nofun
      · split
        · nofun
        · split <;> nofun
  | disposeLocks i =>
    refine hsame nofun ?_
    unfold stepDisposals
    dsimp only
    split
    · rename_i hold
      split
      · rename_i hfree
        refine ⟨⟨h.state, h.started, h.registered, h.completedAt, h.listed, fun hr => ?_, ?_⟩,
          (faultless_setDisposal hold nofun).trans (and_iff_left nofun)⟩
        · rcases List.mem_or_eq_of_mem_set hr with hr | hr
          · exact h.returned hr
          · cases hr
        · rintro pc j ⟨⟩
          exact List.getElem?_set_self (List.getElem?_eq_some_iff.1 hold).1
      · exact ⟨h, Iff.rfl⟩
    · exact ⟨h, Iff.rfl⟩
  | waitEnds i =>
    refine hsame nofun ?_
    unfold stepDisposals
    dsimp only
    split
    · rename_i failed hold
      have hraised : s.monitor ≠ .raised := by
        intro hm
        have hfits := h.state_of_monitor (by rw [hm]; nofun)
        rw [hm] at hfits
        cases hfits
      rw [if_neg hraised]
      refine ⟨h.setDisposal nofun fun pc hop => ?_, (faultless_setDisposal hold nofun).trans (and_iff_left nofun)⟩
      cases hold.symm.trans (h.owner pc i hop)
    · exact ⟨h, Iff.rfl⟩
  | disposalEnds i outcome =>
    have hundisturbed : (∀ i' outcome', SessionInput.disposalEnds i outcome = .disposalEnds i' outcome' →
        Undisturbed s (.disposalEnds i outcome)) ↔ Undisturbed s (.disposalEnds i outcome) :=
      ⟨fun hu => hu i outcome rfl, fun hu _ _ _ => hu⟩
    rw [hundisturbed]
    unfold stepDisposals
    dsimp only
    split
    · rename_i failed hold
      have hfree : ∀ pc, s.operation = some (.cancellation pc (some i)) → False := fun pc hop => by
        cases hold.symm.trans (h.owner pc i hop)
      have hiff : Undisturbed s (.disposalEnds i outcome) ↔ outcome ≠ .raised ∧ (outcome = .returned → s.monitor.terminal = true) :=
        ⟨fun hu => hu failed hold, fun hu _ _ => hu⟩
      rw [hiff]
      cases outcome with
      | returned => simpa using disposed_spec h hold
      | timedOut => exact ⟨h.setDisposal nofun hfree, (faultless_setDisposal hold nofun).trans (by simp)⟩
      | raised => exact ⟨h.setDisposal nofun hfree, (faultless_setDisposal hold nofun).trans (by simp)⟩
    · rename_i hother
      exact ⟨h, (and_iff_left fun failed hold => absurd hold (hother failed)).symm⟩
  | prune =>
    refine hsame nofun ?_
    unfold stepDisposals
    dsimp only
    split
    · rename_i hprunes
      have hstate : s.state = .completed ∨ s.state = .failed := by
        cases hs : s.state <;> rw [hs] at hprunes <;> simp [SessionState.terminal] at hprunes ⊢
      have hterminal := h.terminal (hstate.imp_right Or.inl)
      have hmoved : s.transition .disposed = some { s with state := .disposed } := by
        rcases hstate with hs | hs <;> simp [transition, SessionState.transitions, hs]
      rw [hmoved]
      exact ⟨h.ends hterminal s.disposedListed s.disposals h.owner, Iff.rfl⟩
    · exact ⟨h, Iff.rfl⟩
  | _ => exact hsame nofun ⟨h, Iff.rfl⟩

/-! ## Runs -/

/-- One step keeps the invariant, and is without a fault exactly when it is undisturbed. -/
theorem Coherent.step (h : Coherent s) (input : SessionInput) :
    Coherent (s.step input) ∧ (Faultless (s.step input) ↔ Faultless s ∧ Undisturbed s input) := by
  have hother : ∀ {s'}, Undisturbed s input → Coherent s' ∧ (Faultless s' ↔ Faultless s) →
      Coherent s' ∧ (Faultless s' ↔ Faultless s ∧ Undisturbed s input) :=
    fun hu hs => ⟨hs.1, hs.2.trans (and_iff_left hu).symm⟩
  have hstart : Undisturbed s input → Coherent (s.stepStart input) ∧
      (Faultless (s.stepStart input) ↔ Faultless s ∧ Undisturbed s input) := fun hu => by
    rcases stepStart_spec h input with hk | hl
    · exact hother hu ⟨h.keeps hk, hk.faultless⟩
    · exact hother hu ⟨h.launches hl, hl.faultless⟩
  have hmonitor : Undisturbed s input → Coherent (s.stepMonitor input) ∧
      (Faultless (s.stepMonitor input) ↔ Faultless s ∧ Undisturbed s input) := fun hu => by
    rcases stepMonitor_spec h input with hs | hm
    · rw [hs]
      exact hother hu ⟨h, Iff.rfl⟩
    · exact hother hu ⟨h.monitors hm, hm.faultless⟩
  have hreaders : Undisturbed s input → Coherent (s.stepReaders input) ∧
      (Faultless (s.stepReaders input) ↔ Faultless s ∧ Undisturbed s input) := fun hu =>
    hother hu ⟨h.keeps (stepReaders_keeps s input), (stepReaders_keeps s input).faultless⟩
  have hoperations : Undisturbed s input → Coherent (s.stepOperations input) ∧
      (Faultless (s.stepOperations input) ↔ Faultless s ∧ Undisturbed s input) := fun hu =>
    hother hu (stepOperations_spec h input)
  have hdisposals : Coherent (s.stepDisposals input) ∧
      (Faultless (s.stepDisposals input) ↔ Faultless s ∧ Undisturbed s input) := by
    obtain ⟨hc, hf⟩ := stepDisposals_spec h input
    refine ⟨hc, hf.trans (and_congr_right fun _ => ⟨fun hu => ?_, fun hu _ _ _ => hu⟩)⟩
    cases input with
    | disposalEnds i outcome => exact hu i outcome rfl
    | _ => trivial
  cases input with
  | accept | launch | degraded | startEnds _ | startFails => exact hstart trivial
  | processExits | deadline | monitorFails | drained | drainTimesOut | drainKilled | backendDisposed _ | collected _
    | limitReported | completes => exact hmonitor trivial
  | reads _ _ | readerEnds _ => exact hreaders trivial
  | cancel | operate _ | operationEnds | cancellationBegins | policyRefused | escalates _ | cancelReturns | cancelFails _
    | cleanedUp | cancellationEnds | abandonedEscalates _ _ | abandonedEnds _ => exact hoperations trivial
  | dispose | disposeLocks _ | waitEnds _ | disposalEnds _ _ | prune => exact hdisposals

/-- In every run the invariant holds at the end, which is without a fault exactly when every step was undisturbed. -/
theorem Coherent.run (h : Coherent s) (inputs : List SessionInput) :
    Coherent (Machine.run SessionTasks.step s inputs) ∧
      (Faultless (Machine.run SessionTasks.step s inputs) ↔
        Faultless s ∧ Machine.Guarded SessionTasks.step Undisturbed s inputs) := by
  induction inputs generalizing s with
  | nil => exact ⟨h, (and_iff_left trivial).symm⟩
  | cons input inputs ih =>
    obtain ⟨hc, hf⟩ := h.step input
    obtain ⟨hc', hf'⟩ := ih hc
    exact ⟨hc', hf'.trans ((and_congr_left fun _ => hf).trans and_assoc)⟩

/-- A session that starts fits its tasks. -/
theorem coherent_start : Coherent {} :=
  ⟨by simp [StartPc.states], iff_of_false nofun (fun h => h rfl), by simp [StartPc.registers], nofun, nofun, nofun, nofun⟩

/-- In a run of the tasks of a session, no transition is refused, a disposal that returned has left the session disposed of and taken
out, and a disposal that raised did so with a `SharkRailError`, exactly when every disposal whose backend returned found the session
moved to a terminal state by its monitor, and no backend raised in a disposal. -/
theorem legal_iff (inputs : List SessionInput) :
    ((Machine.run step {} inputs).invalid = false ∧
        (∀ pc ∈ (Machine.run step {} inputs).disposals,
          (pc = .returned → (Machine.run step {} inputs).state = .disposed ∧ (Machine.run step {} inputs).registered = false) ∧
            pc ≠ .raised false)) ↔
      Machine.Guarded step Undisturbed {} inputs := by
  obtain ⟨hcoherent, hfaultless⟩ := coherent_start.run inputs
  have hstart : Faultless {} := ⟨rfl, nofun⟩
  rw [← and_iff_right hstart (b := Machine.Guarded step Undisturbed {} inputs), ← hfaultless]
  generalize Machine.run step {} inputs = s at *
  refine and_congr_right fun _ => ⟨fun h hraised => (h _ hraised).2 rfl, fun h pc hpc => ⟨?_, ?_⟩⟩
  · rintro rfl
    have hdisposed := hcoherent.returned hpc
    refine ⟨hdisposed, ?_⟩
    by_contra hregistered
    exact (hcoherent.registered.1 (by simpa using hregistered)).2 hdisposed
  · rintro rfl
    exact h hpc

/-- The disposal of a running session: its cancellation kills the process, and its wait for the monitor ends by its deadline, while the
output still drains. -/
theorem slow_drain_refuses_disposal :
    ¬∀ inputs : List SessionInput, (Machine.run step {} inputs).invalid = false := by
  intro h
  have hrun := h
    [.accept, .launch, .startEnds [.stdout], .dispose, .disposeLocks 0, .cancellationBegins, .escalates .terminate, .processExits,
      .escalates .killTree, .cancelReturns, .cancellationEnds, .waitEnds 0, .disposalEnds 0 .returned]
  revert hrun
  decide

end SessionTasks

end Runtime

end SharkRail
