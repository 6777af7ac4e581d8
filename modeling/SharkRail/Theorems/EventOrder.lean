import SharkRail.Theorems.Lifecycle

/-!
# The last event

The monitor emits `process.exited`, `session.drained` and `session.completed` in this order, and the last one once. The readers have
ended by then and the operations that need an active session are refused, so what can still emit is a cancellation that began before
(`completed_is_last`).
-/

namespace SharkRail

namespace Runtime

/-- An event of another kind than those that mark the end of the session. -/
def LifecycleEventType.ordinary : LifecycleEventType → Bool
  | .processExited | .sessionDrained | .sessionCompleted => false
  | _ => true

/-- The monitor has not seen the output drain. -/
def MonitorPc.beforeDrained : MonitorPc → Bool
  | .absent | .waiting | .killing | .exited => true
  | _ => false

/-- The monitor has gathered the readers. -/
def MonitorPc.afterReaders : MonitorPc → Bool
  | .limited | .reporting | .done => true
  | _ => false

namespace SessionTasks

variable {s s' : SessionTasks}

/-- One event may stand before another: nothing follows `session.completed`, and `process.exited` does not follow `session.drained`. -/
def MayPrecede (x y : LifecycleEventType) : Prop := x ≠ .sessionCompleted ∧ (y = .processExited → x ≠ .sessionDrained)

/-- No cancellation is under way that will emit. -/
def CancellationSettled (s : SessionTasks) : Prop :=
  s.abandoned = [] ∧ ∀ pc owner, s.operation = some (.cancellation pc owner) → pc.emits = false

structure Ordered (s : SessionTasks) : Prop where
  order : s.events.Pairwise MayPrecede
  completed : s.events.count .sessionCompleted = if s.monitor = .done then 1 else 0
  drained : s.monitor.beforeDrained = true → .sessionDrained ∉ s.events
  readers : s.monitor.afterReaders = true → s.readers = []
  settled : s.monitor = .done → CancellationSettled s

/-- There is no event of the completion before the monitor is at its end. -/
theorem Ordered.not_completed (h : Ordered s) (hmonitor : s.monitor ≠ .done) : .sessionCompleted ∉ s.events := by
  have hcount := h.completed
  rw [if_neg hmonitor] at hcount
  exact List.count_eq_zero.1 hcount

/-- Events are emitted before the session is completed: one that marks its end only after all it may follow. -/
theorem Ordered.pairwise_append (h : Ordered s) (hmonitor : s.monitor ≠ .done) {new : List LifecycleEventType}
    (hnew : new.Pairwise MayPrecede) (hexited : .processExited ∈ new → s.monitor.beforeDrained = true) :
    (s.events ++ new).Pairwise MayPrecede := by
  refine List.pairwise_append.2 ⟨h.order, hnew, fun x hx y hy => ⟨?_, ?_⟩⟩
  · rintro rfl
    exact h.not_completed hmonitor hx
  · rintro rfl rfl
    exact h.drained (hexited hy) hx

/-- Ordinary events may come in every order. -/
theorem pairwise_of_ordinary {new : List LifecycleEventType} (hnew : ∀ kind ∈ new, kind.ordinary = true) :
    new.Pairwise MayPrecede := by
  refine List.Pairwise.imp_of_mem (R := fun _ _ => True) (fun {x y} hx hy _ => ⟨?_, ?_⟩) (List.pairwise_of_forall fun _ _ => trivial)
  · rintro rfl
    cases hnew _ hx
  · rintro rfl
    cases hnew _ hy

/-! ## Steps beside the monitor -/

/-- A step of another task than the monitor: ordinary events are emitted, none when the session is completed. -/
structure Beside (s s' : SessionTasks) : Prop where
  monitor : s'.monitor = s.monitor
  readers : s.readers = [] → s'.readers = []
  events : s.monitor ≠ .done → ∃ new, s'.events = s.events ++ new ∧ ∀ kind ∈ new, kind.ordinary = true
  completed : s.monitor = .done → s'.events = s.events ∧ CancellationSettled s'

/-- A step beside the completion keeps the order. -/
theorem Ordered.beside (h : Ordered s) (hb : Beside s s') : Ordered s' := by
  by_cases hdone : s.monitor = .done
  · obtain ⟨hevents, hsettled⟩ := hb.completed hdone
    refine ⟨?_, ?_, ?_, ?_, fun _ => hsettled⟩
    · rw [hevents]
      exact h.order
    · rw [hevents, hb.monitor]
      exact h.completed
    · rw [hevents, hb.monitor]
      exact h.drained
    · rw [hb.monitor]
      exact fun hr => hb.readers (h.readers hr)
  · obtain ⟨new, hevents, hnew⟩ := hb.events hdone
    refine ⟨?_, ?_, ?_, ?_, fun hd => absurd (hb.monitor ▸ hd) hdone⟩
    · rw [hevents]
      refine h.pairwise_append hdone (pairwise_of_ordinary hnew) fun hexited => ?_
      cases hnew _ hexited
    · rw [hevents, hb.monitor, List.count_append, h.completed, if_neg hdone, Nat.zero_add, List.count_eq_zero]
      intro hcompleted
      cases hnew _ hcompleted
    · rw [hevents, hb.monitor, List.mem_append, not_or]
      refine fun hbefore => ⟨h.drained hbefore, fun hd => ?_⟩
      cases hnew _ hd
    · rw [hb.monitor]
      exact fun hr => hb.readers (h.readers hr)

/-- Nothing happens. -/
theorem Beside.refl (h : Ordered s) : Beside s s :=
  ⟨rfl, fun hr => hr, fun _ => ⟨[], (List.append_nil _).symm, nofun⟩, fun hd => ⟨rfl, h.settled hd⟩⟩

/-- The report of the killed tree adds ordinary events. -/
theorem reportKillTree_events (s : SessionTasks) :
    ∃ new, s.reportKillTree.events = s.events ++ new ∧ ∀ kind ∈ new, kind.ordinary = true := by
  unfold reportKillTree
  split
  · exact ⟨[], (List.append_nil _).symm, nofun⟩
  · exact ⟨[.cancellationStep], rfl, by simp [LifecycleEventType.ordinary]⟩

/-- A step of the readers is beside the completion. -/
theorem stepReaders_beside (h : Ordered s) (input : SessionInput) : Beside s (s.stepReaders input) := by
  cases input with
  | reads stream kind =>
    unfold stepReaders
    dsimp only
    split
    · rename_i hreads
      refine ⟨rfl, fun hr => hr, fun _ => ⟨[kind], rfl, ?_⟩, fun hd => ?_⟩
      · rintro _ (_ | ⟨_, ⟨⟩⟩)
        have hkind := hreads.2
        cases stream <;> simp only [readerEvents, List.mem_cons, List.not_mem_nil, or_false] at hkind <;>
          rcases hkind with rfl | rfl | rfl <;> rfl
      · have hreaders := h.readers (by rw [hd]; rfl)
        rw [hreaders] at hreads
        cases hreads.1
    · exact Beside.refl h
  | readerEnds stream =>
    refine ⟨rfl, fun hr => ?_, fun _ => ⟨[], (List.append_nil _).symm, nofun⟩, fun hd => ⟨rfl, h.settled hd⟩⟩
    change s.readers.filter _ = []
    rw [hr]
    rfl
  | _ => exact Beside.refl h

/-- A step that emits nothing and does not begin a cancellation. -/
theorem Beside.silent (hmonitor : s'.monitor = s.monitor) (hreaders : s'.readers = s.readers) (hevents : s'.events = s.events)
    (hsettled : s.monitor = .done → CancellationSettled s') : Beside s s' :=
  ⟨hmonitor, fun hr => hreaders.trans hr, fun _ => ⟨[], hevents.trans (List.append_nil _).symm, nofun⟩,
    fun hd => ⟨hevents, hsettled hd⟩⟩

/-- A cancellation that will emit, or an abandoned one, is gone when the session is completed. -/
theorem Ordered.not_done_of_emits (h : Ordered s) {pc : CancelPc} {owner : Option Nat}
    (hop : s.operation = some (.cancellation pc owner)) (hemits : pc.emits = true) : s.monitor ≠ .done := by
  intro hd
  have hno := (h.settled hd).2 pc owner hop
  rw [hemits] at hno
  cases hno

/-- The monitor is not at its end where an escalation was abandoned. -/
theorem Ordered.not_done_of_abandoned (h : Ordered s) {i : Nat} {last : Option CancellationStep}
    (hi : s.abandoned[i]? = some last) : s.monitor ≠ .done := by
  intro hd
  rw [(h.settled hd).1] at hi
  cases hi

/-- A step of a cancellation that emits ordinary events. -/
theorem Beside.emitting (hdone : s.monitor ≠ .done) (hmonitor : s'.monitor = s.monitor) (hreaders : s'.readers = s.readers)
    (hevents : ∃ new, s'.events = s.events ++ new ∧ ∀ kind ∈ new, kind.ordinary = true) : Beside s s' :=
  ⟨hmonitor, fun hr => hreaders.trans hr, fun _ => hevents, fun hd => absurd hd hdone⟩

/-- The end of an escalation is beside the completion. -/
theorem endCancellation_beside (h : Ordered s) (failed : Bool) (owner : Option Nat) : Beside s (s.endCancellation failed owner) := by
  unfold endCancellation
  have hsettled : s.monitor = .done → CancellationSettled { s with operation := none } := fun hd => ⟨(h.settled hd).1, nofun⟩
  cases owner with
  | none => exact Beside.silent rfl rfl rfl hsettled
  | some i => exact Beside.silent rfl rfl rfl hsettled

/-- The begin of an escalation is beside the completion. -/
theorem beginCancellation_beside (hc : Coherent s) (h : Ordered s) (owner : Option Nat) : Beside s (s.beginCancellation owner) := by
  unfold beginCancellation
  split
  · exact endCancellation_beside h false owner
  · split
    · exact endCancellation_beside h true owner
    · split
      · exact endCancellation_beside h false owner
      · rename_i hactive
        have hnotDone : s.monitor = .done → False := fun hd => by
          have hterminal := hc.not_terminal (by simpa using hactive)
          rw [hd] at hterminal
          cases hterminal
        dsimp only
        split
        · split
          · rename_i s₁ hmoved
            obtain rfl : { s with state := .cancelling } = s₁ := by
              unfold transition at hmoved
              split at hmoved
              · exact Option.some.inj hmoved
              · cases hmoved
            exact Beside.silent rfl rfl rfl fun hd => absurd hd hnotDone
          · have hrefused : Ordered s.refused := ⟨h.order, h.completed, h.drained, h.readers, h.settled⟩
            have hends := endCancellation_beside hrefused true owner
            exact ⟨hends.monitor, hends.readers, hends.events, hends.completed⟩
        · exact Beside.silent rfl rfl rfl fun hd => absurd hd hnotDone

/-- A step of the task that holds the lock is beside the completion. -/
theorem stepOperations_beside (hc : Coherent s) (h : Ordered s) (input : SessionInput) : Beside s (s.stepOperations input) := by
  cases input with
  | cancel =>
    unfold stepOperations
    dsimp only
    split
    · refine Beside.silent rfl rfl rfl fun hd => ⟨(h.settled hd).1, ?_⟩
      rintro pc owner ⟨⟩
      rfl
    · exact Beside.refl h
  | operate kind =>
    unfold stepOperations
    dsimp only
    split
    · rename_i hoperates
      have hnotDone : s.monitor ≠ .done := fun hd => by
        have hterminal := hc.not_terminal hoperates.2.2.1
        rw [hd] at hterminal
        cases hterminal
      split
      · rename_i kind
        refine Beside.emitting hnotDone rfl rfl ⟨[kind], rfl, ?_⟩
        rintro _ (_ | ⟨_, ⟨⟩⟩)
        have hkind := hoperates.2.2.2
        simp only [List.mem_cons, reduceCtorEq, Option.some.injEq, List.not_mem_nil, or_false, false_or] at hkind
        rcases hkind with rfl | rfl <;> rfl
      · exact Beside.silent rfl rfl rfl fun hd => absurd hd hnotDone
    · exact Beside.refl h
  | operationEnds =>
    unfold stepOperations
    dsimp only
    split
    · exact Beside.silent rfl rfl rfl fun hd => ⟨(h.settled hd).1, nofun⟩
    · exact Beside.refl h
  | cancellationBegins =>
    unfold stepOperations
    dsimp only
    split
    · exact beginCancellation_beside hc h _
    · exact Beside.refl h
  | policyRefused =>
    unfold stepOperations
    dsimp only
    split
    · exact endCancellation_beside h _ _
    · exact Beside.refl h
  | escalates step =>
    unfold stepOperations
    dsimp only
    split
    · rename_i hop
      split
      · exact Beside.emitting (h.not_done_of_emits hop rfl) rfl rfl ⟨[.cancellationStep], rfl, by simp [LifecycleEventType.ordinary]⟩
      · exact Beside.refl h
    · exact Beside.refl h
  | cancelReturns =>
    unfold stepOperations
    dsimp only
    split
    · rename_i hop
      exact Beside.emitting (h.not_done_of_emits hop rfl) rfl rfl
        ⟨[.cancellationCompleted], rfl, by simp [LifecycleEventType.ordinary]⟩
    · exact Beside.refl h
  | cancelFails abandons =>
    unfold stepOperations
    dsimp only
    split
    · rename_i last owner hop
      have hdone := h.not_done_of_emits hop rfl
      have hkilled := reportKillTree_events (if abandons = true then { s with abandoned := s.abandoned ++ [last] } else s)
      obtain ⟨events, cancellationSteps, heq⟩ :=
        reportKillTree_eq (if abandons = true then { s with abandoned := s.abandoned ++ [last] } else s)
      rw [heq] at hkilled ⊢
      cases abandons with
      | true => exact Beside.emitting hdone rfl rfl hkilled
      | false => exact Beside.emitting hdone rfl rfl hkilled
    · exact Beside.refl h
  | cleanedUp =>
    unfold stepOperations
    dsimp only
    split
    · rename_i hop
      exact Beside.emitting (h.not_done_of_emits hop rfl) rfl rfl
        ⟨[.cancellationCompleted], rfl, by simp [LifecycleEventType.ordinary]⟩
    · exact Beside.refl h
  | cancellationEnds =>
    unfold stepOperations
    dsimp only
    split
    · exact endCancellation_beside h _ _
    · exact Beside.refl h
  | abandonedEscalates i step =>
    unfold stepOperations
    dsimp only
    split
    · rename_i hi
      split
      · exact Beside.emitting (h.not_done_of_abandoned hi) rfl rfl ⟨[.cancellationStep], rfl, by simp [LifecycleEventType.ordinary]⟩
      · exact Beside.refl h
    · exact Beside.refl h
  | abandonedEnds i =>
    refine Beside.silent rfl rfl rfl fun hd => ⟨?_, (h.settled hd).2⟩
    change s.abandoned.eraseIdx i = []
    rw [(h.settled hd).1]
    rfl
  | _ => exact Beside.refl h

/-- A step of the disposals is beside the completion. -/
theorem stepDisposals_beside (h : Ordered s) (input : SessionInput) : Beside s (s.stepDisposals input) := by
  have hsilent : ∀ {s'}, s'.monitor = s.monitor → s'.readers = s.readers → s'.events = s.events → s'.abandoned = s.abandoned →
      s'.operation = s.operation → Beside s s' := fun hm hr he ha ho =>
    Beside.silent hm hr he fun hd => ⟨ha.trans (h.settled hd).1, fun pc owner hop => (h.settled hd).2 pc owner (ho ▸ hop)⟩
  cases input with
  | dispose => exact hsilent rfl rfl rfl rfl rfl
  | disposeLocks i =>
    unfold stepDisposals
    dsimp only
    split
    · split
      · refine Beside.silent rfl rfl rfl fun hd => ⟨(h.settled hd).1, ?_⟩
        rintro pc owner ⟨⟩
        rfl
      · exact Beside.refl h
    · exact Beside.refl h
  | waitEnds i =>
    unfold stepDisposals
    dsimp only
    split
    · exact hsilent rfl rfl rfl rfl rfl
    · exact Beside.refl h
  | disposalEnds i outcome =>
    unfold stepDisposals
    dsimp only
    split
    · cases outcome with
      | returned =>
        unfold SessionTasks.disposed
        dsimp only
        split
        · exact hsilent rfl rfl rfl rfl rfl
        · split
          · exact hsilent rfl rfl rfl rfl rfl
          · exact hsilent rfl rfl rfl rfl rfl
      | timedOut => exact hsilent rfl rfl rfl rfl rfl
      | raised => exact hsilent rfl rfl rfl rfl rfl
    · exact Beside.refl h
  | prune =>
    unfold stepDisposals transition
    dsimp only
    split
    · split
      · rename_i s₁ hmoved
        split at hmoved
        · cases hmoved
          exact hsilent rfl rfl rfl rfl rfl
        · cases hmoved
      · exact hsilent rfl rfl rfl rfl rfl
    · exact Beside.refl h
  | _ => exact Beside.refl h

/-! ## Steps of the start and of the monitor -/

/-- The monitor is created, or goes on before it has completed the session. -/
theorem Ordered.advance (h : Ordered s) (hdone : s.monitor ≠ .done) (new : List LifecycleEventType)
    (hevents : s'.events = s.events ++ new) (hnew : new.Pairwise MayPrecede)
    (hexited : .processExited ∈ new → s.monitor.beforeDrained = true)
    (hcompleted : new.count .sessionCompleted = if s'.monitor = .done then 1 else 0)
    (hdrained : s'.monitor.beforeDrained = true → s.monitor.beforeDrained = true ∧ .sessionDrained ∉ new)
    (hreaders : s'.monitor.afterReaders = true → s'.readers = []) (hsettled : s'.monitor = .done → CancellationSettled s') :
    Ordered s' := by
  refine ⟨?_, ?_, fun hbefore => ?_, hreaders, hsettled⟩
  · rw [hevents]
    exact h.pairwise_append hdone hnew hexited
  · rw [hevents, List.count_append, h.completed, if_neg hdone, Nat.zero_add, hcompleted]
  · obtain ⟨hbefore', hnot⟩ := hdrained hbefore
    rw [hevents, List.mem_append, not_or]
    exact ⟨h.drained hbefore', hnot⟩

/-- A step of the start keeps the order. -/
theorem stepStart_ordered (hc : Coherent s) (h : Ordered s) (input : SessionInput) : Ordered (s.stepStart input) := by
  have habsent : s.start ≠ .done → s.monitor ≠ .done := fun hstart => by
    rw [(hc.state_of_start hstart).1]
    nofun
  cases input with
  | accept =>
    unfold stepStart
    dsimp only
    split
    · rename_i hstart
      have hnotDone := habsent (by rw [hstart]; nofun)
      unfold accept transition
      split
      · rename_i s₁ hmoved
        split at hmoved
        · cases hmoved
          exact h.beside (Beside.emitting hnotDone rfl rfl ⟨[.accepted], rfl, by simp [LifecycleEventType.ordinary]⟩)
        · cases hmoved
      · exact h.beside (Beside.silent rfl rfl rfl fun hd => absurd hd hnotDone)
    · exact h
  | launch =>
    unfold stepStart
    dsimp only
    split
    · rename_i hstart
      have hnotDone := habsent (by rw [hstart]; nofun)
      have hrefused : Ordered s.refused.abandonStart := h.beside (Beside.silent rfl rfl rfl fun hd => absurd hd hnotDone)
      unfold launch transition
      split
      · rename_i s₁ hmoved
        split at hmoved
        · cases hmoved
          exact h.beside (Beside.emitting hnotDone rfl rfl ⟨[.processStarted], rfl, by simp [LifecycleEventType.ordinary]⟩)
        · cases hmoved
      · exact hrefused
    · exact h
  | degraded =>
    unfold stepStart
    dsimp only
    split
    · rename_i hstart
      exact h.beside (Beside.emitting (habsent (by rw [hstart]; nofun)) rfl rfl
        ⟨[.capabilityDegraded], rfl, by simp [LifecycleEventType.ordinary]⟩)
    · exact h
  | startEnds readers =>
    unfold stepStart
    dsimp only
    split
    · rename_i hstart
      have habsent' := (hc.state_of_start (by rw [hstart]; nofun)).1
      exact h.advance (habsent (by rw [hstart]; nofun)) [] (List.append_nil _).symm List.Pairwise.nil nofun rfl
        (fun _ => ⟨by rw [habsent']; rfl, nofun⟩) nofun nofun
    · exact h
  | startFails =>
    unfold stepStart
    dsimp only
    split
    · rename_i hstart
      exact h.beside (Beside.silent rfl rfl rfl fun hd => absurd hd (habsent (by rw [hstart]; nofun)))
    · rename_i hstart
      exact h.beside (Beside.silent rfl rfl rfl fun hd => absurd hd (habsent (by rw [hstart]; nofun)))
    · exact h
  | _ => exact h

/-- When the monitor emits the last event, no cancellation is under way that will emit. -/
def Settled (s : SessionTasks) : SessionInput → Prop
  | .collected resourceHit =>
    s.monitor = .collecting false → s.readers = [] → resourceHit = false → CancellationSettled s
  | .completes => s.monitor = .reporting → CancellationSettled s
  | _ => True

/-- The monitor goes on with ordinary events, and has not completed the session. -/
theorem Ordered.goesOn (h : Ordered s) (hdone : s.monitor ≠ .done) (hdone' : s'.monitor ≠ .done)
    (hevents : ∃ new, s'.events = s.events ++ new ∧ ∀ kind ∈ new, kind.ordinary = true)
    (hdrained : s'.monitor.beforeDrained = true → s.monitor.beforeDrained = true)
    (hreaders : s'.monitor.afterReaders = true → s'.readers = []) : Ordered s' := by
  obtain ⟨new, hevents, hnew⟩ := hevents
  refine h.advance hdone new hevents (pairwise_of_ordinary hnew) (fun he => ?_) ?_ (fun hb => ⟨hdrained hb, fun hd => ?_⟩) hreaders
    fun hd => absurd hd hdone'
  · cases hnew _ he
  · rw [if_neg hdone', List.count_eq_zero]
    intro he
    cases hnew _ he
  · cases hnew _ hd

/-- The session is completed. -/
theorem Ordered.completes (h : Ordered s) (hdone : s.monitor ≠ .done) (hreaders : s.readers = []) (hsettled : CancellationSettled s)
    (state : SessionState) : Ordered { s with state }.completeSession :=
  h.advance hdone [.sessionCompleted] rfl (List.pairwise_singleton ..) (by simp) rfl nofun (fun _ => hreaders)
    fun _ => hsettled

/-- The exit of the process keeps the order. -/
theorem processExited_ordered (hc : Coherent s) (h : Ordered s) (hmonitor : s.monitor = .waiting ∨ s.monitor = .killing) :
    Ordered s.processExited := by
  rw [(processExited_eq hc hmonitor).2]
  refine h.advance ?_ [.processExited] rfl (List.pairwise_singleton ..) (fun _ => ?_) rfl (fun _ => ⟨?_, by simp⟩) nofun nofun
  · rcases hmonitor with hm | hm <;> rw [hm] <;> nofun
  · rcases hmonitor with hm | hm <;> rw [hm] <;> rfl
  · rcases hmonitor with hm | hm <;> rw [hm] <;> rfl

/-- An error that the monitor reports keeps the order, where no reader is left. -/
theorem reportError_ordered (hc : Coherent s) (h : Ordered s) (hmonitor : s.monitor = .collecting true ∨ s.monitor = .limited)
    (hreaders : s.readers = []) : Ordered s.reportError := by
  rw [(reportError_eq hc hmonitor).2]
  refine h.goesOn ?_ nofun ⟨[.sessionError], rfl, by simp [LifecycleEventType.ordinary]⟩ nofun fun _ => hreaders
  rcases hmonitor with hm | hm <;> rw [hm] <;> nofun

/-- A step of the monitor keeps the order, where it completes a session that is settled. -/
theorem stepMonitor_ordered (hc : Coherent s) (h : Ordered s) {input : SessionInput} (hsettled : Settled s input) :
    Ordered (s.stepMonitor input) := by
  have hsilent : ∀ {pc}, s.monitor ≠ .done → pc ≠ .done → (pc.beforeDrained = true → s.monitor.beforeDrained = true) →
      pc.afterReaders = false → Ordered { s with monitor := pc } := fun hdone hdone' hdrained hreaders =>
    h.goesOn hdone hdone' ⟨[], (List.append_nil _).symm, nofun⟩ hdrained fun hr => by
      dsimp only at hr
      rw [hreaders] at hr
      cases hr
  cases input with
  | processExits =>
    unfold stepMonitor
    dsimp only
    split
    · rename_i hm
      exact processExited_ordered hc h (Or.inl hm)
    · rename_i hm
      exact processExited_ordered hc h (Or.inr hm)
    · exact h
  | deadline =>
    unfold stepMonitor
    dsimp only
    split
    · rename_i hm
      refine h.goesOn (by rw [hm]; nofun) nofun (reportKillTree_events s) (fun _ => ?_) nofun
      rw [hm]
      rfl
    · exact h
  | monitorFails =>
    unfold stepMonitor
    dsimp only
    split
    all_goals first
      | exact h
      | (rename_i hm; exact hsilent (by rw [hm]; nofun) nofun nofun rfl)
  | drained =>
    unfold stepMonitor
    dsimp only
    split
    · rename_i hm
      refine h.advance ?_ [.sessionDrained] rfl (List.pairwise_singleton ..) (by simp) rfl nofun nofun nofun
      rw [hm.1]
      nofun
    · exact h
  | drainTimesOut =>
    unfold stepMonitor
    dsimp only
    split
    · rename_i hm
      obtain ⟨new, hnew, hkinds⟩ := reportKillTree_events (s.emit .resourceLimitHit)
      refine h.goesOn (by rw [hm]; nofun) nofun ⟨.resourceLimitHit :: new, ?_, ?_⟩ nofun nofun
      · change (s.emit .resourceLimitHit).reportKillTree.events = _
        rw [hnew]
        exact (List.append_cons ..).symm
      · rintro kind (_ | ⟨_, hkind⟩)
        · rfl
        · exact hkinds kind hkind
    · exact h
  | drainKilled =>
    unfold stepMonitor
    dsimp only
    split
    · rename_i hm
      exact hsilent (by rw [hm]; nofun) nofun nofun rfl
    · exact h
  | backendDisposed outcome =>
    unfold stepMonitor
    dsimp only
    split
    · rename_i hm
      exact hsilent (by rw [hm]; nofun) nofun nofun rfl
    · exact h
  | collected resourceHit =>
    unfold stepMonitor
    dsimp only
    split
    · rename_i failed hm
      split
      · rename_i hreaders
        cases failed with
        | true => exact reportError_ordered hc h (Or.inl hm) hreaders
        | false =>
          cases resourceHit with
          | true =>
            exact h.goesOn (by rw [hm]; nofun) nofun ⟨[.resourceLimitHit], rfl, by simp [LifecycleEventType.ordinary]⟩ nofun
              fun _ => hreaders
          | false =>
            rw [(afterReaders_eq hc hm).2]
            exact h.completes (by rw [hm]; nofun) hreaders (hsettled hm hreaders rfl) .completed
      · exact h
    · exact h
  | limitReported =>
    unfold stepMonitor
    dsimp only
    split
    · rename_i hm
      exact reportError_ordered hc h (Or.inr hm) (h.readers (by rw [hm]; rfl))
    · exact h
  | completes =>
    unfold stepMonitor
    dsimp only
    split
    · rename_i hm
      exact h.completes (by rw [hm]; nofun) (h.readers (by rw [hm]; rfl)) (hsettled hm) s.state
    · exact h
  | _ => exact h

/-! ## Runs -/

/-- Every step keeps the order, where a session that completes is settled. -/
theorem Ordered.step (hc : Coherent s) (h : Ordered s) {input : SessionInput} (hsettled : Settled s input) :
    Ordered (s.step input) := by
  have hstart := stepStart_ordered hc h input
  have hmonitor := stepMonitor_ordered hc h hsettled
  have hreaders := h.beside (stepReaders_beside h input)
  have hoperations := h.beside (stepOperations_beside hc h input)
  have hdisposals := h.beside (stepDisposals_beside h input)
  cases input with
  | accept | launch | degraded | startEnds _ | startFails => exact hstart
  | processExits | deadline | monitorFails | drained | drainTimesOut | drainKilled | backendDisposed _ | collected _
    | limitReported | completes => exact hmonitor
  | reads _ _ | readerEnds _ => exact hreaders
  | cancel | operate _ | operationEnds | cancellationBegins | policyRefused | escalates _ | cancelReturns | cancelFails _
    | cleanedUp | cancellationEnds | abandonedEscalates _ _ | abandonedEnds _ => exact hoperations
  | dispose | disposeLocks _ | waitEnds _ | disposalEnds _ _ | prune => exact hdisposals

/-- In a run that completes the session with no cancellation under way, `session.completed` is emitted once, when the monitor ends,
and is the last event; `process.exited` comes before `session.drained`. -/
theorem completed_is_last {inputs : List SessionInput} (hsettled : Machine.Guarded SessionTasks.step Settled {} inputs) :
    (Machine.run SessionTasks.step {} inputs).events.count .sessionCompleted =
        (if (Machine.run SessionTasks.step {} inputs).monitor = .done then 1 else 0) ∧
      (Machine.run SessionTasks.step {} inputs).events.Pairwise fun x y =>
        x ≠ .sessionCompleted ∧ (y = .processExited → x ≠ .sessionDrained) := by
  have hstart : Coherent {} ∧ Ordered {} :=
    ⟨coherent_start, List.Pairwise.nil, rfl, nofun, nofun, nofun⟩
  have hrun := Machine.run_induct_of_guarded (P := fun s => Coherent s ∧ Ordered s)
    (fun s input hs hg => ⟨(hs.1.step input).1, hs.2.step hs.1 hg⟩) hsettled hstart
  exact ⟨hrun.2.completed, hrun.2.order⟩

namespace Sample

/-- A command is cancelled and exits by itself; the monitor completes the session after the cancellation has ended. -/
def cancelled : List SessionInput :=
  [.accept, .launch, .startEnds [.stdout], .cancel, .cancellationBegins, .escalates .interrupt, .processExits, .escalates .killTree,
    .cancelReturns, .cancellationEnds, .readerEnds .stdout, .drained, .backendDisposed .returned, .collected false]

/-- The same command; the monitor completes the session while the tree is killed. -/
def overtaken : List SessionInput :=
  [.accept, .launch, .startEnds [.stdout], .cancel, .cancellationBegins, .escalates .interrupt, .processExits, .escalates .killTree,
    .readerEnds .stdout, .drained, .backendDisposed .returned, .collected false, .cancelReturns]

end Sample

/-- A run that is cancelled completes once. -/
theorem completed_is_last_sample :
    (Machine.run SessionTasks.step {} Sample.cancelled).events.count .sessionCompleted = 1 := by
  have hsettled : Machine.Guarded SessionTasks.step Settled {} Sample.cancelled :=
    ⟨trivial, trivial, trivial, trivial, trivial, trivial, trivial, trivial, trivial, trivial, trivial, trivial, trivial,
      fun _ _ _ => ⟨rfl, nofun⟩, trivial⟩
  rw [(completed_is_last hsettled).1]
  decide

/-- The cancellation reports its end after the last event. -/
theorem cancellation_after_completed :
    ¬∀ inputs : List SessionInput, (Machine.run SessionTasks.step {} inputs).events.Pairwise fun x _ => x ≠ .sessionCompleted := by
  intro h
  have hrun := h Sample.overtaken
  revert hrun
  decide

end SessionTasks

end Runtime

end SharkRail
