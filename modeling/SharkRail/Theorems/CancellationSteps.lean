import Mathlib
import SharkRail.Theorems.EventOrder

/-!
# The steps of a cancellation

`session.cancellation_steps` is written by the escalation of a cancellation, by the monitor when a deadline passes or the output does
not drain, and by the cleanup after a failed escalation. The last two ask whether the tree was killed; `report_step` does not. So the
steps are an escalation exactly while nothing is reported after the tree was killed, and a repeated cancel returns what the first one
did exactly when the first one took a step (`escalation_clean_iff`).
-/

namespace SharkRail

namespace Runtime

/-- The steps of a whole escalation, in order. -/
def CancellationStep.escalation : List CancellationStep := [.interrupt, .terminate, .killTree]

/-- Steps of one escalation: each at most once, in its order. -/
def IsEscalation (steps : List CancellationStep) : Prop := steps.Nodup ∧ steps.Sublist CancellationStep.escalation

instance : DecidablePred IsEscalation := fun steps => inferInstanceAs (Decidable (steps.Nodup ∧ steps.Sublist _))

/-- The steps of an escalation are one of the eight sublists of the whole one. -/
theorem IsEscalation.mem_sublists {steps : List CancellationStep} (h : IsEscalation steps) :
    steps ∈ CancellationStep.escalation.sublists := List.mem_sublists.2 h.2

/-- The next step of `cancel_process` goes on with an escalation whose tree is alive. -/
theorem IsEscalation.append {steps : List CancellationStep} {step : CancellationStep} (h : IsEscalation steps)
    (halive : .killTree ∉ steps) (hnext : step ∈ CancellationStep.following steps.getLast?) : IsEscalation (steps ++ [step]) := by
  have hall : ∀ steps ∈ CancellationStep.escalation.sublists, .killTree ∉ steps →
      ∀ step ∈ CancellationStep.following steps.getLast?, IsEscalation (steps ++ [step]) := by decide
  exact hall steps h.mem_sublists halive step hnext

/-- The tree is killed at the end of any escalation. -/
theorem IsEscalation.kill {steps : List CancellationStep} (h : IsEscalation steps) (halive : .killTree ∉ steps) :
    IsEscalation (steps ++ [.killTree]) := by
  have hall : ∀ steps ∈ CancellationStep.escalation.sublists, .killTree ∉ steps → IsEscalation (steps ++ [.killTree]) := by decide
  exact hall steps h.mem_sublists halive

/-- No step follows the killing of the tree. -/
theorem IsEscalation.alive {steps : List CancellationStep} {step : CancellationStep} (h : IsEscalation (steps ++ [step])) :
    .killTree ∉ steps := by
  have hall : ∀ steps ∈ CancellationStep.escalation.sublists, .killTree ∉ steps.dropLast := by decide
  have hlast := hall _ h.mem_sublists
  rwa [List.dropLast_concat] at hlast

namespace SessionTasks

/-! ## What a cancellation returns -/

/-- The step begins an escalation: `cancel_process` is called. -/
def begins (s : SessionTasks) : SessionInput → Bool
  | .cancellationBegins =>
    match s.operation with
    | some (.cancellation .created _) => s.cancellationSteps = [] ∧ !s.state.terminal ∧ s.registered ∧ s.state.active
    | _ => false
  | _ => false

/-- What a call of `cancel` returns at a step that ends it: the steps, or `none` where it raises. -/
def cancelAnswer (s : SessionTasks) : SessionInput → Option (Option (List CancellationStep))
  | .cancellationBegins =>
    match s.operation with
    | some (.cancellation .created _) =>
      if s.cancellationSteps ≠ [] ∨ s.state.terminal then some (some s.cancellationSteps)
      else if !s.registered || !s.state.active then some none
      else none
    | _ => none
  | .policyRefused =>
    match s.operation with
    | some (.cancellation .created none) =>
      if s.cancellationSteps ≠ [] ∨ s.state.terminal then some (some s.cancellationSteps) else some none
    | _ => none
  | .cancellationEnds =>
    match s.operation with
    | some (.cancellation (.finishing failed) _) => some (if failed then none else some s.cancellationSteps)
    | _ => none
  | _ => none

/-- A call of `cancel` that holds the lock of operations starts in this step. -/
def startsCancel (s : SessionTasks) : SessionInput → Bool
  | .cancellationBegins => match s.operation with | some (.cancellation .created _) => true | _ => false
  | .policyRefused => match s.operation with | some (.cancellation .created none) => true | _ => false
  | _ => false

/-! ## Who reports steps -/

/-- The steps of an escalation that goes on are those it has reported, and one that was abandoned has had its tree killed. -/
structure Escalating (s : SessionTasks) : Prop where
  steps : IsEscalation s.cancellationSteps
  last : ∀ last owner, s.operation = some (.cancellation (.escalating last) owner) → .killTree ∉ s.cancellationSteps →
    s.cancellationSteps.getLast? = last
  abandoned : s.abandoned ≠ [] → .killTree ∈ s.cancellationSteps

/-- A step that reports none but that the tree is killed, once, and begins no escalation. -/
structure Aside (s s' : SessionTasks) : Prop where
  steps : s'.cancellationSteps = s.cancellationSteps ∨
    .killTree ∉ s.cancellationSteps ∧ s'.cancellationSteps = s.cancellationSteps ++ [.killTree]
  operation : ∀ last owner, s'.operation = some (.cancellation (.escalating last) owner) →
    s.operation = some (.cancellation (.escalating last) owner)
  abandoned : s'.abandoned ≠ [] → s.abandoned ≠ []

variable {s s' : SessionTasks}

/-- Nothing happens. -/
theorem Aside.refl (s : SessionTasks) : Aside s s := ⟨Or.inl rfl, fun _ _ h => h, id⟩

/-- Nothing of what an escalation reads or reports changes. -/
theorem Aside.same (hsteps : s'.cancellationSteps = s.cancellationSteps) (hoperation : s'.operation = s.operation)
    (habandoned : s'.abandoned = s.abandoned) : Aside s s' :=
  ⟨Or.inl hsteps, fun _ _ h => by rwa [hoperation] at h, fun h => by rwa [habandoned] at h⟩

/-- The operations end or begin another way than with an escalation. -/
theorem Aside.silent (hsteps : s'.cancellationSteps = s.cancellationSteps) (habandoned : s'.abandoned = s.abandoned)
    (hoperation : ∀ last owner, s'.operation ≠ some (.cancellation (.escalating last) owner)) : Aside s s' :=
  ⟨Or.inl hsteps, fun last owner h => absurd h (hoperation last owner), fun h => by rwa [habandoned] at h⟩

/-- An escalation goes on while other tasks take their steps. -/
theorem Escalating.aside (h : Escalating s) (ha : Aside s s') : Escalating s' := by
  rcases ha.steps with hsame | ⟨halive, hkilled⟩
  · refine ⟨?_, fun last owner hop => ?_, fun hab => ?_⟩
    · rw [hsame]
      exact h.steps
    · rw [hsame]
      exact h.last last owner (ha.operation last owner hop)
    · rw [hsame]
      exact h.abandoned (ha.abandoned hab)
  · refine ⟨?_, fun last owner _ hnot => ?_, fun _ => ?_⟩
    · rw [hkilled]
      exact h.steps.kill halive
    · rw [hkilled] at hnot
      simp at hnot
    · simp [hkilled]

/-- To report that the tree was killed is such a step. -/
theorem reportKillTree_aside (s : SessionTasks) : Aside s s.reportKillTree := by
  unfold reportKillTree
  split
  · exact Aside.refl s
  · rename_i halive
    exact ⟨Or.inr ⟨halive, rfl⟩, fun _ _ h => h, id⟩

/-- After the report the tree was killed. -/
theorem killTree_mem_reportKillTree (s : SessionTasks) : .killTree ∈ s.reportKillTree.cancellationSteps := by
  unfold reportKillTree
  split
  · assumption
  · exact List.mem_append_right _ (List.mem_singleton_self _)

/-- The report of the killed tree comes last of an escalation. -/
theorem reportKillTree_isEscalation (h : IsEscalation s.cancellationSteps) : IsEscalation s.reportKillTree.cancellationSteps := by
  unfold reportKillTree
  split
  · exact h
  · rename_i halive
    exact h.kill halive

/-- A legal transition changes the state and nothing else. -/
theorem transition_eq {target : SessionState} (h : s.transition target = some s') : s' = { s with state := target } := by
  unfold transition at h
  split at h
  · exact (Option.some.inj h).symm
  · cases h

/-- To accept a session reports no step. -/
theorem accept_aside (s : SessionTasks) : Aside s s.accept := by
  unfold accept
  split
  · rename_i hmoved
    rw [transition_eq hmoved]
    exact Aside.same rfl rfl rfl
  · exact Aside.same rfl rfl rfl

/-- To launch a session reports no step. -/
theorem launch_aside (s : SessionTasks) : Aside s s.launch := by
  unfold launch
  split
  · rename_i hstarting
    rw [transition_eq hstarting]
    split
    · rename_i hrunning
      rw [transition_eq hrunning]
      exact Aside.same rfl rfl rfl
    · exact Aside.same rfl rfl rfl
  · exact Aside.same rfl rfl rfl

/-- A step of the start reports at most the killed tree. -/
theorem stepStart_aside (s : SessionTasks) (input : SessionInput) : Aside s (s.stepStart input) := by
  cases input with
  | accept =>
    unfold stepStart
    dsimp only
    split
    · exact accept_aside s
    · exact Aside.refl s
  | launch =>
    unfold stepStart
    dsimp only
    split
    · exact launch_aside s
    · exact Aside.refl s
  | degraded | startEnds _ | startFails =>
    unfold stepStart
    dsimp only
    split <;> exact Aside.same rfl rfl rfl
  | _ => exact Aside.refl s

/-- The exit of the process reports at most the killed tree. -/
theorem processExited_aside (s : SessionTasks) : Aside s s.processExited := by
  unfold processExited
  dsimp only
  split
  · rename_i s₂ hdraining
    obtain ⟨s₁, hexiting, hdraining⟩ := Option.bind_eq_some_iff.1 hdraining
    rw [transition_eq hdraining]
    split at hexiting
    · rw [transition_eq hexiting]
      exact Aside.same rfl rfl rfl
    · cases hexiting
      exact Aside.same rfl rfl rfl
  · exact Aside.same rfl rfl rfl

/-- An error of the monitor reports at most the killed tree. -/
theorem reportError_aside (s : SessionTasks) : Aside s s.reportError := by
  unfold reportError
  split
  · exact Aside.same rfl rfl rfl
  · split
    · rename_i hfailed
      rw [transition_eq hfailed]
      exact Aside.same rfl rfl rfl
    · exact Aside.same rfl rfl rfl

/-- What the monitor does after the readers reports at most the killed tree. -/
theorem afterReaders_aside (s : SessionTasks) (failed resourceHit : Bool) : Aside s (s.afterReaders failed resourceHit) := by
  unfold afterReaders
  split
  · exact reportError_aside s
  · split
    · exact Aside.same rfl rfl rfl
    · split
      · rename_i hcompleted
        rw [transition_eq hcompleted]
        exact Aside.same rfl rfl rfl
      · exact Aside.same rfl rfl rfl

/-- A step of the monitor reports at most the killed tree. -/
theorem stepMonitor_aside (s : SessionTasks) (input : SessionInput) : Aside s (s.stepMonitor input) := by
  cases input with
  | processExits =>
    unfold stepMonitor
    dsimp only
    split
    · exact processExited_aside s
    · exact processExited_aside s
    · exact Aside.refl s
  | deadline =>
    unfold stepMonitor
    dsimp only
    split
    · have hkilled := reportKillTree_aside s
      exact ⟨hkilled.steps, hkilled.operation, hkilled.abandoned⟩
    · exact Aside.refl s
  | drainTimesOut =>
    unfold stepMonitor
    dsimp only
    split
    · have hkilled := reportKillTree_aside (s.emit .resourceLimitHit)
      exact ⟨hkilled.steps, hkilled.operation, hkilled.abandoned⟩
    · exact Aside.refl s
  | collected resourceHit =>
    unfold stepMonitor
    dsimp only
    split
    · split
      · exact afterReaders_aside s _ resourceHit
      · exact Aside.refl s
    · exact Aside.refl s
  | limitReported =>
    unfold stepMonitor
    dsimp only
    split
    · exact reportError_aside s
    · exact Aside.refl s
  | monitorFails | drained | drainKilled | backendDisposed _ | completes =>
    unfold stepMonitor
    dsimp only
    split <;> exact Aside.same rfl rfl rfl
  | _ => exact Aside.refl s

/-- A step of the readers reports no step. -/
theorem stepReaders_aside (s : SessionTasks) (input : SessionInput) : Aside s (s.stepReaders input) := by
  unfold stepReaders
  split
  · split <;> exact Aside.same rfl rfl rfl
  · exact Aside.same rfl rfl rfl
  · exact Aside.refl s

/-- The end of a disposal reports no step. -/
theorem disposed_aside (s : SessionTasks) (i : Nat) (failed : Bool) : Aside s (s.disposed i failed) := by
  unfold SessionTasks.disposed
  dsimp only
  split
  · exact Aside.same rfl rfl rfl
  · split <;> exact Aside.same rfl rfl rfl

/-- A step of the disposals reports no step and begins no escalation. -/
theorem stepDisposals_aside (s : SessionTasks) (input : SessionInput) : Aside s (s.stepDisposals input) := by
  cases input with
  | dispose => exact Aside.same rfl rfl rfl
  | disposeLocks i =>
    unfold stepDisposals
    dsimp only
    split
    · split
      · exact Aside.silent rfl rfl nofun
      · exact Aside.refl s
    · exact Aside.refl s
  | waitEnds i =>
    unfold stepDisposals
    dsimp only
    split <;> exact Aside.same rfl rfl rfl
  | disposalEnds i outcome =>
    unfold stepDisposals
    dsimp only
    split
    · cases outcome with
      | returned => exact disposed_aside s i _
      | timedOut | raised => exact Aside.same rfl rfl rfl
    · exact Aside.refl s
  | prune =>
    unfold stepDisposals
    dsimp only
    split
    · split
      · rename_i hmoved
        rw [transition_eq hmoved]
        exact Aside.same rfl rfl rfl
      · exact Aside.same rfl rfl rfl
    · exact Aside.refl s
  | _ => exact Aside.refl s

/-! ## The operations -/

/-- The end of an escalation reports no step. -/
theorem endCancellation_aside (s : SessionTasks) (failed : Bool) (owner : Option Nat) : Aside s (s.endCancellation failed owner) := by
  cases owner <;> exact Aside.silent rfl rfl nofun

/-- A cancellation begins an escalation where no step was taken. -/
theorem beginCancellation_escalating (h : Escalating s) (owner : Option Nat) : Escalating (s.beginCancellation owner) := by
  unfold beginCancellation
  split
  · exact h.aside (endCancellation_aside s false owner)
  · rename_i hfirst
    have hnone : s.cancellationSteps = [] := by
      by_contra hsome
      exact hfirst (Or.inl hsome)
    split
    · exact h.aside (endCancellation_aside s true owner)
    · split
      · exact h.aside (endCancellation_aside s false owner)
      · dsimp only
        split
        · split
          · rename_i hmoved
            rw [transition_eq hmoved]
            refine ⟨h.steps, ?_, h.abandoned⟩
            rintro last owner ⟨⟩ -
            exact congrArg List.getLast? hnone
          · have hrefused : Aside s s.refused := Aside.same rfl rfl rfl
            exact (h.aside hrefused).aside (endCancellation_aside s.refused true owner)
        · refine ⟨h.steps, ?_, h.abandoned⟩
          rintro last owner ⟨⟩ -
          exact congrArg List.getLast? hnone


end SessionTasks

/-- A session, and whether an escalation of it has begun. -/
structure Cancelling where
  session : SessionTasks := {}
  begun : Bool := false

namespace Cancelling

variable {s : Cancelling}

def step (s : Cancelling) (input : SessionInput) : Cancelling := ⟨s.session.step input, s.begun || s.session.begins input⟩

/-- After the step the session's steps are an escalation, and a cancel that starts in it after an escalation has begun returns the steps
and begins no other. -/
structure Clean (s : Cancelling) (input : SessionInput) : Prop where
  steps : IsEscalation (s.session.step input).cancellationSteps
  repeated : s.begun = true → s.session.startsCancel input = true →
    s.session.cancelAnswer input = some (some s.session.cancellationSteps) ∧ s.session.begins input = false

/-- An escalation reports no step after the tree was killed, and a cancel that starts after an escalation has begun finds a step of it, or
the session at its end. -/
def Unraced (s : Cancelling) (input : SessionInput) : Prop :=
  match input with
  | .escalates step =>
    ∀ last owner, s.session.operation = some (.cancellation (.escalating last) owner) → step ∈ CancellationStep.following last →
      .killTree ∉ s.session.cancellationSteps
  | .abandonedEscalates i step =>
    ∀ last, s.session.abandoned[i]? = some last → step ∈ CancellationStep.following last → .killTree ∉ s.session.cancellationSteps
  | .cancellationBegins | .policyRefused =>
    s.begun = true → s.session.startsCancel input = true → s.session.cancellationSteps ≠ [] ∨ s.session.state.terminal = true
  | _ => True

/-! ## Steps -/

/-- A step of the task that holds the lock keeps the escalation in its order. -/
theorem stepOperations_escalating (h : SessionTasks.Escalating s.session) {input : SessionInput} (hu : Unraced s input) :
    SessionTasks.Escalating (s.session.stepOperations input) := by
  cases input with
  | cancellationBegins =>
    unfold SessionTasks.stepOperations
    dsimp only
    split
    · exact SessionTasks.beginCancellation_escalating h _
    · exact h
  | policyRefused =>
    unfold SessionTasks.stepOperations
    dsimp only
    split
    · exact h.aside (SessionTasks.endCancellation_aside s.session _ none)
    · exact h
  | escalates step =>
    unfold SessionTasks.stepOperations
    dsimp only
    split
    · rename_i last owner hop
      split
      · rename_i hnext
        have halive := hu last owner hop hnext
        rw [← h.last last owner hop halive] at hnext
        refine ⟨h.steps.append halive hnext, ?_, fun _ => List.mem_append_left _ (h.abandoned ?_)⟩
        · rintro last owner ⟨⟩ -
          exact List.getLast?_concat
        · assumption
      · exact h
    · exact h
  | cancelFails abandons =>
    unfold SessionTasks.stepOperations
    dsimp only
    split
    · refine ⟨SessionTasks.reportKillTree_isEscalation ?_, nofun, fun _ => SessionTasks.killTree_mem_reportKillTree _⟩
      split <;> exact h.steps
    · exact h
  | abandonedEscalates i step =>
    unfold SessionTasks.stepOperations
    dsimp only
    split
    · rename_i last hi
      split
      · rename_i hnext
        have habandoned : s.session.abandoned ≠ [] := by
          intro hnone
          rw [hnone] at hi
          cases hi
        exact absurd (h.abandoned habandoned) (hu last hi hnext)
      · exact h
    · exact h
  | abandonedEnds i =>
    refine ⟨h.steps, h.last, fun habandoned => h.abandoned ?_⟩
    rintro hnone
    change s.session.abandoned.eraseIdx i ≠ [] at habandoned
    rw [hnone] at habandoned
    exact habandoned rfl
  | operate kind =>
    refine h.aside ?_
    unfold SessionTasks.stepOperations
    dsimp only
    split
    · cases kind <;> exact SessionTasks.Aside.silent rfl rfl nofun
    · exact SessionTasks.Aside.refl _
  | cancel | operationEnds | cancelReturns | cleanedUp =>
    refine h.aside ?_
    unfold SessionTasks.stepOperations
    dsimp only
    split
    · exact SessionTasks.Aside.silent rfl rfl nofun
    · exact SessionTasks.Aside.refl _
  | cancellationEnds =>
    refine h.aside ?_
    unfold SessionTasks.stepOperations
    dsimp only
    split
    · exact SessionTasks.endCancellation_aside _ _ _
    · exact SessionTasks.Aside.refl _
  | _ => exact h

/-- Every step of the session keeps the escalation in its order. -/
theorem step_escalating (h : SessionTasks.Escalating s.session) {input : SessionInput} (hu : Unraced s input) :
    SessionTasks.Escalating (s.step input).session := by
  have hstart := h.aside (SessionTasks.stepStart_aside s.session input)
  have hmonitor := h.aside (SessionTasks.stepMonitor_aside s.session input)
  have hreaders := h.aside (SessionTasks.stepReaders_aside s.session input)
  have hdisposals := h.aside (SessionTasks.stepDisposals_aside s.session input)
  have hoperations := stepOperations_escalating h hu
  cases input with
  | accept | launch | degraded | startEnds _ | startFails => exact hstart
  | processExits | deadline | monitorFails | drained | drainTimesOut | drainKilled | backendDisposed _ | collected _
    | limitReported | completes => exact hmonitor
  | reads _ _ | readerEnds _ => exact hreaders
  | cancel | operate _ | operationEnds | cancellationBegins | policyRefused | escalates _ | cancelReturns | cancelFails _
    | cleanedUp | cancellationEnds | abandonedEscalates _ _ | abandonedEnds _ => exact hoperations
  | dispose | disposeLocks _ | waitEnds _ | disposalEnds _ _ | prune => exact hdisposals

/-- A cancel that starts returns the steps at once where one was taken or the session is at its end, and only there. -/
theorem cancelAnswer_starts {s : SessionTasks} {input : SessionInput} (hstarts : s.startsCancel input = true) :
    s.cancelAnswer input = some (some s.cancellationSteps) ∧ s.begins input = false ↔
      s.cancellationSteps ≠ [] ∨ s.state.terminal = true := by
  cases input with
  | cancellationBegins | policyRefused =>
    unfold SessionTasks.startsCancel at hstarts
    dsimp only at hstarts
    split at hstarts
    · rename_i hop
      by_cases hfirst : s.cancellationSteps ≠ [] ∨ s.state.terminal = true
      · rcases hfirst with h | h <;> simp [SessionTasks.cancelAnswer, SessionTasks.begins, hop, h]
      · simp only [iff_false, hfirst]
        simp only [SessionTasks.cancelAnswer, hop, if_neg hfirst]
        first
        | rintro ⟨⟨⟩, -⟩
        | split <;> rintro ⟨⟨⟩, -⟩
    · cases hstarts
  | _ => cases hstarts

/-- A step from a state that meets the invariant is clean exactly when it is not raced. -/
theorem clean_iff (h : SessionTasks.Escalating s.session) (input : SessionInput) : Clean s input ↔ Unraced s input := by
  constructor
  · rintro ⟨hsteps, hrepeated⟩
    cases input with
    | escalates step =>
      intro last owner hop hnext
      have hreported : (s.session.step (.escalates step)).cancellationSteps = s.session.cancellationSteps ++ [step] := by
        simp [SessionTasks.step, SessionTasks.stepOperations, hop, hnext, SessionTasks.reportStep, SessionTasks.emit]
      rw [hreported] at hsteps
      exact hsteps.alive
    | abandonedEscalates i step =>
      intro last hi hnext
      have hreported : (s.session.step (.abandonedEscalates i step)).cancellationSteps = s.session.cancellationSteps ++ [step] := by
        simp [SessionTasks.step, SessionTasks.stepOperations, hi, hnext, SessionTasks.reportStep, SessionTasks.emit]
      rw [hreported] at hsteps
      exact hsteps.alive
    | cancellationBegins | policyRefused =>
      exact fun hbegun hstarts => (cancelAnswer_starts hstarts).1 (hrepeated hbegun hstarts)
    | _ => exact trivial
  · intro hu
    refine ⟨(step_escalating h hu).steps, fun hbegun hstarts => (cancelAnswer_starts hstarts).2 ?_⟩
    cases input with
    | cancellationBegins | policyRefused => exact hu hbegun hstarts
    | _ => cases hstarts

/-- No step has been reported of a session that starts. -/
theorem escalating_start : SessionTasks.Escalating {} := ⟨by decide, nofun, nofun⟩

/-- In every run, with any number of cancels and any behaviour of the backend and of the deadlines, every step is clean exactly when no
step is raced. -/
theorem escalation_clean_iff (inputs : List SessionInput) :
    Machine.Guarded step Clean {} inputs ↔ Machine.Guarded step Unraced {} inputs :=
  Machine.guarded_iff (P := fun s => SessionTasks.Escalating s.session) (fun _ input h => clean_iff h input)
    (fun _ _ h hu => step_escalating h hu) escalating_start inputs

namespace Sample

/-- A command is cancelled, and its timeout passes within the grace of the interrupt: the monitor kills the tree, and the process exits. -/
def timedOut : List SessionInput :=
  [.accept, .launch, .startEnds [.stdout], .cancel, .cancellationBegins, .escalates .interrupt, .deadline, .processExits]

/-- A process that has exited is cancelled, with a backend that does not know its tree, and cancelled again. -/
def exited : List SessionInput :=
  [.accept, .launch, .startEnds [.stdout], .cancel, .cancellationBegins, .cancelReturns, .cancellationEnds, .cancel]

end Sample

/-- The escalation reports that it kills the tree after the monitor did, and an escalation that took no step is begun again. -/
theorem escalation_raced :
    ¬Machine.Guarded step Clean {} (Sample.timedOut ++ [.escalates .killTree]) ∧
      ¬Machine.Guarded step Clean {} (Sample.exited ++ [.cancellationBegins]) := by
  constructor
  · intro h
    have hsteps := (Machine.guarded_singleton.1 (Machine.guarded_append.1 h).2).steps
    revert hsteps
    decide
  · intro h
    have hrepeated := (Machine.guarded_singleton.1 (Machine.guarded_append.1 h).2).repeated
    revert hrepeated
    decide

end Cancelling

end Runtime

end SharkRail
