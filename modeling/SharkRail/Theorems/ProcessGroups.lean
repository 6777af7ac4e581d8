import SharkRail.Runtime.ProcessGroup

/-!
# Process groups

A session signals the group of its own start as long as the id of the group is not given to another one too early. `interrupt` and
`terminate` ask for the return code and `kill_tree` asks whether the tree was killed, and none of them asks whose the group is: once
both are known nothing is signalled any more, and before that a group that took over the id gets the signal.
-/

namespace SharkRail

namespace Runtime

namespace SessionProcess

variable {s s' : SessionProcess} {inputs : List SessionProcessInput}

/-- The handle has its return code and its tree was killed. -/
def Closed (s : SessionProcess) : Prop := s.returncode = true ∧ s.treeKilled = true

instance : Decidable s.Closed := inferInstanceAs (Decidable (_ ∧ _))

/-- What a task of the session does to it: it issues at most one `killpg`, to whoever has the id of the group now, and none once the
session is closed. -/
structure Issues (s s' : SessionProcess) : Prop where
  group : s'.group = s.group
  returncode : s'.returncode = s.returncode
  treeKilled : s.treeKilled = true → s'.treeKilled = true
  signals : s'.signals = s.signals ∨ ∃ signal, s'.signals = s.signals ++ [(signal, s.group.target)] ∧ ¬s.Closed

/-- Nothing of what the tasks do to the group changes. -/
theorem Issues.of_eq (hgroup : s'.group = s.group) (hreturncode : s'.returncode = s.returncode)
    (htreeKilled : s'.treeKilled = s.treeKilled) (hsignals : s'.signals = s.signals) : Issues s s' :=
  ⟨hgroup, hreturncode, fun h => htreeKilled.trans h, .inl hsignals⟩

/-- Nothing happens. -/
theorem Issues.refl (s : SessionProcess) : Issues s s := .of_eq rfl rfl rfl rfl

/-- What the session notes beside the signal does not matter, before it or after it. -/
theorem Issues.after {t : SessionProcess} (h : Issues s t) (hgroup : s'.group = t.group) (hreturncode : s'.returncode = t.returncode)
    (htreeKilled : t.treeKilled = true → s'.treeKilled = true) (hsignals : s'.signals = t.signals) : Issues s s' :=
  ⟨hgroup.trans h.group, hreturncode.trans h.returncode, fun hs => htreeKilled (h.treeKilled hs), hsignals ▸ h.signals⟩

/-- What a task changes besides the group may come before its signal. -/
theorem Issues.before {t : SessionProcess} (h : Issues t s') (hgroup : t.group = s.group) (hreturncode : t.returncode = s.returncode)
    (htreeKilled : t.treeKilled = s.treeKilled) (hsignals : t.signals = s.signals) : Issues s s' := by
  refine ⟨h.group.trans hgroup, h.returncode.trans hreturncode, fun hs => h.treeKilled (htreeKilled.trans hs), ?_⟩
  rcases h.signals with h | ⟨signal, h, hclosed⟩
  · exact .inl (h.trans hsignals)
  · exact .inr ⟨signal, by rw [h, hsignals, hgroup], fun ⟨hr, ht⟩ => hclosed ⟨hreturncode.trans hr, htreeKilled.trans ht⟩⟩

/-! ## The backend -/

/-- A `killpg` sends a signal to whoever has the id now, unless it is refused. -/
theorem killpg_signals (signal : PosixSignal) (refused : Bool) (s : SessionProcess) :
    (s.killpg signal refused).2 = { s with signals := s.signals ++ [(signal, s.group.target)] } := by
  unfold killpg
  dsimp only
  split_ifs <;> rfl

/-- An open session may issue one `killpg`. -/
theorem killpg_issues (signal : PosixSignal) (refused : Bool) (hclosed : ¬s.Closed) : Issues s (s.killpg signal refused).2 := by
  rw [killpg_signals]
  exact ⟨rfl, rfl, id, .inr ⟨signal, rfl, hclosed⟩⟩

/-- An interrupt issues at most one `killpg`. -/
theorem interrupt_issues (refused : Bool) (s : SessionProcess) : Issues s (s.interrupt refused).2 := by
  unfold interrupt
  split
  · exact .refl s
  · rename_i hreturncode
    exact killpg_issues .sigint refused fun h => hreturncode h.1

/-- A termination issues at most one `killpg`. -/
theorem terminate_issues (refused : Bool) (s : SessionProcess) : Issues s (s.terminate refused).2 := by
  unfold terminate
  split
  · exact .refl s
  · rename_i hreturncode
    exact killpg_issues .sigterm refused fun h => hreturncode h.1

/-- To kill the tree issues at most one `killpg`, and none once it was killed. -/
theorem killTree_issues (refused : Bool) (s : SessionProcess) : Issues s (s.killTree refused).2 := by
  unfold killTree
  split
  · exact .refl s
  · rename_i htreeKilled
    have hissues := killpg_issues (s := s) .sigkill refused fun h => htreeKilled h.2
    split
    · rename_i heq
      rwa [heq] at hissues
    · rename_i heq
      rw [heq] at hissues
      exact hissues.after rfl rfl (fun _ => rfl) rfl

/-- A step of the escalation issues at most one `killpg`. -/
theorem take_issues (step : CancellationStep) (refused : Bool) (s : SessionProcess) : Issues s (s.take step refused).2 := by
  cases step with
  | interrupt => exact interrupt_issues refused s
  | terminate => exact terminate_issues refused s
  | killTree => exact killTree_issues refused s

/-- A disposal issues at most one `killpg`. -/
theorem dispose_issues (refused : Bool) (s : SessionProcess) : Issues s (s.dispose refused).2 := by
  unfold dispose
  split
  · exact .refl s
  · have hissues := killTree_issues refused s
    split
    · rename_i heq
      rw [heq] at hissues
      exact hissues.after rfl rfl id rfl
    · rename_i heq
      rwa [heq] at hissues

/-- The disposal of a backend issues at most one `killpg`. -/
theorem disposeSessionBackend_issues (refused : Bool) (s : SessionProcess) : Issues s (s.disposeSessionBackend refused) := by
  unfold disposeSessionBackend
  split
  · exact .refl s
  · exact (dispose_issues refused _).before rfl rfl rfl rfl

/-! ## The tasks -/

/-- To report the killed tree issues no signal. -/
theorem reportKillTree_issues (s : SessionProcess) : Issues s s.reportKillTree := by
  unfold reportKillTree
  split <;> exact .of_eq rfl rfl rfl rfl

/-- A step of the cancellation issues at most one `killpg`. -/
theorem cancelProcess_issues (event : TaskEvent) (s : SessionProcess) : Issues s (s.cancelProcess event) := by
  have hclean (refused : Bool) : Issues s (s.reportKillTree.killTree refused).2 := by
    refine (killTree_issues refused s.reportKillTree).before ?_ ?_ ?_ ?_ <;> unfold reportKillTree <;> split <;> rfl
  unfold cancelProcess
  split
  case h_2 step _ refused _ =>
    have hissues := take_issues step refused s
    split
    · rename_i heq
      rw [heq] at hissues
      exact hissues.after rfl rfl id rfl
    · rename_i heq
      rw [heq] at hissues
      exact hissues.after rfl rfl id rfl
  case h_10 refused _ => exact (hclean refused).after rfl rfl id rfl
  all_goals (try split_ifs) <;> exact .of_eq rfl rfl rfl rfl

/-- A step of the monitor issues at most one `killpg`. -/
theorem monitorStep_issues (event : TaskEvent) (s : SessionProcess) : Issues s (s.monitorStep event) := by
  unfold monitorStep
  split
  case h_3 => exact (reportKillTree_issues s).after rfl rfl id rfl
  case h_4 refused _ =>
    have hissues := killTree_issues refused s
    split
    · rename_i heq
      rw [heq] at hissues
      exact hissues.after rfl rfl id rfl
    · rename_i heq
      rw [heq] at hissues
      exact hissues.after rfl rfl id rfl
  case h_10 => exact (reportKillTree_issues s).after rfl rfl id rfl
  case h_11 refused _ => exact (killTree_issues refused s).after rfl rfl id rfl
  case h_12 refused _ => exact (disposeSessionBackend_issues refused s).after rfl rfl id rfl
  all_goals (try split_ifs) <;> exact .of_eq rfl rfl rfl rfl

/-- A step is one of the system, the notice of the return code, or one of a task. -/
theorem issues_of_step (s : SessionProcess) (input : SessionProcessInput) (hsystem : ∀ event, input ≠ .system event)
    (hnotice : input ≠ .notice) : Issues s (s.step input) := by
  unfold step
  cases input with
  | system event => exact absurd rfl (hsystem event)
  | notice => exact absurd rfl hnotice
  | interrupt =>
    dsimp only
    split <;> exact .of_eq rfl rfl rfl rfl
  | deliverInterrupt refused =>
    dsimp only
    split
    · exact .refl s
    · exact (interrupt_issues refused _).before rfl rfl rfl rfl
  | cancel skipInterrupt =>
    dsimp only
    split <;> exact .of_eq rfl rfl rfl rfl
  | canceller event => exact cancelProcess_issues event s
  | monitor event => exact monitorStep_issues event s
  | dispose refused => exact disposeSessionBackend_issues refused s

/-! ## The group of the own start -/

/-- The id of the group is not given to another group before the session is closed. -/
def ReusedLate (s : SessionProcess) : SessionProcessInput → Prop
  | .system .reuse => s.group.occupied = true ∨ s.Closed
  | _ => True

instance (s : SessionProcess) (input : SessionProcessInput) : Decidable (s.ReusedLate input) := by
  unfold ReusedLate
  split <;> infer_instance

/-- Another group has the id at most after the session was closed, and got no signal. -/
structure Safe (s : SessionProcess) : Prop where
  closed : s.group.foreign = true → s.Closed
  signals : ∀ signal ∈ s.signals, signal.2 ≠ .foreign

/-- A signal reaches a foreign group where the id belongs to one. -/
theorem foreign_of_target {group : ProcessGroup} (h : group.target = .foreign) : group.foreign = true := by
  unfold ProcessGroup.target at h
  split_ifs at h with _ hforeign
  exact hforeign

/-- The id goes to a foreign group by a reuse after the own group is gone. -/
theorem foreign_of_step {group : ProcessGroup} {event : SystemEvent} (h : (group.step event).foreign = true) :
    group.foreign = true ∨ event = .reuse ∧ group.occupied = false := by
  cases event with
  | reuse =>
    unfold ProcessGroup.step at h
    dsimp only at h
    split_ifs at h with hoccupied
    · exact .inl h
    · exact .inr ⟨rfl, Bool.eq_false_iff.2 hoccupied⟩
  | fork | rootExit | reap =>
    unfold ProcessGroup.step at h
    dsimp only at h
    split_ifs at h <;> exact .inl h
  | descendantExit => exact .inl h
  | foreignExit => exact absurd h Bool.false_ne_true

/-- A closed session stays closed. -/
theorem Issues.closed (h : Issues s s') (hs : s.Closed) : s'.Closed := ⟨h.returncode.trans hs.1, h.treeKilled hs.2⟩

/-- A task keeps the session safe. -/
theorem Issues.safe (h : Issues s s') (hs : s.Safe) : s'.Safe := by
  refine ⟨fun hforeign => h.closed (hs.closed (h.group ▸ hforeign)), ?_⟩
  rcases h.signals with h | ⟨signal, h, hclosed⟩
  · exact h ▸ hs.signals
  · rw [h]
    intro issued hissued
    rcases List.mem_append.1 hissued with hissued | hissued
    · exact hs.signals issued hissued
    · rw [List.mem_singleton.1 hissued]
      exact fun htarget => hclosed (hs.closed (foreign_of_target htarget))

/-- A step keeps the session safe where the id is not given away too early. -/
theorem step_safe (s : SessionProcess) (input : SessionProcessInput) (hs : s.Safe) (hguard : s.ReusedLate input) :
    (s.step input).Safe := by
  cases input with
  | system event =>
    refine ⟨fun hforeign => ?_, hs.signals⟩
    rcases foreign_of_step hforeign with hforeign | ⟨rfl, hoccupied⟩
    · exact hs.closed hforeign
    · exact hguard.resolve_left (by simp [hoccupied])
  | notice =>
    unfold step
    dsimp only
    split
    · exact ⟨fun hforeign => ⟨rfl, (hs.closed hforeign).2⟩, hs.signals⟩
    · exact hs
  | _ => exact (issues_of_step s _ (fun _ => SessionProcessInput.noConfusion) SessionProcessInput.noConfusion).safe hs

/-- A session whose group id is not reused before it has its return code and its tree was killed signals no other group. -/
theorem signals_own_group (inputs : List SessionProcessInput) (hguard : Machine.Guarded step ReusedLate {} inputs) :
    ∀ signal ∈ (Machine.run step {} inputs).signals, signal.2 ≠ .foreign := by
  have hsafe : (Machine.run step {} inputs).Safe :=
    Machine.run_induct_of_guarded step_safe hguard ⟨fun h => absurd h Bool.false_ne_true, fun _ h => absurd h List.not_mem_nil⟩
  exact hsafe.signals

/-- A descendant outlives its root and is killed when the session is disposed of; only then the id of the group is reused. -/
theorem signals_own_group_sample :
    let s := Machine.run step {} [.system .fork, .system .rootExit, .system .reap, .notice, .monitor .exited, .monitor (.proceed false),
      .monitor (.proceed false), .system .descendantExit, .system .reuse, .dispose false]
    s.signals.map (·.1) = [.sigkill] ∧ s.group.foreign = true ∧ ∀ signal ∈ s.signals, signal.2 ≠ .foreign :=
  ⟨by decide, by decide, signals_own_group _ (by decide)⟩

/-- The root exits and is reaped without descendants, and the id is reused before the monitor disposes of the backend: its `kill_tree`
kills the other group. -/
theorem foreign_group_killed :
    ¬∀ inputs : List SessionProcessInput, ∀ signal ∈ (Machine.run step {} inputs).signals, signal.2 ≠ .foreign := by
  intro h
  exact h [.system .rootExit, .system .reap, .notice, .monitor .exited, .system .reuse, .monitor (.proceed false),
    .monitor (.proceed false)] (.sigkill, .foreign) (by decide) rfl

/-! ## A reuse that comes too early -/

/-- After a reuse the next signal reaches the foreign group. -/
theorem target_of_reused {group : ProcessGroup} (h : group.occupied = false) : (group.step .reuse).target = .foreign := by
  have hstep : group.step .reuse = { group with foreign := true } := by simp [ProcessGroup.step, h]
  have hoccupied : (group.step .reuse).occupied = false := hstep ▸ h
  rw [ProcessGroup.target, hoccupied, hstep]
  rfl

/-- Before the tree was killed, the disposal kills the group that took the id over. -/
theorem kills_foreign_of_reused (hoccupied : s.group.occupied = false) (htreeKilled : s.treeKilled = false)
    (hdisposed : s.disposed = false) (hdisposeTask : s.disposeTask = false) (refused : Bool) :
    (.sigkill, .foreign) ∈ (Machine.run step s [.system .reuse, .dispose refused]).signals := by
  have htarget := target_of_reused hoccupied
  cases refused <;>
    simp [step, disposeSessionBackend, dispose, killTree, killpg, hdisposed, hdisposeTask, htreeKilled, htarget]

/-- Before the return code is known, an interruption of an active session interrupts the group that took the id over. -/
theorem interrupts_foreign_of_reused (hoccupied : s.group.occupied = false) (hreturncode : s.returncode = false)
    (hactive : s.state.active = true) (refused : Bool) :
    (.sigint, .foreign) ∈ (Machine.run step s [.system .reuse, .interrupt, .deliverInterrupt refused]).signals := by
  have htarget := target_of_reused hoccupied
  have hactive' : ({ s with group := s.group.step .reuse } : SessionProcess).state.active = true := hactive
  rw [Machine.run_cons, Machine.run_cons, Machine.run_cons, Machine.run_nil]
  have hinterrupt : (s.step (.system .reuse)).step .interrupt =
      { s with group := s.group.step .reuse, interrupts := s.interrupts + 1 } := if_pos hactive'
  rw [hinterrupt]
  cases refused <;> simp [step, interrupt, killpg, hreturncode, htarget]

end SessionProcess

end Runtime

end SharkRail
