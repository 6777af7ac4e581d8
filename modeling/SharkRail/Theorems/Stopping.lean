import Mathlib
import SharkRail.Lib.Machine
import SharkRail.Theorems.Supervision

/-!
# The end of the control process

Once it is told to stop, each action of the main thread brings it nearer to its end (`rank`), but for those that wait in the drain of a
Worker that was sent `SIGTERM`, whose deadline does not move.
-/

namespace SharkRail

namespace Service

namespace Master

open ControlMaster

variable {settings : ControlSettings} {s : ControlMaster}

/-- The number of actions from here to the end, where the control process was told to stop. -/
def MasterPc.rank : MasterPc → ℕ
  | .ended _ => 0
  | .finishing (some _) => 1
  | .killing (some _) => 2
  | .draining _ (some _) => 3
  | .terminating (some _) => 4
  | .checkingStop | .deciding => 5
  | .delaying _ _ | .finishing none => 6
  | .joined | .killing none => 7
  | .draining _ none => 8
  | .terminating none => 9
  | .leavingWorker _ => 10
  | .waiting _ => 11
  | .servicing _ => 12
  | .checkingAlive _ => 13
  | .starting | .checkingProgress _ => 14
  | .reading _ => 15

/-- No place of the loop is further than fifteen from its end. -/
theorem rank_le (pc : MasterPc) : pc.rank ≤ 15 := by
  cases pc with
  | terminating ending | draining deadline ending | killing ending | finishing ending => cases ending <;> simp [MasterPc.rank]
  | _ => simp [MasterPc.rank]

/-- The main thread waits in a drain: the Worker is alive and its deadline is to come. -/
def waitsForWorker (s : ControlMaster) : Bool :=
  match s.pc with
  | .draining deadline _ => s.isAlive && isBefore s.now deadline
  | _ => false

/-- The control process has ended. -/
def hasEnded (s : ControlMaster) : Bool :=
  match s.pc with
  | .ended _ => true
  | _ => false

/-- An action of a main thread that has not ended and does not wait for a Worker. -/
def acts (s : ControlMaster) : MasterInput → Bool
  | .advance _ _ _ => !waitsForWorker s && !hasEnded s
  | _ => false

/-- To raise leads no further from the end. -/
theorem rank_of_raises (h : s.pc.ending = none) : (MasterPc.terminating (some .raised)).rank ≤ s.pc.rank := by
  cases hpc : s.pc with
  | terminating ending | draining deadline ending | killing ending | finishing ending =>
    rw [hpc] at h
    cases h
    simp [MasterPc.rank]
  | ended ending =>
    rw [hpc] at h
    cases h
  | _ => simp [MasterPc.rank]

/-- An action of the main thread, after it was told to stop. -/
theorem rank_advance (hstop : s.stop = true) (turns : ℕ → Ownership.Turn) (hosts : ℕ → GroupHost) (starts : Bool) :
    (s.advance settings turns hosts starts).pc.rank + (if acts s (.advance turns hosts starts) then 1 else 0) ≤ s.pc.rank := by
  have hcount : (if acts s (.advance turns hosts starts) then 1 else 0) ≤ 1 := by split <;> simp
  cases hpc : s.pc with
  | checkingStop =>
    rw [ControlMaster.advance, hpc]
    simp only [hstop, if_true, goTo, MasterPc.rank]
    omega
  | starting =>
    rw [ControlMaster.advance, hpc]
    dsimp only
    split <;> (simp only [goTo, MasterPc.rank]; omega)
  | checkingAlive lastProgress =>
    rw [ControlMaster.advance, hpc]
    simp only [goTo]
    split <;> (simp only [MasterPc.rank]; omega)
  | servicing lastProgress =>
    rw [ControlMaster.advance, hpc]
    simp only [goTo, MasterPc.rank]
    omega
  | waiting lastProgress =>
    rw [ControlMaster.advance, hpc]
    simp only [hstop, if_true, goTo, MasterPc.rank]
    omega
  | reading lastProgress =>
    rw [ControlMaster.advance, hpc]
    simp only [MasterPc.rank]
    omega
  | checkingProgress lastProgress =>
    rw [ControlMaster.advance, hpc]
    simp only [goTo]
    split <;> (simp only [MasterPc.rank]; omega)
  | leavingWorker stalled =>
    rw [ControlMaster.advance, hpc]
    simp only [hstop, Bool.true_or, if_true, goTo, MasterPc.rank]
    omega
  | joined =>
    rw [ControlMaster.advance, hpc]
    simp only [goTo, MasterPc.rank]
    omega
  | terminating ending =>
    rw [ControlMaster.advance, hpc]
    dsimp only
    split <;> cases ending <;> (simp only [goTo, MasterPc.rank]; omega)
  | draining deadline ending =>
    rw [ControlMaster.advance, hpc]
    dsimp only
    split
    · -- the wait is not counted
      rename_i hwaits
      have hnot : acts s (.advance turns hosts starts) = false := by simp [acts, waitsForWorker, hpc, hwaits]
      rw [hnot]
      change s.pc.rank + 0 ≤ _
      rw [hpc]
      exact le_rfl
    · cases ending <;> (simp only [goTo, MasterPc.rank]; omega)
  | killing ending =>
    rw [ControlMaster.advance, hpc]
    cases ending <;> (simp only [goTo, MasterPc.rank]; omega)
  | finishing ending =>
    rw [ControlMaster.advance, hpc]
    cases ending <;> (simp only [goTo, MasterPc.rank]; omega)
  | deciding =>
    rw [ControlMaster.advance, hpc]
    simp only [ControlMaster.decide, workerExited, hstop, if_true]
    change (MasterPc.terminating (some (.returned 0))).rank + _ ≤ _
    simp only [MasterPc.rank]
    omega
  | delaying since delay =>
    rw [ControlMaster.advance, hpc]
    simp only [hstop, Bool.true_or, if_true, goTo, MasterPc.rank]
    omega
  | ended ending =>
    rw [ControlMaster.advance, hpc]
    simp [acts, hasEnded, hpc]

/-- After the signal every input leads closer to the end, where it acts. -/
theorem rank_step (hstop : s.stop = true) (input : MasterInput) :
    (s.step settings input).pc.rank + (if acts s input then 1 else 0) ≤ s.pc.rank := by
  cases input with
  | elapse | signal => exact le_rfl
  | worker input =>
    unfold ControlMaster.step
    dsimp only
    split <;> exact le_rfl
  | heartbeat heartbeat =>
    unfold ControlMaster.step
    dsimp only
    split <;> exact le_rfl
  | raises =>
    unfold ControlMaster.step
    dsimp only
    split
    · rename_i hending
      exact rank_of_raises hending
    · exact le_rfl
  | advance turns hosts starts => exact rank_advance hstop turns hosts starts

/-- The loop does not take back the signal. -/
theorem stop_advance (turns : ℕ → Ownership.Turn) (hosts : ℕ → GroupHost) (starts : Bool) :
    (s.advance settings turns hosts starts).stop = s.stop := by
  unfold ControlMaster.advance
  split
  · rfl
  · split <;> rfl
  · rfl
  · rfl
  · rfl
  · rfl
  · rfl
  · rfl
  · rfl
  · split <;> rfl
  · split <;> rfl
  · split <;> rfl
  · rfl
  · unfold ControlMaster.decide
    split <;> rfl
  · split <;> rfl
  · rfl

/-- A control process that was told to stop is told so for good. -/
theorem stop_step (hstop : s.stop = true) (input : MasterInput) : (s.step settings input).stop = true := by
  cases input with
  | elapse => exact hstop
  | signal => rfl
  | worker input =>
    unfold ControlMaster.step
    dsimp only
    split <;> exact hstop
  | heartbeat heartbeat =>
    unfold ControlMaster.step
    dsimp only
    split <;> exact hstop
  | raises =>
    unfold ControlMaster.step
    dsimp only
    split <;> exact hstop
  | advance turns hosts starts => exact (stop_advance turns hosts starts).trans hstop

/-- Nothing is raised: no call in the `try`, and no start of a Worker. -/
def Uneventful : MasterInput → Prop
  | .raises => False
  | .advance _ _ starts => starts = true
  | _ => True

/-- The control process was told to stop, and where its ending is known it returns 0. -/
structure Stopped (s : ControlMaster) : Prop where
  stop : s.stop = true
  ending : ∀ ending ∈ s.pc.ending, ending = .returned 0

/-- A stopped master that advances stays so. -/
theorem Stopped.advance (h : Stopped s) (turns : ℕ → Ownership.Turn) (hosts : ℕ → GroupHost) :
    Stopped (s.advance settings turns hosts true) := by
  have hending := h.ending
  refine ⟨(stop_advance turns hosts true).trans h.stop, ?_⟩
  cases hpc : s.pc with
  | checkingStop =>
    rw [ControlMaster.advance, hpc]
    simp [ControlMaster.goTo, h.stop, MasterPc.ending]
  | starting | servicing | reading | joined =>
    rw [ControlMaster.advance, hpc]
    simp [ControlMaster.goTo, MasterPc.ending]
  | checkingAlive | checkingProgress =>
    rw [ControlMaster.advance, hpc]
    simp only [ControlMaster.goTo]
    split <;> simp [MasterPc.ending]
  | waiting | leavingWorker =>
    rw [ControlMaster.advance, hpc]
    simp [ControlMaster.goTo, h.stop, MasterPc.ending]
  | terminating ending =>
    rw [hpc] at hending
    rw [ControlMaster.advance, hpc]
    dsimp only
    split <;> exact hending
  | draining deadline ending =>
    rw [hpc] at hending
    rw [ControlMaster.advance, hpc]
    dsimp only
    split
    · change ∀ ending ∈ s.pc.ending, _
      rw [hpc]
      exact hending
    · exact hending
  | killing ending =>
    rw [hpc] at hending
    rw [ControlMaster.advance, hpc]
    exact hending
  | finishing ending =>
    rw [hpc] at hending
    rw [ControlMaster.advance, hpc]
    cases ending with
    | none => simp [ControlMaster.goTo, MasterPc.ending]
    | some ending => exact hending
  | deciding =>
    rw [ControlMaster.advance, hpc]
    simp [ControlMaster.decide, workerExited, h.stop, ControlMaster.goTo, MasterPc.ending, pure, Except.pure]
  | delaying since delay =>
    rw [ControlMaster.advance, hpc]
    simp [ControlMaster.goTo, h.stop, MasterPc.ending]
  | ended ending =>
    rw [hpc] at hending
    rw [ControlMaster.advance, hpc]
    change ∀ ending ∈ s.pc.ending, _
    rw [hpc]
    exact hending

/-- A stopped master stays so where nothing raises. -/
theorem Stopped.step (h : Stopped s) {input : MasterInput} (hinput : Uneventful input) : Stopped (s.step settings input) := by
  cases input with
  | elapse | signal => exact ⟨stop_step h.stop _, h.ending⟩
  | worker input =>
    refine ⟨stop_step h.stop _, ?_⟩
    unfold ControlMaster.step
    dsimp only
    split <;> exact h.ending
  | heartbeat heartbeat =>
    refine ⟨stop_step h.stop _, ?_⟩
    unfold ControlMaster.step
    dsimp only
    split <;> exact h.ending
  | raises => cases hinput
  | advance turns hosts starts =>
    cases hinput
    exact h.advance turns hosts

/-- Once it is told to stop, the control process ends: whatever happens from then on, its main thread takes at most 15 actions besides those
that wait for a Worker; such a wait is over at the deadline, which is the time to drain after the `SIGTERM`; and where nothing is raised and
no other ending was under way, `run` returns 0. -/
theorem stop_ends (settings : ControlSettings) (inputs later : List MasterInput) :
    Machine.count (ControlMaster.step settings) acts
        (Machine.run (ControlMaster.step settings) ControlMaster.create (inputs ++ [.signal])) later ≤ 15 ∧
      (∀ deadline ending,
        (Machine.run (ControlMaster.step settings) ControlMaster.create (inputs ++ .signal :: later)).pc = .draining deadline ending →
        ∀ worker ∈ (Machine.run (ControlMaster.step settings) ControlMaster.create (inputs ++ .signal :: later)).workers.head?,
          worker.generation.alive = true →
          ∃ terminated ∈ worker.terminated, deadline = Binary64.round (terminated + settings.workerDrainTimeoutSeconds)) ∧
      ((Machine.run (ControlMaster.step settings) ControlMaster.create (inputs ++ [.signal])).pc.ending = none →
        (∀ input ∈ later, Uneventful input) →
        ∀ ending ∈ (Machine.run (ControlMaster.step settings) ControlMaster.create (inputs ++ .signal :: later)).pc.ending,
          ending = .returned 0) := by
  have hsplit : Machine.run (ControlMaster.step settings) ControlMaster.create (inputs ++ .signal :: later) =
      Machine.run (ControlMaster.step settings)
        (Machine.run (ControlMaster.step settings) ControlMaster.create (inputs ++ [.signal])) later := by
    rw [← Machine.run_append, List.append_assoc, List.singleton_append]
  have hstop : (Machine.run (ControlMaster.step settings) ControlMaster.create (inputs ++ [.signal])).stop = true := by
    rw [Machine.run_append]
    rfl
  refine ⟨?_, fun deadline ending hpc worker hworker => ?_, fun hrunning huneventful => ?_⟩
  · have hbound := @Machine.rank_add_count_le _ _ (ControlMaster.step settings) acts (·.pc.rank) (·.stop = true)
      (fun _ input h => stop_step h input) (fun _ input h => rank_step h input) _ hstop later
    exact (Nat.le_add_left _ _).trans (hbound.trans (rank_le _))
  · have h : Supervised settings (Machine.run (ControlMaster.step settings) ControlMaster.create (inputs ++ .signal :: later)) :=
      Machine.run_induct (P := Supervised settings) (fun _ input h => h.step input) (supervised_create settings) _
    have hstands := h.stands worker hworker
    rw [hpc] at hstands
    exact hstands
  · have hstopped : Stopped (Machine.run (ControlMaster.step settings) ControlMaster.create (inputs ++ [.signal])) :=
      ⟨hstop, by rw [hrunning]; simp⟩
    rw [hsplit]
    generalize Machine.run (ControlMaster.step settings) ControlMaster.create (inputs ++ [.signal]) = s at hstopped
    have hguarded : Machine.Guarded (ControlMaster.step settings) (fun _ input => Uneventful input) s later :=
      Machine.guarded_of_forall (fun input hinput _ => huneventful input hinput) s
    have hended : Stopped (Machine.run (ControlMaster.step settings) s later) :=
      Machine.run_induct_of_guarded (P := Stopped) (fun _ _ h hinput => h.step hinput) hguarded hstopped
    exact hended.ending

end Master

end Service

end SharkRail
