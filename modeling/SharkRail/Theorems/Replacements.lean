import Mathlib
import SharkRail.Service.ControlMaster
import SharkRail.Theorems.Restarts

/-!
# The pace of the restarts

The loop of the control process remembers the failures of its window, and forgets none that it would count later (`filter_remembered`). So
the delay after a Worker that went down is the one for all that went down before it in its window, and those are within the limit whenever a
Worker is replaced (`Paced`).
-/

namespace SharkRail

namespace Service

namespace Master

open Ownership ControlMaster

variable {settings : ControlSettings} {s : ControlMaster} {now now' stamp : ℚ} {pc : MasterPc} {window : ℤ}

/-- What is in the window at a time was in it before. -/
theorem within_mono (hstamp : stamp ≤ now) (hle : now ≤ now') (h : within window now' stamp = true) : within window now stamp = true := by
  have hnearest : Binary64.nearest (now - stamp) ≤ Binary64.nearest (now' - stamp) :=
    Binary64.nearest_mono (sub_nonneg.2 hstamp) (sub_le_sub_right hle stamp)
  have hnonneg : 0 ≤ Binary64.nearest (now - stamp) := by
    have hzero := Binary64.nearest_mono le_rfl (sub_nonneg.2 hstamp)
    rwa [Binary64.nearest_zero] at hzero
  have hpos : ¬now' - stamp < 0 := not_lt.2 (sub_nonneg.2 (hstamp.trans hle))
  unfold within Binary64.round at h ⊢
  split_ifs at h with hfinite
  · rw [abs_of_nonneg (hnonneg.trans hnearest)] at hfinite
    rw [if_pos (by rw [abs_of_nonneg hnonneg]; exact hnearest.trans_lt hfinite)]
    exact decide_eq_true (hnearest.trans (of_decide_eq_true h))
  · simp [PyFloat.leInt, hpos] at h

/-- The failures that are remembered after so many Workers went down. -/
def remembered (window : ℤ) (downs : List ℚ) : List ℚ :=
  match downs.getLast? with
  | none => []
  | some last => downs.dropLast.filter (within window last) ++ [last]

theorem remembered_append (downs : List ℚ) (last : ℚ) :
    remembered window (downs ++ [last]) = downs.filter (within window last) ++ [last] := by
  simp [remembered]

/-- What a turn remembers are the failures of the window that ends with it: it forgets nothing that a later turn would keep. -/
theorem filter_remembered {downs : List ℚ} (hsorted : downs.Pairwise (· ≤ ·)) (hpast : ∀ stamp ∈ downs, stamp ≤ now) :
    (remembered window downs).filter (within window now) = downs.filter (within window now) := by
  rcases List.eq_nil_or_concat downs with rfl | ⟨earlier, last, rfl⟩
  · rfl
  · rw [List.concat_eq_append] at hsorted hpast ⊢
    have hlast : last ≤ now := hpast last (by simp)
    have hearlier : ∀ stamp ∈ earlier, stamp ≤ last := fun stamp hstamp =>
      (List.pairwise_append.1 hsorted).2.2 stamp hstamp last (List.mem_singleton_self last)
    rw [remembered_append, List.filter_append, List.filter_append, List.filter_filter]
    congr 1
    refine List.filter_congr fun stamp hstamp => ?_
    cases hwithin : within window now stamp with
    | false => rfl
    | true => rw [within_mono (hearlier stamp hstamp) hlast hwithin, Bool.and_self]

/-- A time at which a Worker went down is the newest one, or one of those before it. -/
theorem newest_or_older {downs earlier later : List ℚ} {newest last : ℚ} (h : downs ++ [newest] = earlier ++ last :: later) :
    (downs = earlier ∧ newest = last) ∨ ∃ later', downs = earlier ++ last :: later' := by
  rcases List.eq_nil_or_concat later with rfl | ⟨later', final, rfl⟩
  · obtain ⟨hdowns, hlast⟩ := List.append_inj' h rfl
    exact .inl ⟨hdowns, List.singleton_inj.1 hlast⟩
  · rw [List.concat_eq_append, ← List.cons_append, ← List.append_assoc] at h
    exact .inr ⟨later', (List.append_inj' h rfl).1⟩

/-- The Workers that went down are as many as started, or one less. -/
def MasterPc.replacing : MasterPc → Bool
  | .checkingStop | .starting | .delaying _ _ => true
  | _ => false

/-- The delay after the last Worker that went down: it is waited for, or it is over. -/
def Rested (window : ℤ) (now : ℚ) (downs : List ℚ) (pc : MasterPc) : Prop :=
  ∀ earlier last, downs = earlier ++ [last] → match pc with
    | .delaying since delay => since = last ∧ delay = .finite (pause (earlier.countP (within window last) + 1))
    | _ => last + pause (earlier.countP (within window last) + 1) ≤ now

/-- The times at which Workers went down and were to be replaced: those in a window are within the limit, and after each one there is the
delay for those in its window. -/
structure Paced (settings : ControlSettings) (s : ControlMaster) : Prop where
  past : ∀ stamp ∈ s.downs, stamp ≤ s.now
  sorted : s.downs.Pairwise (· ≤ ·)
  failures : s.failures = remembered settings.workerRestartWindowSeconds s.downs
  limited : ∀ earlier last later, s.downs = earlier ++ last :: later →
    (earlier.countP (within settings.workerRestartWindowSeconds last) : ℤ) < settings.workerRestartLimit
  spaced : ∀ earlier last next later, s.downs = earlier ++ last :: next :: later →
    last + pause (earlier.countP (within settings.workerRestartWindowSeconds last) + 1) ≤ next
  rested : s.stop = false → s.pc.ending = none → Rested settings.workerRestartWindowSeconds s.now s.downs s.pc
  started : s.workers.length ≤ s.downs.length + if s.pc.replacing then 0 else 1

/-- The main thread or a Worker goes on: nothing is counted, and no delay is cut short. -/
theorem Paced.keeps {s' : ControlMaster} (h : Paced settings s) (hdowns : s'.downs = s.downs) (hfailures : s'.failures = s.failures)
    (hnow : s.now ≤ s'.now) (hworkers : s'.workers.length ≤ s.workers.length) (hreplacing : s'.pc.replacing = true → s.pc.replacing = true)
    (hrested : s'.stop = false → s'.pc.ending = none →
      s.stop = false ∧ s.pc.ending = none ∧ (Rested settings.workerRestartWindowSeconds s.now s.downs s.pc →
        Rested settings.workerRestartWindowSeconds s'.now s.downs s'.pc)) : Paced settings s' where
  past := by
    rw [hdowns]
    exact fun stamp hstamp => (h.past stamp hstamp).trans hnow
  sorted := hdowns ▸ h.sorted
  failures := by rw [hdowns, hfailures, h.failures]
  limited := hdowns ▸ h.limited
  spaced := hdowns ▸ h.spaced
  rested := by
    intro hstop hending
    obtain ⟨hstop', hending', hkeeps⟩ := hrested hstop hending
    rw [hdowns]
    exact hkeeps (h.rested hstop' hending')
  started := by
    rw [hdowns]
    have hstarted := h.started
    cases hafter : s'.pc.replacing with
    | true =>
      rw [hreplacing hafter] at hstarted
      exact hworkers.trans hstarted
    | false =>
      refine (hworkers.trans hstarted).trans ?_
      split <;> simp

/-- The main thread goes where no delay is waited for. -/
theorem Paced.goTo (h : Paced settings s) {pc : MasterPc} (hreplacing : pc.replacing = true → s.pc.replacing = true)
    (hpc : pc.ending = none → s.stop = false → s.pc.ending = none ∧ (Rested settings.workerRestartWindowSeconds s.now s.downs s.pc →
      Rested settings.workerRestartWindowSeconds s.now s.downs pc)) : Paced settings (s.goTo pc) :=
  h.keeps rfl rfl le_rfl le_rfl hreplacing fun hstop hending => ⟨hstop, hpc hending hstop⟩

theorem length_updateWorker (f : Worker → Worker) (s : ControlMaster) : (s.updateWorker f).workers.length = s.workers.length := by
  unfold updateWorker
  cases s.workers <;> simp

theorem Paced.update (h : Paced settings s) (f : Worker → Worker) : Paced settings (s.updateWorker f) :=
  h.keeps rfl rfl le_rfl (length_updateWorker f s).le id fun hstop hending => ⟨hstop, hending, id⟩

/-- One more Worker went down, and is to be replaced. -/
theorem Paced.down (h : Paced settings s) (hpc : s.pc = .deciding) {failures : List ℚ} {delay : PyFloat} (hstop : s.stop = false)
    (hexited : workerExited settings.workerRestartLimit settings.workerRestartWindowSeconds s.failures false s.now =
      .ok (.waits failures delay)) :
    Paced settings { s with failures, downs := s.downs ++ [s.now], pc := .delaying s.now delay } := by
  obtain ⟨hfailures, hlimit, hdelay⟩ := workerExited_waits hexited
  rw [h.failures, filter_remembered h.sorted h.past] at hfailures
  have hcount : failures.length = s.downs.countP (within settings.workerRestartWindowSeconds s.now) + 1 := by
    rw [hfailures, List.length_append, List.length_singleton, List.countP_eq_length_filter]
  have hrested := h.rested hstop (by rw [hpc]; rfl)
  rw [hpc] at hrested
  refine ⟨?_, ?_, ?_, ?_, ?_, fun _ _ => ?_, ?_⟩
  · intro stamp hstamp
    rcases List.mem_append.1 hstamp with hold | hnew
    · exact h.past stamp hold
    · rw [List.mem_singleton.1 hnew]
  · refine List.pairwise_append.2 ⟨h.sorted, List.pairwise_singleton _ _, fun stamp hstamp last hlast => ?_⟩
    rw [List.mem_singleton.1 hlast]
    exact h.past stamp hstamp
  · dsimp only
    rw [remembered_append, hfailures]
  · intro earlier last later hdowns
    rcases newest_or_older hdowns with ⟨rfl, rfl⟩ | ⟨later', hold⟩
    · omega
    · exact h.limited earlier last later' hold
  · intro earlier last next later hdowns
    have hsplit : s.downs ++ [s.now] = (earlier ++ [last]) ++ next :: later := by simpa using hdowns
    rcases newest_or_older hsplit with ⟨hearlier, rfl⟩ | ⟨later', hold⟩
    · exact hrested earlier last hearlier
    · exact h.spaced earlier last next later' (by simpa using hold)
  · intro earlier last hdowns
    obtain ⟨rfl, hlast⟩ := List.append_inj' hdowns rfl
    obtain rfl := List.singleton_inj.1 hlast
    rw [hcount] at hdelay
    exact ⟨rfl, (restartDelay_eq_ok.1 hdelay).2⟩
  · have hstarted := h.started
    rw [hpc] at hstarted
    simpa [MasterPc.replacing] using hstarted

theorem Rested.mono {downs : List ℚ} (h : Rested window now downs pc) (hle : now ≤ now') : Rested window now' downs pc := by
  intro earlier last hdowns
  have hrested := h earlier last hdowns
  cases pc with
  | delaying since delay => exact hrested
  | _ => exact hrested.trans hle

/-- Where no delay is waited for it does not matter where the main thread is. -/
theorem Rested.goTo {downs : List ℚ} {pc' : MasterPc} (h : Rested window now downs pc) (hpc : ∀ since delay, pc ≠ .delaying since delay)
    (hpc' : ∀ since delay, pc' ≠ .delaying since delay) : Rested window now downs pc' := by
  intro earlier last hdowns
  have hrested := h earlier last hdowns
  split
  · exact absurd rfl (hpc' _ _)
  · split at hrested
    · exact absurd rfl (hpc _ _)
    · exact hrested

/-- The delay is waited out. -/
theorem Rested.passed {downs : List ℚ} {since : ℚ} {delay : PyFloat} (h : Rested window now downs (.delaying since delay))
    (hpassed : hasPassed delay (now - since) = true) : Rested window now downs .checkingStop := by
  intro earlier last hdowns
  obtain ⟨rfl, rfl⟩ := h earlier last hdowns
  unfold hasPassed PyFloat.lt at hpassed
  simp only [Bool.not_eq_true', decide_eq_false_iff_not, not_lt] at hpassed
  linarith

theorem Paced.decide (h : Paced settings s) (hpc : s.pc = .deciding) : Paced settings (s.decide settings) := by
  unfold ControlMaster.decide
  split
  · exact h.goTo (by simp [MasterPc.replacing]) (by simp [MasterPc.ending])
  · exact h.goTo (by simp [MasterPc.replacing]) (by simp [MasterPc.ending])
  · rename_i hexited
    by_cases hstop : s.stop = true
    · rw [hstop] at hexited
      cases hexited
    · rw [Bool.not_eq_true] at hstop
      rw [hstop] at hexited
      exact h.down hpc hstop hexited

/-- The next action of the main thread. -/
theorem Paced.advance (h : Paced settings s) (turns : ℕ → Turn) (hosts : ℕ → GroupHost) (starts : Bool) :
    Paced settings (s.advance settings turns hosts starts) := by
  -- an action between waits, which leaves no ending out
  have hgoes : ∀ {s' : ControlMaster} {pc : MasterPc}, Paced settings s' → s'.pc = s.pc → s.pc.replacing = false →
      (pc.ending = none → s.pc.ending = none) → pc.replacing = false → Paced settings (s'.goTo pc) := by
    intro s' pc h' hsame hbefore hending hafter
    refine h'.goTo (fun hreplacing => by simp [hafter] at hreplacing) fun hnone _ => ⟨by rw [hsame, hending hnone], fun hrested => ?_⟩
    refine hrested.goTo (fun since delay hpc => ?_) fun since delay hpc => ?_
    · rw [hsame] at hpc
      rw [hpc] at hbefore
      cases hbefore
    · rw [hpc] at hafter
      cases hafter
  cases hpc : s.pc with
  | checkingStop =>
    rw [ControlMaster.advance, hpc]
    dsimp only
    split
    · exact h.goTo (by simp [MasterPc.replacing]) (by simp [MasterPc.ending])
    · refine h.goTo (fun _ => by rw [hpc]; rfl) fun _ _ => ⟨by rw [hpc]; rfl, fun hrested => hrested.goTo (by simp [hpc]) (by simp)⟩
  | starting =>
    rw [ControlMaster.advance, hpc]
    dsimp only
    split
    · have hstarted := h.started
      rw [hpc] at hstarted
      refine ⟨h.past, h.sorted, h.failures, h.limited, h.spaced, fun hstop _ => ?_, by simpa [MasterPc.replacing] using hstarted⟩
      exact (h.rested hstop (by rw [hpc]; rfl)).goTo (by simp [hpc]) (by simp)
    · exact h.goTo (by simp [MasterPc.replacing]) (by simp [MasterPc.ending])
  | checkingAlive lastProgress =>
    rw [ControlMaster.advance, hpc]
    refine hgoes h rfl (by rw [hpc]; rfl) (fun _ => by rw [hpc]; rfl) ?_
    split <;> rfl
  | servicing lastProgress =>
    rw [ControlMaster.advance, hpc]
    exact hgoes (h.update _) rfl (by rw [hpc]; rfl) (fun _ => by rw [hpc]; rfl) rfl
  | waiting lastProgress =>
    rw [ControlMaster.advance, hpc]
    refine hgoes h rfl (by rw [hpc]; rfl) (fun _ => by rw [hpc]; rfl) ?_
    split <;> rfl
  | reading lastProgress =>
    rw [ControlMaster.advance, hpc]
    refine h.keeps rfl rfl le_rfl le_rfl (fun hreplacing => by cases hreplacing) fun hstop _ => ⟨hstop, by rw [hpc]; rfl, fun hrested => ?_⟩
    exact hrested.goTo (by simp [hpc]) (by simp)
  | checkingProgress lastProgress =>
    rw [ControlMaster.advance, hpc]
    refine hgoes h rfl (by rw [hpc]; rfl) (fun _ => by rw [hpc]; rfl) ?_
    split <;> rfl
  | leavingWorker stalled =>
    rw [ControlMaster.advance, hpc]
    refine hgoes h rfl (by rw [hpc]; rfl) (fun _ => by rw [hpc]; rfl) ?_
    split <;> rfl
  | joined =>
    rw [ControlMaster.advance, hpc]
    exact hgoes (h.update _) rfl (by rw [hpc]; rfl) (fun _ => by rw [hpc]; rfl) rfl
  | terminating ending =>
    rw [ControlMaster.advance, hpc]
    dsimp only
    split
    · exact hgoes (h.update _) rfl (by rw [hpc]; rfl) (fun hnone => by rw [hpc]; exact hnone) rfl
    · exact hgoes h rfl (by rw [hpc]; rfl) (fun hnone => by rw [hpc]; exact hnone) rfl
  | draining deadline ending =>
    rw [ControlMaster.advance, hpc]
    dsimp only
    split
    · exact h.update _
    · exact hgoes h rfl (by rw [hpc]; rfl) (fun hnone => by rw [hpc]; exact hnone) rfl
  | killing ending =>
    rw [ControlMaster.advance, hpc]
    dsimp only
    split
    · exact hgoes (h.update _) rfl (by rw [hpc]; rfl) (fun hnone => by rw [hpc]; exact hnone) rfl
    · exact hgoes h rfl (by rw [hpc]; rfl) (fun hnone => by rw [hpc]; exact hnone) rfl
  | finishing ending =>
    rw [ControlMaster.advance, hpc]
    refine hgoes (h.update _) rfl (by rw [hpc]; rfl) (fun hnone => ?_) ?_
    · rw [hpc]
      cases ending with
      | none => rfl
      | some ending => cases hnone
    · cases ending <;> rfl
  | deciding =>
    rw [ControlMaster.advance, hpc]
    exact h.decide hpc
  | delaying since delay =>
    rw [ControlMaster.advance, hpc]
    dsimp only
    split
    · rename_i hover
      refine h.goTo (fun _ => by rw [hpc]; rfl) fun _ hstop => ⟨by rw [hpc]; rfl, fun hrested => ?_⟩
      rw [hpc] at hrested
      exact hrested.passed (by simpa [hstop] using hover)
    · exact h
  | ended ending =>
    rw [ControlMaster.advance, hpc]
    exact h

theorem Paced.step (h : Paced settings s) (input : MasterInput) : Paced settings (s.step settings input) := by
  cases input with
  | elapse seconds =>
    have hle : s.now ≤ s.now + seconds := le_add_of_nonneg_right seconds.2
    exact h.keeps rfl rfl hle le_rfl id fun hstop hending => ⟨hstop, hending, fun hrested => hrested.mono hle⟩
  | signal => exact h.keeps rfl rfl le_rfl le_rfl id fun hstop => by cases hstop
  | worker input =>
    unfold ControlMaster.step
    dsimp only
    split
    · exact h.update _
    · exact h
  | heartbeat heartbeat =>
    unfold ControlMaster.step
    dsimp only
    split
    · exact h.keeps rfl rfl le_rfl le_rfl id fun hstop hending => ⟨hstop, hending, id⟩
    · exact h
  | raises =>
    unfold ControlMaster.step
    dsimp only
    split
    · exact h.goTo (by simp [MasterPc.replacing]) (by simp [MasterPc.ending])
    · exact h
  | advance turns hosts starts => exact h.advance turns hosts starts

theorem paced_create (settings : ControlSettings) : Paced settings ControlMaster.create := by
  refine ⟨?_, List.Pairwise.nil, rfl, ?_, ?_, fun _ _ => ?_, le_rfl⟩
  · simp [ControlMaster.create]
  · intro earlier last later hdowns
    simp [ControlMaster.create] at hdowns
  · intro earlier last next later hdowns
    simp [ControlMaster.create] at hdowns
  · intro earlier last hdowns
    simp [ControlMaster.create] at hdowns

/-- However Workers go down, stall and raise: besides the first Worker, at most one is started for each that was to be replaced; when one is
replaced, fewer than the limit went down before it in the window that ends with it; and the next one goes down no earlier than the backoff
for them allows. -/
theorem restarts_limited (settings : ControlSettings) (inputs : List MasterInput) :
    (Machine.run (ControlMaster.step settings) ControlMaster.create inputs).workers.length ≤
        (Machine.run (ControlMaster.step settings) ControlMaster.create inputs).downs.length + 1 ∧
      (∀ earlier last later, (Machine.run (ControlMaster.step settings) ControlMaster.create inputs).downs = earlier ++ last :: later →
        (earlier.countP (within settings.workerRestartWindowSeconds last) : ℤ) < settings.workerRestartLimit) ∧
      ∀ earlier last next later,
        (Machine.run (ControlMaster.step settings) ControlMaster.create inputs).downs = earlier ++ last :: next :: later →
        last + pause (earlier.countP (within settings.workerRestartWindowSeconds last) + 1) ≤ next := by
  have h : Paced settings (Machine.run (ControlMaster.step settings) ControlMaster.create inputs) :=
    Machine.run_induct (P := Paced settings) (fun _ input h => h.step input) (paced_create settings) inputs
  refine ⟨h.started.trans ?_, h.limited, h.spaced⟩
  split <;> simp

end Master

end Service

end SharkRail
