import Mathlib

/-!
# Machines

A machine is a step function: a state and an input give the next state. A schedule is a list of inputs, so a statement about
every schedule is a statement about every order of events; an input that the state does not admit leaves the state as it is.
What a step preserves a run preserves (`run_induct`), also when every step of the run meets a guard, and an output
that a state can give once is given once over a whole run (`nodup_outputs`).
-/

namespace Machine

variable {σ ι ω : Type*} (step : σ → ι → σ)

/-- The state after a schedule. -/
def run (s : σ) (is : List ι) : σ := is.foldl step s

@[simp] theorem run_nil (s : σ) : run step s [] = s := rfl

@[simp] theorem run_cons (s : σ) (i : ι) (is : List ι) : run step s (i :: is) = run step (step s i) is := rfl

theorem run_append (s : σ) (is js : List ι) : run step s (is ++ js) = run step (run step s is) js := List.foldl_append

/-- A state some schedule leads to. -/
def Reachable (init s : σ) : Prop := ∃ is, run step init is = s

theorem Reachable.init (s : σ) : Reachable step s s := ⟨[], rfl⟩

theorem Reachable.run {init s : σ} (h : Reachable step init s) (is : List ι) : Reachable step init (run step s is) := by
  obtain ⟨js, rfl⟩ := h
  exact ⟨js ++ is, run_append step init js is⟩

theorem Reachable.next {init s : σ} (h : Reachable step init s) (i : ι) : Reachable step init (step s i) := h.run step [i]

/-- Every step of the run from `s` meets the guard, at the state it is taken in. -/
def Guarded (g : σ → ι → Prop) : σ → List ι → Prop
  | _, [] => True
  | s, i :: is => g s i ∧ Guarded g (step s i) is

/-- Where the guard is decided at each step, it is decided for a run. -/
instance decidableGuarded (g : σ → ι → Prop) [∀ s i, Decidable (g s i)] : (s : σ) → (is : List ι) → Decidable (Guarded step g s is)
  | _, [] => .isTrue trivial
  | s, i :: is =>
    have := decidableGuarded g (step s i) is
    inferInstanceAs (Decidable (g s i ∧ Guarded step g (step s i) is))

variable {step}

theorem guarded_append {g : σ → ι → Prop} {s : σ} {is js : List ι} :
    Guarded step g s (is ++ js) ↔ Guarded step g s is ∧ Guarded step g (run step s is) js := by
  induction is generalizing s with
  | nil => simp [Guarded]
  | cons i is ih => simp [Guarded, ih, and_assoc]

theorem guarded_singleton {g : σ → ι → Prop} {s : σ} {i : ι} : Guarded step g s [i] ↔ g s i := by simp [Guarded]

/-- Every run meets the guard that is always true. -/
theorem guarded_true (s : σ) (is : List ι) : Guarded step (fun _ _ => True) s is := by
  induction is generalizing s with
  | nil => trivial
  | cons i is ih => exact ⟨trivial, ih _⟩

/-- A run of inputs that meet the guard in every state meets it. -/
theorem guarded_of_forall {g : σ → ι → Prop} {is : List ι} (h : ∀ i ∈ is, ∀ s, g s i) (s : σ) : Guarded step g s is := by
  induction is generalizing s with
  | nil => trivial
  | cons i is ih =>
    rw [List.forall_mem_cons] at h
    exact ⟨h.1 s, ih h.2 _⟩

/-- An invariant that every guarded step keeps holds at the end of every guarded run. -/
theorem run_induct_of_guarded {g : σ → ι → Prop} {P : σ → Prop} (hstep : ∀ s i, P s → g s i → P (step s i)) {s : σ}
    {is : List ι} (hg : Guarded step g s is) (h : P s) : P (run step s is) := by
  induction is generalizing s with
  | nil => exact h
  | cons i is ih => exact ih hg.2 (hstep s i h hg.1)

/-- An invariant that every step keeps holds at the end of every run. -/
theorem run_induct {P : σ → Prop} (hstep : ∀ s i, P s → P (step s i)) {s : σ} (h : P s) (is : List ι) :
    P (run step s is) :=
  run_induct_of_guarded (fun s i hs _ => hstep s i hs) (guarded_true s is) h

/-- An invariant of the first state that every step keeps holds in every reachable state. -/
theorem Reachable.invariant {P : σ → Prop} {init s : σ} (h : Reachable step init s) (h0 : P init)
    (hstep : ∀ s i, P s → P (step s i)) : P s := by
  obtain ⟨is, rfl⟩ := h
  exact run_induct hstep h0 is

/-- Two guards that agree where an invariant holds, kept by the guarded steps, admit the same runs. -/
theorem guarded_iff {g g' : σ → ι → Prop} {P : σ → Prop} (hiff : ∀ s i, P s → (g s i ↔ g' s i))
    (hstep : ∀ s i, P s → g' s i → P (step s i)) {s : σ} (h : P s) (is : List ι) : Guarded step g s is ↔ Guarded step g' s is := by
  induction is generalizing s with
  | nil => exact Iff.rfl
  | cons i is ih =>
    rw [Guarded, Guarded, hiff s i h]
    exact and_congr_right fun hi => ih (hstep s i h hi)

/-- The number of the steps of a run that are counted. -/
def count (step : σ → ι → σ) (counted : σ → ι → Bool) : σ → List ι → ℕ
  | _, [] => 0
  | s, i :: is => (if counted s i then 1 else 0) + count step counted (step s i) is

/-- A rank that no step raises and a counted step lowers bounds how many steps are counted. -/
theorem rank_add_count_le {counted : σ → ι → Bool} {rank : σ → ℕ} {P : σ → Prop} (hstep : ∀ s i, P s → P (step s i))
    (hrank : ∀ s i, P s → rank (step s i) + (if counted s i then 1 else 0) ≤ rank s) {s : σ} (h : P s) (is : List ι) :
    rank (run step s is) + count step counted s is ≤ rank s := by
  induction is generalizing s with
  | nil => exact le_rfl
  | cons i is ih =>
    have hnext := ih (hstep s i h)
    have hlower := hrank s i h
    rw [run_cons, count]
    omega

/-! ## Two runs -/

/-- What no step brings about was so before a run that ends in it. -/
theorem of_run {P : σ → Prop} (hback : ∀ s i, P (step s i) → P s) {s : σ} (is : List ι) (h : P (run step s is)) : P s := by
  induction is generalizing s with
  | nil => exact h
  | cons i is ih => exact hback s i (ih h)

/-- Runs by related inputs keep a relation of their states, where each pair of steps keeps it on the way to ends that are so as no step
makes them. -/
theorem run_pair {S : ι → ι → Prop} {P Q : σ → Prop} {R : σ → σ → Prop} (hP : ∀ s i, P (step s i) → P s)
    (hQ : ∀ s i, Q (step s i) → Q s) (hstep : ∀ s t i j, R s t → S i j → P (step s i) → Q (step t j) → R (step s i) (step t j))
    {is js : List ι} (hinputs : List.Forall₂ S is js) {s t : σ} (h : R s t) (hs : P (run step s is)) (ht : Q (run step t js)) :
    R (run step s is) (run step t js) := by
  induction hinputs generalizing s t with
  | nil => exact h
  | cons hij _ ih => exact ih (hstep _ _ _ _ h hij (of_run hP _ hs) (of_run hQ _ ht)) hs ht

/-! ## Outputs -/

variable (step) (out : σ → ι → List ω)

/-- What a run gives out, in order. -/
def outputs : σ → List ι → List ω
  | _, [] => []
  | s, i :: is => out s i ++ outputs (step s i) is

variable {step out}

/-- A relation between the state and what was given out so far, kept by every step, holds at the end of every run. -/
theorem run_outputs_induct {R : σ → List ω → Prop} (hstep : ∀ s i log, R s log → R (step s i) (log ++ out s i)) {s : σ}
    {log : List ω} (h : R s log) (is : List ι) : R (run step s is) (log ++ outputs step out s is) := by
  induction is generalizing s log with
  | nil => simpa [outputs] using h
  | cons i is ih =>
    rw [run_cons, outputs, ← List.append_assoc]
    exact ih (hstep s i log h)

/-- An output that spends itself is given once. `Spent s x` says `x` can not be given from `s` on: a step that gives `x` finds
it unspent and leaves it spent, and what is spent stays spent. -/
theorem nodup_outputs {P : σ → Prop} (Spent : σ → ω → Prop) (hinv : ∀ s i, P s → P (step s i))
    (hnodup : ∀ s i, P s → (out s i).Nodup) (hfresh : ∀ s i x, P s → x ∈ out s i → ¬Spent s x)
    (hspend : ∀ s i x, P s → x ∈ out s i → Spent (step s i) x)
    (hstay : ∀ s i x, P s → Spent s x → Spent (step s i) x) {s : σ} (h : P s) (is : List ι) :
    (outputs step out s is).Nodup ∧ ∀ x ∈ outputs step out s is, ¬Spent s x := by
  induction is generalizing s with
  | nil => exact ⟨List.nodup_nil, by simp [outputs]⟩
  | cons i is ih =>
    obtain ⟨hn, hs⟩ := ih (hinv s i h)
    refine ⟨List.nodup_append.2 ⟨hnodup s i h, hn, ?_⟩, ?_⟩
    · intro x hx y hy e
      subst e
      exact hs x hy (hspend s i x h hx)
    · intro x hx
      rcases List.mem_append.1 hx with hx | hx
      · exact hfresh s i x h hx
      · exact fun hsp => hs x hx (hstay s i x h hsp)

end Machine
