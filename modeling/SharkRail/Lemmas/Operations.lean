import SharkRail.Lemmas.Lives

/-!
# Operations as runs

The operations that run several transactions, `prune_expired` and `submit`, as runs of the machine: what holds over every run of
transactions holds over every sequence of operations.
-/

namespace SharkRail

namespace Store

variable {cfg : StoreConfig} {clock : Reading} {s s' s'' : Store}

/-- A call of the pruning: it deletes expired jobs, or clears a manifest. -/
def Prunes (input : StoreCall × Reading) : Prop :=
  (∃ hasCleaner cutoff, input.1 = .prune hasCleaner cutoff) ∨ ∃ jobId, input.1 = .clearManifest jobId

/-- The store after an operation is the end of a run of calls that are all `p`. -/
def Runs (cfg : StoreConfig) (p : StoreCall × Reading → Prop) (s s' : Store) : Prop :=
  ∃ is : List (StoreCall × Reading), (∀ i ∈ is, p i) ∧ s' = Machine.run (step cfg) s is

theorem Runs.refl {p : StoreCall × Reading → Prop} : Runs cfg p s s := ⟨[], by simp, rfl⟩

theorem Runs.one {p : StoreCall × Reading → Prop} {input : StoreCall × Reading} (h : p input) :
    Runs cfg p s (step cfg s input) := ⟨[input], by simpa using h, rfl⟩

theorem Runs.mono {p q : StoreCall × Reading → Prop} (h : Runs cfg p s s') (hpq : ∀ i, p i → q i) : Runs cfg q s s' := by
  obtain ⟨is, his, hrun⟩ := h
  exact ⟨is, fun i hi => hpq i (his i hi), hrun⟩

theorem Runs.trans {p : StoreCall × Reading → Prop} (h : Runs cfg p s s') (h' : Runs cfg p s' s'') : Runs cfg p s s'' := by
  obtain ⟨is, his, rfl⟩ := h
  obtain ⟨js, hjs, rfl⟩ := h'
  refine ⟨is ++ js, fun i hi => ?_, (Machine.run_append _ _ _ _).symm⟩
  rcases List.mem_append.1 hi with h | h
  · exact his i h
  · exact hjs i h

/-- An operation that goes on after another one, as one run. -/
theorem Runs.andThen {α β : Type} {p : StoreCall × Reading → Prop} {o : Outcome α} {f : α → Store → Outcome β}
    (ho : Runs cfg p s o.2) (hf : ∀ a s, Runs cfg p s (f a s).2) : Runs cfg p s (o.andThen f).2 := by
  obtain ⟨r, s₁⟩ := o
  cases r with
  | error e => exact ho
  | ok a => exact ho.trans (hf a s₁)

/-- Finalizing manifests is a run of their transactions. -/
theorem finalizeEach_runs (clock : Reading) {cleaner : Cleaner} {rows : List DeletionRow} {finalized : Nat} {s : Store} :
    Runs cfg Prunes s (finalizeEach cfg cleaner rows finalized s).2 := by
  induction rows generalizing finalized s with
  | nil => exact .refl
  | cons row rows ih =>
    unfold finalizeEach
    split
    · have hclear : Prunes (.clearManifest row.jobId, clock) := Or.inr ⟨row.jobId, rfl⟩
      exact .andThen (.one hclear) fun n s => ih
    · exact ih

theorem finalizeOutputDeletions_runs (clock : Reading) {cleaner : Option Cleaner} :
    Runs cfg Prunes s (finalizeOutputDeletions cfg cleaner s).2 := by
  unfold finalizeOutputDeletions
  cases cleaner with
  | none => exact .refl
  | some cleaner => exact finalizeEach_runs clock

/-- `prune_expired` is a run of prunings. -/
theorem pruneExpired_runs {before after : Option Cleaner} :
    Runs cfg Prunes s (pruneExpired cfg clock before after s).2 := by
  unfold pruneExpired
  refine .andThen (finalizeOutputDeletions_runs clock) fun _ s => ?_
  cases clock.now.minusSeconds cfg.jobTtlSeconds with
  | none => exact .refl
  | some cutoff =>
    have hprune : Prunes (.prune after.isSome cutoff, clock) := Or.inl ⟨_, _, rfl⟩
    refine .andThen (.one hprune) fun deleted s => ?_
    exact .andThen (finalizeOutputDeletions_runs clock) fun _ _ => .refl

/-- `submit` is a run of prunings and of its transaction. -/
theorem submit_runs {before after : Option Cleaner} {tenantId key : String} {spec : JobSpec} :
    Runs cfg (fun i => Prunes i ∨ i.1 = .submit tenantId key spec) s
      (submit cfg clock before after tenantId key spec s).2 := by
  unfold submit
  cases hspec : spec.validate with
  | error e => exact .refl
  | ok u =>
    refine .andThen (pruneExpired_runs.mono fun _ => Or.inl) fun _ s => ?_
    cases checkSubmitter tenantId key with
    | error e => exact .refl
    | ok u =>
      have hstep : (submitTransaction cfg clock tenantId key spec s).2 = step cfg s (.submit tenantId key spec, clock) := by
        simp only [step, hspec]
      change Runs cfg _ s (submitTransaction cfg clock tenantId key spec s).2
      rw [hstep]
      exact .one (Or.inr rfl)

end Store

end SharkRail
