import SharkRail.Lemmas.Steps

/-!
# What every statement keeps

A predicate of the store that each statement keeps holds after every operation, whatever the statements of the operation are
(`Stable.step`).
-/

namespace SharkRail

namespace Store

open Fallible

variable {cfg : StoreConfig} {s s' : Store}

/-- Every statement keeps `P`, and so does opening the store. -/
structure Stable (cfg : StoreConfig) (P : Store → Prop) : Prop where
  draw : ∀ {s}, P s → P s.draw.2
  insertJob : ∀ {s} r, P s → P (s.insertJob cfg r)
  updateJobs : ∀ {s} p f, P s → P (s.updateJobs cfg p f)
  deleteJobs : ∀ {s} p, P s → P (s.deleteJobs cfg p)
  event : ∀ {s s' now jobId revision kind}, P s → s.event cfg now jobId revision kind = .ok s' → P s'
  insertOutbox : ∀ {s} o, P s → P (s.insertOutbox cfg o)
  updateOutbox : ∀ {s} p f, P s → P (s.updateOutbox cfg p f)
  insertDeletion : ∀ {s} d, P s → P (s.insertDeletion d)
  deleteDeletions : ∀ {s} p, P s → P (s.deleteDeletions p)
  create : ∀ drawn, P (create cfg drawn)
  migrate : ∀ {s}, P s → P (migrate cfg s)

namespace Stable

variable {P : Store → Prop}

/-! ## The parts of a transaction -/

/-- The rows of an announcement keep the predicate. -/
theorem notify (h : Stable cfg P) (hs : P s) {now : Instant} {row : JobRow} (he : s.notify cfg now row = .ok s') : P s' := by
  unfold Store.notify at he
  rw [bind_eq_ok] at he
  obtain ⟨job, -, he⟩ := he
  split at he
  · rw [pure_eq_ok] at he
    exact he ▸ hs
  · dsimp only at he
    split at he
    · cases he
    rw [pure_eq_ok] at he
    exact he ▸ h.insertOutbox _ (h.draw hs)

/-- To settle a row as lost keeps the predicate. -/
theorem settleLost (h : Stable cfg P) (hs : P s) {now : Instant} {reason : String} {clause : JobRow → Bool} {row : JobRow}
    (he : s.settleLost cfg now reason clause row = .ok s') : P s' := by
  unfold Store.settleLost at he
  simp only [bind_eq_ok] at he
  obtain ⟨s₁, hevent, updated, -, hnotify⟩ := he
  exact h.notify (h.event (h.updateJobs clause _ hs) hevent) hnotify

/-- To prune a row keeps the predicate. -/
theorem pruneRow (h : Stable cfg P) (hs : P s) {clock : Reading} {hasCleaner : Bool} {cutoff : Instant} {deleted : Nat}
    {row : JobRow} : P (pruneRow cfg clock hasCleaner cutoff (deleted, s) row).2 := by
  have hdelete : ∀ (n : Nat) (s : Store) p q, P s →
      P (if n = 0 then (s.deleteJobs cfg p).deleteDeletions q else s.deleteJobs cfg p) := by
    intro n s p q hs
    split
    · exact h.deleteDeletions q (h.deleteJobs p hs)
    · exact h.deleteJobs p hs
  unfold Store.pruneRow
  dsimp only
  split
  · exact hs
  · refine hdelete _ _ _ _ ?_
    split
    · exact h.insertDeletion _ hs
    · exact hs

/-- To claim a row of the outbox keeps the predicate. -/
theorem claimOutboxRow (h : Stable cfg P) (hs : P s) {now lease : Instant} {claimed : List (OutboxRow × Uuid)} {row : OutboxRow} :
    P (claimOutboxRow cfg now lease (claimed, s) row).2 := by
  unfold Store.claimOutboxRow
  dsimp only
  split <;> exact h.updateOutbox _ _ (h.draw hs)

/-! ## The operations -/

/-- A transaction whose body keeps a predicate keeps it, whether it commits or raises. -/
theorem transaction {α : Type} {body : Store → Except StoreError (α × Store)} (hs : P s)
    (hbody : ∀ a s', body s = .ok (a, s') → P s') : P (transaction cfg body s).2 := by
  rcases transaction_cases cfg body s with ⟨e, he⟩ | ⟨a, s', hb, he⟩
  · rw [he]
    exact hs
  · rw [he]
    exact hbody a s' hb

/-- A submission keeps the predicate. -/
theorem submitTransaction (h : Stable cfg P) (hs : P s) (clock : Reading) (tenantId key : String) (spec : JobSpec) :
    P (submitTransaction cfg clock tenantId key spec s).2 := by
  refine transaction hs fun a s' hb => ?_
  split at hb
  · split at hb
    · cases hb
    · simp only [bind_eq_ok, pure_eq_ok] at hb
      obtain ⟨job, -, hb⟩ := hb
      cases hb
      exact hs
  · split at hb
    · cases hb
    · simp only [bind_eq_ok, pure_eq_ok] at hb
      obtain ⟨s₁, hevent, row, -, job, -, hb⟩ := hb
      cases hb
      exact h.event (h.insertJob _ (h.draw hs)) hevent

/-- A claim keeps the predicate. -/
theorem claimNext (h : Stable cfg P) (hs : P s) (clock : Reading) (owner : String) (leaseSeconds : Int) :
    P (claimNext cfg clock owner leaseSeconds s).2 := by
  refine transaction hs fun a s' hb => ?_
  split at hb
  · rw [pure_eq_ok] at hb
    cases hb
    exact hs
  · dsimp only at hb
    split at hb
    · cases hb
      exact h.draw hs
    · simp only [bind_eq_ok, pure_eq_ok] at hb
      obtain ⟨s₁, hevent, row, -, job, -, hb⟩ := hb
      cases hb
      exact h.event (h.updateJobs _ _ (h.draw hs)) hevent

/-- The start of an attempt keeps the predicate. -/
theorem markRunning (h : Stable cfg P) (hs : P s) (clock : Reading) (jobId attemptId : Uuid) (owner : String) :
    P (markRunning cfg clock jobId attemptId owner s).2 := by
  unfold Store.markRunning
  rw [thenGet_store]
  refine transaction hs fun a s' hb => ?_
  simp only [bind_eq_ok, pure_eq_ok] at hb
  obtain ⟨row, -, s₁, hevent, hb⟩ := hb
  cases hb
  exact h.event (h.updateJobs _ _ hs) hevent

/-- To renew a lease keeps the predicate. -/
theorem renewLease (h : Stable cfg P) (hs : P s) (clock : Reading) (jobId attemptId : Uuid) (owner : String) (leaseSeconds : Int) :
    P (renewLease cfg clock jobId attemptId owner leaseSeconds s).2 := by
  refine transaction hs fun a s' hb => ?_
  rw [pure_eq_ok] at hb
  cases hb
  exact h.updateJobs _ _ hs

/-- A report keeps the predicate. -/
theorem finish (h : Stable cfg P) (hs : P s) (clock : Reading) (jobId attemptId : Uuid) (owner : String) (report : Report) :
    P (finish cfg clock jobId attemptId owner report s).2 := by
  unfold Store.finish
  split
  · exact hs
  · rw [returnedOrGet_store]
    refine transaction hs fun a s' hb => ?_
    simp only [bind_eq_ok] at hb
    obtain ⟨row, -, hb⟩ := hb
    split at hb
    · simp only [bind_eq_ok, pure_eq_ok] at hb
      obtain ⟨job, -, hb⟩ := hb
      cases hb
      exact hs
    · split at hb
      · cases hb
      · simp only [bind_eq_ok, pure_eq_ok] at hb
        obtain ⟨s₁, hevent, updated, -, s₂, hnotify, hb⟩ := hb
        cases hb
        exact h.notify (h.event (h.updateJobs _ _ hs) hevent) hnotify

/-- A request to cancel keeps the predicate. -/
theorem requestCancel (h : Stable cfg P) (hs : P s) (clock : Reading) (jobId : Uuid) (tenantId : Option String) :
    P (requestCancel cfg clock jobId tenantId s).2 := by
  unfold Store.requestCancel
  rw [returnedOrGet_store]
  refine transaction hs fun a s' hb => ?_
  simp only [bind_eq_ok] at hb
  obtain ⟨row, -, hb⟩ := hb
  split at hb
  · simp only [bind_eq_ok, pure_eq_ok] at hb
    obtain ⟨job, -, hb⟩ := hb
    cases hb
    exact hs
  · simp only [bind_eq_ok] at hb
    obtain ⟨s₁, hevent, updated, -, hb⟩ := hb
    have hevented := h.event (h.updateJobs _ _ hs) hevent
    split at hb
    · simp only [bind_eq_ok, pure_eq_ok] at hb
      obtain ⟨s₂, hnotify, hb⟩ := hb
      cases hb
      exact h.notify hevented hnotify
    · rw [pure_eq_ok] at hb
      cases hb
      exact hevented

/-- The recovery of interrupted attempts keeps the predicate. -/
theorem recoverInterrupted (h : Stable cfg P) (hs : P s) (clock : Reading) : P (recoverInterrupted cfg clock s).2 := by
  refine transaction hs fun a s' hb => ?_
  simp only [bind_eq_ok, pure_eq_ok] at hb
  obtain ⟨s₁, hloop, hb⟩ := hb
  cases hb
  refine (foldlM_ok (P := fun _ s => P s) (R := fun _ _ => True) ?_ (h.updateOutbox _ _ hs) hloop).1
  intro row rows s s' hs hrow
  exact ⟨h.settleLost hs hrow, .single trivial⟩

/-- The reconcile of expired leases keeps the predicate. -/
theorem recoverExpiredLeases (h : Stable cfg P) (hs : P s) (clock : Reading) (excludeJobIds : List Uuid) :
    P (recoverExpiredLeases cfg clock excludeJobIds s).2 := by
  refine transaction hs fun a s' hb => ?_
  refine (foldlM_ok (P := fun _ state => P state.2) (R := fun _ _ => True) ?_ (s := (0, s)) hs hb).1
  rintro row rows ⟨n, s⟩ s' hs hrow
  refine ⟨?_, .single trivial⟩
  unfold recoverExpiredRow at hrow
  dsimp only at hrow
  split at hrow
  · rw [pure_eq_ok] at hrow
    exact hrow ▸ hs
  · simp only [bind_eq_ok, pure_eq_ok] at hrow
    obtain ⟨s₁, hsettle, hrow⟩ := hrow
    cases hrow
    exact h.settleLost hs hsettle

/-- A claim of due deliveries keeps the predicate. -/
theorem claimOutboxDue (h : Stable cfg P) (hs : P s) (clock : Reading) (limit : Int) (lease : Instant) :
    P (claimOutboxDue cfg clock limit lease s).2 := by
  unfold Store.claimOutboxDue
  split
  · exact hs
  · refine transaction hs fun a s' hb => ?_
    rw [pure_eq_ok] at hb
    cases hb
    have hloop : ∀ (rows : List OutboxRow) (state : List (OutboxRow × Uuid) × Store), P state.2 →
        P (rows.foldl (Store.claimOutboxRow cfg clock.now lease) state).2 := fun rows state hs =>
      (foldl_rel (P := fun _ state => P (Prod.snd state)) (R := fun _ _ => True)
        (fun row rows state hs => ⟨h.claimOutboxRow hs, .single trivial⟩) hs).1
    exact hloop _ _ (h.updateOutbox _ _ hs)

/-- To settle a claim keeps the predicate. -/
theorem settleClaim (h : Stable cfg P) (hs : P s) (eventId : Uuid) (deliveryAttemptId : Option Uuid) (f : OutboxRow → OutboxRow) :
    P (settleClaim cfg eventId deliveryAttemptId f s).2 := by
  refine transaction hs fun a s' hb => ?_
  rw [pure_eq_ok] at hb
  cases hb
  exact h.updateOutbox _ _ hs

/-- A pruning keeps the predicate. -/
theorem pruneTransaction (h : Stable cfg P) (hs : P s) (clock : Reading) (hasCleaner : Bool) (cutoff : Instant) :
    P (pruneTransaction cfg clock hasCleaner cutoff s).2 := by
  refine transaction hs fun a s' hb => ?_
  rw [pure_eq_ok] at hb
  have hloop : ∀ (rows : List JobRow) (state : Nat × Store), P state.2 →
      P (rows.foldl (Store.pruneRow cfg clock hasCleaner cutoff) state).2 := fun rows state hs =>
    (foldl_rel (P := fun _ state => P (Prod.snd state)) (R := fun _ _ => True)
      (fun row rows state hs => ⟨h.pruneRow hs, .single trivial⟩) hs).1
  have hpruned := hloop (Table.select (s.prunable cutoff) s.jobs) (0, s) hs
  rw [hb] at hpruned
  exact hpruned

/-- To clear a manifest keeps the predicate. -/
theorem clearManifest (h : Stable cfg P) (hs : P s) (jobId : Uuid) : P (clearManifest cfg jobId s).2 := by
  refine transaction hs fun a s' hb => ?_
  rw [pure_eq_ok] at hb
  cases hb
  exact h.deleteDeletions _ hs

/-- To open the store again keeps the predicate. -/
theorem reopen (h : Stable cfg P) (hs : P s) : P (reopen cfg s) := by
  unfold Store.reopen
  split
  · exact h.create _
  · exact h.migrate hs

/-- A predicate that every statement keeps is kept by every step. -/
theorem step (h : Stable cfg P) (hs : P s) (call : StoreCall) (clock : Reading) : P (Store.step cfg s (call, clock)) := by
  cases call with
  | submit tenantId key spec =>
    unfold Store.step
    dsimp only
    split
    · exact h.submitTransaction hs clock tenantId key spec
    · exact hs
  | claimNext owner leaseSeconds => exact h.claimNext hs clock owner leaseSeconds
  | markRunning jobId attemptId owner => exact h.markRunning hs clock jobId attemptId owner
  | renewLease jobId attemptId owner leaseSeconds => exact h.renewLease hs clock jobId attemptId owner leaseSeconds
  | finish jobId attemptId owner report => exact h.finish hs clock jobId attemptId owner report
  | requestCancel jobId tenantId => exact h.requestCancel hs clock jobId tenantId
  | recoverInterrupted => exact h.recoverInterrupted hs clock
  | recoverExpiredLeases excludeJobIds => exact h.recoverExpiredLeases hs clock excludeJobIds
  | claimOutboxDue limit lease => exact h.claimOutboxDue hs clock limit lease
  | outboxDelivered eventId deliveryAttemptId => exact h.settleClaim hs eventId deliveryAttemptId _
  | outboxFailed eventId deliveryAttemptId error nextAttemptAt permanent => exact h.settleClaim hs eventId deliveryAttemptId _
  | prune hasCleaner cutoff => exact h.pruneTransaction hs clock hasCleaner cutoff
  | clearManifest jobId => exact h.clearManifest hs jobId
  | reopen => exact h.reopen hs

/-- A predicate that every statement keeps holds in every reachable state. -/
theorem reachable (h : Stable cfg P) (hs : Reachable cfg s) : P s :=
  Machine.Reachable.invariant hs (h.create 0) fun _ input hs => h.step hs input.1 input.2

end Stable

end Store

end SharkRail
