import SharkRail.Lemmas.Pruning
import SharkRail.Lemmas.Stable

/-!
# Metadata accounting

The counter of `metadata_usage` is kept by the triggers, statement by statement. Each statement adds what it adds to the weight of
its table, so the counter is the weight of all rows after every operation, whatever its statements were (`accounting_exact`); and a
transaction is the only way that the counter grows.
-/

namespace SharkRail

namespace Store

open Fallible

variable {cfg : StoreConfig} {s s' : Store}

/-- What the rows of the five tables weigh. -/
def rowBytes (cfg : StoreConfig) (s : Store) : Int :=
  Table.total metadataRowBytes s.metadata + Table.total (JobRow.bytes cfg.host) s.jobs + Table.total EventRow.bytes s.events +
    Table.total (OutboxRow.bytes cfg.host) s.outbox + Table.total DeletionRow.bytes s.deletions

/-- It is what `_recalculate_metadata_usage` writes to the counter. -/
theorem recalculateMetadataUsage_metadataBytes (cfg : StoreConfig) (s : Store) :
    (recalculateMetadataUsage cfg s).metadataBytes = rowBytes cfg s := rfl

/-- The counter is what the rows weigh. -/
def Exact (cfg : StoreConfig) (s : Store) : Prop := s.metadataBytes = rowBytes cfg s

/-! ## Statements -/

/-- To draw an id leaves the counter exact. -/
theorem Exact.draw (h : Exact cfg s) : Exact cfg s.draw.2 := h

/-- The trigger of an inserted job keeps the counter exact. -/
theorem Exact.insertJob (h : Exact cfg s) (r : JobRow) : Exact cfg (s.insertJob cfg r) := by
  simp only [Exact, rowBytes, Store.insertJob, Table.total_insert] at *
  omega

/-- The trigger of updated jobs keeps the counter exact. -/
theorem Exact.updateJobs (h : Exact cfg s) (p : JobRow → Bool) (f : JobRow → JobRow) : Exact cfg (s.updateJobs cfg p f) := by
  simp only [Exact, rowBytes, Store.updateJobs, Table.total_update] at *
  omega

/-- The triggers of deleted jobs, and of what their deletion takes along, keep the counter exact. -/
theorem Exact.deleteJobs (h : Exact cfg s) (p : JobRow → Bool) : Exact cfg (s.deleteJobs cfg p) := by
  simp only [Exact, rowBytes, Store.deleteJobs, Table.total_delete] at *
  omega

/-- The trigger of an inserted event keeps the counter exact. -/
theorem Exact.insertEvent (h : Exact cfg s) (r : EventRow) : Exact cfg (s.insertEvent r) := by
  simp only [Exact, rowBytes, Store.insertEvent, Table.total_insert] at *
  omega

/-- The trigger of deleted events keeps the counter exact. -/
theorem Exact.deleteEvents (h : Exact cfg s) (p : EventRow → Bool) : Exact cfg (s.deleteEvents p) := by
  simp only [Exact, rowBytes, Store.deleteEvents, Table.total_delete] at *
  omega

/-- The trigger of a row of the outbox keeps the counter exact. -/
theorem Exact.insertOutbox (h : Exact cfg s) (r : OutboxRow) : Exact cfg (s.insertOutbox cfg r) := by
  simp only [Exact, rowBytes, Store.insertOutbox, Table.total_insert] at *
  omega

/-- The trigger of updated rows of the outbox keeps the counter exact. -/
theorem Exact.updateOutbox (h : Exact cfg s) (p : OutboxRow → Bool) (f : OutboxRow → OutboxRow) :
    Exact cfg (s.updateOutbox cfg p f) := by
  simp only [Exact, rowBytes, Store.updateOutbox, Table.total_update] at *
  omega

/-- The trigger of an inserted deletion keeps the counter exact. -/
theorem Exact.insertDeletion (h : Exact cfg s) (r : DeletionRow) : Exact cfg (s.insertDeletion r) := by
  unfold Store.insertDeletion
  split
  · exact h
  · simp only [Exact, rowBytes, Table.total_insert] at *
    omega

/-- The trigger of deleted deletions keeps the counter exact. -/
theorem Exact.deleteDeletions (h : Exact cfg s) (p : DeletionRow → Bool) : Exact cfg (s.deleteDeletions p) := by
  simp only [Exact, rowBytes, Store.deleteDeletions, Table.total_delete] at *
  omega

/-- An event that is logged, and the trim after it, keep the counter exact. -/
theorem Exact.event {now : Instant} {jobId : Uuid} {revision : Nat} {kind : String} (h : Exact cfg s)
    (he : s.event cfg now jobId revision kind = .ok s') : Exact cfg s' := by
  unfold Store.event at he
  split at he
  · cases he
  · rw [pure_eq_ok] at he
    subst he
    have hseq : Exact cfg { s with nextSeq := s.nextSeq + 1 } := h
    exact (hseq.insertEvent _).deleteEvents _

/-- The migration makes the counter exact. -/
theorem exact_migrate (s : Store) : Exact cfg (migrate cfg s) := recalculateMetadataUsage_metadataBytes cfg _

/-- The counter of a new store is exact. -/
theorem exact_create (drawn : Nat) : Exact cfg (create cfg drawn) := by
  unfold create
  dsimp only
  split
  · exact exact_migrate _
  · simp only [Exact, rowBytes, migrate, recalculateMetadataUsage, Table.total, List.filter_nil,
      List.nil_append, List.map_append, List.sum_append, List.map_cons, List.map_nil, List.sum_cons, List.sum_nil]
    omega

/-- Every statement keeps the counter exact. -/
theorem exact_stable : Stable cfg (Exact cfg) where
  draw h := h.draw
  insertJob r h := h.insertJob r
  updateJobs p f h := h.updateJobs p f
  deleteJobs p h := h.deleteJobs p
  event h he := h.event he
  insertOutbox o h := h.insertOutbox o
  updateOutbox p f h := h.updateOutbox p f
  insertDeletion d h := h.insertDeletion d
  deleteDeletions p h := h.deleteDeletions p
  create := exact_create
  migrate _ := exact_migrate _

/-! ## The limit -/

/-- The counter is within its limit, or no higher than it was. -/
def Bounded (cfg : StoreConfig) (s s' : Store) : Prop :=
  s'.metadataBytes ≤ cfg.maxMetadataBytes ∨ s'.metadataBytes ≤ s.metadataBytes

/-- Nothing was committed. -/
theorem Bounded.refl (s : Store) : Bounded cfg s s := Or.inr le_rfl

/-- A transaction that commits fits the bound. -/
theorem transaction_bounded {α : Type} (body : Store → Except StoreError (α × Store)) (s : Store) :
    Bounded cfg s (transaction cfg body s).2 := by
  unfold transaction
  split
  · exact Bounded.refl s
  · rename_i a s' _
    split
    · exact Bounded.refl s
    · rename_i hcap
      unfold Bounded
      dsimp only
      omega

/-- Every operation is a transaction, or leaves the store as it is. -/
theorem step_bounded (cfg : StoreConfig) (s : Store) {call : StoreCall} (clock : Reading) (hcall : call ≠ .reopen) :
    Bounded cfg s (Store.step cfg s (call, clock)) := by
  unfold Store.step
  cases call with
  | submit tenantId key spec =>
    dsimp only
    split
    · exact transaction_bounded _ s
    · exact Bounded.refl s
  | claimNext owner leaseSeconds => exact transaction_bounded _ s
  | markRunning jobId attemptId owner =>
    unfold Store.markRunning
    dsimp only
    rw [thenGet_store]
    exact transaction_bounded _ s
  | renewLease jobId attemptId owner leaseSeconds => exact transaction_bounded _ s
  | finish jobId attemptId owner report =>
    unfold Store.finish
    dsimp only
    split
    · exact Bounded.refl s
    · rw [returnedOrGet_store]
      exact transaction_bounded _ s
  | requestCancel jobId tenantId =>
    unfold Store.requestCancel
    dsimp only
    rw [returnedOrGet_store]
    exact transaction_bounded _ s
  | recoverInterrupted => exact transaction_bounded _ s
  | recoverExpiredLeases excludeJobIds => exact transaction_bounded _ s
  | claimOutboxDue limit lease =>
    unfold Store.claimOutboxDue
    dsimp only
    split
    · exact Bounded.refl s
    · exact transaction_bounded _ s
  | outboxDelivered eventId deliveryAttemptId => exact transaction_bounded _ s
  | outboxFailed eventId deliveryAttemptId error nextAttemptAt permanent => exact transaction_bounded _ s
  | prune hasCleaner cutoff => exact transaction_bounded _ s
  | clearManifest jobId => exact transaction_bounded _ s
  | reopen => exact absurd rfl hcall

/-! ## Runs -/

/-- The counter of every reachable store is exact. -/
theorem Reachable.exact (h : Reachable cfg s) : Exact cfg s := exact_stable.reachable h

/-- After every sequence of operations the counter is the weight of all rows; so it is after `submit` and `prune_expired`, which run
several transactions. A transaction leaves it below the limit, unless it was above and did not grow. -/
theorem accounting_exact (cfg : StoreConfig) (is : List (StoreCall × Reading)) :
    (Machine.run (Store.step cfg) (create cfg 0) is).metadataBytes =
        rowBytes cfg (Machine.run (Store.step cfg) (create cfg 0) is) ∧
      (∀ clock before after tenantId key spec,
        Exact cfg (submit cfg clock before after tenantId key spec (Machine.run (Store.step cfg) (create cfg 0) is)).2 ∧
          Exact cfg (pruneExpired cfg clock before after (Machine.run (Store.step cfg) (create cfg 0) is)).2) ∧
      ∀ call clock, call ≠ .reopen →
        (Store.step cfg (Machine.run (Store.step cfg) (create cfg 0) is) (call, clock)).metadataBytes ≤ cfg.maxMetadataBytes ∨
          cfg.maxMetadataBytes < (Machine.run (Store.step cfg) (create cfg 0) is).metadataBytes ∧
            (Store.step cfg (Machine.run (Store.step cfg) (create cfg 0) is) (call, clock)).metadataBytes ≤
              (Machine.run (Store.step cfg) (create cfg 0) is).metadataBytes := by
  have hreachable : Reachable cfg (Machine.run (Store.step cfg) (create cfg 0) is) := ⟨is, rfl⟩
  refine ⟨hreachable.exact, fun clock before after tenantId key spec => ⟨?_, ?_⟩, fun call clock hcall => ?_⟩
  · have hruns : Runs cfg (fun i => Prunes i ∨ i.1 = .submit tenantId key spec) _
        (submit cfg clock before after tenantId key spec (Machine.run (Store.step cfg) (create cfg 0) is)).2 := submit_runs
    exact (hruns.reachable hreachable).exact
  · have hruns : Runs cfg Prunes _
        (pruneExpired cfg clock before after (Machine.run (Store.step cfg) (create cfg 0) is)).2 := pruneExpired_runs
    exact (hruns.reachable hreachable).exact
  · have hbounded := step_bounded cfg (Machine.run (Store.step cfg) (create cfg 0) is) clock hcall
    unfold Bounded at hbounded
    omega

end Store

end SharkRail
