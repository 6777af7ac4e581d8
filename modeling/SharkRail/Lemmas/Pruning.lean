import SharkRail.Lemmas.Operations

/-!
# Pruning

`prune_expired` never wants for room: a manifest weighs less than the job row that it outlives. It takes expired jobs away, with
their events and notifications, and adds nothing but manifests; a job that is not expired keeps its row.
-/

namespace SharkRail

namespace Store

open Fallible

variable {cfg : StoreConfig} {clock : Reading} {s s' s'' : Store}

/-! ## Weights -/

/-- A text takes no less than no bytes. -/
theorem textBytes_nonneg (t : String) : 0 ≤ textBytes t := Int.natCast_nonneg _

/-- A text of code points takes no less than no bytes. -/
theorem strBytes_nonneg (s : PyStr) : 0 ≤ strBytes s := by
  unfold strBytes
  cases PyStr.encode s with
  | none => exact le_refl 0
  | some data => exact Int.natCast_nonneg _

/-- A column that may be null takes no less than no bytes. -/
theorem nullBytes_nonneg {α : Type*} {weight : α → Int} (h : ∀ a, 0 ≤ weight a) (column : Option α) :
    0 ≤ nullBytes weight column := by
  cases column with
  | none => exact Int.le_refl 0
  | some a => exact h a

/-- An integer takes no less than no bytes. -/
theorem intBytes_nonneg (n : Int) : 0 ≤ intBytes n := Int.natCast_nonneg _

/-- An id takes no less than no bytes. -/
theorem idBytes_nonneg (kind : String) (u : Uuid) : 0 ≤ idBytes kind u := Int.natCast_nonneg _

/-- A date takes between 25 and 32 bytes. -/
theorem instantBytes_bounds (t : Instant) : 25 ≤ instantBytes t ∧ instantBytes t ≤ 32 := by
  have h := Instant.length_isoformat t
  unfold instantBytes
  omega

/-- A JSON column takes no less than no bytes. -/
theorem jsonBytes_nonneg (host : Host) (v : PyJson) : 0 ≤ jsonBytes host v := Int.natCast_nonneg _

/-- A real column takes no less than no bytes. -/
theorem realBytes_nonneg (host : Host) (t : Instant) : 0 ≤ realBytes host t := Int.natCast_nonneg _

/-- A date takes no less than no bytes. -/
theorem instantBytes_nonneg (t : Instant) : 0 ≤ instantBytes t := Int.natCast_nonneg _

/-- A manifest of a job weighs no more than the row of the job. -/
theorem manifest_bytes_le (host : Host) (r : JobRow) (t : Instant) :
    (⟨r.id, r.stdoutPath, r.stderrPath, t⟩ : DeletionRow).bytes ≤ r.bytes host := by
  have hcreated := instantBytes_bounds r.createdAt
  have hupdated := instantBytes_bounds r.updatedAt
  have hmanifest := instantBytes_bounds t
  have htenant := textBytes_nonneg r.tenantId
  have hkey := textBytes_nonneg r.idempotencyKey
  have hhash := textBytes_nonneg r.requestHash
  have hspec := jsonBytes_nonneg host r.specJson
  have hphase := textBytes_nonneg r.phase.value
  have hgeneration := intBytes_nonneg r.generation
  have hobserved := intBytes_nonneg r.observedGeneration
  have hrevision := intBytes_nonneg r.revision
  have hdurability := textBytes_nonneg r.durability
  have hepoch := idBytes_nonneg "store_" r.storeEpoch
  have hattempt := nullBytes_nonneg (idBytes_nonneg "attempt_") r.attemptId
  have howner := nullBytes_nonneg textBytes_nonneg r.leaseOwner
  have hlease := intBytes_nonneg r.leaseEpoch
  have hexpires := nullBytes_nonneg (realBytes_nonneg host) r.leaseExpiresAt
  have hstarted := nullBytes_nonneg instantBytes_nonneg r.startedAt
  have hcompleted := nullBytes_nonneg instantBytes_nonneg r.completedAt
  have hexit := nullBytes_nonneg intBytes_nonneg r.exitCode
  have hreason := nullBytes_nonneg textBytes_nonneg r.reason
  have herror := nullBytes_nonneg (jsonBytes_nonneg host) r.errorJson
  have hstdout := intBytes_nonneg r.stdoutBytes
  have hstderr := intBytes_nonneg r.stderrBytes
  have htruncated := intBytes_nonneg (if r.outputTruncated then 1 else 0)
  have hconditions := jsonBytes_nonneg host (conditionsToJson r.conditionsJson)
  unfold DeletionRow.bytes JobRow.bytes
  dsimp only
  omega

/-- A row of a job takes no less than no bytes. -/
theorem jobRow_bytes_nonneg (host : Host) (r : JobRow) : 0 ≤ r.bytes host := by
  have hmanifest := manifest_bytes_le host r 0
  have hid := idBytes_nonneg "job_" r.id
  have hstdout := nullBytes_nonneg textBytes_nonneg r.stdoutPath
  have hstderr := nullBytes_nonneg textBytes_nonneg r.stderrPath
  have hcreated := instantBytes_nonneg 0
  unfold DeletionRow.bytes at hmanifest
  dsimp only at hmanifest
  omega

/-- A row of an event takes no less than no bytes. -/
theorem eventRow_bytes_nonneg (e : EventRow) : 0 ≤ e.bytes := by
  have hseq := intBytes_nonneg e.seq
  have hid := idBytes_nonneg "job_" e.jobId
  have hrevision := intBytes_nonneg e.revision
  have hkind := textBytes_nonneg e.kind
  have hcreated := instantBytes_nonneg e.createdAt
  unfold EventRow.bytes
  omega

/-- A row of the outbox takes no less than no bytes. -/
theorem outboxRow_bytes_nonneg (host : Host) (o : OutboxRow) : 0 ≤ o.bytes host := by
  have hevent := idBytes_nonneg "evt_" o.eventId
  have hjob := idBytes_nonneg "job_" o.jobId
  have hendpoint := strBytes_nonneg o.endpointId
  have hpayload := jsonBytes_nonneg host (.obj o.payloadJson)
  have hstate := textBytes_nonneg o.state.value
  have hattempts := intBytes_nonneg o.attempts
  have hnext := realBytes_nonneg host o.nextAttemptAt
  have htoken := nullBytes_nonneg (idBytes_nonneg "delivery_") o.deliveryAttemptId
  have herror := nullBytes_nonneg textBytes_nonneg o.lastError
  have hcreated := instantBytes_nonneg o.createdAt
  have hdelivered := nullBytes_nonneg instantBytes_nonneg o.deliveredAt
  unfold OutboxRow.bytes
  omega

/-- A row of a deletion takes no less than no bytes. -/
theorem deletionRow_bytes_nonneg (d : DeletionRow) : 0 ≤ d.bytes := by
  have hid := idBytes_nonneg "job_" d.jobId
  have hstdout := nullBytes_nonneg textBytes_nonneg d.stdoutPath
  have hstderr := nullBytes_nonneg textBytes_nonneg d.stderrPath
  have hcreated := instantBytes_nonneg d.createdAt
  unfold DeletionRow.bytes
  omega

/-! ## Rows that are left -/

/-- What a pruning leaves: fewer jobs, events and notifications, and no more to store. -/
structure Shrinks (s s' : Store) : Prop where
  jobs : s'.jobs.Sublist s.jobs
  events : s'.events.Sublist s.events
  outbox : s'.outbox.Sublist s.outbox
  drawn : s'.drawn = s.drawn
  storeEpoch : s'.storeEpoch = s.storeEpoch

/-- Nothing is deleted. -/
theorem Shrinks.refl : Shrinks s s := ⟨.refl _, .refl _, .refl _, rfl, rfl⟩

/-- What shrinks twice shrinks. -/
theorem Shrinks.trans (h : Shrinks s s') (h' : Shrinks s' s'') : Shrinks s s'' :=
  ⟨h'.jobs.trans h.jobs, h'.events.trans h.events, h'.outbox.trans h.outbox, h'.drawn.trans h.drawn,
    h'.storeEpoch.trans h.storeEpoch⟩

/-- A job that can not be pruned, and its row. -/
def KeptBy (cutoff : Instant) (r : JobRow) (s : Store) : Prop := r ∈ s.jobs ∧ s.prunable cutoff r = false

/-- A change of a pruning deletes. -/
theorem Change.shrinks {hasCleaner : Bool} {cutoff : Instant} (h : Change cfg (.prune hasCleaner cutoff) clock s s') :
    Shrinks s s' := by
  cases h with
  | accepted _ _ _ hcall => cases hcall
  | moved _ _ _ _ _ hstep => cases hstep
  | released f hstep houtbox hjobs hevents _ hdrawn hepoch =>
    have hsame : s.outbox.map f = s.outbox := by
      conv_rhs => rw [← List.map_id s.outbox]
      refine List.map_congr_left fun o ho => ?_
      rcases hstep o ho with h | h
      · exact h
      · cases h
    rw [hsame] at houtbox
    refine ⟨?_, ?_, ?_, hdrawn, hepoch⟩
    · rw [hjobs]
    · rw [hevents]
    · rw [houtbox]
  | delivery _ _ _ hstep => cases hstep
  | pruned _ _ _ _ _ _ _ hjobs houtbox hevents _ hdrawn hepoch =>
    refine ⟨?_, ?_, ?_, hdrawn, hepoch⟩
    · rw [hjobs]
      exact List.filter_sublist
    · rw [hevents]
      exact List.filter_sublist
    · rw [houtbox]
      exact List.filter_sublist
  | cleared _ hcall => cases hcall
  | restarted hcall => cases hcall

/-- A change of a pruning leaves a job that is not expired, and leaves it not expired. -/
theorem KeptBy.change {hasCleaner : Bool} {cutoff : Instant} {r : JobRow} (hk : KeptBy cutoff r s)
    (hs : WellFormed s) (h : Change cfg (.prune hasCleaner cutoff) clock s s') : KeptBy cutoff r s' := by
  obtain ⟨hr, hkept⟩ := hk
  cases h with
  | accepted _ _ _ hcall => cases hcall
  | moved _ _ _ _ _ hstep => cases hstep
  | released f hstep houtbox hjobs =>
    have hsame : s.outbox.map f = s.outbox := by
      conv_rhs => rw [← List.map_id s.outbox]
      refine List.map_congr_left fun o ho => ?_
      rcases hstep o ho with h | h
      · exact h
      · cases h
    exact ⟨hjobs ▸ hr, (prunable_congr (houtbox.trans hsame)).trans hkept⟩
  | delivery _ _ _ hstep => cases hstep
  | pruned _ _ row hcall hrow hprunable _ hjobs houtbox =>
    cases hcall
    have hid : r.id ≠ row.id := by
      intro hid
      rw [Table.eq_of_key JobRow.id hs.jobIds hr hrow hid, hprunable] at hkept
      cases hkept
    refine ⟨?_, ?_⟩
    · rw [hjobs]
      simp [hr, hid]
    · -- only notifications of the deleted job are gone, so those of this one still count
      have hany : (s'.outbox.any fun o => o.jobId = r.id && o.state.undelivered) =
          s.outbox.any fun o => o.jobId = r.id && o.state.undelivered := by
        rw [houtbox, Table.delete, List.any_filter]
        congr 1
        funext o
        by_cases ho : o.jobId = r.id
        · simp [ho, hid]
        · simp [ho]
      unfold prunable at hkept ⊢
      rw [hany]
      exact hkept
  | cleared _ hcall => cases hcall
  | restarted hcall => cases hcall

/-! ## Rows that are deleted -/

/-- A job that a pruning may delete: any job where there is a cleaner, and the jobs without output where there is none. -/
def cleanable (hasCleaner : Bool) (r : JobRow) : Bool := hasCleaner || !(r.stdoutPath.isSome || r.stderrPath.isSome)

/-- Jobs deleted, with their events and notifications, and a manifest added for each of them that has output. -/
structure RowsDeleted (clock : Reading) (rows : List JobRow) (s s' : Store) : Prop where
  jobs : ∀ r, r ∈ s'.jobs ↔ r ∈ s.jobs ∧ ∀ row ∈ rows, r.id ≠ row.id
  events : ∀ e, e ∈ s'.events ↔ e ∈ s.events ∧ ∀ row ∈ rows, e.jobId ≠ row.id
  outbox : ∀ o, o ∈ s'.outbox ↔ o ∈ s.outbox ∧ ∀ row ∈ rows, o.jobId ≠ row.id
  deletions : ∀ d, d ∈ s'.deletions ↔ d ∈ s.deletions ∨
    ∃ row ∈ rows, (row.stdoutPath.isSome || row.stderrPath.isSome) = true ∧
      d = ⟨row.id, row.stdoutPath, row.stderrPath, clock.later row.id⟩

/-- No row is deleted. -/
theorem RowsDeleted.nil : RowsDeleted clock [] s s := by constructor <;> simp

/-- Some rows are deleted, and then some others. -/
theorem RowsDeleted.append {rows rows' : List JobRow} (h : RowsDeleted clock rows s s') (h' : RowsDeleted clock rows' s' s'') :
    RowsDeleted clock (rows ++ rows') s s'' := by
  refine ⟨fun r => ?_, fun e => ?_, fun o => ?_, fun d => ?_⟩
  · rw [h'.jobs, h.jobs, List.forall_mem_append, and_assoc]
  · rw [h'.events, h.events, List.forall_mem_append, and_assoc]
  · rw [h'.outbox, h.outbox, List.forall_mem_append, and_assoc]
  · rw [h'.deletions, h.deletions, or_assoc]
    simp only [List.mem_append, or_and_right, exists_or]

/-- One expired job is deleted, if it may be. -/
theorem pruneRow_deletes (cfg : StoreConfig) (clock : Reading) (hasCleaner : Bool) {cutoff : Instant} {row : JobRow} {rows : List JobRow}
    (n : Nat) (h : Pending (fun s r => s.prunable cutoff r = true) (row :: rows) s) :
    RowsDeleted clock (if cleanable hasCleaner row then [row] else []) s (pruneRow cfg clock hasCleaner cutoff (n, s) row).2 := by
  obtain ⟨hrow, hprunable⟩ := h.head
  have hs := h.wellFormed
  obtain ⟨hjobs, houtbox, hevents, -⟩ := manifested_tables clock row s
  have hp : ∀ r ∈ (manifested clock row s).jobs,
      (decide (r.id = row.id) && (manifested clock row s).prunable cutoff r) = true ↔ r.id = row.id := by
    intro r hr
    rw [hjobs] at hr
    rw [Bool.and_eq_true, decide_eq_true_iff, prunable_congr houtbox]
    refine ⟨fun h => h.1, fun e => ⟨e, ?_⟩⟩
    rwa [Table.eq_of_key JobRow.id hs.jobIds hr hrow e]
  rw [pruneRow_eq hs hrow hprunable]
  cases hclean : cleanable hasCleaner row with
  | false =>
    obtain ⟨hnone, houtput⟩ := Bool.or_eq_false_iff.1 hclean
    have hleft : (!hasCleaner && (row.stdoutPath.isSome || row.stderrPath.isSome)) = true := by
      rw [Bool.not_eq_false'] at houtput
      rw [hnone, houtput]
      rfl
    rw [if_pos hleft, if_neg Bool.false_ne_true]
    exact .nil
  | true =>
    have hgoes : (!hasCleaner && (row.stdoutPath.isSome || row.stderrPath.isSome)) = false := by
      rcases Bool.or_eq_true_iff.1 hclean with hset | houtput
      · rw [hset]
        rfl
      · rw [Bool.not_eq_true'] at houtput
        rw [houtput, Bool.and_false]
    rw [hgoes, if_neg Bool.false_ne_true, if_pos rfl]
    obtain ⟨hjobs', houtbox', hevents'⟩ := deleteJobs_of_id cfg row (hjobs ▸ hrow) hp
    refine ⟨fun r => ?_, fun e => ?_, fun o => ?_, fun d => ?_⟩
    · rw [hjobs', hjobs, Table.mem_delete, decide_eq_false_iff_not, List.forall_mem_singleton]
    · rw [hevents', hevents, Table.mem_delete, decide_eq_false_iff_not, List.forall_mem_singleton]
    · rw [houtbox', houtbox, Table.mem_delete, decide_eq_false_iff_not, List.forall_mem_singleton]
    · change d ∈ (manifested clock row s).deletions ↔ _
      rw [manifested_deletions clock hs hrow]
      cases hout : row.stdoutPath <;> cases herr : row.stderrPath <;> simp [hout, herr]

/-- The loop over the expired jobs deletes those of them that may be. -/
theorem pruneRows_delete (cfg : StoreConfig) (clock : Reading) (hasCleaner : Bool) {cutoff : Instant} {rows : List JobRow} (n : Nat)
    (h : Pending (fun s r => s.prunable cutoff r = true) rows s) :
    RowsDeleted clock (rows.filter (cleanable hasCleaner)) s (rows.foldl (pruneRow cfg clock hasCleaner cutoff) (n, s)).2 := by
  induction rows generalizing n s with
  | nil => exact .nil
  | cons row rows ih =>
    have hfirst := pruneRow_deletes cfg clock hasCleaner n h
    have hrest := ih (pruneRow cfg clock hasCleaner cutoff (n, s) row).1 (pruneRow_change cfg clock hasCleaner n h).1
    have hsplit : (row :: rows).filter (cleanable hasCleaner) =
        (if cleanable hasCleaner row then [row] else []) ++ rows.filter (cleanable hasCleaner) := by
      rw [List.filter_cons]
      split <;> rfl
    rw [List.foldl_cons, hsplit]
    exact hfirst.append hrest

/-! ## The pruning returns -/

/-- A job pruned takes more away than its manifest adds. -/
theorem pruneRow_bytes_le (cfg : StoreConfig) (clock : Reading) (hasCleaner : Bool) {cutoff : Instant} {row : JobRow}
    (n : Nat) (hs : WellFormed s) (hrow : row ∈ s.jobs) (hprunable : s.prunable cutoff row = true) :
    (pruneRow cfg clock hasCleaner cutoff (n, s) row).2.metadataBytes ≤ s.metadataBytes := by
  rw [pruneRow_eq hs hrow hprunable]
  split
  · exact Int.le_refl _
  · obtain ⟨hjobs, houtbox, -⟩ := manifested_tables clock row s
    have hmanifested : (manifested clock row s).metadataBytes ≤ s.metadataBytes + row.bytes cfg.host := by
      have hnonneg := jobRow_bytes_nonneg cfg.host row
      have hmanifest := manifest_bytes_le cfg.host row (clock.later row.id)
      unfold manifested insertDeletion
      split
      · split
        · omega
        · dsimp only
          omega
      · omega
    have hclause : (decide (row.id = row.id) && (manifested clock row s).prunable cutoff row) = true := by
      rw [prunable_congr houtbox, hprunable]
      simp
    have hrows := Table.le_deleteDelta (p := fun r => r.id = row.id && (manifested clock row s).prunable cutoff r)
      (jobRow_bytes_nonneg cfg.host) (hjobs.symm ▸ hrow : row ∈ (manifested clock row s).jobs) hclause
    unfold deleteJobs
    dsimp only
    have hevents := Table.deleteDelta_nonneg (w := EventRow.bytes) (t := (manifested clock row s).events)
      (p := fun e => ((Table.select (fun r => r.id = row.id && (manifested clock row s).prunable cutoff r)
        (manifested clock row s).jobs).map (·.id)).contains e.jobId) eventRow_bytes_nonneg
    have hnotes := Table.deleteDelta_nonneg (w := OutboxRow.bytes cfg.host) (t := (manifested clock row s).outbox)
      (p := fun o => ((Table.select (fun r => r.id = row.id && (manifested clock row s).prunable cutoff r)
        (manifested clock row s).jobs).map (·.id)).contains o.jobId) (outboxRow_bytes_nonneg cfg.host)
    omega

/-- The transaction of `prune_expired` returns. -/
theorem pruneTransaction_returns (cfg : StoreConfig) (clock : Reading) (hasCleaner : Bool) (cutoff : Instant)
    (hs : WellFormed s) : ∃ n s', pruneTransaction cfg clock hasCleaner cutoff s = (.ok n, s') := by
  have hloop := (foldl_rel (f := pruneRow cfg clock hasCleaner cutoff)
    (P := fun rows st => Pending (fun s r => s.prunable cutoff r = true) rows st.2)
    (R := fun a b => b.2.metadataBytes ≤ a.2.metadataBytes) ?_ (s := (0, s))
    (Pending.of_select (q := s.prunable cutoff) hs fun r hr => hr)).2
  · have hsize : ∀ b, Relation.ReflTransGen (fun a b : Nat × Store => b.2.metadataBytes ≤ a.2.metadataBytes) (0, s) b →
        b.2.metadataBytes ≤ s.metadataBytes := by
      intro b hb
      induction hb with
      | refl => exact Int.le_refl _
      | tail _ hstep ih => exact Int.le_trans hstep ih
    exact ⟨_, _, transaction_commits rfl (hsize _ hloop)⟩
  · rintro row rows ⟨n, s⟩ hp
    obtain ⟨hrow, hprunable⟩ := hp.head
    exact ⟨(pruneRow_change cfg clock hasCleaner n hp).1,
      .single (pruneRow_bytes_le cfg clock hasCleaner n hp.wellFormed hrow hprunable)⟩

/-- The transaction of `prune_expired` deletes the expired jobs that may be deleted. -/
theorem pruneTransaction_deletes (cfg : StoreConfig) (clock : Reading) (hasCleaner : Bool) (cutoff : Instant) (hs : WellFormed s) :
    ∃ n s', pruneTransaction cfg clock hasCleaner cutoff s = (.ok n, s') ∧
      RowsDeleted clock ((Table.select (s.prunable cutoff) s.jobs).filter (cleanable hasCleaner)) s s' := by
  obtain ⟨n, s', hreturned⟩ := pruneTransaction_returns cfg clock hasCleaner cutoff hs
  refine ⟨n, s', hreturned, ?_⟩
  have hdeleted := pruneRows_delete cfg clock hasCleaner 0
    (Pending.of_select (p := fun s r => s.prunable cutoff r = true) (q := s.prunable cutoff) hs fun r hr => hr)
  have hs' : s' = ((Table.select (s.prunable cutoff) s.jobs).foldl (pruneRow cfg clock hasCleaner cutoff) (0, s)).2 := by
    have h := hreturned
    unfold pruneTransaction at h
    rcases transaction_cases cfg _ s with ⟨e, he⟩ | ⟨a, s₁, hb, he⟩
    · cases h.symm.trans he
    · cases h.symm.trans he
      rw [pure_eq_ok] at hb
      exact (congrArg Prod.snd hb).symm
  rwa [← hs'] at hdeleted

/-- What the transaction leaves of the jobs: those that are not expired, or may not be deleted. -/
theorem RowsDeleted.left {hasCleaner : Bool} {cutoff : Instant} (hs : WellFormed s)
    (h : RowsDeleted clock ((Table.select (s.prunable cutoff) s.jobs).filter (cleanable hasCleaner)) s s') (r : JobRow) :
    r ∈ s'.jobs ↔ r ∈ s.jobs ∧ (s.prunable cutoff r && cleanable hasCleaner r) = false := by
  rw [h.jobs]
  refine and_congr_right fun hr => ?_
  rw [Bool.eq_false_iff]
  constructor
  · intro hne hgone
    rw [Bool.and_eq_true] at hgone
    exact hne r (List.mem_filter.2 ⟨Table.mem_select.2 ⟨hr, hgone.1⟩, hgone.2⟩) rfl
  · intro hkept row hrow heq
    obtain ⟨hrow, hclean⟩ := List.mem_filter.1 hrow
    obtain ⟨hrow, hprunable⟩ := Table.mem_select.1 hrow
    obtain rfl := Table.eq_of_key JobRow.id hs.jobIds hr hrow heq
    exact hkept (Bool.and_eq_true_iff.2 ⟨hprunable, hclean⟩)

/-- Clearing a manifest returns, and changes no other table. -/
theorem clearManifest_returns (cfg : StoreConfig) (jobId : Uuid) (s : Store) :
    ∃ n s', clearManifest cfg jobId s = (.ok n, s') ∧ s'.jobs = s.jobs ∧ s'.events = s.events ∧ s'.outbox = s.outbox ∧
      s'.drawn = s.drawn ∧ s'.storeEpoch = s.storeEpoch := by
  have hdelta := Table.deleteDelta_nonneg (p := fun d : DeletionRow => d.jobId = jobId) (t := s.deletions)
    deletionRow_bytes_nonneg
  refine ⟨_, _, transaction_commits rfl ?_, rfl, rfl, rfl, rfl, rfl⟩
  unfold deleteDeletions
  dsimp only
  omega

/-- Finalizing manifests returns, and changes no other table. -/
theorem finalizeEach_returns (cfg : StoreConfig) (cleaner : Cleaner) (rows : List DeletionRow) (n : Nat) (s : Store) :
    ∃ m s', finalizeEach cfg cleaner rows n s = (.ok m, s') ∧ s'.jobs = s.jobs ∧ s'.events = s.events ∧
      s'.outbox = s.outbox ∧ s'.drawn = s.drawn ∧ s'.storeEpoch = s.storeEpoch := by
  induction rows generalizing n s with
  | nil => exact ⟨n, s, rfl, rfl, rfl, rfl, rfl, rfl⟩
  | cons row rows ih =>
    unfold finalizeEach
    split
    · obtain ⟨k, s₁, h₁, hjobs, hevents, houtbox, hdrawn, hepoch⟩ := clearManifest_returns cfg row.jobId s
      obtain ⟨m, s₂, h₂, hjobs', hevents', houtbox', hdrawn', hepoch'⟩ := ih (n + k) s₁
      refine ⟨m, s₂, ?_, hjobs'.trans hjobs, hevents'.trans hevents, houtbox'.trans houtbox, hdrawn'.trans hdrawn,
        hepoch'.trans hepoch⟩
      rw [h₁]
      exact h₂
    · exact ih n s

/-- To finish the deletions of outputs returns and leaves the jobs, the events and the outbox as they are. -/
theorem finalizeOutputDeletions_returns (cfg : StoreConfig) (cleaner : Option Cleaner) (s : Store) :
    ∃ m s', finalizeOutputDeletions cfg cleaner s = (.ok m, s') ∧ s'.jobs = s.jobs ∧ s'.events = s.events ∧
      s'.outbox = s.outbox ∧ s'.drawn = s.drawn ∧ s'.storeEpoch = s.storeEpoch := by
  cases cleaner with
  | none => exact ⟨0, s, rfl, rfl, rfl, rfl, rfl, rfl⟩
  | some cleaner => exact finalizeEach_returns cfg cleaner _ 0 s

/-- Tables that are the same are shrunk. -/
theorem Shrinks.of_eq (hjobs : s'.jobs = s.jobs) (hevents : s'.events = s.events) (houtbox : s'.outbox = s.outbox)
    (hdrawn : s'.drawn = s.drawn) (hepoch : s'.storeEpoch = s.storeEpoch) : Shrinks s s' := by
  refine ⟨?_, ?_, ?_, hdrawn, hepoch⟩
  · rw [hjobs]
  · rw [hevents]
  · rw [houtbox]

/-- A run keeps a well-formed store. -/
theorem Runs.wellFormed {p : StoreCall × Reading → Prop} (h : Runs cfg p s s') (hs : WellFormed s) : WellFormed s' := by
  obtain ⟨is, -, rfl⟩ := h
  exact hs.run is

/-- A run from a reachable store leads to one. -/
theorem Runs.reachable {p : StoreCall × Reading → Prop} (h : Runs cfg p s s') (hs : Reachable cfg s) :
    Reachable cfg s' := by
  obtain ⟨is, -, rfl⟩ := h
  exact hs.run is

/-- `prune_expired` returns where its cutoff is a date. It shrinks the tables, and leaves the jobs that are not expired. -/
theorem pruneExpired_returns (cfg : StoreConfig) (clock : Reading) (before after : Option Cleaner) {cutoff : Instant}
    (hs : WellFormed s) (hcutoff : clock.now.minusSeconds cfg.jobTtlSeconds = some cutoff) :
    ∃ n s', pruneExpired cfg clock before after s = (.ok n, s') ∧ Shrinks s s' ∧
      ∀ r, KeptBy cutoff r s → r ∈ s'.jobs := by
  obtain ⟨m, s₁, h₁, hjobs, hevents, houtbox, hdrawn, hepoch⟩ := finalizeOutputDeletions_returns cfg before s
  have hs₁ : WellFormed s₁ := by
    have hruns : Runs cfg Prunes s (finalizeOutputDeletions cfg before s).2 := finalizeOutputDeletions_runs clock
    rw [h₁] at hruns
    exact hruns.wellFormed hs
  obtain ⟨n, s₂, h₂⟩ := pruneTransaction_returns cfg clock after.isSome cutoff hs₁
  obtain ⟨k, s₃, h₃, hjobs', hevents', houtbox', hdrawn', hepoch'⟩ := finalizeOutputDeletions_returns cfg after s₂
  have hstep : step cfg s₁ (.prune after.isSome cutoff, clock) = s₂ := congrArg Prod.snd h₂
  have hshrinks : Shrinks s₁ s₂ :=
    hstep ▸ step_induct (P := Shrinks s₁) (.prune after.isSome cutoff, clock) hs₁ .refl
      fun _ _ _ h hchange => h.trans hchange.shrinks
  refine ⟨n, s₃, ?_, ?_, fun r hkept => ?_⟩
  · simp only [pruneExpired, h₁, Outcome.andThen, hcutoff, h₂, h₃]
  · exact ((Shrinks.of_eq hjobs hevents houtbox hdrawn hepoch).trans hshrinks).trans
      (.of_eq hjobs' hevents' houtbox' hdrawn' hepoch')
  · have hkept₁ : KeptBy cutoff r s₁ := ⟨hjobs ▸ hkept.1, (prunable_congr houtbox).trans hkept.2⟩
    have hkept₂ : KeptBy cutoff r s₂ :=
      hstep ▸ step_induct (P := KeptBy cutoff r) (.prune after.isSome cutoff, clock) hs₁ hkept₁
        fun _ _ hs h hchange => h.change hs hchange
    exact hjobs' ▸ hkept₂.1

end Store

end SharkRail
