import Mathlib
import SharkRail.Lemmas.Service

/-!
# The limits of admission

A submission looks at three numbers before it inserts a row: the jobs, the queued ones, and the queued ones of its tenant. Nothing else
adds to these numbers: a row comes from a submission, and no row is queued again. So the limits bound the tables of every store in use,
through recoveries, restarts and prunings.
-/

namespace Table

variable {α : Type} {p : α → Bool} {t : List α} {r : α}

theorem rowcount_insert : rowcount p (insert t r) = rowcount p t + if p r then 1 else 0 := by
  rw [rowcount, rowcount, insert, List.countP_append, List.countP_singleton]

theorem rowcount_delete_le (q : α → Bool) : rowcount p (delete q t) ≤ rowcount p t := by
  rw [rowcount, rowcount, delete]
  exact List.filter_sublist.countP_le

/-- An `UPDATE` that makes no row one of a class adds none to it. -/
theorem rowcount_update_le {q : α → Bool} {f : α → α} (h : ∀ r ∈ t, q r = true → p (f r) = true → p r = true) :
    rowcount p (update q f t) ≤ rowcount p t := by
  rw [rowcount, rowcount, update, List.countP_map]
  refine List.countP_mono_left fun r hr hp => ?_
  rw [Function.comp_apply] at hp
  split at hp
  · exact h r hr ‹_› hp
  · exact hp

end Table

namespace SharkRail

namespace Store

variable {cfg : StoreConfig} {call : StoreCall} {clock : Reading} {s s' : Store}

/-- A class of rows that a limit is on: no move of a row brings it into the class, and a submission that would finds room. -/
structure Limited (cfg : StoreConfig) (limit : Int) (p : JobRow → Bool) : Prop where
  move : ∀ drawn clock row call row' kind notes, RowStep drawn clock row call row' kind notes → p row' = true → p row = true
  room : ∀ (s : Store) clock epoch drawn tenantId key spec, s.full cfg tenantId = false →
    p (acceptedRow cfg clock epoch drawn tenantId key spec) = true → (Table.rowcount p s.jobs : Int) < limit

theorem Limited.change {limit : Int} {p : JobRow → Bool} (h : Limited cfg limit p) (hs : WellFormed s)
    (hchange : Change cfg call clock s s')
    (hbound : (Table.rowcount p s.jobs : Int) ≤ max limit 0) : (Table.rowcount p s'.jobs : Int) ≤ max limit 0 := by
  cases hchange with
  | accepted tenantId key spec _ _ _ hroom hjobs =>
    rw [hjobs, Table.rowcount_insert]
    split
    · rename_i hnew
      have hlt := h.room s clock.now s.storeEpoch s.drawn tenantId key spec hroom hnew
      push_cast
      omega
    · simpa using hbound
  | moved row row' kind notes hrow hstep hjobs =>
    have hle : Table.rowcount p s'.jobs ≤ Table.rowcount p s.jobs := by
      rw [hjobs]
      refine Table.rowcount_update_le fun r hr hid hp => ?_
      rw [Table.eq_of_key JobRow.id hs.jobIds hr hrow (by simpa using hid)]
      exact h.move _ _ _ _ _ _ _ hstep hp
    omega
  | released _ _ _ hjobs | delivery _ _ _ _ _ hjobs | cleared _ _ _ hjobs =>
    rw [hjobs]
    exact hbound
  | pruned _ _ row _ _ _ _ hjobs =>
    have hle : Table.rowcount p s'.jobs ≤ Table.rowcount p s.jobs := by
      rw [hjobs]
      exact Table.rowcount_delete_le _
    omega
  | restarted _ htables =>
    split at htables
    · rw [htables, (create_tables cfg s.drawn).1]
      simp [Table.rowcount]
    · rw [htables]
      exact hbound

theorem Limited.bounds {limit : Int} {p : JobRow → Bool} (h : Limited cfg limit p) (hs : Reachable cfg s) :
    (Table.rowcount p s.jobs : Int) ≤ max limit 0 := by
  refine hs.induct ?_ fun _ _ _ _ hs hbound hchange => h.change hs hchange hbound
  simp [(create_tables cfg 0).1, Table.rowcount]

/-- What `full` does not find: each number is below its limit. -/
theorem of_full {tenantId : String} (h : s.full cfg tenantId = false) :
    (s.jobs.length : Int) < cfg.maxJobs ∧ (Table.rowcount (fun r : JobRow => r.phase = .queued) s.jobs : Int) < cfg.maxQueuedJobs ∧
      (Table.rowcount (fun r : JobRow => r.phase = .queued ∧ r.tenantId = tenantId) s.jobs : Int) < cfg.maxQueuedJobsPerTenant := by
  simpa [full, Bool.or_eq_false_iff, and_assoc] using h

theorem limited_jobs (cfg : StoreConfig) : Limited cfg cfg.maxJobs fun _ => true := by
  refine ⟨fun _ _ _ _ _ _ _ _ _ => rfl, fun s clock epoch drawn tenantId key spec hroom _ => ?_⟩
  simpa [Table.rowcount] using (of_full hroom).1

theorem limited_queued (cfg : StoreConfig) : Limited cfg cfg.maxQueuedJobs fun r => r.phase = .queued := by
  refine ⟨fun drawn clock row call row' kind notes hstep hqueued => ?_, fun s clock epoch drawn tenantId key spec hroom _ => ?_⟩
  · rw [decide_eq_true_eq] at hqueued ⊢
    by_contra hnot
    exact hstep.not_queued hnot hqueued
  · exact (of_full hroom).2.1

theorem limited_tenant (cfg : StoreConfig) (tenantId : String) :
    Limited cfg cfg.maxQueuedJobsPerTenant fun r => r.phase = .queued ∧ r.tenantId = tenantId := by
  refine ⟨fun drawn clock row call row' kind notes hstep hqueued => ?_, fun s clock epoch drawn tenantId' key spec hroom hnew => ?_⟩
  · rw [decide_eq_true_eq] at hqueued ⊢
    refine ⟨?_, hstep.key.2.1 ▸ hqueued.2⟩
    by_contra hnot
    exact hstep.not_queued hnot hqueued.1
  · rw [decide_eq_true_eq] at hnew
    have htenant : tenantId' = tenantId := hnew.2
    exact htenant ▸ (of_full hroom).2.2

/-- The numbers a submission looks at are within their limits. A limit that is negative admits none. -/
structure WithinLimits (cfg : StoreConfig) (s : Store) : Prop where
  jobs : (s.jobs.length : Int) ≤ max cfg.maxJobs 0
  queued : (Table.rowcount (fun r : JobRow => r.phase = .queued) s.jobs : Int) ≤ max cfg.maxQueuedJobs 0
  tenant : ∀ tenantId, (Table.rowcount (fun r : JobRow => r.phase = .queued ∧ r.tenantId = tenantId) s.jobs : Int) ≤
    max cfg.maxQueuedJobsPerTenant 0

theorem Reachable.withinLimits (hs : Reachable cfg s) : s.WithinLimits cfg where
  jobs := by simpa [Table.rowcount] using (limited_jobs cfg).bounds hs
  queued := (limited_queued cfg).bounds hs
  tenant tenantId := (limited_tenant cfg tenantId).bounds hs

end Store

namespace Service

/-- Whatever happens to a service, its tables hold no more than the limits admit: jobs, queued jobs, and queued jobs of each tenant. -/
theorem admission_bounds (cfg : ServiceConfig) (inputs : List ServiceInput) :
    (Machine.run (step cfg) (create cfg) inputs).store.WithinLimits cfg.store := by
  have hreach : Store.Reachable cfg.store (Machine.run (step cfg) (create cfg) inputs).store := Reachable.store ⟨inputs, rfl⟩
  exact hreach.withinLimits

end Service

end SharkRail
