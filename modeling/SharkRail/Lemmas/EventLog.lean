import SharkRail.Theorems.Capacity

/-!
# What a transaction logs

Every transaction that writes a row, other than the renewal of a lease, raises its revision by one and logs one event of that revision
(`RowLog`). A transaction leaves the events of the jobs that are still there, the events it logged after them, and the oldest of all of
them trimmed (`LogStep`).
-/

namespace SharkRail

namespace Store

open Fallible Relation

variable {cfg : StoreConfig} {call : StoreCall} {clock : Reading} {s s' : Store}

/-- What a transaction logs for a row that is there after it. -/
inductive RowLog (call : StoreCall) (clock : Reading) (s : Store) (r' : JobRow) : List EventRow → Prop where
  | kept (hrow : r' ∈ s.jobs) : RowLog call clock s r' []
  | renewed (r : JobRow) (hrow : r ∈ s.jobs) (attemptId : Uuid) (owner : String) (leaseSeconds : Int)
      (hcall : call = .renewLease r.id attemptId owner leaseSeconds)
      (hsame : r' = { r with leaseExpiresAt := some (clock.now + leaseSeconds * Instant.second) }) : RowLog call clock s r' []
  | accepted (e : EventRow) (hnew : ∀ r ∈ s.jobs, r.id ≠ r'.id) (tenantId key : String) (spec : JobSpec)
      (hcall : call = .submit tenantId key spec) (hphase : r'.phase = .queued) (hrevision : r'.revision = 1)
      (hid : e.jobId = r'.id) (heq : e.revision = r'.revision) : RowLog call clock s r' [e]
  | moved (e : EventRow) (r : JobRow) (hrow : r ∈ s.jobs) (drawn : Uuid) (notes : List OutboxRow)
      (hstep : RowStep drawn clock r call r' (some e.kind) notes) (hid : e.jobId = r'.id) (heq : e.revision = r'.revision) :
      RowLog call clock s r' [e]

theorem RowLog.of_jobs {s₀ : Store} {r' : JobRow} {new : List EventRow} (h : RowLog call clock s₀ r' new) (hjobs : s₀.jobs = s.jobs) :
    RowLog call clock s r' new := by
  cases h with
  | kept hrow => exact .kept (hjobs ▸ hrow)
  | renewed r hrow attemptId owner leaseSeconds hcall hsame => exact .renewed r (hjobs ▸ hrow) attemptId owner leaseSeconds hcall hsame
  | accepted e hnew tenantId key spec hcall hphase hrevision hid heq =>
    exact .accepted e (hjobs ▸ hnew) tenantId key spec hcall hphase hrevision hid heq
  | moved e r hrow drawn notes hstep hid heq => exact .moved e r (hjobs ▸ hrow) drawn notes hstep hid heq

/-- The events of the jobs that are there. -/
def eventsOfJobs (jobs : List JobRow) (events : List EventRow) : List EventRow :=
  events.filter fun e => jobs.any fun r => r.id = e.jobId

/-- What a transaction does to the log of the events, given the events it logs. -/
structure LogStep (cfg : StoreConfig) (call : StoreCall) (clock : Reading) (s s' : Store) (new : List EventRow) : Prop where
  events : s'.events = keepNewest cfg (eventsOfJobs s'.jobs s.events ++ new)
  numbered : new.map (·.seq) = List.range' s.nextSeq new.length
  rows : ∀ r' ∈ s'.jobs, RowLog call clock s r' (new.filter fun e => e.jobId = r'.id)
  named : ∀ e ∈ new, ∃ r' ∈ s'.jobs, r'.id = e.jobId

/-! ## Logs that are kept -/

theorem keepNewest_of_few {events : List EventRow} (h : events.length ≤ cfg.maxEventRecords.toNat) : keepNewest cfg events = events := by
  unfold keepNewest
  rw [Nat.sub_eq_zero_of_le h, List.drop_zero]

/-- Every event of a store is of a job that is there. -/
theorem eventsOfJobs_self (hd : Dated s) {jobs : List JobRow} (h : ∀ r ∈ s.jobs, ∃ r' ∈ jobs, r'.id = r.id) :
    eventsOfJobs jobs s.events = s.events := by
  refine List.filter_eq_self.2 fun e he => ?_
  obtain ⟨r, hr, hid, -⟩ := hd e he
  obtain ⟨r', hr', hid'⟩ := h r hr
  rw [List.any_eq_true]
  exact ⟨r', hr', by simpa using hid'.trans hid⟩

/-- A transaction that leaves the jobs and the events logs nothing. -/
theorem LogStep.of_same (hs : Sound cfg s) (hjobs : s'.jobs = s.jobs) (hevents : s'.events = s.events) :
    LogStep cfg call clock s s' [] := by
  refine ⟨?_, rfl, fun r' hr' => .kept (hjobs ▸ hr'), by simp⟩
  rw [hevents, List.append_nil, hjobs, eventsOfJobs_self hs.dated fun r hr => ⟨r, hr, rfl⟩]
  exact (keepNewest_of_few hs.sequenced.few).symm

/-- Jobs that are deleted take their events with them. -/
theorem LogStep.of_deleted (hs : Sound cfg s) (hjobs : ∀ r ∈ s'.jobs, r ∈ s.jobs)
    (hevents : s'.events = eventsOfJobs s'.jobs s.events) :
    LogStep cfg call clock s s' [] := by
  refine ⟨?_, rfl, fun r' hr' => .kept (hjobs r' hr'), by simp⟩
  rw [List.append_nil, hevents, keepNewest_of_few]
  exact (List.length_filter_le _ _).trans hs.sequenced.few

/-- Trimming a log in order keeps the events that are newer than one it keeps. -/
theorem mem_keepNewest_of_newer {events : List EventRow} (h : events.Pairwise fun e e' => e.seq < e'.seq) {e e' : EventRow}
    (he : e ∈ keepNewest cfg events) (he' : e' ∈ events) (hle : e.seq ≤ e'.seq) : e' ∈ keepNewest cfg events := by
  unfold keepNewest at he ⊢
  generalize events.length - cfg.maxEventRecords.toNat = n at he ⊢
  rw [← List.take_append_drop n events, List.pairwise_append] at h
  rw [← List.take_append_drop n events, List.mem_append] at he'
  rcases he' with hold | hnew
  · exact absurd (h.2.2 e' hold e he) (by omega)
  · exact hnew

/-- An event that is trimmed from a log in order leaves as many as are kept, all of them newer. -/
theorem full_of_not_mem_keepNewest {events : List EventRow} (h : events.Pairwise fun e e' => e.seq < e'.seq) {e : EventRow}
    (he : e ∈ events) (hnot : e ∉ keepNewest cfg events) :
    (keepNewest cfg events).length = cfg.maxEventRecords.toNat ∧ ∀ x ∈ keepNewest cfg events, e.seq < x.seq := by
  constructor
  · have hmany : cfg.maxEventRecords.toNat < events.length := by
      by_contra hfew
      exact hnot (by rwa [keepNewest_of_few (Nat.le_of_not_lt hfew)])
    rw [keepNewest, List.length_drop]
    omega
  · intro x hx
    by_contra hle
    exact hnot (mem_keepNewest_of_newer h hx he (Nat.le_of_not_lt hle))

/-! ## One change -/

/-- The events that are logged stay in order behind those that are there. -/
theorem LogStep.ordered {new : List EventRow} (hs : Sequenced cfg s) (h : LogStep cfg call clock s s' new) :
    (eventsOfJobs s'.jobs s.events ++ new).Pairwise fun e e' => e.seq < e'.seq := by
  refine List.pairwise_append.2 ⟨hs.ordered.sublist List.filter_sublist, ?_, fun e he e' he' => ?_⟩
  · rw [← List.pairwise_map (f := EventRow.seq) (R := fun a b => a < b), h.numbered]
    exact List.pairwise_lt_range'
  · have hseq : e'.seq ∈ List.range' s.nextSeq new.length := h.numbered ▸ List.mem_map_of_mem he'
    exact (hs.drawn e (List.mem_of_mem_filter he)).trans_le (List.mem_range'_1.1 hseq).1

/-- The next event comes behind all that are there. -/
theorem Sequenced.append (hs : Sequenced cfg s) {e : EventRow} (hseq : e.seq = s.nextSeq) :
    (s.events ++ [e]).Pairwise fun e e' => e.seq < e'.seq := by
  refine List.pairwise_append.2 ⟨hs.ordered, List.pairwise_singleton _ _, ?_⟩
  rintro x hx y (_ | ⟨_, ⟨⟩⟩)
  exact hseq.symm ▸ hs.drawn x hx

/-- A row that is moved keeps the rows of the other jobs, and its own id. -/
theorem exists_of_replaceJob {row row' : JobRow} (hid : row'.id = row.id) (hjobs : s'.jobs = replaceJob row.id row' s.jobs) (r : JobRow)
    (hr : r ∈ s.jobs) : ∃ r' ∈ s'.jobs, r'.id = r.id := by
  rw [hjobs]
  by_cases h : r.id = row.id
  · exact ⟨row', mem_replaceJob.2 (.inr ⟨rfl, r, hr, h⟩), hid.trans h.symm⟩
  · exact ⟨r, mem_replaceJob.2 (.inl ⟨hr, h⟩), rfl⟩

/-- Deleting a job and its events leaves the events of the jobs that are left. -/
theorem eventsOfJobs_delete (jobs : List JobRow) (events : List EventRow) (jobId : Uuid) :
    eventsOfJobs (Table.delete (fun r => r.id = jobId) jobs) events =
      Table.delete (fun e => e.jobId = jobId) (eventsOfJobs jobs events) := by
  unfold eventsOfJobs Table.delete
  rw [List.filter_filter]
  refine List.filter_congr fun e _ => ?_
  rw [Bool.eq_iff_iff, Bool.and_eq_true, List.any_eq_true, List.any_eq_true]
  constructor
  · rintro ⟨r, hr, hid⟩
    obtain ⟨hr, hne⟩ := List.mem_filter.1 hr
    rw [decide_eq_true_eq] at hid
    exact ⟨by simpa [hid] using hne, r, hr, by simpa using hid⟩
  · rintro ⟨hne, r, hr, hid⟩
    rw [decide_eq_true_eq] at hid
    exact ⟨r, List.mem_filter.2 ⟨hr, by simpa [hid] using hne⟩, by simpa using hid⟩

/-- One change logs one event for the row that it writes, if it is not a renewal, and none otherwise. -/
theorem Change.logged (hs : Sound cfg s) (h : Change cfg call clock s s') : ∃ new, LogStep cfg call clock s s' new := by
  cases h with
  | accepted tenantId key spec hcall hspec hnew hroom hjobs hevents =>
    have hfresh : ∀ r ∈ s.jobs, r.id ≠ s.drawn := fun r hr => (hs.wellFormed.jobDrawn r hr).ne
    refine ⟨[⟨s.nextSeq, s.drawn, 1, "job.accepted", clock.now⟩], ?_, rfl, fun r' hr' => ?_, ?_⟩
    · rw [hevents, logged_eq (hs.sequenced.append rfl), hjobs,
        eventsOfJobs_self hs.dated fun r hr => ⟨r, Table.mem_insert.2 (.inl hr), rfl⟩]
    · rw [hjobs, Table.mem_insert] at hr'
      rcases hr' with hr' | rfl
      · rw [List.filter_cons_of_neg (by simpa using (hfresh r' hr').symm)]
        exact .kept hr'
      · rw [List.filter_cons_of_pos (by simp [acceptedRow])]
        exact .accepted _ hfresh tenantId key spec hcall rfl rfl rfl rfl
    · rintro e (_ | ⟨_, ⟨⟩⟩)
      rw [hjobs]
      exact ⟨_, Table.mem_insert.2 (.inr rfl), rfl⟩
  | moved row row' kind notes hrow hstep hjobs hevents hquiet =>
    have hthere := exists_of_replaceJob (s := s) hstep.key.1 hjobs
    have hmem : row' ∈ s'.jobs := by
      rw [hjobs]
      exact mem_replaceJob.2 (.inr ⟨rfl, row, hrow, rfl⟩)
    cases kind with
    | none =>
      refine ⟨[], ?_, rfl, fun r' hr' => ?_, by simp⟩
      · rw [List.append_nil, hquiet rfl, eventsOfJobs_self hs.dated hthere, keepNewest_of_few hs.sequenced.few]
      · rw [hjobs, mem_replaceJob] at hr'
        rcases hr' with ⟨hr', -⟩ | ⟨rfl, -⟩
        · exact .kept hr'
        · cases hstep with
          | renewed attemptId owner leaseSeconds => exact .renewed row hrow attemptId owner leaseSeconds rfl rfl
    | some k =>
      obtain ⟨now, hlogged⟩ := hevents k rfl
      refine ⟨[⟨s.nextSeq, row.id, row'.revision, k, now⟩], ?_, rfl, fun r' hr' => ?_, ?_⟩
      · rw [hlogged, logged_eq (hs.sequenced.append rfl), eventsOfJobs_self hs.dated hthere]
      · rw [hjobs, mem_replaceJob] at hr'
        rcases hr' with ⟨hr', hne⟩ | ⟨rfl, -⟩
        · rw [List.filter_cons_of_neg (by simpa using Ne.symm hne)]
          exact .kept hr'
        · rw [List.filter_cons_of_pos (by simp [hstep.key.1])]
          exact .moved _ row hrow s.drawn notes hstep hstep.key.1.symm rfl
      · rintro e (_ | ⟨_, ⟨⟩⟩)
        exact ⟨row', hmem, hstep.key.1⟩
  | released _ _ _ hjobs hevents => exact ⟨[], .of_same hs hjobs hevents⟩
  | delivery _ _ _ _ _ hjobs hevents => exact ⟨[], .of_same hs hjobs hevents⟩
  | cleared _ _ _ hjobs _ hevents => exact ⟨[], .of_same hs hjobs hevents⟩
  | pruned _ _ row _ _ _ _ hjobs _ hevents => exact ⟨[], .of_deleted hs (fun r hr => (Table.mem_delete.1 (hjobs ▸ hr)).1)
      (by rw [hevents, hjobs, eventsOfJobs_delete, eventsOfJobs_self hs.dated fun r hr => ⟨r, hr, rfl⟩])⟩
  | restarted _ htables =>
    split at htables
    · obtain ⟨hjobs, -, -, hevents, -⟩ := create_tables cfg s.drawn
      refine ⟨[], .of_deleted hs (fun r hr => ?_) ?_⟩
      · rw [htables, hjobs] at hr
        cases hr
      · rw [htables, hjobs, hevents]
        exact (List.filter_eq_nil_iff.2 fun e _ => by simp).symm
    · exact ⟨[], .of_same hs (by rw [htables]; rfl) (by rw [htables]; rfl)⟩

/-! ## The transactions of many changes -/

/-- A pruning leaves the events of the jobs that it leaves. -/
theorem pruned_events {hasCleaner : Bool} {cutoff : Instant} (hd : Dated s)
    (h : ReflTransGen (Change cfg (.prune hasCleaner cutoff) clock) s s') :
    (∀ r ∈ s'.jobs, r ∈ s.jobs) ∧ s'.events = eventsOfJobs s'.jobs s.events := by
  induction h with
  | refl => exact ⟨fun _ hr => hr, (eventsOfJobs_self hd fun r hr => ⟨r, hr, rfl⟩).symm⟩
  | tail _ hc ih =>
    obtain ⟨hrows, hkept⟩ := ih
    cases hc with
    | accepted _ _ _ hcall => cases hcall
    | moved _ _ _ _ _ hstep => cases hstep
    | released _ _ _ hjobs hevents => rw [hjobs, hevents]; exact ⟨hrows, hkept⟩
    | delivery _ _ _ _ _ hjobs hevents => rw [hjobs, hevents]; exact ⟨hrows, hkept⟩
    | pruned _ _ row _ _ _ _ hjobs _ hevents =>
      refine ⟨fun r hr => hrows r (Table.mem_delete.1 (hjobs ▸ hr)).1, ?_⟩
      rw [hevents, hkept, hjobs, eventsOfJobs_delete]
    | cleared _ hcall => cases hcall
    | restarted hcall => cases hcall

/-- The claim of due notifications leaves the jobs and the events. -/
theorem claimOutboxDue_jobs {limit : Int} {lease : Instant} (h : ReflTransGen (Change cfg (.claimOutboxDue limit lease) clock) s s') :
    s'.jobs = s.jobs ∧ s'.events = s.events := by
  induction h with
  | refl => exact ⟨rfl, rfl⟩
  | tail _ hc ih =>
    cases hc with
    | accepted _ _ _ hcall => cases hcall
    | moved _ _ _ _ _ hstep => cases hstep
    | released _ _ _ hjobs hevents => exact ⟨hjobs.trans ih.1, hevents.trans ih.2⟩
    | delivery _ _ _ _ _ hjobs hevents => exact ⟨hjobs.trans ih.1, hevents.trans ih.2⟩
    | pruned _ _ _ hcall => cases hcall
    | cleared _ hcall => cases hcall
    | restarted hcall => cases hcall

/-- The events that moves log, in the order of the moves. -/
theorem eventsOf_facts (seq : Nat) (ms : List Move) :
    (eventsOf seq ms).map (·.seq) = List.range' seq (eventsOf seq ms).length ∧
      ∀ e ∈ eventsOf seq ms, ∃ m ∈ ms, e.jobId = m.row.id ∧ e.revision = m.row.revision + 1 ∧ e.kind = m.kind := by
  induction ms generalizing seq with
  | nil => exact ⟨rfl, by simp [eventsOf]⟩
  | cons m ms ih =>
    obtain ⟨hseq, hfrom⟩ := ih (seq + 1)
    constructor
    · rw [eventsOf, List.map_cons, hseq, List.length_cons, List.range'_succ]
      rfl
    · rintro e (_ | ⟨_, he⟩)
      · exact ⟨m, List.mem_cons_self, rfl, rfl, rfl⟩
      · obtain ⟨m', hm', hfacts⟩ := hfrom e he
        exact ⟨m', List.mem_cons_of_mem _ hm', hfacts⟩

/-- The one event that moves of different rows log for a row: that of its move, if there is one. -/
theorem filter_eventsOf (seq : Nat) {ms : List Move} (hids : (ms.map (·.row.id)).Nodup) (jobId : Uuid) :
    (∀ m ∈ ms, m.row.id ≠ jobId) ∧ (eventsOf seq ms).filter (fun e => e.jobId = jobId) = [] ∨
      ∃ m ∈ ms, ∃ n, m.row.id = jobId ∧ (eventsOf seq ms).filter (fun e => e.jobId = jobId) = [m.event n] := by
  induction ms generalizing seq with
  | nil => exact .inl ⟨by simp, rfl⟩
  | cons m ms ih =>
    obtain ⟨hnot, hids⟩ := List.nodup_cons.1 hids
    rw [eventsOf]
    by_cases hid : m.row.id = jobId
    · right
      refine ⟨m, List.mem_cons_self, seq, hid, ?_⟩
      rw [List.filter_cons_of_pos (by exact decide_eq_true hid)]
      rcases ih (seq + 1) hids with ⟨-, hnone⟩ | ⟨m', hm', -, hid', -⟩
      · rw [hnone]
      · exact absurd (List.mem_map.2 ⟨m', hm', hid'.trans hid.symm⟩) hnot
    · rw [List.filter_cons_of_neg (by simpa using show (m.event seq).jobId ≠ jobId from hid)]
      rcases ih (seq + 1) hids with ⟨hother, hnone⟩ | ⟨m', hm', n, hfound⟩
      · exact .inl ⟨List.forall_mem_cons.2 ⟨hid, hother⟩, hnone⟩
      · exact .inr ⟨m', List.mem_cons_of_mem _ hm', n, hfound⟩

/-- What moves of different rows leave: the events they logged behind those that were there, and each row as it was or as it was moved. -/
theorem MovedAll.logged {ms : List Move} (hs : Sequenced cfg s) (h : MovedAll cfg ms s s')
    (hrows : ∀ m ∈ ms, m.row ∈ s.jobs ∧ m.row'.id = m.row.id) (hids : (ms.map (·.row.id)).Nodup) :
    s'.events = keepNewest cfg (s.events ++ eventsOf s.nextSeq ms) ∧
      ∀ r' ∈ s'.jobs, (r' ∈ s.jobs ∧ ∀ m ∈ ms, m.row.id ≠ r'.id) ∨ ∃ m ∈ ms, r' = m.row' := by
  induction ms generalizing s with
  | nil =>
    subst h
    refine ⟨?_, fun r' hr' => .inl ⟨hr', by simp⟩⟩
    rw [eventsOf, List.append_nil, keepNewest_of_few hs.few]
  | cons m ms ih =>
    obtain ⟨s₁, hmoved, hrest⟩ := h
    obtain ⟨hnot, hids⟩ := List.nodup_cons.1 hids
    obtain ⟨hs₁, hevents₁⟩ := hs.logged rfl hmoved.events hmoved.nextSeq
    have hother : ∀ m' ∈ ms, m'.row.id ≠ m.row.id := fun m' hm' heq => hnot (List.mem_map.2 ⟨m', hm', heq⟩)
    have hrows₁ : ∀ m' ∈ ms, m'.row ∈ s₁.jobs ∧ m'.row'.id = m'.row.id := fun m' hm' =>
      ⟨hmoved.mem (hrows m' (List.mem_cons_of_mem _ hm')).1 (hother m' hm'), (hrows m' (List.mem_cons_of_mem _ hm')).2⟩
    obtain ⟨hevents, hjobs⟩ := ih hs₁ hrest hrows₁ hids
    constructor
    · rw [hevents, hevents₁, hmoved.nextSeq, keepNewest_append, List.append_assoc]
      rfl
    · intro r' hr'
      rcases hjobs r' hr' with ⟨hr', hne⟩ | ⟨m', hm', rfl⟩
      · rw [hmoved.jobs, mem_replaceJob] at hr'
        rcases hr' with ⟨hr', hid⟩ | ⟨rfl, -⟩
        · exact .inl ⟨hr', List.forall_mem_cons.2 ⟨hid.symm, hne⟩⟩
        · exact .inr ⟨m, List.mem_cons_self, rfl⟩
      · exact .inr ⟨m', List.mem_cons_of_mem _ hm', rfl⟩

/-- Moves of different rows by one call log one event for each of them. -/
theorem LogStep.of_moves {ms : List Move} (hs : Sound cfg s) (h : MovedAll cfg ms s s')
    (hrows : ∀ m ∈ ms, m.row ∈ s.jobs ∧ m.row'.id = m.row.id) (hids : (ms.map (·.row.id)).Nodup)
    (hsteps : ∀ m ∈ ms, m.row'.revision = m.row.revision + 1 ∧
      ∃ drawn notes, RowStep drawn clock m.row call m.row' (some m.kind) notes) :
    LogStep cfg call clock s s' (eventsOf s.nextSeq ms) := by
  obtain ⟨hevents, hjobs⟩ := h.logged hs.sequenced hrows hids
  have hthere : ∀ r ∈ s.jobs, ∃ r' ∈ s'.jobs, r'.id = r.id := by
    intro r hr
    by_cases hmoved : ∃ m ∈ ms, m.row.id = r.id
    · obtain ⟨m, hm, hid⟩ := hmoved
      exact ⟨m.row', h.settled hrows hids (.inr ⟨m, hm, rfl⟩), (hrows m hm).2.trans hid⟩
    · exact ⟨r, h.settled hrows hids (.inl ⟨hr, fun m hm heq => hmoved ⟨m, hm, heq.symm⟩⟩), rfl⟩
  obtain ⟨hnumbered, hfrom⟩ := eventsOf_facts s.nextSeq ms
  refine ⟨?_, hnumbered, fun r' hr' => ?_, fun e he => ?_⟩
  · rw [hevents, eventsOfJobs_self hs.dated hthere]
  · rcases filter_eventsOf s.nextSeq hids r'.id with ⟨hother, hnone⟩ | ⟨m, hm, n, hid, hone⟩
    · rw [hnone]
      rcases hjobs r' hr' with ⟨hr', -⟩ | ⟨m, hm, rfl⟩
      · exact .kept hr'
      · exact absurd (hrows m hm).2.symm (hother m hm)
    · rw [hone]
      rcases hjobs r' hr' with ⟨-, hne⟩ | ⟨m', hm', rfl⟩
      · exact absurd hid (hne m hm)
      · obtain rfl : m' = m := by
          have hsame : m'.row.id = m.row.id := (hrows m' hm').2.symm.trans hid.symm
          exact List.inj_on_of_nodup_map hids hm' hm hsame
        obtain ⟨hrevision, drawn, notes, hstep⟩ := hsteps m' hm'
        exact .moved _ m'.row (hrows m' hm').1 drawn notes hstep (hrows m' hm').2.symm hrevision.symm
  · obtain ⟨m, hm, hid, -⟩ := hfrom e he
    exact ⟨m.row', h.settled hrows hids (.inr ⟨m, hm, rfl⟩), (hrows m hm).2.trans hid.symm⟩

/-! ## Every transaction -/

theorem recoverInterrupted_logged (clock : Reading) (hs : Sound cfg s) (hx : Exact cfg s) :
    ∃ new, LogStep cfg .recoverInterrupted clock s (recoverInterrupted cfg clock s).2 new := by
  let s₀ := s.updateOutbox cfg (fun o => o.state = .delivering) fun o =>
    { o with state := .pending, nextAttemptAt := clock.now, deliveryAttemptId := none }
  let rows := Table.select (fun r => r.phase.held) s.jobs
  obtain ⟨hs₀, hx₀, hleft⟩ := interrupted_left clock hs hx
  by_cases hnotifiable : ∀ row ∈ s.jobs, row.phase.held = true → row.Notifiable
  · obtain ⟨s', hloop, hmoved, -⟩ := interrupted_loop clock hs₀ hx₀ hleft fun r hr =>
      hnotifiable r (Table.mem_select.1 hr).1 (Table.mem_select.1 hr).2
    have hlogged : LogStep cfg .recoverInterrupted clock s₀ s' (eventsOf s₀.nextSeq (rows.map (lostMove "service_restarted" clock))) := by
      refine .of_moves hs₀ hmoved (fun m hm => ?_) ?_ fun m hm => ?_
      · obtain ⟨row, hrow, rfl⟩ := List.mem_map.1 hm
        exact ⟨(hleft.rows row hrow).1, rfl⟩
      · rw [List.map_map]
        exact hleft.ids
      · obtain ⟨row, hrow, rfl⟩ := List.mem_map.1 hm
        exact ⟨rfl, s.drawn, _, .interrupted (hleft.rows row hrow).2⟩
    unfold recoverInterrupted
    rcases transaction_cases cfg _ s with ⟨e, h⟩ | ⟨a, s₁, hb, h⟩
    · rw [h]
      exact ⟨[], .of_same hs rfl rfl⟩
    · rw [h]
      simp only [bind_eq_ok, pure_eq_ok, Prod.mk.injEq] at hb
      obtain ⟨s₂, hloop', -, rfl⟩ := hb
      obtain rfl : s' = s₂ := Except.ok.inj (hloop.symm.trans hloop')
      exact ⟨_, hlogged.events, hlogged.numbered, fun r' hr' => (hlogged.rows r' hr').of_jobs rfl, hlogged.named⟩
  -- a row that it can not announce leaves everything as it was
  · obtain ⟨_, -, -, _, -, hraised⟩ := recoverInterrupted_raises clock hs hx hnotifiable
    rw [hraised]
    exact ⟨[], .of_same hs rfl rfl⟩

theorem recoverExpiredLeases_logged (clock : Reading) (excludeJobIds : List Uuid) (hs : Sound cfg s) (hx : Exact cfg s) :
    ∃ new, LogStep cfg (.recoverExpiredLeases excludeJobIds) clock s (recoverExpiredLeases cfg clock excludeJobIds s).2 new := by
  obtain ⟨hleft, hexpired⟩ := expired_left clock excludeJobIds hs
  by_cases hnotifiable : ∀ row ∈ s.expired clock excludeJobIds, row.Notifiable
  · obtain ⟨n, s', hloop, hmoved, -⟩ := expired_loop clock excludeJobIds 0 hs hx hleft hexpired fun r hr hover =>
      hnotifiable r (List.mem_filter.2 ⟨hr, hover⟩)
    unfold recoverExpiredLeases
    rcases transaction_cases cfg _ s with ⟨e, h⟩ | ⟨a, s₁, hb, h⟩
    · rw [h]
      exact ⟨[], .of_same hs rfl rfl⟩
    · rw [h]
      obtain ⟨rfl, rfl⟩ := Prod.mk.inj (Except.ok.inj (hloop.symm.trans hb))
      refine ⟨_, .of_moves hs hmoved (fun m hm => ?_) ?_ fun m hm => ?_⟩
      · obtain ⟨row, hrow, rfl⟩ := List.mem_map.1 hm
        exact ⟨(hleft.rows row (List.mem_filter.1 hrow).1).1, rfl⟩
      · rw [List.map_map]
        exact hleft.ids.sublist (List.filter_sublist.map _)
      · obtain ⟨row, hrow, rfl⟩ := List.mem_map.1 hm
        have hrow' := (List.mem_filter.1 hrow).1
        exact ⟨rfl, s.drawn, _, .leaseExpired excludeJobIds (hleft.rows row hrow').2 (hexpired row hrow').1 (hexpired row hrow').2⟩
  · obtain ⟨_, -, _, -, hraised⟩ := recoverExpiredLeases_raises clock excludeJobIds hs hx hnotifiable
    rw [hraised]
    exact ⟨[], .of_same hs rfl rfl⟩

/-- Every transaction of a store in use logs one event for each row that it writes, renewals apart. -/
theorem step_logged (h : Reachable cfg s) (input : StoreCall × Reading) :
    ∃ new, LogStep cfg input.1 input.2 s (step cfg s input) new := by
  obtain ⟨call, clock⟩ := input
  have hs := h.sound
  have one : ∀ {call s'}, s' = s ∨ Change cfg call clock s s' → ∃ new, LogStep cfg call clock s s' new := by
    rintro call s' (rfl | hc)
    · exact ⟨[], .of_same hs rfl rfl⟩
    · exact hc.logged hs
  cases call with
  | submit tenantId key spec =>
    cases hspec : spec.validate with
    | ok u => simpa only [step, hspec] using one (submit_change hs.wellFormed hspec)
    | error e => simpa only [step, hspec] using ⟨[], LogStep.of_same hs rfl rfl⟩
  | claimNext owner leaseSeconds => exact one (claimNext_change hs.wellFormed)
  | markRunning jobId attemptId owner => exact one (markRunning_change cfg hs.wellFormed)
  | renewLease jobId attemptId owner leaseSeconds => exact one (renewLease_change hs.wellFormed)
  | finish jobId attemptId owner report => exact one (finish_change hs.wellFormed)
  | requestCancel jobId tenantId => exact one (requestCancel_change hs.wellFormed)
  | recoverInterrupted => exact recoverInterrupted_logged clock hs h.exact
  | recoverExpiredLeases excludeJobIds => exact recoverExpiredLeases_logged clock excludeJobIds hs h.exact
  | claimOutboxDue limit lease =>
    obtain ⟨hjobs, hevents⟩ := claimOutboxDue_jobs (changes_of_step hs.wellFormed (.claimOutboxDue limit lease) clock)
    exact ⟨[], .of_same hs hjobs hevents⟩
  | outboxDelivered eventId token => exact one (outboxDelivered_change hs.wellFormed)
  | outboxFailed eventId token error nextAttemptAt permanent => exact one (outboxFailed_change hs.wellFormed)
  | prune hasCleaner cutoff =>
    obtain ⟨hrows, hevents⟩ := pruned_events hs.dated (changes_of_step hs.wellFormed (.prune hasCleaner cutoff) clock)
    exact ⟨[], .of_deleted hs hrows hevents⟩
  | clearManifest jobId => exact one clearManifest_change
  | reopen =>
    refine one (.inr (.restarted rfl ?_))
    unfold step reopen
    split <;> rfl

end Store

end SharkRail
