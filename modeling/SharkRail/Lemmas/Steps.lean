import SharkRail.Lemmas.WellFormed

/-!
# Every transaction is a sequence of changes

The operations refine the state machines of `Transitions`: a transaction that raised left the store as it was, and one that
committed went by `Change`s of its own call. The single rows are moved by one change; the two recoveries, the claim of due
notifications and the pruning move one row after another.
-/

namespace SharkRail

namespace Store

open Fallible Relation

variable {cfg : StoreConfig} {clock : Reading} {s s' : Store}

/-- A part that only reads leaves the store of what came before. -/
theorem andThen_store {α β : Type} {o : Outcome α} {f : α → Store → Outcome β} (hf : ∀ a s, (f a s).2 = s) :
    (o.andThen f).2 = o.2 := by
  obtain ⟨r, s⟩ := o
  cases r with
  | error e => rfl
  | ok a => exact hf a s

/-- The row just written is the one read back. -/
theorem rowOf_replaced {jobs : List JobRow} (row : JobRow) {row' r : JobRow} (hid : row'.id = row.id)
    (hjobs : s.jobs = replaceJob row.id row' jobs) (h : s.rowOf row.id = .ok r) : r = row' := by
  obtain ⟨hr, hrid, -⟩ := mem_of_selectJob h
  rw [hjobs, mem_replaceJob] at hr
  rcases hr with ⟨-, hne⟩ | ⟨rfl, -⟩
  · exact absurd hrid hne
  · rfl

/-! ## Transactions on one job -/

/-- The ends of the transaction of `submit`: it raised and left the store, it found the job again, or it accepted a new one. -/
theorem submit_cases (cfg : StoreConfig) (clock : Reading) (hs : WellFormed s) (tenantId key : String) {spec : JobSpec}
    (hspec : spec.validate = .ok ()) :
    (∃ e, submitTransaction cfg clock tenantId key spec s = (.error e, s)) ∨
      (∃ row ∈ s.jobs, ∃ job, row.tenantId = tenantId ∧ row.idempotencyKey = key ∧
        row.requestHash = cfg.host.sha256 (specText cfg spec) ∧ rowToJob row = .ok job ∧
        submitTransaction cfg clock tenantId key spec s = (.ok (job, false), s)) ∨
      ∃ job s', submitTransaction cfg clock tenantId key spec s = (.ok (job, true), s') ∧
        job.toJobRow = acceptedRow cfg clock.now s.storeEpoch s.drawn tenantId key spec ∧ s'.drawn = s.drawn + 1 ∧
        Change cfg (.submit tenantId key spec) clock s s' := by
  unfold submitTransaction
  rcases transaction_cases cfg _ s with ⟨e, h⟩ | ⟨a, s', hb, h⟩
  · exact Or.inl ⟨e, h⟩
  · rw [h]
    split at hb
    · rename_i row hfound
      have hrow := List.mem_of_find?_eq_some hfound
      obtain ⟨htenant, hkey⟩ : row.tenantId = tenantId ∧ row.idempotencyKey = key := by
        simpa using List.find?_some hfound
      split at hb
      · cases hb
      · rename_i hhash
        simp only [bind_eq_ok, pure_eq_ok, Prod.mk.injEq] at hb
        obtain ⟨job, hjob, rfl, rfl⟩ := hb
        exact Or.inr (Or.inl ⟨row, hrow, job, htenant, hkey, not_not.1 hhash, hjob, rfl⟩)
    · rename_i hnone
      split at hb
      · cases hb
      · rename_i hroom
        simp only [bind_eq_ok, pure_eq_ok, Prod.mk.injEq] at hb
        obtain ⟨s₁, hevent, row, hread, job, hjob, rfl, rfl⟩ := hb
        obtain ⟨bytes, rfl⟩ := event_eq hevent
        obtain ⟨hrow, hid, -⟩ := mem_of_selectJob hread
        refine Or.inr (Or.inr ⟨job, _, rfl, ?_, rfl, ?_⟩)
        · rw [rowToJob_eq hjob]
          rcases Table.mem_insert.1 hrow with hold | hnew
          · exact absurd hid (hs.jobDrawn row hold).ne
          · exact hnew
        · refine .accepted tenantId key spec rfl hspec ?_ (by simpa using hroom) rfl rfl rfl rfl rfl rfl
          intro r hr ⟨ht, hk⟩
          exact (List.find?_eq_none.1 hnone) r hr (by simp [ht, hk])

/-- A submission leaves the store, or makes one change. -/
theorem submit_change (hs : WellFormed s) {tenantId key : String} {spec : JobSpec} (hspec : spec.validate = .ok ()) :
    (submitTransaction cfg clock tenantId key spec s).2 = s ∨
      Change cfg (.submit tenantId key spec) clock s (submitTransaction cfg clock tenantId key spec s).2 := by
  rcases submit_cases cfg clock hs tenantId key hspec with
    ⟨e, h⟩ | ⟨_, _, _, -, -, -, -, h⟩ | ⟨_, s', h, -, -, hchange⟩
  · exact Or.inl (congrArg Prod.snd h)
  · exact Or.inl (congrArg Prod.snd h)
  · rw [h]
    exact Or.inr hchange

/-- The ends of `claim_next`: it raised, it found no job, or it assigned the oldest queued one to a new attempt. -/
theorem claimNext_cases (cfg : StoreConfig) (clock : Reading) (hs : WellFormed s) (owner : String) (leaseSeconds : Int) :
    (∃ e, claimNext cfg clock owner leaseSeconds s = (.error e, s)) ∨
      claimNext cfg clock owner leaseSeconds s = (.ok none, s) ∨
      ∃ row ∈ s.jobs, ∃ job s', row.phase = .queued ∧ claimNext cfg clock owner leaseSeconds s = (.ok (some job), s') ∧
        job.toJobRow = assignedRow clock s.drawn owner leaseSeconds row ∧
        s'.jobs = replaceJob row.id (assignedRow clock s.drawn owner leaseSeconds row) s.jobs ∧ s'.drawn = s.drawn + 1 ∧
        Change cfg (.claimNext owner leaseSeconds) clock s s' := by
  unfold claimNext
  rcases transaction_cases cfg _ s with ⟨e, h⟩ | ⟨a, s', hb, h⟩
  · exact Or.inl ⟨e, h⟩
  · rw [h]
    split at hb
    · rw [pure_eq_ok, Prod.mk.injEq] at hb
      obtain ⟨rfl, rfl⟩ := hb
      exact Or.inr (Or.inl rfl)
    · rename_i row hhead
      obtain ⟨hrow, hphase⟩ := Table.mem_selectBy.1 (List.mem_of_mem_head? hhead)
      have hphase : row.phase = .queued := by simpa using hphase
      have hcount : Table.rowcount (fun r : JobRow => r.id = row.id && r.revision = row.revision && r.phase = .queued)
          s.jobs = 1 :=
        Table.rowcount_key hs.jobIds hrow (fun r hr => by simp at hr; exact hr.1.1) (by simp [hphase])
      have hjobs : Table.update (fun r => r.id = row.id && r.revision = row.revision && r.phase = .queued)
          (assignedRow clock s.drawn owner leaseSeconds) s.jobs =
            replaceJob row.id (assignedRow clock s.drawn owner leaseSeconds row) s.jobs :=
        update_eq_replaceJob hs.jobIds hrow (fun r hr => by simp at hr; exact hr.1.1) (by simp [hphase])
      simp only [draw, hcount, ne_eq, not_true_eq_false, if_false, bind_eq_ok, pure_eq_ok, Prod.mk.injEq] at hb
      obtain ⟨s₁, hevent, row', hread, job, hjob, rfl, rfl⟩ := hb
      obtain ⟨bytes, rfl⟩ := event_eq hevent
      have hrow' := rowOf_replaced row (by rfl) hjobs hread
      subst hrow'
      refine Or.inr (Or.inr ⟨row, hrow, job, _, hphase, rfl, rowToJob_eq hjob, hjobs, rfl, ?_⟩)
      refine .moved row _ _ _ hrow (.assigned owner leaseSeconds hphase) hjobs ?_ (by simp) ?_ rfl ?_ ?_ rfl
      · rintro k ⟨⟩
        exact ⟨_, rfl⟩
      · exact (List.append_nil _).symm
      · exact Nat.le_succ _
      · exact fun _ => rfl

/-- A claim leaves the store, or makes one change. -/
theorem claimNext_change (hs : WellFormed s) {owner : String} {leaseSeconds : Int} :
    (claimNext cfg clock owner leaseSeconds s).2 = s ∨
      Change cfg (.claimNext owner leaseSeconds) clock s (claimNext cfg clock owner leaseSeconds s).2 := by
  rcases claimNext_cases cfg clock hs owner leaseSeconds with ⟨e, h⟩ | h | ⟨_, _, _, s', -, h, -, -, -, hchange⟩
  · exact Or.inl (congrArg Prod.snd h)
  · exact Or.inl (congrArg Prod.snd h)
  · rw [h]
    exact Or.inr hchange

/-- The read after a transaction leaves the store. -/
theorem thenGet_store {jobId : Uuid} {o : Outcome Unit} : (thenGet jobId o).2 = o.2 := andThen_store fun _ _ => rfl

/-- What `mark_running` does: nothing, where it fails, or it moves the row of its attempt to `running`. -/
theorem markRunning_cases (cfg : StoreConfig) (hs : WellFormed s) (jobId attemptId : Uuid) (owner : String) :
    (markRunning cfg clock jobId attemptId owner s).2 = s ∨
      ∃ row ∈ s.jobs, ∃ s', (markRunning cfg clock jobId attemptId owner s).2 = s' ∧ ownedBy jobId attemptId owner row = true ∧
        s'.jobs = replaceJob jobId (runningRow clock.now (row.revision + 1) row) s.jobs ∧ s'.outbox = s.outbox ∧
        Change cfg (.markRunning jobId attemptId owner) clock s s' := by
  unfold markRunning
  rw [thenGet_store]
  rcases transaction_cases cfg _ s with ⟨e, h⟩ | ⟨a, s', hb, h⟩
  · exact Or.inl (congrArg Prod.snd h)
  · rw [h]
    simp only [bind_eq_ok, pure_eq_ok, Prod.mk.injEq] at hb
    obtain ⟨row, hread, s₁, hevent, -, rfl⟩ := hb
    obtain ⟨hrow, howned⟩ := mem_of_ownedRow hread
    obtain ⟨rfl, -⟩ := ownedBy_iff.1 howned
    obtain ⟨bytes, rfl⟩ := event_eq hevent
    have hjobs : Table.update (ownedBy row.id attemptId owner) (runningRow clock.now (row.revision + 1)) s.jobs =
        replaceJob row.id (runningRow clock.now (row.revision + 1) row) s.jobs :=
      update_eq_replaceJob hs.jobIds hrow (fun r hr => (ownedBy_iff.1 hr).1) howned
    refine Or.inr ⟨row, hrow, _, rfl, howned, hjobs, rfl, ?_⟩
    refine .moved row _ _ _ hrow (.running attemptId owner howned) hjobs ?_ nofun ?_ rfl (Nat.le_refl _) ?_ rfl
    · rintro k ⟨⟩
      exact ⟨_, rfl⟩
    · exact (List.append_nil _).symm
    · rintro (h | h) <;> exact absurd rfl h

/-- `mark_running` leaves the store, or makes one change. -/
theorem markRunning_change (cfg : StoreConfig) (hs : WellFormed s) {jobId attemptId : Uuid} {owner : String} :
    (markRunning cfg clock jobId attemptId owner s).2 = s ∨
      Change cfg (.markRunning jobId attemptId owner) clock s (markRunning cfg clock jobId attemptId owner s).2 := by
  rcases markRunning_cases cfg hs jobId attemptId owner with h | ⟨_, -, s', h, -, -, -, hchange⟩
  · exact Or.inl h
  · rw [h]
    exact Or.inr hchange

/-- A renewal leaves the store, or makes one change. -/
theorem renewLease_change (hs : WellFormed s) {jobId attemptId : Uuid} {owner : String} {leaseSeconds : Int} :
    (renewLease cfg clock jobId attemptId owner leaseSeconds s).2 = s ∨
      Change cfg (.renewLease jobId attemptId owner leaseSeconds) clock s
        (renewLease cfg clock jobId attemptId owner leaseSeconds s).2 := by
  unfold renewLease
  rcases transaction_cases cfg _ s with ⟨e, h⟩ | ⟨a, s', hb, h⟩
  · exact Or.inl (congrArg Prod.snd h)
  · rw [h]
    rw [pure_eq_ok, Prod.mk.injEq] at hb
    obtain ⟨-, rfl⟩ := hb
    by_cases hmet : ∃ row ∈ s.jobs, (ownedBy jobId attemptId owner row && row.phase.held) = true
    · obtain ⟨row, hrow, hclause⟩ := hmet
      obtain ⟨howned, hheld⟩ := Bool.and_eq_true_iff.1 hclause
      obtain ⟨rfl, -⟩ := ownedBy_iff.1 howned
      refine Or.inr (.moved row _ _ _ hrow (.renewed attemptId owner leaseSeconds howned hheld) ?_ nofun (fun _ => rfl) ?_ rfl
        (Nat.le_refl _) ?_ rfl)
      · exact update_eq_replaceJob hs.jobIds hrow (fun r hr => (ownedBy_iff.1 (Bool.and_eq_true_iff.1 hr).1).1) hclause
      · exact (List.append_nil _).symm
      · rintro (h | h) <;> exact absurd rfl h
    · refine Or.inl (updateJobs_of_none (Table.rowcount_eq_zero.2 fun r hr => ?_))
      by_contra hc
      exact hmet ⟨r, hr, by simpa using hc⟩

/-- The read after a transaction that returned nothing leaves the store. -/
theorem returnedOrGet_store {jobId : Uuid} {o : Outcome (Option JobRecord)} : (returnedOrGet jobId o).2 = o.2 :=
  andThen_store fun returned _ => by cases returned <;> rfl

/-- A notification draws an id where it adds a row. -/
theorem drawn_of_notify {now : Instant} {row : JobRow} {drawn : Uuid} (h : notifications now drawn row ≠ []) :
    drawn + (notifications now drawn row).length = drawn + 1 := by
  have hpos := List.length_pos_iff.2 h
  have hle := length_notifications_le now drawn row
  rw [Nat.le_antisymm hle hpos]

/-- The ends of `finish`: it raised and left the store, it returned a job that is terminal already, or it settled the attempt and
reads the job back. -/
theorem finish_cases (cfg : StoreConfig) (clock : Reading) (hs : WellFormed s) (jobId attemptId : Uuid) (owner : String)
    (report : Report) :
    (∃ e, finish cfg clock jobId attemptId owner report s = (.error e, s)) ∨
      (∃ row ∈ s.jobs, ownedBy jobId attemptId owner row = true ∧ row.phase.terminal = true ∧
        finish cfg clock jobId attemptId owner report s = (rowToJob row, s)) ∨
      ∃ row ∈ s.jobs, row.id = jobId ∧ ownedBy jobId attemptId owner row = true ∧ report.phase.terminal = true ∧
        (finish cfg clock jobId attemptId owner report s).1 =
          (finish cfg clock jobId attemptId owner report s).2.get jobId none ∧
        Change cfg (.finish jobId attemptId owner report) clock s (finish cfg clock jobId attemptId owner report s).2 ∧
        (finish cfg clock jobId attemptId owner report s).2.jobs =
          replaceJob row.id (finishedRow clock.now row report row) s.jobs := by
  unfold finish
  split
  · exact Or.inl ⟨_, rfl⟩
  · rename_i hreport
    have hreport : report.phase.terminal = true := by simpa using hreport
    rcases transaction_cases cfg _ s with ⟨e, h⟩ | ⟨a, s', hb, h⟩
    · rw [h]
      exact Or.inl ⟨e, rfl⟩
    · rw [h, returnedOrGet_store]
      simp only [bind_eq_ok] at hb
      obtain ⟨row, hread, hb⟩ := hb
      obtain ⟨hrow, howned⟩ := mem_of_ownedRow hread
      split at hb
      · rename_i hterminal
        simp only [bind_eq_ok, pure_eq_ok, Prod.mk.injEq] at hb
        obtain ⟨job, hjob, rfl, rfl⟩ := hb
        exact Or.inr (Or.inl ⟨row, hrow, howned, hterminal, by rw [hjob]; rfl⟩)
      · split at hb
        · cases hb
        · rename_i hheld
          have hheld : row.phase.held = true := by simpa using hheld
          obtain ⟨rfl, -⟩ := ownedBy_iff.1 howned
          simp only [bind_eq_ok, pure_eq_ok, Prod.mk.injEq] at hb
          obtain ⟨s₁, hevent, r, hread', s₂, hnotify, rfl, rfl⟩ := hb
          obtain ⟨bytes, rfl⟩ := event_eq hevent
          have hjobs : Table.update (ownedBy row.id attemptId owner) (finishedRow clock.now row report) s.jobs =
              replaceJob row.id (finishedRow clock.now row report row) s.jobs :=
            update_eq_replaceJob hs.jobIds hrow (fun r hr => (ownedBy_iff.1 hr).1) howned
          have hr := rowOf_replaced row (by rfl) hjobs hread'
          subst hr
          obtain ⟨bytes', rfl⟩ := notify_eq hnotify
          refine Or.inr (Or.inr ⟨row, hrow, rfl, howned, hreport, rfl, ?_, hjobs⟩)
          refine .moved row _ _ _ hrow (.finished attemptId owner report howned hheld hreport) hjobs ?_ nofun rfl rfl
            (Nat.le_add_right _ _) ?_ rfl
          · rintro k ⟨⟩
            exact ⟨_, rfl⟩
          · rintro (h | h)
            · exact absurd rfl h
            · exact drawn_of_notify h

/-- `finish` leaves the store, or makes one change. -/
theorem finish_change (hs : WellFormed s) {jobId attemptId : Uuid} {owner : String} {report : Report} :
    (finish cfg clock jobId attemptId owner report s).2 = s ∨
      Change cfg (.finish jobId attemptId owner report) clock s
        (finish cfg clock jobId attemptId owner report s).2 := by
  rcases finish_cases cfg clock hs jobId attemptId owner report with ⟨e, h⟩ | ⟨_, -, -, -, h⟩ | ⟨_, -, -, -, -, -, hchange, -⟩
  · exact Or.inl (congrArg Prod.snd h)
  · exact Or.inl (congrArg Prod.snd h)
  · exact Or.inr hchange

/-- The ends of `request_cancel`: it raised and left the store, it returned a job that is terminal or has the intent already, or it
wrote the intent. -/
theorem requestCancel_cases (cfg : StoreConfig) (clock : Reading) (hs : WellFormed s) (jobId : Uuid) (tenantId : Option String) :
    (∃ e, requestCancel cfg clock jobId tenantId s = (.error e, s)) ∨
      (∃ row ∈ s.jobs, row.id = jobId ∧ (row.phase.terminal || row.cancelled) = true ∧
        requestCancel cfg clock jobId tenantId s = (rowToJob row, s)) ∨
      ∃ row ∈ s.jobs, row.id = jobId ∧ row.phase.terminal = false ∧ row.cancelled = false ∧
        Change cfg (.requestCancel jobId tenantId) clock s (requestCancel cfg clock jobId tenantId s).2 ∧
        (requestCancel cfg clock jobId tenantId s).2.jobs =
          replaceJob row.id (cancelRequestedRow clock.now row row) s.jobs := by
  unfold requestCancel
  rcases transaction_cases cfg _ s with ⟨e, h⟩ | ⟨a, s', hb, h⟩
  · rw [h]
    exact Or.inl ⟨e, rfl⟩
  · rw [h, returnedOrGet_store]
    simp only [bind_eq_ok] at hb
    obtain ⟨row, hread, hb⟩ := hb
    obtain ⟨hrow, rfl, htenant⟩ := mem_of_selectJob hread
    split at hb
    · rename_i hsettled
      simp only [bind_eq_ok, pure_eq_ok, Prod.mk.injEq] at hb
      obtain ⟨job, hjob, rfl, rfl⟩ := hb
      exact Or.inr (Or.inl ⟨row, hrow, rfl, hsettled, by rw [hjob]; rfl⟩)
    · rename_i hactive
      obtain ⟨hlive, hcancelled⟩ : row.phase.terminal = false ∧ row.cancelled = false := by simpa using hactive
      refine Or.inr (Or.inr ⟨row, hrow, rfl, hlive, hcancelled, ?_⟩)
      simp only [bind_eq_ok] at hb
      obtain ⟨s₁, hevent, r, hread', hb⟩ := hb
      obtain ⟨bytes, rfl⟩ := event_eq hevent
      have hjobs : Table.update (fun r => r.id = row.id && r.revision = row.revision) (cancelRequestedRow clock.now row) s.jobs
          = replaceJob row.id (cancelRequestedRow clock.now row row) s.jobs :=
        update_eq_replaceJob hs.jobIds hrow (fun r hr => by simp at hr; exact hr.1) (by simp)
      have hr := rowOf_replaced row (by rfl) hjobs hread'
      subst hr
      split at hb
      · rename_i hqueued
        simp only [bind_eq_ok, pure_eq_ok, Prod.mk.injEq] at hb
        obtain ⟨s₂, hnotify, -, rfl⟩ := hb
        obtain ⟨bytes', rfl⟩ := notify_eq hnotify
        refine ⟨.moved row _ _ _ hrow (.cancelled tenantId htenant hqueued hcancelled) hjobs ?_ nofun rfl rfl
          (Nat.le_add_right _ _) ?_ rfl, hjobs⟩
        · rintro k ⟨⟩
          exact ⟨_, rfl⟩
        · rintro (h | h)
          · exact absurd rfl h
          · exact drawn_of_notify h
      · rename_i hqueued
        rw [pure_eq_ok, Prod.mk.injEq] at hb
        obtain ⟨-, rfl⟩ := hb
        have hheld : row.phase.held = true := JobPhase.held_of_not_terminal hlive hqueued
        refine ⟨.moved row _ _ _ hrow (.cancelRequested tenantId htenant hheld hcancelled) hjobs ?_ nofun ?_ rfl
          (Nat.le_refl _) ?_ rfl, hjobs⟩
        · rintro k ⟨⟩
          exact ⟨_, rfl⟩
        · exact (List.append_nil _).symm
        · rintro (h | h) <;> exact absurd rfl h

/-- A request to cancel leaves the store, or makes one change. -/
theorem requestCancel_change (hs : WellFormed s) {jobId : Uuid} {tenantId : Option String} :
    (requestCancel cfg clock jobId tenantId s).2 = s ∨
      Change cfg (.requestCancel jobId tenantId) clock s (requestCancel cfg clock jobId tenantId s).2 := by
  rcases requestCancel_cases cfg clock hs jobId tenantId with ⟨e, h⟩ | ⟨row, -, -, -, h⟩ |
    ⟨row, -, -, -, -, h, -⟩
  · exact Or.inl (congrArg Prod.snd h)
  · exact Or.inl (congrArg Prod.snd h)
  · exact Or.inr h

/-! ## Transactions on many rows -/

/-- A loop that counts while it changes the store: the changes of the store alone. -/
theorem changes_of_pairs {α : Type} {R : Store → Store → Prop} {a b : α × Store}
    (h : ReflTransGen (fun a b : α × Store => ReflTransGen R a.2 b.2) a b) : ReflTransGen R a.2 b.2 := by
  rw [← reflTransGen_eq_self (r := ReflTransGen R)]
  exact h.lift Prod.snd fun _ _ h => h

/-- An attempt settled by a recovery is one change. -/
theorem settleLost_change {call : StoreCall} {now : Instant} {lostReason : String} {clause : JobRow → Bool} {row : JobRow}
    (hs : WellFormed s) (hrow : row ∈ s.jobs) (hclause : ∀ r, clause r = true → r.id = row.id) (hmet : clause row = true)
    (hstep : RowStep s.drawn clock row call (lostRow now lostReason row row)
      (some ("job." ++ (lostPhase row.cancelled).value)) (notifications now s.drawn (lostRow now lostReason row row)))
    (h : s.settleLost cfg now lostReason clause row = .ok s') :
    Change cfg call clock s s' ∧ s'.jobs = replaceJob row.id (lostRow now lostReason row row) s.jobs := by
  unfold settleLost at h
  simp only [bind_eq_ok] at h
  obtain ⟨s₁, hevent, r, hread, hnotify⟩ := h
  obtain ⟨bytes, rfl⟩ := event_eq hevent
  have hjobs : Table.update clause (lostRow now lostReason row) s.jobs =
      replaceJob row.id (lostRow now lostReason row row) s.jobs := update_eq_replaceJob hs.jobIds hrow hclause hmet
  have hr := rowOf_replaced row (by rfl) hjobs hread
  subst hr
  obtain ⟨bytes', rfl⟩ := notify_eq hnotify
  refine ⟨.moved row _ _ _ hrow hstep hjobs ?_ nofun rfl rfl (Nat.le_add_right _ _) ?_ rfl, hjobs⟩
  · rintro k ⟨⟩
    exact ⟨_, rfl⟩
  · rintro (h | h)
    · exact absurd rfl h
    · exact drawn_of_notify h

/-- What a loop over job rows it read knows of the rows that are left. -/
structure Pending (p : Store → JobRow → Prop) (rows : List JobRow) (s : Store) : Prop where
  wellFormed : WellFormed s
  ids : (rows.map (·.id)).Nodup
  rows : ∀ r ∈ rows, r ∈ s.jobs ∧ p s r

/-- The first of the rows that are pending is there. -/
theorem Pending.head {p : Store → JobRow → Prop} {row : JobRow} {rows : List JobRow} (h : Pending p (row :: rows) s) :
    row ∈ s.jobs ∧ p s row := h.rows row List.mem_cons_self

/-- The rows left are still pending after a change of the first one. -/
theorem Pending.tail {p : Store → JobRow → Prop} {row : JobRow} {rows : List JobRow} (h : Pending p (row :: rows) s)
    (hs : WellFormed s') (hkeep : ∀ r, r ∈ s.jobs → r.id ≠ row.id → p s r → r ∈ s'.jobs ∧ p s' r) : Pending p rows s' := by
  obtain ⟨hnot, hids⟩ := List.nodup_cons.1 h.ids
  refine ⟨hs, hids, fun r hr => ?_⟩
  obtain ⟨hmem, hp⟩ := h.rows r (List.mem_cons_of_mem _ hr)
  exact hkeep r hmem (fun e => hnot (List.mem_map.2 ⟨r, hr, e⟩)) hp

/-- Rows that were selected are pending. -/
theorem Pending.of_select {p : Store → JobRow → Prop} {q : JobRow → Bool} (hs : WellFormed s)
    (hp : ∀ r, q r = true → p s r) : Pending p (Table.select q s.jobs) s :=
  ⟨hs, Table.nodup_map_select hs.jobIds, fun r hr => ⟨(Table.mem_select.1 hr).1, hp r (Table.mem_select.1 hr).2⟩⟩

/-- A restart takes the claims of the outbox back. -/
theorem released_change : Change cfg .recoverInterrupted clock s (s.updateOutbox cfg (fun o => o.state = .delivering) fun o =>
    { o with state := .pending, nextAttemptAt := clock.now, deliveryAttemptId := none }) := by
  refine .released _ ?_ rfl rfl rfl rfl rfl rfl
  intro o _
  by_cases hstate : o.state = .delivering
  · exact Or.inr (by simpa [hstate] using Released.interrupted hstate)
  · exact Or.inl (by simp [hstate])

/-- The recovery after a restart makes changes one by one. -/
theorem recoverInterrupted_changes (hs : WellFormed s) :
    ReflTransGen (Change cfg .recoverInterrupted clock) s (recoverInterrupted cfg clock s).2 := by
  unfold recoverInterrupted
  rcases transaction_cases cfg _ s with ⟨e, h⟩ | ⟨a, s', hb, h⟩
  · rw [h]
  · rw [h]
    simp only [bind_eq_ok, pure_eq_ok, Prod.mk.injEq] at hb
    obtain ⟨s₁, hloop, -, rfl⟩ := hb
    refine .trans (.single released_change) (foldlM_ok (P := Pending fun _ r => r.phase.held = true) ?_ ?_ hloop).2
    · intro row rows s s' hp hturn
      obtain ⟨hrow, hheld⟩ := hp.head
      obtain ⟨hchange, hjobs⟩ :=
        settleLost_change hp.wellFormed hrow (fun r hr => by simpa using hr) (by simp) (.interrupted hheld) hturn
      refine ⟨hp.tail (hp.wellFormed.change hchange) fun r hr hne hr' => ⟨?_, hr'⟩, .single hchange⟩
      rw [hjobs, mem_replaceJob]
      exact Or.inl ⟨hr, hne⟩
    · exact Pending.of_select (hs.change released_change) fun r hr => hr

/-- The recovery of expired leases makes changes one by one. -/
theorem recoverExpiredLeases_changes (hs : WellFormed s) {excludeJobIds : List Uuid} :
    ReflTransGen (Change cfg (.recoverExpiredLeases excludeJobIds) clock) s
      (recoverExpiredLeases cfg clock excludeJobIds s).2 := by
  unfold recoverExpiredLeases
  rcases transaction_cases cfg _ s with ⟨e, h⟩ | ⟨a, s', hb, h⟩
  · rw [h]
  · rw [h]
    refine changes_of_pairs (a := (0, s)) (b := (a, s')) (foldlM_ok
      (P := fun rows st => Pending (fun _ r => r.phase.held = true ∧ r.id ∉ excludeJobIds ∧ leaseExpired clock.now r = true)
        rows st.2) ?_ ?_ hb).2
    · rintro row rows ⟨n, s⟩ ⟨n', s'⟩ hp hturn
      obtain ⟨hrow, hheld, hexcluded, hlease⟩ := hp.head
      simp only [recoverExpiredRow] at hturn
      split at hturn
      · rw [pure_eq_ok, Prod.mk.injEq] at hturn
        obtain ⟨rfl, rfl⟩ := hturn
        exact ⟨hp.tail hp.wellFormed fun r hr _ hr' => ⟨hr, hr'⟩, .refl⟩
      · rename_i hcount
        simp only [bind_eq_ok, pure_eq_ok, Prod.mk.injEq] at hturn
        obtain ⟨s₁, hsettle, -, rfl⟩ := hturn
        obtain ⟨x, hx, hclause⟩ := Table.rowcount_pos.1 (not_not.1 hcount ▸ Nat.one_pos)
        simp only [Bool.and_eq_true, decide_eq_true_eq] at hclause
        have e : x = row := Table.eq_of_key JobRow.id hp.wellFormed.jobIds hx hrow hclause.1.1
        subst e
        obtain ⟨hchange, hjobs⟩ := settleLost_change hp.wellFormed hrow
          (fun r hr => by simp at hr; exact hr.1.1) (by simp [hclause]) (.leaseExpired _ hheld hexcluded hlease) hsettle
        refine ⟨hp.tail (hp.wellFormed.change hchange) fun r hr hne hr' => ⟨?_, hr'⟩, .single (.single hchange)⟩
        rw [hjobs, mem_replaceJob]
        exact Or.inl ⟨hr, hne⟩
    · refine ⟨hs, (Table.nodup_map_select hs.jobIds).sublist (List.filter_sublist.map _), fun r hr => ?_⟩
      obtain ⟨hr, hexcluded⟩ := List.mem_filter.1 hr
      obtain ⟨hr, hp⟩ := Table.mem_select.1 hr
      obtain ⟨hheld, hlease⟩ := Bool.and_eq_true_iff.1 hp
      exact ⟨hr, hheld, by simpa using hexcluded, hlease⟩

/-! ## The outbox -/

/-- Deliveries only look at the outbox: the rows a claim read that are left to be claimed. -/
structure Due (clock : Reading) (rows : List OutboxRow) (s : Store) : Prop where
  wellFormed : WellFormed s
  ids : (rows.map (·.eventId)).Nodup
  rows : ∀ o ∈ rows, o ∈ s.outbox ∧ o.state = .pending ∧ o.nextAttemptAt ≤ clock.now

/-- The claim of one notification leaves the others due. -/
theorem claimOutboxRow_change (cfg : StoreConfig) (limit : Int) {lease : Instant} {row : OutboxRow} {rows : List OutboxRow}
    {claimed : List (OutboxRow × Uuid)} (h : Due clock (row :: rows) s) :
    Due clock rows (claimOutboxRow cfg clock.now lease (claimed, s) row).2 ∧
      Change cfg (.claimOutboxDue limit lease) clock s (claimOutboxRow cfg clock.now lease (claimed, s) row).2 := by
  obtain ⟨hrow, hstate, hdue⟩ := h.rows row List.mem_cons_self
  have hcount : Table.rowcount (fun o : OutboxRow => o.eventId = row.eventId && o.state = .pending) s.outbox = 1 :=
    Table.rowcount_key h.wellFormed.eventIds hrow (fun o ho => by simp at ho; exact ho.1) (by simp [hstate])
  have houtbox := update_eq_replaceOutbox (p := fun o : OutboxRow => o.eventId = row.eventId && o.state = .pending)
    (f := fun o => { o with
      state := .delivering, nextAttemptAt := clock.now + lease, deliveryAttemptId := some s.drawn })
    h.wellFormed.eventIds hrow (fun o ho => by simp at ho; exact ho.1) (by simp [hstate])
  have hchange : Change cfg (.claimOutboxDue limit lease) clock s
      (claimOutboxRow cfg clock.now lease (claimed, s) row).2 := by
    simp only [claimOutboxRow, draw, hcount, if_true]
    refine .delivery row _ hrow (.claimed limit lease hstate hdue) houtbox rfl rfl rfl (Nat.le_succ _) ?_ rfl
    rintro t ⟨⟩
    exact Nat.lt_succ_self _
  refine ⟨⟨h.wellFormed.change hchange, (List.nodup_cons.1 h.ids).2, fun o ho => ?_⟩, hchange⟩
  obtain ⟨hmem, hrest⟩ := h.rows o (List.mem_cons_of_mem _ ho)
  refine ⟨?_, hrest⟩
  simp only [claimOutboxRow, draw, hcount, if_true]
  change o ∈ Table.update _ _ s.outbox
  rw [houtbox, mem_replaceOutbox]
  exact Or.inl ⟨hmem, fun e => (List.nodup_cons.1 h.ids).1 (List.mem_map.2 ⟨o, ho, e⟩)⟩

/-- The claim of notifications makes changes one by one. -/
theorem claimOutboxDue_changes (hs : WellFormed s) {limit : Int} {lease : Instant} :
    ReflTransGen (Change cfg (.claimOutboxDue limit lease) clock) s (claimOutboxDue cfg clock limit lease s).2 := by
  unfold claimOutboxDue
  split
  · exact .refl
  rcases transaction_cases cfg _ s with ⟨e, h⟩ | ⟨a, s', hb, h⟩
  · rw [h]
  · rw [h]
    rw [pure_eq_ok, Prod.mk.injEq] at hb
    obtain ⟨-, rfl⟩ := hb
    have hreleased : Change cfg (.claimOutboxDue limit lease) clock s
        (s.updateOutbox cfg (fun o => o.state = .delivering && o.nextAttemptAt ≤ clock.now) fun o =>
          { o with state := .pending, deliveryAttemptId := none }) := by
      refine .released _ ?_ rfl rfl rfl rfl rfl rfl
      intro o _
      by_cases hstate : o.state = .delivering ∧ o.nextAttemptAt ≤ clock.now
      · exact Or.inr (by simpa [hstate] using Released.expired limit lease hstate.1 hstate.2)
      · exact Or.inl (by simp [hstate])
    refine .trans (.single hreleased)
      (changes_of_pairs (a := ([], _)) (foldl_rel (P := fun rows st => Due clock rows st.2) ?_ ?_).2)
    · rintro row rows ⟨claimed, s⟩ hp
      obtain ⟨hdue, hchange⟩ := claimOutboxRow_change cfg limit hp
      exact ⟨hdue, .single (.single hchange)⟩
    · refine ⟨hs.change hreleased, ?_, fun o ho => ?_⟩
      · exact (Table.nodup_map_selectBy (hs.change hreleased).eventIds).sublist ((List.take_sublist _ _).map _)
      · obtain ⟨hmem, hp⟩ := Table.mem_selectBy.1 (List.mem_of_mem_take ho)
        simp only [Bool.and_eq_true, decide_eq_true_eq] at hp
        exact ⟨hmem, hp.1.1, hp.1.2⟩

/-- A notification is claimed by its delivery when it is being delivered under that token. -/
theorem claimedBy_iff {eventId : Uuid} {token : Option Uuid} {o : OutboxRow} :
    claimedBy eventId token o = true ↔
      o.eventId = eventId ∧ o.state = .delivering ∧ ∃ t, o.deliveryAttemptId = some t ∧ token = some t := by
  unfold claimedBy
  rw [Bool.and_eq_true, Bool.and_eq_true, decide_eq_true_iff, decide_eq_true_iff, and_assoc]
  cases o.deliveryAttemptId with
  | none => simp [sqlEq]
  | some a => cases token <;> simp [sqlEq, eq_comm]

/-- The ends of a settlement: it met no row, it settled a claim, or it raised. -/
theorem settleClaim_cases (cfg : StoreConfig) (hs : WellFormed s) (eventId : Uuid) (token : Option Uuid)
    (f : OutboxRow → OutboxRow) :
    ((∀ o ∈ s.outbox, claimedBy eventId token o = false) ∧ settleClaim cfg eventId token f s = (.ok false, s)) ∨
      ∃ o ∈ s.outbox, claimedBy eventId token o = true ∧
        (settleClaim cfg eventId token f s = (.ok true, s.updateOutbox cfg (claimedBy eventId token) f) ∨
          ∃ e, settleClaim cfg eventId token f s = (.error e, s)) := by
  by_cases hmet : ∃ o ∈ s.outbox, claimedBy eventId token o = true
  · obtain ⟨o, ho, hclaimed⟩ := hmet
    refine Or.inr ⟨o, ho, hclaimed, ?_⟩
    have hcount : Table.rowcount (claimedBy eventId token) s.outbox = 1 :=
      Table.rowcount_key hs.eventIds ho
        (fun x hx => (claimedBy_iff.1 hx).1.trans (claimedBy_iff.1 hclaimed).1.symm) hclaimed
    unfold settleClaim
    rcases transaction_cases cfg _ s with ⟨e, h⟩ | ⟨a, s', hb, h⟩
    · exact Or.inr ⟨e, h⟩
    · rw [pure_eq_ok, Prod.mk.injEq] at hb
      obtain ⟨rfl, rfl⟩ := hb
      exact Or.inl (by rw [h, hcount]; rfl)
  · have hnone : ∀ o ∈ s.outbox, claimedBy eventId token o = false := by
      intro o ho
      by_contra hc
      exact hmet ⟨o, ho, by simpa using hc⟩
    have hcount : Table.rowcount (claimedBy eventId token) s.outbox = 0 := Table.rowcount_eq_zero.2 hnone
    refine Or.inl ⟨hnone, transaction_commits ?_ (Int.le_refl _)⟩
    simp only [hcount, updateOutbox_of_none hcount]
    rfl

/-- A settlement is one change of the claimed row, or none. -/
theorem settleClaim_change {call : StoreCall} {eventId : Uuid} {token : Option Uuid} {f : OutboxRow → OutboxRow}
    (hs : WellFormed s) (hclear : ∀ o, (f o).deliveryAttemptId = none)
    (hstep : ∀ o ∈ s.outbox, claimedBy eventId token o = true → OutboxStep s.drawn clock o call (f o)) :
    (settleClaim cfg eventId token f s).2 = s ∨ Change cfg call clock s (settleClaim cfg eventId token f s).2 := by
  rcases settleClaim_cases cfg hs eventId token f with ⟨-, h⟩ | ⟨o, ho, hclaimed, h | ⟨e, h⟩⟩
  · exact Or.inl (congrArg Prod.snd h)
  · rw [h]
    obtain ⟨rfl, -⟩ := claimedBy_iff.1 hclaimed
    refine Or.inr (.delivery o (f o) ho (hstep o ho hclaimed) ?_ rfl rfl rfl (Nat.le_refl _) ?_ rfl)
    · exact update_eq_replaceOutbox hs.eventIds ho (fun x hx => (claimedBy_iff.1 hx).1) hclaimed
    · intro t ht
      rw [hclear] at ht
      cases ht
  · exact Or.inl (congrArg Prod.snd h)

/-- A delivery leaves the store, or makes one change. -/
theorem outboxDelivered_change (hs : WellFormed s) {eventId : Uuid} {token : Option Uuid} :
    (outboxDelivered cfg clock eventId token s).2 = s ∨
      Change cfg (.outboxDelivered eventId token) clock s (outboxDelivered cfg clock eventId token s).2 := by
  refine settleClaim_change hs (fun _ => rfl) fun o _ hclaimed => ?_
  obtain ⟨rfl, hstate, t, htoken, rfl⟩ := claimedBy_iff.1 hclaimed
  exact .delivered t hstate htoken

/-- A failed delivery leaves the store, or makes one change. -/
theorem outboxFailed_change (hs : WellFormed s) {eventId : Uuid} {token : Option Uuid} {error : String}
    {nextAttemptAt : Instant} {permanent : Bool} :
    (outboxFailed cfg eventId token error nextAttemptAt permanent s).2 = s ∨
      Change cfg (.outboxFailed eventId token error nextAttemptAt permanent) clock s
        (outboxFailed cfg eventId token error nextAttemptAt permanent s).2 := by
  refine settleClaim_change hs (fun _ => rfl) fun o _ hclaimed => ?_
  obtain ⟨rfl, hstate, t, htoken, rfl⟩ := claimedBy_iff.1 hclaimed
  exact .failed t error nextAttemptAt permanent hstate htoken

/-! ## Pruning and restarts -/

/-- A job deleted takes its events and its outbox rows along. -/
theorem deleteJobs_of_id (cfg : StoreConfig) {p : JobRow → Bool} (row : JobRow) (hrow : row ∈ s.jobs)
    (hp : ∀ r ∈ s.jobs, p r = true ↔ r.id = row.id) :
    (s.deleteJobs cfg p).jobs = Table.delete (fun r => r.id = row.id) s.jobs ∧
      (s.deleteJobs cfg p).outbox = Table.delete (fun o => o.jobId = row.id) s.outbox ∧
      (s.deleteJobs cfg p).events = Table.delete (fun e => e.jobId = row.id) s.events := by
  have hgone : ∀ u, ((Table.select p s.jobs).map (·.id)).contains u = decide (u = row.id) := by
    intro u
    rw [Bool.eq_iff_iff, List.contains_iff_mem, decide_eq_true_iff, List.mem_map]
    constructor
    · rintro ⟨r, hr, rfl⟩
      obtain ⟨hr, hpr⟩ := Table.mem_select.1 hr
      exact (hp r hr).1 hpr
    · rintro rfl
      exact ⟨row, Table.mem_select.2 ⟨hrow, (hp row hrow).2 rfl⟩, rfl⟩
  refine ⟨?_, ?_, ?_⟩
  · refine List.filter_congr fun r hr => ?_
    by_cases h : r.id = row.id
    · simp [h, (hp r hr).2 h]
    · have : p r = false := by simpa using fun hpr => h ((hp r hr).1 hpr)
      simp [h, this]
  · simp only [deleteJobs, hgone]
  · simp only [deleteJobs, hgone]

/-- The store once the manifest of a job to be deleted is written, if the job has output. -/
def manifested (clock : Reading) (row : JobRow) (s : Store) : Store :=
  if row.stdoutPath.isSome || row.stderrPath.isSome then
    s.insertDeletion ⟨row.id, row.stdoutPath, row.stderrPath, clock.later row.id⟩
  else s

/-- Writing a manifest leaves the other tables as they are. -/
theorem manifested_tables (clock : Reading) (row : JobRow) (s : Store) :
    (manifested clock row s).jobs = s.jobs ∧ (manifested clock row s).outbox = s.outbox ∧
      (manifested clock row s).events = s.events ∧ (manifested clock row s).drawn = s.drawn ∧
      (manifested clock row s).storeEpoch = s.storeEpoch := by
  unfold manifested insertDeletion
  split_ifs <;> exact ⟨rfl, rfl, rfl, rfl, rfl⟩

/-- A job in the table has no manifest, so its own one is added. -/
theorem manifested_deletions (clock : Reading) (hs : WellFormed s) {row : JobRow} (hrow : row ∈ s.jobs) :
    (manifested clock row s).deletions =
      if row.stdoutPath = none ∧ row.stderrPath = none then s.deletions
      else Table.insert s.deletions ⟨row.id, row.stdoutPath, row.stderrPath, clock.later row.id⟩ := by
  have hnone : s.deletions.any (fun d => d.jobId = row.id) = false := by
    rw [List.any_eq_false]
    intro d hd
    simpa using (hs.manifestGone d hd row hrow).symm
  unfold manifested insertDeletion
  cases row.stdoutPath <;> cases row.stderrPath <;> simp [hnone]

/-- What can be pruned depends on the outbox only. -/
theorem prunable_congr {cutoff : Instant} {r : JobRow} (h : s'.outbox = s.outbox) :
    s'.prunable cutoff r = s.prunable cutoff r := by
  unfold prunable
  rw [h]

/-- Notifications deleted leave a job that can be pruned one that can be pruned. -/
theorem prunable_mono {cutoff : Instant} {r : JobRow} (h : ∀ o ∈ s'.outbox, o ∈ s.outbox)
    (hr : s.prunable cutoff r = true) : s'.prunable cutoff r = true := by
  unfold prunable at hr ⊢
  simp only [Bool.and_eq_true, Bool.not_eq_true', List.any_eq_false] at hr ⊢
  exact ⟨hr.1, fun o ho => hr.2 o (h o ho)⟩

/-- A job that can be pruned is deleted, unless it has output and there is no cleaner. -/
theorem pruneRow_eq {hasCleaner : Bool} {cutoff : Instant} {row : JobRow} {n : Nat} (hs : WellFormed s)
    (hrow : row ∈ s.jobs) (hprunable : s.prunable cutoff row = true) :
    pruneRow cfg clock hasCleaner cutoff (n, s) row =
      if !hasCleaner && (row.stdoutPath.isSome || row.stderrPath.isSome) then (n, s)
      else (n + 1, (manifested clock row s).deleteJobs cfg
        fun r => r.id = row.id && (manifested clock row s).prunable cutoff r) := by
  obtain ⟨hjobs, houtbox, -⟩ := manifested_tables clock row s
  have hcount : Table.rowcount (fun r : JobRow => r.id = row.id && (manifested clock row s).prunable cutoff r)
      (manifested clock row s).jobs = 1 := by
    rw [hjobs]
    refine Table.rowcount_key hs.jobIds hrow (fun r hr => ?_) ?_
    · simp at hr
      exact hr.1
    · simp [prunable_congr houtbox, hprunable]
  unfold manifested at hcount
  simp only [pruneRow, manifested]
  split
  · rfl
  · simp only [hcount, Nat.one_ne_zero, if_false]

/-- The pruning of one row leaves the others to be pruned. -/
theorem pruneRow_change (cfg : StoreConfig) (clock : Reading) (hasCleaner : Bool) {cutoff : Instant} {row : JobRow}
    {rows : List JobRow} (n : Nat)
    (h : Pending (fun s r => s.prunable cutoff r = true) (row :: rows) s) :
    Pending (fun s r => s.prunable cutoff r = true) rows (pruneRow cfg clock hasCleaner cutoff (n, s) row).2 ∧
      ReflTransGen (Change cfg (.prune hasCleaner cutoff) clock) s
        (pruneRow cfg clock hasCleaner cutoff (n, s) row).2 := by
  obtain ⟨hrow, hprunable⟩ := h.head
  have hs := h.wellFormed
  rw [pruneRow_eq hs hrow hprunable]
  split
  · exact ⟨h.tail hs fun r hr _ hp => ⟨hr, hp⟩, .refl⟩
  · rename_i houtput
    obtain ⟨hjobs, houtbox, hevents, hdrawn, hepoch⟩ := manifested_tables clock row s
    have hdeletions := manifested_deletions clock hs hrow
    have hp : ∀ r ∈ (manifested clock row s).jobs,
        (decide (r.id = row.id) && (manifested clock row s).prunable cutoff r) = true ↔ r.id = row.id := by
      intro r hr
      rw [hjobs] at hr
      rw [Bool.and_eq_true, decide_eq_true_iff, prunable_congr houtbox]
      refine ⟨fun h => h.1, fun e => ⟨e, ?_⟩⟩
      rwa [Table.eq_of_key JobRow.id hs.jobIds hr hrow e]
    obtain ⟨hjobs', houtbox', hevents'⟩ := deleteJobs_of_id cfg row (hjobs ▸ hrow) hp
    rw [hjobs] at hjobs'
    rw [houtbox] at houtbox'
    rw [hevents] at hevents'
    have hchange : Change cfg (.prune hasCleaner cutoff) clock s ((manifested clock row s).deleteJobs cfg
        fun r => r.id = row.id && (manifested clock row s).prunable cutoff r) := by
      refine .pruned hasCleaner cutoff row rfl hrow hprunable ?_ hjobs' houtbox' hevents' hdeletions hdrawn hepoch
      cases hasCleaner <;> simp_all
    refine ⟨h.tail (hs.change hchange) fun r hr hne hpr => ⟨?_, prunable_mono (fun o ho => ?_) hpr⟩, .single hchange⟩
    · rw [hjobs']
      simp [hr, hne]
    · rw [houtbox'] at ho
      exact (Table.mem_delete.1 ho).1

/-- A pruning makes changes one by one. -/
theorem pruneTransaction_changes (hs : WellFormed s) {hasCleaner : Bool} {cutoff : Instant} :
    ReflTransGen (Change cfg (.prune hasCleaner cutoff) clock) s (pruneTransaction cfg clock hasCleaner cutoff s).2 := by
  unfold pruneTransaction
  rcases transaction_cases cfg _ s with ⟨e, h⟩ | ⟨a, s', hb, h⟩
  · rw [h]
  · rw [h]
    rw [pure_eq_ok] at hb
    refine changes_of_pairs (a := (0, s)) (b := (a, s')) (hb ▸ (foldl_rel 
      (P := fun rows st => Pending (fun s r => s.prunable cutoff r = true) rows st.2) ?_ ?_).2)
    · rintro row rows ⟨n, s⟩ hp
      obtain ⟨hrest, hchanges⟩ := pruneRow_change cfg clock hasCleaner n hp
      exact ⟨hrest, .single hchanges⟩
    · exact Pending.of_select hs fun r hr => hr

/-- To clear a manifest leaves the store, or makes one change. -/
theorem clearManifest_change {jobId : Uuid} :
    (clearManifest cfg jobId s).2 = s ∨ Change cfg (.clearManifest jobId) clock s (clearManifest cfg jobId s).2 := by
  unfold clearManifest
  rcases transaction_cases cfg _ s with ⟨e, h⟩ | ⟨a, s', hb, h⟩
  · exact Or.inl (congrArg Prod.snd h)
  · rw [h]
    rw [pure_eq_ok, Prod.mk.injEq] at hb
    obtain ⟨-, rfl⟩ := hb
    exact Or.inr (.cleared jobId rfl rfl rfl rfl rfl rfl rfl)

/-! ## Every transaction -/

/-- Every transaction takes the store by changes of its own call. -/
theorem changes_of_step (hs : WellFormed s) (call : StoreCall) (clock : Reading) :
    ReflTransGen (Change cfg call clock) s (step cfg s (call, clock)) := by
  have one : ∀ {call s'}, s' = s ∨ Change cfg call clock s s' → ReflTransGen (Change cfg call clock) s s' := by
    rintro call s' (rfl | h)
    · exact .refl
    · exact .single h
  cases call with
  | submit tenantId key spec =>
    cases hspec : spec.validate with
    | ok u => simpa only [step, hspec] using one (submit_change hs hspec)
    | error e => simpa only [step, hspec] using .refl
  | claimNext owner leaseSeconds => exact one (claimNext_change hs)
  | markRunning jobId attemptId owner => exact one (markRunning_change cfg hs)
  | renewLease jobId attemptId owner leaseSeconds => exact one (renewLease_change hs)
  | finish jobId attemptId owner report => exact one (finish_change hs)
  | requestCancel jobId tenantId => exact one (requestCancel_change hs)
  | recoverInterrupted => exact recoverInterrupted_changes hs
  | recoverExpiredLeases excludeJobIds => exact recoverExpiredLeases_changes hs
  | claimOutboxDue limit lease => exact claimOutboxDue_changes hs
  | outboxDelivered eventId token => exact one (outboxDelivered_change hs)
  | outboxFailed eventId token error nextAttemptAt permanent => exact one (outboxFailed_change hs)
  | prune hasCleaner cutoff => exact pruneTransaction_changes hs
  | clearManifest jobId => exact one clearManifest_change
  | reopen =>
    refine .single (.restarted rfl ?_)
    unfold step reopen
    split <;> rfl

/-- What a change keeps of a well-formed store, a transaction keeps. -/
theorem step_induct {P : Store → Prop} (input : StoreCall × Reading) (hs : WellFormed s) (h : P s)
    (hchange : ∀ s s', WellFormed s → P s → Change cfg input.1 input.2 s s' → P s') :
    P (step cfg s input) := by
  have hboth : ∀ s', ReflTransGen (Change cfg input.1 input.2) s s' → WellFormed s' ∧ P s' := by
    intro s' hrun
    induction hrun with
    | refl => exact ⟨hs, h⟩
    | tail _ hc ih => exact ⟨ih.1.change hc, hchange _ _ ih.1 ih.2 hc⟩
  exact (hboth _ (changes_of_step hs input.1 input.2)).2

/-- A transaction draws on. -/
theorem WellFormed.drawn_le_step (cfg : StoreConfig) (hs : WellFormed s) (input : StoreCall × Reading) :
    s.drawn ≤ (Store.step cfg s input).drawn :=
  step_induct (P := fun s' => s.drawn ≤ s'.drawn) input hs (Nat.le_refl _) fun _ _ _ hle h => hle.trans h.drawn_le

/-- A transaction keeps the store well formed. -/
theorem WellFormed.step (hs : WellFormed s) (input : StoreCall × Reading) : WellFormed (step cfg s input) :=
  step_induct input hs hs fun _ _ hs _ h => hs.change h

/-- A transaction leads to a state that can be reached. -/
theorem Reachable.next (h : Reachable cfg s) (input : StoreCall × Reading) : Reachable cfg (Store.step cfg s input) :=
  Machine.Reachable.next _ h input

/-- So does a run of them. -/
theorem Reachable.run (h : Reachable cfg s) (is : List (StoreCall × Reading)) :
    Reachable cfg (Machine.run (Store.step cfg) s is) :=
  Machine.Reachable.run _ h is

/-- Every state the store can be in is well formed. -/
theorem Reachable.wellFormed (h : Reachable cfg s) : WellFormed s :=
  Machine.Reachable.invariant h (wellFormed_create 0) fun _ input hs => hs.step input

/-- What every change keeps holds in every state the store can be in. -/
theorem Reachable.induct {P : Store → Prop} (h : Reachable cfg s) (h0 : P (create cfg 0))
    (hchange : ∀ call clock s s', WellFormed s → P s → Change cfg call clock s s' → P s') : P s := by
  have hboth : WellFormed s ∧ P s :=
    Machine.Reachable.invariant (P := fun s => WellFormed s ∧ P s) h ⟨wellFormed_create 0, h0⟩ fun s input hs =>
      ⟨hs.1.step input, step_induct input hs.1 hs.2 (hchange input.1 input.2)⟩
  exact hboth.2

end Store

end SharkRail
