import SharkRail.Lemmas.EventLog

/-!
# Revisions and events

The log of the events and the revisions of the rows tell one story: a transaction that writes a row raises its revision by one and logs
the event of that revision, and an event leaves the log only with its job, or when as many newer ones are there as are kept.
-/

namespace SharkRail

namespace Store

open Fallible

variable {cfg : StoreConfig} {call : StoreCall} {clock : Reading} {s s' : Store} {new : List EventRow}

/-! ## One transaction -/

/-- A move that logs an event raises the revision by one. -/
theorem RowStep.revision_succ {drawn : Uuid} {row row' : JobRow} {kind : String} {notes : List OutboxRow}
    (h : RowStep drawn clock row call row' (some kind) notes) : row'.revision = row.revision + 1 := by
  cases h <;> rfl

/-- The row of a job after a transaction, with the event that was logged for it, if one was. -/
theorem LogStep.row (hs : WellFormed s) (h : LogStep cfg call clock s s' new) {r' : JobRow} (hr' : r' ∈ s'.jobs) :
    ((∀ e ∈ new, e.jobId ≠ r'.id) ∧ ∃ r ∈ s.jobs, r.id = r'.id ∧ r.revision = r'.revision ∧
        (r' = r ∨ ∃ attemptId owner leaseSeconds, call = .renewLease r.id attemptId owner leaseSeconds)) ∨
      ∃ e ∈ new, e.jobId = r'.id ∧ e.revision = r'.revision ∧ (∀ e' ∈ new, e'.jobId = r'.id → e' = e) ∧
        ∀ r ∈ s.jobs, r.id = r'.id → r'.revision = r.revision + 1 := by
  have hnone : new.filter (fun e => e.jobId = r'.id) = [] → ∀ e ∈ new, e.jobId ≠ r'.id := by
    intro hnil e he
    simpa using List.filter_eq_nil_iff.1 hnil e he
  have hone : ∀ {e}, new.filter (fun e => e.jobId = r'.id) = [e] → e ∈ new ∧ ∀ e' ∈ new, e'.jobId = r'.id → e' = e := by
    intro e hsingle
    have hown : e ∈ new.filter fun e => e.jobId = r'.id := hsingle ▸ List.mem_singleton_self e
    refine ⟨List.mem_of_mem_filter hown, fun e' he' hid => ?_⟩
    have hmem : e' ∈ new.filter fun e => e.jobId = r'.id := List.mem_filter.2 ⟨he', by simpa using hid⟩
    rw [hsingle] at hmem
    exact List.mem_singleton.1 hmem
  have hrow := h.rows r' hr'
  generalize hlist : new.filter (fun e => e.jobId = r'.id) = own at hrow
  cases hrow with
  | kept hrow => exact .inl ⟨hnone hlist, r', hrow, rfl, rfl, .inl rfl⟩
  | renewed r hrow attemptId owner leaseSeconds hcall hsame =>
    refine .inl ⟨hnone hlist, r, hrow, ?_, ?_, .inr ⟨attemptId, owner, leaseSeconds, hcall⟩⟩
    · rw [hsame]
    · rw [hsame]
  | accepted e hnew _ _ _ _ _ hrevision hid heq =>
    exact .inr ⟨e, (hone hlist).1, hid, heq, (hone hlist).2, fun r hr hrid => absurd hrid (hnew r hr)⟩
  | moved e r hrow drawn notes hstep hid heq =>
    refine .inr ⟨e, (hone hlist).1, hid, heq, (hone hlist).2, fun x hx hxid => ?_⟩
    obtain rfl := Table.eq_of_key JobRow.id hs.jobIds hx hrow (hxid.trans hstep.key.1)
    exact hstep.revision_succ

/-! ## The events of a job -/

/-- The events of a job are of rising revisions, and the newest that is kept is of the revision of its row. -/
structure Current (s : Store) : Prop where
  rising : s.events.Pairwise fun e e' => e.jobId = e'.jobId → e.revision < e'.revision
  newest : ∀ e ∈ s.events, ∀ r ∈ s.jobs, r.id = e.jobId → ∃ e' ∈ s.events, e'.jobId = r.id ∧ e'.revision = r.revision

/-- The newest events are events. -/
theorem mem_keepNewest {e : EventRow} {events : List EventRow} (h : e ∈ keepNewest cfg events) : e ∈ events := List.mem_of_mem_drop h

/-- The events of some jobs are those whose job is one of them. -/
theorem mem_eventsOfJobs {e : EventRow} {jobs : List JobRow} {events : List EventRow} :
    e ∈ eventsOfJobs jobs events ↔ e ∈ events ∧ ∃ r ∈ jobs, r.id = e.jobId := by
  unfold eventsOfJobs
  rw [List.mem_filter, List.any_eq_true]
  simp only [decide_eq_true_eq]

/-- What is logged is of a later revision than every event of the job that was there. -/
theorem Current.rising_logged (hs : Sound cfg s) (hc : Current s) (h : LogStep cfg call clock s s' new) :
    (eventsOfJobs s'.jobs s.events ++ new).Pairwise fun e e' => e.jobId = e'.jobId → e.revision < e'.revision := by
  refine List.pairwise_append.2 ⟨hc.rising.sublist List.filter_sublist, ?_, fun e he e' he' hid => ?_⟩
  · -- two events of one transaction are of different jobs
    refine List.Pairwise.imp_of_mem (R := fun e e' : EventRow => e.seq < e'.seq) (fun {e e'} he he' hlt hid => ?_)
      (List.pairwise_append.1 (h.ordered hs.sequenced)).2.1
    obtain ⟨r', hr', hrid⟩ := h.named e he
    rcases h.row hs.wellFormed hr' with ⟨hnone, -⟩ | ⟨e₀, -, -, -, honly, -⟩
    · exact absurd hrid.symm (hnone e he)
    · rw [honly e he hrid.symm, honly e' he' (hid.symm.trans hrid.symm)] at hlt
      exact absurd hlt (lt_irrefl _)
  · obtain ⟨he, -⟩ := mem_eventsOfJobs.1 he
    obtain ⟨r, hr, hre, hle⟩ := hs.dated e he
    obtain ⟨r', hr', hrid⟩ := h.named e' he'
    rcases h.row hs.wellFormed hr' with ⟨hnone, -⟩ | ⟨e₀, -, -, hrevision, honly, hnext⟩
    · exact absurd hrid.symm (hnone e' he')
    · rw [honly e' he' hrid.symm, hrevision, hnext r hr (hre.trans (hid.trans hrid.symm))]
      exact Nat.lt_succ_of_le hle

/-- Of two events of a job in the log, the one of the lower revision was logged first. -/
theorem seq_le_of_revision_le {events : List EventRow} (hordered : events.Pairwise fun e e' => e.seq < e'.seq)
    (hrising : events.Pairwise fun e e' => e.jobId = e'.jobId → e.revision < e'.revision) {e e' : EventRow} (he : e ∈ events)
    (he' : e' ∈ events) (hid : e.jobId = e'.jobId) (hle : e.revision ≤ e'.revision) : e.seq ≤ e'.seq := by
  induction events with
  | nil => cases he
  | cons first rest ih =>
    obtain ⟨hfirst, hrest⟩ := List.pairwise_cons.1 hordered
    obtain ⟨hfirst', hrest'⟩ := List.pairwise_cons.1 hrising
    rcases List.mem_cons.1 he with rfl | hx <;> rcases List.mem_cons.1 he' with rfl | hy
    · exact le_refl _
    · exact (hfirst e' hy).le
    · exact absurd (hfirst' e hx hid.symm) (not_lt.2 hle)
    · exact ih hrest hrest' hx hy

/-- A call keeps an event for the revision of every job. -/
theorem Current.step (h : Reachable cfg s) (hc : Current s) (input : StoreCall × Reading) : Current (Store.step cfg s input) := by
  have hs := h.sound
  obtain ⟨new, hlogged⟩ := step_logged h input
  have hrising := hc.rising_logged hs hlogged
  have hordered := hlogged.ordered hs.sequenced
  refine ⟨hlogged.events ▸ hrising.sublist (List.drop_sublist _ _), fun e he r' hr' hid => ?_⟩
  rw [hlogged.events] at he ⊢
  rcases hlogged.row hs.wellFormed hr' with ⟨hnone, r, hr, hrid, hrevision, -⟩ | ⟨e₀, he₀, hid₀, hrevision, honly, -⟩
  · -- nothing was logged for the job: its newest event was there already
    have hold : ∀ x ∈ eventsOfJobs (Store.step cfg s input).jobs s.events ++ new, x.jobId = r'.id → x ∈ s.events := by
      intro x hx hxid
      rcases List.mem_append.1 hx with hx | hx
      · exact (mem_eventsOfJobs.1 hx).1
      · exact absurd hxid (hnone x hx)
    have he' := hold e (mem_keepNewest he) hid.symm
    obtain ⟨e₁, he₁, hid₁, hrevision₁⟩ := hc.newest e he' r hr (hrid.trans hid)
    have hmem₁ : e₁ ∈ eventsOfJobs (Store.step cfg s input).jobs s.events ++ new :=
      List.mem_append_left _ (mem_eventsOfJobs.2 ⟨he₁, r', hr', hrid.symm.trans hid₁.symm⟩)
    obtain ⟨x, hx, hxid, hle⟩ := hs.dated e he'
    obtain rfl := Table.eq_of_key JobRow.id hs.wellFormed.jobIds hx hr (hxid.trans (hid.symm.trans hrid.symm))
    refine ⟨e₁, mem_keepNewest_of_newer hordered he hmem₁ ?_, hid₁.trans hrid, hrevision₁.trans hrevision⟩
    exact seq_le_of_revision_le hs.sequenced.ordered hc.rising he' he₁ (hxid.symm.trans hid₁.symm) (hle.trans hrevision₁.ge)
  · refine ⟨e₀, mem_keepNewest_of_newer hordered he (List.mem_append_right _ he₀) ?_, hid₀, hrevision⟩
    rcases List.mem_append.1 (mem_keepNewest he) with hold | hnew
    · exact ((List.pairwise_append.1 hordered).2.2 e hold e₀ he₀).le
    · rw [honly e hnew hid.symm]

/-- In every reachable store the revision of each job has its event, or the log is full. -/
theorem Reachable.current (h : Reachable cfg s) : Current s := by
  obtain ⟨is, rfl⟩ := h
  have hboth : (fun s => Reachable cfg s ∧ Current s) (Machine.run (Store.step cfg) (create cfg 0) is) := by
    refine Machine.run_induct (P := fun s => Reachable cfg s ∧ Current s) (fun s input hs => ⟨hs.1.next input, hs.2.step hs.1 input⟩)
      ⟨Machine.Reachable.init _ _, ?_, fun e he => ?_⟩ is
    · rw [(create_tables cfg 0).2.2.2.1]
      exact .nil
    · rw [(create_tables cfg 0).2.2.2.1] at he
      cases he
  exact hboth.2

/-! ## How an event leaves the log -/

/-- At some moment of the run the log is full, of events that are all newer than the event number `seq`. -/
def FullOfNewer (cfg : StoreConfig) (s : Store) (is : List (StoreCall × Reading)) (seq : Nat) : Prop :=
  ∃ k ≤ is.length, (Machine.run (step cfg) s (is.take k)).events.length = cfg.maxEventRecords.toNat ∧
    ∀ e ∈ (Machine.run (step cfg) s (is.take k)).events, seq < e.seq

/-- A log that gets full of newer events is so one step earlier. -/
theorem FullOfNewer.cons {input : StoreCall × Reading} {is : List (StoreCall × Reading)} {seq : Nat}
    (h : FullOfNewer cfg (step cfg s input) is seq) : FullOfNewer cfg s (input :: is) seq := by
  obtain ⟨k, hk, hfull⟩ := h
  exact ⟨k + 1, Nat.succ_le_succ hk, hfull⟩

/-- An event stays in the log as long as its job is there, unless newer events fill the log. -/
theorem event_kept_or_full (h : Reachable cfg s) {e : EventRow} (he : e ∈ s.events) (is : List (StoreCall × Reading))
    (hjob : ∃ r ∈ (Machine.run (step cfg) s is).jobs, r.id = e.jobId) :
    e ∈ (Machine.run (step cfg) s is).events ∨ FullOfNewer cfg s is e.seq := by
  induction is generalizing s with
  | nil => exact .inl he
  | cons input is ih =>
    have hs := h.sound
    have hdrawn : e.jobId < s.drawn := by
      obtain ⟨r, hr, hid, -⟩ := hs.dated e he
      exact hid ▸ hs.wellFormed.jobDrawn r hr
    obtain ⟨new, hlogged⟩ := step_logged h input
    have hnext : ∃ r ∈ (step cfg s input).jobs, r.id = e.jobId := by
      by_contra hgone
      have hrun : Gone e.jobId (Machine.run (step cfg) (step cfg s input) is) :=
        Gone.run (hs.wellFormed.step input)
          ⟨hdrawn.trans_le (hs.wellFormed.drawn_le_step cfg input), fun r hr hid => hgone ⟨r, hr, hid⟩⟩ is
      obtain ⟨r, hr, hid⟩ := hjob
      exact hrun.2 r hr hid
    have hmem : e ∈ eventsOfJobs (step cfg s input).jobs s.events ++ new := List.mem_append_left _ (mem_eventsOfJobs.2 ⟨he, hnext⟩)
    by_cases hkept : e ∈ (step cfg s input).events
    · exact (ih (h.next input) hkept hjob).imp_right FullOfNewer.cons
    · rw [hlogged.events] at hkept
      obtain ⟨hfull, hnewer⟩ := full_of_not_mem_keepNewest (hlogged.ordered hs.sequenced) hmem hkept
      rw [← hlogged.events] at hfull hnewer
      exact .inr ⟨1, by simp, by simpa using ⟨hfull, hnewer⟩⟩

/-- What a transaction logs stays in the log as long as its job is there, unless newer events fill the log. -/
theorem logged_kept_or_full (h : Reachable cfg s) {input : StoreCall × Reading}
    (hlogged : LogStep cfg input.1 input.2 s (step cfg s input) new) {e : EventRow} (he : e ∈ new) (later : List (StoreCall × Reading))
    (hjob : ∃ r ∈ (Machine.run (step cfg) s (input :: later)).jobs, r.id = e.jobId) :
    e ∈ (Machine.run (step cfg) s (input :: later)).events ∨ FullOfNewer cfg s (input :: later) e.seq := by
  by_cases hkept : e ∈ (step cfg s input).events
  · exact (event_kept_or_full (h.next input) hkept later hjob).imp_right FullOfNewer.cons
  · rw [hlogged.events] at hkept
    obtain ⟨hfull, hnewer⟩ := full_of_not_mem_keepNewest (hlogged.ordered h.sound.sequenced) (List.mem_append_right _ he) hkept
    rw [← hlogged.events] at hfull hnewer
    exact .inr ⟨1, by simp, by simpa using ⟨hfull, hnewer⟩⟩

/-! ## The constraint of the table -/

/-- The error a computation ends with. -/
def errorOf {α : Type} : Except StoreError α → Option StoreError
  | .error e => some e
  | .ok _ => none

/-- The error a transaction ends with. -/
def raised (cfg : StoreConfig) (s : Store) (input : StoreCall × Reading) : Option StoreError :=
  let clock := input.2
  match input.1 with
  | .submit tenantId key spec =>
    match spec.validate with
    | .ok () => errorOf (submitTransaction cfg clock tenantId key spec s).1
    | .error e => some (.py e)
  | .claimNext owner leaseSeconds => errorOf (claimNext cfg clock owner leaseSeconds s).1
  | .markRunning jobId attemptId owner => errorOf (markRunning cfg clock jobId attemptId owner s).1
  | .renewLease jobId attemptId owner leaseSeconds => errorOf (renewLease cfg clock jobId attemptId owner leaseSeconds s).1
  | .finish jobId attemptId owner report => errorOf (finish cfg clock jobId attemptId owner report s).1
  | .requestCancel jobId tenantId => errorOf (requestCancel cfg clock jobId tenantId s).1
  | .recoverInterrupted => errorOf (recoverInterrupted cfg clock s).1
  | .recoverExpiredLeases excludeJobIds => errorOf (recoverExpiredLeases cfg clock excludeJobIds s).1
  | .claimOutboxDue limit lease => errorOf (claimOutboxDue cfg clock limit lease s).1
  | .outboxDelivered eventId deliveryAttemptId => errorOf (outboxDelivered cfg clock eventId deliveryAttemptId s).1
  | .outboxFailed eventId deliveryAttemptId error nextAttemptAt permanent =>
    errorOf (outboxFailed cfg eventId deliveryAttemptId error nextAttemptAt permanent s).1
  | .prune hasCleaner cutoff => errorOf (pruneTransaction cfg clock hasCleaner cutoff s).1
  | .clearManifest jobId => errorOf (clearManifest cfg jobId s).1
  | .reopen => none

/-- No constraint is violated. -/
def NotIntegrity (e : StoreError) : Prop := ∀ message, e ≠ .integrityError message

/-- An operation that raises no `IntegrityError` ends with none. -/
theorem errorOf_ne {α : Type} {result : Except StoreError α} (h : OnlyRaises NotIntegrity result) (message : String) :
    errorOf result ≠ some (.integrityError message) := by
  cases result with
  | error e =>
    intro hraised
    exact h e rfl message (Option.some.inj hraised)
  | ok a => exact nofun

/-- A transaction raises no `IntegrityError` where its body raises none. -/
theorem transaction_onlyRaises {α : Type} {body : Store → Except StoreError (α × Store)} (h : OnlyRaises NotIntegrity (body s)) :
    OnlyRaises NotIntegrity (transaction cfg body s).1 := by
  unfold transaction
  intro e he
  split at he
  · rename_i e' hbody
    cases he
    exact h e hbody
  · split at he
    · cases he
      exact nofun
    · cases he

/-- To read a row raises no `IntegrityError`. -/
theorem rowToJob_onlyRaises (row : JobRow) : OnlyRaises NotIntegrity (rowToJob row) := by
  unfold rowToJob
  split
  · exact onlyRaises_pure _
  · exact onlyRaises_throw nofun

/-- To select a job raises no `IntegrityError`. -/
theorem selectJob_onlyRaises (jobId : Uuid) (tenantId : Option String) (s : Store) :
    OnlyRaises NotIntegrity (s.selectJob jobId tenantId) := by
  unfold selectJob
  split
  · exact onlyRaises_pure _
  · exact onlyRaises_throw nofun

/-- To get a job raises no `IntegrityError`. -/
theorem get_onlyRaises (jobId : Uuid) (tenantId : Option String) (s : Store) : OnlyRaises NotIntegrity (s.get jobId tenantId) :=
  (selectJob_onlyRaises jobId tenantId s).bind rowToJob_onlyRaises

/-- To announce a job raises no `IntegrityError`. -/
theorem notify_onlyRaises (cfg : StoreConfig) (now : Instant) (row : JobRow) (s : Store) :
    OnlyRaises NotIntegrity (s.notify cfg now row) := by
  refine (rowToJob_onlyRaises row).bind fun job => ?_
  split
  · exact onlyRaises_pure _
  · dsimp only
    split
    · exact onlyRaises_throw nofun
    · exact onlyRaises_pure _

/-- To read the row of an attempt raises no `IntegrityError`. -/
theorem ownedRow_onlyRaises (jobId attemptId : Uuid) (owner : String) (s : Store) :
    OnlyRaises NotIntegrity (s.ownedRow jobId attemptId owner) := by
  unfold ownedRow
  split
  · exact onlyRaises_pure _
  · exact onlyRaises_throw nofun

/-- The event of the next revision of a row goes into the table, whatever was written to the rows before. -/
theorem event_onlyRaises (hs : Sound cfg s) {row : JobRow} (hrow : row ∈ s.jobs) (hevents : s'.events = s.events) (now : Instant)
    (kind : String) : OnlyRaises NotIntegrity (s'.event cfg now row.id (row.revision + 1) kind) := by
  obtain ⟨s₁, hs₁⟩ := event_returns (s := s') cfg now (hevents ▸ hs.fresh hrow kind)
  rw [hs₁]
  exact nofun

/-- To return a job after a transaction raises no `IntegrityError` where the transaction raises none. -/
theorem returnedOrGet_onlyRaises {jobId : Uuid} {o : Outcome (Option JobRecord)} (h : OnlyRaises NotIntegrity o.1) :
    OnlyRaises NotIntegrity (returnedOrGet jobId o).1 := by
  obtain ⟨result, s⟩ := o
  cases result with
  | error e =>
    intro e' he
    cases he
    exact h e rfl
  | ok returned =>
    cases returned with
    | none => exact get_onlyRaises jobId none s
    | some job => exact nofun

/-- A submission to a sound store raises no `IntegrityError`. -/
theorem submitTransaction_onlyRaises (hs : Sound cfg s) (clock : Reading) (tenantId key : String) (spec : JobSpec) :
    OnlyRaises NotIntegrity (submitTransaction cfg clock tenantId key spec s).1 := by
  refine transaction_onlyRaises ?_
  split
  · split
    · exact onlyRaises_throw nofun
    · exact (rowToJob_onlyRaises _).bind fun _ => onlyRaises_pure _
  · split
    · exact onlyRaises_throw nofun
    · have hunlogged : ∀ e ∈ s.events, ¬(e.jobId = s.drawn ∧ e.revision = 1 ∧ e.kind = "job.accepted") := by
        rintro e he ⟨hid, -⟩
        obtain ⟨r, hr, hre, -⟩ := hs.dated e he
        exact absurd (hs.wellFormed.jobDrawn r hr) (by rw [hre, hid]; exact lt_irrefl _)
      refine OnlyRaises.bind ?_ fun s₁ => (selectJob_onlyRaises _ _ _).bind fun row =>
        (rowToJob_onlyRaises row).bind fun _ => onlyRaises_pure _
      let row := acceptedRow cfg clock.now s.storeEpoch s.drawn tenantId key spec
      obtain ⟨s₁, hs₁⟩ := event_returns (s := s.draw.2.insertJob cfg row) cfg clock.now hunlogged
      intro e he
      cases hs₁.symm.trans he

/-- A claim in a sound store raises no `IntegrityError`. -/
theorem claimNext_onlyRaises (hs : Sound cfg s) (clock : Reading) (owner : String) (leaseSeconds : Int) :
    OnlyRaises NotIntegrity (claimNext cfg clock owner leaseSeconds s).1 := by
  refine transaction_onlyRaises ?_
  split
  · exact onlyRaises_pure _
  · rename_i row hhead
    obtain ⟨hrow, -⟩ := Table.mem_selectBy.1 (List.mem_of_mem_head? hhead)
    dsimp only [draw]
    split
    · exact onlyRaises_pure _
    · refine (event_onlyRaises hs hrow (by rfl) _ _).bind fun s₁ => (selectJob_onlyRaises _ _ _).bind fun r =>
        (rowToJob_onlyRaises r).bind fun _ => onlyRaises_pure _

/-- The start of an attempt in a sound store raises no `IntegrityError`. -/
theorem markRunning_onlyRaises (hs : Sound cfg s) (clock : Reading) (jobId attemptId : Uuid) (owner : String) :
    OnlyRaises NotIntegrity (markRunning cfg clock jobId attemptId owner s).1 := by
  have hbody : OnlyRaises NotIntegrity (transaction cfg (fun s => do
      let row ← s.ownedRow jobId attemptId owner
      let revision := row.revision + 1
      let s := s.updateJobs cfg (ownedBy jobId attemptId owner) (runningRow clock.now revision)
      let s ← s.event cfg clock.now jobId revision "job.running"
      pure ((), s)) s).1 := by
    refine transaction_onlyRaises (OnlyRaises.bind_of (ownedRow_onlyRaises _ _ _ _) fun row hread => ?_)
    obtain ⟨hrow, howned⟩ := mem_of_ownedRow hread
    obtain ⟨rfl, -⟩ := ownedBy_iff.1 howned
    exact (event_onlyRaises hs hrow (by rfl) _ _).bind fun _ => onlyRaises_pure _
  unfold markRunning thenGet Outcome.andThen
  split
  · rename_i e s₁ h
    rw [h] at hbody
    intro e' he
    cases he
    exact hbody e rfl
  · exact get_onlyRaises _ _ _

/-- A report to a sound store raises no `IntegrityError`. -/
theorem finish_onlyRaises (hs : Sound cfg s) (clock : Reading) (jobId attemptId : Uuid) (owner : String) (report : Report) :
    OnlyRaises NotIntegrity (finish cfg clock jobId attemptId owner report s).1 := by
  unfold finish
  split
  · exact onlyRaises_throw nofun
  · refine returnedOrGet_onlyRaises (transaction_onlyRaises (OnlyRaises.bind_of (ownedRow_onlyRaises _ _ _ _) fun row hread => ?_))
    obtain ⟨hrow, howned⟩ := mem_of_ownedRow hread
    obtain ⟨rfl, -⟩ := ownedBy_iff.1 howned
    split
    · exact (rowToJob_onlyRaises _).bind fun _ => onlyRaises_pure _
    · split
      · exact onlyRaises_throw nofun
      · exact (event_onlyRaises hs hrow (by rfl) _ _).bind fun _ => (selectJob_onlyRaises _ _ _).bind fun r =>
          (notify_onlyRaises cfg _ r _).bind fun _ => onlyRaises_pure _

/-- A request to cancel in a sound store raises no `IntegrityError`. -/
theorem requestCancel_onlyRaises (hs : Sound cfg s) (clock : Reading) (jobId : Uuid) (tenantId : Option String) :
    OnlyRaises NotIntegrity (requestCancel cfg clock jobId tenantId s).1 := by
  refine returnedOrGet_onlyRaises (transaction_onlyRaises (OnlyRaises.bind_of (selectJob_onlyRaises _ _ _) fun row hread => ?_))
  obtain ⟨hrow, rfl, -⟩ := mem_of_selectJob hread
  split
  · exact (rowToJob_onlyRaises _).bind fun _ => onlyRaises_pure _
  · refine (event_onlyRaises hs hrow (by rfl) _ _).bind fun _ => (selectJob_onlyRaises _ _ _).bind fun r => ?_
    split
    · exact (notify_onlyRaises cfg _ r _).bind fun _ => onlyRaises_pure _
    · exact onlyRaises_pure _

/-- The recoveries end with their counts, or are refused for their room, or for a row that they can not announce. -/
theorem recoveries_onlyRaise (clock : Reading) (excludeJobIds : List Uuid) (hs : Sound cfg s) (hx : Exact cfg s) :
    OnlyRaises NotIntegrity (recoverInterrupted cfg clock s).1 ∧
      OnlyRaises NotIntegrity (recoverExpiredLeases cfg clock excludeJobIds s).1 := by
  have hends : ∀ {result : Except StoreError Nat} {g : Int}, (Fits cfg g s → (∃ n, result = .ok n)) →
      (¬Fits cfg g s → result = .error (.admissionLimited "metadata capacity is full")) → OnlyRaises NotIntegrity result := by
    intro result g hfits hraises e he
    by_cases h : Fits cfg g s
    · obtain ⟨n, hn⟩ := hfits h
      cases hn.symm.trans he
    · cases (hraises h).symm.trans he
      exact nofun
  constructor
  · by_cases hnotifiable : ∀ row ∈ s.jobs, row.phase.held = true → row.Notifiable
    · obtain ⟨hfits, hraises⟩ := recoverInterrupted_fits clock hs hx hnotifiable
      exact hends (fun h => (hfits h).1) hraises
    · obtain ⟨_, -, -, _, -, hraised⟩ := recoverInterrupted_raises clock hs hx hnotifiable
      rw [hraised]
      exact onlyRaises_throw nofun
  · by_cases hnotifiable : ∀ row ∈ s.expired clock excludeJobIds, row.Notifiable
    · obtain ⟨hfits, hraises⟩ := recoverExpiredLeases_fits clock excludeJobIds hs hx hnotifiable
      exact hends (fun h => (hfits h).1) hraises
    · obtain ⟨_, -, _, -, hraised⟩ := recoverExpiredLeases_raises clock excludeJobIds hs hx hnotifiable
      rw [hraised]
      exact onlyRaises_throw nofun

/-- No transaction violates a constraint. -/
theorem not_integrityError (h : Reachable cfg s) (input : StoreCall × Reading) (message : String) :
    raised cfg s input ≠ some (.integrityError message) := by
  obtain ⟨call, clock⟩ := input
  have hs := h.sound
  cases call with
  | submit tenantId key spec =>
    unfold raised
    dsimp only
    split
    · exact errorOf_ne (submitTransaction_onlyRaises hs clock tenantId key spec) message
    · simp
  | claimNext owner leaseSeconds => exact errorOf_ne (claimNext_onlyRaises hs clock owner leaseSeconds) message
  | markRunning jobId attemptId owner => exact errorOf_ne (markRunning_onlyRaises hs clock jobId attemptId owner) message
  | renewLease jobId attemptId owner leaseSeconds => exact errorOf_ne (transaction_onlyRaises (onlyRaises_pure _)) message
  | finish jobId attemptId owner report => exact errorOf_ne (finish_onlyRaises hs clock jobId attemptId owner report) message
  | requestCancel jobId tenantId => exact errorOf_ne (requestCancel_onlyRaises hs clock jobId tenantId) message
  | recoverInterrupted => exact errorOf_ne (recoveries_onlyRaise clock [] hs h.exact).1 message
  | recoverExpiredLeases excludeJobIds => exact errorOf_ne (recoveries_onlyRaise clock excludeJobIds hs h.exact).2 message
  | claimOutboxDue limit lease =>
    refine errorOf_ne ?_ message
    unfold claimOutboxDue
    split
    · exact onlyRaises_pure _
    · exact transaction_onlyRaises (onlyRaises_pure _)
  | outboxDelivered eventId token => exact errorOf_ne (transaction_onlyRaises (onlyRaises_pure _)) message
  | outboxFailed eventId token error nextAttemptAt permanent => exact errorOf_ne (transaction_onlyRaises (onlyRaises_pure _)) message
  | prune hasCleaner cutoff => exact errorOf_ne (transaction_onlyRaises (onlyRaises_pure _)) message
  | clearManifest jobId => exact errorOf_ne (transaction_onlyRaises (onlyRaises_pure _)) message
  | reopen => simp [raised]

/-! ## Revisions and events -/

/-- What one transaction does to a row and the log: the row is as it was, with nothing logged for it, up to the renewal of its lease; or its
revision is the next one, and one event of that revision was logged for it. -/
def OneEvent (call : StoreCall) (s : Store) (new : List EventRow) (r' : JobRow) : Prop :=
  ((∀ e ∈ new, e.jobId ≠ r'.id) ∧ ∃ r ∈ s.jobs, r.id = r'.id ∧ r.revision = r'.revision ∧
      (r' = r ∨ ∃ attemptId owner leaseSeconds, call = .renewLease r.id attemptId owner leaseSeconds)) ∨
    ∃ e ∈ new, e.jobId = r'.id ∧ e.revision = r'.revision ∧ (∀ e' ∈ new, e'.jobId = r'.id → e' = e) ∧
      ∀ r ∈ s.jobs, r.id = r'.id → r'.revision = r.revision + 1

/-- The event of the revision that a transaction gave a row is there as long as the row keeps the revision, unless newer events fill the
log. -/
theorem revision_event (h : Reachable cfg s) (input : StoreCall × Reading) (later : List (StoreCall × Reading)) {r : JobRow}
    (hr : r ∈ (Machine.run (step cfg) s (input :: later)).jobs)
    (hafter : ∃ r' ∈ (step cfg s input).jobs, r'.id = r.id ∧ r'.revision = r.revision)
    (hbefore : ∀ r₀ ∈ s.jobs, r₀.id = r.id → r₀.revision ≠ r.revision) :
    ∃ seq, s.nextSeq ≤ seq ∧
      ((∃ e ∈ (Machine.run (step cfg) s (input :: later)).events, e.seq = seq ∧ e.jobId = r.id ∧ e.revision = r.revision) ∨
        FullOfNewer cfg s (input :: later) seq) := by
  obtain ⟨new, hlogged⟩ := step_logged h input
  obtain ⟨r', hr', hid', hrevision'⟩ := hafter
  rcases hlogged.row h.wellFormed hr' with ⟨-, r₀, hr₀, hid₀, hrevision₀, -⟩ | ⟨e, he, hid, hrevision, -⟩
  · exact absurd (hrevision₀.trans hrevision') (hbefore r₀ hr₀ (hid₀.trans hid'))
  · have hseq : e.seq ∈ List.range' s.nextSeq new.length := hlogged.numbered ▸ List.mem_map_of_mem he
    refine ⟨e.seq, (List.mem_range'_1.1 hseq).1, ?_⟩
    refine (logged_kept_or_full h hlogged he later ⟨r, hr, (hid.trans hid').symm⟩).imp_left fun hkept => ?_
    exact ⟨e, hkept, rfl, hid.trans hid', hrevision.trans hrevision'⟩

/-- In every store that the operations lead to. Every further transaction logs one event for each row that it writes, of the revision it
raises by one, and nothing else, behind the events of the jobs that are still there, trimmed to the newest; it violates no constraint. The
events are in order, those of a job of rising revisions, the newest of them of the revision of its row, and no more of them than are kept.
Every event that was logged in the run, and the one of the revision of each row, is there as long as its job is, unless since then as many
newer events were in the log as are kept. -/
theorem revisions_and_events (cfg : StoreConfig) (inputs : List (StoreCall × Reading)) :
    let s := Machine.run (step cfg) (create cfg 0) inputs
    (∀ input, (∀ message, raised cfg s input ≠ some (.integrityError message)) ∧ ∃ new,
        (step cfg s input).events = keepNewest cfg (eventsOfJobs (step cfg s input).jobs s.events ++ new) ∧
          new.map (·.seq) = List.range' s.nextSeq new.length ∧ (∀ r' ∈ (step cfg s input).jobs, OneEvent input.1 s new r') ∧
            ∀ e ∈ new, ∃ r' ∈ (step cfg s input).jobs, r'.id = e.jobId) ∧
      (s.events.Pairwise fun e e' => e.seq < e'.seq ∧ (e.jobId = e'.jobId → e.revision < e'.revision)) ∧
      (∀ e ∈ s.events, ∃ r ∈ s.jobs, r.id = e.jobId ∧ e.revision ≤ r.revision ∧
        ∃ e' ∈ s.events, e'.jobId = e.jobId ∧ e'.revision = r.revision) ∧
      s.events.length ≤ cfg.maxEventRecords.toNat ∧
      ∀ before input later, inputs = before ++ input :: later →
        let s₀ := Machine.run (step cfg) (create cfg 0) before
        (∀ e ∈ s₀.events, (∃ r ∈ s.jobs, r.id = e.jobId) → e ∈ s.events ∨ FullOfNewer cfg s₀ (input :: later) e.seq) ∧
          ∀ r ∈ s.jobs, (∃ r' ∈ (step cfg s₀ input).jobs, r'.id = r.id ∧ r'.revision = r.revision) →
            (∀ r₀ ∈ s₀.jobs, r₀.id = r.id → r₀.revision ≠ r.revision) →
              ∃ seq, s₀.nextSeq ≤ seq ∧ ((∃ e ∈ s.events, e.seq = seq ∧ e.jobId = r.id ∧ e.revision = r.revision) ∨
                FullOfNewer cfg s₀ (input :: later) seq) := by
  intro s
  have h : Reachable cfg s := ⟨inputs, rfl⟩
  have hs := h.sound
  refine ⟨fun input => ⟨?_, ?_⟩, ?_, fun e he => ?_, hs.sequenced.few, ?_⟩
  · exact not_integrityError h input
  · obtain ⟨new, hlogged⟩ := step_logged h input
    exact ⟨new, hlogged.events, hlogged.numbered, fun r' hr' => hlogged.row hs.wellFormed hr', hlogged.named⟩
  · exact hs.sequenced.ordered.and h.current.rising
  · obtain ⟨r, hr, hid, hle⟩ := hs.dated e he
    obtain ⟨e', he', hid', hrevision⟩ := h.current.newest e he r hr hid
    exact ⟨r, hr, hid, hle, e', he', hid'.trans hid, hrevision⟩
  · rintro before input later rfl
    have hrun : s = Machine.run (step cfg) (Machine.run (step cfg) (create cfg 0) before) (input :: later) := Machine.run_append _ _ _ _
    have hbefore : Reachable cfg (Machine.run (step cfg) (create cfg 0) before) := ⟨before, rfl⟩
    dsimp only
    rw [hrun]
    exact ⟨fun e he hjob => event_kept_or_full hbefore he (input :: later) hjob,
      fun r hr hafter hfresh => revision_event hbefore input later hr hafter hfresh⟩

end Store

end SharkRail
