import SharkRail.Lemmas.Paths
import SharkRail.Theorems.Requests

/-!
# The isolation of tenants

A tenant reaches the jobs of another one with no call: each of them is looked up for the tenant, and what is not found is not told apart
from what is another's. What a call changes is the tenant's, but for the expiry of jobs and for the log of events, which all tenants
share.
-/

namespace SharkRail

namespace Store

variable {cfg : StoreConfig} {clock : Reading} {s s' : Store} {tenantId other : String} {jobId : Uuid}

/-- A job of a tenant. -/
def OfTenant (tenantId : String) (jobId : Uuid) (s : Store) : Prop := ∃ r ∈ s.jobs, r.id = jobId ∧ r.tenantId = tenantId

/-- The rows of a tenant are as they were, but for the oldest events of the log: an event is trimmed once there are `max_event_records`
newer ones. -/
structure Untouched (cfg : StoreConfig) (tenantId : String) (s s' : Store) : Prop where
  jobs : ∀ r, r.tenantId = tenantId → (r ∈ s'.jobs ↔ r ∈ s.jobs)
  outbox : ∀ o, s.OfTenant tenantId o.jobId → (o ∈ s'.outbox ↔ o ∈ s.outbox)
  deletions : s'.deletions = s.deletions
  events : ∀ e, s.OfTenant tenantId e.jobId → e ∈ s'.events → e ∈ s.events
  trimmed : ∀ e, e ∈ s.events → e ∉ s'.events → cfg.maxEventRecords.toNat ≤ s'.events.countP fun newer => e.seq < newer.seq

/-- Nothing of a tenant changes where nothing changes. -/
theorem Untouched.refl : Untouched cfg tenantId s s :=
  ⟨fun _ _ => .rfl, fun _ _ => .rfl, rfl, fun _ _ => id, fun _ he hnot => absurd he hnot⟩

theorem keepNewest_trimmed {events : List EventRow} (hordered : events.Pairwise fun e e' => e.seq < e'.seq) {e : EventRow} (he : e ∈ events)
    (hnot : e ∉ keepNewest cfg events) : cfg.maxEventRecords.toNat ≤ (keepNewest cfg events).countP fun newer => e.seq < newer.seq := by
  unfold keepNewest at hnot ⊢
  set n := events.length - cfg.maxEventRecords.toNat with hn
  rw [← List.take_append_drop n events, List.mem_append] at he
  have hold : e ∈ events.take n := he.resolve_right hnot
  have hpos : n ≠ 0 := by
    intro hzero
    rw [hzero] at hold
    cases hold
  rw [← List.take_append_drop n events, List.pairwise_append] at hordered
  have hall : (events.drop n).countP (fun newer => e.seq < newer.seq) = (events.drop n).length := by
    rw [List.countP_eq_length]
    exact fun newer hnewer => decide_eq_true (hordered.2.2 e hold newer hnewer)
  rw [hall, List.length_drop]
  omega

/-- The events after one more was logged: it and old ones, without the oldest where there would be too many. -/
theorem logged_untouched (hs : Sequenced cfg s) {event : EventRow} (hseq : event.seq = s.nextSeq)
    (hevents : s'.events = logged cfg event s.events) :
    (∀ e ∈ s'.events, e ∈ s.events ∨ e = event) ∧
      ∀ e, e ∈ s.events → e ∉ s'.events → cfg.maxEventRecords.toNat ≤ s'.events.countP fun newer => e.seq < newer.seq := by
  refine ⟨fun e he => mem_logged (hevents ▸ he), fun e he hnot => ?_⟩
  have hordered : (s.events ++ [event]).Pairwise fun e e' => e.seq < e'.seq := by
    refine List.pairwise_append.2 ⟨hs.ordered, List.pairwise_singleton _ _, ?_⟩
    rintro x hx y (_ | ⟨_, ⟨⟩⟩)
    rw [hseq]
    exact hs.drawn x hx
  rw [hevents, logged_eq hordered] at hnot ⊢
  exact keepNewest_trimmed hordered (List.mem_append_left _ he) hnot

/-- A job that was accepted for a tenant leaves the rows of the others. -/
theorem Change.untouched_of_submit (hs : Sound cfg s) (hne : other ≠ tenantId) {key : String} {spec : JobSpec}
    (h : Change cfg (.submit tenantId key spec) clock s s') : Untouched cfg other s s' := by
  cases h with
  | accepted _ _ _ hcall _ _ _ hjobs hevents houtbox hdeletions =>
    cases hcall
    obtain ⟨hlogged, htrimmed⟩ := logged_untouched hs.sequenced rfl hevents
    refine ⟨fun r hr => ?_, fun o _ => by rw [houtbox], hdeletions, fun e ⟨row, hrow, hid, _⟩ he => ?_, htrimmed⟩
    · rw [hjobs, Table.mem_insert]
      refine or_iff_left ?_
      rintro rfl
      exact hne hr.symm
    · refine (hlogged e he).resolve_right ?_
      rintro rfl
      exact absurd (hs.wellFormed.jobDrawn row hrow) (by rw [hid]; exact lt_irrefl _)
  | moved _ _ _ _ _ hstep => cases hstep
  | released f hstep houtbox hjobs hevents hdeletions =>
    have hsame : s'.outbox = s.outbox := by
      rw [houtbox]
      conv_rhs => rw [← List.map_id s.outbox]
      exact List.map_congr_left fun o ho => (hstep o ho).resolve_right fun h => by cases h
    exact ⟨fun r _ => by rw [hjobs], fun o _ => by rw [hsame], hdeletions, fun e _ he => hevents ▸ he,
      fun e he hnot => absurd (hevents.symm ▸ he) hnot⟩
  | delivery _ _ _ hstep => cases hstep
  | pruned _ _ _ hcall => cases hcall
  | cleared _ hcall => cases hcall
  | restarted hcall => cases hcall

/-- A submission leaves the jobs of another tenant. -/
theorem submitTransaction_untouched (hs : Sound cfg s) (hne : other ≠ tenantId) (key : String) {spec : JobSpec}
    (hspec : spec.validate = .ok ()) :
    Untouched cfg other s (submitTransaction cfg clock tenantId key spec s).2 := by
  have hchange : (submitTransaction cfg clock tenantId key spec s).2 = s ∨
      Change cfg (.submit tenantId key spec) clock s (submitTransaction cfg clock tenantId key spec s).2 :=
    submit_change hs.wellFormed hspec
  rcases hchange with h | h
  · rw [h]
    exact .refl
  · exact h.untouched_of_submit hs hne

/-- A job of a tenant that is moved leaves the rows of the others. -/
theorem Moved.untouched (hs : Sound cfg s) {m : Move} (h : Moved cfg m s s') (hrow : m.row ∈ s.jobs) (hid : m.row'.id = m.row.id)
    (htenant : m.row'.tenantId = m.row.tenantId) (hne : m.row.tenantId ≠ other) : Untouched cfg other s s' := by
  have hapart : ∀ jobId, s.OfTenant other jobId → jobId ≠ m.row.id := by
    rintro _ ⟨r, hr, rfl, hother⟩ heq
    obtain rfl := Table.eq_of_key JobRow.id hs.wellFormed.jobIds hr hrow heq
    exact hne hother
  obtain ⟨hlogged, htrimmed⟩ := logged_untouched hs.sequenced rfl h.events
  refine ⟨fun r hr => ?_, fun o ho => ?_, h.deletions, fun e he hmem => ?_, htrimmed⟩
  · rw [h.jobs, mem_replaceJob]
    constructor
    · rintro (⟨hmem, -⟩ | ⟨rfl, -⟩)
      · exact hmem
      · exact absurd (htenant.symm.trans hr) hne
    · exact fun hmem => .inl ⟨hmem, hapart r.id ⟨r, hmem, rfl, hr⟩⟩
  · rw [h.outbox, List.mem_append]
    refine or_iff_left fun hnote => hapart o.jobId ho ?_
    unfold Move.notes at hnote
    split at hnote
    · exact (mem_notifications hnote).2.1.trans hid
    · cases hnote
  · refine (hlogged e hmem).resolve_right ?_
    rintro rfl
    exact hapart _ he rfl

/-- A request to cancel leaves the jobs of another tenant. -/
theorem requestCancel_untouched (hs : Sound cfg s) (hne : other ≠ tenantId) (jobId : Uuid) :
    Untouched cfg other s (requestCancel cfg clock jobId (some tenantId) s).2 := by
  cases h : s.selectJob jobId (some tenantId) with
  | error e =>
    rw [requestCancel_missing clock h]
    exact .refl
  | ok row =>
    obtain ⟨hrow, -, htenant⟩ := mem_of_selectJob h
    cases hsettled : row.phase.terminal || row.cancelled with
    | true =>
      obtain ⟨spec, hspec⟩ := hs.readable row hrow
      rw [requestCancel_settled cfg clock h hsettled hspec.rowToJob]
      exact .refl
    | false =>
      rcases requestCancel_writes clock hs h hsettled with hrefused | ⟨-, -, _, -, hraised⟩ | ⟨job, s', hwritten, -, hmoved⟩
      · rw [hrefused]
        exact .refl
      · rw [hraised]
        exact .refl
      · rw [hwritten]
        exact hmoved.untouched hs hrow rfl rfl fun heq => hne (heq.symm.trans (htenant tenantId rfl))

end Store

namespace Tenant

open Store (OfTenant Untouched)

variable {cfg : RequestConfig} {s s' : Service} {tenantId other : String} {jobId : Uuid} {request : TenantRequest} {call : TenantCall Uuid}

/-! ## The jobs of others -/

/-- A job that cannot be selected cannot be got. -/
theorem get_missing (h : s.store.selectJob jobId (some tenantId) = .error (.jobNotFound jobId)) :
    s.get jobId (some tenantId) = .error (.store (.jobNotFound jobId)) := by
  unfold Service.get Store.get
  rw [h]
  rfl

/-- A job that cannot be selected cannot be cancelled. -/
theorem cancelAndGet_missing (cfg : RequestConfig) (clock : Reading)
    (h : s.store.selectJob jobId (some tenantId) = .error (.jobNotFound jobId)) :
    s.cancelAndGet cfg clock jobId (some tenantId) = (.error (.store (.jobNotFound jobId)), s) := by
  unfold Service.cancelAndGet Service.cancel
  dsimp only
  rw [Store.requestCancel_missing clock h]

/-- A call about a job that is not the tenant's raises `JobNotFound`, and does nothing. -/
theorem serve_missing (hjob : call.job = some jobId) (h : s.store.selectJob jobId (some tenantId) = .error (.jobNotFound jobId)) :
    serve cfg tenantId request call s = (.error (.store (.jobNotFound jobId)), s) := by
  cases call with
  | submit key payload => cases hjob
  | get job =>
    cases hjob
    unfold serve
    dsimp only
    rw [get_missing h]
    rfl
  | result job =>
    cases hjob
    unfold serve Service.result
    dsimp only
    rw [get_missing h]
    rfl
  | readOutput job stream =>
    cases hjob
    unfold serve Service.readOutput
    dsimp only
    rw [get_missing h]
    rfl
  | cancel job =>
    cases hjob
    exact cancelAndGet_missing cfg request.clock h

/-- A job of another tenant cannot be selected. -/
theorem selectJob_of_other (hs : s.store.WellFormed) (hne : other ≠ tenantId) (h : s.store.OfTenant other jobId) :
    s.store.selectJob jobId (some tenantId) = .error (.jobNotFound jobId) := by
  obtain ⟨row, hrow, rfl, hother⟩ := h
  refine Store.selectJob_missing fun r hr hid => ⟨tenantId, rfl, ?_⟩
  obtain rfl := Table.eq_of_key JobRow.id hs.jobIds hr hrow hid
  exact hother ▸ hne

/-! ## The rows of others -/

/-- To cancel through the service is to request it of the store. -/
theorem cancel_store (cfg : RequestConfig) (jobId : Uuid) (tenant : Option String) (clock : Reading) (s : Service) :
    (s.cancel cfg.toServiceConfig jobId tenant clock).store = (s.store.requestCancel cfg.store clock jobId tenant).2 ∧
      (s.cancel cfg.toServiceConfig jobId tenant clock).output = s.output := by
  unfold Service.cancel
  dsimp only
  split
  · split
    · split <;> exact ⟨rfl, rfl⟩
    · exact ⟨rfl, rfl⟩
  · exact ⟨rfl, rfl⟩

/-- To cancel and read is to cancel, as far as the service changes. -/
theorem cancelAndGet_service (jobId : Uuid) (tenant : Option String) (clock : Reading) (s : Service) :
    (s.cancelAndGet cfg clock jobId tenant).2 = s.cancel cfg.toServiceConfig jobId tenant clock := by
  unfold Service.cancelAndGet
  split <;> rfl

/-- A submission through the service leaves the jobs of another tenant, but for the pruning that it begins with. -/
theorem submit_untouched (request : TenantRequest) (hs : Store.Reachable cfg.store s.store) (hne : other ≠ tenantId) (key : String)
    (payload : List (PyStr × PyJson)) :
    ∃ pruned, (pruned = s ∨ pruned = (s.pruneExpired cfg request.clock request.before request.after).2) ∧
      Untouched cfg.store other pruned.store (s.submit cfg request.clock request.before request.after tenantId key payload).2.store ∧
      (s.submit cfg request.clock request.before request.after tenantId key payload).2.output = pruned.output := by
  obtain ⟨pruned, hpruned, hreachable, -, ⟨e, h⟩ | ⟨spec, hspec, h⟩⟩ :=
    Service.submit_cases request.clock request.before request.after tenantId key payload hs
  · rw [h]
    exact ⟨pruned, hpruned, .refl, rfl⟩
  · rw [h]
    exact ⟨pruned, hpruned, Store.submitTransaction_untouched hreachable.sound hne key hspec, rfl⟩

/-- A request leaves the jobs of another tenant, but for the pruning that a submission begins with. -/
theorem serve_untouched (hs : Store.Reachable cfg.store s.store) (hne : other ≠ tenantId) :
    ∃ pruned, (pruned = s ∨ call.job = none ∧ pruned = (s.pruneExpired cfg request.clock request.before request.after).2) ∧
      Untouched cfg.store other pruned.store (serve cfg tenantId request call s).2.store ∧
      (serve cfg tenantId request call s).2.output = pruned.output := by
  cases call with
  | submit key payload =>
    obtain ⟨pruned, hpruned, h⟩ := submit_untouched request hs hne key payload
    exact ⟨pruned, hpruned.imp_right fun hpruned => ⟨rfl, hpruned⟩, h⟩
  | get | result | readOutput => exact ⟨s, .inl rfl, .refl, rfl⟩
  | cancel jobId =>
    refine ⟨s, .inl rfl, ?_⟩
    obtain ⟨hstore, houtput⟩ := cancel_store cfg jobId (some tenantId) request.clock s
    unfold serve
    dsimp only
    rw [cancelAndGet_service, hstore, houtput]
    exact ⟨Store.requestCancel_untouched hs.sound hne jobId, rfl⟩

end Tenant

end SharkRail
