import SharkRail.Lib.Fallible
import SharkRail.Store.Transitions

/-!
# What the parts of an operation do

One lemma for each part that the operations are made of: the lookups, the event, the notification, and `transaction`.
-/

namespace SharkRail

namespace Store

open Fallible

variable {cfg : StoreConfig}

/-- The two ends of a transaction: it leaves the store as it was, or it commits what its body did. -/
theorem transaction_cases (cfg : StoreConfig) {α : Type} (body : Store → Except StoreError (α × Store)) (s : Store) :
    (∃ e, transaction cfg body s = (.error e, s)) ∨
      ∃ a s', body s = .ok (a, s') ∧ transaction cfg body s = (.ok a, s') := by
  unfold transaction
  cases h : body s with
  | error e => exact Or.inl ⟨e, rfl⟩
  | ok r =>
    obtain ⟨a, s'⟩ := r
    by_cases hcap : s'.metadataBytes > cfg.maxMetadataBytes ∧ s'.metadataBytes > s.metadataBytes
    · exact Or.inl ⟨_, if_pos hcap⟩
    · exact Or.inr ⟨a, s', rfl, if_neg hcap⟩

/-- A transaction whose body returns and does not grow the rows commits. -/
theorem transaction_commits {α : Type} {body : Store → Except StoreError (α × Store)} {s s' : Store} {a : α}
    (h : body s = .ok (a, s')) (hsize : s'.metadataBytes ≤ s.metadataBytes) : transaction cfg body s = (.ok a, s') := by
  unfold transaction
  rw [h]
  exact if_neg (fun hc => by omega)

/-- A job that is selected is a row of the tenant with that id. -/
theorem mem_of_selectJob {s : Store} {jobId : Uuid} {tenantId : Option String} {row : JobRow}
    (h : s.selectJob jobId tenantId = .ok row) :
    row ∈ s.jobs ∧ row.id = jobId ∧ ∀ t ∈ tenantId, row.tenantId = t := by
  unfold selectJob at h
  split at h
  · rename_i r hr
    rw [pure_eq_ok] at h
    subst h
    have hp := List.find?_some hr
    rw [Bool.and_eq_true] at hp
    refine ⟨List.mem_of_find?_eq_some hr, by simpa using hp.1, ?_⟩
    rintro t rfl
    simpa using hp.2
  · cases h

/-- A row that is owned is one of the attempt. -/
theorem mem_of_ownedRow {s : Store} {jobId attemptId : Uuid} {owner : String} {row : JobRow}
    (h : s.ownedRow jobId attemptId owner = .ok row) : row ∈ s.jobs ∧ ownedBy jobId attemptId owner row = true := by
  unfold ownedRow at h
  split at h
  · rename_i r hr
    rw [pure_eq_ok] at h
    subst h
    exact ⟨List.mem_of_find?_eq_some hr, List.find?_some hr⟩
  · cases h

/-- A row is owned by an attempt where it has its id, its attempt and its owner. -/
theorem ownedBy_iff {jobId attemptId : Uuid} {owner : String} {r : JobRow} :
    ownedBy jobId attemptId owner r = true ↔ r.id = jobId ∧ r.attemptId = some attemptId ∧ r.leaseOwner = some owner := by
  simp [ownedBy, and_assoc]

/-- Logging an event changes the events and nothing else of the tables. -/
theorem event_eq {s s' : Store} {now : Instant} {jobId : Uuid} {revision : Nat} {kind : String}
    (h : s.event cfg now jobId revision kind = .ok s') :
    ∃ bytes, s' = { s with
      events := logged cfg ⟨s.nextSeq, jobId, revision, kind, now⟩ s.events
      nextSeq := s.nextSeq + 1
      metadataBytes := bytes } := by
  unfold event at h
  split at h
  · cases h
  · rw [pure_eq_ok] at h
    subst h
    exact ⟨_, rfl⟩

/-- A notification changes the outbox and nothing else of the tables. -/
theorem notify_eq {s s' : Store} {now : Instant} {row : JobRow} (h : s.notify cfg now row = .ok s') :
    ∃ bytes, s' = { s with
      outbox := s.outbox ++ notifications now s.drawn row
      drawn := s.drawn + (notifications now s.drawn row).length
      metadataBytes := bytes } := by
  unfold notify at h
  rw [bind_eq_ok] at h
  obtain ⟨job, hjob, h⟩ := h
  unfold notifications
  rw [hjob]
  split at h
  · rename_i hnone
    rw [pure_eq_ok] at h
    subst h
    exact ⟨s.metadataBytes, by simp [hnone]⟩
  · rename_i endpoint hsome
    dsimp only at h
    split at h
    · cases h
    rw [pure_eq_ok] at h
    subst h
    refine ⟨(s.draw.2.insertOutbox cfg (notification now s.drawn endpoint job)).metadataBytes, ?_⟩
    simp [hsome, insertOutbox, draw, Table.insert]

/-- The record that a row is read as has its columns. -/
theorem rowToJob_eq {row : JobRow} {job : JobRecord} (h : rowToJob row = .ok job) : job.toJobRow = row := by
  unfold rowToJob at h
  split at h
  · rw [pure_eq_ok] at h
    subst h
    rfl
  · cases h

/-- A terminal row is announced at most once. -/
theorem length_notifications_le (now : Instant) (eventId : Uuid) (row : JobRow) :
    (notifications now eventId row).length ≤ 1 := by
  unfold notifications
  split
  · cases endpointOf _ <;> simp
  · simp

/-- A notification is of the row's job, under the id drawn for it. -/
theorem mem_notifications {now : Instant} {eventId : Uuid} {row : JobRow} {o : OutboxRow}
    (h : o ∈ notifications now eventId row) :
    o.eventId = eventId ∧ o.jobId = row.id ∧ o.state = .pending ∧ o.deliveryAttemptId = none ∧ o.attempts = 0 := by
  unfold notifications at h
  split at h
  · rename_i job hjob
    rw [Option.mem_toList, Option.map_eq_some_iff] at h
    obtain ⟨endpoint, -, rfl⟩ := h
    exact ⟨rfl, congrArg JobRow.id (rowToJob_eq hjob), rfl, rfl, rfl⟩
  · simp at h

/-! ## Statements that meet no row -/

/-- An update that meets no row changes nothing. -/
theorem updateJobs_of_none {s : Store} {p : JobRow → Bool} {f : JobRow → JobRow} (h : Table.rowcount p s.jobs = 0) :
    s.updateJobs cfg p f = s := by
  simp [updateJobs, Table.update_of_rowcount_eq_zero h, Table.updateDelta_of_rowcount_eq_zero h]

/-- An update that meets no row of the outbox changes nothing. -/
theorem updateOutbox_of_none {s : Store} {p : OutboxRow → Bool} {f : OutboxRow → OutboxRow}
    (h : Table.rowcount p s.outbox = 0) : s.updateOutbox cfg p f = s := by
  simp [updateOutbox, Table.update_of_rowcount_eq_zero h, Table.updateDelta_of_rowcount_eq_zero h]

/-! ## Replacing a row -/

/-- With ids unique, an `UPDATE` that meets one row replaces it. -/
theorem update_eq_replaceJob {jobs : List JobRow} {row : JobRow} {p : JobRow → Bool} {f : JobRow → JobRow}
    (hn : (jobs.map (·.id)).Nodup) (hrow : row ∈ jobs) (hp : ∀ r, p r = true → r.id = row.id) (hpr : p row = true) :
    Table.update p f jobs = replaceJob row.id (f row) jobs := by
  unfold replaceJob Table.update
  apply List.map_congr_left
  intro r hr
  by_cases hid : r.id = row.id
  · have e : r = row := Table.eq_of_key JobRow.id hn hr hrow hid
    subst e
    simp [hpr]
  · have hpf : p r = false := by
      by_contra h
      exact hid (hp r (by simpa using h))
    simp [hid, hpf]

/-- The rows after a replacement are the others, and the new one where there was one of that id. -/
theorem mem_replaceJob {jobs : List JobRow} {jobId : Uuid} {row' r : JobRow} :
    r ∈ replaceJob jobId row' jobs ↔ (r ∈ jobs ∧ r.id ≠ jobId) ∨ (r = row' ∧ ∃ x ∈ jobs, x.id = jobId) := by
  simp only [replaceJob, Table.mem_update]
  constructor
  · rintro ⟨x, hx, rfl⟩
    by_cases hid : x.id = jobId
    · exact Or.inr ⟨by simp [hid], x, hx, hid⟩
    · exact Or.inl (by simp [hid, hx])
  · rintro (⟨hr, hid⟩ | ⟨rfl, x, hx, hid⟩)
    · exact ⟨r, hr, by simp [hid]⟩
    · exact ⟨x, hx, by simp [hid]⟩

/-- Replacing a row by one with the same value in a column keeps that column. -/
theorem map_replaceJob {κ : Type*} (key : JobRow → κ) {jobs : List JobRow} {row row' : JobRow}
    (hn : (jobs.map (·.id)).Nodup) (hrow : row ∈ jobs) (hkey : key row' = key row) :
    (replaceJob row.id row' jobs).map key = jobs.map key := by
  unfold replaceJob Table.update
  rw [List.map_map]
  apply List.map_congr_left
  intro r hr
  by_cases hid : r.id = row.id
  · have e : r = row := Table.eq_of_key JobRow.id hn hr hrow hid
    simp [e, hkey]
  · simp [hid]

/-- The rows of the outbox after a replacement are the others, and the new one where there was one of that id. -/
theorem mem_replaceOutbox {outbox : List OutboxRow} {eventId : Uuid} {o' o : OutboxRow} :
    o ∈ replaceOutbox eventId o' outbox ↔
      (o ∈ outbox ∧ o.eventId ≠ eventId) ∨ (o = o' ∧ ∃ x ∈ outbox, x.eventId = eventId) := by
  simp only [replaceOutbox, Table.mem_update]
  constructor
  · rintro ⟨x, hx, rfl⟩
    by_cases hid : x.eventId = eventId
    · exact Or.inr ⟨by simp [hid], x, hx, hid⟩
    · exact Or.inl (by simp [hid, hx])
  · rintro (⟨ho, hid⟩ | ⟨rfl, x, hx, hid⟩)
    · exact ⟨o, ho, by simp [hid]⟩
    · exact ⟨x, hx, by simp [hid]⟩

/-- With event ids unique, an `UPDATE` that meets one outbox row replaces it. -/
theorem update_eq_replaceOutbox {outbox : List OutboxRow} {o : OutboxRow} {p : OutboxRow → Bool}
    {f : OutboxRow → OutboxRow} (hn : (outbox.map (·.eventId)).Nodup) (ho : o ∈ outbox)
    (hp : ∀ x, p x = true → x.eventId = o.eventId) (hpo : p o = true) :
    Table.update p f outbox = replaceOutbox o.eventId (f o) outbox := by
  unfold replaceOutbox Table.update
  apply List.map_congr_left
  intro x hx
  by_cases hid : x.eventId = o.eventId
  · have e : x = o := Table.eq_of_key OutboxRow.eventId hn hx ho hid
    subst e
    simp [hpo]
  · have hpf : p x = false := by
      by_contra h
      exact hid (hp x (by simpa using h))
    simp [hid, hpf]

/-- A replacement that keeps a column of its row keeps the column of the table. -/
theorem map_replaceOutbox {κ : Type*} (key : OutboxRow → κ) {outbox : List OutboxRow} {o o' : OutboxRow}
    (hn : (outbox.map (·.eventId)).Nodup) (ho : o ∈ outbox) (hkey : key o' = key o) :
    (replaceOutbox o.eventId o' outbox).map key = outbox.map key := by
  unfold replaceOutbox Table.update
  rw [List.map_map]
  apply List.map_congr_left
  intro x hx
  by_cases hid : x.eventId = o.eventId
  · have e : x = o := Table.eq_of_key OutboxRow.eventId hn hx ho hid
    simp [e, hkey]
  · simp [hid]

end Store

end SharkRail
