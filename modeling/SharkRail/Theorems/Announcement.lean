import SharkRail.Theorems.Terminal

/-!
# Terminal results and their notifications

The notification of a job is added by the transaction that makes it terminal. While no attempt takes an announced job back to
`running`, that happens once, so a job has its one notification from its terminal write on, with what that write says, and none
before (`Announced`). An attempt that was recovered from still owns its row, so its first `mark_running` takes the job back
(`recovered_attempt_reopens`). A process that has no attempt recovered from under it, and calls `mark_running` once for each and before
it ends, does not (`spares_of_orderly`).
-/

namespace SharkRail

namespace Store

variable {cfg : StoreConfig} {s s' : Store}

/-- The notifications of a job. -/
def notesOf (jobId : Uuid) (outbox : List OutboxRow) : List OutboxRow := outbox.filter fun o => o.jobId = jobId

/-- The notification says what the row says. -/
structure Announces (r : JobRow) (spec : JobSpec) (endpoint : PyStr) (o : OutboxRow) : Prop where
  endpoint : o.endpointId = endpoint
  payload : o.payloadJson = (PyStr.ofString "event_id", idJson "evt_" o.eventId) ::
    (PyStr.ofString "event_type", .str "job.completed") :: JobRecord.toDict { r with spec }

/-- A job that names an endpoint has one notification once it is terminal and none before; one that names none has none. -/
def AnnouncedAs (r : JobRow) (spec : JobSpec) (outbox : List OutboxRow) : Prop :=
  match endpointOf spec, r.phase.terminal with
  | some endpoint, true => ∃ o, notesOf r.id outbox = [o] ∧ Announces r spec endpoint o
  | _, _ => notesOf r.id outbox = []

/-- Every job is announced as its row says. -/
def Announced (s : Store) : Prop := ∀ r ∈ s.jobs, ∀ spec, r.spec = .ok spec → AnnouncedAs r spec s.outbox

/-- Two outbox rows are the same notification, in whatever state of delivery. -/
structure SameNote (o o' : OutboxRow) : Prop where
  eventId : o'.eventId = o.eventId
  jobId : o'.jobId = o.jobId
  endpointId : o'.endpointId = o.endpointId
  payloadJson : o'.payloadJson = o.payloadJson

theorem Released.sameNote {clock : Reading} {o o' : OutboxRow} {call : StoreCall} (h : Released clock o call o') :
    SameNote o o' := by
  cases h <;> exact ⟨rfl, rfl, rfl, rfl⟩

theorem OutboxStep.sameNote {drawn : Uuid} {clock : Reading} {o o' : OutboxRow} {call : StoreCall}
    (h : OutboxStep drawn clock o call o') : SameNote o o' := by
  cases h <;> exact ⟨rfl, rfl, rfl, rfl⟩

theorem notesOf_append (jobId : Uuid) (outbox notes : List OutboxRow) :
    notesOf jobId (outbox ++ notes) = notesOf jobId outbox ++ notesOf jobId notes := List.filter_append _ _

/-- Rows delivered to in place: the notifications of a job are changed in place. -/
theorem notesOf_map (jobId : Uuid) {outbox : List OutboxRow} {f : OutboxRow → OutboxRow}
    (hf : ∀ o ∈ outbox, SameNote o (f o)) : notesOf jobId (outbox.map f) = (notesOf jobId outbox).map f := by
  rw [notesOf, notesOf, List.filter_map]
  congr 1
  exact List.filter_congr fun o ho => by simp [(hf o ho).jobId]

/-- Deliveries keep a row announced. -/
theorem AnnouncedAs.map {r : JobRow} {spec : JobSpec} {outbox : List OutboxRow} {f : OutboxRow → OutboxRow}
    (h : AnnouncedAs r spec outbox) (hf : ∀ o ∈ outbox, SameNote o (f o)) : AnnouncedAs r spec (outbox.map f) := by
  have hnotes := notesOf_map r.id hf
  unfold AnnouncedAs at h ⊢
  split at h
  · obtain ⟨o, hone, hannounces⟩ := h
    have ho : o ∈ notesOf r.id outbox := by simp [hone]
    have hsame := hf o (List.mem_of_mem_filter ho)
    refine ⟨f o, by rw [hnotes, hone]; rfl, hsame.endpointId.trans hannounces.endpoint, ?_⟩
    rw [hsame.payloadJson, hsame.eventId]
    exact hannounces.payload
  · rw [hnotes, h]
    rfl

theorem AnnouncedAs.congr {r : JobRow} {spec : JobSpec} {outbox outbox' : List OutboxRow}
    (h : AnnouncedAs r spec outbox) (hnotes : notesOf r.id outbox' = notesOf r.id outbox) : AnnouncedAs r spec outbox' := by
  unfold AnnouncedAs at h ⊢
  rw [hnotes]
  exact h

/-- A row that is not terminal has no notification. -/
theorem AnnouncedAs.none_of_live {r : JobRow} {spec : JobSpec} {outbox : List OutboxRow} (h : AnnouncedAs r spec outbox)
    (hlive : r.phase.terminal = false) : notesOf r.id outbox = [] := by
  unfold AnnouncedAs at h
  rw [hlive] at h
  split at h
  · rename_i heq
    cases heq
  · exact h

theorem announcedAs_of_live {r : JobRow} {spec : JobSpec} {outbox : List OutboxRow}
    (h : notesOf r.id outbox = []) (hlive : r.phase.terminal = false) : AnnouncedAs r spec outbox := by
  unfold AnnouncedAs
  rw [hlive]
  split
  · rename_i heq
    cases heq
  · exact h

/-- The notification added by the terminal write announces the row. -/
theorem announcedAs_notifications {r : JobRow} {spec : JobSpec} (hr : r.spec = .ok spec) (hterminal : r.phase.terminal = true)
    {now : Instant} {eventId : Uuid} {outbox : List OutboxRow} (hnone : notesOf r.id outbox = []) :
    AnnouncedAs r spec (outbox ++ notifications now eventId r) := by
  have hall : notesOf r.id (notifications now eventId r) = notifications now eventId r := by
    refine List.filter_eq_self.2 fun o ho => ?_
    simpa using (mem_notifications ho).2.1
  have hnotes : notesOf r.id (outbox ++ notifications now eventId r) = notifications now eventId r := by
    rw [notesOf, List.filter_append]
    exact (congrArg₂ _ hnone hall).trans (List.nil_append _)
  have hread : notifications now eventId r =
      ((endpointOf spec).map fun endpoint => notification now eventId endpoint { r with spec }).toList := by
    unfold notifications rowToJob
    rw [hr]
    rfl
  unfold AnnouncedAs
  rw [hnotes, hread, hterminal]
  cases endpointOf spec with
  | none => rfl
  | some endpoint => exact ⟨notification now eventId endpoint { r with spec }, rfl, rfl, rfl⟩

/-- What a move adds to the outbox: the notification of the row it makes terminal. -/
theorem RowStep.announces {drawn : Uuid} {clock : Reading} {call : StoreCall} {row row' : JobRow} {kind : Option String}
    {notes : List OutboxRow} (h : RowStep drawn clock row call row' kind notes) :
    (row'.phase.terminal = true ∧ ∃ now, notes = notifications now drawn row') ∨
      (row'.phase.terminal = false ∧ notes = []) := by
  cases h with
  | assigned | running => exact Or.inr ⟨rfl, rfl⟩
  | renewed _ _ _ _ hphase => exact Or.inr ⟨JobPhase.terminal_of_held hphase, rfl⟩
  | finished _ _ report _ _ hreport =>
    refine Or.inl ⟨?_, _, rfl⟩
    change (settledPhase row.cancelled report.phase).terminal = true
    cases row.cancelled
    · exact hreport
    · rfl
  | cancelRequested _ _ hphase =>
    refine Or.inr ⟨?_, rfl⟩
    have hqueued : row.phase ≠ .queued := fun hq => by simp [hq, JobPhase.held] at hphase
    simpa [cancelRequestedRow, hqueued] using JobPhase.terminal_of_held hphase
  | cancelled _ _ hphase =>
    refine Or.inl ⟨?_, _, rfl⟩
    simp [cancelRequestedRow, hphase, JobPhase.terminal]
  | interrupted | leaseExpired =>
    refine Or.inl ⟨?_, _, rfl⟩
    change (lostPhase row.cancelled).terminal = true
    cases row.cancelled <;> rfl

/-- What the notifications of the other jobs are once one job is deleted with its own. -/
theorem notesOf_delete {jobId gone : Uuid} {outbox : List OutboxRow} (hne : jobId ≠ gone) :
    notesOf jobId (Table.delete (fun o => o.jobId = gone) outbox) = notesOf jobId outbox := by
  rw [notesOf, Table.delete, List.filter_filter]
  refine List.filter_congr fun o _ => ?_
  by_cases h : o.jobId = jobId
  · simp [h, hne]
  · simp [h]

/-- A row that names no endpoint has no notification. -/
theorem AnnouncedAs.none_of_endpoint {r : JobRow} {spec : JobSpec} {outbox : List OutboxRow} (h : AnnouncedAs r spec outbox)
    (hendpoint : endpointOf spec = none) : notesOf r.id outbox = [] := by
  unfold AnnouncedAs at h
  rw [hendpoint] at h
  exact h

/-- The call is no `mark_running` of an attempt whose job is already terminal, and names an endpoint. -/
def SparesAnnounced (s : Store) (input : StoreCall × Reading) : Prop :=
  ∀ jobId attemptId owner, input.1 = .markRunning jobId attemptId owner →
    ∀ r ∈ s.jobs, ownedBy jobId attemptId owner r = true → r.phase.terminal = true →
      ∀ spec, r.spec = .ok spec → endpointOf spec = none

/-- One transaction that spares the jobs that were announced keeps every job announced. -/
theorem Announced.change {call : StoreCall} {clock : Reading} (hs : WellFormed s) (hholds : Readable s)
    (ha : Announced s) (hspares : SparesAnnounced s (call, clock)) (h : Change cfg call clock s s') : Announced s' := by
  intro r' hr' spec' hspec'
  cases h with
  | accepted tenantId key spec hcall hspec hnew hroom hjobs hevents houtbox =>
    rw [hjobs, Table.mem_insert] at hr'
    rw [houtbox]
    rcases hr' with hr' | rfl
    · exact ha r' hr' spec' hspec'
    · refine announcedAs_of_live (List.filter_eq_nil_iff.2 fun o ho => ?_) rfl
      obtain ⟨r, hr, hid⟩ := hs.outboxJob o ho
      rw [decide_eq_true_iff, ← hid]
      exact (hs.jobDrawn r hr).ne
  | moved row row' kind notes hrow hstep hjobs hevents hquiet houtbox =>
    rw [hjobs, mem_replaceJob] at hr'
    rw [houtbox]
    rcases hr' with ⟨hr', hne⟩ | ⟨rfl, -⟩
    · -- the notes are of the row that moved
      refine (ha r' hr' spec' hspec').congr ?_
      have hnone : notesOf r'.id notes = [] := by
        refine List.filter_eq_nil_iff.2 fun o ho => ?_
        simpa [(hstep.notes.2 o ho).2.1] using Ne.symm hne
      rw [notesOf_append, hnone, List.append_nil]
    · have hid := hstep.key.1
      obtain ⟨held, hheld⟩ := hholds row hrow
      have hspec := hheld.reads
      have hannounced := ha row hrow _ hspec
      have hnone : notesOf r'.id s.outbox = [] := by
        rw [hid]
        cases ht : row.phase.terminal with
        | false => exact hannounced.none_of_live ht
        | true =>
          obtain ⟨attemptId, owner, hcall, howned⟩ := hstep.terminal ht
          exact hannounced.none_of_endpoint (hspares row.id attemptId owner hcall row hrow howned ht _ hspec)
      rcases hstep.announces with ⟨hterminal, now, rfl⟩ | ⟨hlive', rfl⟩
      · exact announcedAs_notifications hspec' hterminal hnone
      · rw [List.append_nil]
        exact announcedAs_of_live hnone hlive'
  | released f hstep houtbox hjobs =>
    rw [houtbox]
    refine (ha r' (hjobs ▸ hr') spec' hspec').map fun o ho => ?_
    rcases hstep o ho with hsame | hreleased
    · rw [hsame]
      exact ⟨rfl, rfl, rfl, rfl⟩
    · exact hreleased.sameNote
  | delivery o o' ho hstep houtbox hjobs =>
    rw [houtbox]
    refine (ha r' (hjobs ▸ hr') spec' hspec').map fun x hx => ?_
    by_cases hid : x.eventId = o.eventId
    · obtain rfl := Table.eq_of_key OutboxRow.eventId hs.eventIds hx ho hid
      simpa using hstep.sameNote
    · simpa [hid] using ⟨rfl, rfl, rfl, rfl⟩
  | pruned _ _ row hcall hrow hprunable houtput hjobs houtbox =>
    rw [hjobs, Table.mem_delete] at hr'
    rw [houtbox]
    exact (ha r' hr'.1 spec' hspec').congr (notesOf_delete (by simpa using hr'.2))
  | cleared _ _ _ hjobs houtbox =>
    rw [houtbox]
    exact ha r' (hjobs ▸ hr') spec' hspec'
  | restarted hcall htables =>
    split at htables
    · rw [htables, (create_tables cfg s.drawn).1] at hr'
      cases hr'
    · rw [htables] at hr' ⊢
      exact ha r' hr' spec' hspec'

/-! ## Attempts that have not started -/

/-- A store, and the attempts that may still call `mark_running`: claimed by this process, not started and not ended. -/
structure Attempts where
  store : Store
  unstarted : List (Uuid × Uuid)

/-- Which attempts are left after a call. `recover_interrupted` is what a service does when it starts, before it claims a job: the
attempts of the process before it are gone, and it has none of its own. -/
def unstartedAfter (cfg : StoreConfig) (st : Attempts) (input : StoreCall × Reading) : List (Uuid × Uuid) :=
  match input.1 with
  | .claimNext owner leaseSeconds =>
    match (claimNext cfg input.2 owner leaseSeconds st.store).1 with
    | .ok (some job) => (job.attemptId.map fun attemptId => (job.id, attemptId)).toList ++ st.unstarted
    | _ => st.unstarted
  | .markRunning jobId attemptId _ | .finish jobId attemptId _ _ => st.unstarted.filter fun a => a ≠ (jobId, attemptId)
  | .recoverInterrupted | .reopen => []
  | _ => st.unstarted

def attemptStep (cfg : StoreConfig) (st : Attempts) (input : StoreCall × Reading) : Attempts :=
  ⟨step cfg st.store input, unstartedAfter cfg st input⟩

/-- How the service calls: a `mark_running` that meets a row is the first call of its attempt, and expired leases are recovered
with the attempts in flight left out. -/
def Orderly (st : Attempts) (input : StoreCall × Reading) : Prop :=
  match input.1 with
  | .markRunning jobId attemptId owner =>
    ∀ r ∈ st.store.jobs, ownedBy jobId attemptId owner r = true → (jobId, attemptId) ∈ st.unstarted
  | .recoverExpiredLeases excludeJobIds => ∀ a ∈ st.unstarted, a.1 ∈ excludeJobIds
  | _ => True

/-- The job of an attempt that has not started is still held. -/
def StillHeld (unstarted : List (Uuid × Uuid)) (s : Store) : Prop :=
  ∀ a ∈ unstarted, a.1 < s.drawn ∧ ∀ r ∈ s.jobs, r.id = a.1 → r.phase.held = true ∧ r.attemptId = some a.2

/-- The call is none that ends the attempt, or starts it. -/
def Leaves (a : Uuid × Uuid) : StoreCall → Prop
  | .markRunning jobId attemptId _ | .finish jobId attemptId _ _ => (jobId, attemptId) ≠ a
  | .recoverExpiredLeases excludeJobIds => a.1 ∈ excludeJobIds
  | .recoverInterrupted => False
  | _ => True

theorem StillHeld.change {call : StoreCall} {clock : Reading} {unstarted : List (Uuid × Uuid)} (hh : StillHeld unstarted s)
    (hcall : ∀ a ∈ unstarted, Leaves a call) (h : Change cfg call clock s s') : StillHeld unstarted s' := by
  intro a ha
  obtain ⟨hdrawn, hrows⟩ := hh a ha
  have hleaves := hcall a ha
  refine ⟨hdrawn.trans_le h.drawn_le, fun r' hr' hid => ?_⟩
  rcases h.row_from hr' with hr' | ⟨r, hr, _, _, hstep, -⟩ | ⟨_, _, _, -, -, rfl, -⟩
  · exact hrows r' hr' hid
  · obtain ⟨hheld, hattempt⟩ := hrows r hr (hstep.key.1.symm.trans hid)
    have hqueued : r.phase ≠ .queued := fun hq => by simp [hq, JobPhase.held] at hheld
    cases hstep with
    | assigned _ _ hphase | cancelled _ _ hphase => exact absurd hphase hqueued
    | running attemptId owner howned =>
      refine absurd ?_ hleaves
      rw [Prod.ext_iff]
      exact ⟨hid, Option.some.inj ((ownedBy_iff.1 howned).2.1.symm.trans hattempt)⟩
    | finished attemptId owner report howned =>
      refine absurd ?_ hleaves
      rw [Prod.ext_iff]
      exact ⟨hid, Option.some.inj ((ownedBy_iff.1 howned).2.1.symm.trans hattempt)⟩
    | renewed => exact ⟨hheld, hattempt⟩
    | cancelRequested => exact ⟨by simpa [cancelRequestedRow, hqueued] using hheld, hattempt⟩
    | interrupted => exact hleaves.elim
    | leaseExpired excludeJobIds _ hexcluded => exact absurd (hid ▸ hleaves) hexcluded
  · exact absurd hid hdrawn.ne'

/-- One transaction, for attempts that it leaves as they are. -/
theorem StillHeld.step {input : StoreCall × Reading} {unstarted : List (Uuid × Uuid)} (hs : WellFormed s)
    (hh : StillHeld unstarted s) (hcall : ∀ a ∈ unstarted, Leaves a input.1) :
    StillHeld unstarted (Store.step cfg s input) :=
  step_induct input hs hh fun _ _ _ hh h => hh.change hcall h

/-- Every call the service makes in order keeps the jobs of unstarted attempts held. -/
theorem stillHeld_attemptStep {st : Attempts} {input : StoreCall × Reading} (hs : WellFormed st.store)
    (hh : StillHeld st.unstarted st.store) (ho : Orderly st input) :
    StillHeld (attemptStep cfg st input).unstarted (attemptStep cfg st input).store := by
  obtain ⟨call, clock⟩ := input
  have hfiltered : ∀ {p : Uuid × Uuid}, StillHeld (st.unstarted.filter fun a => a ≠ p) st.store := by
    intro p a ha
    exact hh a (List.mem_of_mem_filter ha)
  cases call with
  | claimNext owner leaseSeconds =>
    have hkept : StillHeld st.unstarted (Store.step cfg st.store (.claimNext owner leaseSeconds, clock)) :=
      hh.step hs fun _ _ => trivial
    have hstep : Store.step cfg st.store (.claimNext owner leaseSeconds, clock) =
        (claimNext cfg clock owner leaseSeconds st.store).2 := rfl
    have hafter : unstartedAfter cfg st (.claimNext owner leaseSeconds, clock) =
        match (claimNext cfg clock owner leaseSeconds st.store).1 with
        | .ok (some job) => (job.attemptId.map fun attemptId => (job.id, attemptId)).toList ++ st.unstarted
        | _ => st.unstarted := rfl
    change StillHeld (unstartedAfter cfg st (.claimNext owner leaseSeconds, clock)) _
    rw [hafter]
    rcases claimNext_cases cfg clock hs owner leaseSeconds with ⟨e, h⟩ | h |
      ⟨row, hrow, job, s', -, h, hjob, hjobs, hdrawn, -⟩
    · rw [h]
      exact hkept
    · rw [h]
      exact hkept
    · rw [hstep, h] at hkept
      have hjobId : job.id = row.id := (congrArg JobRow.id hjob).trans rfl
      have hattempt : job.attemptId = some st.store.drawn := (congrArg JobRow.attemptId hjob).trans rfl
      simp only [h, hattempt, Option.map_some, Option.toList_some, List.singleton_append]
      change StillHeld _ (Store.step cfg st.store (.claimNext owner leaseSeconds, clock))
      rw [hstep, h]
      intro a ha
      rcases List.mem_cons.1 ha with rfl | ha
      · refine ⟨?_, fun r hr hid => ?_⟩
        · rw [hdrawn, hjobId]
          exact (hs.jobDrawn row hrow).trans (Nat.lt_succ_self _)
        · rw [hjobs, mem_replaceJob] at hr
          rcases hr with ⟨-, hne⟩ | ⟨rfl, -⟩
          · exact absurd (hid.trans hjobId) hne
          · exact ⟨rfl, rfl⟩
      · exact hkept a ha
  | markRunning jobId attemptId owner =>
    refine hfiltered.step hs fun a ha => ?_
    have hne := (List.mem_filter.1 ha).2
    exact Ne.symm (by simpa using hne)
  | finish jobId attemptId owner report =>
    refine hfiltered.step hs fun a ha => ?_
    have hne := (List.mem_filter.1 ha).2
    exact Ne.symm (by simpa using hne)
  | recoverInterrupted | reopen => exact fun a ha => absurd ha (List.not_mem_nil)
  | recoverExpiredLeases excludeJobIds => exact hh.step hs ho
  | submit | renewLease | requestCancel | claimOutboxDue | outboxDelivered | outboxFailed | prune | clearManifest =>
    exact hh.step hs fun _ _ => trivial

/-- A call in order takes no terminal job back to `running`. -/
theorem spares_of_stillHeld {st : Attempts} {input : StoreCall × Reading} (hh : StillHeld st.unstarted st.store)
    (ho : Orderly st input) : SparesAnnounced st.store input := by
  obtain ⟨call, clock⟩ := input
  rintro jobId attemptId owner ⟨⟩ r hr howned hterminal
  have hheld := ((hh _ (ho r hr howned)).2 r hr (ownedBy_iff.1 howned).1).1
  rw [JobPhase.terminal_of_held hheld] at hterminal
  cases hterminal

/-- A run in which each attempt calls `mark_running` at most once, before it ends, and no attempt is recovered from under the process
takes no terminal job back to `running`. -/
theorem spares_of_orderly {st : Attempts} {is : List (StoreCall × Reading)} (hs : WellFormed st.store)
    (hh : StillHeld st.unstarted st.store) (ho : Machine.Guarded (attemptStep cfg) Orderly st is) :
    Machine.Guarded (step cfg) SparesAnnounced st.store is := by
  induction is generalizing st with
  | nil => trivial
  | cons input is ih =>
    exact ⟨spares_of_stillHeld hh ho.1, ih (hs.step input) (stillHeld_attemptStep hs hh ho.1) ho.2⟩

/-! ## Pruning -/

/-- A pruning leaves a notification that is still to be delivered. -/
theorem Change.prune_undelivered {hasCleaner : Bool} (cutoff : Instant) {clock : Reading}
    (h : Change cfg (.prune hasCleaner cutoff) clock s s') {o : OutboxRow} (ho : o ∈ s.outbox)
    (hstate : o.state.undelivered = true) : o ∈ s'.outbox := by
  cases h with
  | accepted _ _ _ hcall => cases hcall
  | moved _ _ _ _ _ hstep => cases hstep
  | released f hstep houtbox =>
    rcases hstep o ho with hsame | hreleased
    · rw [houtbox, ← hsame]
      exact List.mem_map_of_mem ho
    · cases hreleased
  | delivery _ _ _ hstep => cases hstep
  | pruned _ _ row hcall hrow hprunable houtput hjobs houtbox =>
    rw [houtbox, Table.mem_delete]
    refine ⟨ho, ?_⟩
    unfold prunable at hprunable
    simp only [Bool.and_eq_true, Bool.not_eq_true', List.any_eq_false] at hprunable
    by_contra hjob
    exact hprunable.2 o ho (by simpa [hstate] using hjob)
  | cleared _ hcall => cases hcall
  | restarted hcall => cases hcall

/-- A notification that is still to be delivered stays, and so does its job. -/
theorem undelivered_kept (hs : WellFormed s) {o : OutboxRow} (ho : o ∈ s.outbox) (hstate : o.state.undelivered = true)
    {input : StoreCall × Reading} (hkept : ¬(input.1 = .reopen ∧ cfg.volatile = true)) :
    (∃ r ∈ (step cfg s input).jobs, r.id = o.jobId) ∧ ∃ o' ∈ (step cfg s input).outbox, o'.eventId = o.eventId := by
  have hnote : ∃ o' ∈ (step cfg s input).outbox, SameNote o o' := by
    by_cases hprune : ∃ hasCleaner cutoff, input.1 = .prune hasCleaner cutoff
    · obtain ⟨hasCleaner, cutoff, hcall⟩ := hprune
      have hmem : o ∈ (step cfg s input).outbox :=
        step_induct (P := fun s' => o ∈ s'.outbox) input hs ho fun _ _ _ ho h =>
          Change.prune_undelivered cutoff (hcall ▸ h) ho hstate
      exact ⟨o, hmem, rfl, rfl, rfl, rfl⟩
    · have hdeletes : ¬Deletes cfg input.1 := by
        rintro (h | h)
        · exact hprune h
        · exact hkept h
      refine step_induct (P := fun s' => ∃ o' ∈ s'.outbox, SameNote o o') input hs ⟨o, ho, rfl, rfl, rfl, rfl⟩ ?_
      rintro s₁ s₂ hs₁ ⟨o₁, ho₁, h1, h2, h3, h4⟩ hchange
      rcases hchange.outbox_row hs₁ ho₁ with hmem | ⟨o₂, hmem, hr⟩ | ⟨o₂, hmem, hstep⟩ | hdel
      · exact ⟨o₁, hmem, h1, h2, h3, h4⟩
      · obtain ⟨g1, g2, g3, g4⟩ := hr.sameNote
        exact ⟨o₂, hmem, g1.trans h1, g2.trans h2, g3.trans h3, g4.trans h4⟩
      · obtain ⟨g1, g2, g3, g4⟩ := hstep.sameNote
        exact ⟨o₂, hmem, g1.trans h1, g2.trans h2, g3.trans h3, g4.trans h4⟩
      · exact absurd hdel hdeletes
  obtain ⟨o', ho', hsame⟩ := hnote
  obtain ⟨r, hr, hid⟩ := (hs.step input).outboxJob o' ho'
  exact ⟨⟨r, hr, hid.trans hsame.jobId⟩, o', ho', hsame.eventId⟩

/-- A call that spares the jobs that were announced keeps every job announced. -/
theorem Announced.step {input : StoreCall × Reading} (hs : WellFormed s) (hholds : Readable s) (ha : Announced s)
    (hspares : SparesAnnounced s input) : Announced (Store.step cfg s input) := by
  obtain ⟨call, clock⟩ := input
  by_cases hrunning : ∃ jobId attemptId owner, call = .markRunning jobId attemptId owner
  · obtain ⟨jobId, attemptId, owner, rfl⟩ := hrunning
    rcases markRunning_change cfg hs with hsame | hchange
    · change Announced (markRunning cfg clock jobId attemptId owner s).2
      rw [hsame]
      exact ha
    · exact ha.change hs hholds hspares hchange
  · have hboth : Readable (Store.step cfg s (call, clock)) ∧ Announced (Store.step cfg s (call, clock)) := by
      refine step_induct (P := fun s => Readable s ∧ Announced s) (call, clock) hs ⟨hholds, ha⟩ ?_
      rintro s₁ s₂ hs₁ ⟨hholds₁, ha₁⟩ hchange
      refine ⟨hholds₁.change hchange, ha₁.change hs₁ hholds₁ ?_ hchange⟩
      exact fun jobId attemptId owner hcall => absurd ⟨jobId, attemptId, owner, hcall⟩ hrunning
    exact hboth.2

/-! ## Runs -/

/-- A `mark_running` that takes a job back to `running` leaves its notification, so the job was not announced. -/
theorem spares_of_announced {input : StoreCall × Reading} (hs : WellFormed s) (hholds : Readable s) (ha : Announced s)
    (hmoves : step cfg s input ≠ s) (hafter : Announced (step cfg s input)) : SparesAnnounced s input := by
  obtain ⟨call, clock⟩ := input
  rintro jobId attemptId owner ⟨⟩ r hr howned hterminal spec hspec
  rcases markRunning_cases cfg hs jobId attemptId owner with hsame | ⟨row, hrow, s', hstep, howned', hjobs, houtbox, hchange⟩
  · exact absurd hsame hmoves
  · change Announced (markRunning cfg clock jobId attemptId owner s).2 at hafter
    rw [hstep] at hafter
    obtain ⟨rfl, -⟩ := ownedBy_iff.1 howned
    obtain rfl : row = r := Table.eq_of_key JobRow.id hs.jobIds hrow hr (ownedBy_iff.1 howned').1
    have hmoved : runningRow clock.now (row.revision + 1) row ∈ s'.jobs := by
      rw [hjobs, mem_replaceJob]
      exact Or.inr ⟨rfl, row, hr, rfl⟩
    obtain ⟨spec', hspec'⟩ := hholds.change hchange _ hmoved
    have hgone : notesOf row.id s.outbox = [] := by
      rw [← houtbox]
      exact (hafter _ hmoved _ hspec'.reads).none_of_live rfl
    have hannounced := ha row hr spec hspec
    unfold AnnouncedAs at hannounced
    rw [hterminal] at hannounced
    cases hendpoint : endpointOf spec with
    | none => rfl
    | some endpoint =>
      rw [hendpoint] at hannounced
      obtain ⟨o, hone, -⟩ := hannounced
      rw [hgone] at hone
      cases hone

theorem announced_create (cfg : StoreConfig) : Announced (create cfg 0) := by
  intro r hr
  rw [(create_tables cfg 0).1] at hr
  cases hr

/-- A terminal result and its notification are committed together, once. After every run without a `mark_running` of a job that is
terminal and names an endpoint: a job whose specification names an endpoint has one notification if it is terminal, which says what its
row says, and none before; a job that names none has none. And no call, a pruning included, removes a notification that is still to be
delivered, or its job (a store in memory that is closed apart). Conversely, a call that is not refused keeps the jobs announced only if
it is no such `mark_running`. -/
theorem announced_once (cfg : StoreConfig) (is : List (StoreCall × Reading)) :
    (Machine.Guarded (step cfg) SparesAnnounced (create cfg 0) is →
      (∀ r ∈ (Machine.run (step cfg) (create cfg 0) is).jobs, ∃ spec, r.spec = .ok spec ∧
        AnnouncedAs r spec (Machine.run (step cfg) (create cfg 0) is).outbox) ∧
      ∀ o ∈ (Machine.run (step cfg) (create cfg 0) is).outbox, o.state.undelivered = true →
        ∀ input : StoreCall × Reading, ¬(input.1 = .reopen ∧ cfg.volatile = true) →
          (∃ r ∈ (step cfg (Machine.run (step cfg) (create cfg 0) is) input).jobs, r.id = o.jobId) ∧
            ∃ o' ∈ (step cfg (Machine.run (step cfg) (create cfg 0) is) input).outbox, o'.eventId = o.eventId) ∧
    ∀ input : StoreCall × Reading, Announced (Machine.run (step cfg) (create cfg 0) is) →
      step cfg (Machine.run (step cfg) (create cfg 0) is) input ≠ Machine.run (step cfg) (create cfg 0) is →
        (Announced (step cfg (Machine.run (step cfg) (create cfg 0) is) input) ↔
          SparesAnnounced (Machine.run (step cfg) (create cfg 0) is) input) := by
  have hreachable : Reachable cfg (Machine.run (step cfg) (create cfg 0) is) := Machine.Reachable.run _ (.init _ _) is
  refine ⟨fun hg => ?_, fun input ha hmoves => ⟨spares_of_announced hreachable.wellFormed hreachable.holds ha hmoves,
    ha.step hreachable.wellFormed hreachable.holds⟩⟩
  have hrun : Reachable cfg (Machine.run (step cfg) (create cfg 0) is) ∧ Announced (Machine.run (step cfg) (create cfg 0) is) :=
    Machine.run_induct_of_guarded (P := fun s => Reachable cfg s ∧ Announced s)
      (fun _ input h hspares => ⟨h.1.next input, h.2.step h.1.wellFormed h.1.holds hspares⟩) hg ⟨.init _ _, announced_create cfg⟩
  refine ⟨fun r hr => ?_, fun o ho hstate input hkept => undelivered_kept hreachable.wellFormed ho hstate hkept⟩
  obtain ⟨spec, hspec⟩ := hreachable.holds r hr
  exact ⟨_, hspec.reads, hrun.2 r hr _ hspec.reads⟩

open Sample in
/-- The sample job, finished, has its one notification. -/
theorem announced_once_sample :
    ∃ r ∈ (Machine.run (step Sample.cfg) (create Sample.cfg 0) finishedRun).jobs,
      r.phase = .succeeded ∧ ∃ spec, r.spec = .ok spec ∧
        AnnouncedAs r spec (Machine.run (step Sample.cfg) (create Sample.cfg 0) finishedRun).outbox := by
  have hspares : Machine.Guarded (step Sample.cfg) SparesAnnounced (create Sample.cfg 0) finishedRun := by
    refine ⟨nofun, nofun, ?_, nofun, trivial⟩
    rintro jobId attemptId owner ⟨⟩ r hr - hterminal
    have hlive : ∀ r ∈ (step Sample.cfg (step Sample.cfg (create Sample.cfg 0) (.submit "tenant" "key" spec, clockAt 1))
        (.claimNext "worker" 30, clockAt 2)).jobs, r.phase.terminal = false := by decide +kernel
    rw [hlive r hr] at hterminal
    cases hterminal
  obtain ⟨r, hr, hphase⟩ := finished_then_reopened.1
  exact ⟨r, hr, hphase, ((announced_once Sample.cfg finishedRun).1 hspares).1 r hr⟩

end Store

namespace Sample

/-- The service is started again while an attempt is in flight, which then calls `mark_running` for the first time. -/
def recoveredRun : List (StoreCall × Reading) :=
  [(.submit "tenant" "key" spec, clockAt 1), (.claimNext "worker" 30, clockAt 2), (.recoverInterrupted, clockAt 3),
    (.markRunning 1 2 "worker", clockAt 4)]

end Sample

namespace Store

/-- Each attempt calls `mark_running` at most once, and before its finish. -/
def MarksOnce (is : List (StoreCall × Reading)) : Prop :=
  is.Pairwise fun before after =>
    ∀ jobId attemptId owner, after.1 = .markRunning jobId attemptId owner →
      (∀ other, before.1 ≠ .markRunning jobId attemptId other) ∧
        ∀ other report, before.1 ≠ .finish jobId attemptId other report

open Sample in
/-- The recovery ended the attempt and announced the job; its first `mark_running` leaves a running job with a notification, though no
lease is recovered at all. -/
theorem recovered_attempt_reopens :
    ¬∀ is : List (StoreCall × Reading), MarksOnce is →
      (∀ input ∈ is, ∀ excludeJobIds, input.1 ≠ .recoverExpiredLeases excludeJobIds) →
        Announced (Machine.run (step Sample.cfg) (create Sample.cfg 0) is) := by
  intro h
  have hmarks : MarksOnce recoveredRun := by
    simp [MarksOnce, recoveredRun]
  have hannounced := h recoveredRun hmarks (by simp [recoveredRun])
  have hreopened : ∃ r ∈ (Machine.run (step Sample.cfg) (create Sample.cfg 0) recoveredRun).jobs, r.phase = .running ∧
      notesOf r.id (Machine.run (step Sample.cfg) (create Sample.cfg 0) recoveredRun).outbox ≠ [] := by decide +kernel
  obtain ⟨r, hr, hphase, hnote⟩ := hreopened
  have hreachable : Reachable Sample.cfg (Machine.run (step Sample.cfg) (create Sample.cfg 0) recoveredRun) := ⟨recoveredRun, rfl⟩
  obtain ⟨spec, hspec⟩ := hreachable.holds r hr
  exact hnote ((hannounced r hr _ hspec.reads).none_of_live (by rw [hphase]; rfl))

end Store

end SharkRail
