import Mathlib
import SharkRail.Theorems.NotificationHealth

/-!
# The attempts of a callback

A record in the hands of a notification worker says how many attempts of its event have failed, and as long as its claim stands the row
says the same (`Knows`). So each failure that is written counts one attempt more, and the workers give an event up when as many failures
are recorded as it has attempts. Nothing else ends a callback but what one of its deliveries met: an answer of success, an endpoint that
is another tenant's, or a failure for good.
-/

namespace SharkRail

namespace Store

open Fallible

variable {cfg : StoreConfig} {s s' : Store} {record : OutboxRecord} {maxAttempts : ℕ} {met met' : Uuid → Service.DeliveryOutcome → Prop}

/-! ## What a record knows -/

/-- The row that carries the token of a record has its attempts. -/
def Knows (record : OutboxRecord) (s : Store) : Prop :=
  ∃ t, record.deliveryAttemptId = some t ∧ t < s.drawn ∧ ∀ o ∈ s.outbox, o.deliveryAttemptId = some t → o.attempts = record.attempts

/-- A record knows its row after a statement that committed. -/
theorem Knows.change {call : StoreCall} {clock : Reading} (h : Knows record s) (hchange : Change cfg call clock s s') :
    Knows record s' := by
  obtain ⟨t, ht, hdrawn, hrows⟩ := h
  refine ⟨t, ht, hdrawn.trans_le hchange.drawn_le, fun o ho htoken => ?_⟩
  rcases hchange.token_from ho htoken with hold | ⟨hnew, -⟩
  · exact hrows o hold htoken
  · exact absurd hnew hdrawn.ne

/-- A record knows its row after a call of the store. -/
theorem Knows.step (hs : WellFormed s) (h : Knows record s) (input : StoreCall × Reading) : Knows record (Store.step cfg s input) :=
  step_induct input hs h fun _ _ _ h hchange => h.change hchange

/-- Rows that were claimed, with the tokens drawn for them: they have the attempts they had when they were read. -/
def Claims (claimed : List (OutboxRow × Uuid)) (s : Store) : Prop :=
  ∀ c ∈ claimed, c.2 < s.drawn ∧ ∀ o ∈ s.outbox, o.deliveryAttemptId = some c.2 → o.attempts = c.1.attempts

/-- A turn of the claim writes the row that it claims and returns what it wrote. -/
theorem claims_claimOutboxRow {clock : Reading} {lease : Instant} {row : OutboxRow} {rows : List OutboxRow}
    {claimed : List (OutboxRow × Uuid)} (hdue : Due clock (row :: rows) s) (h : Claims claimed s) :
    Claims (claimOutboxRow cfg clock.now lease (claimed, s) row).1 (claimOutboxRow cfg clock.now lease (claimed, s) row).2 := by
  obtain ⟨hrow, hstate, -⟩ := hdue.rows row List.mem_cons_self
  have hchange : Change cfg (.claimOutboxDue 0 lease) clock s (claimOutboxRow cfg clock.now lease (claimed, s) row).2 :=
    (claimOutboxRow_change cfg 0 hdue).2
  have hold : ∀ c ∈ claimed, c.2 < (claimOutboxRow cfg clock.now lease (claimed, s) row).2.drawn ∧
      ∀ o ∈ (claimOutboxRow cfg clock.now lease (claimed, s) row).2.outbox, o.deliveryAttemptId = some c.2 → o.attempts = c.1.attempts := by
    intro c hc
    refine ⟨(h c hc).1.trans_le hchange.drawn_le, fun o ho htoken => ?_⟩
    rcases hchange.token_from ho htoken with hmem | ⟨hnew, -⟩
    · exact (h c hc).2 o hmem htoken
    · exact absurd hnew (h c hc).1.ne
  have hcount : Table.rowcount (fun o : OutboxRow => o.eventId = row.eventId && o.state = .pending) s.outbox = 1 :=
    Table.rowcount_key hdue.wellFormed.eventIds hrow (fun o ho => by simp at ho; exact ho.1) (by simp [hstate])
  simp only [claimOutboxRow, draw, hcount, if_true] at hold ⊢
  intro c hc
  rcases List.mem_append.1 hc with hc | hc
  · exact hold c hc
  · rw [List.mem_singleton.1 hc]
    refine ⟨Nat.lt_succ_self _, fun o ho htoken => ?_⟩
    obtain ⟨o₁, ho₁, rfl⟩ := Table.mem_update.1 ho
    split at htoken
    · rename_i hclause
      simp only [Bool.and_eq_true, decide_eq_true_eq] at hclause
      rw [Table.eq_of_key OutboxRow.eventId hdue.wellFormed.eventIds ho₁ hrow hclause.1]
      simp [hstate]
    · exact absurd (hdue.wellFormed.tokenDrawn o₁ ho₁ _ htoken) (lt_irrefl _)

/-- The rows that a claim reads are due once the claims that ran out are taken back. -/
theorem due_select (hs : WellFormed s) (clock : Reading) (limit : ℤ) :
    Due clock ((Table.selectBy (·.nextAttemptAt)
      (fun o : OutboxRow => o.state = .pending && o.nextAttemptAt ≤ clock.now && s.jobs.any fun r => r.id = o.jobId) s.outbox).take
        limit.toNat)
      s := by
  refine ⟨hs, ?_, fun o ho => ?_⟩
  · exact (Table.nodup_map_selectBy hs.eventIds).sublist ((List.take_sublist _ _).map _)
  · obtain ⟨hmem, hdue⟩ := Table.mem_selectBy.1 (List.mem_of_mem_take ho)
    simp only [Bool.and_eq_true, decide_eq_true_eq] at hdue
    exact ⟨hmem, hdue.1.1, hdue.1.2⟩

/-- The records of a claim know the attempts of their rows. -/
theorem knows_of_claimOutboxDue {clock : Reading} {limit : ℤ} {lease : Instant} {records : List OutboxRecord} (hs : WellFormed s)
    (h : claimOutboxDue cfg clock limit lease s = (.ok records, s')) : ∀ record ∈ records, Knows record s' := by
  unfold claimOutboxDue at h
  split at h
  · cases h
    exact fun record hrecord => absurd hrecord List.not_mem_nil
  rcases transaction_cases cfg _ s with ⟨e, hraised⟩ | ⟨a, s₁, hbody, hdone⟩
  · rw [hraised] at h
    cases h
  · rw [hdone] at h
    cases h
    rw [pure_eq_ok, Prod.mk.injEq] at hbody
    obtain ⟨hrecords, hstore⟩ := hbody
    have hreleased : WellFormed (s.updateOutbox cfg (fun o => o.state = .delivering && o.nextAttemptAt ≤ clock.now) fun o =>
        { o with state := .pending, deliveryAttemptId := none }) := by
      have hrelease : Change cfg (.claimOutboxDue limit lease) clock s (s.updateOutbox cfg
          (fun o => o.state = .delivering && o.nextAttemptAt ≤ clock.now) fun o =>
            { o with state := .pending, deliveryAttemptId := none }) := by
        refine .released _ (fun o _ => ?_) rfl rfl rfl rfl rfl rfl
        by_cases hstate : o.state = .delivering ∧ o.nextAttemptAt ≤ clock.now
        · exact Or.inr (by simpa [hstate] using Released.expired limit lease hstate.1 hstate.2)
        · exact Or.inl (by simp [hstate])
      exact hs.change hrelease
    have hclaims := (foldl_rel (P := fun rows st => Due clock rows st.2 ∧ Claims st.1 st.2) (R := fun _ _ => True)
      (f := claimOutboxRow cfg clock.now lease) (s := ([], _))
      (fun row rows st hst => ⟨⟨(claimOutboxRow_change cfg limit hst.1).1, claims_claimOutboxRow hst.1 hst.2⟩, .single trivial⟩)
      ⟨due_select hreleased clock limit, fun c hc => absurd hc List.not_mem_nil⟩).1.2
    intro record hrecord
    rw [← hrecords] at hrecord
    obtain ⟨c, hc, rfl⟩ := List.mem_map.1 hrecord
    rw [← hstore]
    exact ⟨c.2, rfl, (hclaims c hc).1, (hclaims c hc).2⟩

/-! ## Rows that are settled for a reason -/

/-- A row within its attempts, and what was `met` if it is no longer to be delivered. -/
structure Justified (maxAttempts : ℕ) (met : Uuid → Service.DeliveryOutcome → Prop) (o : OutboxRow) : Prop where
  attempts_le : o.attempts ≤ maxAttempts
  undelivered : o.state.undelivered = true → o.attempts < maxAttempts
  delivered : o.state = .delivered → met o.eventId .delivered
  dead : o.state = .dead → o.attempts = maxAttempts ∨ met o.eventId .refused ∨ met o.eventId (.retry true)

/-- More outcomes that were met justify no less. -/
theorem Justified.mono {o : OutboxRow} (h : Justified maxAttempts met o) (hmet : ∀ e outcome, met e outcome → met' e outcome) :
    Justified maxAttempts met' o where
  attempts_le := h.attempts_le
  undelivered := h.undelivered
  delivered hstate := hmet _ _ (h.delivered hstate)
  dead hstate := (h.dead hstate).imp_right fun hmetDead => hmetDead.imp (hmet _ _) (hmet _ _)

/-- A row that is to be delivered needs no reason. -/
theorem justified_of_lt {o : OutboxRow} (hstate : o.state.undelivered = true) (hattempts : o.attempts < maxAttempts) :
    Justified maxAttempts met o where
  attempts_le := hattempts.le
  undelivered _ := hattempts
  delivered hdelivered := by simp [hdelivered, OutboxState.undelivered] at hstate
  dead hdead := by simp [hdead, OutboxState.undelivered] at hstate

/-- A transaction that settles no claim counts no attempt and settles no row. -/
theorem justified_change {call : StoreCall} {clock : Reading} (hmax : 0 < maxAttempts) (hcall : settledEvent call = none)
    (hrows : ∀ o ∈ s.outbox, Justified maxAttempts met o) (h : Change cfg call clock s s') :
    ∀ o ∈ s'.outbox, Justified maxAttempts met o := by
  intro o' ho'
  rcases h.outbox_from ho' with hold | ⟨o, ho, hr⟩ | ⟨o, ho, hstep, -⟩ | ⟨-, hstate, -, hattempts⟩
  · exact hrows o' hold
  · cases hr with
    | interrupted hstate | expired _ _ hstate =>
      exact justified_of_lt rfl ((hrows o ho).undelivered (by rw [hstate]; rfl))
  · cases hstep with
    | claimed limit lease hstate hdue => exact justified_of_lt rfl ((hrows o ho).undelivered (by rw [hstate]; rfl))
    | delivered | failed => cases hcall
  · exact justified_of_lt (by rw [hstate]; rfl) (by rw [hattempts]; exact hmax)

/-- A call that settles no claim leaves the rows justified. -/
theorem justified_step {call : StoreCall} {clock : Reading} (hs : WellFormed s) (hmax : 0 < maxAttempts) (hcall : settledEvent call = none)
    (hrows : ∀ o ∈ s.outbox, Justified maxAttempts met o) : ∀ o ∈ (step cfg s (call, clock)).outbox, Justified maxAttempts met o :=
  step_induct (P := fun s => ∀ o ∈ s.outbox, Justified maxAttempts met o) (call, clock) hs hrows fun _ _ _ hrows hchange =>
    justified_change hmax hcall hrows hchange

/-- A settlement writes the row that it finds. -/
theorem justified_settleClaim {eventId : Uuid} {token : Option Uuid} {f : OutboxRow → OutboxRow} (hs : WellFormed s)
    (hrows : ∀ o ∈ s.outbox, Justified maxAttempts met o)
    (hf : ∀ o ∈ s.outbox, claimedBy eventId token o = true → Justified maxAttempts met (f o)) :
    ∀ o ∈ (settleClaim cfg eventId token f s).2.outbox, Justified maxAttempts met o := by
  rcases settleClaim_cases cfg hs eventId token f with ⟨-, h⟩ | ⟨o, -, -, h | ⟨e, h⟩⟩
  · rw [h]
    exact hrows
  · rw [h]
    intro o' ho'
    obtain ⟨o₁, ho₁, rfl⟩ := Table.mem_update.1 ho'
    split
    · rename_i hclaimed
      exact hf o₁ ho₁ hclaimed
    · exact hrows o₁ ho₁
  · rw [h]
    exact hrows

/-- A delivery that was reported leaves the rows justified, where it was met. -/
theorem justified_outboxDelivered {clock : Reading} {eventId : Uuid} {token : Option Uuid} (hs : WellFormed s)
    (hrows : ∀ o ∈ s.outbox, Justified maxAttempts met o) (hmet : met eventId .delivered) :
    ∀ o ∈ (outboxDelivered cfg clock eventId token s).2.outbox, Justified maxAttempts met o := by
  refine justified_settleClaim hs hrows fun o ho hclaimed => ?_
  obtain ⟨rfl, -⟩ := claimedBy_iff.1 hclaimed
  exact ⟨(hrows o ho).attempts_le, fun h => absurd h Bool.false_ne_true, fun _ => hmet, fun h => absurd h (by simp [deliveredRow])⟩

/-- A failure counts an attempt: the row of a claim has not used its attempts up. -/
theorem justified_outboxFailed {eventId : Uuid} {token : Option Uuid} {error : String} {next : Instant} {permanent : Bool}
    (hs : WellFormed s) (hrows : ∀ o ∈ s.outbox, Justified maxAttempts met o)
    (hdead : permanent = true → ∀ o ∈ s.outbox, claimedBy eventId token o = true → o.attempts + 1 = maxAttempts ∨ met eventId .refused ∨
      met eventId (.retry true))
    (hagain : permanent = false → ∀ o ∈ s.outbox, claimedBy eventId token o = true → o.attempts + 1 < maxAttempts) :
    ∀ o ∈ (outboxFailed cfg eventId token error next permanent s).2.outbox, Justified maxAttempts met o := by
  refine justified_settleClaim hs hrows fun o ho hclaimed => ?_
  have hstate := (claimedBy_iff.1 hclaimed).2.1
  have hid := (claimedBy_iff.1 hclaimed).1
  have hlt : o.attempts < maxAttempts := (hrows o ho).undelivered (by rw [hstate]; rfl)
  cases permanent with
  | false => exact justified_of_lt rfl (hagain rfl o ho hclaimed)
  | true =>
    refine ⟨hlt, fun h => absurd h Bool.false_ne_true, fun h => absurd h (by simp [failedRow]), fun _ => ?_⟩
    have hreason := hdead rfl o ho hclaimed
    rw [← hid] at hreason
    exact hreason

end Store

namespace Service

open Store

variable {cfg : StoreConfig} {settings : NotificationSettings} {met met' : Uuid → DeliveryOutcome → Prop}

/-- What a delivery must have met to be in its phase, where it is about to settle its claim for good. -/
def DeliveryPhase.grounds : DeliveryPhase → Option DeliveryOutcome
  | .persisting => some .delivered
  | .refusing => some .refused
  | .retrying true => some (.retry true)
  | _ => none

/-- The outcomes that end the phase of a delivery. -/
def DeliveryPhase.takes : DeliveryPhase → DeliveryOutcome → Bool
  | .delivering, .refused => true
  | .posting, _ => true
  | _, _ => false

namespace Notifications

variable {s s' : Notifications} {k : ℕ}

/-! ## What an action does to the claims -/

/-- A record knows its row after the store moved. -/
theorem StoreMoves.knows {touched : Option Uuid} {store store' : Store} {record : OutboxRecord}
    (h : StoreMoves cfg touched store store') (hs : WellFormed store) (hknows : Knows record store) : Knows record store' := by
  rcases h with rfl | ⟨call, clock, rfl, -⟩
  · exact hknows
  · exact hknows.step hs (call, clock)

/-- How an action moves the store: no claim is settled, or one by a delivery that has grounds for it, or a failed attempt is counted. -/
inductive Settles (cfg : StoreConfig) (settings : NotificationSettings) (s : Notifications) : Store → Prop where
  | none {store' : Store} (h : StoreMoves cfg none s.store store') : Settles cfg settings s store'
  | delivered (d : Delivery) (hd : d ∈ s.deliveries) (hphase : d.phase = .persisting) (clock : Reading) (fault : CallFault) :
      Settles cfg settings s (settlement fault (outboxDelivered cfg clock d.record.eventId d.record.deliveryAttemptId) s.store).2
  | refused (d : Delivery) (hd : d ∈ s.deliveries) (hphase : d.phase = .refusing) (error : String) (next : Instant) (fault : CallFault) :
      Settles cfg settings s (settlement fault (outboxFailed cfg d.record.eventId d.record.deliveryAttemptId error next true) s.store).2
  | retried (record : OutboxRecord) (hheld : (∃ phase ∈ s.loops, record ∈ phase.records) ∨ ∃ d ∈ s.deliveries, d.record = record)
      (permanent : Bool) (hpermanent : permanent = true → ∃ d ∈ s.deliveries, d.record = record ∧ d.phase = .retrying true)
      (error : String) (clock : Reading) (fault : CallFault) :
      Settles cfg settings s (retryDelivery cfg settings record error permanent clock fault s.store).2

/-- An action moves the store. -/
theorem Settles.moves {store' : Store} (h : Settles cfg settings s store') : ∃ touched, StoreMoves cfg touched s.store store' := by
  cases h with
  | none h => exact ⟨_, h⟩
  | delivered d hd hphase clock fault => exact ⟨_, moves_outboxDelivered _ _ _ _ _⟩
  | refused d hd hphase error next fault => exact ⟨_, moves_outboxFailed _ _ _ _ _ _ _⟩
  | retried record hheld permanent hpermanent error clock fault => exact ⟨_, moves_outboxFailed _ _ _ _ _ _ _⟩

/-- What an action does, as far as it matters to the attempts: to the store, to the records that loops hold, and to the deliveries that are
about to settle their claim. -/
structure Handles (cfg : StoreConfig) (settings : NotificationSettings) (s : Notifications) (input : NotificationInput)
    (s' : Notifications) : Prop where
  store : Settles cfg settings s s'.store
  loops : ∀ phase' ∈ s'.loops, ∀ record ∈ phase'.records, (∃ phase ∈ s.loops, record ∈ phase.records) ∨ Knows record s'.store
  deliveries : ∀ d' ∈ s'.deliveries, d' ∈ s.deliveries ∨ ∀ outcome ∈ d'.phase.grounds,
    ∃ k d, input = .delivery k (.outcome outcome) ∧ s.deliveries[k]? = some d ∧ d.record = d'.record ∧ d.phase.takes outcome = true

section Loops

variable {phase : LoopPhase} {event : LoopEvent}

/-- A loop that goes to another phase and holds no records but those it had or that know their rows. -/
theorem handles_setLoop {after : LoopPhase} (hk : s.loops[k]? = some phase) (hloops : s'.loops = s.loops.set k after)
    (hstore : Settles cfg settings s s'.store) (hrecords : ∀ record ∈ after.records, record ∈ phase.records ∨ Knows record s'.store)
    (hdeliveries : ∀ d ∈ s'.deliveries, d ∈ s.deliveries ∨ d.phase = .queued) : Handles cfg settings s (.loop k event) s' where
  store := hstore
  loops := by
    intro phase' hphase' record hrecord
    rw [hloops] at hphase'
    rcases List.mem_or_eq_of_mem_set hphase' with hold | rfl
    · exact .inl ⟨phase', hold, hrecord⟩
    · exact (hrecords record hrecord).imp_left fun hmem => ⟨phase, List.mem_of_getElem? hk, hmem⟩
  deliveries := by
    intro d hd
    refine (hdeliveries d hd).imp_right fun hqueued outcome houtcome => ?_
    rw [hqueued] at houtcome
    cases houtcome

/-- A loop that only goes to another phase. -/
theorem handles_goes {after : LoopPhase} (hk : s.loops[k]? = some phase) (hloops : s'.loops = s.loops.set k after)
    (hstore : s'.store = s.store) (hdeliveries : s'.deliveries = s.deliveries)
      (hrecords : ∀ record ∈ after.records, record ∈ phase.records) :
    Handles cfg settings s (.loop k event) s' :=
  handles_setLoop hk hloops (.none (.inl hstore)) (fun record hrecord => .inl (hrecords record hrecord))
    (by simp +contextual [hdeliveries])

/-- A loop that gives back its slot holds no new record. -/
theorem handles_release {slot : ℕ} {after otherwise : LoopPhase} (hk : s.loops[k]? = some phase)
    (hafter : ∀ record ∈ after.records, record ∈ phase.records) (hotherwise : otherwise.records = []) :
    Handles cfg settings s (.loop k event) (s.release slot (setLoop k after) (setLoop k otherwise)) := by
  unfold Notifications.release
  split
  · exact handles_goes hk rfl rfl rfl hafter
  · exact handles_goes hk rfl rfl rfl (by simp [hotherwise])

/-- A claim gives records that know their rows. -/
theorem handles_claiming {slots : List ℕ} (hs : WellFormed s.store) (hk : s.loops[k]? = some (.claiming slots)) :
    Handles cfg settings s (.loop k event) (s.loopStep cfg settings k event (.claiming slots)) := by
  refine handles_setLoop hk rfl (.none (moves_claim slots event s.store)) ?_
    fun d hd => .inl hd
  intro record hrecord
  refine .inr ?_
  change Knows record (claim cfg settings slots event s.store).2
  unfold claim at hrecord ⊢
  cases hfault : event.fault with
  | before | after =>
    rw [hfault] at hrecord
    cases hrecord
  | none =>
    rw [hfault] at hrecord
    dsimp only at hrecord ⊢
    cases hcall : claimOutboxDue cfg event.clock slots.length settings.lease s.store with
    | mk result store' =>
      rw [hcall] at hrecord
      cases result with
      | error e => cases hrecord
      | ok records => exact knows_of_claimOutboxDue hs hcall record hrecord

/-- A step of a loop holds no record but those that it claimed. -/
theorem handles_loopStep (hs : WellFormed s.store) (hk : s.loops[k]? = some phase) :
    Handles cfg settings s (.loop k event) (s.loopStep cfg settings k event phase) := by
  have hnone : ∀ {after : LoopPhase}, after.records = [] → ∀ record ∈ after.records, record ∈ phase.records := by
    intro after hafter
    simp [hafter]
  cases phase with
  | waiting => exact handles_goes hk rfl rfl rfl (hnone (by split <;> rfl))
  | acquiring slots =>
    unfold loopStep
    dsimp only
    split
    · exact handles_goes hk rfl rfl rfl (hnone (by split <;> rfl))
    · split
      · exact handles_goes hk rfl rfl rfl (hnone rfl)
      · exact handles_goes hk rfl rfl rfl (hnone (by split <;> rfl))
  | claiming slots => exact handles_claiming hs hk
  | aborting slots =>
    cases slots with
    | nil => exact handles_goes hk rfl rfl rfl (hnone rfl)
    | cons slot slots => exact handles_release hk (hnone rfl) rfl
  | claimFailed => exact handles_goes hk rfl rfl rfl (hnone rfl)
  | returning extra batch =>
    cases extra with
    | zero => exact handles_goes hk rfl rfl rfl fun record hrecord => hrecord
    | succ extra =>
      obtain ⟨slots, records, failed⟩ := batch
      cases slots <;> exact handles_release hk (fun record hrecord => hrecord) rfl
  | scheduling batch =>
    obtain ⟨slots, records, failed⟩ := batch
    cases records with
    | nil =>
      cases failed with
      | true => exact handles_goes hk rfl rfl rfl (hnone rfl)
      | false =>
        obtain ⟨lastSuccess, consecutiveErrors, heq⟩ := succeeded_none s event.monotonic
        unfold loopStep
        dsimp only
        rw [if_neg Bool.false_ne_true, heq]
        exact handles_goes hk rfl rfl rfl (hnone rfl)
    | cons record records =>
      unfold loopStep
      dsimp only
      split
      · refine handles_setLoop hk rfl (.none (.inl rfl)) (fun r hr => .inl (List.mem_cons_of_mem _ hr)) fun d hd => ?_
        rcases List.mem_append.1 hd with hd | hd
        · exact .inl hd
        · rw [List.mem_singleton.1 hd]
          exact .inr rfl
      · exact handles_goes hk rfl rfl rfl fun r hr => hr
  | rejected slot record batch => exact handles_release hk (fun r hr => hr) rfl
  | unscheduled record batch => exact handles_goes hk rfl rfl rfl fun r hr => hr
  | retrying record batch =>
    have hboth : ∀ result : Settlement, ∀ r ∈
      (if result = .persisted then LoopPhase.scheduling batch else .unpersisted record batch).records,
        r ∈ record :: batch.records := by
      intro result r hr
      split at hr
      · exact List.mem_cons_of_mem _ hr
      · exact hr
    exact handles_setLoop hk rfl (.retried record (.inl ⟨_, List.mem_of_getElem? hk, List.mem_cons_self⟩) false
      (fun h => absurd h Bool.false_ne_true) event.error event.clock event.fault) (fun r hr => .inl (hboth _ r hr)) fun d hd => .inl hd
  | unpersisted record batch => exact handles_goes hk rfl rfl rfl fun r hr => List.mem_cons_of_mem _ hr
  | ended =>
    obtain ⟨hlt, heq⟩ := List.getElem?_eq_some_iff.1 hk
    have hsame : s.loops.set k .ended = s.loops := by rw [← heq, List.set_getElem_self]
    exact handles_goes hk hsame.symm rfl rfl (hnone rfl)

end Loops

section Deliveries

variable {d : Delivery} {event : DeliveryEvent}

/-- A delivery that goes to another phase, which it has grounds for. -/
theorem handles_setDelivery {after : DeliveryPhase} (hk : s.deliveries[k]? = some d)
    (hdeliveries : s'.deliveries = s.deliveries.set k { d with phase := after }) (hloops : s'.loops = s.loops)
    (hstore : Settles cfg settings s s'.store)
    (hgrounds : ∀ outcome ∈ after.grounds, event = .outcome outcome ∧ d.phase.takes outcome = true) :
    Handles cfg settings s (.delivery k event) s' where
  store := hstore
  loops := by
    rw [hloops]
    exact fun phase hphase record hrecord => .inl ⟨phase, hphase, hrecord⟩
  deliveries := by
    intro d' hd'
    rw [hdeliveries] at hd'
    rcases List.mem_or_eq_of_mem_set hd' with hold | rfl
    · exact .inl hold
    · refine .inr fun outcome houtcome => ⟨k, d, ?_, hk, rfl, (hgrounds outcome houtcome).2⟩
      rw [(hgrounds outcome houtcome).1]

/-- An action that touches neither the loops nor a delivery changes at most the store. -/
theorem handles_idle {input : NotificationInput} (hdeliveries : ∀ d ∈ s'.deliveries, d ∈ s.deliveries) (hloops : s'.loops = s.loops)
    (hstore : Settles cfg settings s s'.store) : Handles cfg settings s input s' where
  store := hstore
  loops := by
    rw [hloops]
    exact fun phase hphase record hrecord => .inl ⟨phase, hphase, hrecord⟩
  deliveries := fun d hd => .inl (hdeliveries d hd)

/-- After a retry was written a delivery settles nothing. -/
theorem grounds_afterRetrying (result : Settlement) : (afterRetrying result).grounds = none := by
  cases result <;> rfl

/-- After a persisted delivery nothing is settled any more. -/
theorem grounds_afterPersisting (result : Settlement) : (afterPersisting result).grounds = none := by
  rcases result with _ | _ | _ <;> rfl

/-- After a failed report nothing is settled any more. -/
theorem grounds_afterFailing (result : Settlement) :
    (if result = .persisted then DeliveryPhase.succeeded else .unpersisted).grounds = none := by
  split <;> rfl

/-- What a delivery writes is what it has met. -/
theorem handles_deliveryCall (hk : s.deliveries[k]? = some d) {clock : Reading} {fault : CallFault} {error : String}
    {after : DeliveryPhase} {store : Store}
    (hcall : deliveryCall cfg settings d.record clock fault error s.store d.phase = some (after, store)) :
    Handles cfg settings s (.delivery k event) ({ s with store }.setDelivery k d after) := by
  have hmem := List.mem_of_getElem? hk
  have hnone : ∀ {phase : DeliveryPhase}, phase.grounds = none → ∀ outcome ∈ phase.grounds,
      event = .outcome outcome ∧ d.phase.takes outcome = true := by
    intro phase hphase
    simp [hphase]
  cases hphase : d.phase with
  | refusing =>
    rw [hphase] at hcall
    cases hcall
    exact handles_setDelivery hk rfl rfl (.refused d hmem hphase _ _ fault) (hnone (grounds_afterRetrying _))
  | persisting =>
    rw [hphase] at hcall
    cases hcall
    exact handles_setDelivery hk rfl rfl (.delivered d hmem hphase clock fault) (hnone (grounds_afterPersisting _))
  | retrying permanent =>
    rw [hphase] at hcall
    cases hcall
    refine handles_setDelivery hk rfl rfl (.retried d.record (.inr ⟨d, hmem, rfl⟩) permanent (fun hpermanent => ?_) error clock fault)
      (hnone (grounds_afterRetrying _))
    exact ⟨d, hmem, rfl, by rw [hphase, hpermanent]⟩
  | failing =>
    rw [hphase] at hcall
    cases hcall
    exact handles_setDelivery hk rfl rfl (.retried d.record (.inr ⟨d, hmem, rfl⟩) false (fun h => absurd h Bool.false_ne_true)
      error clock fault) (hnone (grounds_afterFailing _))
  | queued | delivering | starting | startFailed | resolving | posting | raised | unpersisted | succeeded | finishing =>
    rw [hphase] at hcall
    cases hcall

/-- A step of a delivery settles a claim where it met what it has to. -/
theorem handles_deliveryStep (hk : s.deliveries[k]? = some d) :
    Handles cfg settings s (.delivery k event) (s.deliveryStep cfg settings k d event) := by
  have hgoes : ∀ {after : DeliveryPhase} {s' : Notifications}, s'.store = s.store → s'.loops = s.loops →
      s'.deliveries = s.deliveries.set k { d with phase := after } →
      (∀ outcome ∈ after.grounds, event = .outcome outcome ∧ d.phase.takes outcome = true) →
      Handles cfg settings s (.delivery k event) s' := fun hstore hloops hdeliveries hgrounds =>
    handles_setDelivery hk hdeliveries hloops (.none (.inl hstore)) hgrounds
  have hstays : Handles cfg settings s (.delivery k event) s := handles_idle (fun d hd => hd) rfl (.none (.inl rfl))
  unfold deliveryStep
  split
  · exact hgoes rfl rfl rfl (by simp [DeliveryPhase.grounds])
  · rename_i hphase
    exact hgoes rfl rfl rfl (by simp [DeliveryPhase.grounds, hphase, DeliveryPhase.takes])
  · exact hgoes rfl rfl rfl (by simp [DeliveryPhase.grounds])
  · split <;> exact hgoes rfl rfl rfl (by simp [DeliveryPhase.grounds])
  · split <;> exact hgoes rfl rfl rfl (by simp [DeliveryPhase.grounds])
  · rename_i slot caught _ _
    unfold releaseResolution
    split
    · cases caught <;> exact hgoes rfl rfl rfl (by simp [DeliveryPhase.grounds])
    · exact hgoes rfl rfl rfl (by simp [DeliveryPhase.grounds])
  · split
    · exact hstays
    · exact hgoes rfl rfl rfl (by simp [DeliveryPhase.grounds])
  · exact hgoes rfl rfl rfl (by simp [DeliveryPhase.grounds])
  · split
    · exact hstays
    · exact hgoes rfl rfl rfl (by simp [DeliveryPhase.grounds])
  · -- the answer of the callback is what the delivery goes on with
    rename_i outcome hphase
    refine hgoes rfl rfl rfl ?_
    rcases outcome with _ | _ | (_ | _) | _ <;> simp [afterNetwork, DeliveryPhase.grounds, hphase, DeliveryPhase.takes]
  · split
    · rename_i hcall
      exact handles_deliveryCall hk hcall
    · exact hstays
  · exact hgoes rfl rfl rfl (by simp [DeliveryPhase.grounds])
  · exact hgoes rfl rfl rfl (by simp [DeliveryPhase.grounds])
  · obtain ⟨lastSuccess, consecutiveErrors, heq⟩ := succeeded_some s _ d.record.eventId
    rw [heq]
    exact hgoes rfl rfl rfl (by simp [DeliveryPhase.grounds])
  · unfold Notifications.release
    dsimp only
    split <;> exact handles_idle (fun d hd => List.mem_of_mem_eraseIdx hd) rfl (.none (.inl rfl))
  · exact hstays

end Deliveries

/-- Every action settles a claim for a reason or none. -/
theorem handles_step (hs : WellFormed s.store) (input : NotificationInput) : Handles cfg settings s input (step cfg settings s input) := by
  have hstays : Handles cfg settings s input s := handles_idle (fun d hd => hd) rfl (.none (.inl rfl))
  unfold Notifications.step
  cases input with
  | store call clock =>
    dsimp only
    split
    · rename_i hcall
      refine handles_idle (fun d hd => hd) rfl (.none (.inr ⟨call, clock, rfl, ?_, ?_⟩))
      · rintro rfl
        cases hcall
      · intro e he
        cases call <;> cases he <;> cases hcall
    · exact hstays
  | loop k event =>
    dsimp only
    split
    · rename_i hk
      exact handles_loopStep hs hk
    · exact hstays
  | delivery k event =>
    dsimp only
    split
    · rename_i hk
      exact handles_deliveryStep hk
    · exact hstays
  | resolver slot =>
    dsimp only
    unfold resolverStep releaseResolution
    split
    · split <;> exact handles_idle (fun d hd => hd) rfl (.none (.inl rfl))
    · exact hstays

/-! ## Attempts that are counted -/

/-- The records that are held know their rows, the deliveries that are about to settle a claim for good have met what they have to, and the
rows are settled for a reason. -/
structure Counted (settings : NotificationSettings) (met : Uuid → DeliveryOutcome → Prop) (s : Notifications) : Prop where
  wellFormed : WellFormed s.store
  loops : ∀ phase ∈ s.loops, ∀ record ∈ phase.records, Knows record s.store
  deliveries : ∀ d ∈ s.deliveries, Knows d.record s.store
  grounds : ∀ d ∈ s.deliveries, ∀ outcome ∈ d.phase.grounds, met d.record.eventId outcome
  rows : ∀ o ∈ s.store.outbox, Justified settings.maxAttempts met o

/-- A settlement leaves the rows as they are or as its call makes them. -/
theorem justified_settlement {call : Store → Outcome Bool} (fault : CallFault) {store : Store}
    (hrows : ∀ o ∈ store.outbox, Justified settings.maxAttempts met o)
    (hcall : ∀ o ∈ (call store).2.outbox, Justified settings.maxAttempts met o) :
    ∀ o ∈ (settlement fault call store).2.outbox, Justified settings.maxAttempts met o := by
  rcases (settlement_cases fault call store).1 with h | h
  · rw [h]
    exact hrows
  · rw [h]
    exact hcall

/-- A failed attempt is counted as one more than the record knows of. -/
theorem justified_retryDelivery {record : OutboxRecord} {error : String} {permanent : Bool} {clock : Reading} (fault : CallFault)
    {store : Store} (hs : WellFormed store) (hrows : ∀ o ∈ store.outbox, Justified settings.maxAttempts met o) (hknows : Knows record store)
    (hpermanent : permanent = true → met record.eventId (.retry true)) :
    ∀ o ∈ (retryDelivery cfg settings record error permanent clock fault store).2.outbox, Justified settings.maxAttempts met o := by
  obtain ⟨t, ht, -, hattempts⟩ := hknows
  have hsame : ∀ o ∈ store.outbox, claimedBy record.eventId record.deliveryAttemptId o = true →
      o.attempts = record.attempts ∧ o.attempts < settings.maxAttempts := by
    intro o ho hclaimed
    obtain ⟨-, hstate, t', htoken, ht'⟩ := claimedBy_iff.1 hclaimed
    obtain rfl : t = t' := Option.some.inj (ht.symm.trans ht')
    exact ⟨hattempts o ho htoken, (hrows o ho).undelivered (by rw [hstate]; rfl)⟩
  refine justified_settlement fault hrows (justified_outboxFailed hs hrows (fun hdead o ho hclaimed => ?_) fun hagain o ho hclaimed => ?_)
  · obtain ⟨heq, hlt⟩ := hsame o ho hclaimed
    rw [Bool.or_eq_true, decide_eq_true_eq] at hdead
    rcases hdead with hdead | hdead
    · exact .inr (.inr (hpermanent hdead))
    · exact .inl (by omega)
  · obtain ⟨heq, hlt⟩ := hsame o ho hclaimed
    rw [Bool.or_eq_false_iff, decide_eq_false_iff_not] at hagain
    omega

/-- The rows stay justified after an action that settles for a reason. -/
theorem Counted.settles {store' : Store} (hmax : 0 < settings.maxAttempts) (h : Counted settings met s)
    (hsettles : Settles cfg settings s store') : ∀ o ∈ store'.outbox, Justified settings.maxAttempts met o := by
  cases hsettles with
  | none hmoves =>
    rcases hmoves with rfl | ⟨call, clock, rfl, -, hcall⟩
    · exact h.rows
    · refine justified_step h.wellFormed hmax ?_ h.rows
      by_contra hsome
      obtain ⟨e, he⟩ := Option.ne_none_iff_exists'.1 hsome
      cases hcall e he
  | delivered d hd hphase clock fault =>
    have hmet := h.grounds d hd .delivered (by rw [hphase]; rfl)
    exact justified_settlement fault h.rows (justified_outboxDelivered h.wellFormed h.rows hmet)
  | refused d hd hphase error next fault =>
    have hmet := h.grounds d hd .refused (by rw [hphase]; rfl)
    exact justified_settlement fault h.rows (justified_outboxFailed h.wellFormed h.rows (fun _ o _ _ => .inr (.inl hmet))
      fun hfalse => absurd hfalse.symm Bool.false_ne_true)
  | retried record hheld permanent hpermanent error clock fault =>
    refine justified_retryDelivery fault h.wellFormed h.rows ?_ fun htrue => ?_
    · rcases hheld with ⟨phase, hphase, hrecord⟩ | ⟨d, hd, rfl⟩
      · exact h.loops phase hphase record hrecord
      · exact h.deliveries d hd
    · obtain ⟨d, hd, rfl, hphase⟩ := hpermanent htrue
      exact h.grounds d hd (.retry true) (by rw [hphase]; rfl)

/-- What one action keeps, where `met'` is what was met with what it meets. -/
theorem Counted.step (hmax : 0 < settings.maxAttempts) (h : Counted settings met s) (input : NotificationInput)
    (hmet : ∀ e outcome, met e outcome → met' e outcome)
    (hnew : ∀ k d outcome, input = .delivery k (.outcome outcome) → s.deliveries[k]? = some d → d.phase.takes outcome = true →
      met' d.record.eventId outcome) : Counted settings met' (step cfg settings s input) := by
  have hhandles : Handles cfg settings s input (Notifications.step cfg settings s input) := handles_step h.wellFormed input
  have heffect : Effect cfg settings s input (Notifications.step cfg settings s input) := effect_step s input
  obtain ⟨touched, hmoves⟩ := hhandles.store.moves
  refine ⟨hmoves.wellFormed h.wellFormed, ?_, ?_, ?_, fun o ho => (h.settles hmax hhandles.store o ho).mono hmet⟩
  · intro phase' hphase' record hrecord
    rcases hhandles.loops phase' hphase' record hrecord with ⟨phase, hphase, hmem⟩ | hknows
    · exact hmoves.knows h.wellFormed (h.loops phase hphase record hmem)
    · exact hknows
  · intro d' hd'
    rcases heffect.records hd' with ⟨d, hd, hsame⟩ | ⟨phase, hphase, hmem⟩
    · rw [← hsame]
      exact hmoves.knows h.wellFormed (h.deliveries d hd)
    · exact hmoves.knows h.wellFormed (h.loops phase hphase _ hmem)
  · intro d' hd' outcome houtcome
    rcases hhandles.deliveries d' hd' with hold | hgrounds
    · exact hmet _ _ (h.grounds d' hold outcome houtcome)
    · obtain ⟨k, d, hinput, hk, hsame, htakes⟩ := hgrounds outcome houtcome
      rw [← hsame]
      exact hnew k d outcome hinput hk htakes

/-! ## The lives of a service -/

/-- The store as a service left it: its processes open it one after the other, each with some number of loops. -/
inductive Lived (cfg : StoreConfig) (settings : NotificationSettings) : Store → Prop where
  | created (drawn : ℕ) : Lived cfg settings (Store.create cfg drawn)
  | life {store : Store} (h : Lived cfg settings store) (workers : ℕ) (is : List NotificationInput) :
      Lived cfg settings (Machine.run (step cfg settings) (init settings workers (store.reopen cfg)) is).store

/-- In the run a delivery of the event met an outcome, where it waited for one. -/
def Met (cfg : StoreConfig) (settings : NotificationSettings) (start : Notifications) (is : List NotificationInput) (eventId : Uuid)
    (outcome : DeliveryOutcome) : Prop :=
  ∃ before k d after, is = before ++ .delivery k (.outcome outcome) :: after ∧
    (Machine.run (step cfg settings) start before).deliveries[k]? = some d ∧ d.record.eventId = eventId ∧ d.phase.takes outcome = true

/-- What was met stays met in a longer run. -/
theorem Met.append {start : Notifications} {is : List NotificationInput} {eventId : Uuid} {outcome : DeliveryOutcome}
    (h : Met cfg settings start is eventId outcome) (js : List NotificationInput) : Met cfg settings start (is ++ js) eventId outcome := by
  obtain ⟨before, k, d, after, rfl, hd⟩ := h
  exact ⟨before, k, d, after ++ js, by simp, hd⟩

/-- What holds after a run, with what was met before it. -/
theorem Counted.run (cfg : StoreConfig) {start : Notifications} (hmax : 0 < settings.maxAttempts) (h : Counted settings met start)
    (is : List NotificationInput) :
    Counted settings (fun e outcome => met e outcome ∨ Met cfg settings start is e outcome)
      (Machine.run (Notifications.step cfg settings) start is) := by
  induction is using List.reverseRecOn with
  | nil =>
    refine ⟨h.wellFormed, h.loops, h.deliveries, fun d hd outcome houtcome => .inl (h.grounds d hd outcome houtcome), fun o ho => ?_⟩
    exact (h.rows o ho).mono fun _ _ => .inl
  | append_singleton is input ih =>
    rw [Machine.run_append]
    refine ih.step hmax input (fun e outcome hmet => hmet.imp_right fun hmet => hmet.append [input]) ?_
    rintro k d outcome rfl hk htakes
    exact .inr ⟨is, k, d, [], rfl, hk, rfl, htakes⟩

/-- A store that is opened has the rows it had, if any. -/
theorem counted_init (cfg : StoreConfig) {store : Store} (hs : WellFormed store) (hmax : 0 < settings.maxAttempts)
    (hrows : ∀ o ∈ store.outbox, Justified settings.maxAttempts met o) (workers : ℕ) :
    Counted settings met (init settings workers (store.reopen cfg)) where
  wellFormed := show WellFormed (Store.step cfg store (.reopen, .at 0)) from hs.step _
  loops := by
    intro phase hphase record hrecord
    rw [List.eq_of_mem_replicate hphase] at hrecord
    exact absurd hrecord List.not_mem_nil
  deliveries := fun d hd => absurd hd List.not_mem_nil
  grounds := fun d hd => absurd hd List.not_mem_nil
  rows := by
    have hreopened : ∀ o ∈ (Store.step cfg store (.reopen, .at 0)).outbox, Justified settings.maxAttempts met o :=
      justified_step hs hmax rfl hrows
    exact hreopened

/-- The rows of every store that a service left are settled for a reason. -/
theorem Lived.justified {store : Store} (h : Lived cfg settings store) (hmax : 0 < settings.maxAttempts) :
    WellFormed store ∧ ∃ met, ∀ o ∈ store.outbox, Justified settings.maxAttempts met o := by
  induction h with
  | created drawn =>
    refine ⟨wellFormed_create drawn, fun _ _ => True, fun o ho => ?_⟩
    rw [(create_tables cfg drawn).2.1] at ho
    exact absurd ho List.not_mem_nil
  | life h workers is ih =>
    obtain ⟨hs, met, hrows⟩ := ih
    have hcounted := Counted.run cfg hmax (counted_init cfg hs hmax hrows workers) is
    exact ⟨hcounted.wellFormed, _, hcounted.rows⟩

/-- A row of the event in this state. -/
def Stood (store : Store) (eventId : Uuid) (state : OutboxState) : Prop := ∃ o ∈ store.outbox, o.eventId = eventId ∧ o.state = state

/-- Whatever the loops, the deliveries and the callers of a service do in its lives, with faults of the store before and after a commit: no
more failures of a callback are recorded than the bound, of one that is to be delivered fewer, one that counts as delivered was answered
with success, and one that is given up has as many failures as the bound, was of an endpoint that is not its tenant's or failed for good. A
failure that the store does not commit is not recorded: its callback is sent again when the lease of the claim has run out. -/
theorem callback_attempts (cfg : StoreConfig) (settings : NotificationSettings) (hmax : 0 < settings.maxAttempts) {store : Store}
    (hlived : Lived cfg settings store) (workers : ℕ) (is : List NotificationInput) :
    ∀ o ∈ (Machine.run (step cfg settings) (init settings workers (store.reopen cfg)) is).store.outbox,
      o.attempts ≤ settings.maxAttempts ∧ (o.state.undelivered = true → o.attempts < settings.maxAttempts) ∧
      (o.state = .delivered → Stood store o.eventId .delivered ∨
        Met cfg settings (init settings workers (store.reopen cfg)) is o.eventId .delivered) ∧
      (o.state = .dead → o.attempts = settings.maxAttempts ∨ Stood store o.eventId .dead ∨
        Met cfg settings (init settings workers (store.reopen cfg)) is o.eventId .refused ∨
        Met cfg settings (init settings workers (store.reopen cfg)) is o.eventId (.retry true)) := by
  obtain ⟨hs, met, hold⟩ := hlived.justified hmax
  -- what was met before is read off the rows that this life began with
  have hrows : ∀ o ∈ store.outbox, Justified settings.maxAttempts
      (fun e outcome => (outcome = .delivered ∧ Stood store e .delivered) ∨ (outcome = .refused ∧ Stood store e .dead)) o := by
    intro o ho
    exact ⟨(hold o ho).attempts_le, (hold o ho).undelivered, fun hstate => .inl ⟨rfl, o, ho, rfl, hstate⟩,
      fun hstate => .inr (.inl (.inr ⟨rfl, o, ho, rfl, hstate⟩))⟩
  have hcounted := Counted.run cfg hmax (counted_init cfg hs hmax hrows workers) is
  intro o ho
  have hjustified := hcounted.rows o ho
  refine ⟨hjustified.attempts_le, hjustified.undelivered, fun hstate => ?_, fun hstate => ?_⟩
  · simpa using hjustified.delivered hstate
  · have hdead := hjustified.dead hstate
    simp only [reduceCtorEq, false_and, true_and, false_or, or_false] at hdead
    tauto

/-! ## A callback that is delivered -/

namespace Late

/-- A job with a callback is finished by the service itself, and the callback is claimed, delivered and settled. -/
def served : List NotificationInput :=
  SharkRail.Sample.finishedRun.map (fun input => .store input.1 input.2) ++ loops 9 5 ++ [next 0] ++ posts 0 0 ++
    [calls 0 6, next 0, next 0]

end Late

open Late in
/-- The callback counts as delivered, and one of its deliveries was answered with success. -/
theorem callback_attempts_sample :
    ∃ o ∈ (Machine.run (step SharkRail.Sample.cfg bounds)
        (init bounds 1 ((Store.create SharkRail.Sample.cfg 0).reopen SharkRail.Sample.cfg)) Late.served).store.outbox,
      Met SharkRail.Sample.cfg bounds (init bounds 1 ((Store.create SharkRail.Sample.cfg 0).reopen SharkRail.Sample.cfg)) Late.served
        o.eventId .delivered := by
  have hrun : ∃ o ∈ (Machine.run (step SharkRail.Sample.cfg bounds)
      (init bounds 1 ((Store.create SharkRail.Sample.cfg 0).reopen SharkRail.Sample.cfg)) Late.served).store.outbox,
        o.state = .delivered := by
    decide +kernel
  obtain ⟨o, ho, hstate⟩ := hrun
  have hattempts := callback_attempts SharkRail.Sample.cfg bounds (by decide) (.created 0) 1 Late.served o ho
  refine ⟨o, ho, (hattempts.2.2.1 hstate).resolve_left ?_⟩
  rintro ⟨o', ho', -⟩
  rw [(create_tables SharkRail.Sample.cfg 0).2.1] at ho'
  exact absurd ho' List.not_mem_nil

end Notifications

end Service

end SharkRail
