import SharkRail.Theorems.NotificationSlots
import SharkRail.Theorems.Terminal

/-!
# Health of the notification workers

An event is reported as not persisted by the attempt that could not settle its claim, and no longer once an attempt could. What an action
does to the outbox, to that report and to the deliveries is said once (`Effect`). A report outlives its event when an attempt that lost its
claim makes it after the event was settled, or when a loop gives the event up, which takes no report back; where neither is done
(`Recoverable`), a reported event is still to be delivered whenever no delivery is in flight.
-/

namespace SharkRail

namespace Service

open Store

variable {cfg : StoreConfig} {settings : NotificationSettings}

/-- The records that a loop has yet to schedule. -/
def LoopPhase.records : LoopPhase → List OutboxRecord
  | .returning _ batch | .scheduling batch => batch.records
  | .rejected _ record batch | .unscheduled record batch | .retrying record batch | .unpersisted record batch => record :: batch.records
  | .waiting | .acquiring _ | .claiming _ | .aborting _ | .claimFailed | .ended => []

namespace Notifications

variable {s s' : Notifications} {k : ℕ} {eventId : Uuid}

/-! ## What an action does -/

/-- The store is as it was, or moved by a transaction that settles no claim but of one event. -/
def StoreMoves (cfg : StoreConfig) (touched : Option Uuid) (store store' : Store) : Prop :=
  store' = store ∨ ∃ call clock, store' = Store.step cfg store (call, clock) ∧ call ≠ .reopen ∧
    ∀ e, settledEvent call = some e → touched = some e

/-- What an action does to the store, to the events that are reported and to the deliveries. -/
inductive Effect (cfg : StoreConfig) (settings : NotificationSettings) (s : Notifications) : NotificationInput → Notifications → Prop where
  | idle {input : NotificationInput} {s' : Notifications} (hstore : StoreMoves cfg none s.store s'.store)
      (hunpersisted : s'.unpersisted = s.unpersisted) (hdeliveries : s'.deliveries = s.deliveries) : Effect cfg settings s input s'
  | submitted {input : NotificationInput} {s' : Notifications} (d : Delivery) (hphase : d.phase = .queued)
      (hrecord : ∃ phase ∈ s.loops, d.record ∈ phase.records) (hstore : s'.store = s.store)
      (hunpersisted : s'.unpersisted = s.unpersisted) (hdeliveries : s'.deliveries = s.deliveries ++ [d]) :
      Effect cfg settings s input s'
  | retried {s' : Notifications} (k : ℕ) (event : LoopEvent) (record : OutboxRecord) (batch : Batch)
      (hk : s.loops[k]? = some (.retrying record batch))
      (hstore : s'.store = (retryDelivery cfg settings record event.error false event.clock event.fault s.store).2)
      (hunpersisted : s'.unpersisted = s.unpersisted) (hdeliveries : s'.deliveries = s.deliveries) :
      Effect cfg settings s (.loop k event) s'
  | reportedByLoop {s' : Notifications} (k : ℕ) (event : LoopEvent) (record : OutboxRecord) (batch : Batch)
      (hk : s.loops[k]? = some (.unpersisted record batch)) (hstore : s'.store = s.store)
      (hunpersisted : s'.unpersisted = insert record.eventId s.unpersisted) (hdeliveries : s'.deliveries = s.deliveries) :
      Effect cfg settings s (.loop k event) s'
  | moved {input : NotificationInput} {s' : Notifications} (k : ℕ) (d : Delivery) (after : DeliveryPhase)
      (hk : s.deliveries[k]? = some d) (hafter : after ≠ .finishing)
      (hsucceeded : WellFormed s.store → after = .succeeded → Live d.record.eventId s.store)
      (hstore : StoreMoves cfg (some d.record.eventId) s.store s'.store) (hunpersisted : s'.unpersisted = s.unpersisted)
      (hdeliveries : s'.deliveries = s.deliveries.set k { d with phase := after }) : Effect cfg settings s input s'
  | persisted {input : NotificationInput} {s' : Notifications} (k : ℕ) (d : Delivery) (hk : s.deliveries[k]? = some d)
      (hphase : d.phase = .succeeded) (hstore : s'.store = s.store)
      (hunpersisted : s'.unpersisted = s.unpersisted.erase d.record.eventId)
      (hdeliveries : s'.deliveries = s.deliveries.set k { d with phase := .finishing }) : Effect cfg settings s input s'
  | reported {s' : Notifications} (k : ℕ) (d : Delivery) (monotonic : Instant) (hk : s.deliveries[k]? = some d)
      (hphase : d.phase = .unpersisted) (hstore : s'.store = s.store)
      (hunpersisted : s'.unpersisted = insert d.record.eventId s.unpersisted)
      (hdeliveries : s'.deliveries = s.deliveries.set k { d with phase := .finishing }) :
      Effect cfg settings s (.delivery k (.next monotonic)) s'
  | finished {input : NotificationInput} {s' : Notifications} (k : ℕ) (d : Delivery) (hk : s.deliveries[k]? = some d)
      (hphase : d.phase = .finishing) (hstore : s'.store = s.store) (hunpersisted : s'.unpersisted = s.unpersisted)
      (hdeliveries : s'.deliveries = s.deliveries.eraseIdx k) : Effect cfg settings s input s'

/-- A settlement leaves the store as it was or as the call makes it, and it is persisted when the call found the claim. -/
theorem settlement_cases (fault : CallFault) (call : Store → Outcome Bool) (store : Store) :
    ((settlement fault call store).2 = store ∨ (settlement fault call store).2 = (call store).2) ∧
      ((settlement fault call store).1 = .persisted → (call store).1 = .ok true) := by
  unfold settlement
  cases fault with
  | before | after => simp
  | none =>
    dsimp only
    generalize call store = outcome
    obtain ⟨result, store'⟩ := outcome
    cases result with
    | error e => simp
    | ok b => cases b <;> simp

/-- A failed attempt that is reported moves the store, and touches the row of its event at most. -/
theorem moves_outboxFailed (fault : CallFault) (eventId : Uuid) (token : Option Uuid) (error : String) (next : Instant) (permanent : Bool)
    (store : Store) : StoreMoves cfg (some eventId) store
      (settlement fault (outboxFailed cfg eventId token error next permanent) store).2 := by
  rcases (settlement_cases fault (outboxFailed cfg eventId token error next permanent) store).1 with h | h
  · exact .inl h
  · refine .inr ⟨.outboxFailed eventId token error next permanent, .at 0, h, nofun, ?_⟩
    rintro e ⟨⟩
    rfl

/-- A delivery that is reported moves the store, and touches the row of its event at most. -/
theorem moves_outboxDelivered (fault : CallFault) (clock : Reading) (eventId : Uuid) (token : Option Uuid) (store : Store) :
    StoreMoves cfg (some eventId) store (settlement fault (outboxDelivered cfg clock eventId token) store).2 := by
  rcases (settlement_cases fault (outboxDelivered cfg clock eventId token) store).1 with h | h
  · exact .inl h
  · refine .inr ⟨.outboxDelivered eventId token, clock, h, nofun, ?_⟩
    rintro e ⟨⟩
    rfl

/-- A claim settles no claim. -/
theorem moves_claim (slots : List ℕ) (event : LoopEvent) (store : Store) :
    StoreMoves cfg none store (claim cfg settings slots event store).2 := by
  have hcall : StoreMoves cfg none store (claimOutboxDue cfg event.clock slots.length settings.lease store).2 :=
    .inr ⟨.claimOutboxDue slots.length settings.lease, event.clock, rfl, nofun, nofun⟩
  unfold claim
  cases event.fault with
  | before => exact .inl rfl
  | after => exact hcall
  | none =>
    dsimp only
    generalize claimOutboxDue cfg event.clock slots.length settings.lease store = outcome at hcall ⊢
    obtain ⟨result, store'⟩ := outcome
    cases result <;> exact hcall

/-- A success without an event changes the time of the last success and the count of errors. -/
theorem succeeded_none (s : Notifications) (monotonic : Instant) :
    ∃ lastSuccess consecutiveErrors, s.succeeded monotonic none = { s with lastSuccess, consecutiveErrors } := by
  unfold succeeded
  split <;> exact ⟨_, _, rfl⟩

/-- A success with an event takes the event from those that were not persisted. -/
theorem succeeded_some (s : Notifications) (monotonic : Instant) (eventId : Uuid) : ∃ lastSuccess consecutiveErrors,
    s.succeeded monotonic (some eventId) = { s with unpersisted := s.unpersisted.erase eventId, lastSuccess, consecutiveErrors } := by
  unfold succeeded
  split <;> exact ⟨_, _, rfl⟩

/-- A loop that gives back its slot changes neither the store nor a delivery. -/
theorem effect_release {input : NotificationInput} {slot : ℕ} {after otherwise : LoopPhase} :
    Effect cfg settings s input (s.release slot (setLoop k after) (setLoop k otherwise)) := by
  unfold Notifications.release
  split <;> exact .idle (.inl rfl) rfl rfl

/-- What a loop does. -/
theorem effect_loopStep {phase : LoopPhase} (hk : s.loops[k]? = some phase) (event : LoopEvent) :
    Effect cfg settings s (.loop k event) (s.loopStep cfg settings k event phase) := by
  cases phase with
  | waiting | claimFailed | unscheduled | ended => exact .idle (.inl rfl) rfl rfl
  | acquiring slots =>
    unfold loopStep
    dsimp only
    split
    · exact .idle (.inl rfl) rfl rfl
    · split <;> exact .idle (.inl rfl) rfl rfl
  | claiming slots => exact .idle (moves_claim slots event s.store) rfl rfl
  | aborting slots =>
    cases slots with
    | nil => exact .idle (.inl rfl) rfl rfl
    | cons slot slots => exact effect_release
  | returning extra batch =>
    cases extra with
    | zero => exact .idle (.inl rfl) rfl rfl
    | succ extra =>
      obtain ⟨slots, records, failed⟩ := batch
      cases slots <;> exact effect_release
  | scheduling batch =>
    obtain ⟨slots, records, failed⟩ := batch
    cases records with
    | nil =>
      cases failed with
      | true => exact .idle (.inl rfl) rfl rfl
      | false =>
        unfold loopStep
        dsimp only
        obtain ⟨lastSuccess, consecutiveErrors, heq⟩ := succeeded_none s event.monotonic
        rw [if_neg Bool.false_ne_true, heq]
        exact .idle (.inl rfl) rfl rfl
    | cons record records =>
      unfold loopStep
      dsimp only
      split
      · exact .submitted _ rfl ⟨_, List.mem_of_getElem? hk, List.mem_cons_self⟩ rfl rfl rfl
      · exact .idle (.inl rfl) rfl rfl
  | rejected slot record batch => exact effect_release
  | retrying record batch => exact .retried k event record batch hk rfl rfl rfl
  | unpersisted record batch => exact .reportedByLoop k event record batch hk rfl rfl rfl

/-- The calls of the store that a delivery makes settle its own claim. -/
theorem effect_deliveryCall {d : Delivery} (hk : s.deliveries[k]? = some d) {clock : Reading} {fault : CallFault} {error : String}
    {after : DeliveryPhase} {store : Store} {input : NotificationInput}
    (hcall : deliveryCall cfg settings d.record clock fault error s.store d.phase = some (after, store)) :
    Effect cfg settings s input ({ s with store }.setDelivery k d after) := by
  have hretrying : ∀ result, afterRetrying result ≠ .finishing ∧ (afterRetrying result = .succeeded → result = .persisted) :=
    fun result => by
    cases result <;> simp [afterRetrying]
  have hpersisting : ∀ result, afterPersisting result ≠ .finishing ∧ (afterPersisting result = .succeeded → result = .persisted) :=
    fun result => by
      rcases result with _ | _ | _ <;> simp [afterPersisting]
  have hfailing : ∀ result : Settlement, (if result = .persisted then DeliveryPhase.succeeded else .unpersisted) ≠ .finishing ∧
      ((if result = .persisted then DeliveryPhase.succeeded else .unpersisted) = .succeeded → result = .persisted) := fun result => by
    cases result <;> simp
  cases hphase : d.phase with
  | refusing =>
    rw [hphase] at hcall
    cases hcall
    refine .moved k d _ hk (hretrying _).1 (fun hs h => ?_) (moves_outboxFailed _ _ _ _ _ _ _) rfl rfl
    exact live_of_settleClaim hs ((settlement_cases _ _ _).2 ((hretrying _).2 h))
  | persisting =>
    rw [hphase] at hcall
    cases hcall
    refine .moved k d _ hk (hpersisting _).1 (fun hs h => ?_) (moves_outboxDelivered _ _ _ _ _) rfl rfl
    exact live_of_settleClaim hs ((settlement_cases _ _ _).2 ((hpersisting _).2 h))
  | retrying permanent =>
    rw [hphase] at hcall
    cases hcall
    refine .moved k d _ hk (hretrying _).1 (fun hs h => ?_) (moves_outboxFailed _ _ _ _ _ _ _) rfl rfl
    exact live_of_settleClaim hs ((settlement_cases _ _ _).2 ((hretrying _).2 h))
  | failing =>
    rw [hphase] at hcall
    cases hcall
    refine .moved k d _ hk (hfailing _).1 (fun hs h => ?_) (moves_outboxFailed _ _ _ _ _ _ _) rfl rfl
    exact live_of_settleClaim hs ((settlement_cases _ _ _).2 ((hfailing _).2 h))
  | queued | delivering | starting | startFailed | resolving | posting | raised | unpersisted | succeeded | finishing =>
    rw [hphase] at hcall
    cases hcall

/-- What a delivery does. -/
theorem effect_deliveryStep {d : Delivery} (hk : s.deliveries[k]? = some d) (event : DeliveryEvent) :
    Effect cfg settings s (.delivery k event) (s.deliveryStep cfg settings k d event) := by
  have hgoes : ∀ {after : DeliveryPhase} {s' : Notifications}, s'.store = s.store → s'.unpersisted = s.unpersisted →
      s'.deliveries = s.deliveries.set k { d with phase := after } → after ≠ .finishing → after ≠ .succeeded →
      Effect cfg settings s (.delivery k event) s' := fun hstore hunpersisted hdeliveries hafter hsucceeded =>
    .moved k d _ hk hafter (fun _ h => absurd h hsucceeded) (.inl hstore) hunpersisted hdeliveries
  unfold deliveryStep
  split
  · exact hgoes rfl rfl rfl (by simp) (by simp)
  · exact hgoes rfl rfl rfl (by simp) (by simp)
  · exact hgoes rfl rfl rfl (by simp) (by simp)
  · split <;> exact hgoes rfl rfl rfl (by simp) (by simp)
  · split <;> exact hgoes rfl rfl rfl (by simp) (by simp)
  · rename_i slot caught _ _
    unfold releaseResolution
    split
    · cases caught <;> exact hgoes rfl rfl rfl (by simp) (by simp)
    · exact hgoes rfl rfl rfl (by simp) (by simp)
  · split
    · exact .idle (.inl rfl) rfl rfl
    · exact hgoes rfl rfl rfl (by simp) (by simp)
  · exact hgoes rfl rfl rfl (by simp) (by simp)
  · split
    · exact .idle (.inl rfl) rfl rfl
    · exact hgoes rfl rfl rfl (by simp) (by simp)
  · rename_i outcome _
    cases outcome <;> exact hgoes rfl rfl rfl (by simp [afterNetwork]) (by simp [afterNetwork])
  · split
    · rename_i hcall
      exact effect_deliveryCall hk hcall
    · exact .idle (.inl rfl) rfl rfl
  · exact hgoes rfl rfl rfl (by simp) (by simp)
  · rename_i monotonic hphase
    exact .reported k d monotonic hk hphase rfl rfl rfl
  · rename_i monotonic hphase
    obtain ⟨lastSuccess, consecutiveErrors, heq⟩ := succeeded_some s monotonic d.record.eventId
    rw [heq]
    exact .persisted k d hk hphase rfl rfl rfl
  · rename_i hphase
    unfold Notifications.release
    dsimp only
    split <;> exact .finished k d hk hphase rfl rfl rfl
  · exact .idle (.inl rfl) rfl rfl

/-- What any action does. -/
theorem effect_step (s : Notifications) (input : NotificationInput) : Effect cfg settings s input (step cfg settings s input) := by
  unfold Notifications.step
  cases input with
  | store call clock =>
    dsimp only
    split
    · rename_i hcall
      refine .idle (.inr ⟨call, clock, rfl, ?_, ?_⟩) rfl rfl
      · rintro rfl
        cases hcall
      · intro e he
        cases call <;> cases he <;> cases hcall
    · exact .idle (.inl rfl) rfl rfl
  | loop k event =>
    dsimp only
    split
    · rename_i hk
      exact effect_loopStep hk event
    · exact .idle (.inl rfl) rfl rfl
  | delivery k event =>
    dsimp only
    split
    · rename_i hk
      exact effect_deliveryStep hk event
    · exact .idle (.inl rfl) rfl rfl
  | resolver slot =>
    dsimp only
    unfold resolverStep releaseResolution
    split
    · split <;> exact .idle (.inl rfl) rfl rfl
    · exact .idle (.inl rfl) rfl rfl

/-! ## Events that recover -/

/-- A delivery of the event has persisted and has yet to say so. -/
def Reporting (eventId : Uuid) (s : Notifications) : Prop := ∃ d ∈ s.deliveries, d.record.eventId = eventId ∧ d.phase = .succeeded

/-- The call returned `True`. -/
def isTrue : Outcome Bool → Bool
  | (.ok b, _) => b
  | (.error _, _) => false

/-- A loop that could not submit a record gives its event up: the attempts are exhausted, and the store takes it. -/
def GivesUp (cfg : StoreConfig) (settings : NotificationSettings) (record : OutboxRecord) (event : LoopEvent) (store : Store) : Prop :=
  settings.maxAttempts ≤ record.attempts + 1 ∧ (∀ caught, event.fault ≠ .before caught) ∧
    isTrue (outboxFailed cfg record.eventId record.deliveryAttemptId event.error
      (event.clock.now + retryDelay (record.attempts + 1)) true store)

/-- A loop reports an event only while it is to be delivered, and gives no reported event up; or a delivery of the event takes the report
back next. -/
def RecoverableLoop (cfg : StoreConfig) (settings : NotificationSettings) (s : Notifications) (event : LoopEvent) : LoopPhase → Prop
  | .unpersisted record _ => Live record.eventId s.store ∨ Reporting record.eventId s
  | .retrying record _ => GivesUp cfg settings record event s.store → record.eventId ∉ s.unpersisted ∨ Reporting record.eventId s
  | _ => True

/-- And a delivery reports its event only while it is to be delivered, or another delivery of it takes the report back next. -/
def Recoverable (cfg : StoreConfig) (settings : NotificationSettings) (s : Notifications) : NotificationInput → Prop
  | .loop k event => ∀ phase ∈ s.loops[k]?, RecoverableLoop cfg settings s event phase
  | .delivery k (.next _) =>
    ∀ d ∈ s.deliveries[k]?, d.phase = .unpersisted → Live d.record.eventId s.store ∨ Reporting d.record.eventId s
  | _ => True

instance (eventId : Uuid) (store : Store) : Decidable (Live eventId store) :=
  inferInstanceAs (Decidable (∃ o ∈ store.outbox, o.eventId = eventId ∧ o.state.undelivered = true))

instance (eventId : Uuid) (s : Notifications) : Decidable (Reporting eventId s) :=
  inferInstanceAs (Decidable (∃ d ∈ s.deliveries, d.record.eventId = eventId ∧ d.phase = .succeeded))

instance (cfg : StoreConfig) (settings : NotificationSettings) (record : OutboxRecord) (event : LoopEvent) (store : Store) :
    Decidable (GivesUp cfg settings record event store) :=
  inferInstanceAs (Decidable (_ ∧ _ ∧ _))

instance (cfg : StoreConfig) (settings : NotificationSettings) (s : Notifications) (event : LoopEvent) :
    DecidablePred (RecoverableLoop cfg settings s event)
  | .unpersisted record _ => inferInstanceAs (Decidable (Live record.eventId s.store ∨ Reporting record.eventId s))
  | .retrying record _ =>
    inferInstanceAs (Decidable (GivesUp cfg settings record event s.store → record.eventId ∉ s.unpersisted ∨ Reporting record.eventId s))
  | .waiting | .acquiring _ | .claiming _ | .aborting _ | .claimFailed | .returning _ _ | .scheduling _ | .rejected _ _ _
  | .unscheduled _ _ | .ended => .isTrue trivial

instance (cfg : StoreConfig) (settings : NotificationSettings) (s : Notifications) : DecidablePred (Recoverable cfg settings s)
  | .loop k event => inferInstanceAs (Decidable (∀ phase ∈ s.loops[k]?, RecoverableLoop cfg settings s event phase))
  | .delivery k (.next _) =>
    inferInstanceAs (Decidable (∀ d ∈ s.deliveries[k]?, d.phase = .unpersisted → Live d.record.eventId s.store ∨
      Reporting d.record.eventId s))
  | .delivery _ (.resolve _) | .delivery _ (.start _ _) | .delivery _ .resolved | .delivery _ (.outcome _) | .delivery _ (.store _ _ _) =>
    .isTrue trivial
  | .store _ _ | .resolver _ => .isTrue trivial

/-- A reported event is to be delivered, or a delivery of it is in flight that has not reported how it ended. -/
structure Healthy (s : Notifications) : Prop where
  wellFormed : WellFormed s.store
  live : ∀ e ∈ s.unpersisted, Live e s.store ∨ ∃ d ∈ s.deliveries, d.record.eventId = e ∧ d.phase ≠ .finishing

/-- A store that moves stays well formed. -/
theorem StoreMoves.wellFormed {touched : Option Uuid} {store store' : Store} (h : StoreMoves cfg touched store store')
    (hs : WellFormed store) : WellFormed store' := by
  rcases h with rfl | ⟨call, clock, rfl, -⟩
  · exact hs
  · exact hs.step (call, clock)

/-- A row that waits for its delivery waits after a move that does not touch it. -/
theorem StoreMoves.live {touched : Option Uuid} {store store' : Store} (h : StoreMoves cfg touched store store') (hs : WellFormed store)
    (hlive : Live eventId store) (hne : touched ≠ some eventId) : Live eventId store' := by
  rcases h with rfl | ⟨call, clock, rfl, hopen, htouched⟩
  · exact hlive
  · exact hlive.keeps hs clock (fun hcall => hne (htouched eventId hcall)) hopen

/-- An event whose row is gone has none after a move. -/
theorem StoreMoves.not_live {touched : Option Uuid} {store store' : Store} (h : StoreMoves cfg touched store store') (hs : WellFormed store)
    (hdrawn : eventId < store.drawn) (hgone : ¬Live eventId store) : ¬Live eventId store' ∧ eventId < store'.drawn := by
  rcases h with rfl | ⟨call, clock, rfl, -⟩
  · exact ⟨hgone, hdrawn⟩
  · exact ⟨not_live_step hs hdrawn hgone (call, clock), hdrawn.trans_le (hs.drawn_le_step cfg (call, clock))⟩

/-- The retry of a loop leaves the event to deliver, unless the loop gives it up. -/
theorem live_retry {record : OutboxRecord} {event : LoopEvent} {store : Store} (hs : WellFormed store) (hlive : Live record.eventId store)
    (hgives : ¬GivesUp cfg settings record event store) :
    Live record.eventId (retryDelivery cfg settings record event.error false event.clock event.fault store).2 := by
  by_cases hbefore : ∃ caught, event.fault = .before caught
  · obtain ⟨caught, hfault⟩ := hbefore
    rw [hfault]
    exact hlive
  · unfold retryDelivery
    dsimp only
    rcases (settlement_cases event.fault _ store).1 with h | h
    · rw [h]
      exact hlive
    · rw [h, Bool.false_or]
      unfold outboxFailed
      rcases settleClaim_cases cfg hs record.eventId record.deliveryAttemptId _ with ⟨-, hnone⟩ | ⟨o, ho, hclaimed, hdone | ⟨e, hfull⟩⟩
      · rw [hnone]
        exact hlive
      · by_cases hexhausted : settings.maxAttempts ≤ record.attempts + 1
        · refine absurd ⟨hexhausted, fun caught hcaught => hbefore ⟨caught, hcaught⟩, ?_⟩ hgives
          rw [decide_eq_true hexhausted] at hdone
          unfold outboxFailed
          rw [hdone]
          rfl
        · rw [decide_eq_false hexhausted] at hdone ⊢
          rw [hdone]
          exact ⟨_, Table.mem_update_of_pos ho hclaimed, (claimedBy_iff.1 hclaimed).1, rfl⟩
      · rw [hfull]
        exact hlive

/-- A delivery that is another one stays where it is. -/
theorem mem_set_of_ne {l : List Delivery} {d d' x : Delivery} (hk : l[k]? = some d) (hmem : d' ∈ l) (hne : d' ≠ d) : d' ∈ l.set k x := by
  obtain ⟨j, hj, rfl⟩ := List.mem_iff_getElem.1 hmem
  have hkj : k ≠ j := by
    rintro rfl
    rw [List.getElem?_eq_getElem hj] at hk
    exact hne (Option.some.inj hk)
  refine List.mem_iff_getElem.2 ⟨j, by simpa using hj, ?_⟩
  rw [List.getElem_set_ne hkj]

/-- A delivery other than the one that is taken out stays. -/
theorem mem_eraseIdx_of_ne {l : List Delivery} {d d' : Delivery} (hk : l[k]? = some d) (hmem : d' ∈ l) (hne : d' ≠ d) :
    d' ∈ l.eraseIdx k := by
  obtain ⟨j, hj, rfl⟩ := List.mem_iff_getElem.1 hmem
  refine List.mem_eraseIdx_iff_getElem?.2 ⟨j, ?_, List.getElem?_eq_getElem hj⟩
  rintro rfl
  rw [List.getElem?_eq_getElem hj] at hk
  exact hne (Option.some.inj hk)

/-- What is put in a place is there. -/
theorem mem_set_self {l : List Delivery} {d x : Delivery} (hk : l[k]? = some d) : x ∈ l.set k x :=
  List.mem_set (List.getElem?_eq_some_iff.1 hk).1 x

/-- Recoverable actions keep the workers healthy. -/
theorem Healthy.step (h : Healthy s) {input : NotificationInput} (hinput : Recoverable cfg settings s input) :
    Healthy (step cfg settings s input) := by
  have heffect : Effect cfg settings s input (Notifications.step cfg settings s input) := effect_step s input
  generalize Notifications.step cfg settings s input = s' at heffect ⊢
  cases heffect with
  | idle hstore hunpersisted hdeliveries =>
    refine ⟨hstore.wellFormed h.wellFormed, fun e he => ?_⟩
    rw [hdeliveries]
    exact (h.live e (hunpersisted ▸ he)).imp_left fun hlive => hstore.live h.wellFormed hlive nofun
  | submitted d hphase hrecord hstore hunpersisted hdeliveries =>
    refine ⟨hstore ▸ h.wellFormed, fun e he => ?_⟩
    rw [hstore]
    refine (h.live e (hunpersisted ▸ he)).imp_right fun ⟨d', hd', hrest⟩ => ⟨d', ?_, hrest⟩
    rw [hdeliveries]
    exact List.mem_append_left _ hd'
  | retried k event record batch hk hstore hunpersisted hdeliveries =>
    have hmoves : StoreMoves cfg (some record.eventId) s.store s'.store := by
      rw [hstore]
      exact moves_outboxFailed _ _ _ _ _ _ _
    refine ⟨hmoves.wellFormed h.wellFormed, fun e he => ?_⟩
    rw [hunpersisted] at he
    rw [hdeliveries]
    rcases h.live e he with hlive | hdelivery
    · by_cases hid : record.eventId = e
      · subst hid
        by_cases hgives : GivesUp cfg settings record event s.store
        · rcases hinput _ hk hgives with hnot | ⟨d, hd, hde, hphase⟩
          · exact absurd he hnot
          · exact .inr ⟨d, hd, hde, by rw [hphase]; nofun⟩
        · left
          rw [hstore]
          exact live_retry h.wellFormed hlive hgives
      · exact .inl (hmoves.live h.wellFormed hlive fun heq => hid (Option.some.inj heq))
    · exact .inr hdelivery
  | reportedByLoop k event record batch hk hstore hunpersisted hdeliveries =>
    refine ⟨hstore ▸ h.wellFormed, fun e he => ?_⟩
    rw [hunpersisted] at he
    rw [hstore, hdeliveries]
    rcases Finset.mem_insert.1 he with rfl | he
    · exact (hinput _ hk).imp_right fun ⟨d, hd, hde, hphase⟩ => ⟨d, hd, hde, by rw [hphase]; nofun⟩
    · exact h.live e he
  | moved k d after hk hafter hsucceeded hstore hunpersisted hdeliveries =>
    refine ⟨hstore.wellFormed h.wellFormed, fun e he => ?_⟩
    rw [hunpersisted] at he
    rw [hdeliveries]
    by_cases hid : d.record.eventId = e
    · exact .inr ⟨_, mem_set_self hk, hid, hafter⟩
    · refine (h.live e he).imp (fun hlive => hstore.live h.wellFormed hlive fun heq => hid (Option.some.inj heq)) ?_
      rintro ⟨d', hd', hde, hphase⟩
      exact ⟨d', mem_set_of_ne hk hd' (by rintro rfl; exact hid hde), hde, hphase⟩
  | persisted k d hk hphase hstore hunpersisted hdeliveries =>
    refine ⟨hstore ▸ h.wellFormed, fun e he => ?_⟩
    rw [hunpersisted, Finset.mem_erase] at he
    rw [hstore, hdeliveries]
    refine (h.live e he.2).imp_right fun ⟨d', hd', hde, hphase'⟩ => ⟨d', ?_, hde, hphase'⟩
    exact mem_set_of_ne hk hd' (by rintro rfl; exact he.1 hde.symm)
  | reported k d monotonic hk hphase hstore hunpersisted hdeliveries =>
    refine ⟨hstore ▸ h.wellFormed, fun e he => ?_⟩
    rw [hunpersisted] at he
    rw [hstore, hdeliveries]
    by_cases hid : e = d.record.eventId
    · subst hid
      rcases hinput d hk hphase with hlive | ⟨d', hd', hde, hphase'⟩
      · exact .inl hlive
      · have hne : d' ≠ d := by
          rintro rfl
          rw [hphase] at hphase'
          cases hphase'
        exact .inr ⟨d', mem_set_of_ne hk hd' hne, hde, by rw [hphase']; nofun⟩
    · rcases h.live e (Finset.mem_of_mem_insert_of_ne he hid) with hlive | ⟨d', hd', hde, hphase'⟩
      · exact .inl hlive
      · exact .inr ⟨d', mem_set_of_ne hk hd' (by rintro rfl; exact hid hde.symm), hde, hphase'⟩
  | finished k d hk hphase hstore hunpersisted hdeliveries =>
    refine ⟨hstore ▸ h.wellFormed, fun e he => ?_⟩
    rw [hunpersisted] at he
    rw [hstore, hdeliveries]
    refine (h.live e he).imp_right fun ⟨d', hd', hde, hphase'⟩ => ⟨d', ?_, hde, hphase'⟩
    refine mem_eraseIdx_of_ne hk hd' ?_
    rintro rfl
    exact hphase' hphase

/-! ## Events that are stranded -/

/-- A reported event that no delivery will settle and none takes the report of back. -/
structure Stranded (eventId : Uuid) (s : Notifications) : Prop where
  wellFormed : WellFormed s.store
  reported : eventId ∈ s.unpersisted
  drawn : eventId < s.store.drawn
  gone : ¬Live eventId s.store
  silent : ¬Reporting eventId s

/-- A stranded event stays stranded, whatever is done. -/
theorem Stranded.step (h : Stranded eventId s) (input : NotificationInput) : Stranded eventId (step cfg settings s input) := by
  have heffect : Effect cfg settings s input (Notifications.step cfg settings s input) := effect_step s input
  generalize Notifications.step cfg settings s input = s' at heffect ⊢
  have hset : ∀ {k : ℕ} {d : Delivery} {after : DeliveryPhase}, s'.deliveries = s.deliveries.set k { d with phase := after } →
      (after = .succeeded → d.record.eventId ≠ eventId) → ¬Reporting eventId s' := by
    rintro k d after hdeliveries hafter ⟨d', hd', hde, hphase⟩
    rw [hdeliveries] at hd'
    rcases List.mem_or_eq_of_mem_set hd' with hd' | rfl
    · exact h.silent ⟨d', hd', hde, hphase⟩
    · exact hafter hphase hde
  cases heffect with
  | idle hstore hunpersisted hdeliveries =>
    obtain ⟨hgone, hdrawn⟩ := hstore.not_live h.wellFormed h.drawn h.gone
    refine ⟨hstore.wellFormed h.wellFormed, hunpersisted ▸ h.reported, hdrawn, hgone, ?_⟩
    unfold Reporting
    rw [hdeliveries]
    exact h.silent
  | submitted d hphase hrecord hstore hunpersisted hdeliveries =>
    refine ⟨hstore ▸ h.wellFormed, hunpersisted ▸ h.reported, hstore ▸ h.drawn, hstore ▸ h.gone, ?_⟩
    rintro ⟨d', hd', hde, hphase'⟩
    rw [hdeliveries, List.mem_append, List.mem_singleton] at hd'
    rcases hd' with hd' | rfl
    · exact h.silent ⟨d', hd', hde, hphase'⟩
    · rw [hphase] at hphase'
      cases hphase'
  | retried k event record batch hk hstore hunpersisted hdeliveries =>
    have hmoves : StoreMoves cfg (some record.eventId) s.store s'.store := by
      rw [hstore]
      exact moves_outboxFailed _ _ _ _ _ _ _
    obtain ⟨hgone, hdrawn⟩ := hmoves.not_live h.wellFormed h.drawn h.gone
    refine ⟨hmoves.wellFormed h.wellFormed, hunpersisted ▸ h.reported, hdrawn, hgone, ?_⟩
    unfold Reporting
    rw [hdeliveries]
    exact h.silent
  | reportedByLoop k event record batch hk hstore hunpersisted hdeliveries =>
    refine ⟨hstore ▸ h.wellFormed, hunpersisted ▸ Finset.mem_insert_of_mem h.reported, hstore ▸ h.drawn, hstore ▸ h.gone, ?_⟩
    unfold Reporting
    rw [hdeliveries]
    exact h.silent
  | moved k d after hk hafter hsucceeded hstore hunpersisted hdeliveries =>
    obtain ⟨hgone, hdrawn⟩ := hstore.not_live h.wellFormed h.drawn h.gone
    refine ⟨hstore.wellFormed h.wellFormed, hunpersisted ▸ h.reported, hdrawn, hgone, hset hdeliveries fun heq hid => ?_⟩
    exact h.gone (hid ▸ hsucceeded h.wellFormed heq)
  | persisted k d hk hphase hstore hunpersisted hdeliveries =>
    refine ⟨hstore ▸ h.wellFormed, ?_, hstore ▸ h.drawn, hstore ▸ h.gone, hset hdeliveries nofun⟩
    rw [hunpersisted]
    refine Finset.mem_erase_of_ne_of_mem ?_ h.reported
    rintro rfl
    exact h.silent ⟨d, List.mem_of_getElem? hk, rfl, hphase⟩
  | reported k d monotonic hk hphase hstore hunpersisted hdeliveries =>
    exact ⟨hstore ▸ h.wellFormed, hunpersisted ▸ Finset.mem_insert_of_mem h.reported, hstore ▸ h.drawn, hstore ▸ h.gone,
      hset hdeliveries nofun⟩
  | finished k d hk hphase hstore hunpersisted hdeliveries =>
    refine ⟨hstore ▸ h.wellFormed, hunpersisted ▸ h.reported, hstore ▸ h.drawn, hstore ▸ h.gone, ?_⟩
    rintro ⟨d', hd', hrest⟩
    rw [hdeliveries] at hd'
    exact h.silent ⟨d', List.mem_of_mem_eraseIdx hd', hrest⟩

/-- A stranded event is stranded after every run. -/
theorem Stranded.run (h : Stranded eventId s) (is : List NotificationInput) :
    Stranded eventId (Machine.run (Notifications.step cfg settings) s is) :=
  Machine.run_induct (fun _ i h => h.step i) h is

/-! ## Records -/

/-- The events of the records that are held were drawn. -/
structure Drawn (s : Notifications) : Prop where
  wellFormed : WellFormed s.store
  loops : ∀ phase ∈ s.loops, ∀ record ∈ phase.records, record.eventId < s.store.drawn
  deliveries : ∀ d ∈ s.deliveries, d.record.eventId < s.store.drawn

/-- A loop has the records it had, and those of a claim. -/
theorem records_loopStep {phase : LoopPhase} (hk : s.loops[k]? = some phase) (event : LoopEvent) :
    ∃ phase', (s.loopStep cfg settings k event phase).loops = s.loops.set k phase' ∧
      ∀ record ∈ phase'.records, record ∈ phase.records ∨ ∃ o ∈ s.store.outbox, o.eventId = record.eventId := by
  have hrelease : ∀ {slot : ℕ} {after otherwise : LoopPhase}, (∀ record ∈ after.records, record ∈ phase.records) →
      otherwise.records = [] → ∃ phase', (s.release slot (setLoop k after) (setLoop k otherwise)).loops = s.loops.set k phase' ∧
        ∀ record ∈ phase'.records, record ∈ phase.records ∨ ∃ o ∈ s.store.outbox, o.eventId = record.eventId := by
    intro slot after otherwise hafter hotherwise
    unfold Notifications.release
    split
    · exact ⟨after, rfl, fun record hr => .inl (hafter record hr)⟩
    · exact ⟨otherwise, rfl, by simp [hotherwise]⟩
  cases phase with
  | waiting =>
    refine ⟨_, rfl, ?_⟩
    cases event.stopped <;> nofun
  | acquiring slots =>
    unfold loopStep
    dsimp only
    split
    · refine ⟨_, rfl, ?_⟩
      split <;> nofun
    · split
      · exact ⟨_, rfl, nofun⟩
      · refine ⟨_, rfl, ?_⟩
        split <;> nofun
  | claiming slots =>
    refine ⟨_, rfl, fun record hr => .inr ?_⟩
    cases hfault : event.fault with
    | before | after =>
      rw [hfault] at hr
      cases hr
    | none =>
      rw [hfault] at hr
      dsimp only at hr
      cases hcall : claimOutboxDue cfg event.clock slots.length settings.lease s.store with
      | mk result store' =>
        rw [hcall] at hr
        cases result with
        | error e => cases hr
        | ok records => exact (claimOutboxDue_records (congrArg Prod.fst hcall)).2 record hr
  | aborting slots =>
    cases slots with
    | nil => exact ⟨_, rfl, nofun⟩
    | cons slot slots => exact hrelease nofun rfl
  | claimFailed => exact ⟨_, rfl, nofun⟩
  | returning extra batch =>
    cases extra with
    | zero => exact ⟨_, rfl, fun record hr => .inl hr⟩
    | succ extra =>
      obtain ⟨slots, records, failed⟩ := batch
      cases slots <;> exact hrelease (fun record hr => hr) rfl
  | scheduling batch =>
    obtain ⟨slots, records, failed⟩ := batch
    cases records with
    | nil =>
      refine ⟨.waiting, ?_, nofun⟩
      cases failed with
      | true => rfl
      | false =>
        obtain ⟨lastSuccess, consecutiveErrors, heq⟩ := succeeded_none s event.monotonic
        unfold loopStep
        dsimp only
        rw [if_neg Bool.false_ne_true, heq]
        rfl
    | cons record records =>
      unfold loopStep
      dsimp only
      split
      · exact ⟨_, rfl, fun r hr => .inl (List.mem_cons_of_mem _ hr)⟩
      · exact ⟨_, rfl, fun r hr => .inl hr⟩
  | rejected slot record batch => exact hrelease (fun record hr => hr) rfl
  | unscheduled record batch => exact ⟨_, rfl, fun r hr => .inl hr⟩
  | retrying record batch =>
    have hboth : ∀ result : Settlement, ∀ r ∈
      (if result = .persisted then LoopPhase.scheduling batch else .unpersisted record batch).records,
        r ∈ record :: batch.records := by
      intro result r hr
      split at hr
      · exact List.mem_cons_of_mem _ hr
      · exact hr
    exact ⟨_, rfl, fun r hr => .inl (hboth _ r hr)⟩
  | unpersisted record batch => exact ⟨_, rfl, fun r hr => .inl (List.mem_cons_of_mem _ hr)⟩
  | ended =>
    obtain ⟨hlt, heq⟩ := List.getElem?_eq_some_iff.1 hk
    have hsame : s.loops.set k .ended = s.loops := by rw [← heq, List.set_getElem_self]
    exact ⟨.ended, hsame.symm, nofun⟩

/-- A delivery leaves the loops as they are. -/
theorem loops_deliveryStep (s : Notifications) (k : ℕ) (d : Delivery) (event : DeliveryEvent) :
    (s.deliveryStep cfg settings k d event).loops = s.loops := by
  have hresolution : ∀ {slot : ℕ} {after otherwise : DeliveryPhase},
      (s.releaseResolution slot (setDelivery k d after) (setDelivery k d otherwise)).loops = s.loops := by
    intro slot after otherwise
    unfold releaseResolution
    split <;> rfl
  unfold deliveryStep
  split
  · rfl
  · rfl
  · rfl
  · split <;> rfl
  · split <;> rfl
  · exact hresolution
  · split <;> rfl
  · rfl
  · split <;> rfl
  · rfl
  · split <;> rfl
  · rfl
  · rfl
  · obtain ⟨lastSuccess, consecutiveErrors, heq⟩ := succeeded_some s _ d.record.eventId
    rw [heq]
    rfl
  · unfold Notifications.release
    dsimp only
    split <;> rfl
  · rfl

/-- A resolver leaves the loops as they are. -/
theorem loops_resolverStep (s : Notifications) (slot : ℕ) : (s.resolverStep slot).loops = s.loops := by
  unfold resolverStep releaseResolution
  split
  · split <;> rfl
  · rfl

/-- An effect keeps the store well formed and takes back no id. -/
theorem Effect.drawn_le {input : NotificationInput} (h : Effect cfg settings s input s') (hs : WellFormed s.store) :
    WellFormed s'.store ∧ s.store.drawn ≤ s'.store.drawn := by
  have hmoves : ∀ touched : Option Uuid, StoreMoves cfg touched s.store s'.store →
      WellFormed s'.store ∧ s.store.drawn ≤ s'.store.drawn := by
    intro touched hstore
    refine ⟨hstore.wellFormed hs, ?_⟩
    rcases hstore with heq | ⟨call, clock, heq, -⟩
    · rw [heq]
    · rw [heq]
      exact hs.drawn_le_step cfg (call, clock)
  cases h with
  | idle hstore => exact hmoves _ hstore
  | retried k event record batch hk hstore =>
    refine hmoves (some record.eventId) ?_
    rw [hstore]
    exact moves_outboxFailed _ _ _ _ _ _ _
  | moved k d after hk hafter hsucceeded hstore => exact hmoves _ hstore
  | submitted d hphase hrecord hstore => exact hmoves none (.inl hstore)
  | reportedByLoop k event record batch hk hstore => exact hmoves none (.inl hstore)
  | persisted k d hk hphase hstore => exact hmoves none (.inl hstore)
  | reported k d monotonic hk hphase hstore => exact hmoves none (.inl hstore)
  | finished k d hk hphase hstore => exact hmoves none (.inl hstore)

/-- A delivery is of the record of an earlier one or of a loop. -/
theorem Effect.records {input : NotificationInput} (h : Effect cfg settings s input s') {d' : Delivery} (hd' : d' ∈ s'.deliveries) :
    (∃ d ∈ s.deliveries, d.record = d'.record) ∨ ∃ phase ∈ s.loops, d'.record ∈ phase.records := by
  have hset : ∀ {k : ℕ} {d : Delivery} {after : DeliveryPhase}, s.deliveries[k]? = some d →
      s'.deliveries = s.deliveries.set k { d with phase := after } → ∃ d ∈ s.deliveries, d.record = d'.record := by
    intro k d after hk hdeliveries
    rw [hdeliveries] at hd'
    rcases List.mem_or_eq_of_mem_set hd' with hd' | rfl
    · exact ⟨d', hd', rfl⟩
    · exact ⟨d, List.mem_of_getElem? hk, rfl⟩
  cases h with
  | idle _ _ hdeliveries | retried _ _ _ _ _ _ _ hdeliveries | reportedByLoop _ _ _ _ _ _ _ hdeliveries =>
    exact .inl ⟨d', hdeliveries ▸ hd', rfl⟩
  | submitted d hphase hrecord hstore hunpersisted hdeliveries =>
    rw [hdeliveries, List.mem_append, List.mem_singleton] at hd'
    rcases hd' with hd' | rfl
    · exact .inl ⟨d', hd', rfl⟩
    · exact .inr hrecord
  | moved k d after hk hafter hsucceeded hstore hunpersisted hdeliveries => exact .inl (hset hk hdeliveries)
  | persisted k d hk hphase hstore hunpersisted hdeliveries => exact .inl (hset hk hdeliveries)
  | reported k d monotonic hk hphase hstore hunpersisted hdeliveries => exact .inl (hset hk hdeliveries)
  | finished k d hk hphase hstore hunpersisted hdeliveries =>
    exact .inl ⟨d', List.mem_of_mem_eraseIdx (hdeliveries ▸ hd'), rfl⟩

/-- Every id that the service holds was drawn, after every step. -/
theorem Drawn.step (h : Drawn s) (input : NotificationInput) : Drawn (step cfg settings s input) := by
  have heffect : Effect cfg settings s input (Notifications.step cfg settings s input) := effect_step s input
  obtain ⟨hs, hle⟩ := heffect.drawn_le h.wellFormed
  refine ⟨hs, fun phase hphase record hrecord => ?_, fun d' hd' => ?_⟩
  · refine lt_of_lt_of_le ?_ hle
    have hsame : phase ∈ s.loops → record.eventId < s.store.drawn := fun hmem => h.loops phase hmem record hrecord
    unfold Notifications.step at hphase
    cases input with
    | store call clock =>
      dsimp only at hphase
      split at hphase <;> exact hsame hphase
    | loop k event =>
      dsimp only at hphase
      split at hphase
      · rename_i before hk
        obtain ⟨phase', hloops, hrecords⟩ := @records_loopStep cfg settings _ _ _ hk event
        rw [hloops] at hphase
        rcases List.mem_or_eq_of_mem_set hphase with hphase | rfl
        · exact hsame hphase
        · rcases hrecords record hrecord with hmem | ⟨o, ho, hid⟩
          · exact h.loops before (List.mem_of_getElem? hk) record hmem
          · rw [← hid]
            exact h.wellFormed.eventDrawn o ho
      · exact hsame hphase
    | delivery k event =>
      dsimp only at hphase
      split at hphase
      · rw [loops_deliveryStep] at hphase
        exact hsame hphase
      · exact hsame hphase
    | resolver slot =>
      dsimp only at hphase
      rw [loops_resolverStep] at hphase
      exact hsame hphase
  · refine lt_of_lt_of_le ?_ hle
    rcases heffect.records hd' with ⟨d, hd, hsame⟩ | ⟨phase, hphase, hmem⟩
    · rw [← hsame]
      exact h.deliveries d hd
    · exact h.loops phase hphase _ hmem

/-- Every id that the service holds was drawn, after every run. -/
theorem Drawn.run (h : Drawn s) (is : List NotificationInput) : Drawn (Machine.run (Notifications.step cfg settings) s is) :=
  Machine.run_induct (fun _ i h => h.step i) h is

/-- An event of a loop is a step of it. -/
theorem step_loop {phase : LoopPhase} (hk : s.loops[k]? = some phase) (event : LoopEvent) :
    step cfg settings s (.loop k event) = s.loopStep cfg settings k event phase := by
  unfold Notifications.step
  dsimp only
  rw [hk]

/-- An event of a delivery is a step of it. -/
theorem step_delivery {d : Delivery} (hk : s.deliveries[k]? = some d) (event : DeliveryEvent) :
    step cfg settings s (.delivery k event) = s.deliveryStep cfg settings k d event := by
  unfold Notifications.step
  dsimp only
  rw [hk]

/-- Where an attempt reports an event that is settled, or a reported event is given up, it is stranded. -/
theorem stranded_of_not_recoverable (h : Drawn s) {input : NotificationInput} (hinput : ¬Recoverable cfg settings s input) :
    ∃ e, Stranded e (step cfg settings s input) := by
  cases input with
  | store call clock => exact absurd trivial hinput
  | resolver slot => exact absurd trivial hinput
  | loop k event =>
    obtain ⟨phase, hk, hphase⟩ : ∃ phase, s.loops[k]? = some phase ∧ ¬RecoverableLoop cfg settings s event phase := by
      by_contra hall
      exact hinput fun phase hk => by_contra fun hphase => hall ⟨phase, hk, hphase⟩
    rw [step_loop hk]
    have hmem := List.mem_of_getElem? hk
    cases phase with
    | unpersisted record batch =>
      have hdrawn := h.loops _ hmem record List.mem_cons_self
      obtain ⟨hgone, hsilent⟩ := not_or.1 hphase
      exact ⟨record.eventId, h.wellFormed, Finset.mem_insert_self _ _, hdrawn, hgone, hsilent⟩
    | retrying record batch =>
      have hdrawn := h.loops _ hmem record List.mem_cons_self
      have hgives : GivesUp cfg settings record event s.store := by
        by_contra hnot
        exact hphase fun hgives => absurd hgives hnot
      obtain ⟨hreported, hsilent⟩ : record.eventId ∈ s.unpersisted ∧ ¬Reporting record.eventId s := by
        by_contra hnot
        exact hphase fun _ => or_iff_not_imp_left.2 fun hmem => by_contra fun hsilent => hnot ⟨not_not.1 hmem, hsilent⟩
      obtain ⟨hexhausted, hfault, htaken⟩ := hgives
      have hok : (outboxFailed cfg record.eventId record.deliveryAttemptId event.error
          (event.clock.now + retryDelay (record.attempts + 1)) true s.store).1 = .ok true := by
        unfold isTrue at htaken
        split at htaken
        · rename_i heq
          rw [heq, htaken]
        · cases htaken
      have hstore : (retryDelivery cfg settings record event.error false event.clock event.fault s.store).2 =
          (outboxFailed cfg record.eventId record.deliveryAttemptId event.error (event.clock.now + retryDelay (record.attempts + 1)) true
            s.store).2 := by
        unfold retryDelivery
        dsimp only
        rw [Bool.false_or, decide_eq_true hexhausted]
        unfold settlement
        cases hcase : event.fault with
        | before caught => exact absurd hcase (hfault caught)
        | after caught => rfl
        | none =>
          dsimp only
          split
          · rename_i heq
            rw [heq]
          · rename_i heq
            rw [heq]
          · rename_i heq
            rw [heq]
      have hmoves : StoreMoves cfg (some record.eventId) s.store
          (retryDelivery cfg settings record event.error false event.clock event.fault s.store).2 := moves_outboxFailed _ _ _ _ _ _ _
      have hdrawn' := (@Effect.drawn_le cfg settings _ _ _ (effect_loopStep hk event) h.wellFormed).2
      refine ⟨record.eventId, hmoves.wellFormed h.wellFormed, hreported, hdrawn.trans_le hdrawn', ?_, hsilent⟩
      change ¬Live record.eventId (retryDelivery cfg settings record event.error false event.clock event.fault s.store).2
      rw [hstore]
      exact not_live_of_settleClaim h.wellFormed (fun _ => rfl) hok
    | waiting | acquiring | claiming | aborting | claimFailed | returning | scheduling | rejected | unscheduled | ended =>
      exact absurd trivial hphase
  | delivery k event =>
    cases event with
    | next monotonic =>
      obtain ⟨d, hk, hphase, hlost⟩ : ∃ d, s.deliveries[k]? = some d ∧ d.phase = .unpersisted ∧
          ¬(Live d.record.eventId s.store ∨ Reporting d.record.eventId s) := by
        by_contra hall
        exact hinput fun d hk hphase => by_contra fun hlost => hall ⟨d, hk, hphase, hlost⟩
      obtain ⟨hgone, hsilent⟩ := not_or.1 hlost
      have hdrawn := h.deliveries d (List.mem_of_getElem? hk)
      rw [step_delivery hk]
      obtain ⟨record, slot, phase⟩ := d
      cases hphase
      refine ⟨record.eventId, h.wellFormed, Finset.mem_insert_self _ _, hdrawn, hgone, ?_⟩
      rintro ⟨d', hd', hde, hphase'⟩
      rcases List.mem_or_eq_of_mem_set hd' with hd' | rfl
      · exact hsilent ⟨d', hd', hde, hphase'⟩
      · cases hphase'
    | resolve | start | resolved | outcome | store => exact absurd trivial hinput

/-- Notification health recovers, over every run of the loops and of any number of current and stale deliveries, with calls of the store
that raise before or after they commit: while each attempt that reports an event finds it still to be delivered, and no loop gives up a
reported event, every reported event is to be delivered whenever no delivery is in flight; so none is reported once all are delivered or
dead, and the health timestamp is refreshed. And after an action that does otherwise an event that is not to be delivered is reported for
good. -/
theorem notification_health (cfg : StoreConfig) (settings : NotificationSettings) (workers : ℕ) {store : Store}
    (hstore : Store.Reachable cfg store) (is : List NotificationInput) :
    (Machine.Guarded (step cfg settings) (Recoverable cfg settings) (init settings workers store) is →
      let s := Machine.run (step cfg settings) (init settings workers store) is
      s.deliveries = [] → (∀ e ∈ s.unpersisted, Live e s.store) ∧
        ((∀ o ∈ s.store.outbox, o.state.undelivered = false) →
          s.unpersisted = ∅ ∧ ∀ monotonic, (s.succeeded monotonic none).lastSuccess = some monotonic)) ∧
    ∀ input js, ¬Recoverable cfg settings (Machine.run (step cfg settings) (init settings workers store) is) input →
      let s := Machine.run (step cfg settings) (init settings workers store) (is ++ input :: js)
      (∃ e ∈ s.unpersisted, ¬Live e s.store) ∧ ∀ monotonic, (s.succeeded monotonic none).lastSuccess = s.lastSuccess := by
  constructor
  · intro hguarded s hdeliveries
    have hinit : Healthy (init settings workers store) := ⟨hstore.wellFormed, fun e he => absurd he (Finset.notMem_empty e)⟩
    have h : Healthy s := Machine.run_induct_of_guarded (fun _ _ h hinput => h.step hinput) hguarded hinit
    have hlive : ∀ e ∈ s.unpersisted, Live e s.store := by
      intro e he
      rcases h.live e he with hlive | ⟨d, hd, -⟩
      · exact hlive
      · rw [hdeliveries] at hd
        exact absurd hd List.not_mem_nil
    refine ⟨hlive, fun hsettled => ?_⟩
    have hnone : s.unpersisted = ∅ := by
      rw [Finset.eq_empty_iff_forall_notMem]
      intro e he
      obtain ⟨o, ho, -, hstate⟩ := hlive e he
      rw [hsettled o ho] at hstate
      cases hstate
    refine ⟨hnone, fun monotonic => ?_⟩
    have hdiscarded : (s.discard none).unpersisted = ∅ := hnone
    unfold succeeded
    rw [if_pos hdiscarded]
  · intro input js hinput s
    have hinit : Drawn (init settings workers store) := by
      refine ⟨hstore.wellFormed, fun phase hphase record hrecord => ?_, fun d hd => absurd hd List.not_mem_nil⟩
      rw [List.eq_of_mem_replicate hphase] at hrecord
      exact absurd hrecord List.not_mem_nil
    obtain ⟨e, hstranded⟩ := stranded_of_not_recoverable (hinit.run is) hinput
    have h : Stranded e s := by
      have hrun := @Stranded.run cfg settings _ _ hstranded js
      rw [← Machine.run_cons, ← Machine.run_append] at hrun
      exact hrun
    refine ⟨⟨e, h.reported, h.gone⟩, fun monotonic => ?_⟩
    have hsome : (s.discard none).unpersisted ≠ ∅ := Finset.ne_empty_of_mem h.reported
    unfold succeeded
    rw [if_neg hsome]
    rfl

/-! ## A delivery that outlives its lease -/

namespace Late

def bounds : NotificationSettings := { maxConcurrentDeliveries := 2, maxAttempts := 12, lease := 20 * Instant.second }

/-- An action of the loop at a time in seconds. -/
def loop (seconds : Int) : NotificationInput := .loop 0 { clock := SharkRail.Sample.clockAt seconds }

/-- The loop reserves the slots that are free, claims what is due and submits it: `actions` actions at one time. -/
def loops (actions : ℕ) (seconds : Int) : List NotificationInput := List.replicate actions (loop seconds)

def next (k : ℕ) : NotificationInput := .delivery k (.next 0)

/-- A delivery runs until the callback has answered with success; its resolver has the slot that is named. -/
def posts (k slot : ℕ) : List NotificationInput :=
  [.delivery k (.resolve true), .delivery k (.start true false), .resolver slot, .delivery k .resolved, .delivery k (.outcome .delivered)]

/-- A delivery calls the store. -/
def calls (k : ℕ) (seconds : Int) : NotificationInput := .delivery k (.store (SharkRail.Sample.clockAt seconds) .none "error")

/-- A delivery calls the store, which raises. -/
def fails (k : ℕ) (seconds : Int) : NotificationInput := .delivery k (.store (SharkRail.Sample.clockAt seconds) (.before true) "error")

/-- An event is claimed and delivered; the store raises in the three calls that would settle it, and it is reported as not persisted. -/
def unsettledDelivery : List NotificationInput :=
  loops 9 5 ++ [next 0] ++ posts 0 0 ++ [fails 0 6, fails 0 7, next 0, fails 0 8, next 0, next 0]

/-- When the lease is over the event is claimed again, delivered and settled. -/
def recovered : List NotificationInput :=
  unsettledDelivery ++ loops 9 30 ++ [next 0] ++ posts 0 1 ++ [calls 0 31, next 0, next 0]

/-- An event is claimed; the delivery outlives the lease, and the event is claimed again, delivered and settled. Then the first delivery is
answered too: the store refuses what it reports, three times, and the event is reported as not persisted. -/
def outlived : List NotificationInput :=
  loops 9 5 ++ [next 0] ++ loops 8 30 ++ [next 1] ++ posts 1 0 ++ [calls 1 31, next 1, next 1] ++ posts 0 1 ++
    [calls 0 32, calls 0 32, next 0, calls 0 32, next 0, next 0]

/-- The workers of a service with one notification to deliver. -/
def initial : Notifications := init bounds 1 SharkRail.Sample.finishedStore

def final (is : List NotificationInput) : Notifications := Machine.run (step SharkRail.Sample.cfg bounds) initial is

end Late

open Late in
/-- An event that was reported as not persisted is settled by a later delivery: it is no longer reported, and the health timestamp is
refreshed. -/
theorem notification_health_recovered :
    3 ∈ (final unsettledDelivery).unpersisted ∧ (final recovered).unpersisted = ∅ ∧
      ∀ monotonic, ((final recovered).succeeded monotonic none).lastSuccess = some monotonic := by
  have hreach : Store.Reachable SharkRail.Sample.cfg SharkRail.Sample.finishedStore := ⟨SharkRail.Sample.finishedRun, rfl⟩
  have hhealth := (notification_health SharkRail.Sample.cfg bounds 1 hreach recovered).1
  have hrun : Machine.Guarded (step SharkRail.Sample.cfg bounds) (Recoverable SharkRail.Sample.cfg bounds) initial recovered ∧
      (final recovered).deliveries.length = 0 ∧ ∀ o ∈ (final recovered).store.outbox, o.state.undelivered = false := by
    decide +kernel
  obtain ⟨hguarded, hdone, hsettled⟩ := hrun
  obtain ⟨-, hrecovered⟩ := hhealth hguarded (List.length_eq_zero_iff.1 hdone)
  refine ⟨by decide +kernel, ?_⟩
  generalize hfinal : final recovered = s at *
  unfold final initial at hfinal
  rw [hfinal] at hrecovered
  exact hrecovered hsettled

open Late in
/-- The late report of a delivery that lost its claim stays, though the event was delivered and no delivery is in flight. -/
theorem late_report_stays : ¬∀ is, (final is).deliveries = [] → ∀ e ∈ (final is).unpersisted, Live e (final is).store := by
  intro h
  have hrun : (final outlived).deliveries.length = 0 ∧ 3 ∈ (final outlived).unpersisted ∧ ¬Live 3 (final outlived).store := by
    decide +kernel
  have hlive := h outlived (List.length_eq_zero_iff.1 hrun.1)
  generalize final outlived = s at hrun hlive
  exact hrun.2.2 (hlive 3 hrun.2.1)

end Notifications

end Service

end SharkRail
