import Mathlib
import SharkRail.Lib.Machine
import SharkRail.Lib.Semaphore
import SharkRail.Service.Callback
import SharkRail.Store.Run

/-!
# The notification workers

`_notification_loop`, `_deliver_boundary` and `_resolve_callback_destination`, one action at a time: a slot is taken or given back, the
store is called, the health state is changed under its lock. Any number of loops, of deliveries of the pool and of resolver threads are in
some phase each, and an input says which one acts and what it meets. What a delivery meets on the network is the outcome that `deliver`
gives.
-/

namespace SharkRail

namespace Service

/-- `NotificationSettings`, with the lease that the loops ask for. -/
structure NotificationSettings where
  maxConcurrentDeliveries : ℕ
  maxAttempts : ℕ
  lease : Instant

/-- How a call of the store ends beside what the store makes of it: with an exception, raised before its transaction was committed or
after. Whether `_deliver` takes the exception is of its class. -/
inductive CallFault where
  | none
  | before (caught : Bool)
  | after (caught : Bool)
  deriving DecidableEq

/-- How a settlement comes back: `StoreError` is a `RuntimeError`, so `_deliver` takes it, also where it says that nothing was met. -/
inductive Settlement where
  | persisted
  | raised (caught : Bool)
  deriving DecidableEq

/-- A settlement of a claim, with the error that is raised where it returns `False`. -/
def settlement (fault : CallFault) (call : Store → Outcome Bool) (store : Store) : Settlement × Store :=
  match fault with
  | .before caught => (.raised caught, store)
  | .after caught => (.raised caught, (call store).2)
  | .none =>
    match call store with
    | (.ok true, store) => (.persisted, store)
    | (.ok false, store) => (.raised true, store)
    | (.error _, store) => (.raised true, store)

/-- What is left of a claim: the slots that are reserved for its records, the records, and `scheduling_failed`. -/
structure Batch where
  slots : List ℕ
  records : List OutboxRecord
  failed : Bool := false

/-- Where `_notification_loop` is. -/
inductive LoopPhase where
  | waiting
  | acquiring (slots : List ℕ)
  | claiming (slots : List ℕ)
  | aborting (slots : List ℕ)
  | claimFailed
  | returning (extra : ℕ) (batch : Batch)
  | scheduling (batch : Batch)
  | rejected (slot : ℕ) (record : OutboxRecord) (batch : Batch)
  | unscheduled (record : OutboxRecord) (batch : Batch)
  | retrying (record : OutboxRecord) (batch : Batch)
  | unpersisted (record : OutboxRecord) (batch : Batch)
  | ended

/-- Where a delivery is: it was submitted, it runs `_deliver`, it reports how that ended, it gives its slot back. -/
inductive DeliveryPhase where
  | queued
  | delivering
  | starting (slot : ℕ)
  | startFailed (slot : ℕ) (caught : Bool)
  | resolving (slot : ℕ)
  | posting
  | refusing
  | persisting
  | retrying (permanent : Bool)
  | raised
  | failing
  | unpersisted
  | succeeded
  | finishing
  deriving DecidableEq

structure Delivery where
  record : OutboxRecord
  slot : ℕ
  phase : DeliveryPhase

/-- What the notification workers share, with the threads of the resolver that hold a slot. `overReleased` says that a release raised. -/
structure Notifications where
  store : Store
  slots : BoundedSemaphore
  resolutionSlots : BoundedSemaphore
  loops : List LoopPhase
  deliveries : List Delivery := []
  resolvers : List ℕ := []
  unpersisted : Finset Uuid := ∅
  lastSuccess : Option Instant := none
  errors : ℕ := 0
  consecutiveErrors : ℕ := 0
  overReleased : Bool := false

/-- What a loop meets: the clocks, how the store ends, whether the executor takes a record, the text of its exception, and whether the
service stops. -/
structure LoopEvent where
  clock : Reading
  monotonic : Instant := 0
  fault : CallFault := .none
  submitted : Bool := true
  error : String := ""
  stopped : Bool := false

/-- What a delivery meets. -/
inductive DeliveryEvent where
  | next (monotonic : Instant)
  | resolve (timeLeft : Bool)
  | start (ok caught : Bool)
  | resolved
  | outcome (outcome : DeliveryOutcome)
  | store (clock : Reading) (fault : CallFault) (error : String)

/-- An action of another thread of the service on the store, of a loop, of a delivery or of a resolver thread. -/
inductive NotificationInput where
  | store (call : StoreCall) (clock : Reading)
  | loop (k : ℕ) (event : LoopEvent)
  | delivery (k : ℕ) (event : DeliveryEvent)
  | resolver (slot : ℕ)

/-- The transactions of the outbox are called by the notification workers, and a store is opened before there are any. -/
def ofOtherThreads : StoreCall → Bool
  | .claimOutboxDue .. | .outboxDelivered .. | .outboxFailed .. | .reopen => false
  | _ => true

namespace Notifications

/-- `__init__`. -/
def init (settings : NotificationSettings) (workers : ℕ) (store : Store) : Notifications where
  store
  slots := .new settings.maxConcurrentDeliveries
  resolutionSlots := .new settings.maxConcurrentDeliveries
  loops := List.replicate workers .waiting

/-- `_notification_unpersisted.discard(...)`. -/
def discard (eventId : Option Uuid) (s : Notifications) : Notifications :=
  match eventId with
  | some eventId => { s with unpersisted := s.unpersisted.erase eventId }
  | none => s

/-- `_notification_succeeded`. -/
def succeeded (monotonic : Instant) (eventId : Option Uuid) (s : Notifications) : Notifications :=
  if (s.discard eventId).unpersisted = ∅ then { s.discard eventId with lastSuccess := some monotonic, consecutiveErrors := 0 }
  else s.discard eventId

/-- `_notification_failed`. -/
def failed (eventId : Option Uuid) (s : Notifications) : Notifications :=
  { s with
    unpersisted := match eventId with
      | some eventId => insert eventId s.unpersisted
      | none => s.unpersisted
    errors := s.errors + 1
    consecutiveErrors := s.consecutiveErrors + 1 }

def setLoop (k : ℕ) (phase : LoopPhase) (s : Notifications) : Notifications := { s with loops := s.loops.set k phase }

def setDelivery (k : ℕ) (delivery : Delivery) (phase : DeliveryPhase) (s : Notifications) : Notifications :=
  { s with deliveries := s.deliveries.set k { delivery with phase } }

/-- A release of a delivery slot; where it raises, the thread ends. -/
def release (slot : ℕ) (done : Notifications → Notifications) (ended : Notifications → Notifications) (s : Notifications) : Notifications :=
  match s.slots.release slot with
  | some slots => done { s with slots }
  | none => ended { s with overReleased := true }

variable (cfg : StoreConfig) (settings : NotificationSettings)

/-- `min(3600.0, 5.0 * (2 ** min(attempts, 9)))`. -/
def retryDelay (attempts : ℕ) : Instant := min (3600 * Instant.second) (5 * 2 ^ min attempts 9 * Instant.second)

/-- `_retry_delivery`, with the text of the error. -/
def retryDelivery (record : OutboxRecord) (error : String) (permanent : Bool) (clock : Reading) (fault : CallFault)
    (store : Store) : Settlement × Store :=
  let attempts := record.attempts + 1
  let exhausted := decide (settings.maxAttempts ≤ attempts)
  settlement fault
    (Store.outboxFailed cfg record.eventId record.deliveryAttemptId error (clock.now + retryDelay attempts) (permanent || exhausted)) store

/-! ## The loop -/

/-- `claim_outbox_due(capacity, ...)` of a loop that reserved slots, and the slots that are handed back. -/
def claim (slots : List ℕ) (event : LoopEvent) (store : Store) : LoopPhase × Store :=
  let call := Store.claimOutboxDue cfg event.clock slots.length settings.lease
  match event.fault with
  | .before _ => (.aborting slots, store)
  | .after _ => (.aborting slots, (call store).2)
  | .none =>
    match call store with
    | (.ok records, store) => (.returning (slots.length - records.length) { slots, records }, store)
    | (.error _, store) => (.aborting slots, store)

/-- An action of a loop. -/
def loopStep (k : ℕ) (event : LoopEvent) (s : Notifications) : LoopPhase → Notifications
  | .waiting => s.setLoop k (if event.stopped then .ended else .acquiring [])
  | .acquiring slots =>
    if slots.length = settings.maxConcurrentDeliveries then s.setLoop k (if slots = [] then .waiting else .claiming slots)
    else
      match s.slots.acquire with
      | some (slot, sem) => { s with slots := sem }.setLoop k (.acquiring (slots ++ [slot]))
      | none => s.setLoop k (if slots = [] then .waiting else .claiming slots)
  | .claiming slots =>
    let (phase, store) := claim cfg settings slots event s.store
    { s with store }.setLoop k phase
  | .aborting [] => s.setLoop k .claimFailed
  | .aborting (slot :: slots) => s.release slot (setLoop k (.aborting slots)) (setLoop k .ended)
  | .claimFailed => (s.failed none).setLoop k .waiting
  | .returning 0 batch => s.setLoop k (.scheduling batch)
  | .returning (extra + 1) batch =>
    match batch.slots with
    | [] => s.release s.slots.acquired (setLoop k (.returning extra batch)) (setLoop k .ended)
    | slot :: slots => s.release slot (setLoop k (.returning extra { batch with slots })) (setLoop k .ended)
  | .scheduling batch =>
    match batch.records with
    | [] => (if batch.failed then s else s.succeeded event.monotonic none).setLoop k .waiting
    | record :: records =>
      let slot := batch.slots.headD s.slots.acquired
      let rest := { batch with slots := batch.slots.tail, records }
      if event.submitted then ({ s with deliveries := s.deliveries ++ [⟨record, slot, .queued⟩] } : Notifications).setLoop k
        (.scheduling rest)
      else s.setLoop k (.rejected slot record rest)
  | .rejected slot record batch =>
    s.release slot (setLoop k (.unscheduled record { batch with failed := true })) (setLoop k .ended)
  | .unscheduled record batch => (s.failed none).setLoop k (.retrying record batch)
  | .retrying record batch =>
    let (result, store) := retryDelivery cfg settings record event.error false event.clock event.fault s.store
    { s with store }.setLoop k (if result = Settlement.persisted then .scheduling batch else .unpersisted record batch)
  | .unpersisted record batch => (s.failed (some record.eventId)).setLoop k (.scheduling batch)
  | .ended => s

/-! ## The delivery -/

/-- How `_deliver` leaves a call of the store that settles the claim, where its `except` clause takes the exceptions it is for. -/
def afterPersisting : Settlement → DeliveryPhase
  | .persisted => .succeeded
  | .raised true => .retrying false
  | .raised false => .raised

/-- How a call of the store ends that no `except` clause of `_deliver` is around. -/
def afterRetrying : Settlement → DeliveryPhase
  | .persisted => .succeeded
  | .raised _ => .raised

/-- The end of what a delivery does on the network. -/
def afterNetwork : DeliveryOutcome → DeliveryPhase
  | .refused => .refusing
  | .delivered => .persisting
  | .retry permanent => .retrying permanent
  | .raised => .raised

/-- The call of the store that a delivery makes in its phase, and the phase after it. -/
def deliveryCall (record : OutboxRecord) (clock : Reading) (fault : CallFault) (error : String) (store : Store) :
    DeliveryPhase → Option (DeliveryPhase × Store)
  | .refusing =>
    let (result, store) := settlement fault (Store.outboxFailed cfg record.eventId record.deliveryAttemptId
      "callback endpoint no longer belongs to Job tenant" clock.now true) store
    some (afterRetrying result, store)
  | .persisting =>
    let (result, store) := settlement fault (Store.outboxDelivered cfg clock record.eventId record.deliveryAttemptId) store
    some (afterPersisting result, store)
  | .retrying permanent =>
    let (result, store) := retryDelivery cfg settings record error permanent clock fault store
    some (afterRetrying result, store)
  | .failing =>
    let (result, store) := retryDelivery cfg settings record error false clock fault store
    some (if result = Settlement.persisted then .succeeded else .unpersisted, store)
  | _ => none

/-- A release of a resolver slot by the delivery that could not start its thread. -/
def releaseResolution (slot : ℕ) (done ended : Notifications → Notifications) (s : Notifications) : Notifications :=
  match s.resolutionSlots.release slot with
  | some resolutionSlots => done { s with resolutionSlots }
  | none => ended { s with overReleased := true }

/-- An action of a delivery. -/
def deliveryStep (k : ℕ) (d : Delivery) (event : DeliveryEvent) (s : Notifications) : Notifications :=
  match d.phase, event with
  | .queued, .next _ => s.setDelivery k d .delivering
  -- an endpoint that is not there or another tenant's; a secret that cannot be read
  | .delivering, .outcome .refused => s.setDelivery k d .refusing
  | .delivering, .outcome .raised => s.setDelivery k d .raised
  | .delivering, .resolve timeLeft =>
    match timeLeft, s.resolutionSlots.acquire with
    | true, some (slot, sem) => { s with resolutionSlots := sem }.setDelivery k d (.starting slot)
    | _, _ => s.setDelivery k d (.retrying false)
  | .starting slot, .start ok caught =>
    if ok then { s with resolvers := s.resolvers ++ [slot] }.setDelivery k d (.resolving slot)
    else s.setDelivery k d (.startFailed slot caught)
  | .startFailed slot caught, .next _ =>
    s.releaseResolution slot (setDelivery k d (if caught then .retrying false else .raised)) (setDelivery k d .raised)
  -- `completed` is set by the thread once its slot is free; the time to wait for it may be over before
  | .resolving slot, .resolved => if s.resolvers.contains slot then s else s.setDelivery k d .posting
  | .resolving _, .outcome (.retry false) => s.setDelivery k d (.retrying false)
  | .resolving slot, .outcome .raised => if s.resolvers.contains slot then s else s.setDelivery k d .raised
  | .posting, .outcome outcome => s.setDelivery k d (afterNetwork outcome)
  | phase, .store clock fault error =>
    match deliveryCall cfg settings d.record clock fault error s.store phase with
    | some (phase, store) => { s with store }.setDelivery k d phase
    | none => s
  | .raised, .next _ => (s.failed none).setDelivery k d .failing
  | .unpersisted, .next _ => (s.failed (some d.record.eventId)).setDelivery k d .finishing
  | .succeeded, .next monotonic => (s.succeeded monotonic (some d.record.eventId)).setDelivery k d .finishing
  | .finishing, .next _ =>
    let gone := fun (s : Notifications) => { s with deliveries := s.deliveries.eraseIdx k }
    s.release d.slot gone gone
  | _, _ => s

/-- A resolver thread has its result or its error: it gives its slot back and sets `completed`. -/
def resolverStep (slot : ℕ) (s : Notifications) : Notifications :=
  if s.resolvers.contains slot then
    s.releaseResolution slot (fun s => { s with resolvers := s.resolvers.erase slot }) id
  else s

/-- An action: a thread that is not there does nothing. -/
def step (s : Notifications) : NotificationInput → Notifications
  | .store call clock => if ofOtherThreads call then { s with store := Store.step cfg s.store (call, clock) } else s
  | .loop k event =>
    match s.loops[k]? with
    | some phase => s.loopStep cfg settings k event phase
    | none => s
  | .delivery k event =>
    match s.deliveries[k]? with
    | some delivery => s.deliveryStep cfg settings k delivery event
    | none => s
  | .resolver slot => s.resolverStep slot

end Notifications

end Service

end SharkRail
