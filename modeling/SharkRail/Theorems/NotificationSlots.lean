import SharkRail.Lemmas.Notifications

/-!
# Slots of the notification workers

A delivery slot is held by the loop that reserved it and then by the delivery that was submitted with it; a resolver slot is held by the
delivery until its thread runs, and then by the thread, also when the delivery waits no longer. In every state what is held accounts for
both semaphores (`Conserved`), so no slot is lost and none is released twice.
-/

namespace SharkRail

namespace Service

open BoundedSemaphore

variable {cfg : StoreConfig} {settings : NotificationSettings}

namespace LoopPhase

/-- The delivery slots that a loop holds. -/
def slots : LoopPhase → List ℕ
  | .waiting | .claimFailed | .ended => []
  | .acquiring slots | .claiming slots | .aborting slots => slots
  | .returning _ batch | .scheduling batch | .unscheduled _ batch | .retrying _ batch | .unpersisted _ batch => batch.slots
  | .rejected slot _ batch => slot :: batch.slots

/-- A loop holds a slot for each of its records, and those it has yet to hand back. -/
def Balanced : LoopPhase → Prop
  | .returning extra batch => batch.slots.length = extra + batch.records.length
  | .scheduling batch | .rejected _ _ batch | .unscheduled _ batch | .retrying _ batch | .unpersisted _ batch =>
    batch.slots.length = batch.records.length
  | .waiting | .acquiring _ | .claiming _ | .aborting _ | .claimFailed | .ended => True

end LoopPhase

/-- The resolver slot that a delivery holds, before its thread runs. -/
def DeliveryPhase.slots : DeliveryPhase → List ℕ
  | .starting slot | .startFailed slot _ => [slot]
  | _ => []

namespace Notifications

variable {s s' : Notifications} {k slot : ℕ} {phase phase' : LoopPhase}

/-- The delivery slots that are held, and the resolver slots. -/
def slotsHeld (s : Notifications) : List ℕ := s.loops.flatMap LoopPhase.slots ++ s.deliveries.flatMap fun d => [d.slot]

def resolutionsHeld (s : Notifications) : List ℕ := s.deliveries.flatMap (fun d => d.phase.slots) ++ s.resolvers

/-- What is held accounts for both semaphores. -/
structure Conserved (settings : NotificationSettings) (s : Notifications) : Prop where
  bound : s.slots.bound = settings.maxConcurrentDeliveries
  resolutionBound : s.resolutionSlots.bound = settings.maxConcurrentDeliveries
  accounts : Accounts s.slotsHeld s.slots
  resolutions : Accounts s.resolutionsHeld s.resolutionSlots
  balanced : ∀ phase ∈ s.loops, phase.Balanced
  neverOver : s.overReleased = false

theorem conserved_init (settings : NotificationSettings) (workers : ℕ) (store : Store) :
    Conserved settings (init settings workers store) := by
  have hnone : (init settings workers store).slotsHeld = [] := by
    unfold slotsHeld init
    rw [List.append_eq_nil_iff, List.flatMap_eq_nil_iff]
    refine ⟨fun phase hphase => ?_, rfl⟩
    rw [List.eq_of_mem_replicate hphase]
    rfl
  refine ⟨rfl, rfl, ?_, accounts_new _, fun phase hphase => ?_, rfl⟩
  · rw [hnone]
    exact accounts_new _
  · rw [List.eq_of_mem_replicate hphase]
    trivial

/-! ## What is not of slots -/

/-- The store and the health state are not of slots. -/
theorem Conserved.congr (h : Conserved settings s) (hslots : s'.slots = s.slots) (hresolutions : s'.resolutionSlots = s.resolutionSlots)
    (hloops : s'.loops = s.loops) (hdeliveries : s'.deliveries = s.deliveries) (hresolvers : s'.resolvers = s.resolvers)
    (hover : s'.overReleased = s.overReleased) : Conserved settings s' := by
  obtain ⟨hbound, hresolutionBound, haccounts, hheld, hbalanced, hnever⟩ := h
  unfold slotsHeld at haccounts
  unfold resolutionsHeld at hheld
  refine ⟨?_, ?_, ?_, ?_, ?_, ?_⟩
  · rwa [hslots]
  · rwa [hresolutions]
  · unfold slotsHeld
    rwa [hslots, hloops, hdeliveries]
  · unfold resolutionsHeld
    rwa [hresolutions, hdeliveries, hresolvers]
  · rwa [hloops]
  · rwa [hover]

theorem Conserved.withStore (h : Conserved settings s) (store : Store) :
    Conserved settings { s with store } := h.congr rfl rfl rfl rfl rfl rfl

theorem Conserved.failed (h : Conserved settings s) (eventId : Option Uuid) : Conserved settings (s.failed eventId) :=
  h.congr rfl rfl rfl rfl rfl rfl

/-- `_notification_succeeded` changes the health state. -/
theorem succeeded_eq (s : Notifications) (monotonic : Instant) (eventId : Option Uuid) :
    ∃ unpersisted lastSuccess consecutiveErrors,
      s.succeeded monotonic eventId = { s with unpersisted, lastSuccess, consecutiveErrors } := by
  unfold succeeded
  split <;> cases eventId <;> exact ⟨_, _, _, rfl⟩

theorem Conserved.succeeded (h : Conserved settings s) (monotonic : Instant) (eventId : Option Uuid) :
    Conserved settings (s.succeeded monotonic eventId) := by
  obtain ⟨unpersisted, lastSuccess, consecutiveErrors, heq⟩ := succeeded_eq s monotonic eventId
  rw [heq]
  exact h.congr rfl rfl rfl rfl rfl rfl

/-! ## A loop -/

/-- A loop goes on and the delivery slots change hands: what it held before and the other holders account for the semaphore before, what
it holds after and they do after. -/
theorem Conserved.loop (h : Conserved settings s) (hk : s.loops[k]? = some phase) :
    ∃ rest, Accounts (phase.slots ++ rest) s.slots ∧ ∀ phase' sem, phase'.Balanced → sem.bound = s.slots.bound →
      Accounts (phase'.slots ++ rest) sem → Conserved settings ({ s with slots := sem }.setLoop k phase') := by
  obtain ⟨rest, hbefore, hafter, -⟩ := List.exists_flatMap_rest LoopPhase.slots hk
  refine ⟨rest ++ s.deliveries.flatMap fun d => [d.slot], ?_, fun phase' sem hbalanced hbound haccounts => ?_⟩
  · rw [← List.append_assoc]
    exact h.accounts.perm (hbefore.symm.append_right _)
  · refine ⟨hbound.trans h.bound, h.resolutionBound, ?_, h.resolutions, fun p hp => ?_, h.neverOver⟩
    · rw [← List.append_assoc] at haccounts
      exact haccounts.perm ((hafter phase').append_right _)
    · rcases List.mem_or_eq_of_mem_set hp with hp | rfl
      · exact h.balanced p hp
      · exact hbalanced

/-- A loop goes on with the slots it has. -/
theorem Conserved.setLoop (h : Conserved settings s) (hk : s.loops[k]? = some phase) (hslots : phase'.slots = phase.slots)
    (hbalanced : phase'.Balanced) : Conserved settings (s.setLoop k phase') := by
  obtain ⟨rest, haccounts, hgo⟩ := h.loop hk
  exact hgo phase' s.slots hbalanced rfl (hslots ▸ haccounts)

theorem Conserved.acquire (h : Conserved settings s) (hk : s.loops[k]? = some phase) {sem : BoundedSemaphore}
    (hacquire : s.slots.acquire = some (slot, sem)) (hslots : phase'.slots.Perm (slot :: phase.slots)) (hbalanced : phase'.Balanced) :
    Conserved settings ({ s with slots := sem }.setLoop k phase') := by
  obtain ⟨rest, haccounts, hgo⟩ := h.loop hk
  exact hgo phase' sem hbalanced (bound_of_acquire hacquire) ((haccounts.acquire hacquire).perm (hslots.append_right rest))

/-- A slot that a loop holds is released without a `ValueError`. -/
theorem Conserved.release (h : Conserved settings s) (hk : s.loops[k]? = some phase) (phase' : LoopPhase)
    (hslots : phase.slots = slot :: phase'.slots) (hbalanced : phase'.Balanced) (ended : Notifications → Notifications) :
    Conserved settings (s.release slot (Notifications.setLoop k phase') ended) := by
  obtain ⟨rest, haccounts, hgo⟩ := h.loop hk
  rw [hslots, List.cons_append] at haccounts
  obtain ⟨sem, hrelease, haccounts', hbound⟩ := haccounts.release
  unfold Notifications.release
  rw [hrelease]
  exact hgo phase' sem hbalanced hbound haccounts'

/-- A record is submitted with its slot. -/
theorem Conserved.submit (h : Conserved settings s) (hk : s.loops[k]? = some phase) (phase' : LoopPhase) {record : OutboxRecord}
    (hslots : phase.slots = slot :: phase'.slots) (hbalanced : phase'.Balanced) :
    Conserved settings (({ s with deliveries := s.deliveries ++ [⟨record, slot, .queued⟩] } : Notifications).setLoop k phase') := by
  obtain ⟨rest, hbefore, hafter, -⟩ := List.exists_flatMap_rest LoopPhase.slots hk
  refine ⟨h.bound, h.resolutionBound, ?_, ?_, fun p hp => ?_, h.neverOver⟩
  · refine h.accounts.perm ?_
    unfold slotsHeld Notifications.setLoop
    rw [List.flatMap_append, ← List.append_assoc]
    refine (List.perm_append_comm.trans ?_)
    rw [List.flatMap_cons, List.flatMap_nil, List.append_nil, List.singleton_append]
    refine List.Perm.trans (((hafter phase').append_right _).cons slot) ?_
    rw [← List.cons_append, ← List.cons_append, ← hslots]
    exact hbefore.symm.append_right _
  · unfold resolutionsHeld Notifications.setLoop
    rw [List.flatMap_append, List.flatMap_cons, List.flatMap_nil]
    exact h.resolutions.perm (by simp [DeliveryPhase.slots, resolutionsHeld])
  · rcases List.mem_or_eq_of_mem_set hp with hp | rfl
    · exact h.balanced p hp
    · exact hbalanced

/-- A claim that returns gives no more records than slots were reserved. -/
theorem balanced_claim (slots : List ℕ) (event : LoopEvent) (store : Store) :
    (claim cfg settings slots event store).1.Balanced ∧ (claim cfg settings slots event store).1.slots = slots := by
  unfold claim
  cases event.fault with
  | before | after => exact ⟨trivial, rfl⟩
  | none =>
    dsimp only
    cases hcall : Store.claimOutboxDue cfg event.clock slots.length settings.lease store with
    | mk result store' =>
      cases result with
      | error e => exact ⟨trivial, rfl⟩
      | ok records =>
        have hlength := (Store.claimOutboxDue_records (congrArg Prod.fst hcall)).1
        refine ⟨?_, rfl⟩
        dsimp only [LoopPhase.Balanced]
        omega

/-- An action of a loop conserves the slots. -/
theorem Conserved.loopStep (h : Conserved settings s) (hk : s.loops[k]? = some phase) (event : LoopEvent) :
    Conserved settings (s.loopStep cfg settings k event phase) := by
  have hbalanced := h.balanced phase (List.mem_of_getElem? hk)
  cases phase with
  | waiting =>
    unfold Notifications.loopStep
    cases event.stopped <;> exact h.setLoop hk rfl trivial
  | acquiring slots =>
    have hgo : Conserved settings (s.setLoop k (if slots = [] then .waiting else .claiming slots)) := by
      split
      · rename_i hnil
        exact h.setLoop hk hnil.symm trivial
      · exact h.setLoop hk rfl trivial
    unfold Notifications.loopStep
    dsimp only
    split
    · exact hgo
    · cases hacquire : s.slots.acquire with
      | none => exact hgo
      | some acquired => exact h.acquire hk hacquire (List.perm_append_singleton _ _) trivial
  | claiming slots =>
    obtain ⟨hclaim, hslots⟩ := @balanced_claim cfg settings slots event s.store
    exact (h.withStore _).setLoop hk hslots hclaim
  | aborting slots =>
    cases slots with
    | nil => exact h.setLoop hk rfl trivial
    | cons slot slots => exact h.release hk (.aborting slots) rfl trivial _
  | claimFailed => exact (h.failed none).setLoop hk rfl trivial
  | returning extra batch =>
    cases extra with
    | zero =>
      refine h.setLoop hk rfl ?_
      dsimp only [LoopPhase.Balanced] at hbalanced ⊢
      omega
    | succ extra =>
      obtain ⟨slots, records, failed⟩ := batch
      cases slots with
      | nil =>
        dsimp only [LoopPhase.Balanced, List.length_nil] at hbalanced
        omega
      | cons slot slots =>
        refine h.release hk (.returning extra ⟨slots, records, failed⟩) rfl ?_ _
        dsimp only [LoopPhase.Balanced, List.length_cons] at hbalanced ⊢
        omega
  | scheduling batch =>
    obtain ⟨slots, records, failed⟩ := batch
    cases records with
    | nil =>
      have hnil : slots = [] := List.length_eq_zero_iff.1 hbalanced
      have hslots : LoopPhase.waiting.slots = (LoopPhase.scheduling ⟨slots, [], failed⟩).slots := hnil.symm
      cases failed with
      | true => exact h.setLoop hk hslots trivial
      | false =>
        obtain ⟨unpersisted, lastSuccess, consecutiveErrors, heq⟩ := succeeded_eq s event.monotonic none
        have hsucceeded := h.succeeded event.monotonic none
        change Conserved settings ((s.succeeded event.monotonic none).setLoop k .waiting)
        rw [heq] at hsucceeded ⊢
        exact hsucceeded.setLoop hk hslots trivial
    | cons record records =>
      cases slots with
      | nil => cases hbalanced
      | cons slot slots =>
        have hrest : slots.length = records.length := by simpa [LoopPhase.Balanced] using hbalanced
        unfold Notifications.loopStep
        dsimp only
        split
        · exact h.submit hk (.scheduling ⟨slots, records, failed⟩) rfl hrest
        · exact h.setLoop hk rfl hrest
  | rejected slot record batch => exact h.release hk (.unscheduled record { batch with failed := true }) rfl hbalanced _
  | unscheduled record batch => exact (h.failed none).setLoop hk rfl hbalanced
  | retrying record batch =>
    have hboth : ∀ result : Settlement,
        (if result = .persisted then LoopPhase.scheduling batch else .unpersisted record batch).slots = batch.slots ∧
          (if result = .persisted then LoopPhase.scheduling batch else .unpersisted record batch).Balanced := by
      intro result
      split <;> exact ⟨rfl, hbalanced⟩
    exact (h.withStore _).setLoop hk (hboth _).1 (hboth _).2
  | unpersisted record batch => exact (h.failed (some record.eventId)).setLoop hk rfl hbalanced
  | ended => exact h

/-! ## A delivery and its resolver thread -/

variable {d : Delivery} {after : DeliveryPhase}

/-- A delivery goes on and the resolver slots change hands. -/
theorem Conserved.delivery (h : Conserved settings s) (hk : s.deliveries[k]? = some d) :
    ∃ rest, Accounts (d.phase.slots ++ (rest ++ s.resolvers)) s.resolutionSlots ∧ ∀ after sem resolvers,
      sem.bound = s.resolutionSlots.bound → Accounts (after.slots ++ (rest ++ resolvers)) sem →
      Conserved settings (({ s with resolutionSlots := sem, resolvers } : Notifications).setDelivery k d after) := by
  obtain ⟨rest, hbefore, hafter, -⟩ := List.exists_flatMap_rest (fun d : Delivery => d.phase.slots) hk
  obtain ⟨others, hslots, hslots', -⟩ := List.exists_flatMap_rest (fun d : Delivery => [d.slot]) hk
  refine ⟨rest, ?_, fun after sem resolvers hbound haccounts => ?_⟩
  · rw [← List.append_assoc]
    exact h.resolutions.perm (hbefore.symm.append_right _)
  · refine ⟨h.bound, hbound.trans h.resolutionBound, ?_, ?_, h.balanced, h.neverOver⟩
    · exact h.accounts.perm (((hslots' { d with phase := after }).trans hslots.symm).append_left _)
    · rw [← List.append_assoc] at haccounts
      exact haccounts.perm ((hafter _).append_right _)

/-- A delivery goes on with the resolver slot it has. -/
theorem Conserved.setDelivery (h : Conserved settings s) (hk : s.deliveries[k]? = some d) (hslots : after.slots = d.phase.slots) :
    Conserved settings (s.setDelivery k d after) := by
  obtain ⟨rest, haccounts, hgo⟩ := h.delivery hk
  exact hgo after s.resolutionSlots s.resolvers rfl (hslots ▸ haccounts)

/-- A delivery whose thread did not start gives the slot back. -/
theorem Conserved.startFailed (h : Conserved settings s) (hk : s.deliveries[k]? = some d) (hslots : d.phase.slots = [slot])
    (hafter : after.slots = []) (ended : Notifications → Notifications) :
    Conserved settings (s.releaseResolution slot (Notifications.setDelivery k d after) ended) := by
  obtain ⟨rest, haccounts, hgo⟩ := h.delivery hk
  rw [hslots, List.singleton_append] at haccounts
  obtain ⟨sem, hrelease, haccounts', hbound⟩ := haccounts.release
  unfold releaseResolution
  rw [hrelease]
  refine hgo after sem s.resolvers hbound ?_
  rw [hafter]
  exact haccounts'

/-- A resolver thread gives its slot back. -/
theorem Conserved.resolver (h : Conserved settings s) (slot : ℕ) : Conserved settings (s.resolverStep slot) := by
  unfold resolverStep
  split
  · rename_i hmem
    have hperm : s.resolutionsHeld.Perm (slot :: (s.deliveries.flatMap (fun d => d.phase.slots) ++ s.resolvers.erase slot)) :=
      ((List.perm_cons_erase (List.contains_iff_mem.1 hmem)).append_left _).trans List.perm_middle
    obtain ⟨sem, hrelease, haccounts, hbound⟩ := (h.resolutions.perm hperm.symm).release
    unfold releaseResolution
    rw [hrelease]
    exact ⟨h.bound, hbound.trans h.resolutionBound, h.accounts, haccounts, h.balanced, h.neverOver⟩
  · exact h

/-- A delivery that is over gives its slot back. -/
theorem Conserved.finish (h : Conserved settings s) (hk : s.deliveries[k]? = some d) (hslots : d.phase.slots = [])
    (ended : Notifications → Notifications) :
    Conserved settings (s.release d.slot (fun s => { s with deliveries := s.deliveries.eraseIdx k }) ended) := by
  obtain ⟨rest, hbefore, -, hgone⟩ := List.exists_flatMap_rest (fun d : Delivery => d.phase.slots) hk
  obtain ⟨others, hslots', -, hothers⟩ := List.exists_flatMap_rest (fun d : Delivery => [d.slot]) hk
  have hperm : s.slotsHeld.Perm (d.slot :: (s.loops.flatMap LoopPhase.slots ++ others)) :=
    (hslots'.append_left _).trans List.perm_middle
  obtain ⟨sem, hrelease, haccounts, hbound⟩ := (h.accounts.perm hperm.symm).release
  unfold Notifications.release
  rw [hrelease]
  refine ⟨hbound.trans h.bound, h.resolutionBound, haccounts.perm (hothers.append_left _), h.resolutions.perm ?_, h.balanced, h.neverOver⟩
  rw [hslots, List.nil_append] at hbefore
  exact (hgone.trans hbefore.symm).append_right _

/-- No delivery calls the store while it holds a resolver slot. -/
theorem slots_deliveryCall {record : OutboxRecord} {clock : Reading} {fault : CallFault} {error : String} {store store' : Store}
    {phase : DeliveryPhase} (h : deliveryCall cfg settings record clock fault error store phase = some (after, store')) :
    phase.slots = [] ∧ after.slots = [] := by
  have hretrying : ∀ result, (afterRetrying result).slots = [] := fun result => by cases result <;> rfl
  have hpersisting : ∀ result, (afterPersisting result).slots = [] := fun result => by
    cases result with
    | persisted => rfl
    | raised caught => cases caught <;> rfl
  cases phase with
  | refusing =>
    cases h
    exact ⟨rfl, hretrying _⟩
  | persisting =>
    cases h
    exact ⟨rfl, hpersisting _⟩
  | retrying permanent =>
    cases h
    exact ⟨rfl, hretrying _⟩
  | failing =>
    have hfailing : ∀ result : Settlement, (if result = .persisted then DeliveryPhase.succeeded else .unpersisted).slots = [] := by
      intro result
      split <;> rfl
    cases h
    exact ⟨rfl, hfailing _⟩
  | queued | delivering | starting | startFailed | resolving | posting | raised | unpersisted | succeeded | finishing => cases h

/-- An action of a delivery conserves the slots. -/
theorem Conserved.deliveryStep (h : Conserved settings s) (hk : s.deliveries[k]? = some d) (event : DeliveryEvent) :
    Conserved settings (s.deliveryStep cfg settings k d event) := by
  unfold Notifications.deliveryStep
  split
  · rename_i hphase
    exact h.setDelivery hk (by rw [hphase]; rfl)
  · rename_i hphase
    exact h.setDelivery hk (by rw [hphase]; rfl)
  · rename_i hphase
    exact h.setDelivery hk (by rw [hphase]; rfl)
  · rename_i timeLeft hphase
    have hretry : Conserved settings (s.setDelivery k d (.retrying false)) := h.setDelivery hk (by rw [hphase]; rfl)
    split
    · rename_i slot sem hacquire
      obtain ⟨rest, haccounts, hgo⟩ := h.delivery hk
      rw [hphase] at haccounts
      exact hgo (.starting slot) sem s.resolvers (bound_of_acquire hacquire) (haccounts.acquire hacquire)
    · exact hretry
  · rename_i slot ok caught hphase
    split
    · obtain ⟨rest, haccounts, hgo⟩ := h.delivery hk
      rw [hphase] at haccounts
      refine hgo (.resolving slot) s.resolutionSlots (s.resolvers ++ [slot]) rfl (haccounts.perm ?_)
      rw [← List.append_assoc rest]
      exact List.perm_append_singleton _ _
    · exact h.setDelivery hk (by rw [hphase]; rfl)
  · rename_i slot caught _ hphase
    refine h.startFailed hk (by rw [hphase]; rfl) ?_ _
    cases caught <;> rfl
  · rename_i slot hphase
    split
    · exact h
    · exact h.setDelivery hk (by rw [hphase]; rfl)
  · rename_i slot hphase
    exact h.setDelivery hk (by rw [hphase]; rfl)
  · rename_i slot hphase
    split
    · exact h
    · exact h.setDelivery hk (by rw [hphase]; rfl)
  · rename_i outcome hphase
    refine h.setDelivery hk ?_
    rw [hphase]
    cases outcome <;> rfl
  · split
    · rename_i hcall
      obtain ⟨hbefore, hafter⟩ := slots_deliveryCall hcall
      exact (h.withStore _).setDelivery hk (hafter.trans hbefore.symm)
    · exact h
  · rename_i hphase
    exact (h.failed none).setDelivery hk (by rw [hphase]; rfl)
  · rename_i hphase
    exact (h.failed _).setDelivery hk (by rw [hphase]; rfl)
  · rename_i monotonic hphase
    obtain ⟨unpersisted, lastSuccess, consecutiveErrors, heq⟩ := succeeded_eq s monotonic (some d.record.eventId)
    have hsucceeded := h.succeeded monotonic (some d.record.eventId)
    rw [heq] at hsucceeded ⊢
    exact hsucceeded.setDelivery hk (by rw [hphase]; rfl)
  · rename_i hphase
    exact h.finish hk (by rw [hphase]; rfl) _
  · exact h

/-- Every action conserves the slots. -/
theorem Conserved.step (h : Conserved settings s) (input : NotificationInput) : Conserved settings (step cfg settings s input) := by
  unfold Notifications.step
  cases input with
  | store call clock =>
    dsimp only
    split
    · exact h.withStore _
    · exact h
  | loop k event =>
    dsimp only
    split
    · rename_i hk
      exact h.loopStep hk event
    · exact h
  | delivery k event =>
    dsimp only
    split
    · rename_i hk
      exact h.deliveryStep hk event
    · exact h
  | resolver slot => exact h.resolver slot

theorem Conserved.run (h : Conserved settings s) (is : List NotificationInput) :
    Conserved settings (Machine.run (Notifications.step cfg settings) s is) :=
  Machine.run_induct (fun _ i h => h.step i) h is

/-! ## Threads of the resolver -/

theorem resolvers_release {done ended : Notifications → Notifications} (hdone : ∀ s, (done s).resolvers = s.resolvers)
    (hended : ∀ s, (ended s).resolvers = s.resolvers) (s : Notifications) : (s.release slot done ended).resolvers = s.resolvers := by
  unfold Notifications.release
  split
  · exact hdone _
  · exact hended _

theorem resolvers_succeeded (s : Notifications) (monotonic : Instant) (eventId : Option Uuid) :
    (s.succeeded monotonic eventId).resolvers = s.resolvers := by
  obtain ⟨unpersisted, lastSuccess, consecutiveErrors, heq⟩ := succeeded_eq s monotonic eventId
  rw [heq]

/-- A loop starts and ends no thread of the resolver. -/
theorem resolvers_loopStep (s : Notifications) (k : ℕ) (event : LoopEvent) (phase : LoopPhase) :
    (s.loopStep cfg settings k event phase).resolvers = s.resolvers := by
  have hset : ∀ (phase : LoopPhase) (s : Notifications), (Notifications.setLoop k phase s).resolvers = s.resolvers := fun _ _ => rfl
  cases phase with
  | waiting | claiming | claimFailed | unscheduled | retrying | unpersisted | ended => rfl
  | acquiring slots =>
    unfold Notifications.loopStep
    dsimp only
    split
    · rfl
    · split <;> rfl
  | aborting slots =>
    cases slots with
    | nil => rfl
    | cons slot slots => exact resolvers_release (hset _) (hset _) s
  | returning extra batch =>
    cases extra with
    | zero => rfl
    | succ extra =>
      obtain ⟨slots, records, failed⟩ := batch
      cases slots <;> exact resolvers_release (hset _) (hset _) s
  | scheduling batch =>
    obtain ⟨slots, records, failed⟩ := batch
    cases records with
    | nil =>
      cases failed with
      | true => rfl
      | false => exact resolvers_succeeded s _ _
    | cons record records =>
      unfold Notifications.loopStep
      dsimp only
      split <;> rfl
  | rejected slot record batch => exact resolvers_release (hset _) (hset _) s

/-- Nor does a delivery end one: it may start its own. -/
theorem resolvers_deliveryStep (s : Notifications) (k : ℕ) (d : Delivery) (event : DeliveryEvent) :
    s.resolvers ⊆ (s.deliveryStep cfg settings k d event).resolvers := by
  have hset : ∀ (after : DeliveryPhase) (s : Notifications), (Notifications.setDelivery k d after s).resolvers = s.resolvers :=
    fun _ _ => rfl
  have hsame : ∀ s' : Notifications, s'.resolvers = s.resolvers → s.resolvers ⊆ s'.resolvers := fun s' h => h ▸ List.Subset.refl _
  unfold Notifications.deliveryStep
  split
  · exact hsame _ rfl
  · exact hsame _ rfl
  · exact hsame _ rfl
  · split <;> exact hsame _ rfl
  · split
    · exact List.subset_append_left _ _
    · exact hsame _ rfl
  · refine hsame _ ?_
    unfold releaseResolution
    split <;> rfl
  · split <;> exact hsame _ rfl
  · exact hsame _ rfl
  · split <;> exact hsame _ rfl
  · exact hsame _ rfl
  · split <;> exact hsame _ rfl
  · exact hsame _ rfl
  · exact hsame _ rfl
  · exact hsame _ (resolvers_succeeded s _ _)
  · refine hsame _ ?_
    dsimp only
    refine resolvers_release ?_ ?_ s
    all_goals exact fun _ => rfl
  · exact hsame _ rfl

/-- A thread of the resolver keeps its slot until it gives it back itself. -/
theorem mem_resolvers_step (hslot : slot ∈ s.resolvers) {input : NotificationInput} (hinput : input ≠ .resolver slot) :
    slot ∈ (step cfg settings s input).resolvers := by
  unfold Notifications.step
  cases input with
  | store call clock =>
    dsimp only
    split <;> exact hslot
  | loop k event =>
    dsimp only
    split
    · rw [resolvers_loopStep]
      exact hslot
    · exact hslot
  | delivery k event =>
    dsimp only
    split
    · exact resolvers_deliveryStep s k _ event hslot
    · exact hslot
  | resolver slot' =>
    have hne : slot ≠ slot' := fun h => hinput (h ▸ rfl)
    dsimp only
    unfold resolverStep
    split
    · unfold releaseResolution
      split
      · exact (List.mem_erase_of_ne hne).2 hslot
      · exact hslot
    · exact hslot

/-- The notification slots are conserved. In every state of every run of any number of loops, deliveries and threads of the resolver, with
every way in which the store, the executor, the start of a thread and a delivery can end: the free slots, those reserved by loops and the
deliveries in flight add up to the bound; so do the free resolver slots and those that are held; every slot that was acquired is held by
one holder or was released, once; no release raised; a thread of the resolver keeps its slot until it ends, whether its delivery waits or
not; and where no loop reserves a slot and no delivery is in flight, every slot that was acquired was released. -/
theorem slots_conserved (cfg : StoreConfig) (settings : NotificationSettings) (workers : ℕ) (store : Store) (is : List NotificationInput) :
    let s := Machine.run (step cfg settings) (init settings workers store) is
    s.slots.value + (s.loops.flatMap LoopPhase.slots).length + s.deliveries.length = settings.maxConcurrentDeliveries ∧
      s.resolutionSlots.value + s.resolutionsHeld.length = settings.maxConcurrentDeliveries ∧
      (s.slotsHeld ++ s.slots.released).Perm (List.range s.slots.acquired) ∧
      (s.resolutionsHeld ++ s.resolutionSlots.released).Perm (List.range s.resolutionSlots.acquired) ∧
      s.overReleased = false ∧
      (∀ slot ∈ s.resolvers, ∀ input, input ≠ .resolver slot → slot ∈ (step cfg settings s input).resolvers) ∧
      ((∀ phase ∈ s.loops, phase.slots = []) → s.deliveries = [] →
        s.slots.released.Perm (List.range s.slots.acquired) ∧ s.slots.value = settings.maxConcurrentDeliveries) := by
  intro s
  have h : Conserved settings s := (conserved_init settings workers store).run is
  have hfree := h.accounts.free
  have hsum : s.slots.value + (s.loops.flatMap LoopPhase.slots).length + s.deliveries.length = settings.maxConcurrentDeliveries := by
    rw [h.bound] at hfree
    unfold slotsHeld at hfree
    rw [List.length_append, ← List.map_eq_flatMap, List.length_map] at hfree
    omega
  refine ⟨hsum, ?_, h.accounts.once, h.resolutions.once, h.neverOver, fun slot hslot input hinput => mem_resolvers_step hslot hinput,
    fun hloops hdeliveries => ?_⟩
  · rw [← h.resolutionBound]
    exact h.resolutions.free
  · have hnone : s.loops.flatMap LoopPhase.slots = [] := List.flatMap_eq_nil_iff.2 hloops
    have honce := h.accounts.once
    unfold slotsHeld at honce
    rw [hnone, hdeliveries] at honce
    refine ⟨honce, ?_⟩
    rw [hnone, hdeliveries] at hsum
    simpa using hsum

end Notifications

end Service

end SharkRail
