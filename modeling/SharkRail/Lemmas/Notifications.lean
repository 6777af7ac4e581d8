import SharkRail.Lemmas.Lives
import SharkRail.Service.Notifications
import SharkRail.Theorems.Delivery

/-!
# Outbox rows and their deliverers

A row that is still to be delivered stays one under every transaction but the settlement of its claim, and an event that has no such row
never has one again. A claim gives at most as many records as it was asked for, of rows that are there.
-/

namespace SharkRail

namespace Store

open Fallible

variable {cfg : StoreConfig} {s s' : Store} {eventId : Uuid}

/-! ## What a claim gives -/

/-- The rows that were claimed are among the rows that were due. -/
theorem claimed_sublist (cfg : StoreConfig) (now lease : Instant) (rows : List OutboxRow) (state : List (OutboxRow × Uuid) × Store) :
    ((rows.foldl (claimOutboxRow cfg now lease) state).1.map (·.1)).Sublist (state.1.map (·.1) ++ rows) := by
  induction rows generalizing state with
  | nil => simp
  | cons row rows ih =>
    rw [List.foldl_cons]
    refine (ih _).trans ?_
    obtain ⟨claimed, s⟩ := state
    unfold claimOutboxRow
    dsimp only
    split
    · simp
    · exact (List.Sublist.refl _).append (List.sublist_cons_self _ _)

theorem claimed_records (cfg : StoreConfig) (now lease : Instant) (s : Store) (rows : List OutboxRow) {records : List OutboxRecord}
    (h : (rows.foldl (claimOutboxRow cfg now lease) ([], s)).1.map (fun c => s.outboxRecord c.1 (some c.2)) = records) :
    records.length ≤ rows.length ∧ ∀ record ∈ records, ∃ row ∈ rows, row.eventId = record.eventId := by
  have hsublist := claimed_sublist cfg now lease rows ([], s)
  subst h
  constructor
  · have hlength := hsublist.length_le
    simpa using hlength
  · intro record hrecord
    obtain ⟨c, hc, rfl⟩ := List.mem_map.1 hrecord
    exact ⟨c.1, hsublist.subset (List.mem_map_of_mem hc), rfl⟩

/-- The records of a claim: not more than asked for, and of events that have a row. -/
theorem claimOutboxDue_records {clock : Reading} {limit : ℤ} {lease : Instant} {records : List OutboxRecord}
    (h : (claimOutboxDue cfg clock limit lease s).1 = .ok records) :
    records.length ≤ limit.toNat ∧ ∀ record ∈ records, ∃ o ∈ s.outbox, o.eventId = record.eventId := by
  unfold claimOutboxDue at h
  split at h
  · cases h
    exact ⟨Nat.zero_le _, fun record hr => absurd hr List.not_mem_nil⟩
  rcases transaction_cases cfg _ s with ⟨e, hraised⟩ | ⟨a, s', hbody, hdone⟩
  · rw [hraised] at h
    cases h
  · rw [hdone] at h
    cases h
    rw [pure_eq_ok, Prod.mk.injEq] at hbody
    obtain ⟨hlength, hrows⟩ := claimed_records cfg clock.now lease _ _ hbody.1
    refine ⟨hlength.trans (List.length_take_le _ _), fun record hrecord => ?_⟩
    obtain ⟨row, hrow, hid⟩ := hrows record hrecord
    obtain ⟨hmem, -⟩ := Table.mem_selectBy.1 (List.mem_of_mem_take hrow)
    obtain ⟨o, ho, heq⟩ := Table.mem_update.1 hmem
    refine ⟨o, ho, ?_⟩
    rw [← hid, ← heq]
    split <;> rfl

/-! ## Rows that are to be delivered -/

/-- The event has a row that is pending or being delivered. -/
def Live (eventId : Uuid) (s : Store) : Prop := ∃ o ∈ s.outbox, o.eventId = eventId ∧ o.state.undelivered = true

theorem Released.undelivered {clock : Reading} {o o' : OutboxRow} {call : StoreCall} (h : Released clock o call o') :
    o'.state.undelivered = true := by
  cases h <;> rfl

/-- A transaction that settles no claim leaves such a row. -/
theorem Live.change {call : StoreCall} {clock : Reading} (hlive : Live eventId s)
    (hcall : ∀ drawn o o', OutboxStep drawn clock o call o' → o'.state.undelivered = true) (hopen : call ≠ .reopen)
    (h : Change cfg call clock s s') : Live eventId s' := by
  obtain ⟨o, ho, rfl, hstate⟩ := hlive
  cases h with
  | accepted _ _ _ _ _ _ _ _ _ houtbox => exact ⟨o, houtbox ▸ ho, rfl, hstate⟩
  | moved _ _ _ _ _ _ _ _ _ houtbox => exact ⟨o, houtbox ▸ List.mem_append_left _ ho, rfl, hstate⟩
  | cleared _ _ _ _ houtbox => exact ⟨o, houtbox ▸ ho, rfl, hstate⟩
  | restarted hreopen => exact absurd hreopen hopen
  | released f hstep houtbox =>
    have hmem : f o ∈ s'.outbox := houtbox ▸ List.mem_map_of_mem ho
    rcases hstep o ho with hsame | hr
    · exact ⟨f o, hmem, by rw [hsame], by rw [hsame]; exact hstate⟩
    · exact ⟨f o, hmem, hr.eventId.1, hr.undelivered⟩
  | delivery o₁ o' ho₁ hstep houtbox =>
    by_cases hid : o.eventId = o₁.eventId
    · refine ⟨o', ?_, hstep.eventId.1.trans hid.symm, hcall _ _ _ hstep⟩
      rw [houtbox, mem_replaceOutbox]
      exact Or.inr ⟨rfl, o, ho, hid⟩
    · refine ⟨o, ?_, rfl, hstate⟩
      rw [houtbox, mem_replaceOutbox]
      exact Or.inl ⟨ho, hid⟩
  | pruned _ cutoff row _ _ hprunable _ _ houtbox =>
    -- the rows of a job are deleted with it when none of them is to be delivered
    refine ⟨o, ?_, rfl, hstate⟩
    rw [houtbox, Table.mem_delete]
    refine ⟨ho, decide_eq_false fun hjob => ?_⟩
    unfold prunable at hprunable
    simp only [Bool.and_eq_true, Bool.not_eq_true', List.any_eq_false] at hprunable
    exact hprunable.2 o ho ⟨decide_eq_true hjob, hstate⟩

/-- An event that has no such row never gets one again. -/
theorem not_live_change {call : StoreCall} {clock : Reading} (hdrawn : eventId < s.drawn) (hgone : ¬Live eventId s)
    (h : Change cfg call clock s s') : ¬Live eventId s' := by
  rintro ⟨o', ho', rfl, hstate⟩
  rcases h.outbox_from ho' with hold | ⟨o, ho, hr⟩ | ⟨o, ho, hstep, -⟩ | ⟨hnew, -⟩
  · exact hgone ⟨o', hold, rfl, hstate⟩
  · refine hgone ⟨o, ho, hr.eventId.1.symm, ?_⟩
    cases hr with
    | interrupted hs | expired _ _ hs => simp [hs, OutboxState.undelivered]
  · refine hgone ⟨o, ho, hstep.eventId.1.symm, ?_⟩
    cases hstep with
    | claimed _ _ hs | delivered _ hs | failed _ _ _ _ hs => simp [hs, OutboxState.undelivered]
  · exact absurd hnew hdrawn.ne

theorem not_live_step (hs : WellFormed s) (hdrawn : eventId < s.drawn) (hgone : ¬Live eventId s) (input : StoreCall × Reading) :
    ¬Live eventId (step cfg s input) :=
  (step_induct (P := fun s => eventId < s.drawn ∧ ¬Live eventId s) input hs ⟨hdrawn, hgone⟩ fun _ _ _ h hchange =>
    ⟨h.1.trans_le hchange.drawn_le, not_live_change h.1 h.2 hchange⟩).2

theorem Live.step (hs : WellFormed s) (hlive : Live eventId s) {input : StoreCall × Reading}
    (hcall : ∀ drawn o o', OutboxStep drawn input.2 o input.1 o' → o'.state.undelivered = true) (hopen : input.1 ≠ .reopen) :
    Live eventId (step cfg s input) :=
  step_induct input hs hlive fun _ _ _ hlive h => hlive.change hcall hopen h

/-! ## Settlements -/

variable {token : Option Uuid} {f : OutboxRow → OutboxRow} {other : Uuid}

/-- A settlement is of the row of its event. -/
theorem Live.settleClaim (hs : WellFormed s) (hlive : Live other s) (hne : other ≠ eventId) :
    Live other (settleClaim cfg eventId token f s).2 := by
  rcases settleClaim_cases cfg hs eventId token f with ⟨-, h⟩ | ⟨o, ho, hclaimed, h | ⟨e, h⟩⟩
  · rw [h]
    exact hlive
  · obtain ⟨o', ho', hid, hstate⟩ := hlive
    rw [h]
    refine ⟨o', Table.mem_update_of_neg ho' ?_, hid, hstate⟩
    rw [Bool.eq_false_iff]
    intro hclaimed'
    exact hne (hid.symm.trans (claimedBy_iff.1 hclaimed').1)
  · rw [h]
    exact hlive

/-- A settlement that returned `true` found a row that was being delivered. -/
theorem live_of_settleClaim (hs : WellFormed s) (h : (settleClaim cfg eventId token f s).1 = .ok true) : Live eventId s := by
  obtain ⟨o, ho, hclaimed, -⟩ := settleClaim_true hs h
  obtain ⟨hid, hstate, -⟩ := claimedBy_iff.1 hclaimed
  exact ⟨o, ho, hid, by rw [hstate]; rfl⟩

/-- A settlement for good leaves no row of its event to deliver. -/
theorem not_live_of_settleClaim (hs : WellFormed s) (hf : ∀ o, (f o).state.undelivered = false)
    (h : (settleClaim cfg eventId token f s).1 = .ok true) :
    ¬Live eventId (settleClaim cfg eventId token f s).2 := by
  obtain ⟨o, ho, hclaimed, houtbox, -⟩ := settleClaim_true hs h
  rintro ⟨o', ho', hid', hstate⟩
  rw [houtbox, mem_replaceOutbox] at ho'
  rcases ho' with ⟨-, hne⟩ | ⟨rfl, -⟩
  · exact hne hid'
  · rw [hf] at hstate
    cases hstate

/-- The event whose claim a transaction settles. -/
def settledEvent : StoreCall → Option Uuid
  | .outboxDelivered eventId _ => some eventId
  | .outboxFailed eventId _ _ _ _ => some eventId
  | _ => none

/-- A transaction that settles no claim of an event leaves its row to deliver. -/
theorem Live.keeps (hs : WellFormed s) (hlive : Live eventId s) {call : StoreCall} (clock : Reading)
    (hcall : settledEvent call ≠ some eventId) (hopen : call ≠ .reopen) : Live eventId (Store.step cfg s (call, clock)) := by
  cases call with
  | outboxDelivered e token =>
    refine hlive.settleClaim hs fun h => hcall ?_
    rw [h]
    rfl
  | outboxFailed e token error nextAttemptAt permanent =>
    refine hlive.settleClaim hs fun h => hcall ?_
    rw [h]
    rfl
  | reopen => exact absurd rfl hopen
  | claimOutboxDue limit lease =>
    refine hlive.step hs ?_ hopen
    rintro drawn o o' ⟨⟩
    rfl
  | submit | claimNext | markRunning | renewLease | finish | requestCancel | recoverInterrupted | recoverExpiredLeases | prune |
    clearManifest =>
    refine hlive.step hs ?_ hopen
    rintro drawn o o' ⟨⟩

end Store

end SharkRail
