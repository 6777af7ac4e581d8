import SharkRail.Theorems.Terminal

/-!
# Delivery of notifications

A claim of an outbox row is fenced by its token. The token is drawn for the claim, stands in the row while the claim lasts, and
never comes back, so a deliverer that holds another one settles nothing, whatever happened to its claim in the meantime.
-/

namespace SharkRail

namespace Store

variable {cfg : StoreConfig} {s s' : Store}

/-- What the outbox rows say of their claims. -/
structure Fenced (s : Store) : Prop where
  delivering : ∀ o ∈ s.outbox, o.deliveryAttemptId ≠ none ↔ o.state = .delivering
  unique : ∀ o ∈ s.outbox, ∀ o' ∈ s.outbox, ∀ t, o.deliveryAttemptId = some t → o'.deliveryAttemptId = some t → o = o'

theorem fenced_create (drawn : Nat) : Fenced (create cfg drawn) := by
  obtain ⟨-, ho, -⟩ := create_tables cfg drawn
  constructor <;> simp [ho]

/-- A claim carries the token drawn for it; a settled row carries none. -/
theorem OutboxStep.token {drawn : Uuid} {clock : Reading} {call : StoreCall} {o o' : OutboxRow}
    (h : OutboxStep drawn clock o call o') :
    (o'.state = .delivering ∧ o'.deliveryAttemptId = some drawn) ∨ (o'.state ≠ .delivering ∧ o'.deliveryAttemptId = none) := by
  cases h with
  | claimed => exact Or.inl ⟨rfl, rfl⟩
  | delivered => exact Or.inr ⟨by simp [deliveredRow], rfl⟩
  | failed _ _ _ permanent => exact Or.inr ⟨by cases permanent <;> simp [failedRow], rfl⟩

/-- A token in a row after a change was there before, or was just drawn. -/
theorem Change.token_from {call : StoreCall} {clock : Reading} (h : Change cfg call clock s s') {o' : OutboxRow}
    (ho' : o' ∈ s'.outbox) {t : Uuid} (ht : o'.deliveryAttemptId = some t) :
    o' ∈ s.outbox ∨ (t = s.drawn ∧ ∃ o ∈ s.outbox, s'.outbox = replaceOutbox o.eventId o' s.outbox) := by
  rcases h.outbox_from ho' with hold | ⟨o, -, hr⟩ | ⟨o, ho, hstep, houtbox⟩ | ⟨-, -, hnone, -⟩
  · exact Or.inl hold
  · rw [hr.eventId.2.2] at ht
    cases ht
  · rcases hstep.token with ⟨-, hdrawn⟩ | ⟨-, hnone⟩
    · rw [hdrawn] at ht
      exact Or.inr ⟨(Option.some.inj ht).symm, o, ho, houtbox⟩
    · rw [hnone] at ht
      cases ht
  · rw [hnone] at ht
    cases ht

theorem Fenced.change {call : StoreCall} {clock : Reading} (hs : WellFormed s) (hf : Fenced s)
    (h : Change cfg call clock s s') : Fenced s' := by
  constructor
  · intro o' ho'
    rcases h.outbox_from ho' with hold | ⟨o, -, hr⟩ | ⟨o, -, hstep, -⟩ | ⟨-, hstate, hnone, -⟩
    · exact hf.delivering o' hold
    · cases hr <;> simp
    · rcases hstep.token with ⟨hstate, htoken⟩ | ⟨hstate, htoken⟩ <;> simp [hstate, htoken]
    · simp [hstate, hnone]
  · intro o ho o' ho' t ht ht'
    have hfresh : ∀ x ∈ s.outbox, x.deliveryAttemptId ≠ some s.drawn := fun x hx hd =>
      (hs.tokenDrawn x hx _ hd).ne rfl
    rcases h.token_from ho ht with hold | ⟨rfl, o₁, ho₁, houtbox⟩
    · rcases h.token_from ho' ht' with hold' | ⟨rfl, -⟩
      · exact hf.unique o hold o' hold' t ht ht'
      · exact absurd ht (hfresh o hold)
    · rcases h.token_from ho' ht' with hold' | ⟨-, -⟩
      · exact absurd ht' (hfresh o' hold')
      · rw [houtbox, mem_replaceOutbox] at ho'
        rcases ho' with ⟨hold', -⟩ | ⟨rfl, -⟩
        · exact absurd ht' (hfresh o' hold')
        · rfl

/-- Every state the store can be in is fenced. -/
theorem Reachable.fenced (h : Reachable cfg s) : Fenced s :=
  h.induct (fenced_create 0) fun _ _ _ _ hs hf h => hf.change hs h

/-! ## Refused settlements -/

/-- Both settlements of the event with this token return `false` and leave the store as it is. -/
def Refused (cfg : StoreConfig) (eventId : Uuid) (token : Option Uuid) (s : Store) : Prop :=
  (∀ clock, outboxDelivered cfg clock eventId token s = (.ok false, s)) ∧
    ∀ error nextAttemptAt permanent, outboxFailed cfg eventId token error nextAttemptAt permanent s = (.ok false, s)

/-- The token stands in the row of the event. -/
def Carries (eventId token : Uuid) (s : Store) : Prop :=
  ∃ o ∈ s.outbox, o.eventId = eventId ∧ o.deliveryAttemptId = some token

/-- A token that does not stand in the row of the event is refused. -/
theorem refused_of_not_carries (cfg : StoreConfig) (hs : WellFormed s) {eventId : Uuid} {token : Option Uuid}
    (h : ∀ t ∈ token, ¬Carries eventId t s) : Refused cfg eventId token s := by
  have hnone : ∀ o ∈ s.outbox, claimedBy eventId token o ≠ true := by
    intro o ho hc
    obtain ⟨hid, -, t, ht, htoken⟩ := claimedBy_iff.1 hc
    exact h t htoken ⟨o, ho, hid, ht⟩
  have hrefused : ∀ f, settleClaim cfg eventId token f s = (.ok false, s) := by
    intro f
    rcases settleClaim_cases cfg hs eventId token f with ⟨-, h⟩ | ⟨o, ho, hc, -⟩
    · exact h
    · exact absurd hc (hnone o ho)
  exact ⟨fun _ => hrefused _, fun _ _ _ => hrefused _⟩

/-- A token that was drawn and does not stand in the row of the event never does again. -/
def Spent (eventId token : Uuid) (s : Store) : Prop := token < s.drawn ∧ ¬Carries eventId token s

theorem Spent.change {call : StoreCall} {clock : Reading} {eventId token : Uuid} (hsp : Spent eventId token s)
    (h : Change cfg call clock s s') : Spent eventId token s' := by
  refine ⟨hsp.1.trans_le h.drawn_le, ?_⟩
  rintro ⟨o', ho', hid, ht⟩
  rcases h.token_from ho' ht with hold | ⟨hdrawn, -⟩
  · exact hsp.2 ⟨o', hold, hid, ht⟩
  · exact hsp.1.ne hdrawn

theorem Spent.step {eventId token : Uuid} (hs : WellFormed s) (hsp : Spent eventId token s)
    (input : StoreCall × Reading) : Spent eventId token (step cfg s input) :=
  step_induct input hs hsp fun _ _ _ hsp h => hsp.change h

theorem Spent.run {eventId token : Uuid} (hs : WellFormed s) (hsp : Spent eventId token s)
    (is : List (StoreCall × Reading)) : Spent eventId token (Machine.run (Store.step cfg) s is) :=
  (Machine.run_induct (P := fun s => WellFormed s ∧ Spent eventId token s)
    (fun _ i h => ⟨h.1.step i, h.2.step h.1 i⟩) ⟨hs, hsp⟩ is).2

/-! ## Settled claims -/

/-- The claim a call settles: its event and token, where it returns `true`. -/
def settled (cfg : StoreConfig) (s : Store) (input : StoreCall × Reading) : List (Uuid × Uuid) :=
  match input.1 with
  | .outboxDelivered eventId (some token) =>
    match (outboxDelivered cfg input.2 eventId (some token) s).1 with
    | .ok true => [(eventId, token)]
    | _ => []
  | .outboxFailed eventId (some token) error nextAttemptAt permanent =>
    match (outboxFailed cfg eventId (some token) error nextAttemptAt permanent s).1 with
    | .ok true => [(eventId, token)]
    | _ => []
  | _ => []

/-- The event whose delivery a call reports as failed, where it returns `true`. -/
def failures (cfg : StoreConfig) (s : Store) (input : StoreCall × Reading) : List Uuid :=
  match input.1 with
  | .outboxFailed eventId token error nextAttemptAt permanent =>
    match (outboxFailed cfg eventId token error nextAttemptAt permanent s).1 with
    | .ok true => [eventId]
    | _ => []
  | _ => []

/-- A settlement that returned `true` found the claim and replaced its row. -/
theorem settleClaim_true {eventId : Uuid} {token : Option Uuid} {f : OutboxRow → OutboxRow} (hs : WellFormed s)
    (h : (settleClaim cfg eventId token f s).1 = .ok true) :
    ∃ o ∈ s.outbox, claimedBy eventId token o = true ∧
      (settleClaim cfg eventId token f s).2.outbox = replaceOutbox eventId (f o) s.outbox ∧
      (settleClaim cfg eventId token f s).2.drawn = s.drawn := by
  rcases settleClaim_cases cfg hs eventId token f with ⟨-, he⟩ | ⟨o, ho, hclaimed, he | ⟨e, he⟩⟩
  · rw [he] at h
    cases h
  · obtain ⟨rfl, -⟩ := claimedBy_iff.1 hclaimed
    refine ⟨o, ho, hclaimed, ?_, ?_⟩
    · rw [he]
      exact update_eq_replaceOutbox hs.eventIds ho (fun x hx => (claimedBy_iff.1 hx).1) hclaimed
    · rw [he]
      rfl
  · rw [he] at h
    cases h

/-- A settlement that returned `true` spends its token. -/
theorem spent_of_settleClaim {eventId token : Uuid} {f : OutboxRow → OutboxRow} (hs : WellFormed s)
    (hclear : ∀ o, (f o).deliveryAttemptId = none) (h : (settleClaim cfg eventId (some token) f s).1 = .ok true) :
    Carries eventId token s ∧ Spent eventId token (settleClaim cfg eventId (some token) f s).2 := by
  obtain ⟨o, ho, hclaimed, houtbox, hdrawn⟩ := settleClaim_true hs h
  obtain ⟨hid, -, t, ht, htoken⟩ := claimedBy_iff.1 hclaimed
  cases htoken
  refine ⟨⟨o, ho, hid, ht⟩, hdrawn ▸ hs.tokenDrawn o ho token ht, ?_⟩
  rintro ⟨o', ho', hid', ht'⟩
  rw [houtbox, mem_replaceOutbox] at ho'
  rcases ho' with ⟨-, hne⟩ | ⟨rfl, -⟩
  · exact hne hid'
  · rw [hclear] at ht'
    cases ht'

/-- A settled claim was standing, and is spent after. -/
theorem spent_of_settled (hs : WellFormed s) {input : StoreCall × Reading} {eventId token : Uuid}
    (h : (eventId, token) ∈ settled cfg s input) : Carries eventId token s ∧ Spent eventId token (step cfg s input) := by
  obtain ⟨call, clock⟩ := input
  unfold settled at h
  split at h
  · rename_i e t hcall
    cases hcall
    split at h
    · rename_i hreturned
      obtain ⟨rfl, rfl⟩ : eventId = e ∧ token = t := by simpa using h
      exact spent_of_settleClaim hs (fun _ => rfl) hreturned
    · simp at h
  · rename_i e t error next permanent hcall
    cases hcall
    split at h
    · rename_i hreturned
      obtain ⟨rfl, rfl⟩ : eventId = e ∧ token = t := by simpa using h
      exact spent_of_settleClaim hs (fun _ => rfl) hreturned
    · simp at h
  · simp at h

/-- Over a whole run every claim is settled at most once. -/
theorem nodup_settled (is : List (StoreCall × Reading)) :
    (Machine.outputs (step cfg) (settled cfg) (create cfg 0) is).Nodup := by
  refine (Machine.nodup_outputs (P := WellFormed) (fun s x => Spent x.1 x.2 s) (fun _ i hs => hs.step i) ?_ ?_ ?_ ?_
    (wellFormed_create 0) is).1
  · intro s input _
    unfold settled
    split
    · split <;> simp
    · split <;> simp
    · simp
  · rintro s input ⟨e, t⟩ hs hmem hspent
    exact hspent.2 (spent_of_settled hs hmem).1
  · rintro s input ⟨e, t⟩ hs hmem
    exact (spent_of_settled hs hmem).2
  · rintro s input ⟨e, t⟩ hs hspent
    exact hspent.step hs input

/-! ## Attempts -/

/-- A change counts no attempt, unless it settles a claim as failed. -/
theorem Change.attempts {call : StoreCall} {clock : Reading} (h : Change cfg call clock s s')
    (hcall : ∀ eventId token error nextAttemptAt permanent, call ≠ .outboxFailed eventId token error nextAttemptAt permanent)
    {o' : OutboxRow} (ho' : o' ∈ s'.outbox) :
    (∃ o ∈ s.outbox, o.eventId = o'.eventId ∧ o.attempts = o'.attempts) ∨ (o'.eventId = s.drawn ∧ o'.attempts = 0) := by
  rcases h.outbox_from ho' with hold | ⟨o, ho, hr⟩ | ⟨o, ho, hstep, -⟩ | ⟨hid, -, -, hattempts⟩
  · exact Or.inl ⟨o', hold, rfl, rfl⟩
  · refine Or.inl ⟨o, ho, hr.eventId.1.symm, ?_⟩
    cases hr <;> rfl
  · refine Or.inl ⟨o, ho, hstep.eventId.1.symm, ?_⟩
    cases hstep with
    | claimed | delivered => rfl
    | failed t error next permanent => exact absurd rfl (hcall _ _ _ _ _)
  · exact Or.inr ⟨hid, hattempts⟩

/-- What the attempts of the rows are after one transaction. -/
def Counts (s : Store) (counted : List Uuid) (s' : Store) : Prop :=
  ∀ o' ∈ s'.outbox, (∃ o ∈ s.outbox, o.eventId = o'.eventId ∧ o'.attempts = o.attempts + counted.count o'.eventId) ∨
    (s.drawn ≤ o'.eventId ∧ o'.attempts = 0 ∧ counted = [])

theorem counts_step (hs : WellFormed s) (input : StoreCall × Reading) :
    Counts s (failures cfg s input) (step cfg s input) := by
  obtain ⟨call, clock⟩ := input
  by_cases hfailed : ∃ e token error next permanent, call = .outboxFailed e token error next permanent
  · obtain ⟨e, token, error, next, permanent, rfl⟩ := hfailed
    have hstep : step cfg s (.outboxFailed e token error next permanent, clock) =
        (settleClaim cfg e token (failedRow error next permanent) s).2 := rfl
    have hfailures : failures cfg s (.outboxFailed e token error next permanent, clock) =
        match (settleClaim cfg e token (failedRow error next permanent) s).1 with
        | .ok true => [e]
        | _ => [] := rfl
    intro o' ho'
    rw [hstep] at ho'
    rw [hfailures]
    rcases settleClaim_cases cfg hs e token (failedRow error next permanent) with ⟨-, he⟩ | ⟨o, ho, hclaimed, he | ⟨err, he⟩⟩
    · rw [he] at ho' ⊢
      exact Or.inl ⟨o', ho', rfl, rfl⟩
    · obtain ⟨rfl, -⟩ := claimedBy_iff.1 hclaimed
      rw [he] at ho' ⊢
      change o' ∈ Table.update (claimedBy o.eventId token) (failedRow error next permanent) s.outbox at ho'
      rw [update_eq_replaceOutbox hs.eventIds ho (fun x hx => (claimedBy_iff.1 hx).1) hclaimed, mem_replaceOutbox] at ho'
      rcases ho' with ⟨hold, hne⟩ | ⟨rfl, -⟩
      · exact Or.inl ⟨o', hold, rfl, by simp [Ne.symm hne]⟩
      · exact Or.inl ⟨o, ho, rfl, by simp [failedRow]⟩
    · rw [he] at ho' ⊢
      exact Or.inl ⟨o', ho', rfl, rfl⟩
  · have hnone : failures cfg s (call, clock) = [] := by
      unfold failures
      split
      · rename_i e token error next permanent hcall
        exact absurd ⟨e, token, error, next, permanent, hcall⟩ hfailed
      · rfl
    have hcall : ∀ e token error next permanent, call ≠ .outboxFailed e token error next permanent :=
      fun e token error next permanent h => hfailed ⟨e, token, error, next, permanent, h⟩
    rw [hnone]
    have hboth : s.drawn ≤ (step cfg s (call, clock)).drawn ∧ Counts s [] (step cfg s (call, clock)) := by
      refine step_induct (P := fun s' => s.drawn ≤ s'.drawn ∧ Counts s [] s') (call, clock) hs
        ⟨Nat.le_refl _, fun o ho => Or.inl ⟨o, ho, rfl, rfl⟩⟩ ?_
      rintro s₁ s₂ - ⟨hle, hcounts⟩ hchange
      refine ⟨hle.trans hchange.drawn_le, fun o' ho' => ?_⟩
      rcases hchange.attempts hcall ho' with ⟨o, ho, hid, hattempts⟩ | ⟨hid, hzero⟩
      · rw [← hid, ← hattempts]
        exact hcounts o ho
      · exact Or.inr ⟨hid ▸ hle, hzero, rfl⟩
    exact hboth.2

/-- A failure is counted for an event that was drawn. -/
theorem lt_drawn_of_failures (hs : WellFormed s) {input : StoreCall × Reading} {e : Uuid} (h : e ∈ failures cfg s input) :
    e < s.drawn := by
  unfold failures at h
  split at h
  · split at h
    · rename_i hreturned
      obtain ⟨o, ho, hclaimed, -⟩ := settleClaim_true hs hreturned
      rw [List.mem_singleton.1 h, ← (claimedBy_iff.1 hclaimed).1]
      exact hs.eventDrawn o ho
    · simp at h
  · simp at h

/-- Every failure in the log was counted in the row of its event, and is of an event that was drawn. -/
structure Logged (s : Store) (log : List Uuid) : Prop where
  wellFormed : WellFormed s
  drawn : ∀ e ∈ log, e < s.drawn
  counted : ∀ o ∈ s.outbox, o.attempts = log.count o.eventId

theorem Logged.step {log : List Uuid} (h : Logged s log) (input : StoreCall × Reading) :
    Logged (step cfg s input) (log ++ failures cfg s input) := by
  refine ⟨h.wellFormed.step input, fun e he => ?_, fun o' ho' => ?_⟩
  · refine LT.lt.trans_le ?_ (h.wellFormed.drawn_le_step cfg input)
    rcases List.mem_append.1 he with he | he
    · exact h.drawn e he
    · exact lt_drawn_of_failures h.wellFormed he
  · rw [List.count_append]
    rcases counts_step h.wellFormed input o' ho' with ⟨o, ho, hid, hattempts⟩ | ⟨hnew, hzero, hnone⟩
    · rw [hattempts, h.counted o ho, hid]
    · rw [hzero, hnone, List.count_eq_zero_of_not_mem fun he => (h.drawn _ he).not_ge hnew]
      rfl

/-- Over a whole run the attempts of a row are the failures reported for its event that returned `true`. -/
theorem attempts_eq_count (is : List (StoreCall × Reading)) {o : OutboxRow}
    (ho : o ∈ (Machine.run (step cfg) (create cfg 0) is).outbox) :
    o.attempts = (Machine.outputs (step cfg) (failures cfg) (create cfg 0) is).count o.eventId := by
  have hlogged : Logged (create cfg 0) [] := ⟨wellFormed_create 0, by simp, by simp [(create_tables cfg 0).2.1]⟩
  have hrun := Machine.run_outputs_induct (fun s i log (h : Logged s log) => (h.step i : Logged (step cfg s i) _)) hlogged is
  exact hrun.counted o ho

/-! ## Settled rows -/

/-- No other row of its event than the settled one is in the outbox, now and from now on. -/
structure Settled (o : OutboxRow) (s : Store) : Prop where
  wellFormed : WellFormed s
  drawn : o.eventId < s.drawn
  row : ∀ o' ∈ s.outbox, o'.eventId = o.eventId → o' = o

theorem Settled.change {call : StoreCall} {clock : Reading} {o : OutboxRow} (ho : Settled o s)
    (hstate : o.state = .delivered ∨ o.state = .dead) (h : Change cfg call clock s s') : Settled o s' := by
  refine ⟨ho.wellFormed.change h, ho.drawn.trans_le h.drawn_le, fun o' ho' hid => ?_⟩
  rcases h.outbox_from ho' with hold | ⟨o₁, ho₁, hr⟩ | ⟨o₁, ho₁, hstep, -⟩ | ⟨hnew, -⟩
  · exact ho.row o' hold hid
  · -- a claim is taken back from a row that is being delivered
    obtain rfl := ho.row o₁ ho₁ (hr.eventId.1.symm.trans hid)
    cases hr with
    | interrupted hs | expired _ _ hs => simp [hs] at hstate
  · obtain rfl := ho.row o₁ ho₁ (hstep.eventId.1.symm.trans hid)
    cases hstep with
    | claimed _ _ hs | delivered _ hs | failed _ _ _ _ hs => simp [hs] at hstate
  · exact absurd (hid.symm.trans hnew) ho.drawn.ne

theorem Settled.run {o : OutboxRow} (ho : Settled o s) (hstate : o.state = .delivered ∨ o.state = .dead)
    (is : List (StoreCall × Reading)) : Settled o (Machine.run (step cfg) s is) :=
  Machine.run_induct (fun _ i h => step_induct i h.wellFormed h fun _ _ _ h hc => h.change hstate hc) ho is

/-- Delivery is fenced. After every run of the store, with any number of deliverers that hold any tokens:
a row carries a token exactly while it is being delivered, and one token stands for one event; a token that does not stand in
the row of the event, and none at all, is refused, and a token that is stale or of another event is refused for good; every
claim was settled at most once; a row that is delivered or dead stays the row it is; and the attempts of a row are the
failures that were reported for it with `true`. -/
theorem delivery_fenced (cfg : StoreConfig) (is : List (StoreCall × Reading)) :
    (∀ o ∈ (Machine.run (step cfg) (create cfg 0) is).outbox, o.deliveryAttemptId ≠ none ↔ o.state = .delivering) ∧
      (∀ e e' t t', Carries e t (Machine.run (step cfg) (create cfg 0) is) →
        Carries e' t' (Machine.run (step cfg) (create cfg 0) is) → (e = e' ↔ t = t')) ∧
      (∀ e token, (∀ t ∈ token, ¬Carries e t (Machine.run (step cfg) (create cfg 0) is)) →
        Refused cfg e token (Machine.run (step cfg) (create cfg 0) is)) ∧
      (∀ e t, Spent e t (Machine.run (step cfg) (create cfg 0) is) → ∀ js,
        Refused cfg e (some t) (Machine.run (step cfg) (create cfg 0) (is ++ js))) ∧
      (∀ e e' t, Carries e t (Machine.run (step cfg) (create cfg 0) is) → e ≠ e' → ∀ js,
        Refused cfg e' (some t) (Machine.run (step cfg) (create cfg 0) (is ++ js))) ∧
      (Machine.outputs (step cfg) (settled cfg) (create cfg 0) is).Nodup ∧
      (∀ o ∈ (Machine.run (step cfg) (create cfg 0) is).outbox, o.state = .delivered ∨ o.state = .dead → ∀ js,
        ∀ o' ∈ (Machine.run (step cfg) (create cfg 0) (is ++ js)).outbox, o'.eventId = o.eventId → o' = o) ∧
      ∀ o ∈ (Machine.run (step cfg) (create cfg 0) is).outbox,
        o.attempts = (Machine.outputs (step cfg) (failures cfg) (create cfg 0) is).count o.eventId := by
  have hreach : Reachable cfg (Machine.run (step cfg) (create cfg 0) is) := ⟨is, rfl⟩
  have hs := hreach.wellFormed
  have hf := hreach.fenced
  have hone : ∀ e e' t t', Carries e t (Machine.run (step cfg) (create cfg 0) is) →
      Carries e' t' (Machine.run (step cfg) (create cfg 0) is) → (e = e' ↔ t = t') := by
    rintro e e' t t' ⟨o, ho, rfl, ht⟩ ⟨o', ho', rfl, ht'⟩
    constructor
    · intro hid
      obtain rfl := Table.eq_of_key OutboxRow.eventId hs.eventIds ho ho' hid
      exact Option.some.inj (ht.symm.trans ht')
    · rintro rfl
      rw [hf.unique o ho o' ho' t ht ht']
  have hspent : ∀ e t, Spent e t (Machine.run (step cfg) (create cfg 0) is) → ∀ js,
      Refused cfg e (some t) (Machine.run (step cfg) (create cfg 0) (is ++ js)) := by
    intro e t hsp js
    rw [Machine.run_append]
    refine refused_of_not_carries cfg (hs.run js) ?_
    rintro t' ⟨⟩
    exact (hsp.run hs js).2
  refine ⟨hf.delivering, hone, fun e token h => refused_of_not_carries cfg hs h, hspent, ?_, nodup_settled is, ?_,
    fun o ho => attempts_eq_count is ho⟩
  · intro e e' t hc hne js
    have hdrawn : t < (Machine.run (step cfg) (create cfg 0) is).drawn := by
      obtain ⟨o, ho, -, ht⟩ := hc
      exact hs.tokenDrawn o ho t ht
    exact hspent e' t ⟨hdrawn, fun hc' => hne ((hone e e' t t hc hc').2 rfl)⟩ js
  · intro o ho hstate js o' ho' hid
    rw [Machine.run_append] at ho'
    have hsettled : Settled o (Machine.run (step cfg) (create cfg 0) is) :=
      ⟨hs, hs.eventDrawn o ho, fun x hx => Table.eq_of_key OutboxRow.eventId hs.eventIds hx ho⟩
    exact (hsettled.run hstate js).row o' ho' hid

end Store

end SharkRail
