import SharkRail.Lemmas.Statements

/-!
# The keys of the tables

What the constraints of the schema say of every store, and where its ids come from: job ids, event ids and
tenant and key pairs are unique, every id was drawn, an outbox row belongs to a job, a manifest to none. Every change keeps
this (`WellFormed.change`).
-/

namespace SharkRail

namespace Store

/-- The keys of the tables are unique, and every id was drawn. -/
structure WellFormed (s : Store) : Prop where
  jobIds : (s.jobs.map (·.id)).Nodup
  keys : (s.jobs.map fun r => (r.tenantId, r.idempotencyKey)).Nodup
  eventIds : (s.outbox.map (·.eventId)).Nodup
  jobDrawn : ∀ r ∈ s.jobs, r.id < s.drawn
  attemptDrawn : ∀ r ∈ s.jobs, ∀ a ∈ r.attemptId, a < s.drawn
  eventDrawn : ∀ o ∈ s.outbox, o.eventId < s.drawn
  tokenDrawn : ∀ o ∈ s.outbox, ∀ t ∈ o.deliveryAttemptId, t < s.drawn
  outboxJob : ∀ o ∈ s.outbox, ∃ r ∈ s.jobs, r.id = o.jobId
  manifestDrawn : ∀ d ∈ s.deletions, d.jobId < s.drawn
  manifestGone : ∀ d ∈ s.deletions, ∀ r ∈ s.jobs, r.id ≠ d.jobId

/-- A moved row keeps its id, its tenant and its key. -/
theorem RowStep.key {drawn : Uuid} {clock : Reading} {row row' : JobRow} {call : StoreCall} {kind : Option String}
    {notes : List OutboxRow} (h : RowStep drawn clock row call row' kind notes) :
    row'.id = row.id ∧ row'.tenantId = row.tenantId ∧ row'.idempotencyKey = row.idempotencyKey ∧
      row'.requestHash = row.requestHash := by
  cases h <;> exact ⟨rfl, rfl, rfl, rfl⟩

/-- A moved row keeps its attempt, unless it is claimed. -/
theorem RowStep.attemptId {drawn : Uuid} {clock : Reading} {row row' : JobRow} {call : StoreCall} {kind : Option String}
    {notes : List OutboxRow} (h : RowStep drawn clock row call row' kind notes) :
    row'.attemptId = row.attemptId ∨ row'.attemptId = some drawn := by
  cases h with
  | assigned => exact Or.inr rfl
  | running | renewed | finished | cancelRequested | cancelled | interrupted | leaseExpired => exact Or.inl rfl

/-- A notification of a moved row is of its job, under the next id, and new. -/
theorem RowStep.notes {drawn : Uuid} {clock : Reading} {row row' : JobRow} {call : StoreCall} {kind : Option String}
    {notes : List OutboxRow} (h : RowStep drawn clock row call row' kind notes) :
    notes.length ≤ 1 ∧ ∀ o ∈ notes,
      o.eventId = drawn ∧ o.jobId = row.id ∧ o.state = .pending ∧ o.deliveryAttemptId = none ∧ o.attempts = 0 := by
  cases h with
  | assigned | running | renewed | cancelRequested => exact ⟨by simp, by simp⟩
  | finished | cancelled | interrupted | leaseExpired =>
    refine ⟨length_notifications_le _ _ _, fun o ho => ?_⟩
    obtain ⟨h1, h2, h3⟩ := mem_notifications ho
    exact ⟨h1, h2, h3⟩

theorem Released.eventId {clock : Reading} {o o' : OutboxRow} {call : StoreCall} (h : Released clock o call o') :
    o'.eventId = o.eventId ∧ o'.jobId = o.jobId ∧ o'.deliveryAttemptId = none := by
  cases h <;> exact ⟨rfl, rfl, rfl⟩

theorem OutboxStep.eventId {drawn : Uuid} {clock : Reading} {o o' : OutboxRow} {call : StoreCall}
    (h : OutboxStep drawn clock o call o') : o'.eventId = o.eventId ∧ o'.jobId = o.jobId := by
  cases h <;> exact ⟨rfl, rfl⟩

variable {cfg : StoreConfig} {call : StoreCall} {clock : Reading} {s s' : Store}

/-- A store just created has empty tables. -/
theorem create_tables (cfg : StoreConfig) (drawn : Nat) :
    (create cfg drawn).jobs = [] ∧ (create cfg drawn).outbox = [] ∧ (create cfg drawn).deletions = [] ∧
      (create cfg drawn).events = [] ∧ (create cfg drawn).drawn = drawn + 1 ∧ (create cfg drawn).nextSeq = 1 := by
  unfold create
  split <;> exact ⟨rfl, rfl, rfl, rfl, rfl, rfl⟩

theorem wellFormed_create (drawn : Nat) : WellFormed (create cfg drawn) := by
  obtain ⟨hj, ho, hd, -⟩ := create_tables cfg drawn
  constructor <;> simp [hj, ho, hd]

/-- No change gives a drawn value back. -/
theorem Change.drawn_le (h : Change cfg call clock s s') : s.drawn ≤ s'.drawn := by
  cases h with
  | accepted _ _ _ _ _ _ _ _ _ _ _ hdrawn => omega
  | moved _ _ _ _ _ _ _ _ _ _ _ hdrawn => exact hdrawn
  | released _ _ _ _ _ _ hdrawn => exact hdrawn.ge
  | delivery _ _ _ _ _ _ _ _ hdrawn => exact hdrawn
  | pruned _ _ _ _ _ _ _ _ _ _ _ hdrawn => exact hdrawn.ge
  | cleared _ _ _ _ _ _ hdrawn => exact hdrawn.ge
  | restarted _ htables =>
    split at htables <;> subst htables
    · rw [(create_tables cfg s.drawn).2.2.2.2.1]
      omega
    · exact Nat.le_refl _

/-- A job accepted keeps the keys unique. -/
theorem WellFormed.accepted (hs : WellFormed s) {row : JobRow} (hid : row.id = s.drawn) (hattempt : row.attemptId = none)
    (hnew : ∀ r ∈ s.jobs, ¬(r.tenantId = row.tenantId ∧ r.idempotencyKey = row.idempotencyKey))
    (hjobs : s'.jobs = Table.insert s.jobs row) (houtbox : s'.outbox = s.outbox)
    (hdeletions : s'.deletions = s.deletions) (hdrawn : s'.drawn = s.drawn + 1) : WellFormed s' := by
  have hmem : ∀ r, r ∈ s'.jobs ↔ r ∈ s.jobs ∨ r = row := fun r => by rw [hjobs, Table.mem_insert]
  have hle : s.drawn ≤ s'.drawn := hdrawn ▸ Nat.le_succ _
  refine ⟨?_, ?_, ?_, ?_, ?_, ?_, ?_, ?_, ?_, ?_⟩
  · rw [hjobs, Table.insert, List.map_append, List.nodup_append]
    refine ⟨hs.jobIds, by simp, ?_⟩
    intro a ha b hb e
    obtain ⟨r, hr, rfl⟩ := List.mem_map.1 ha
    rw [List.map_singleton, List.mem_singleton, hid] at hb
    exact (hs.jobDrawn r hr).ne (e.trans hb)
  · rw [hjobs, Table.insert, List.map_append, List.nodup_append]
    refine ⟨hs.keys, by simp, ?_⟩
    intro a ha b hb e
    obtain ⟨r, hr, rfl⟩ := List.mem_map.1 ha
    simp only [List.map_cons, List.map_nil, List.mem_singleton] at hb
    rw [hb, Prod.mk.injEq] at e
    exact hnew r hr e
  · rw [houtbox]; exact hs.eventIds
  · intro r hr
    rcases (hmem r).1 hr with hr | rfl
    · exact (hs.jobDrawn r hr).trans_le hle
    · rw [hid, hdrawn]
      exact Nat.lt_succ_self _
  · intro r hr a ha
    rcases (hmem r).1 hr with hr | rfl
    · exact (hs.attemptDrawn r hr a ha).trans_le hle
    · rw [hattempt] at ha
      cases ha
  · intro o ho
    exact (hs.eventDrawn o (houtbox ▸ ho)).trans_le hle
  · intro o ho t ht
    exact (hs.tokenDrawn o (houtbox ▸ ho) t ht).trans_le hle
  · intro o ho
    obtain ⟨r, hr, hro⟩ := hs.outboxJob o (houtbox ▸ ho)
    exact ⟨r, (hmem r).2 (Or.inl hr), hro⟩
  · intro d hd
    exact (hs.manifestDrawn d (hdeletions ▸ hd)).trans_le hle
  · intro d hd r hr e
    rcases (hmem r).1 hr with hr | rfl
    · exact hs.manifestGone d (hdeletions ▸ hd) r hr e
    · exact (hs.manifestDrawn d (hdeletions ▸ hd)).ne (e.symm.trans hid)

/-- A row moved keeps the keys unique. -/
theorem WellFormed.moved (hs : WellFormed s) {row row' : JobRow} {kind : Option String} {notes : List OutboxRow}
    (hrow : row ∈ s.jobs) (hstep : RowStep s.drawn clock row call row' kind notes)
    (hjobs : s'.jobs = replaceJob row.id row' s.jobs) (houtbox : s'.outbox = s.outbox ++ notes)
    (hdeletions : s'.deletions = s.deletions) (hdrawn : s.drawn ≤ s'.drawn)
    (hused : row'.attemptId ≠ row.attemptId ∨ notes ≠ [] → s'.drawn = s.drawn + 1) : WellFormed s' := by
  obtain ⟨hid, htenant, hkey, -⟩ := hstep.key
  obtain ⟨hlen, hnotes⟩ := hstep.notes
  have hmem : ∀ r ∈ s'.jobs, r ∈ s.jobs ∨ r = row' := by
    intro r hr
    rw [hjobs, mem_replaceJob] at hr
    rcases hr with ⟨hr, -⟩ | ⟨hr, -⟩
    · exact Or.inl hr
    · exact Or.inr hr
  have hids : s'.jobs.map (·.id) = s.jobs.map (·.id) := by
    rw [hjobs]
    exact map_replaceJob _ hs.jobIds hrow hid
  have hdr : ∀ o ∈ notes, s'.drawn = s.drawn + 1 := fun o ho => hused (Or.inr (List.ne_nil_of_mem ho))
  have hout : ∀ o, o ∈ s'.outbox ↔ o ∈ s.outbox ∨ o ∈ notes := fun o => by rw [houtbox, List.mem_append]
  refine ⟨by rw [hids]; exact hs.jobIds, ?_, ?_, ?_, ?_, ?_, ?_, ?_, ?_, ?_⟩
  · rw [hjobs, map_replaceJob (fun r => (r.tenantId, r.idempotencyKey)) hs.jobIds hrow (by rw [htenant, hkey])]
    exact hs.keys
  · rw [houtbox, List.map_append, List.nodup_append]
    refine ⟨hs.eventIds, ?_, ?_⟩
    · exact Table.nodup_map_of_length_le_one hlen
    · intro a ha b hb e
      obtain ⟨o, ho, rfl⟩ := List.mem_map.1 ha
      obtain ⟨o', ho', rfl⟩ := List.mem_map.1 hb
      exact (hs.eventDrawn o ho).ne (e.trans (hnotes o' ho').1)
  · intro r hr
    rcases hmem r hr with hr | rfl
    · exact (hs.jobDrawn r hr).trans_le hdrawn
    · exact hid ▸ (hs.jobDrawn row hrow).trans_le hdrawn
  · intro r hr a ha
    rcases hmem r hr with hr | rfl
    · exact (hs.attemptDrawn r hr a ha).trans_le hdrawn
    · by_cases hsame : r.attemptId = row.attemptId
      · exact (hs.attemptDrawn row hrow a (hsame ▸ ha)).trans_le hdrawn
      · rw [hstep.attemptId.resolve_left hsame] at ha
        cases ha
        rw [hused (Or.inl hsame)]
        exact Nat.lt_succ_self _
  · intro o ho
    rcases (hout o).1 ho with ho | ho
    · exact (hs.eventDrawn o ho).trans_le hdrawn
    · rw [(hnotes o ho).1, hdr o ho]
      exact Nat.lt_succ_self _
  · intro o ho t ht
    rcases (hout o).1 ho with ho | ho
    · exact (hs.tokenDrawn o ho t ht).trans_le hdrawn
    · rw [(hnotes o ho).2.2.2.1] at ht
      cases ht
  · intro o ho
    have hback : ∀ r ∈ s.jobs, ∃ r' ∈ s'.jobs, r'.id = r.id := by
      intro r hr
      have : r.id ∈ s'.jobs.map (·.id) := hids ▸ List.mem_map_of_mem hr
      obtain ⟨r', hr', e⟩ := List.mem_map.1 this
      exact ⟨r', hr', e⟩
    rcases (hout o).1 ho with ho | ho
    · obtain ⟨r, hr, hro⟩ := hs.outboxJob o ho
      obtain ⟨r', hr', e⟩ := hback r hr
      exact ⟨r', hr', e.trans hro⟩
    · obtain ⟨r', hr', e⟩ := hback row hrow
      exact ⟨r', hr', e.trans (hnotes o ho).2.1.symm⟩
  · intro d hd
    exact (hs.manifestDrawn d (hdeletions ▸ hd)).trans_le hdrawn
  · intro d hd r hr e
    rcases hmem r hr with hr | rfl
    · exact hs.manifestGone d (hdeletions ▸ hd) r hr e
    · exact hs.manifestGone d (hdeletions ▸ hd) row hrow (hid ▸ e)

/-- Outbox rows changed in place keep the keys unique. -/
theorem WellFormed.outbox (hs : WellFormed s) (hids : s'.outbox.map (·.eventId) = s.outbox.map (·.eventId))
    (hof : ∀ o' ∈ s'.outbox, ∃ o ∈ s.outbox, o'.eventId = o.eventId ∧ o'.jobId = o.jobId ∧
      ∀ t ∈ o'.deliveryAttemptId, t ∈ o.deliveryAttemptId ∨ t < s'.drawn)
    (hjobs : s'.jobs = s.jobs) (hdeletions : s'.deletions = s.deletions) (hdrawn : s.drawn ≤ s'.drawn) :
    WellFormed s' := by
  refine ⟨?_, ?_, ?_, ?_, ?_, ?_, ?_, ?_, ?_, ?_⟩
  · rw [hjobs]; exact hs.jobIds
  · rw [hjobs]; exact hs.keys
  · rw [hids]; exact hs.eventIds
  · intro r hr
    exact (hs.jobDrawn r (hjobs ▸ hr)).trans_le hdrawn
  · intro r hr a ha
    exact (hs.attemptDrawn r (hjobs ▸ hr) a ha).trans_le hdrawn
  · intro o' ho'
    obtain ⟨o, ho, he, -⟩ := hof o' ho'
    exact he ▸ (hs.eventDrawn o ho).trans_le hdrawn
  · intro o' ho' t ht
    obtain ⟨o, ho, -, -, htok⟩ := hof o' ho'
    rcases htok t ht with h | h
    · exact (hs.tokenDrawn o ho t h).trans_le hdrawn
    · exact h
  · intro o' ho'
    obtain ⟨o, ho, -, hj, -⟩ := hof o' ho'
    rw [hjobs, hj]
    exact hs.outboxJob o ho
  · intro d hd
    exact (hs.manifestDrawn d (hdeletions ▸ hd)).trans_le hdrawn
  · intro d hd r hr
    exact hs.manifestGone d (hdeletions ▸ hd) r (hjobs ▸ hr)

/-- Every change keeps the keys unique. -/
theorem WellFormed.change (hs : WellFormed s) (h : Change cfg call clock s s') : WellFormed s' := by
  cases h with
  | accepted tenantId key spec hcall hspec hnew hroom hjobs hevents houtbox hdeletions hdrawn =>
    exact hs.accepted rfl rfl hnew hjobs houtbox hdeletions hdrawn
  | moved row row' kind notes hrow hstep hjobs hevents hquiet houtbox hdeletions hdrawn hused =>
    exact hs.moved hrow hstep hjobs houtbox hdeletions hdrawn hused
  | released f hstep houtbox hjobs hevents hdeletions hdrawn =>
    have hf : ∀ o ∈ s.outbox, (f o).eventId = o.eventId ∧ (f o).jobId = o.jobId ∧
        ∀ t ∈ (f o).deliveryAttemptId, t ∈ o.deliveryAttemptId := by
      intro o ho
      rcases hstep o ho with h | h
      · rw [h]
        exact ⟨rfl, rfl, fun t ht => ht⟩
      · obtain ⟨h1, h2, h3⟩ := h.eventId
        refine ⟨h1, h2, fun t ht => ?_⟩
        rw [h3] at ht
        cases ht
    apply hs.outbox _ _ hjobs hdeletions hdrawn.ge
    · rw [houtbox, List.map_map]
      exact List.map_congr_left fun o ho => (hf o ho).1
    · intro o' ho'
      rw [houtbox] at ho'
      obtain ⟨o, ho, rfl⟩ := List.mem_map.1 ho'
      exact ⟨o, ho, (hf o ho).1, (hf o ho).2.1, fun t ht => Or.inl ((hf o ho).2.2 t ht)⟩
  | delivery o o' ho hstep houtbox hjobs hevents hdeletions hdrawn hused =>
    obtain ⟨he, hj⟩ := hstep.eventId
    apply hs.outbox _ _ hjobs hdeletions hdrawn
    · rw [houtbox]
      exact map_replaceOutbox _ hs.eventIds ho he
    · intro x hx
      rw [houtbox, mem_replaceOutbox] at hx
      rcases hx with ⟨hx, -⟩ | ⟨rfl, -⟩
      · exact ⟨x, hx, rfl, rfl, fun t ht => Or.inl ht⟩
      · exact ⟨o, ho, he, hj, fun t ht => Or.inr (hused t ht)⟩
  | pruned hasCleaner cutoff row hcall hrow hprunable houtput hjobs houtbox hevents hdeletions hdrawn =>
    have hmem : ∀ r, r ∈ s'.jobs ↔ r ∈ s.jobs ∧ r.id ≠ row.id := fun r => by rw [hjobs]; simp
    have hout : ∀ o, o ∈ s'.outbox ↔ o ∈ s.outbox ∧ o.jobId ≠ row.id := fun o => by rw [houtbox]; simp
    have hdel : ∀ d ∈ s'.deletions, d ∈ s.deletions ∨ d.jobId = row.id := by
      intro d hd
      rw [hdeletions] at hd
      split at hd
      · exact Or.inl hd
      · rw [Table.mem_insert] at hd
        rcases hd with hd | rfl
        · exact Or.inl hd
        · exact Or.inr rfl
    refine ⟨?_, ?_, ?_, ?_, ?_, ?_, ?_, ?_, ?_, ?_⟩
    · rw [hjobs]
      exact hs.jobIds.sublist Table.sublist_map_delete
    · rw [hjobs]
      exact hs.keys.sublist Table.sublist_map_delete
    · rw [houtbox]
      exact hs.eventIds.sublist Table.sublist_map_delete
    · intro r hr
      exact hdrawn ▸ hs.jobDrawn r ((hmem r).1 hr).1
    · intro r hr a ha
      exact hdrawn ▸ hs.attemptDrawn r ((hmem r).1 hr).1 a ha
    · intro o ho
      exact hdrawn ▸ hs.eventDrawn o ((hout o).1 ho).1
    · intro o ho t ht
      exact hdrawn ▸ hs.tokenDrawn o ((hout o).1 ho).1 t ht
    · intro o ho
      obtain ⟨ho, hne⟩ := (hout o).1 ho
      obtain ⟨r, hr, hro⟩ := hs.outboxJob o ho
      exact ⟨r, (hmem r).2 ⟨hr, hro ▸ hne⟩, hro⟩
    · intro d hd
      rw [hdrawn]
      rcases hdel d hd with hd | hd
      · exact hs.manifestDrawn d hd
      · exact hd ▸ hs.jobDrawn row hrow
    · intro d hd r hr
      obtain ⟨hr, hne⟩ := (hmem r).1 hr
      rcases hdel d hd with hd | hd
      · exact hs.manifestGone d hd r hr
      · exact hd ▸ hne
  | cleared jobId hcall hdeletions hjobs houtbox hevents hdrawn =>
    have hdel : ∀ d ∈ s'.deletions, d ∈ s.deletions := by
      intro d hd
      rw [hdeletions] at hd
      exact (Table.mem_delete.1 hd).1
    obtain ⟨h1, h2, h3, h4, h5, h6, h7, h8, h9, h10⟩ := hs
    rw [← hjobs] at h1 h2 h4 h5 h8
    rw [← houtbox] at h3 h6 h7 h8
    rw [← hdrawn] at h4 h5 h6 h7
    exact ⟨h1, h2, h3, h4, h5, h6, h7, h8, fun d hd => hdrawn ▸ h9 d (hdel d hd),
      fun d hd r hr => h10 d (hdel d hd) r (hjobs ▸ hr)⟩
  | restarted hcall htables =>
    split at htables <;> subst htables
    · exact wellFormed_create _
    · exact ⟨hs.jobIds, hs.keys, hs.eventIds, hs.jobDrawn, hs.attemptDrawn, hs.eventDrawn, hs.tokenDrawn, hs.outboxJob,
        hs.manifestDrawn, hs.manifestGone⟩

end Store

end SharkRail
