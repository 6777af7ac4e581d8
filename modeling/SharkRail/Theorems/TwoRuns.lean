import SharkRail.Theorems.Isolation

/-!
# Two runs of a tenant

The calls of a tenant over two services that agree on what is the tenant's, whatever else they hold: the same calls get the same answers,
up to the ids of new jobs and timestamps, as long as no limit is reached. The invariant is `Alike`: the jobs of the tenant correspond one
to one, with their notifications and their output.
-/

namespace SharkRail

/-- A row without its ids and its timestamps. -/
def JobRow.masked (r : JobRow) : JobRow :=
  { r with
    id := 0
    storeEpoch := 0
    createdAt := 0
    updatedAt := 0
    startedAt := r.startedAt.map fun _ => 0
    completedAt := r.completedAt.map fun _ => 0
    leaseExpiresAt := r.leaseExpiresAt.map fun _ => 0
    conditionsJson := r.conditionsJson.map fun condition => { condition with transitionTime := 0 } }

/-- What corresponds in two runs: ids of jobs, ids of stores, and timestamps. -/
structure Correspondence where
  ids : Uuid → Uuid → Prop
  epochs : Uuid → Uuid → Prop
  times : Instant → Instant → Prop

/-- A relation that gives nothing two counterparts. -/
def OneToOne (R : Uuid → Uuid → Prop) : Prop := (∀ x y y', R x y → R x y' → y = y') ∧ ∀ x x' y, R x y → R x' y → x = x'

/-- The same job in two runs, up to ids and timestamps. -/
structure SameJob (c : Correspondence) (job₁ job₂ : JobRecord) : Prop where
  ids : c.ids job₁.id job₂.id
  epochs : c.epochs job₁.storeEpoch job₂.storeEpoch
  masked : job₁.toJobRow.masked = job₂.toJobRow.masked
  spec : job₁.spec = job₂.spec

/-- The same answer in two runs, up to ids and timestamps. -/
inductive SameAnswer (c : Correspondence) : Except RequestError Answer → Except RequestError Answer → Prop where
  | submitted (job₁ job₂ : JobRecord) (created : Bool) (h : SameJob c job₁ job₂) :
      SameAnswer c (.ok (.submitted job₁ created)) (.ok (.submitted job₂ created))
  | job (job₁ job₂ : JobRecord) (h : SameJob c job₁ job₂) : SameAnswer c (.ok (.job job₁)) (.ok (.job job₂))
  | result (job₁ job₂ : JobRecord) (h : SameJob c job₁ job₂) : SameAnswer c (.ok (.result job₁.toDict)) (.ok (.result job₂.toDict))
  | output (data : Bytes) : SameAnswer c (.ok (.output data)) (.ok (.output data))
  | missing (jobId₁ jobId₂ : Uuid) (h : c.ids jobId₁ jobId₂) :
      SameAnswer c (.error (.store (.jobNotFound jobId₁))) (.error (.store (.jobNotFound jobId₂)))
  | raised (e : RequestError) (h : ∀ jobId, e ≠ .store (.jobNotFound jobId)) : SameAnswer c (.error e) (.error e)

/-- A notification of a job is still to be delivered. -/
def Store.announcing (s : Store) (jobId : Uuid) : Bool := s.outbox.any fun o => o.jobId = jobId && o.state.undelivered

/-- Every row of each table has its counterpart in the other. -/
structure Table.Matched {α : Type} (R : α → α → Prop) (t₁ t₂ : List α) : Prop where
  forth : ∀ a ∈ t₁, ∃ b ∈ t₂, R a b
  back : ∀ b ∈ t₂, ∃ a ∈ t₁, R a b

/-- The jobs of a tenant. -/
def Store.jobsOf (tenantId : String) (s : Store) : List JobRow := Table.select (fun r => r.tenantId = tenantId) s.jobs

namespace Tenant

variable (cfg : RequestConfig) (c : Correspondence)

/-- A job and what the service has of it, in two runs. -/
structure Counterpart (s₁ s₂ : Service) (r₁ r₂ : JobRow) : Prop where
  ids : c.ids r₁.id r₂.id
  epochs : c.epochs r₁.storeEpoch r₂.storeEpoch
  masked : r₁.masked = r₂.masked
  completedAt : ∀ t₁ ∈ r₁.completedAt, ∀ t₂ ∈ r₂.completedAt, c.times t₁ t₂
  announcing : s₁.store.announcing r₁.id = s₂.store.announcing r₂.id
  files : ∀ stream, s₁.output.read cfg.output r₁.id (r₁.path stream) = s₂.output.read cfg.output r₂.id (r₂.path stream)

/-- Two services that a tenant can not tell apart. -/
structure Alike (tenantId : String) (s₁ s₂ : Service) : Prop where
  reachable : Store.Reachable cfg.store s₁.store ∧ Store.Reachable cfg.store s₂.store
  paths : s₁.store.OwnPaths cfg.output ∧ s₂.store.OwnPaths cfg.output
  epochs : c.epochs s₁.store.storeEpoch s₂.store.storeEpoch
  jobs : Table.Matched (Counterpart cfg c s₁ s₂) (s₁.store.jobsOf tenantId) (s₂.store.jobsOf tenantId)

variable {cfg c} {s₁ s₂ s₁' s₂' : Service} {tenantId : String} {r₁ r₂ : JobRow} {jobId₁ jobId₂ : Uuid}

/-- The jobs of a tenant are the rows that have it. -/
theorem mem_jobsOf {s : Store} {r : JobRow} : r ∈ s.jobsOf tenantId ↔ r ∈ s.jobs ∧ r.tenantId = tenantId := by
  simp [Store.jobsOf]

/-! ## Reading -/

/-- A column that is neither an id nor a timestamp is the same in both runs. -/
theorem Counterpart.column {α : Type} (h : Counterpart cfg c s₁ s₂ r₁ r₂) (column : JobRow → α)
    (hmasked : ∀ r, column r.masked = column r) :
    column r₁ = column r₂ :=
  calc column r₁ = column r₁.masked := (hmasked r₁).symm
    _ = column r₂.masked := congrArg column h.masked
    _ = column r₂ := hmasked r₂

/-- Counterparts are read as the same job. -/
theorem Counterpart.sameJob (h : Counterpart cfg c s₁ s₂ r₁ r₂) (hs₁ : s₁.store.Readable) (hr₁ : r₁ ∈ s₁.store.jobs) :
    ∃ job₁ job₂, rowToJob r₁ = .ok job₁ ∧ rowToJob r₂ = .ok job₂ ∧ job₁.toJobRow = r₁ ∧ job₂.toJobRow = r₂ ∧ SameJob c job₁ job₂ := by
  obtain ⟨spec, hholds⟩ := hs₁ r₁ hr₁
  have hjson : r₁.specJson = r₂.specJson := h.column JobRow.specJson fun _ => rfl
  have hholds₂ : r₂.Holds spec := hholds.of_specJson hjson.symm
  exact ⟨_, _, hholds.rowToJob, hholds₂.rowToJob, rfl, rfl, h.ids, h.epochs, h.masked, rfl⟩

/-- A job that a tenant reads is there in both runs, or in none. -/
theorem Alike.selects (h : Alike cfg c tenantId s₁ s₂) (hids : OneToOne c.ids) (hjob : c.ids jobId₁ jobId₂) :
    (∃ r₁ r₂, s₁.store.selectJob jobId₁ (some tenantId) = .ok r₁ ∧ s₂.store.selectJob jobId₂ (some tenantId) = .ok r₂ ∧
      r₁ ∈ s₁.store.jobs ∧ r₂ ∈ s₂.store.jobs ∧ Counterpart cfg c s₁ s₂ r₁ r₂) ∨
    s₁.store.selectJob jobId₁ (some tenantId) = .error (.jobNotFound jobId₁) ∧
      s₂.store.selectJob jobId₂ (some tenantId) = .error (.jobNotFound jobId₂) := by
  by_cases hthere : ∃ r₁ ∈ s₁.store.jobs, r₁.id = jobId₁ ∧ r₁.tenantId = tenantId
  · obtain ⟨r₁, hr₁, rfl, htenant⟩ := hthere
    obtain ⟨r₂, hr₂, hcounterpart⟩ := h.jobs.forth r₁ (mem_jobsOf.2 ⟨hr₁, htenant⟩)
    obtain ⟨hr₂, htenant₂⟩ := mem_jobsOf.1 hr₂
    obtain rfl := hids.1 r₁.id jobId₂ r₂.id hjob hcounterpart.ids
    refine .inl ⟨r₁, r₂, Store.selectJob_of_mem h.reachable.1.wellFormed hr₁ ?_,
      Store.selectJob_of_mem h.reachable.2.wellFormed hr₂ ?_, hr₁, hr₂, hcounterpart⟩
    · rintro t ⟨⟩
      exact htenant
    · rintro t ⟨⟩
      exact htenant₂
  · refine .inr ⟨Store.selectJob_missing fun r hr hid => ⟨tenantId, rfl, fun htenant => hthere ⟨r, hr, hid, htenant⟩⟩,
      Store.selectJob_missing fun r hr hid => ⟨tenantId, rfl, fun htenant => ?_⟩⟩
    obtain ⟨r₁, hr₁, hcounterpart⟩ := h.jobs.back r (mem_jobsOf.2 ⟨hr, htenant⟩)
    obtain ⟨hr₁, htenant₁⟩ := mem_jobsOf.1 hr₁
    exact hthere ⟨r₁, hr₁, hids.2 r₁.id jobId₁ jobId₂ (hid ▸ hcounterpart.ids) hjob, htenant₁⟩

/-- What a tenant gets for a job in both runs. -/
theorem Alike.get (h : Alike cfg c tenantId s₁ s₂) (hids : OneToOne c.ids) (hjob : c.ids jobId₁ jobId₂) :
    (∃ job₁ job₂, s₁.get jobId₁ (some tenantId) = .ok job₁ ∧ s₂.get jobId₂ (some tenantId) = .ok job₂ ∧ SameJob c job₁ job₂ ∧
      ∀ stream, s₁.output.read cfg.output job₁.id (job₁.path stream) = s₂.output.read cfg.output job₂.id (job₂.path stream)) ∨
    s₁.get jobId₁ (some tenantId) = .error (.store (.jobNotFound jobId₁)) ∧
      s₂.get jobId₂ (some tenantId) = .error (.store (.jobNotFound jobId₂)) := by
  rcases h.selects hids hjob with ⟨r₁, r₂, hselect₁, hselect₂, hr₁, -, hcounterpart⟩ | ⟨hmissing₁, hmissing₂⟩
  · obtain ⟨job₁, job₂, hread₁, hread₂, hrow₁, hrow₂, hsame⟩ := hcounterpart.sameJob h.reachable.1.sound.readable hr₁
    refine .inl ⟨job₁, job₂, ?_, ?_, hsame, ?_⟩
    · unfold Service.get Store.get
      rw [hselect₁]
      exact congrArg (Except.mapError RequestError.store) hread₁
    · unfold Service.get Store.get
      rw [hselect₂]
      exact congrArg (Except.mapError RequestError.store) hread₂
    · rw [hrow₁, hrow₂]
      exact hcounterpart.files
  · exact .inr ⟨get_missing hmissing₁, get_missing hmissing₂⟩

/-- What `result` and `read_output` answer in both runs. -/
theorem Alike.result (h : Alike cfg c tenantId s₁ s₂) (hids : OneToOne c.ids) (hjob : c.ids jobId₁ jobId₂) :
    SameAnswer c (s₁.result jobId₁ (some tenantId)) (s₂.result jobId₂ (some tenantId)) := by
  unfold Service.result
  rcases h.get hids hjob with ⟨job₁, job₂, hget₁, hget₂, hsame, -⟩ | ⟨hmissing₁, hmissing₂⟩
  · have hphase : job₁.phase = job₂.phase :=
      calc job₁.phase = job₁.toJobRow.masked.phase := rfl
        _ = job₂.toJobRow.masked.phase := congrArg JobRow.phase hsame.masked
        _ = job₂.phase := rfl
    rw [hget₁, hget₂]
    dsimp only [bind, Except.bind]
    rw [hphase]
    split
    · exact .raised _ nofun
    · exact .result _ _ hsame
  · rw [hmissing₁, hmissing₂]
    exact .missing _ _ hjob

/-- The same bytes, or the same exception, are the same answer. -/
theorem sameAnswer_read {data₁ data₂ : Except RequestError Bytes} (h : data₁ = data₂)
    (hraised : ∀ e jobId, data₁ = .error e → e ≠ .store (.jobNotFound jobId)) :
    SameAnswer c (Answer.output <$> data₁) (Answer.output <$> data₂) := by
  subst h
  cases data₁ with
  | ok data => exact .output data
  | error e => exact .raised e fun jobId => hraised e jobId rfl

/-- To read the output of a job does not raise that a job is missing. -/
theorem read_raises {out : OutputConfig} {jobId : Uuid} {path : Option String} {o : Output} {e : RequestError}
    (h : o.read out jobId path = .error e) (missing : Uuid) : e ≠ .store (.jobNotFound missing) := by
  unfold Output.read at h
  cases path with
  | none => cases h
  | some path =>
    dsimp only at h
    split at h
    · cases h
    · cases h
      exact nofun

/-- Alike services give the same output. -/
theorem Alike.readOutput (h : Alike cfg c tenantId s₁ s₂) (hids : OneToOne c.ids) (hjob : c.ids jobId₁ jobId₂) (stream : String) :
    SameAnswer c (s₁.readOutput cfg jobId₁ stream (some tenantId)) (s₂.readOutput cfg jobId₂ stream (some tenantId)) := by
  unfold Service.readOutput
  rcases h.get hids hjob with ⟨job₁, job₂, hget₁, hget₂, -, hfiles⟩ | ⟨hmissing₁, hmissing₂⟩
  · rw [hget₁, hget₂]
    dsimp only [bind, Except.bind]
    split
    · exact sameAnswer_read (hfiles .stdout) fun e jobId hread => read_raises hread jobId
    · split
      · exact sameAnswer_read (hfiles .stderr) fun e jobId hread => read_raises hread jobId
      · exact .raised _ nofun
  · rw [hmissing₁, hmissing₂]
    exact .missing _ _ hjob

/-! ## Expiry -/

/-- What is read for a job is in one of its own files. -/
theorem read_congr {out : OutputConfig} {jobId : Uuid} {stream : Stream} {path : Option String} {o o' : Output}
    (hown : ∀ p ∈ path, p = outputPath out jobId stream)
    (hfiles : ∀ stream, o'.readStream jobId stream = o.readStream jobId stream) :
    o'.read out jobId path = o.read out jobId path := by
  unfold Output.read
  cases path with
  | none => rfl
  | some p =>
    obtain rfl := hown p rfl
    have hstream : ∃ found, streamOf out jobId (outputPath out jobId stream) = some found := by
      unfold streamOf
      split_ifs with hstdout hstderr
      · exact ⟨_, rfl⟩
      · exact ⟨_, rfl⟩
      · cases stream with
        | stdout => exact absurd rfl hstdout
        | stderr => exact absurd rfl hstderr
    obtain ⟨found, hfound⟩ := hstream
    dsimp only
    rw [hfound]
    dsimp only
    rw [hfiles]

/-- A stream is read in the directory of its job alone. -/
theorem readStream_congr {jobId : Uuid} {o o' : Output} (hdirs : o'.dirs.lookup (.job jobId) = o.dirs.lookup (.job jobId))
    (stream : Stream) : o'.readStream jobId stream = o.readStream jobId stream := by
  rw [Output.readStream, Output.readStream, hdirs]

/-- Whether a job is being announced depends on its own notifications. -/
theorem announcing_congr {s s' : Store} {jobId : Uuid} (h : ∀ o, o.jobId = jobId → (o ∈ s'.outbox ↔ o ∈ s.outbox)) :
    s'.announcing jobId = s.announcing jobId := by
  unfold Store.announcing
  rw [Bool.eq_iff_iff, List.any_eq_true, List.any_eq_true]
  constructor
  · rintro ⟨o, ho, hjob⟩
    rw [Bool.and_eq_true, decide_eq_true_eq] at hjob
    exact ⟨o, (h o hjob.1).1 ho, by simpa using hjob⟩
  · rintro ⟨o, ho, hjob⟩
    rw [Bool.and_eq_true, decide_eq_true_eq] at hjob
    exact ⟨o, (h o hjob.1).2 ho, by simpa using hjob⟩

/-- A job that both prunings keep still has its counterpart. -/
theorem Counterpart.pruned {kept₁ kept₂ : JobRow → Bool} (h : Counterpart cfg c s₁ s₂ r₁ r₂)
    (hown₁ : r₁.OwnPaths cfg.output) (hown₂ : r₂.OwnPaths cfg.output)
    (hp₁ : Service.Pruned cfg kept₁ s₁ s₁') (hp₂ : Service.Pruned cfg kept₂ s₂ s₂') (hr₁ : r₁ ∈ s₁'.store.jobs)
    (hr₂ : r₂ ∈ s₂'.store.jobs) : Counterpart cfg c s₁' s₂' r₁ r₂ := by
  refine ⟨h.ids, h.epochs, h.masked, h.completedAt, ?_, fun stream => ?_⟩
  · rw [announcing_congr (hp₁.outbox r₁ hr₁), announcing_congr (hp₂.outbox r₂ hr₂)]
    exact h.announcing
  · rw [read_congr (hown₁ stream) (readStream_congr (hp₁.dirs r₁ hr₁)), read_congr (hown₂ stream) (readStream_congr (hp₂.dirs r₂ hr₂))]
    exact h.files stream

/-- Prunings that keep the same jobs of the tenant. -/
theorem Alike.pruned {kept₁ kept₂ : JobRow → Bool} (h : Alike cfg c tenantId s₁ s₂) (hp₁ : Service.Pruned cfg kept₁ s₁ s₁')
    (hp₂ : Service.Pruned cfg kept₂ s₂ s₂') (hkept : ∀ r₁ r₂, Counterpart cfg c s₁ s₂ r₁ r₂ → kept₁ r₁ = kept₂ r₂) :
    Alike cfg c tenantId s₁' s₂' := by
  refine ⟨⟨hp₁.reachable, hp₂.reachable⟩, ⟨fun r hr => h.paths.1 r ((hp₁.jobs r).1 hr).1, fun r hr => h.paths.2 r ((hp₂.jobs r).1 hr).1⟩,
    ?_, fun r₁ hr₁ => ?_, fun r₂ hr₂ => ?_⟩
  · rw [hp₁.epoch, hp₂.epoch]
    exact h.epochs
  · obtain ⟨hr₁, htenant⟩ := mem_jobsOf.1 hr₁
    obtain ⟨hold₁, hkept₁⟩ := (hp₁.jobs r₁).1 hr₁
    obtain ⟨r₂, hr₂, hcounterpart⟩ := h.jobs.forth r₁ (mem_jobsOf.2 ⟨hold₁, htenant⟩)
    obtain ⟨hold₂, htenant₂⟩ := mem_jobsOf.1 hr₂
    have hr₂ := (hp₂.jobs r₂).2 ⟨hold₂, (hkept r₁ r₂ hcounterpart).symm.trans hkept₁⟩
    exact ⟨r₂, mem_jobsOf.2 ⟨hr₂, htenant₂⟩,
      hcounterpart.pruned (h.paths.1 r₁ hold₁) (h.paths.2 r₂ hold₂) hp₁ hp₂ hr₁ hr₂⟩
  · obtain ⟨hr₂, htenant⟩ := mem_jobsOf.1 hr₂
    obtain ⟨hold₂, hkept₂⟩ := (hp₂.jobs r₂).1 hr₂
    obtain ⟨r₁, hr₁, hcounterpart⟩ := h.jobs.back r₂ (mem_jobsOf.2 ⟨hold₂, htenant⟩)
    obtain ⟨hold₁, htenant₁⟩ := mem_jobsOf.1 hr₁
    have hr₁ := (hp₁.jobs r₁).2 ⟨hold₁, (hkept r₁ r₂ hcounterpart).trans hkept₂⟩
    exact ⟨r₁, mem_jobsOf.2 ⟨hr₁, htenant₁⟩,
      hcounterpart.pruned (h.paths.1 r₁ hold₁) (h.paths.2 r₂ hold₂) hp₁ hp₂ hr₁ hr₂⟩

/-- The clocks of two calls correspond: their readings do, and they put what corresponds on the same side of the cutoff. -/
structure SameClock (cfg : RequestConfig) (times : Instant → Instant → Prop) (clock₁ clock₂ : Reading) : Prop where
  now : times clock₁.now clock₂.now
  cutoff : Option.Rel (fun cutoff₁ cutoff₂ => ∀ t₁ t₂, times t₁ t₂ → (t₁ < cutoff₁ ↔ t₂ < cutoff₂))
    (clock₁.now.minusSeconds cfg.store.jobTtlSeconds) (clock₂.now.minusSeconds cfg.store.jobTtlSeconds)

/-- The jobs of the tenant expire in both runs, or in none. -/
theorem Counterpart.prunable {cutoff₁ cutoff₂ : Instant} (h : Counterpart cfg c s₁ s₂ r₁ r₂)
    (hcutoff : ∀ t₁ t₂, c.times t₁ t₂ → (t₁ < cutoff₁ ↔ t₂ < cutoff₂)) :
    s₁.store.prunable cutoff₁ r₁ = s₂.store.prunable cutoff₂ r₂ := by
  have hphase : r₁.phase = r₂.phase := h.column JobRow.phase fun _ => rfl
  have hannouncing : (s₁.store.outbox.any fun o => o.jobId = r₁.id && o.state.undelivered) =
      s₂.store.outbox.any fun o => o.jobId = r₂.id && o.state.undelivered := h.announcing
  have hcompleted : r₁.completedAt.map (fun _ => (0 : Instant)) = r₂.completedAt.map fun _ => 0 :=
    calc r₁.completedAt.map (fun _ => (0 : Instant)) = r₁.masked.completedAt := rfl
      _ = r₂.masked.completedAt := congrArg JobRow.completedAt h.masked
      _ = r₂.completedAt.map fun _ => 0 := rfl
  have hbefore : (r₁.completedAt.any fun t => t < cutoff₁) = r₂.completedAt.any fun t => t < cutoff₂ := by
    cases h₁ : r₁.completedAt with
    | none =>
      cases h₂ : r₂.completedAt with
      | none => rfl
      | some t₂ =>
        rw [h₁, h₂] at hcompleted
        cases hcompleted
    | some t₁ =>
      cases h₂ : r₂.completedAt with
      | none =>
        rw [h₁, h₂] at hcompleted
        cases hcompleted
      | some t₂ => exact decide_eq_decide.2 (hcutoff t₁ t₂ (h.completedAt t₁ h₁ t₂ h₂))
  unfold Store.prunable
  rw [hphase, hbefore, hannouncing]

/-- The pruning of a submission in both runs. -/
theorem Alike.pruneExpired (h : Alike cfg c tenantId s₁ s₂) {clock₁ clock₂ : Reading} (hclock : SameClock cfg c.times clock₁ clock₂)
    (before₁ after₁ before₂ after₂ : Uuid → Removal) :
    (s₁.pruneExpired cfg clock₁ before₁ after₁).1 = (s₂.pruneExpired cfg clock₂ before₂ after₂).1 ∧
      Alike cfg c tenantId (s₁.pruneExpired cfg clock₁ before₁ after₁).2 (s₂.pruneExpired cfg clock₂ before₂ after₂).2 := by
  have hpruned₁ := Service.pruneExpired_cases clock₁ before₁ after₁ h.reachable.1
  have hpruned₂ := Service.pruneExpired_cases clock₂ before₂ after₂ h.reachable.2
  have hcutoff := hclock.cutoff
  cases hcutoff₁ : clock₁.now.minusSeconds cfg.store.jobTtlSeconds with
  | none =>
    rw [hcutoff₁] at hpruned₁ hcutoff
    cases hcutoff₂ : clock₂.now.minusSeconds cfg.store.jobTtlSeconds with
    | some cutoff₂ =>
      rw [hcutoff₂] at hcutoff
      cases hcutoff
    | none =>
      rw [hcutoff₂] at hpruned₂
      obtain ⟨s₁', hreturned₁, hp₁⟩ := hpruned₁
      obtain ⟨s₂', hreturned₂, hp₂⟩ := hpruned₂
      rw [hreturned₁, hreturned₂]
      exact ⟨rfl, h.pruned hp₁ hp₂ fun _ _ _ => rfl⟩
  | some cutoff₁ =>
    rw [hcutoff₁] at hpruned₁ hcutoff
    cases hcutoff₂ : clock₂.now.minusSeconds cfg.store.jobTtlSeconds with
    | none =>
      rw [hcutoff₂] at hcutoff
      cases hcutoff
    | some cutoff₂ =>
      rw [hcutoff₂] at hpruned₂ hcutoff
      obtain ⟨s₁', hreturned₁, hp₁⟩ := hpruned₁
      obtain ⟨s₂', hreturned₂, hp₂⟩ := hpruned₂
      rw [hreturned₁, hreturned₂]
      cases hcutoff with
      | some hsides =>
        exact ⟨rfl, h.pruned hp₁ hp₂ fun r₁ r₂ hcounterpart => congrArg not (hcounterpart.prunable hsides)⟩

/-! ## Cancellation -/

/-- The intent to cancel is written alike whatever the ids and the times of the row are. -/
theorem masked_cancelRequestedRow (now : Instant) (r : JobRow) :
    (Store.cancelRequestedRow now r r).masked = (Store.cancelRequestedRow 0 r.masked r.masked).masked := by
  by_cases hqueued : r.phase = .queued <;>
    simp [Store.cancelRequestedRow, JobRow.masked, JobRow.cancelledSpecJson, JobRow.specData, hqueued, Function.comp_def]

/-- A job has the specification that its row is read as. -/
theorem spec_of_rowToJob {row : JobRow} {job : JobRecord} (h : rowToJob row = .ok job) : row.spec = .ok job.spec := by
  unfold rowToJob at h
  split at h
  · rename_i spec hspec
    cases h
    exact hspec
  · cases h

/-- A request to cancel announces the job if it was queued and names an endpoint. -/
theorem announcing_moved {s s' : Store} {now : Instant} {row : JobRow} {job : JobRecord}
    (h : Store.Moved cfg.store (Store.cancelMove now row) s s') (hread : rowToJob (Store.cancelRequestedRow now row row) = .ok job)
    (jobId : Uuid) :
    s'.announcing jobId =
      (s.announcing jobId || (decide (row.id = jobId) && (decide (row.phase = .queued) && (Store.endpointOf job.spec).isSome))) := by
  have hid : job.id = row.id := by
    rw [Store.rowToJob_eq hread]
    rfl
  unfold Store.announcing
  rw [h.outbox, List.any_append]
  congr 1
  unfold Store.Move.notes Store.notifications Store.cancelMove
  dsimp only
  rw [hread]
  by_cases hqueued : row.phase = .queued
  · cases hendpoint : Store.endpointOf job.spec with
    | none => simp [hqueued, hendpoint]
    | some endpoint => simp [hqueued, hendpoint, Store.notification, hid, OutboxState.undelivered]
  · simp [hqueued]

/-- Jobs stay counterparts when the notifications and the output of neither change. -/
theorem Counterpart.congr (h : Counterpart cfg c s₁ s₂ r₁ r₂) (hannouncing₁ : s₁'.store.announcing r₁.id = s₁.store.announcing r₁.id)
    (hannouncing₂ : s₂'.store.announcing r₂.id = s₂.store.announcing r₂.id) (houtput₁ : s₁'.output = s₁.output)
    (houtput₂ : s₂'.output = s₂.output) : Counterpart cfg c s₁' s₂' r₁ r₂ := by
  refine ⟨h.ids, h.epochs, h.masked, h.completedAt, ?_, fun stream => ?_⟩
  · rw [hannouncing₁, hannouncing₂]
    exact h.announcing
  · rw [houtput₁, houtput₂]
    exact h.files stream

/-- Services stay alike when neither their stores nor their outputs change. -/
theorem Alike.congr (h : Alike cfg c tenantId s₁ s₂) (hstore₁ : s₁'.store = s₁.store) (hstore₂ : s₂'.store = s₂.store)
    (houtput₁ : s₁'.output = s₁.output) (houtput₂ : s₂'.output = s₂.output) : Alike cfg c tenantId s₁' s₂' := by
  refine ⟨hstore₁ ▸ hstore₂ ▸ h.reachable, hstore₁ ▸ hstore₂ ▸ h.paths, hstore₁ ▸ hstore₂ ▸ h.epochs, fun r₁ hr₁ => ?_, fun r₂ hr₂ => ?_⟩
  · obtain ⟨r₂, hr₂, hcounterpart⟩ := h.jobs.forth r₁ (hstore₁ ▸ hr₁)
    exact ⟨r₂, hstore₂ ▸ hr₂, hcounterpart.congr (by rw [hstore₁]) (by rw [hstore₂]) houtput₁ houtput₂⟩
  · obtain ⟨r₁, hr₁, hcounterpart⟩ := h.jobs.back r₂ (hstore₂ ▸ hr₂)
    exact ⟨r₁, hstore₁ ▸ hr₁, hcounterpart.congr (by rw [hstore₁]) (by rw [hstore₂]) houtput₁ houtput₂⟩

/-- A job with the intent to cancel written into its row has its counterpart. -/
theorem Counterpart.cancelled {now₁ now₂ : Instant} {job₁ job₂ : JobRecord} (h : Counterpart cfg c s₁ s₂ r₁ r₂) (hnow : c.times now₁ now₂)
    (hmoved₁ : Store.Moved cfg.store (Store.cancelMove now₁ r₁) s₁.store s₁'.store)
    (hmoved₂ : Store.Moved cfg.store (Store.cancelMove now₂ r₂) s₂.store s₂'.store)
    (hread₁ : rowToJob (Store.cancelRequestedRow now₁ r₁ r₁) = .ok job₁)
    (hread₂ : rowToJob (Store.cancelRequestedRow now₂ r₂ r₂) = .ok job₂) (houtput₁ : s₁'.output = s₁.output)
    (houtput₂ : s₂'.output = s₂.output) :
    Counterpart cfg c s₁' s₂' (Store.cancelRequestedRow now₁ r₁ r₁) (Store.cancelRequestedRow now₂ r₂ r₂) := by
  have hphase : r₁.phase = r₂.phase := h.column JobRow.phase fun _ => rfl
  have hmasked : (Store.cancelRequestedRow now₁ r₁ r₁).masked = (Store.cancelRequestedRow now₂ r₂ r₂).masked := by
    rw [masked_cancelRequestedRow now₁, masked_cancelRequestedRow now₂, h.masked]
  have hspec : job₁.spec = job₂.spec := by
    have hjson : (Store.cancelRequestedRow now₁ r₁ r₁).specJson = (Store.cancelRequestedRow now₂ r₂ r₂).specJson :=
      h.column JobRow.cancelledSpecJson fun _ => rfl
    have hread : (Store.cancelRequestedRow now₁ r₁ r₁).spec = (Store.cancelRequestedRow now₂ r₂ r₂).spec := by
      unfold JobRow.spec JobRow.specData
      rw [hjson]
    exact Except.ok.inj ((spec_of_rowToJob hread₁).symm.trans (hread.trans (spec_of_rowToJob hread₂)))
  refine ⟨h.ids, h.epochs, hmasked, ?_, ?_, fun stream => ?_⟩
  · unfold Store.cancelRequestedRow
    dsimp only
    rw [hphase]
    split
    · rintro t₁ ⟨⟩ t₂ ⟨⟩
      exact hnow
    · exact h.completedAt
  · change s₁'.store.announcing r₁.id = s₂'.store.announcing r₂.id
    rw [announcing_moved hmoved₁ hread₁, announcing_moved hmoved₂ hread₂, h.announcing, hphase, hspec]
    simp
  · rw [houtput₁, houtput₂]
    cases stream with
    | stdout => exact h.files .stdout
    | stderr => exact h.files .stderr

/-- Requests to cancel a job that is there in both runs. -/
theorem Alike.cancelled {now₁ now₂ : Instant} {job₁ job₂ : JobRecord} (h : Alike cfg c tenantId s₁ s₂) (hids : OneToOne c.ids)
    (hcounterpart : Counterpart cfg c s₁ s₂ r₁ r₂) (hr₁ : r₁ ∈ s₁.store.jobs) (hr₂ : r₂ ∈ s₂.store.jobs) (hnow : c.times now₁ now₂)
    (hmoved₁ : Store.Moved cfg.store (Store.cancelMove now₁ r₁) s₁.store s₁'.store)
    (hmoved₂ : Store.Moved cfg.store (Store.cancelMove now₂ r₂) s₂.store s₂'.store)
    (hread₁ : rowToJob (Store.cancelRequestedRow now₁ r₁ r₁) = .ok job₁)
    (hread₂ : rowToJob (Store.cancelRequestedRow now₂ r₂ r₂) = .ok job₂) (houtput₁ : s₁'.output = s₁.output)
    (houtput₂ : s₂'.output = s₂.output)
    (hreachable : Store.Reachable cfg.store s₁'.store ∧ Store.Reachable cfg.store s₂'.store)
    (hpaths : s₁'.store.OwnPaths cfg.output ∧ s₂'.store.OwnPaths cfg.output)
    (hepochs : c.epochs s₁'.store.storeEpoch s₂'.store.storeEpoch) : Alike cfg c tenantId s₁' s₂' := by
  have hnew := hcounterpart.cancelled hnow hmoved₁ hmoved₂ hread₁ hread₂ houtput₁ houtput₂
  have htenants : r₁.tenantId = r₂.tenantId := hcounterpart.column JobRow.tenantId fun _ => rfl
  have hold : ∀ a b, Counterpart cfg c s₁ s₂ a b → a.id ≠ r₁.id → b.id ≠ r₂.id → Counterpart cfg c s₁' s₂' a b := by
    intro a b hab ha hb
    refine hab.congr ?_ ?_ houtput₁ houtput₂
    · rw [announcing_moved hmoved₁ hread₁, decide_eq_false ha.symm, Bool.false_and, Bool.or_false]
    · rw [announcing_moved hmoved₂ hread₂, decide_eq_false hb.symm, Bool.false_and, Bool.or_false]
  have hmem₁ : ∀ a, a ∈ s₁'.store.jobs ↔ (a ∈ s₁.store.jobs ∧ a.id ≠ r₁.id) ∨ a = Store.cancelRequestedRow now₁ r₁ r₁ := by
    intro a
    rw [hmoved₁.jobs, Store.mem_replaceJob]
    exact or_congr_right (and_iff_left ⟨r₁, hr₁, rfl⟩)
  have hmem₂ : ∀ b, b ∈ s₂'.store.jobs ↔ (b ∈ s₂.store.jobs ∧ b.id ≠ r₂.id) ∨ b = Store.cancelRequestedRow now₂ r₂ r₂ := by
    intro b
    rw [hmoved₂.jobs, Store.mem_replaceJob]
    exact or_congr_right (and_iff_left ⟨r₂, hr₂, rfl⟩)
  refine ⟨hreachable, hpaths, hepochs, fun a ha => ?_, fun b hb => ?_⟩
  · obtain ⟨ha, htenant⟩ := mem_jobsOf.1 ha
    rcases (hmem₁ a).1 ha with ⟨ha, hne⟩ | rfl
    · obtain ⟨b, hb, hab⟩ := h.jobs.forth a (mem_jobsOf.2 ⟨ha, htenant⟩)
      obtain ⟨hb, htenant₂⟩ := mem_jobsOf.1 hb
      have hne₂ : b.id ≠ r₂.id := fun heq => hne (hids.2 a.id r₁.id r₂.id (heq ▸ hab.ids) hcounterpart.ids)
      exact ⟨b, mem_jobsOf.2 ⟨(hmem₂ b).2 (.inl ⟨hb, hne₂⟩), htenant₂⟩, hold a b hab hne hne₂⟩
    · exact ⟨_, mem_jobsOf.2 ⟨(hmem₂ _).2 (.inr rfl), htenants.symm.trans htenant⟩, hnew⟩
  · obtain ⟨hb, htenant⟩ := mem_jobsOf.1 hb
    rcases (hmem₂ b).1 hb with ⟨hb, hne⟩ | rfl
    · obtain ⟨a, ha, hab⟩ := h.jobs.back b (mem_jobsOf.2 ⟨hb, htenant⟩)
      obtain ⟨ha, htenant₁⟩ := mem_jobsOf.1 ha
      have hne₁ : a.id ≠ r₁.id := fun heq => hne (hids.1 r₁.id b.id r₂.id (heq ▸ hab.ids) hcounterpart.ids)
      exact ⟨a, mem_jobsOf.2 ⟨(hmem₁ a).2 (.inl ⟨ha, hne₁⟩), htenant₁⟩, hold a b hab hne₁ hne⟩
    · exact ⟨_, mem_jobsOf.2 ⟨(hmem₁ _).2 (.inr rfl), htenants.trans htenant⟩, hnew⟩

/-- A request to cancel leaves the epoch of the store. -/
theorem requestCancel_epoch {cfg : StoreConfig} {s : Store} (hs : s.WellFormed) (clock : Reading) (jobId : Uuid) (tenant : Option String) :
    (Store.requestCancel cfg clock jobId tenant s).2.storeEpoch = s.storeEpoch := by
  have hchange : (Store.requestCancel cfg clock jobId tenant s).2 = s ∨
      Store.Change cfg (.requestCancel jobId tenant) clock s (Store.requestCancel cfg clock jobId tenant s).2 :=
    Store.requestCancel_change hs
  rcases hchange with h | h
  · rw [h]
  · cases h with
    | restarted hcall => cases hcall
    | _ => assumption

/-- A cancellation that the store accepts answers with the job as it is read after it. -/
theorem cancelAndGet_ok {jobId : Uuid} {tenant : Option String} {clock : Reading} {s : Service} {job : JobRecord}
    (h : (s.store.requestCancel cfg.store clock jobId tenant).1 = .ok job) :
    s.cancelAndGet cfg clock jobId tenant =
      (.job <$> (s.cancel cfg.toServiceConfig jobId tenant clock).get jobId tenant, s.cancel cfg.toServiceConfig jobId tenant clock) := by
  unfold Service.cancelAndGet
  rw [h]

/-- A cancellation that the store refuses answers with that. -/
theorem cancelAndGet_error {jobId : Uuid} {tenant : Option String} {clock : Reading} {s : Service} {e : StoreError}
    (h : (s.store.requestCancel cfg.store clock jobId tenant).1 = .error e) :
    (s.cancelAndGet cfg clock jobId tenant).1 = .error (.store e) := by
  unfold Service.cancelAndGet
  rw [h]

/-- Alike services answer a read of counterparts alike. -/
theorem Alike.job (h : Alike cfg c tenantId s₁ s₂) (hids : OneToOne c.ids) (hjob : c.ids jobId₁ jobId₂) :
    SameAnswer c (Answer.job <$> s₁.get jobId₁ (some tenantId)) (Answer.job <$> s₂.get jobId₂ (some tenantId)) := by
  rcases h.get hids hjob with ⟨job₁, job₂, hget₁, hget₂, hsame, -⟩ | ⟨hmissing₁, hmissing₂⟩
  · rw [hget₁, hget₂]
    exact .job job₁ job₂ hsame
  · rw [hmissing₁, hmissing₂]
    exact .missing _ _ hjob

/-- An answer is not that a limit is reached. -/
def Roomy (answer : Except RequestError Answer) : Prop := ∀ message, answer ≠ .error (.store (.admissionLimited message))

/-- Requests to cancel a job that is there in both runs return in both, or raise for the same endpoint. -/
theorem Alike.requestCancel {clock₁ clock₂ : Reading} (h : Alike cfg c tenantId s₁ s₂) (hids : OneToOne c.ids)
    (hcounterpart : Counterpart cfg c s₁ s₂ r₁ r₂) (hselect₁ : s₁.store.selectJob jobId₁ (some tenantId) = .ok r₁)
    (hselect₂ : s₂.store.selectJob jobId₂ (some tenantId) = .ok r₂) (hclock : SameClock cfg c.times clock₁ clock₂)
    (hroom₁ : Roomy (s₁.cancelAndGet cfg clock₁ jobId₁ (some tenantId)).1)
    (hroom₂ : Roomy (s₂.cancelAndGet cfg clock₂ jobId₂ (some tenantId)).1) :
    ((∃ job₁ job₂, (s₁.store.requestCancel cfg.store clock₁ jobId₁ (some tenantId)).1 = .ok job₁ ∧
        (s₂.store.requestCancel cfg.store clock₂ jobId₂ (some tenantId)).1 = .ok job₂) ∨
      ∃ endpoint, (s₁.store.requestCancel cfg.store clock₁ jobId₁ (some tenantId)).1 = .error (.py (.unicodeEncodeError endpoint)) ∧
        (s₂.store.requestCancel cfg.store clock₂ jobId₂ (some tenantId)).1 = .error (.py (.unicodeEncodeError endpoint))) ∧
    Alike cfg c tenantId (s₁.cancel cfg.toServiceConfig jobId₁ (some tenantId) clock₁)
      (s₂.cancel cfg.toServiceConfig jobId₂ (some tenantId) clock₂) := by
  obtain ⟨hstore₁, houtput₁⟩ := cancel_store cfg jobId₁ (some tenantId) clock₁ s₁
  obtain ⟨hstore₂, houtput₂⟩ := cancel_store cfg jobId₂ (some tenantId) clock₂ s₂
  have hsound₁ := h.reachable.1.sound
  have hsound₂ := h.reachable.2.sound
  have hr₁ := (Store.mem_of_selectJob hselect₁).1
  have hr₂ := (Store.mem_of_selectJob hselect₂).1
  have hsettled : (r₁.phase.terminal || r₁.cancelled) = (r₂.phase.terminal || r₂.cancelled) :=
    hcounterpart.column (fun r => r.phase.terminal || r.cancelled) fun _ => rfl
  have hphase : r₁.phase = r₂.phase := hcounterpart.column JobRow.phase fun _ => rfl
  have hendpoint : r₁.unencodable = r₂.unencodable := hcounterpart.column JobRow.unencodable fun _ => rfl
  have hsame : r₁.endpoint = r₂.endpoint := hcounterpart.column JobRow.endpoint fun _ => rfl
  have hnotifiable : r₁.Notifiable ↔ r₂.Notifiable := by
    unfold JobRow.Notifiable
    rw [hsame]
  cases hsettled₁ : r₁.phase.terminal || r₁.cancelled with
  | true =>
    obtain ⟨job₁, job₂, hread₁, hread₂, -⟩ := hcounterpart.sameJob hsound₁.readable hr₁
    have hreturned₁ := Store.requestCancel_settled cfg.store clock₁ hselect₁ hsettled₁ hread₁
    have hreturned₂ := Store.requestCancel_settled cfg.store clock₂ hselect₂ (hsettled.symm.trans hsettled₁) hread₂
    refine ⟨.inl ⟨job₁, job₂, congrArg Prod.fst hreturned₁, congrArg Prod.fst hreturned₂⟩, h.congr ?_ ?_ houtput₁ houtput₂⟩
    · rw [hstore₁, hreturned₁]
    · rw [hstore₂, hreturned₂]
  | false =>
    rcases Store.requestCancel_writes clock₁ hsound₁ hselect₁ hsettled₁ with
      hrefused | ⟨hqueued₁, hnot₁, endpoint₁, hendpoint₁, hraised₁⟩ | ⟨job₁, st₁, hwritten₁, hread₁, hmoved₁⟩
    · exact absurd (cancelAndGet_error (congrArg Prod.fst hrefused)) (hroom₁ _)
    · obtain ⟨endpoint₂, hendpoint₂, hraised₂⟩ :=
        (Store.requestCancel_active clock₂ hsound₂ hselect₂ (by rw [← hsettled, hsettled₁]; exact Bool.false_ne_true)).2
          (hphase.symm.trans hqueued₁) fun hnot => hnot₁ (hnotifiable.2 hnot)
      obtain rfl : endpoint₁ = endpoint₂ := Option.mem_unique hendpoint₁ (hendpoint ▸ hendpoint₂)
      refine ⟨.inr ⟨endpoint₁, congrArg Prod.fst hraised₁, congrArg Prod.fst hraised₂⟩, h.congr ?_ ?_ houtput₁ houtput₂⟩
      · rw [hstore₁, hraised₁]
      · rw [hstore₂, hraised₂]
    rcases Store.requestCancel_writes clock₂ hsound₂ hselect₂ (hsettled.symm.trans hsettled₁) with
      hrefused | ⟨hqueued₂, hnot₂, -⟩ | ⟨job₂, st₂, hwritten₂, hread₂, hmoved₂⟩
    · exact absurd (cancelAndGet_error (congrArg Prod.fst hrefused)) (hroom₂ _)
    · obtain ⟨endpoint, -, hraised₁⟩ :=
        (Store.requestCancel_active clock₁ hsound₁ hselect₁ (by rw [hsettled₁]; exact Bool.false_ne_true)).2
          (hphase.trans hqueued₂) fun hnot => hnot₂ (hnotifiable.1 hnot)
      cases hwritten₁.symm.trans hraised₁
    have hst₁ := hstore₁.trans (congrArg Prod.snd hwritten₁)
    have hst₂ := hstore₂.trans (congrArg Prod.snd hwritten₂)
    refine ⟨.inl ⟨job₁, job₂, congrArg Prod.fst hwritten₁, congrArg Prod.fst hwritten₂⟩,
      h.cancelled hids hcounterpart hr₁ hr₂ hclock.now (hst₁ ▸ hmoved₁) (hst₂ ▸ hmoved₂) hread₁ hread₂ houtput₁ houtput₂ ?_ ?_ ?_⟩
    · rw [hstore₁, hstore₂]
      exact ⟨h.reachable.1.next (.requestCancel jobId₁ (some tenantId), clock₁),
        h.reachable.2.next (.requestCancel jobId₂ (some tenantId), clock₂)⟩
    · rw [hstore₁, hstore₂]
      exact ⟨h.paths.1.requestCancel hsound₁.wellFormed jobId₁ (some tenantId),
        h.paths.2.requestCancel hsound₂.wellFormed jobId₂ (some tenantId)⟩
    · rw [hstore₁, hstore₂, requestCancel_epoch hsound₁.wellFormed, requestCancel_epoch hsound₂.wellFormed]
      exact h.epochs

/-- Alike services answer the cancellation of counterparts alike, and stay alike. -/
theorem Alike.cancelAndGet {clock₁ clock₂ : Reading} (h : Alike cfg c tenantId s₁ s₂) (hids : OneToOne c.ids)
    (hjob : c.ids jobId₁ jobId₂) (hclock : SameClock cfg c.times clock₁ clock₂)
    (hroom₁ : Roomy (s₁.cancelAndGet cfg clock₁ jobId₁ (some tenantId)).1)
    (hroom₂ : Roomy (s₂.cancelAndGet cfg clock₂ jobId₂ (some tenantId)).1) :
    SameAnswer c (s₁.cancelAndGet cfg clock₁ jobId₁ (some tenantId)).1 (s₂.cancelAndGet cfg clock₂ jobId₂ (some tenantId)).1 ∧
      Alike cfg c tenantId (s₁.cancelAndGet cfg clock₁ jobId₁ (some tenantId)).2
        (s₂.cancelAndGet cfg clock₂ jobId₂ (some tenantId)).2 := by
  rcases h.selects hids hjob with ⟨r₁, r₂, hselect₁, hselect₂, -, -, hcounterpart⟩ | ⟨hmissing₁, hmissing₂⟩
  · obtain ⟨hends, halike⟩ := h.requestCancel hids hcounterpart hselect₁ hselect₂ hclock hroom₁ hroom₂
    rcases hends with ⟨job₁, job₂, hreturned₁, hreturned₂⟩ | ⟨endpoint, hraised₁, hraised₂⟩
    · rw [cancelAndGet_ok hreturned₁, cancelAndGet_ok hreturned₂]
      exact ⟨halike.job hids hjob, halike⟩
    · rw [cancelAndGet_error hraised₁, cancelAndGet_error hraised₂, cancelAndGet_service, cancelAndGet_service]
      exact ⟨.raised _ nofun, halike⟩
  · rw [cancelAndGet_missing cfg clock₁ hmissing₁, cancelAndGet_missing cfg clock₂ hmissing₂]
    exact ⟨.missing _ _ hjob, h⟩

/-! ## Submission -/

/-- Exceptions of another kind stay of another kind. -/
theorem raises_mapError {α ε : Type} (x : Except ε α) (f : ε → RequestError) (hf : ∀ e jobId, f e ≠ .store (.jobNotFound jobId)) :
    Fallible.OnlyRaises (fun e => ∀ jobId, e ≠ .store (.jobNotFound jobId)) (x.mapError f) := by
  intro e he
  cases x with
  | ok a => cases he
  | error e' =>
    cases he
    exact hf e'

/-- What is checked before a submission never names a job. -/
theorem checkSubmission_raises (payload : List (PyStr × PyJson)) :
    Fallible.OnlyRaises (fun e => ∀ jobId, e ≠ .store (.jobNotFound jobId)) (Service.checkSubmission cfg tenantId payload) := by
  unfold Service.checkSubmission
  refine .bind (raises_mapError _ _ nofun) fun spec => .bind (raises_mapError _ _ nofun) fun _ => ?_
  split
  · dsimp only
    split
    · exact .bind (Fallible.onlyRaises_throw nofun) fun _ => Fallible.onlyRaises_pure _
    · exact Fallible.onlyRaises_pure _
  · exact Fallible.onlyRaises_pure _

/-- The row of a job that was just accepted has its counterpart. -/
theorem Counterpart.accepted {now₁ now₂ : Instant} {key : String} {spec : JobSpec} (h : Alike cfg c tenantId s₁ s₂)
    (hnew : c.ids s₁.store.drawn s₂.store.drawn) (houtbox₁ : s₁'.store.outbox = s₁.store.outbox)
    (houtbox₂ : s₂'.store.outbox = s₂.store.outbox) :
    Counterpart cfg c s₁' s₂' (Store.acceptedRow cfg.store now₁ s₁.store.storeEpoch s₁.store.drawn tenantId key spec)
      (Store.acceptedRow cfg.store now₂ s₂.store.storeEpoch s₂.store.drawn tenantId key spec) := by
  have hquiet : ∀ {s : Store}, s.WellFormed → s.announcing s.drawn = false := by
    intro s hs
    unfold Store.announcing
    rw [List.any_eq_false]
    intro o ho hjob
    rw [Bool.and_eq_true, decide_eq_true_eq] at hjob
    obtain ⟨r, hr, hid⟩ := hs.outboxJob o ho
    exact absurd (hs.jobDrawn r hr) (by rw [hid, hjob.1]; exact lt_irrefl _)
  refine ⟨hnew, h.epochs, rfl, nofun, ?_, fun stream => ?_⟩
  · change s₁'.store.announcing s₁.store.drawn = s₂'.store.announcing s₂.store.drawn
    have hsame₁ : s₁'.store.announcing s₁.store.drawn = s₁.store.announcing s₁.store.drawn :=
      announcing_congr fun o _ => by rw [houtbox₁]
    have hsame₂ : s₂'.store.announcing s₂.store.drawn = s₂.store.announcing s₂.store.drawn :=
      announcing_congr fun o _ => by rw [houtbox₂]
    rw [hsame₁, hsame₂, hquiet h.reachable.1.wellFormed, hquiet h.reachable.2.wellFormed]
  · cases stream <;> rfl

/-- Jobs accepted in both runs. -/
theorem Alike.accepted {now₁ now₂ : Instant} {key : String} {spec : JobSpec} (h : Alike cfg c tenantId s₁ s₂)
    (hnew : c.ids s₁.store.drawn s₂.store.drawn)
    (hjobs₁ : s₁'.store.jobs = Table.insert s₁.store.jobs
      (Store.acceptedRow cfg.store now₁ s₁.store.storeEpoch s₁.store.drawn tenantId key spec))
    (hjobs₂ : s₂'.store.jobs = Table.insert s₂.store.jobs
      (Store.acceptedRow cfg.store now₂ s₂.store.storeEpoch s₂.store.drawn tenantId key spec))
    (houtbox₁ : s₁'.store.outbox = s₁.store.outbox) (houtbox₂ : s₂'.store.outbox = s₂.store.outbox)
    (houtput₁ : s₁'.output = s₁.output) (houtput₂ : s₂'.output = s₂.output)
    (hreachable : Store.Reachable cfg.store s₁'.store ∧ Store.Reachable cfg.store s₂'.store)
    (hpaths : s₁'.store.OwnPaths cfg.output ∧ s₂'.store.OwnPaths cfg.output)
    (hepochs : c.epochs s₁'.store.storeEpoch s₂'.store.storeEpoch) : Alike cfg c tenantId s₁' s₂' := by
  have haccepted : Counterpart cfg c s₁' s₂'
      (Store.acceptedRow cfg.store now₁ s₁.store.storeEpoch s₁.store.drawn tenantId key spec)
      (Store.acceptedRow cfg.store now₂ s₂.store.storeEpoch s₂.store.drawn tenantId key spec) :=
    .accepted h hnew houtbox₁ houtbox₂
  have hold : ∀ a b, Counterpart cfg c s₁ s₂ a b → Counterpart cfg c s₁' s₂' a b := fun a b hab =>
    hab.congr (announcing_congr fun o _ => by rw [houtbox₁]) (announcing_congr fun o _ => by rw [houtbox₂]) houtput₁ houtput₂
  refine ⟨hreachable, hpaths, hepochs, fun a ha => ?_, fun b hb => ?_⟩
  · obtain ⟨ha, htenant⟩ := mem_jobsOf.1 ha
    rw [hjobs₁, Table.mem_insert] at ha
    rcases ha with ha | rfl
    · obtain ⟨b, hb, hab⟩ := h.jobs.forth a (mem_jobsOf.2 ⟨ha, htenant⟩)
      obtain ⟨hb, htenant₂⟩ := mem_jobsOf.1 hb
      exact ⟨b, mem_jobsOf.2 ⟨hjobs₂ ▸ Table.mem_insert.2 (.inl hb), htenant₂⟩, hold a b hab⟩
    · exact ⟨_, mem_jobsOf.2 ⟨hjobs₂ ▸ Table.mem_insert.2 (.inr rfl), rfl⟩, haccepted⟩
  · obtain ⟨hb, htenant⟩ := mem_jobsOf.1 hb
    rw [hjobs₂, Table.mem_insert] at hb
    rcases hb with hb | rfl
    · obtain ⟨a, ha, hab⟩ := h.jobs.back b (mem_jobsOf.2 ⟨hb, htenant⟩)
      obtain ⟨ha, htenant₁⟩ := mem_jobsOf.1 ha
      exact ⟨a, mem_jobsOf.2 ⟨hjobs₁ ▸ Table.mem_insert.2 (.inl ha), htenant₁⟩, hold a b hab⟩
    · exact ⟨_, mem_jobsOf.2 ⟨hjobs₁ ▸ Table.mem_insert.2 (.inr rfl), rfl⟩, haccepted⟩

/-- A submission of a specification that passes its checks is the transaction alone. -/
theorem step_submit {store : StoreConfig} {s : Store} (clock : Reading) {key : String} {spec : JobSpec} (hspec : spec.validate = .ok ()) :
    Store.step store s (.submit tenantId key spec, clock) = (Store.submitTransaction store clock tenantId key spec s).2 := by
  unfold Store.step
  dsimp only
  rw [hspec]

/-- The transaction of a submission in both runs: the job of the key is found in both or in none. -/
theorem Alike.submitTransaction {clock₁ clock₂ : Reading} {key : String} {spec : JobSpec} (h : Alike cfg c tenantId s₁ s₂)
    (hspec : spec.validate = .ok ())
    (hroom₁ : ∀ message, (s₁.store.submitTransaction cfg.store clock₁ tenantId key spec).1 ≠ .error (.admissionLimited message))
    (hroom₂ : ∀ message, (s₂.store.submitTransaction cfg.store clock₂ tenantId key spec).1 ≠ .error (.admissionLimited message))
    (hnew : ∀ job₁ job₂, (s₁.store.submitTransaction cfg.store clock₁ tenantId key spec).1 = .ok (job₁, true) →
      (s₂.store.submitTransaction cfg.store clock₂ tenantId key spec).1 = .ok (job₂, true) → c.ids job₁.id job₂.id) :
    Alike cfg c tenantId { s₁ with store := (s₁.store.submitTransaction cfg.store clock₁ tenantId key spec).2 }
        { s₂ with store := (s₂.store.submitTransaction cfg.store clock₂ tenantId key spec).2 } ∧
      ((∃ job₁ job₂ created, (s₁.store.submitTransaction cfg.store clock₁ tenantId key spec).1 = .ok (job₁, created) ∧
          (s₂.store.submitTransaction cfg.store clock₂ tenantId key spec).1 = .ok (job₂, created) ∧ SameJob c job₁ job₂) ∨
        ∃ message, (s₁.store.submitTransaction cfg.store clock₁ tenantId key spec).1 = .error (.idempotencyConflict message) ∧
          (s₂.store.submitTransaction cfg.store clock₂ tenantId key spec).1 = .error (.idempotencyConflict message)) := by
  have hsound₁ := h.reachable.1.sound
  have hsound₂ := h.reachable.2.sound
  by_cases hused : ∃ r₁ ∈ s₁.store.jobs, r₁.tenantId = tenantId ∧ r₁.idempotencyKey = key
  · obtain ⟨r₁, hr₁, htenant, rfl⟩ := hused
    obtain ⟨r₂, hr₂, hcounterpart⟩ := h.jobs.forth r₁ (mem_jobsOf.2 ⟨hr₁, htenant⟩)
    obtain ⟨hr₂, htenant₂⟩ := mem_jobsOf.1 hr₂
    have hkey : r₁.idempotencyKey = r₂.idempotencyKey := hcounterpart.column JobRow.idempotencyKey fun _ => rfl
    have hhash : r₁.requestHash = r₂.requestHash := hcounterpart.column JobRow.requestHash fun _ => rfl
    by_cases hsame : r₁.requestHash = cfg.store.host.sha256 (Store.specText cfg.store spec)
    · obtain ⟨job₁, job₂, hread₁, hread₂, -, -, hjobs⟩ := hcounterpart.sameJob hsound₁.readable hr₁
      have hreplayed₁ := Store.submitTransaction_replays cfg.store clock₁ hsound₁.wellFormed hr₁ hread₁ hsame
      have hreplayed₂ := Store.submitTransaction_replays cfg.store clock₂ hsound₂.wellFormed hr₂ hread₂ (hhash.symm.trans hsame)
      rw [htenant] at hreplayed₁
      rw [htenant₂, ← hkey] at hreplayed₂
      rw [hreplayed₁, hreplayed₂]
      exact ⟨h, .inl ⟨job₁, job₂, false, rfl, rfl, hjobs⟩⟩
    · have hrefused₁ := Store.submitTransaction_conflicts cfg.store clock₁ hsound₁.wellFormed hr₁ hsame
      have hrefused₂ := Store.submitTransaction_conflicts cfg.store clock₂ hsound₂.wellFormed hr₂ (hhash ▸ hsame)
      rw [htenant] at hrefused₁
      rw [htenant₂, ← hkey] at hrefused₂
      rw [hrefused₁, hrefused₂]
      exact ⟨h, .inr ⟨_, rfl, rfl⟩⟩
  · have hfree₁ : ∀ r ∈ s₁.store.jobs, ¬(r.tenantId = tenantId ∧ r.idempotencyKey = key) := fun r hr hkey => hused ⟨r, hr, hkey⟩
    have hfree₂ : ∀ r ∈ s₂.store.jobs, ¬(r.tenantId = tenantId ∧ r.idempotencyKey = key) := by
      rintro r hr ⟨htenant, hkey⟩
      obtain ⟨r₁, hr₁, hcounterpart⟩ := h.jobs.back r (mem_jobsOf.2 ⟨hr, htenant⟩)
      obtain ⟨hr₁, htenant₁⟩ := mem_jobsOf.1 hr₁
      have hsame : r₁.idempotencyKey = r.idempotencyKey := hcounterpart.column JobRow.idempotencyKey fun _ => rfl
      exact hfree₁ r₁ hr₁ ⟨htenant₁, hsame.trans hkey⟩
    rcases Store.submitTransaction_accepts clock₁ hsound₁ hspec hfree₁ with
      ⟨message, hrefused⟩ | ⟨job₁, st₁, haccepted₁, hread₁, hjobs₁, houtbox₁, hepoch₁, -⟩
    · exact absurd (congrArg Prod.fst hrefused) (hroom₁ message)
    rcases Store.submitTransaction_accepts clock₂ hsound₂ hspec hfree₂ with
      ⟨message, hrefused⟩ | ⟨job₂, st₂, haccepted₂, hread₂, hjobs₂, houtbox₂, hepoch₂, -⟩
    · exact absurd (congrArg Prod.fst hrefused) (hroom₂ message)
    have hstep₁ : Store.step cfg.store s₁.store (.submit tenantId key spec, clock₁) = st₁ :=
      (step_submit clock₁ hspec).trans (congrArg Prod.snd haccepted₁)
    have hstep₂ : Store.step cfg.store s₂.store (.submit tenantId key spec, clock₂) = st₂ :=
      (step_submit clock₂ hspec).trans (congrArg Prod.snd haccepted₂)
    have hids : c.ids s₁.store.drawn s₂.store.drawn := by
      have hjob := hnew job₁ job₂ (congrArg Prod.fst haccepted₁) (congrArg Prod.fst haccepted₂)
      rwa [Store.rowToJob_eq hread₁, Store.rowToJob_eq hread₂] at hjob
    have halike : Alike cfg c tenantId { s₁ with store := st₁ } { s₂ with store := st₂ } := by
      refine h.accepted hids hjobs₁ hjobs₂ houtbox₁ houtbox₂ rfl rfl ⟨?_, ?_⟩ ⟨?_, ?_⟩ ?_
      · exact hstep₁ ▸ h.reachable.1.next (.submit tenantId key spec, clock₁)
      · exact hstep₂ ▸ h.reachable.2.next (.submit tenantId key spec, clock₂)
      · exact hstep₁ ▸ h.paths.1.submit hsound₁.wellFormed tenantId key spec
      · exact hstep₂ ▸ h.paths.2.submit hsound₂.wellFormed tenantId key spec
      · dsimp only
        rw [hepoch₁, hepoch₂]
        exact h.epochs
    have haccepted : SameJob c job₁ job₂ := by
      have hcounterpart : Counterpart cfg c { s₁ with store := st₁ } { s₂ with store := st₂ }
          (Store.acceptedRow cfg.store clock₁.now s₁.store.storeEpoch s₁.store.drawn tenantId key spec)
          (Store.acceptedRow cfg.store clock₂.now s₂.store.storeEpoch s₂.store.drawn tenantId key spec) :=
        .accepted h hids houtbox₁ houtbox₂
      obtain ⟨j₁, j₂, hj₁, hj₂, -, -, hsame⟩ :=
        hcounterpart.sameJob halike.reachable.1.sound.readable (hjobs₁ ▸ Table.mem_insert.2 (.inr rfl))
      cases hread₁.symm.trans hj₁
      cases hread₂.symm.trans hj₂
      exact hsame
    rw [haccepted₁, haccepted₂]
    exact ⟨halike, .inl ⟨job₁, job₂, true, rfl, rfl, haccepted⟩⟩

/-- Alike services answer a submission alike, and stay alike. -/
theorem Alike.submit {clock₁ clock₂ : Reading} {before₁ after₁ before₂ after₂ : Uuid → Removal} {key : String}
    {payload : List (PyStr × PyJson)} (h : Alike cfg c tenantId s₁ s₂) (hclock : SameClock cfg c.times clock₁ clock₂)
    (hroom₁ : Roomy (s₁.submit cfg clock₁ before₁ after₁ tenantId key payload).1)
    (hroom₂ : Roomy (s₂.submit cfg clock₂ before₂ after₂ tenantId key payload).1)
    (hnew : ∀ job₁ job₂, (s₁.submit cfg clock₁ before₁ after₁ tenantId key payload).1 = .ok (.submitted job₁ true) →
      (s₂.submit cfg clock₂ before₂ after₂ tenantId key payload).1 = .ok (.submitted job₂ true) → c.ids job₁.id job₂.id) :
    SameAnswer c (s₁.submit cfg clock₁ before₁ after₁ tenantId key payload).1
        (s₂.submit cfg clock₂ before₂ after₂ tenantId key payload).1 ∧
      Alike cfg c tenantId (s₁.submit cfg clock₁ before₁ after₁ tenantId key payload).2
        (s₂.submit cfg clock₂ before₂ after₂ tenantId key payload).2 := by
  unfold Service.submit at *
  cases hadmitted : Service.checkSubmission cfg tenantId payload with
  | error e => exact ⟨.raised e (checkSubmission_raises payload e hadmitted), h⟩
  | ok spec =>
    rw [hadmitted] at hroom₁ hroom₂ hnew
    dsimp only at *
    unfold Service.submitSpec at *
    cases hspec : spec.validate with
    | error e => exact ⟨.raised _ nofun, h⟩
    | ok u =>
      obtain ⟨hreturned, hpruned⟩ := h.pruneExpired hclock before₁ after₁ before₂ after₂
      rcases hpruning₁ : s₁.pruneExpired cfg clock₁ before₁ after₁ with ⟨result₁, p₁⟩
      rcases hpruning₂ : s₂.pruneExpired cfg clock₂ before₂ after₂ with ⟨result₂, p₂⟩
      have hraises : ∀ e, result₁ = .error e → e = .overflowError "date value out of range" := fun e he =>
        Service.pruneExpired_error h.reachable.1 (by rw [hpruning₁, he])
      rw [hspec, hpruning₁] at hroom₁
      rw [hspec, hpruning₂] at hroom₂
      rw [hspec, hpruning₁, hpruning₂] at hnew
      rw [hpruning₁, hpruning₂] at hreturned hpruned
      obtain rfl : result₁ = result₂ := hreturned
      dsimp only at *
      cases result₁ with
      | error e =>
        obtain rfl := hraises e rfl
        exact ⟨.raised _ nofun, hpruned⟩
      | ok u =>
        dsimp only at *
        cases hchecked : Store.checkSubmitter tenantId key with
        | error e =>
          obtain ⟨p, rfl⟩ := Store.checkSubmitter_error hchecked
          exact ⟨.raised _ nofun, hpruned⟩
        | ok u =>
          rcases htransaction₁ : p₁.store.submitTransaction cfg.store clock₁ tenantId key spec with ⟨returned₁, st₁⟩
          rcases htransaction₂ : p₂.store.submitTransaction cfg.store clock₂ tenantId key spec with ⟨returned₂, st₂⟩
          rw [hchecked, htransaction₁] at hroom₁
          rw [hchecked, htransaction₂] at hroom₂
          rw [hchecked, htransaction₁, htransaction₂] at hnew
          have hanswered : ∀ message, (p₁.store.submitTransaction cfg.store clock₁ tenantId key spec).1 ≠ .error
            (.admissionLimited message) := by
            rw [htransaction₁]
            rintro message ⟨⟩
            exact hroom₁ message rfl
          have hanswered₂ : ∀ message, (p₂.store.submitTransaction cfg.store clock₂ tenantId key spec).1 ≠ .error
            (.admissionLimited message) := by
            rw [htransaction₂]
            rintro message ⟨⟩
            exact hroom₂ message rfl
          have hboth := hpruned.submitTransaction hspec hanswered hanswered₂ (by
            rw [htransaction₁, htransaction₂]
            rintro job₁ job₂ ⟨⟩ ⟨⟩
            exact hnew job₁ job₂ rfl rfl)
          rw [htransaction₁, htransaction₂] at hboth
          rcases hboth with ⟨halike, ⟨job₁, job₂, created, rfl, rfl, hsame⟩ | ⟨message, rfl, rfl⟩⟩
          · exact ⟨.submitted job₁ job₂ created hsame, halike⟩
          · exact ⟨.raised _ nofun, halike⟩

/-! ## A call -/

/-- The same call in two runs, about corresponding jobs. -/
inductive SameCall (c : Correspondence) : TenantCall Uuid → TenantCall Uuid → Prop where
  | submit (idempotencyKey : String) (payload : List (PyStr × PyJson)) :
      SameCall c (.submit idempotencyKey payload) (.submit idempotencyKey payload)
  | get (jobId₁ jobId₂ : Uuid) (h : c.ids jobId₁ jobId₂) : SameCall c (.get jobId₁) (.get jobId₂)
  | result (jobId₁ jobId₂ : Uuid) (h : c.ids jobId₁ jobId₂) : SameCall c (.result jobId₁) (.result jobId₂)
  | readOutput (jobId₁ jobId₂ : Uuid) (stream : String) (h : c.ids jobId₁ jobId₂) :
      SameCall c (.readOutput jobId₁ stream) (.readOutput jobId₂ stream)
  | cancel (jobId₁ jobId₂ : Uuid) (h : c.ids jobId₁ jobId₂) : SameCall c (.cancel jobId₁) (.cancel jobId₂)

/-- A call of the tenant leaves the services alike, and gets the same answer. -/
theorem Alike.serve {request₁ request₂ : TenantRequest} {call₁ call₂ : TenantCall Uuid} (h : Alike cfg c tenantId s₁ s₂)
    (hids : OneToOne c.ids) (hcall : SameCall c call₁ call₂) (hclock : SameClock cfg c.times request₁.clock request₂.clock)
    (hroom₁ : Roomy (Tenant.serve cfg tenantId request₁ call₁ s₁).1) (hroom₂ : Roomy (Tenant.serve cfg tenantId request₂ call₂ s₂).1)
    (hnew : ∀ job₁ job₂, (Tenant.serve cfg tenantId request₁ call₁ s₁).1 = .ok (.submitted job₁ true) →
      (Tenant.serve cfg tenantId request₂ call₂ s₂).1 = .ok (.submitted job₂ true) → c.ids job₁.id job₂.id) :
    SameAnswer c (Tenant.serve cfg tenantId request₁ call₁ s₁).1 (Tenant.serve cfg tenantId request₂ call₂ s₂).1 ∧
      Alike cfg c tenantId (Tenant.serve cfg tenantId request₁ call₁ s₁).2 (Tenant.serve cfg tenantId request₂ call₂ s₂).2 := by
  cases hcall with
  | submit key payload => exact h.submit hclock hroom₁ hroom₂ hnew
  | get jobId₁ jobId₂ hjob => exact ⟨h.job hids hjob, h⟩
  | result jobId₁ jobId₂ hjob => exact ⟨h.result hids hjob, h⟩
  | readOutput jobId₁ jobId₂ stream hjob => exact ⟨h.readOutput hids hjob stream, h⟩
  | cancel jobId₁ jobId₂ hjob => exact h.cancelAndGet hids hjob hclock hroom₁ hroom₂

/-- An answer that is no submission creates no job. -/
theorem createdBy_map {α : Type} (f : α → Answer) (hf : ∀ a job created, f a ≠ .submitted job created) (x : Except RequestError α) :
    createdBy (f <$> x) = [] := by
  cases x with
  | error e => rfl
  | ok a =>
    change createdBy (.ok (f a)) = []
    unfold createdBy
    split
    · rename_i job h
      exact absurd (Except.ok.inj h) (hf a job true)
    · rfl

/-- A job is not the answer to a submission. -/
theorem job_ne_submitted (a job : JobRecord) (created : Bool) : Answer.job a ≠ .submitted job created := by
  intro h
  cases h

/-- Output is not the answer to a submission. -/
theorem output_ne_submitted (data : Bytes) (job : JobRecord) (created : Bool) : Answer.output data ≠ .submitted job created := by
  intro h
  cases h

/-- A read creates no job. -/
theorem createdBy_get_bind {jobId : Uuid} {tenant : Option String} {s : Service} {f : JobRecord → Except RequestError Answer}
    (hf : ∀ job, createdBy (f job) = []) : createdBy (s.get jobId tenant >>= f) = [] := by
  cases s.get jobId tenant with
  | error e => rfl
  | ok job => exact hf job

/-- Only a submission creates a job. -/
theorem createdBy_of_job {request : TenantRequest} {call : TenantCall Uuid} {s : Service} (hjob : call.job ≠ none) :
    createdBy (Tenant.serve cfg tenantId request call s).1 = [] := by
  cases call with
  | submit key payload => exact absurd rfl hjob
  | get jobId => exact createdBy_map .job job_ne_submitted _
  | result jobId =>
    refine createdBy_get_bind fun job => ?_
    split <;> rfl
  | readOutput jobId stream =>
    refine createdBy_get_bind fun job => ?_
    split
    · exact createdBy_map .output output_ne_submitted _
    · split
      · exact createdBy_map .output output_ne_submitted _
      · rfl
  | cancel jobId =>
    unfold Tenant.serve Service.cancelAndGet
    dsimp only
    split
    · rfl
    · exact createdBy_map .job job_ne_submitted _

/-- A call creates no job, or it creates one with the id that is drawn next. -/
theorem serve_draws (tenantId : String) (request : TenantRequest) (call : TenantCall Uuid) {s : Service}
    (hs : Store.Reachable cfg.store s.store) :
    Store.Reachable cfg.store (Tenant.serve cfg tenantId request call s).2.store ∧
      (createdBy (Tenant.serve cfg tenantId request call s).1 = [] ∧
          s.store.drawn ≤ (Tenant.serve cfg tenantId request call s).2.store.drawn ∨
        createdBy (Tenant.serve cfg tenantId request call s).1 = [s.store.drawn] ∧
          s.store.drawn < (Tenant.serve cfg tenantId request call s).2.store.drawn) := by
  cases call with
  | submit key payload =>
    obtain ⟨pruned, -, hreachable, hdrawn, ⟨e, h⟩ | ⟨spec, hspec, h⟩⟩ :=
      Service.submit_cases request.clock request.before request.after tenantId key payload hs
    · unfold Tenant.serve
      dsimp only
      rw [h, ← hdrawn]
      exact ⟨hreachable, .inl ⟨rfl, le_refl _⟩⟩
    · unfold Tenant.serve
      dsimp only
      rw [h, ← hdrawn, ← step_submit request.clock hspec]
      refine ⟨hreachable.next (.submit tenantId key spec, request.clock), ?_⟩
      rw [step_submit request.clock hspec]
      rcases Store.submit_cases cfg.store request.clock hreachable.wellFormed tenantId key hspec with
        ⟨e, h⟩ | ⟨_, -, _, -, -, -, -, h⟩ | ⟨job, s', h, hjob, hnext, -⟩
      · rw [h]
        exact .inl ⟨rfl, le_refl _⟩
      · rw [h]
        exact .inl ⟨rfl, le_refl _⟩
      · rw [h]
        refine .inr ⟨?_, hnext ▸ Nat.lt_succ_self _⟩
        change [job.toJobRow.id] = [pruned.store.drawn]
        rw [hjob]
        rfl
  | get jobId => exact ⟨hs, .inl ⟨createdBy_of_job nofun, le_refl _⟩⟩
  | result jobId => exact ⟨hs, .inl ⟨createdBy_of_job nofun, le_refl _⟩⟩
  | readOutput jobId stream => exact ⟨hs, .inl ⟨createdBy_of_job nofun, le_refl _⟩⟩
  | cancel jobId =>
    have hstore : (Tenant.serve cfg tenantId request (.cancel jobId) s).2.store =
        Store.step cfg.store s.store (.requestCancel jobId (some tenantId), request.clock) := by
      unfold Tenant.serve
      dsimp only
      rw [cancelAndGet_service, (cancel_store cfg jobId (some tenantId) request.clock s).1]
      rfl
    rw [hstore]
    exact ⟨hs.next _, .inl ⟨createdBy_of_job nofun, hs.wellFormed.drawn_le_step cfg.store _⟩⟩

/-! ## A run -/

/-- What a tenant has that went on from a service where `start` was to be drawn next: the ids of its new jobs are new, and differ. -/
structure Fresh (cfg : RequestConfig) (start : Uuid) (t : Tenant) : Prop where
  reachable : Store.Reachable cfg.store t.service.store
  drawn : start ≤ t.service.store.drawn
  created : ∀ x ∈ t.created, start ≤ x ∧ x < t.service.store.drawn
  nodup : t.created.Nodup

/-- A tenant whose request names a job that it can name is served. -/
theorem step_of_resolve (cfg : RequestConfig) (tenantId : String) {t : Tenant} {request : TenantRequest} {call : TenantCall Uuid}
    (h : request.call.resolve t.created = some call) :
    step cfg tenantId t request =
      ⟨(Tenant.serve cfg tenantId request call t.service).2,
        t.created ++ createdBy (Tenant.serve cfg tenantId request call t.service).1,
        t.answers ++ [(Tenant.serve cfg tenantId request call t.service).1]⟩ := by
  unfold step
  rw [h]

/-- A tenant whose request names no job is not. -/
theorem step_of_unresolved {t : Tenant} {request : TenantRequest} (h : request.call.resolve t.created = none) :
    step cfg tenantId t request = t := by
  unfold step
  rw [h]

/-- The jobs that a tenant created stay fresh. -/
theorem Fresh.step {start : Uuid} {t : Tenant} (h : Fresh cfg start t) (request : TenantRequest) :
    Fresh cfg start (step cfg tenantId t request) := by
  cases hcall : request.call.resolve t.created with
  | none => rwa [step_of_unresolved hcall]
  | some call =>
    rw [step_of_resolve cfg tenantId hcall]
    obtain ⟨hreachable, ⟨hcreated, hdrawn⟩ | ⟨hcreated, hdrawn⟩⟩ := serve_draws tenantId request call h.reachable
    · rw [hcreated, List.append_nil]
      exact ⟨hreachable, h.drawn.trans hdrawn, fun x hx => (h.created x hx).imp_right fun hlt => hlt.trans_le hdrawn, h.nodup⟩
    · rw [hcreated]
      refine ⟨hreachable, h.drawn.trans hdrawn.le, fun x hx => ?_, ?_⟩
      · rcases List.mem_append.1 hx with hx | hx
        · exact (h.created x hx).imp_right fun hlt => hlt.trans hdrawn
        · rw [List.mem_singleton.1 hx]
          exact ⟨h.drawn, hdrawn⟩
      · have hconcat := h.nodup.concat fun hmem => lt_irrefl _ (h.created _ hmem).2
        rwa [List.concat_eq_append] at hconcat

/-- The ids in two runs: of jobs created in the same place, and of every other job that of itself. -/
def SameId (created₁ created₂ : List Uuid) (x y : Uuid) : Prop :=
  x = y ∧ x ∉ created₁ ∧ y ∉ created₂ ∨ ∃ index : Nat, created₁[index]? = some x ∧ created₂[index]? = some y

/-- An entry of a list without duplicates has one place. -/
theorem getElem?_injective {created : List Uuid} (h : created.Nodup) {i j : Nat} {x : Uuid} (hi : created[i]? = some x)
    (hj : created[j]? = some x) : i = j := by
  obtain ⟨hlt, -⟩ := List.getElem?_eq_some_iff.1 hi
  exact (List.getElem?_inj hlt h).1 (hi.trans hj.symm)

/-- The jobs that two runs created correspond one to one. -/
theorem oneToOne_sameId {created₁ created₂ : List Uuid} (h₁ : created₁.Nodup) (h₂ : created₂.Nodup) :
    OneToOne (SameId created₁ created₂) := by
  constructor
  · rintro x y y' (⟨rfl, hold, -⟩ | ⟨i, hx, hy⟩) (⟨rfl, hold', -⟩ | ⟨j, hx', hy'⟩)
    · rfl
    · exact absurd (List.mem_of_getElem? hx') hold
    · exact absurd (List.mem_of_getElem? hx) hold'
    · obtain rfl := getElem?_injective h₁ hx hx'
      exact Option.some.inj (hy.symm.trans hy')
  · rintro x x' y (⟨rfl, -, hold⟩ | ⟨i, hx, hy⟩) (⟨rfl, -, hold'⟩ | ⟨j, hx', hy'⟩)
    · rfl
    · exact absurd (List.mem_of_getElem? hy') hold
    · exact absurd (List.mem_of_getElem? hy) hold'
    · obtain rfl := getElem?_injective h₂ hy hy'
      exact Option.some.inj (hx.symm.trans hx')

/-- Two services agree on what is the tenant's: the rows of its jobs, their notifications, and their output. -/
structure Agree (tenantId : String) (s₁ s₂ : Service) : Prop where
  jobs : ∀ r, r.tenantId = tenantId → (r ∈ s₁.store.jobs ↔ r ∈ s₂.store.jobs)
  outbox : ∀ o, s₁.store.OfTenant tenantId o.jobId → (o ∈ s₁.store.outbox ↔ o ∈ s₂.store.outbox)
  output : ∀ r ∈ s₁.store.jobs, r.tenantId = tenantId → ∀ stream, s₁.output.readStream r.id stream = s₂.output.readStream r.id stream

/-- The same call, at clocks that correspond. -/
structure SameRequest (cfg : RequestConfig) (times : Instant → Instant → Prop) (request₁ request₂ : TenantRequest) : Prop where
  call : request₁.call = request₂.call
  clock : SameClock cfg times request₁.clock request₂.clock

/-- A request at one clock, in both runs. -/
theorem SameRequest.refl (cfg : RequestConfig) (request : TenantRequest) : SameRequest cfg Eq request request := by
  refine ⟨rfl, rfl, ?_⟩
  cases request.clock.now.minusSeconds cfg.store.jobTtlSeconds with
  | none => exact .none
  | some cutoff => exact .some fun t₁ t₂ h => by rw [h]

/-- No job that is still to be created is named by its id. -/
def Unforeseen (created : List Uuid) (request : TenantRequest) : Prop := ∀ x, request.call.job = some (.known x) → x ∉ created

/-- A tenant on the way to have these jobs created, with no limit reached. -/
structure Towards (created : List Uuid) (t : Tenant) : Prop where
  created : t.created <+: created
  roomy : ∀ answer ∈ t.answers, Roomy answer

/-- A tenant whose next state leads to a list led to it before. -/
theorem Towards.back {created : List Uuid} {t : Tenant} {request : TenantRequest} (h : Towards created (step cfg tenantId t request)) :
    Towards created t := by
  cases hcall : request.call.resolve t.created with
  | none => rwa [step_of_unresolved hcall] at h
  | some call =>
    rw [step_of_resolve cfg tenantId hcall] at h
    exact ⟨(List.prefix_append _ _).trans h.created, fun answer hanswer => h.roomy answer (List.mem_append_left _ hanswer)⟩

/-- What corresponds in two runs that end with these jobs created. -/
def ended (created₁ created₂ : List Uuid) (epochs : Uuid → Uuid → Prop) (times : Instant → Instant → Prop) : Correspondence :=
  ⟨SameId created₁ created₂, epochs, times⟩

/-- A list has the entries of its prefixes. -/
theorem getElem?_of_prefix {created all : List Uuid} (h : created <+: all) {index : Nat} {x : Uuid} (hx : created[index]? = some x) :
    all[index]? = some x := by
  obtain ⟨hlt, -⟩ := List.getElem?_eq_some_iff.1 hx
  obtain ⟨rest, rfl⟩ := h
  rwa [List.getElem?_append_left hlt]

/-- A tenant names corresponding jobs in both runs, or none. -/
theorem resolve_job {created₁ created₂ all₁ all₂ : List Uuid} (h₁ : created₁ <+: all₁) (h₂ : created₂ <+: all₂)
    (hlength : created₁.length = created₂.length) (job : JobRef) (hunforeseen : ∀ x, job = .known x → x ∉ all₁ ∧ x ∉ all₂) :
    job.resolve created₁ = none ∧ job.resolve created₂ = none ∨
      ∃ x y, job.resolve created₁ = some x ∧ job.resolve created₂ = some y ∧ SameId all₁ all₂ x y := by
  cases job with
  | known x => exact .inr ⟨x, x, rfl, rfl, .inl ⟨rfl, hunforeseen x rfl⟩⟩
  | created index =>
    unfold JobRef.resolve
    dsimp only
    cases hx : created₁[index]? with
    | none =>
      refine .inl ⟨rfl, ?_⟩
      rw [List.getElem?_eq_none_iff] at hx ⊢
      omega
    | some x =>
      obtain ⟨hlt, -⟩ := List.getElem?_eq_some_iff.1 hx
      have hy := List.getElem?_eq_getElem (hlength ▸ hlt)
      exact .inr ⟨x, _, rfl, hy, .inr ⟨index, getElem?_of_prefix h₁ hx, getElem?_of_prefix h₂ hy⟩⟩

/-- Two runs resolve the same request to corresponding calls. -/
theorem resolve_call {created₁ created₂ all₁ all₂ : List Uuid} (epochs : Uuid → Uuid → Prop) (times : Instant → Instant → Prop)
    (h₁ : created₁ <+: all₁) (h₂ : created₂ <+: all₂) (hlength : created₁.length = created₂.length) (call : TenantCall JobRef)
    (hunforeseen : ∀ x, call.job = some (.known x) → x ∉ all₁ ∧ x ∉ all₂) :
    call.resolve created₁ = none ∧ call.resolve created₂ = none ∨
      ∃ call₁ call₂, call.resolve created₁ = some call₁ ∧ call.resolve created₂ = some call₂ ∧
        SameCall (ended all₁ all₂ epochs times) call₁ call₂ := by
  have hmap : ∀ (job : JobRef) (f : Uuid → TenantCall Uuid), call.job = some job →
      (∀ x y, (ended all₁ all₂ epochs times).ids x y → SameCall (ended all₁ all₂ epochs times) (f x) (f y)) →
      (job.resolve created₁).map f = none ∧ (job.resolve created₂).map f = none ∨
        ∃ call₁ call₂, (job.resolve created₁).map f = some call₁ ∧ (job.resolve created₂).map f = some call₂ ∧
          SameCall (ended all₁ all₂ epochs times) call₁ call₂ := by
    intro job f hjob hf
    rcases resolve_job h₁ h₂ hlength job fun x hx => hunforeseen x (hx ▸ hjob) with ⟨hx, hy⟩ | ⟨x, y, hx, hy, hsame⟩
    · rw [hx, hy]
      exact .inl ⟨rfl, rfl⟩
    · rw [hx, hy]
      exact .inr ⟨f x, f y, rfl, rfl, hf x y hsame⟩
  cases call with
  | submit key payload => exact .inr ⟨_, _, rfl, rfl, .submit key payload⟩
  | get job => exact hmap job .get rfl .get
  | result job => exact hmap job .result rfl .result
  | readOutput job stream => exact hmap job (.readOutput · stream) rfl fun x y => .readOutput x y stream
  | cancel job => exact hmap job .cancel rfl .cancel

/-- Two tenants that went on from services they can not tell apart. -/
structure Paired (cfg : RequestConfig) (c : Correspondence) (tenantId : String) (t₁ t₂ : Tenant) : Prop where
  alike : Alike cfg c tenantId t₁.service t₂.service
  length : t₁.created.length = t₂.created.length
  answers : List.Forall₂ (SameAnswer c) t₁.answers t₂.answers

/-- A result creates no job. -/
theorem createdBy_result (value : List (PyStr × PyJson)) : createdBy (.ok (.result value)) = [] := rfl

/-- A job that is read creates none. -/
theorem createdBy_job (job : JobRecord) : createdBy (.ok (.job job)) = [] := rfl

/-- The same answers create as many jobs. -/
theorem sameAnswer_length {answer₁ answer₂ : Except RequestError Answer} (h : SameAnswer c answer₁ answer₂) :
    (createdBy answer₁).length = (createdBy answer₂).length := by
  cases h with
  | submitted job₁ job₂ created => cases created <;> rfl
  | job job₁ job₂ => rw [createdBy_job, createdBy_job]
  | result job₁ job₂ => rw [createdBy_result, createdBy_result]
  | output data => rfl
  | missing => rfl
  | raised e => rfl

/-- The same request takes paired tenants to paired tenants, with the same answer. -/
theorem Paired.step {all₁ all₂ : List Uuid} {epochs : Uuid → Uuid → Prop} {times : Instant → Instant → Prop} {t₁ t₂ : Tenant}
    {request₁ request₂ : TenantRequest} (hids : OneToOne (SameId all₁ all₂))
    (h : Paired cfg (ended all₁ all₂ epochs times) tenantId t₁ t₂) (hrequest : SameRequest cfg times request₁ request₂)
    (hunforeseen : Unforeseen all₁ request₁ ∧ Unforeseen all₂ request₁) (h₁ : Towards all₁ (Tenant.step cfg tenantId t₁ request₁))
    (h₂ : Towards all₂ (Tenant.step cfg tenantId t₂ request₂)) :
    Paired cfg (ended all₁ all₂ epochs times) tenantId (Tenant.step cfg tenantId t₁ request₁) (Tenant.step cfg tenantId t₂ request₂) := by
  rcases resolve_call epochs times h₁.back.created h₂.back.created h.length request₁.call
      fun x hx => ⟨hunforeseen.1 x hx, hunforeseen.2 x hx⟩ with
    ⟨hcall₁, hcall₂⟩ | ⟨call₁, call₂, hcall₁, hcall₂, hcall⟩
  · rw [step_of_unresolved hcall₁, step_of_unresolved (hrequest.call ▸ hcall₂)]
    exact h
  · have hstep₁ := step_of_resolve cfg tenantId hcall₁
    have hstep₂ := step_of_resolve cfg tenantId (hrequest.call ▸ hcall₂)
    rw [hstep₁] at h₁ ⊢
    rw [hstep₂] at h₂ ⊢
    obtain ⟨hanswer, halike⟩ := h.alike.serve hids hcall hrequest.clock (h₁.roomy _ (List.mem_append_right _ (List.mem_singleton_self _)))
      (h₂.roomy _ (List.mem_append_right _ (List.mem_singleton_self _))) (by
        intro job₁ job₂ hjob₁ hjob₂
        have hcreated₁ := h₁.created
        have hcreated₂ := h₂.created
        rw [hjob₁] at hcreated₁
        rw [hjob₂] at hcreated₂
        refine .inr ⟨t₁.created.length, getElem?_of_prefix hcreated₁ ?_, getElem?_of_prefix hcreated₂ ?_⟩
        · exact List.getElem?_concat_length
        · rw [h.length]
          exact List.getElem?_concat_length)
    refine ⟨halike, ?_, ?_⟩
    · rw [List.length_append, List.length_append, h.length, sameAnswer_length hanswer]
    · exact List.rel_append h.answers (.cons hanswer .nil)

/-- The tenant before its first call. -/
def start (s : Service) : Tenant := ⟨s, [], []⟩

/-- In a run the jobs that a tenant creates are fresh. -/
theorem fresh_run (cfg : RequestConfig) (tenantId : String) (hs : Store.Reachable cfg.store s₁.store) (requests : List TenantRequest) :
    Fresh cfg s₁.store.drawn (Machine.run (step cfg tenantId) (start s₁) requests) :=
  Machine.run_induct (fun _ request h => h.step request) (s := start s₁)
    ⟨hs, le_refl _, fun _ hx => absurd hx List.not_mem_nil, List.nodup_nil⟩ requests

/-- Services with the same rows, notifications and directories agree. -/
theorem agree_of_eq (hjobs : s₁.store.jobsOf tenantId = s₂.store.jobsOf tenantId) (houtbox : s₁.store.outbox = s₂.store.outbox)
    (hdirs : s₁.output.dirs = s₂.output.dirs) : Agree tenantId s₁ s₂ := by
  refine ⟨fun r hr => ?_, fun o _ => by rw [houtbox], fun r _ _ stream => readStream_congr (by rw [hdirs]) stream⟩
  have hmem : r ∈ s₁.store.jobsOf tenantId ↔ r ∈ s₂.store.jobsOf tenantId := by rw [hjobs]
  simpa only [mem_jobsOf, hr, and_true] using hmem

/-- The same epoch of a store, or that of each of the two. -/
def SameEpoch (epoch₁ epoch₂ x y : Uuid) : Prop := x = y ∨ x = epoch₁ ∧ y = epoch₂

/-- Services that agree on what is the tenant's can not be told apart, whatever new jobs are called. -/
theorem Agree.alike {created₁ created₂ : List Uuid} {times : Instant → Instant → Prop} (h : Agree tenantId s₁ s₂)
    (hs₁ : Service.Reachable cfg.toServiceConfig s₁) (hs₂ : Service.Reachable cfg.toServiceConfig s₂)
    (htimes : ∀ r ∈ s₁.store.jobsOf tenantId, ∀ t ∈ r.completedAt, times t t) (hcreated₁ : ∀ x ∈ created₁, s₁.store.drawn ≤ x)
    (hcreated₂ : ∀ x ∈ created₂, s₂.store.drawn ≤ x) :
    Alike cfg (ended created₁ created₂ (SameEpoch s₁.store.storeEpoch s₂.store.storeEpoch) times) tenantId s₁ s₂ := by
  have hstore₁ := hs₁.store
  have hstore₂ := hs₂.store
  have hcounterpart : ∀ r, r ∈ s₁.store.jobs → r.tenantId = tenantId →
      Counterpart cfg (ended created₁ created₂ (SameEpoch s₁.store.storeEpoch s₂.store.storeEpoch) times) s₁ s₂ r r := by
    intro r hr htenant
    have hr₂ := (h.jobs r htenant).1 hr
    refine ⟨.inl ⟨rfl, fun hmem => ?_, fun hmem => ?_⟩, .inl rfl, rfl, fun t₁ h₁ t₂ h₂ => ?_, ?_, fun stream => ?_⟩
    · exact absurd (hstore₁.wellFormed.jobDrawn r hr) (hcreated₁ r.id hmem).not_gt
    · exact absurd (hstore₂.wellFormed.jobDrawn r hr₂) (hcreated₂ r.id hmem).not_gt
    · cases h₁.symm.trans h₂
      exact htimes r (mem_jobsOf.2 ⟨hr, htenant⟩) t₁ h₁
    · exact (announcing_congr fun o ho => (h.outbox o ⟨r, hr, ho.symm, htenant⟩).symm).symm
    · exact (read_congr (hs₁.pathed.rows r hr stream) fun stream => (h.output r hr htenant stream).symm).symm
  refine ⟨⟨hstore₁, hstore₂⟩, ⟨hs₁.pathed.rows, hs₂.pathed.rows⟩, .inr ⟨rfl, rfl⟩, fun r hr => ?_, fun r hr => ?_⟩
  · obtain ⟨hr, htenant⟩ := mem_jobsOf.1 hr
    exact ⟨r, mem_jobsOf.2 ⟨(h.jobs r htenant).1 hr, htenant⟩, hcounterpart r hr htenant⟩
  · obtain ⟨hr, htenant⟩ := mem_jobsOf.1 hr
    have hr₁ := (h.jobs r htenant).2 hr
    exact ⟨r, mem_jobsOf.2 ⟨hr₁, htenant⟩, hcounterpart r hr₁ htenant⟩

/-- The calls of a tenant over services that agree on what is its: the same answers, up to new ids and timestamps. -/
theorem run_alike {times : Instant → Instant → Prop} {requests₁ requests₂ : List TenantRequest}
    (hs₁ : Service.Reachable cfg.toServiceConfig s₁) (hs₂ : Service.Reachable cfg.toServiceConfig s₂) (h : Agree tenantId s₁ s₂)
    (htimes : ∀ r ∈ s₁.store.jobsOf tenantId, ∀ t ∈ r.completedAt, times t t)
    (hrequests : List.Forall₂ (SameRequest cfg times) requests₁ requests₂) {t₁ t₂ : Tenant}
    (ht₁ : Machine.run (step cfg tenantId) (start s₁) requests₁ = t₁) (ht₂ : Machine.run (step cfg tenantId) (start s₂) requests₂ = t₂)
    (hunforeseen : ∀ request ∈ requests₁, Unforeseen t₁.created request ∧ Unforeseen t₂.created request)
    (hroom₁ : ∀ answer ∈ t₁.answers, Roomy answer) (hroom₂ : ∀ answer ∈ t₂.answers, Roomy answer) :
    List.Forall₂ (SameAnswer (ended t₁.created t₂.created (SameEpoch s₁.store.storeEpoch s₂.store.storeEpoch) times)) t₁.answers
      t₂.answers := by
  subst ht₁ ht₂
  have hfresh₁ := fresh_run cfg tenantId hs₁.store requests₁
  have hfresh₂ := fresh_run cfg tenantId hs₂.store requests₂
  have halike := h.alike hs₁ hs₂ htimes (fun x hx => (hfresh₁.created x hx).1) fun x hx => (hfresh₂.created x hx).1
  have hpaired := Machine.run_pair (fun _ _ h => h.back) (fun _ _ h => h.back)
    (fun _ _ _ _ hpair hrequest h₁ h₂ => Paired.step (oneToOne_sameId hfresh₁.nodup hfresh₂.nodup) hpair hrequest.2 hrequest.1 h₁ h₂)
    ((List.forall₂_and_left _ _).2 ⟨hunforeseen, hrequests⟩) (s := start s₁) (t := start s₂) ⟨halike, rfl, .nil⟩
    ⟨List.prefix_refl _, hroom₁⟩ ⟨List.prefix_refl _, hroom₂⟩
  exact hpaired.answers

end Tenant

end SharkRail
