import SharkRail.Lemmas.Stored

/-!
# The output that stays

As long as the executor discards no output that a row refers to, a step keeps what `Stored` says: an execution that has published its
output leaves it until it has finished the job, and whatever else is on the output of a job meets one whose row is gone, or has none.
-/

namespace SharkRail

namespace Service

variable {cfg : ServiceConfig} {s s' : Service} {e e' : Execution} {input : ServiceInput} {jobId : Uuid} {clock : Reading}
  {fault : Fault}

/-! ## Who is on the output of a job -/

/-- A call of an execution is on the output of its own job only. -/
theorem Rewrites.of_execute (hs : Sound s) (he : e ∈ s.executions) (h : Rewrites cfg s jobId (.execute e.attempt clock fault)) :
    e.job.id = jobId ∧ e.rewrites = true := by
  generalize hinput : ServiceInput.execute e.attempt clock fault = input at h
  cases h with
  | executed x _ _ hx hjob hpc =>
    injection hinput with hattempt
    obtain rfl := Table.eq_of_key Execution.attempt hs.attempts he hx hattempt
    exact ⟨hjob, hpc⟩
  | tornExecution | pruned | tornPruner | opened => cases hinput

/-- What is on the output of a job that is executed: its execution, a crash, or a pruning of a row that is gone. -/
theorem Stored.rewrites (h : Stored cfg s) (hs : Sound s) (he : e ∈ s.executions) (hrewrites : Rewrites cfg s e.job.id input) :
    (∃ clock fault, input = .execute e.attempt clock fault) ∨ (∃ tear, input = .crash tear) ∨ Store.Gone e.job.id s.store := by
  cases hrewrites with
  | executed x clock fault hx hjob =>
    obtain rfl := Table.eq_of_key (fun e : Execution => e.job.id) hs.jobs hx he hjob
    exact Or.inl ⟨clock, fault, rfl⟩
  | tornExecution | tornPruner => exact Or.inr (Or.inl ⟨_, rfl⟩)
  | pruned index fault pruner row hpruner hrow hjob =>
    have hgone := (h.pruners pruner hpruner row hrow).2
    rw [hjob] at hgone
    exact Or.inr (Or.inr hgone)
  | opened workerId torn hdown =>
    rw [(h.down hdown).1] at he
    cases he

/-- The output that an execution rewrites is of no row, unless it discards what a row refers to. -/
theorem Stored.uncommitted (h : Stored cfg s) (he : e ∈ s.executions) (hrewrites : e.rewrites = true)
    (hguard : e.discards = true → ∀ row ∈ s.store.jobs, row.id = e.job.id → row.hasOutput = false) :
    ∀ row ∈ s.store.jobs, row.id = e.job.id → row.hasOutput = false := by
  unfold Execution.rewrites at hrewrites
  split at hrewrites
  · rename_i result paths hpc
    exact ((h.executions e he).unwritten (by rw [hpc]; rfl)).2.1.2
  · rename_i x paths hpc hpaths
    exact hguard (by simp [Execution.discards, hpc, hpaths])
  · cases hrewrites

/-- A step on the output of a row leaves no row that refers to it, unless the executor discards what a row refers to. -/
theorem Stored.not_rewrites (h : Stored cfg s) (hguard : DiscardsUncommitted s input) {row row' : JobRow}
    (hrow : row ∈ s.store.jobs) (houtput : row.hasOutput = true) (hrow' : row' ∈ (step cfg s input).store.jobs)
    (houtput' : row'.hasOutput = true) (hid : row.id = row'.id) : ¬Rewrites cfg s row'.id input := by
  intro hrewrites
  have hcommitted : ∀ x ∈ s.executions, x.job.id = row'.id →
      ¬∀ r ∈ s.store.jobs, r.id = x.job.id → r.hasOutput = false := by
    intro x _ hjob hnone
    rw [hnone row hrow (hid.trans hjob.symm)] at houtput
    cases houtput
  cases hrewrites with
  | executed x clock fault hx hjob hpc => exact hcommitted x hx hjob (h.uncommitted hx hpc (hguard x hx rfl))
  | tornExecution x done cleaned hx hjob hpc => exact hcommitted x hx hjob (h.uncommitted hx hpc (hguard x hx rfl))
  | pruned index fault pruner r hpruner hr hjob => exact (h.pruners pruner hpruner r hr).2.2 row hrow (hid.trans hjob.symm)
  | tornPruner index done pruner r hpruner hr hjob => exact (h.pruners pruner hpruner r hr).2.2 row hrow (hid.trans hjob.symm)
  | opened workerId torn hdown hleftover =>
    have hstore : (step cfg s (.open workerId torn)).store = s.store.reopen cfg.store := by
      simp only [step, hdown, Bool.false_eq_true, if_false, openStores]
      cases torn <;> rfl
    rw [hstore] at hrow'
    rcases hleftover with hvolatile | hunreferenced
    · simp [Store.reopen, hvolatile, (Store.create_tables cfg.store s.store.drawn).1] at hrow'
    · refine hunreferenced (List.mem_append_left _ (List.mem_map.2 ⟨row', ?_, rfl⟩))
      simp only [Table.select, List.mem_filter]
      exact ⟨hrow', houtput'⟩

/-! ## The executions -/

theorem gone_step (hs : Sound s) (h : Store.Gone jobId s.store) (input : ServiceInput) : Store.Gone jobId (step cfg s input).store :=
  store_induct (P := Store.Gone jobId) cfg s input h fun _ _ _ => h.step hs.wellFormed _

/-- The rows of a job have no output until its execution finishes it with some. -/
theorem noOutput_step (h : Stored cfg s) (hs : Sound s) (he : e ∈ s.executions)
    (hrows : Store.RowsOf e.job.id (fun r => r.hasOutput = false) s.store)
    (hown : ∀ clock fault, input = .execute e.attempt clock fault → ∀ report n, e.pc ≠ .settling .result report n) :
    Store.RowsOf e.job.id (fun r => r.hasOutput = false) (step cfg s input).store := by
  refine store_induct (P := Store.RowsOf e.job.id fun r => r.hasOutput = false) cfg s input hrows fun call clock heffect => ?_
  refine Store.noOutput_step hs.wellFormed hrows ?_
  intro attemptId owner report hcall
  cases heffect with
  | settled x settling report' n clock fault hx hpc =>
    injection hcall with hjob _ _ hreport
    obtain rfl := Table.eq_of_key (fun e : Execution => e.job.id) hs.jobs hx he hjob
    rw [← hreport]
    refine (h.executions x hx).report settling report' n hpc ?_
    rintro rfl
    exact hown clock fault rfl report' n hpc
  | shared call clock hshared =>
    subst hcall
    cases hshared
  | claimed | marked | requested | cleared | reopened | recovered => cases hcall

/-- The output of a job is not written by the execution of another one. -/
theorem unwritten_step (hs : Sound s) (he : e ∈ s.executions) (hunwritten : ¬Written s e.job.id)
    (hown : ∀ clock fault, input = .execute e.attempt clock fault → ∀ result, e.pc ≠ .writing result) :
    ¬Written (step cfg s input) e.job.id := by
  rcases written_step cfg hs input with hsame | ⟨x, hx, result, clock, fault, hpc, hinput, hwritten⟩
  · rwa [Written, hsame]
  · rw [Written, hwritten, List.map_append, List.mem_append, not_or]
    refine ⟨hunwritten, ?_⟩
    intro hjob
    rw [List.map_singleton, List.mem_singleton] at hjob
    obtain rfl := Table.eq_of_key (fun e : Execution => e.job.id) hs.jobs he hx hjob
    exact hown clock fault hinput result hpc

/-- What an execution published is there, or its row is gone, as long as it is not on its output. -/
theorem published_step (h : Stored cfg s) (hs : Sound s) (he : e ∈ s.executions)
    (hpublished : Store.Gone e.job.id s.store ∨ Published s e.job.id)
    (hown : ∀ clock fault, input = .execute e.attempt clock fault → e.rewrites = false) (hcrash : ∀ tear, input ≠ .crash tear) :
    Store.Gone e.job.id (step cfg s input).store ∨ Published (step cfg s input) e.job.id := by
  rcases hpublished with hgone | hpublished
  · exact Or.inl (gone_step hs hgone input)
  · by_cases hrewrites : Rewrites cfg s e.job.id input
    · rcases h.rewrites hs he hrewrites with ⟨clock, fault, rfl⟩ | ⟨tear, rfl⟩ | hgone
      · have hpc := (hrewrites.of_execute hs he).2
        rw [hown clock fault rfl] at hpc
        cases hpc
      · exact absurd rfl (hcrash tear)
      · exact Or.inl (gone_step hs hgone input)
    · exact Or.inr (hpublished.step hs hrewrites)

/-- An execution that makes no call keeps its stage. -/
theorem Stage.kept (h : Stored cfg s) (hs : Sound s) (he : e ∈ s.executions) (hjob : e'.job = e.job) (hpc : e'.pc = e.pc)
    (hpaths : e'.outputPaths = e.outputPaths) (hown : ∀ clock fault, input ≠ .execute e.attempt clock fault)
    (hcrash : ∀ tear, input ≠ .crash tear) : Stage cfg (step cfg s input) e' := by
  have hstage := h.executions e he
  constructor
  · intro hunwritten
    rw [hpc] at hunwritten
    obtain ⟨hnone, hrows, hwritten⟩ := hstage.unwritten hunwritten
    rw [hjob, hpaths]
    refine ⟨hnone, noOutput_step h hs he hrows ?_, unwritten_step hs he hwritten ?_⟩
    · intro clock fault hinput
      exact absurd hinput (hown clock fault)
    · intro clock fault hinput
      exact absurd hinput (hown clock fault)
  · intro report n hsettling
    rw [hpc] at hsettling
    obtain ⟨hpaths', hstdout, hstderr, hpublished⟩ := hstage.result report n hsettling
    rw [hjob, hpaths]
    refine ⟨hpaths', hstdout, hstderr, published_step h hs he hpublished ?_ hcrash⟩
    intro clock fault hinput
    exact absurd hinput (hown clock fault)
  · intro settling report n hsettling
    exact hstage.report settling report n (hpc ▸ hsettling)
  · intro hdisposing
    rw [hpaths]
    exact hstage.disposing (hpc ▸ hdisposing)

/-- The stage of an execution that finishes its job. -/
theorem Stage.settling {settling : Settling} {report : Store.Report} {n : Nat} (hpc : e.pc = .settling settling report n)
    (hresult : settling = .result → e.outputPaths = some (jobPaths cfg.output e.job.id) ∧
      report.stdoutPath = some (jobPaths cfg.output e.job.id).1 ∧ report.stderrPath = some (jobPaths cfg.output e.job.id).2 ∧
        (Store.Gone e.job.id s.store ∨ Published s e.job.id))
    (hreport : settling ≠ .result → report.hasOutput = false) : Stage cfg s e := by
  constructor
  · intro hunwritten
    rw [hpc] at hunwritten
    cases hunwritten
  · intro report' n' hsettling
    rw [hpc] at hsettling
    cases hsettling
    exact hresult rfl
  · intro settling' report' n' hsettling hne
    rw [hpc] at hsettling
    cases hsettling
    exact hreport hne
  · intro hdisposing
    rw [hpc] at hdisposing
    cases hdisposing

/-- An execution that makes a call is at the stage where it goes on. -/
theorem Stage.advanced (h : Stored cfg s) (hs : Sound s) (he : e ∈ s.executions) (hadvances : Advances cfg clock fault e s e' s')
    (hstep : step cfg s (.execute e.attempt clock fault) = s'.replace e e') : Stage cfg (s'.replace e e') e' := by
  have hstage := h.executions e he
  have hjob := hadvances.sameRun.job
  cases hadvances.continues with
  | unwritten hpc hwriting hpc' hpaths =>
    refine ⟨fun _ => ?_, ?_, ?_, ?_⟩
    · obtain ⟨hnone, hrows, hwritten⟩ := hstage.unwritten hpc
      rw [hjob, hpaths, ← hstep]
      refine ⟨hnone, noOutput_step h hs he hrows ?_, unwritten_step hs he hwritten fun _ _ _ => hwriting⟩
      intro _ _ _ report n hsettling
      rw [hsettling] at hpc
      cases hpc
    · intro report n hsettling
      rw [hsettling] at hpc'
      cases hpc'
    · intro settling report n hsettling
      rw [hsettling] at hpc'
      cases hpc'
    · intro hdisposing
      rw [hdisposing] at hpc'
      cases hpc'
  | wrote result paths hpc hpc' hpaths hwrite hs' =>
    obtain ⟨rfl, hholds⟩ := Output.writeJob_returned hwrite
    refine .settling hpc' (fun _ => ?_) fun hne => absurd rfl hne
    rw [hjob, hs']
    refine ⟨hpaths, rfl, rfl, Or.inr ⟨result.stdoutBytes, result.stderrBytes, ?_, hholds⟩⟩
    exact List.mem_append_right _ List.mem_cons_self
  | retries settling report n hpc hpc' hpaths =>
    refine .settling hpc' ?_ fun hne => hstage.report settling report n hpc hne
    rintro rfl
    obtain ⟨hpaths', hstdout, hstderr, hpublished⟩ := hstage.result report n hpc
    rw [hjob, hpaths, ← hstep]
    refine ⟨hpaths', hstdout, hstderr, published_step h hs he hpublished ?_ (by simp)⟩
    intro _ _ _
    simp [Execution.rewrites, hpc]
  | reports settling report hne hreport hpc' => exact .settling hpc' (fun heq => absurd heq hne) fun _ => hreport
  | disposes hpc' hpaths =>
    refine ⟨?_, ?_, ?_, fun _ => hpaths⟩ <;> simp [hpc', Pc.unwritten, Pc.past]
  | discards x hpc' =>
    refine ⟨?_, ?_, ?_, ?_⟩ <;> simp [hpc', Pc.unwritten, Pc.past]
  | leaves hpc' =>
    rcases hpc' with hpc' | hpc' | hpc' | hpc' | hpc' <;>
      exact ⟨by simp [hpc', Pc.unwritten, Pc.past], by simp [hpc'], by simp [hpc'], by simp [hpc']⟩

theorem callback_outputPaths (e : Execution) (c : Callback) : (e.callback c).outputPaths = e.outputPaths := by
  cases c with
  | cancelStart origin =>
    unfold Execution.callback
    dsimp only
    split <;> rfl
  | cancelSession origin =>
    unfold Execution.callback
    dsimp only
    split
    · split <;> rfl
    · rfl

/-- An execution that a claim makes has written nothing, since its job was queued. -/
theorem Stage.claimed (h : Stored cfg s) (hs : Sound s) {leaseSeconds : Int} {row : JobRow} {job : JobRecord}
    (hrow : row ∈ s.store.jobs) (hphase : row.phase = .queued) (hid : job.id = row.id)
    (hwritten : (step cfg s (.claim leaseSeconds clock)).written = s.written) :
    Stage cfg (step cfg s (.claim leaseSeconds clock)) { job, attempt := s.store.drawn } := by
  refine ⟨fun _ => ⟨rfl, ?_, ?_⟩, by simp, by simp, fun _ => rfl⟩
  · have hrows : Store.RowsOf job.id (fun r => r.hasOutput = false) s.store := by
      refine ⟨hid ▸ hs.wellFormed.jobDrawn row hrow, fun r hr hr' => ?_⟩
      obtain rfl := Table.eq_of_key JobRow.id hs.wellFormed.jobIds hr hrow (hr'.trans hid)
      by_contra houtput
      have hterminal := (h.documented.rows r hr (by simpa using houtput)).terminal
      rw [hphase] at hterminal
      cases hterminal
    refine store_induct (P := Store.RowsOf job.id fun r => r.hasOutput = false) cfg s _ hrows fun call clock heffect => ?_
    refine Store.noOutput_step hs.wellFormed hrows ?_
    intro attemptId owner report hcall
    cases heffect
    cases hcall
  · rw [Written, hwritten]
    intro hjob
    exact (h.claimed job.id hjob).2 row hrow hid.symm hphase

/-! ## Every step -/

/-- The output of every row is there after a step. -/
theorem Stored.published_after (h : Stored cfg s) (hs : Sound s) (hguard : DiscardsUncommitted s input) :
    ∀ row ∈ (step cfg s input).store.jobs, row.hasOutput = true → Published (step cfg s input) row.id := by
  intro row' hrow' houtput
  have hkept : (∃ row ∈ s.store.jobs, row.id = row'.id ∧ row.hasOutput = true) → Published (step cfg s input) row'.id := by
    rintro ⟨row, hrow, hid, hbefore⟩
    exact (hid ▸ h.published row hrow hbefore).step hs (h.not_rewrites hguard hrow hbefore hrow' houtput hid)
  rcases store_step cfg s input with hstore | ⟨call, clock, heffect, hstore⟩
  · exact hkept ⟨row', hstore ▸ hrow', rfl, houtput⟩
  · rcases Store.hasOutput_step hs.wellFormed call clock row' (hstore ▸ hrow') houtput with
      hbefore | ⟨attemptId, owner, report, hcall, hreport⟩
    · exact hkept hbefore
    · cases heffect with
      | settled e settling report' n clock fault he hpc =>
        injection hcall with hjob _ _ hsame
        -- Only the `finish` of a result refers to output, and that was published.
        have hresult : settling = .result := by
          by_contra hne
          rw [← hsame, (h.executions e he).report settling report' n hpc hne] at hreport
          cases hreport
        subst hresult
        have hpublished := ((h.executions e he).result report' n hpc).2.2.2
        rw [← hjob]
        have hquiet : e.rewrites = false := by simp [Execution.rewrites, hpc]
        have hafter : Store.Gone e.job.id (step cfg s (.execute e.attempt clock fault)).store ∨
            Published (step cfg s (.execute e.attempt clock fault)) e.job.id :=
          published_step h hs he hpublished (fun _ _ _ => hquiet) (by simp)
        exact hafter.resolve_left fun hgone => hgone.2 row' hrow' hjob.symm
      | shared call clock hshared =>
        subst hcall
        cases hshared
      | claimed | marked | requested | cleared | reopened | recovered => cases hcall

/-- Every execution is at its stage after a step. -/
theorem Stored.executions_after (h : Stored cfg s) (hs : Sound s) :
    ∀ e ∈ (step cfg s input).executions, Stage cfg (step cfg s input) e := by
  intro e' he'
  have hstep := hs.serviceStep cfg input
  generalize ht : step cfg s input = t at hstep he' ⊢
  cases hstep with
  | skipped => exact h.executions e' he'
  | called | requested | unrequested | dropped | closed | snapshot | finalizing | started =>
    rw [← ht]
    exact Stage.kept h hs he' rfl rfl rfl (by simp) (by simp)
  | pruned index fault pruner =>
    rw [← ht]
    obtain ⟨store, output, htouches⟩ := pruneStep_touches cfg fault pruner s
    rw [htouches] at he'
    exact Stage.kept h hs he' rfl rfl rfl (by simp) (by simp)
  | crashed tear => cases he'
  | opened workerId torn hdown =>
    have hnone : (s.openStores cfg workerId torn).executions = s.executions := by
      unfold openStores
      cases torn <;> rfl
    rw [hnone, (h.down hdown).1] at he'
    cases he'
  | claimed leaseSeconds clock row job hstarted hrow hphase hid =>
    rw [List.mem_append, List.mem_singleton] at he'
    rcases he' with he' | rfl
    · rw [← ht]
      exact Stage.kept h hs he' rfl rfl rfl (by simp) (by simp)
    · rw [← ht]
      exact Stage.claimed h hs hrow hphase hid (by rw [ht])
  | advanced e e₁ s₁ clock fault he hadvances =>
    rw [mem_replace (hadvances.frame.1 ▸ he), hadvances.frame.1] at he'
    rcases he' with ⟨he', hne⟩ | rfl
    · rw [← ht]
      exact Stage.kept h hs he' rfl rfl rfl (by simp [hne.symm]) (by simp)
    · exact Stage.advanced h hs he hadvances ht
  | calledBack e c rest he =>
    rw [mem_replace he] at he'
    rcases he' with ⟨he', hne⟩ | rfl
    · rw [← ht]
      exact Stage.kept h hs he' rfl rfl rfl (by simp) (by simp)
    · rw [← ht]
      have hsame := Execution.sameRun_callback { e with callbacks := rest } c
      exact Stage.kept h hs he hsame.job (callback_frame _ c).1 (callback_outputPaths _ c) (by simp) (by simp)
  | monitored e event he =>
    rw [mem_replace he] at he'
    rcases he' with ⟨he', hne⟩ | rfl
    · rw [← ht]
      exact Stage.kept h hs he' rfl rfl rfl (by simp) (by simp)
    · rw [← ht]
      exact Stage.kept h hs he rfl rfl rfl (by simp) (by simp)
  | sent index signal e hsignal he =>
    have he₁ : e ∈ ({ s with signals := s.signals.eraseIdx index } : Service).executions := he
    rw [mem_replace he₁] at he'
    rcases he' with ⟨he', hne⟩ | rfl
    · rw [← ht]
      exact Stage.kept h hs he' rfl rfl rfl (by simp) (by simp)
    · rw [← ht]
      exact Stage.kept h hs he rfl rfl rfl (by simp) (by simp)

/-- A step of a pruning goes on with the manifests it had. -/
theorem pruneStep_rows (cfg : ServiceConfig) (fault : Fault) (pruner : Pruner) (s : Service) :
    ∀ row ∈ (s.pruneStep cfg fault pruner).1.rows, row ∈ pruner.rows := by
  intro row hrow
  unfold pruneStep at hrow
  split at hrow
  · exact hrow
  · rename_i first rest hrows
    rw [hrows]
    split at hrow
    · exact List.mem_cons_of_mem _ hrow
    · dsimp only at hrow
      split at hrow
      · rwa [hrows] at hrow
      · exact List.mem_cons_of_mem _ hrow
      · cases hrow

/-- The prunings after a step: with manifests they had, or with all there are. -/
theorem pruners_step (cfg : ServiceConfig) (hs : Sound s) (input : ServiceInput) :
    ∀ pruner ∈ (step cfg s input).pruners, ∀ row ∈ pruner.rows,
      (∃ pruner' ∈ s.pruners, row ∈ pruner'.rows) ∨ row ∈ s.store.deletions := by
  have hstep := hs.serviceStep cfg input
  generalize step cfg s input = t at hstep
  intro pruner hpruner row hrow
  cases hstep with
  | advanced e e' s₁ clock fault _ hadvances =>
    obtain ⟨-, -, -, -, -, hpruners, -⟩ := hadvances.frame
    change pruner ∈ s₁.pruners at hpruner
    rw [hpruners] at hpruner
    exact Or.inl ⟨pruner, hpruner, hrow⟩
  | finalizing =>
    rw [List.mem_append, List.mem_singleton] at hpruner
    rcases hpruner with hpruner | rfl
    · exact Or.inl ⟨pruner, hpruner, hrow⟩
    · simp only [Table.selectBy, List.mem_insertionSort, Table.select, List.mem_filter, and_true] at hrow
      exact Or.inr hrow
  | pruned index fault first hfirst =>
    rcases List.mem_or_eq_of_mem_set hpruner with hpruner | rfl
    · exact Or.inl ⟨pruner, hpruner, hrow⟩
    · exact Or.inl ⟨first, List.mem_of_getElem? hfirst, pruneStep_rows cfg fault first s row hrow⟩
  | crashed => cases hpruner
  | opened workerId torn =>
    refine Or.inl ⟨pruner, ?_, hrow⟩
    unfold openStores at hpruner
    cases torn <;> exact hpruner
  | _ => exact Or.inl ⟨pruner, hpruner, hrow⟩

/-- A service that is down has nothing under way. -/
theorem Stored.down_after (h : Stored cfg s) (hs : Sound s) (hdown : (step cfg s input).up = false) :
    (step cfg s input).executions = [] ∧ (step cfg s input).pruners = [] ∧ (step cfg s input).started = false := by
  have hstep := hs.serviceStep cfg input
  generalize step cfg s input = t at hstep hdown
  have hnot : ∀ {P : Prop} {e : Execution}, e ∈ s.executions → s.up = false → P := by
    intro P e he hbefore
    rw [(h.down hbefore).1] at he
    cases he
  cases hstep with
  | skipped | requested | unrequested | dropped | snapshot => exact h.down hdown
  | called _ _ hup | finalizing hup | started _ hup =>
    change s.up = false at hdown
    rw [hup] at hdown
    cases hdown
  | claimed _ _ _ _ hstarted | closed hstarted =>
    rw [(h.down hdown).2.2] at hstarted
    cases hstarted
  | advanced e e' s₁ clock fault he hadvances =>
    obtain ⟨-, -, -, -, -, -, hup⟩ := hadvances.frame
    exact hnot he (hup ▸ hdown)
  | calledBack e _ _ he | monitored e _ he | sent _ _ e _ he => exact hnot he hdown
  | pruned index fault pruner hpruner =>
    obtain ⟨store, output, htouches⟩ := pruneStep_touches cfg fault pruner s
    rw [htouches] at hdown
    have hmem := List.mem_of_getElem? hpruner
    rw [(h.down hdown).2.1] at hmem
    cases hmem
  | crashed tear => exact ⟨rfl, rfl, rfl⟩
  | opened workerId torn hbefore =>
    cases torn with
    | none => cases hdown
    | some done => exact h.down hbefore

/-- What holds of the output holds after a step that discards none that a row refers to. -/
theorem Stored.step (h : Stored cfg s) (hs : Sound s) (hguard : DiscardsUncommitted s input) : Stored cfg (Service.step cfg s input) := by
  refine ⟨?_, h.published_after hs hguard, h.executions_after hs, ?_, ?_, ?_, h.down_after hs⟩
  · refine store_induct (P := fun store => store.Documented cfg.output) cfg s input h.documented fun call clock heffect => ?_
    refine h.documented.step hs.wellFormed call clock ?_ ?_
    · rintro jobId attemptId owner rfl
      cases heffect with
      | marked e _ _ _ he hpc => exact ((h.executions e he).unwritten (by rw [hpc]; rfl)).2.1
      | shared _ _ hshared => cases hshared
    · rintro jobId attemptId owner report rfl hreport
      cases heffect with
      | settled e settling _ n _ _ he hpc =>
        by_cases hresult : settling = .result
        · subst hresult
          obtain ⟨-, hstdout, hstderr, -⟩ := (h.executions e he).result report n hpc
          exact ⟨hstdout, hstderr⟩
        · rw [(h.executions e he).report settling report n hpc hresult] at hreport
          cases hreport
      | shared _ _ hshared => cases hshared
  · intro pruner hpruner row hrow
    rcases pruners_step cfg hs input pruner hpruner row hrow with ⟨pruner', hpruner', hrow'⟩ | hrow'
    · obtain ⟨hcommitted, hgone⟩ := h.pruners pruner' hpruner' row hrow'
      exact ⟨hcommitted, gone_step hs hgone input⟩
    · have hgone : Store.Gone row.jobId s.store := ⟨hs.wellFormed.manifestDrawn row hrow', hs.wellFormed.manifestGone row hrow'⟩
      exact ⟨h.documented.manifests row hrow', gone_step hs hgone input⟩
  · rcases written_step cfg hs input with hsame | ⟨e, he, result, _, _, hpc, -, hwritten⟩
    · rw [hsame]
      exact h.written
    · have hnew := ((h.executions e he).unwritten (by rw [hpc]; rfl)).2.2
      rw [hwritten, List.map_append, List.map_singleton]
      refine h.written.append (List.nodup_singleton _) ?_
      intro jobId hjob hlast
      rw [List.mem_singleton] at hlast
      subst hlast
      exact hnew hjob
  · intro jobId hjob
    have hclaimed : Store.RowsOf jobId (fun r => r.phase ≠ .queued) s.store := by
      rcases written_step cfg hs input with hsame | ⟨e, he, result, _, _, -, -, hwritten⟩
      · rw [Written, hsame] at hjob
        exact h.claimed jobId hjob
      · rw [Written, hwritten, List.map_append, List.mem_append, List.map_singleton, List.mem_singleton] at hjob
        rcases hjob with hjob | rfl
        · exact h.claimed jobId hjob
        · exact hs.claimed e he
    exact store_induct (P := Store.RowsOf jobId fun r => r.phase ≠ .queued) cfg s input hclaimed fun _ _ _ =>
      rowsOf_not_queued cfg hs.wellFormed hclaimed

theorem stored_create (cfg : ServiceConfig) : Stored cfg (create cfg) := by
  have hjobs : (create cfg).store.jobs = [] := (Store.create_tables cfg.store 0).1
  have hdeletions : (create cfg).store.deletions = [] := (Store.create_tables cfg.store 0).2.2.1
  refine ⟨⟨?_, ?_⟩, ?_, ?_, ?_, List.nodup_nil, ?_, fun _ => ⟨rfl, rfl, rfl⟩⟩
  · simp [hjobs]
  · simp [hdeletions]
  · simp [hjobs]
  · simp [create]
  · simp [create]
  · simp [Written, create]

end Service

end SharkRail
