import SharkRail.Service.Output

/-!
# The output of one job

The effects of `write_job` and `delete_job` are on the directory of their job and on a staging directory, so whatever goes wrong they
leave the output of every other job. A `write_job` that returns has published both files; `reconcile` removes what is not referenced,
and nothing else, however far it gets.
-/

namespace SharkRail

namespace Output

variable {cfg : OutputConfig} {fault : Fault} {o : Output} {dirs dirs' : OutputTree} {d d' : DirName} {effect : OutputEffect}
  {jobId other : Uuid} {stdout stderr : Bytes}

/-- Both files of a job are there, and hold these bytes. -/
structure Holds (dirs : OutputTree) (jobId : Uuid) (stdout stderr : Bytes) : Prop where
  stdout : Files.read dirs (.job jobId) (.bin .stdout) = some stdout
  stderr : Files.read dirs (.job jobId) (.bin .stderr) = some stderr

theorem Holds.congr (h : Holds dirs jobId stdout stderr) (hdirs : dirs'.lookup (.job jobId) = dirs.lookup (.job jobId)) :
    Holds dirs' jobId stdout stderr :=
  ⟨(Files.read_congr hdirs _).trans h.stdout, (Files.read_congr hdirs _).trans h.stderr⟩

/-! ## Directories removed -/

theorem names_removeEffects (h : effect ∈ removeEffects d dirs) : effect.names = [d] := by
  unfold removeEffects at h
  split at h
  · exact Files.names_removal h
  · cases h

/-- The removal of a directory removes it, if it was as it was found. -/
theorem lookup_removed (h : dirs'.lookup d = dirs.lookup d) : (Files.run dirs' (removeEffects d dirs)).lookup d = none := by
  unfold removeEffects
  split
  · rename_i files hfiles
    exact Files.lookup_removal (h.trans hfiles)
  · rename_i hnone
    exact h.trans hnone

theorem lookup_removed_ne (hne : d' ≠ d) : (Files.run dirs' (removeEffects d dirs)).lookup d' = dirs'.lookup d' :=
  Files.lookup_run fun e he => by simpa [names_removeEffects he] using hne

theorem lookup_removed_take (hne : d' ≠ d) (n : Nat) :
    (Files.run dirs' ((removeEffects d dirs).take n)).lookup d' = dirs'.lookup d' :=
  Files.lookup_run_take (fun e he => by simpa [names_removeEffects he] using hne) n

/-- Directories removed one after another are gone, and the others are as they were. -/
theorem lookup_removals {removed : List DirName} (hremoved : removed.Nodup) (hdirs : ∀ d ∈ removed, dirs'.lookup d = dirs.lookup d) :
    (Files.run dirs' (removed.flatMap fun d => removeEffects d dirs)).lookup d =
      if d ∈ removed then none else dirs'.lookup d := by
  induction removed generalizing dirs' with
  | nil => simp
  | cons first rest ih =>
    rw [List.nodup_cons] at hremoved
    have hnext : ∀ d ∈ rest, (Files.run dirs' (removeEffects first dirs)).lookup d = dirs.lookup d := fun d hd => by
      rw [lookup_removed_ne (ne_of_mem_of_not_mem hd hremoved.1)]
      exact hdirs d (List.mem_cons_of_mem _ hd)
    rw [List.flatMap_cons, Files.run_append, ih hremoved.2 hnext]
    by_cases hd : d = first
    · subst hd
      simp [hremoved.1, lookup_removed (hdirs d List.mem_cons_self)]
    · simp [hd, lookup_removed_ne hd]

/-! ## A job written -/

theorem names_stageEffects {staging : DirName} {stream : Stream} {data : Bytes} (h : effect ∈ stageEffects staging stream data) :
    effect.names = [staging] := by
  simp only [stageEffects, List.mem_cons, List.not_mem_nil, or_false] at h
  rcases h with rfl | rfl | rfl <;> rfl

/-- The effects of `write_job` are on the directory of the job and on its staging directory. -/
theorem names_writeEffects (h : effect ∈ writeEffects jobId stdout stderr o) :
    ∀ d ∈ effect.names, d = .job jobId ∨ d = .staging jobId o.tokens := by
  simp only [writeEffects, List.cons_append, List.mem_cons, List.mem_append, List.not_mem_nil, or_false] at h
  rcases h with rfl | ((h | h) | h) | rfl
  · simp [Files.Effect.names]
  · simp [names_stageEffects h]
  · simp [names_stageEffects h]
  · simp [names_removeEffects h]
  · simp [Files.Effect.names]

/-- A stream staged is there, beside the one staged before. -/
theorem staged (staging : DirName) (stream : Stream) (data : Bytes) (h : (dirs.lookup staging).isSome = true) :
    ((Files.run dirs (stageEffects staging stream data)).lookup staging).isSome = true ∧
      Files.read (Files.run dirs (stageEffects staging stream data)) staging (.bin stream) = some data ∧
      ∀ stream', stream' ≠ stream →
        Files.read (Files.run dirs (stageEffects staging stream data)) staging (.bin stream') =
          Files.read dirs staging (.bin stream') := by
  simp only [stageEffects, Files.run_cons, Files.run_nil]
  refine ⟨?_, ?_, fun stream' hne => ?_⟩
  · rwa [Files.exists_replaceFile, Files.exists_write, Files.exists_write]
  · refine Files.read_replaceFile (Files.read_write ?_)
    rwa [Files.exists_write]
  · have htemporary : FileName.bin stream' ≠ .temporary stream := nofun
    have hbin : FileName.bin stream' ≠ .bin stream := fun h => hne (FileName.bin.inj h)
    rw [Files.read_replaceFile_ne htemporary hbin, Files.read_write_ne htemporary, Files.read_write_ne htemporary]

/-- The effects of `write_job` publish both files. -/
theorem holds_writeEffects (o : Output) (jobId : Uuid) (stdout stderr : Bytes) :
    Holds (Files.run o.dirs (writeEffects jobId stdout stderr o)) jobId stdout stderr := by
  let staging := DirName.staging jobId o.tokens
  let made := Files.apply o.dirs (.mkdir staging)
  let first := Files.run made (stageEffects staging .stdout stdout)
  let second := Files.run first (stageEffects staging .stderr stderr)
  let freed := Files.run second (removeEffects (.job jobId) o.dirs)
  have heffects : Files.run o.dirs (writeEffects jobId stdout stderr o) = Files.apply freed (.replaceDir staging (.job jobId)) := by
    simp only [writeEffects, List.cons_append, Files.run_cons, Files.run_append, Files.run_nil, freed, second, first, made, staging]
  obtain ⟨hthere, hstdout, -⟩ := staged staging .stdout stdout (Files.exists_mkdir : (made.lookup staging).isSome = true)
  obtain ⟨-, hstderr, hother⟩ := staged staging .stderr stderr hthere
  have hjob : second.lookup (.job jobId) = o.dirs.lookup (.job jobId) := by
    have hstage : ∀ stream data (dirs : OutputTree), (Files.run dirs (stageEffects staging stream data)).lookup (.job jobId) =
        dirs.lookup (.job jobId) := fun stream data dirs =>
      Files.lookup_run fun e he => by simp [names_stageEffects he, staging]
    calc second.lookup (.job jobId) = first.lookup (.job jobId) := hstage .stderr stderr first
      _ = made.lookup (.job jobId) := hstage .stdout stdout made
      _ = o.dirs.lookup (.job jobId) := Files.lookup_apply (by simp [Files.Effect.names, staging])
  -- The old directory is gone, so the staging directory takes its name.
  have hrenamed : (Files.apply freed (.replaceDir staging (.job jobId))).lookup (.job jobId) = second.lookup staging := by
    rw [Files.lookup_replaceDir (lookup_removed hjob)]
    exact lookup_removed_ne (by simp)
  rw [heffects]
  constructor
  · calc Files.read (Files.apply freed (.replaceDir staging (.job jobId))) (.job jobId) (.bin .stdout)
        = Files.read second staging (.bin .stdout) := by simp only [Files.read, hrenamed]
      _ = Files.read first staging (.bin .stdout) := hother .stdout (by simp)
      _ = some stdout := hstdout
  · calc Files.read (Files.apply freed (.replaceDir staging (.job jobId))) (.job jobId) (.bin .stderr)
        = Files.read second staging (.bin .stderr) := by simp only [Files.read, hrenamed]
      _ = some stderr := hstderr

/-- A `write_job` that returns has published both files, under the paths it returns. -/
theorem writeJob_returned {paths : String × String} (h : (o.writeJob cfg fault jobId stdout stderr).1 = .ok paths) :
    paths = jobPaths cfg jobId ∧ Holds (o.writeJob cfg fault jobId stdout stderr).2.dirs jobId stdout stderr := by
  unfold writeJob at h ⊢
  dsimp only at h ⊢
  split at h
  · cases h
  · rename_i hroom
    rw [if_neg hroom]
    cases fault with
    | none =>
      cases h
      dsimp only
      exact ⟨rfl, holds_writeEffects o jobId stdout stderr⟩
    | before | after | torn => cases h

/-- A crash in the middle of `write_job` leaves the output of every other job. -/
theorem lookup_tornWrite (hne : other ≠ jobId) (done cleaned : Nat) :
    (o.tornWrite jobId stdout stderr done cleaned).lookup (.job other) = o.dirs.lookup (.job other) := by
  have hwritten : (Files.run o.dirs ((writeEffects jobId stdout stderr o).take done)).lookup (.job other) =
      o.dirs.lookup (.job other) := by
    refine Files.lookup_run_take (fun e he hnames => ?_) done
    rcases names_writeEffects he _ hnames with h | h
    · exact hne (DirName.job.inj h)
    · cases h
  unfold tornWrite
  dsimp only
  split
  · exact hwritten
  · have hstaging : DirName.job other ≠ .staging jobId o.tokens := nofun
    rw [lookup_removed_take hstaging]
    exact hwritten

/-- `write_job` leaves the output of every other job, whatever goes wrong. -/
theorem lookup_writeJob (hne : other ≠ jobId) :
    (o.writeJob cfg fault jobId stdout stderr).2.dirs.lookup (.job other) = o.dirs.lookup (.job other) := by
  have hwritten : (Files.run o.dirs (writeEffects jobId stdout stderr o)).lookup (.job other) = o.dirs.lookup (.job other) := by
    refine Files.lookup_run fun e he hnames => ?_
    rcases names_writeEffects he _ hnames with h | h
    · exact hne (DirName.job.inj h)
    · cases h
  unfold writeJob
  dsimp only
  split
  · rfl
  · cases fault with
    | before => rfl
    | none | after =>
      dsimp only
      rw [hwritten]
    | torn done cleaned =>
      dsimp only
      rw [lookup_tornWrite hne]

/-! ## A job deleted -/

/-- `delete_job` leaves the output of every other job, whatever goes wrong. -/
theorem lookup_deleteJob (hne : other ≠ jobId) (stdoutPath stderrPath : Option String) :
    (o.deleteJob cfg fault jobId stdoutPath stderrPath).2.dirs.lookup (.job other) = o.dirs.lookup (.job other) := by
  have hother : DirName.job other ≠ .job jobId := fun h => hne (DirName.job.inj h)
  unfold deleteJob
  split
  · rfl
  · cases fault with
    | before => rfl
    | none | after => exact lookup_removed_ne hother
    | torn done => exact lookup_removed_take hother done

/-- A `delete_job` of the paths of a job, of which nothing goes wrong, removes its directory. -/
theorem deleteJob_returns (cfg : OutputConfig) (o : Output) (jobId : Uuid) :
    (o.deleteJob cfg .none jobId (some (jobPaths cfg jobId).1) (some (jobPaths cfg jobId).2)).1 = .ok () ∧
      (o.deleteJob cfg .none jobId (some (jobPaths cfg jobId).1) (some (jobPaths cfg jobId).2)).2.dirs.lookup (.job jobId) = none := by
  have hinside : (!(pathInside cfg jobId (some (jobPaths cfg jobId).1) && pathInside cfg jobId (some (jobPaths cfg jobId).2))) = false := by
    simp [pathInside, jobPaths]
  unfold deleteJob
  rw [hinside]
  exact ⟨rfl, lookup_removed rfl⟩

/-! ## Reconciliation -/

/-- `reconcile` removes what is left over, and leaves the rest. -/
theorem lookup_reconcile (referenced : List Uuid) (o : Output) (d : DirName) :
    (o.reconcile referenced).2.dirs.lookup d = if leftover referenced d then none else o.dirs.lookup d := by
  change (Files.run o.dirs ((o.dirs.keys.filter (leftover referenced)).flatMap fun d => removeEffects d o.dirs)).lookup d = _
  have hkeys : o.dirs.keys.Nodup := o.dirs.nodupKeys
  rw [lookup_removals (hkeys.filter _) fun _ _ => rfl]
  cases hleftover : leftover referenced d with
  | false => simp [hleftover]
  | true =>
    by_cases hd : d ∈ o.dirs.keys
    · simp [hleftover, hd]
    · rw [if_neg (by simp [hd]), if_pos rfl]
      exact AList.lookup_eq_none.2 hd

/-- However far `reconcile` gets, it leaves a directory that is not left over. -/
theorem lookup_tornReconcile {referenced : List Uuid} (h : leftover referenced d = false) (done : Nat) :
    (o.tornReconcile referenced done).dirs.lookup d = o.dirs.lookup d := by
  refine Files.lookup_run_take (fun e he hnames => ?_) done
  obtain ⟨d', hd', he⟩ := List.mem_flatMap.1 he
  rw [names_removeEffects he, List.mem_singleton] at hnames
  subst hnames
  simp [h] at hd'

end Output

end SharkRail
