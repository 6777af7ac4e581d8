import SharkRail.Lemmas.Output
import SharkRail.Theorems.OutputQuota

/-!
# The output store as the service sees it

The service runs over an output store whose methods are lists of effects (`Output`); the store itself makes one system call after the other
(`OutputFiles`). The two agree on a job when its directory holds the same streams in both. A `write_job` or a `delete_job` of the calls is
then one of the effects, as long as no call fails that leaves something half done: it returns where the other one returns, and where a call
fails, the other one fails before its first effect (`writeJob_agrees`, `deleteJob_agrees`).
-/

namespace SharkRail

namespace OutputFiles

open Effectful Output

/-! ## The names of the job directories -/

/-- The name of the directory of a job. -/
def jobName (jobId : Uuid) : Name := String.ofList (idText "job_" jobId)

/-- The digits that are put before a text are hexadecimal. -/
theorem mem_hexBefore {c : Char} (width n : ℕ) {text : List Char} (h : c ∈ Uuid.hexBefore width n text) :
    isHexDigit c = true ∨ c ∈ text := by
  induction width generalizing n text with
  | zero => exact .inr h
  | succ width ih =>
    have hdigits : ∀ k < 16, isHexDigit (Uuid.hexDigit k) = true := by decide
    rcases ih (n / 16) h with hdigit | hmem
    · exact .inl hdigit
    · rcases List.mem_cons.1 hmem with rfl | hmem
      · exact .inl (hdigits _ (Nat.mod_lt _ (by decide)))
      · exact .inr hmem

/-- Two numbers with the same digits are the same, when they have no more than these digits. -/
theorem hexBefore_inj {width n m : ℕ} {text text' : List Char} (hn : n < 16 ^ width) (hm : m < 16 ^ width)
    (h : Uuid.hexBefore width n text = Uuid.hexBefore width m text') : n = m ∧ text = text' := by
  induction width generalizing n m text text' with
  | zero =>
    rw [Nat.pow_zero, Nat.lt_one_iff] at hn hm
    exact ⟨hn.trans hm.symm, h⟩
  | succ width ih =>
    rw [Nat.pow_succ] at hn hm
    have hdigits : ∀ k < 16, ∀ l < 16, Uuid.hexDigit k = Uuid.hexDigit l → k = l := by decide
    obtain ⟨hquotient, htext⟩ := ih (Nat.div_lt_of_lt_mul (by omega)) (Nat.div_lt_of_lt_mul (by omega)) h
    injection htext with hdigit htext
    have hremainder := hdigits _ (Nat.mod_lt _ (by decide)) _ (Nat.mod_lt _ (by decide)) hdigit
    refine ⟨?_, htext⟩
    rw [← Nat.div_add_mod n 16, ← Nat.div_add_mod m 16, hquotient, hremainder]

/-- Two jobs have two directories. -/
theorem jobName_inj {jobId other : Uuid} (hjob : jobId < 16 ^ 32) (hother : other < 16 ^ 32) (h : jobName jobId = jobName other) :
    jobId = other := by
  have hhex : jobId.hex = other.hex := by simpa [jobName, idText] using congrArg String.toList h
  exact (hexBefore_inj hjob hother hhex).1

/-- The name of a job directory has no separator. -/
theorem not_mem_jobName (jobId : Uuid) : '/' ∉ (jobName jobId).toList := by
  intro h
  simp only [jobName, idText, String.toList_ofList, List.mem_append] at h
  rcases h with h | h
  · exact absurd h (by decide)
  · rcases mem_hexBefore 32 jobId h with h | h
    · exact absurd h (by decide)
    · cases h

/-- The name of a job directory is the name of an entry. -/
theorem isName_jobName (jobId : Uuid) : isName (jobName jobId) = true := by
  have htext : (jobName jobId).toList = 'j' :: ("ob_".toList ++ jobId.hex) := by simp [jobName, idText]
  have hsplit : (jobName jobId).toList.splitOn '/' = [(jobName jobId).toList] :=
    List.splitOn_eq_singleton_of_beq_eq_false fun c hc =>
      beq_eq_false_iff_ne.2 fun heq => not_mem_jobName jobId (heq ▸ hc)
  have hparts : pathParts (jobName jobId).toList = [(jobName jobId).toList] := by
    rw [pathParts, hsplit, htext]
    rfl
  have hempty : jobName jobId ≠ "" := fun h => by simp [h] at htext
  simp [isName, pathName, hparts, hempty]

theorem jobName_ne_parent (jobId : Uuid) : jobName jobId ≠ ".." := by
  intro h
  have htext := congrArg String.toList h
  simp [jobName, idText] at htext

/-- No job directory has the name of a staging directory. -/
theorem jobName_ne_stagingName (jobId : Uuid) (name token : String) : jobName jobId ≠ stagingName name token := by
  intro h
  have htext := congrArg String.toList h
  simp [jobName, idText, stagingName] at htext

/-- The path of a stream ends with the name of its file. -/
theorem pathName_targetPath (host : Host) (name : Name) (stream : Stream) : pathName (targetPath host name stream) = binName stream := by
  have htext : (targetPath host name stream).toList = (host.root ++ "/" ++ name).toList ++ '/' :: (binName stream).toList := by
    simp [targetPath]
  have hbin : pathParts (binName stream).toList = [(binName stream).toList] := by cases stream <;> decide
  have hparts : pathParts (targetPath host name stream).toList =
      pathParts (host.root ++ "/" ++ name).toList ++ [(binName stream).toList] := by
    rw [← hbin, htext]
    simp only [pathParts, List.splitOn_eq_splitOnP]
    rw [List.splitOnP_append_cons _ _ (by simp), List.filter_append]
  simp [pathName, hparts]

/-! ## One job in both stores -/

variable {host : Host} {cfg : OutputConfig} {s s' : FileStore} {o : Output} {jobId : Uuid} {stdout stderr : Bytes}

/-- A directory of the one store holds the files of a directory of the other one. -/
structure SameFiles (files : OutputDir) (d : Directory) : Prop where
  plain : Plain d
  streams : ∀ stream, d.entries.lookup (binName stream) = (files.lookup (.bin stream)).map Entry.file
  size : (d.size : Int) = directorySize (some files)

/-- A job has no directory in both stores, or directories with the same files. -/
def SameEntry : Option OutputDir → Option Child → Prop
  | none, none => True
  | some files, some (.dir d) => SameFiles files d
  | _, _ => False

theorem SameEntry.jobEntry {files : Option OutputDir} {c : Option Child} (h : SameEntry files c) : JobEntry c := by
  match files, c, h with
  | none, none, _ => exact .inl rfl
  | some _, some (.dir d), h => exact .inr ⟨d, rfl, h.plain⟩

/-- Both stores count the bytes of a job alike. -/
theorem SameEntry.bytes {files : Option OutputDir} {c : Option Child} (h : SameEntry files c) : directorySize files = childBytes c := by
  match files, c, h with
  | none, none, _ => rfl
  | some _, some (.dir d), h => exact h.size.symm

/-- An entry with the files that it had is still the same in both stores. -/
theorem SameEntry.asBefore {files : Option OutputDir} {c c' : Option Child} (h : SameEntry files c) (hbefore : AsBefore c c') :
    SameEntry files c' ∧ childBytes c' = childBytes c := by
  match files, c, c', h, hbefore with
  | none, none, none, _, _ => exact ⟨trivial, rfl⟩
  | some files, some (.dir d), some (.dir d'), h, ⟨hprivate, hperm⟩ =>
    have hsize : d'.size = d.size := (hperm.map fun e : Sigma fun _ : Name => Entry => e.2.size).sum_eq.symm
    refine ⟨⟨⟨hprivate ▸ h.plain.isPrivate, fun e he => h.plain.files e (hperm.mem_iff.2 he)⟩, fun stream => ?_, ?_⟩, hsize⟩
    · rw [← AList.perm_lookup hperm]
      exact h.streams stream
    · rw [hsize]
      exact h.size

/-- What the host has to be for the service to use the store: the quota is that of the service, no entry of the root is shared by the
system, and the paths that the store returned lead to the directories of their jobs. -/
structure Serves (host : Host) (cfg : OutputConfig) : Prop where
  root : cfg.root = host.root
  quota : cfg.maxTotalBytes = host.maxTotalBytes
  unshared : ∀ name, host.shared (.child name) = false
  parentOf : ∀ (t : Tree) (jobId : Uuid) (stream : Stream), JobEntry (t.children.lookup (jobName jobId)) →
    host.parentOf t (targetPath host (jobName jobId) stream) = some (jobName jobId)

/-- Both stores have the same output of every job, and account for it alike. -/
structure Agrees (s : FileStore) (o : Output) : Prop where
  accounted : Accounted s
  used : o.usedBytes = s.usedBytes
  jobs : ∀ jobId < 16 ^ 32, SameEntry (o.dirs.lookup (.job jobId)) (s.child (jobName jobId))
  fresh : ∀ jobId token, o.tokens ≤ token → o.dirs.lookup (.staging jobId token) = none

/-- The path of a stream is the same in both stores. -/
theorem targetPath_jobName (h : Serves host cfg) (jobId : Uuid) (stream : Stream) :
    targetPath host (jobName jobId) stream = outputPath cfg jobId stream := by
  simp [targetPath, outputPath, jobName, binName, h.root, String.append_assoc]

/-! ## `write_job` -/

/-- The two streams of a directory that was staged. -/
def stagedFiles (stdout stderr : Bytes) : OutputDir := (AList.insert (.bin .stdout) stdout ∅).insert (.bin .stderr) stderr

/-- The directory of the job after the effects of `write_job` holds both streams, and nothing else. -/
theorem lookup_writeEffects (o : Output) (jobId : Uuid) (stdout stderr : Bytes)
    (hfresh : o.dirs.lookup (.staging jobId o.tokens) = none) :
    (Files.run o.dirs (writeEffects jobId stdout stderr o)).lookup (.job jobId) = some (stagedFiles stdout stderr) := by
  let staging := DirName.staging jobId o.tokens
  let made := Files.apply o.dirs (.mkdir staging)
  let staged := Files.run made (stageEffects staging .stdout stdout ++ stageEffects staging .stderr stderr)
  let freed := Files.run staged (removeEffects (.job jobId) o.dirs)
  have heffects : Files.run o.dirs (writeEffects jobId stdout stderr o) = Files.apply freed (.replaceDir staging (.job jobId)) := by
    simp only [writeEffects, List.cons_append, Files.run_cons, Files.run_append, Files.run_nil, freed, staged, made, staging]
  have hmade : made.lookup staging = some ∅ := by
    simp only [made, Files.apply, hfresh, staging]
    exact AList.lookup_insert _
  have hstaged : staged.lookup staging = some (stagedFiles stdout stderr) := by
    simp only [staged, stageEffects, List.cons_append, List.nil_append, Files.run_cons, Files.run_nil, Files.apply, Files.lookup_onFiles,
      hmade, Option.map_some]
    rfl
  have hjob : staged.lookup (.job jobId) = o.dirs.lookup (.job jobId) := by
    have hmkdir : made.lookup (.job jobId) = o.dirs.lookup (.job jobId) := Files.lookup_apply (by simp [Files.Effect.names, staging])
    refine (Files.lookup_run fun e he => ?_).trans hmkdir
    rcases List.mem_append.1 he with he | he <;> simp [names_stageEffects he, staging]
  rw [heffects, Files.lookup_replaceDir (lookup_removed hjob), lookup_removed_ne (by simp), hstaged]

/-- The effects of `write_job` leave every directory but that of the job and the one that is staged. -/
theorem lookup_writeEffects_ne {d : DirName} (hjob : d ≠ .job jobId) (hstaging : d ≠ .staging jobId o.tokens) :
    (Files.run o.dirs (writeEffects jobId stdout stderr o)).lookup d = o.dirs.lookup d :=
  Files.lookup_run fun _ he hmem => (names_writeEffects he d hmem).elim hjob hstaging

/-- What is published is what was staged. -/
theorem sameFiles_published (stdout stderr : Bytes) : SameFiles (stagedFiles stdout stderr) (published stdout stderr) where
  plain := plain_published stdout stderr
  streams stream := by cases stream <;> rfl
  size := by
    rw [published_size]
    simp [directorySize, stagedFiles]
    omega

/-- A change of the output of one job, in both stores. -/
theorem Agrees.changed (h : Agrees s o) {o' : Output} (haccounted : Accounted s')
    (hused : o'.usedBytes = s'.usedBytes) (hentry : SameEntry (o'.dirs.lookup (.job jobId)) (s'.child (jobName jobId)))
    (hchildren : ∀ other < 16 ^ 32, other ≠ jobId → s'.child (jobName other) = s.child (jobName other))
    (hdirs : ∀ other, other ≠ jobId → o'.dirs.lookup (.job other) = o.dirs.lookup (.job other))
    (hfresh : ∀ jobId token, o'.tokens ≤ token → o'.dirs.lookup (.staging jobId token) = none) : Agrees s' o' where
  accounted := haccounted
  used := hused
  jobs other hother := by
    by_cases hsame : other = jobId
    · exact hsame ▸ hentry
    · rw [hdirs other hsame, hchildren other hother hsame]
      exact h.jobs other hother
  fresh := hfresh

/-- A `write_job` that returns, returns the paths of its streams. -/
theorem post_writeJob_paths (host : Host) (fails : WriteJobCall → Bool) (draws : Draws) (jobId : Uuid) (stdout stderr : Bytes)
    (s : FileStore) :
    Post (writeJob host fails draws (jobName jobId) stdout stderr) s
      (fun paths _ => paths = (targetPath host (jobName jobId) .stdout, targetPath host (jobName jobId) .stderr)) fun _ _ => True := by
  have hany {α : Type} (x : Op α) (s : FileStore) : Post x s (fun _ _ => True) fun _ _ => True := by
    unfold Post
    cases x s <;> trivial
  simp only [writeJob, isName_jobName, Bool.not_true, Bool.false_eq_true, if_false, post_bind]
  refine (hany _ s).mono (fun _ s₁ _ => ?_) fun _ _ _ => trivial
  exact (hany _ s₁).mono (fun _ s₂ _ => by simp) fun _ _ _ => trivial

section WriteJob

variable {token : String} {cj : Option Child}

/-- The other jobs keep their output when the one of a job and its staging directory change. -/
theorem child_of_pair (hjob : jobId < 16 ^ 32) (hpair : Pair (jobName jobId) (stagingName (jobName jobId) token) cj none s.tree s'.tree)
    {other : Uuid} (hother : other < 16 ^ 32) (hne : other ≠ jobId) : s'.child (jobName other) = s.child (jobName other) :=
  hpair.others _ (fun hsame => hne (jobName_inj hother hjob hsame)) (jobName_ne_stagingName _ _ _)

/-- The root has the bytes of the new output of the job in the place of those of the old one. -/
theorem size_of_pair (hfresh : s.child (stagingName (jobName jobId) token) = none)
    (hpair : Pair (jobName jobId) (stagingName (jobName jobId) token) cj none s.tree s'.tree) :
    s'.tree.size + childBytes (s.child (jobName jobId)) = s.tree.size + childBytes cj := by
  have hsize := hpair.size
  change s'.tree.size + _ + childBytes (s.child (stagingName (jobName jobId) token)) = _ at hsize
  rw [hfresh] at hsize
  exact hsize

/-- The bytes fit into the quota of the one store when they fit into that of the other one. -/
theorem Agrees.refuses_iff (hhost : Serves host cfg) (h : Agrees s o) (hjob : jobId < 16 ^ 32) (stdout stderr : Bytes) :
    o.usedBytes - directorySize (o.dirs.lookup (.job jobId)) + stdout.length + stderr.length > cfg.maxTotalBytes ↔
      ¬Fits host s (childBytes (s.child (jobName jobId))) (stdout.length + stderr.length) := by
  rw [(h.jobs jobId hjob).bytes, h.used, hhost.quota, Fits]
  push_cast
  omega

/-- After the streams were published in both stores. -/
theorem Agrees.written (h : Agrees s o) (hjob : jobId < 16 ^ 32) (hfresh : s.child (stagingName (jobName jobId) token) = none)
    (hpair : Pair (jobName jobId) (stagingName (jobName jobId) token) (some (.dir (published stdout stderr))) none s.tree s'.tree)
    (hused : s'.usedBytes = s.usedBytes - childBytes (s.child (jobName jobId)) + (stdout.length + stderr.length)) :
    Agrees s' { o with
      tokens := o.tokens + 1
      dirs := Files.run o.dirs (writeEffects jobId stdout stderr o)
      usedBytes := o.usedBytes - directorySize (o.dirs.lookup (.job jobId)) + stdout.length + stderr.length } := by
  have hbytes := (h.jobs jobId hjob).bytes
  have haccount : s'.usedBytes = s'.tree.size := by
    have hsize := size_of_pair hfresh hpair
    have hpublished : childBytes (some (.dir (published stdout stderr))) = stdout.length + stderr.length :=
      published_size stdout stderr
    have hold := h.accounted.used
    omega
  have hothers : ∀ other, other ≠ jobId →
      (Files.run o.dirs (writeEffects jobId stdout stderr o)).lookup (.job other) = o.dirs.lookup (.job other) := fun other hne =>
    lookup_writeEffects_ne (fun hsame => hne (DirName.job.inj hsame)) (by simp)
  refine h.changed ⟨hpair.wellFormed h.accounted.wellFormed (.inr ⟨_, rfl, plain_published _ _⟩) (.inl rfl), haccount⟩ ?_ ?_
    (fun other => child_of_pair hjob hpair) ?_ fun other token htoken => ?_
  · dsimp only
    rw [hused, hbytes, h.used]
    omega
  · rw [FileStore.child, hpair.first]
    dsimp only
    rw [lookup_writeEffects o jobId stdout stderr (h.fresh jobId o.tokens le_rfl)]
    exact sameFiles_published stdout stderr
  · dsimp only
    exact hothers
  · dsimp only at htoken ⊢
    rw [lookup_writeEffects_ne (by simp) fun hsame => by have := (DirName.staging.inj hsame).2; omega]
    exact h.fresh other token (by omega)

/-- After a call that left the output as it was. -/
theorem Agrees.unwritten (h : Agrees s o) (hjob : jobId < 16 ^ 32) (hfresh : s.child (stagingName (jobName jobId) token) = none)
    (hpair : Pair (jobName jobId) (stagingName (jobName jobId) token) cj none s.tree s'.tree)
    (hbefore : AsBefore (s.child (jobName jobId)) cj) (hused : s'.usedBytes = s.usedBytes ∨ s'.usedBytes = s'.tree.size) :
    Agrees s' { o with tokens := o.tokens + 1 } := by
  obtain ⟨hsame, hbytes⟩ := (h.jobs jobId hjob).asBefore hbefore
  have hold := h.accounted.used
  have hsize := size_of_pair hfresh hpair
  refine h.changed ⟨hpair.wellFormed h.accounted.wellFormed hsame.jobEntry (.inl rfl), by omega⟩ ?_ ?_
    (fun other => child_of_pair hjob hpair) (fun _ _ => rfl) fun other token htoken => h.fresh other token ?_
  · have hused' := h.used
    dsimp only
    omega
  · rw [FileStore.child, hpair.first]
    exact hsame
  · exact le_trans (Nat.le_succ _) htoken

/-- A `write_job` of the calls, of which none fails that leaves something half done, is one of the effects: where it raises, the other one
refuses the bytes as well, or fails before its first effect. -/
theorem writeJob_agrees (hhost : Serves host cfg) (h : Agrees s o) (hjob : jobId < 16 ^ 32) (draws : Draws) (stdout stderr : Bytes)
    (haccepts : host.accepts (stagingName (jobName jobId) draws.staging) = true)
    (hfresh : s.child (stagingName (jobName jobId) draws.staging) = none) {fails : WriteJobCall → Bool} (hone : AtMostOne fails)
    (hspared : ∀ c, fails c = true → ¬Exposed (s.child (jobName jobId)) (published stdout stderr) c) :
    Post (writeJob host fails draws (jobName jobId) stdout stderr) s
      (fun paths s' => (o.writeJob cfg .none jobId stdout stderr).1 = .ok paths ∧ Agrees s' (o.writeJob cfg .none jobId stdout stderr).2)
      fun _ s' => ∃ fault, (fault = .none ∨ ∃ c, fails c = true) ∧ (o.writeJob cfg fault jobId stdout stderr).1.isOk = false ∧
        Agrees s' (o.writeJob cfg fault jobId stdout stderr).2 := by
  have hrefuses := h.refuses_iff hhost hjob stdout stderr
  refine ((post_writeJob host draws stdout stderr (isName_jobName jobId) (jobName_ne_parent jobId) (h.jobs jobId hjob).jobEntry hfresh
    hone).and (post_writeJob_paths host fails draws jobId stdout stderr s)).mono ?_ ?_
  · rintro _ s' ⟨⟨hpair, hused, hfits, -⟩, rfl⟩
    have hroom := fun hrefused => hrefuses.1 hrefused hfits
    unfold Output.writeJob
    dsimp only
    rw [if_neg hroom]
    refine ⟨?_, h.written hjob hfresh hpair hused⟩
    rw [targetPath_jobName hhost, targetPath_jobName hhost]
    rfl
  · rintro e s' ⟨⟨cj, cg, hraised⟩, -⟩
    obtain ⟨hbefore, rfl, hcause⟩ | ⟨-, -, c, hfails, hexposed⟩ := hraised.cause
    · have hagrees := h.unwritten hjob hfresh hraised.pair hbefore (hraised.used.imp_left And.left)
      by_cases hfits : Fits host s (childBytes (s.child (jobName jobId))) (stdout.length + stderr.length)
      · -- the quota lets the bytes through, and no other check of a host that serves refuses them: a call has failed
        have hfailed : ∃ c, fails c = true := by
          obtain (⟨-, hshared⟩ | hunfit | hshared | hrejects) | ⟨c, hfails, -⟩ := hcause
          · rw [hhost.unshared] at hshared
            cases hshared
          · exact absurd hfits hunfit
          · rw [hhost.unshared] at hshared
            cases hshared
          · rw [haccepts] at hrejects
            cases hrejects
          · exact ⟨c, hfails⟩
        refine ⟨.before .cancelledError, .inr hfailed, ?_⟩
        unfold Output.writeJob
        dsimp only
        rw [if_neg fun hrefused => hrefuses.1 hrefused hfits]
        exact ⟨rfl, hagrees⟩
      · refine ⟨.none, .inl rfl, ?_⟩
        unfold Output.writeJob
        dsimp only
        rw [if_pos (hrefuses.2 hfits)]
        exact ⟨rfl, hagrees⟩
    · exact absurd hexposed (hspared c hfails)

end WriteJob

/-! ## `delete_job` -/

/-- The paths that the service deletes do not escape. -/
theorem not_pathEscapes (hhost : Serves host cfg) (hentry : JobEntry (s.child (jobName jobId))) {path : Option String}
    (hinside : pathInside cfg jobId path = true) : pathEscapes host s.tree (jobName jobId) path = false := by
  cases path with
  | none => rfl
  | some p =>
    obtain ⟨stream, rfl⟩ : ∃ stream, p = targetPath host (jobName jobId) stream := by
      rcases of_decide_eq_true hinside with rfl | rfl
      · exact ⟨.stdout, (targetPath_jobName hhost jobId .stdout).symm⟩
      · exact ⟨.stderr, (targetPath_jobName hhost jobId .stderr).symm⟩
    have hname : ¬binName stream = "stdout.bin" → binName stream = "stderr.bin" := by cases stream <;> decide
    simpa [pathEscapes, pathName_targetPath, hhost.parentOf s.tree jobId stream hentry] using hname

/-- A removal of the directory of a job that no failure leaves half done: it is gone, with the bytes that it had, or as it was. -/
theorem post_removeJob {files : Option OutputDir} {c : Option Child} (hentry : SameEntry files c) {name : Name} (hchild : s.child name = c)
    {fails : RemoveCall → Bool} (hthere : fails .lexists = false)
    (hspared : ∀ d, c = some (.dir d) → ∀ call, fails call = true → removalLate d call = false) :
    Post (removeJobDirectory host fails (.child name) true) s
      (fun removed s' => removed = childBytes c ∧ Sets name none s s')
      fun _ s' => Sets name c s s' := by
  obtain rfl | ⟨d, rfl, hd⟩ := hentry.jobEntry
  · refine (post_removeJobDirectory_absent fails hchild).mono ?_ fun _ _ => False.elim
    rintro _ s' ⟨rfl, rfl⟩
    exact ⟨rfl, .refl hchild⟩
  · refine (post_removeJobDirectory fails true hchild hd).mono ?_ ?_
    · rintro _ s' (⟨rfl, hset, -⟩ | ⟨-, hfails, -⟩)
      · exact ⟨rfl, hset⟩
      · rw [hthere] at hfails
        cases hfails
    · rintro e s' (⟨hset, -⟩ | ⟨-, -, -, -, -, call, hfails, hlate⟩)
      · exact hset
      · rw [hspared d rfl call hfails] at hlate
        cases hlate

/-- A `delete_job` of the calls, of which none fails that leaves something half done, is one of the effects: where it raises, the other one
fails before its first effect. -/
theorem deleteJob_agrees (hhost : Serves host cfg) (h : Agrees s o) (hjob : jobId < 16 ^ 32) {stdoutPath stderrPath : Option String}
    (hstdout : pathInside cfg jobId stdoutPath = true) (hstderr : pathInside cfg jobId stderrPath = true)
    {fails : DeleteJobCall → Bool} (hthere : fails (.remove .lexists) = false)
    (hspared : ∀ d, s.child (jobName jobId) = some (.dir d) → ∀ call, fails (.remove call) = true → removalLate d call = false) :
    Post (deleteJob host fails (jobName jobId) stdoutPath stderrPath) s
      (fun _ s' => (o.deleteJob cfg .none jobId stdoutPath stderrPath).1 = .ok () ∧
        Agrees s' (o.deleteJob cfg .none jobId stdoutPath stderrPath).2)
      fun _ s' => ∀ e, (o.deleteJob cfg (.before e) jobId stdoutPath stderrPath).1 = .error e ∧
        Agrees s' (o.deleteJob cfg (.before e) jobId stdoutPath stderrPath).2 := by
  have hentry := h.jobs jobId hjob
  have hresolve : s.tree.resolve (.child (jobName jobId)) = some (jobName jobId) := by
    obtain hnone | ⟨d, hdir, -⟩ := hentry.jobEntry
    · simp only [FileStore.child] at hnone
      simp [Tree.resolve, hnone]
    · simp only [FileStore.child] at hdir
      simp [Tree.resolve, hdir]
  simp only [deleteJob, isName_jobName, Bool.not_true, Bool.false_eq_true, if_false, place_child (jobName_ne_parent jobId), post_bind,
    post_get, hresolve, not_pathEscapes hhost hentry.jobEntry hstdout, not_pathEscapes hhost hentry.jobEntry hstderr, Bool.or_self]
  have hothers {c : Option Child} {s₁ : FileStore} (hset : Sets (jobName jobId) c s s₁) :
      ∀ other < 16 ^ 32, other ≠ jobId → s₁.child (jobName other) = s.child (jobName other) := fun other hother hne =>
    hset.others _ fun hsame => hne (jobName_inj hother hjob hsame)
  have hused := h.accounted.used
  simp only [Output.deleteJob, hstdout, hstderr, Bool.and_self, Bool.not_true, Bool.false_eq_true, if_false]
  rw [post_tryCatch, post_bind]
  refine (post_removeJob hentry rfl hthere hspared).mono ?_ ?_
  · rintro _ s₁ ⟨rfl, hset⟩
    have hkept := hothers hset
    have hdirs : ∀ other, other ≠ jobId →
        (Files.run o.dirs (removeEffects (.job jobId) o.dirs)).lookup (.job other) = o.dirs.lookup (.job other) := fun other hne =>
      lookup_removed_ne fun hsame => hne (DirName.job.inj hsame)
    rw [post_modify]
    refine ⟨trivial, h.changed ⟨hset.wellFormed h.accounted.wellFormed (by simp), ?_⟩ ?_ ?_ hkept hdirs fun other token htoken => ?_⟩
    · have hsize := hset.size
      dsimp only
      rw [hset.used, hused]
      simp only [childBytes, Option.elim_none] at hsize ⊢
      omega
    · dsimp only
      rw [hset.used, hentry.bytes, h.used]
    · dsimp only
      rw [hset.child, lookup_removed rfl]
      trivial
    · exact (lookup_removed_ne DirName.noConfusion).trans (h.fresh other token htoken)
  · intro e s₁ hset
    have hkept := hothers hset
    refine (post_rescan_throw (fails .rescan) e).mono (fun _ _ => False.elim) ?_
    rintro _ s₂ ⟨htree, hrescanned⟩ x
    have hsize := hset.size
    have hused₂ : s₂.usedBytes = s₂.tree.size := by
      rcases hrescanned with ⟨-, hunchanged⟩ | hscanned
      · rw [hunchanged, hset.used, htree]
        omega
      · exact hscanned
    have hchild (name : Name) : s₂.child name = s₁.child name := by rw [FileStore.child, htree]
    refine ⟨trivial, h.changed ⟨?_, hused₂⟩ ?_ ?_ (fun other hother hne => (hchild _).trans (hkept other hother hne))
      (fun _ _ => rfl) h.fresh⟩
    · rw [htree]
      exact hset.wellFormed h.accounted.wellFormed hentry.jobEntry.plain
    · rw [hused₂, htree, h.used]
      omega
    · rw [hchild, hset.child]
      exact hentry

end OutputFiles

end SharkRail
