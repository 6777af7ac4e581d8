import SharkRail.Lemmas.OutputFiles

/-!
# What `write_job` does to the tree

The entry of the job and the staging entry are the only ones that `write_job` works on: `Pair` follows the two together. Its calls are
exposed when one of them, failing alone, leaves the job's directory changed or the staging directory behind: those that secure the fresh
staging directory, those of the removal once a file is gone, the final rename once the old directory is gone, and the sync after it.
-/

namespace SharkRail

namespace OutputFiles

open Effectful

/-! ## Names -/

/-- The name of a staging directory is not that of its job. -/
theorem stagingName_ne (jobId token : String) : stagingName jobId token ≠ jobId := by
  intro h
  have hlength := congrArg (fun text => text.toList.length) h
  simp [stagingName] at hlength
  omega

/-- A job id is no longer than its staging name. -/
theorem accepts_of_stagingName {host : Host} {jobId token : String} (h : host.accepts (stagingName jobId token) = true) :
    host.accepts jobId = true := by
  simp only [Host.accepts, stagingName, String.toList_append, List.contains_eq_mem, String.utf8ByteSize_append, Bool.and_eq_true,
    Bool.not_eq_true', decide_eq_false_iff_not, decide_eq_true_eq, List.mem_append, not_or] at h ⊢
  exact ⟨h.1.1.1.1.2, by omega⟩

/-- The place of a job is a child of the root, unless its name is that of the parent. -/
theorem place_child {jobId : String} (h : jobId ≠ "..") : place jobId = .child jobId := if_neg h

/-! ## Two entries of the root -/

/-- The entries `j` and `g` of the root became `cj` and `cg`, and nothing else of the tree changed. -/
structure Pair (j g : Name) (cj cg : Option Child) (t t' : Tree) : Prop where
  first : t'.children.lookup j = cj
  second : t'.children.lookup g = cg
  others : ∀ m, m ≠ j → m ≠ g → t'.children.lookup m = t.children.lookup m
  parent : t'.parent = t.parent
  outside : t'.outside = t.outside
  size : t'.size + childBytes (t.children.lookup j) + childBytes (t.children.lookup g) = t.size + childBytes cj + childBytes cg

variable {j g : Name} {cj cg c : Option Child} {t : Tree} {s s' : FileStore}

/-- Nothing of the two children changes. -/
theorem Pair.refl (hj : t.children.lookup j = cj) (hg : t.children.lookup g = cg) : Pair j g cj cg t t :=
  ⟨hj, hg, fun _ _ _ => rfl, rfl, rfl, by rw [hj, hg]⟩

/-- The first child is changed and the second one stays. -/
theorem Pair.setFirst (h : Pair j g cj cg t s.tree) (hjg : j ≠ g) (hset : Sets j c s s') : Pair j g c cg t s'.tree := by
  refine ⟨hset.child, (hset.others g hjg.symm).trans h.second, fun m hj hg => (hset.others m hj).trans (h.others m hj hg),
    hset.parent.trans h.parent, hset.outside.trans h.outside, ?_⟩
  have hsize := h.size
  have hsize' := hset.size
  rw [FileStore.child, h.first] at hsize'
  omega

/-- The second child is changed and the first one stays. -/
theorem Pair.setSecond (h : Pair j g cj cg t s.tree) (hjg : j ≠ g) (hset : Sets g c s s') : Pair j g cj c t s'.tree := by
  refine ⟨(hset.others j hjg).trans h.first, hset.child, fun m hj hg => (hset.others m hg).trans (h.others m hj hg),
    hset.parent.trans h.parent, hset.outside.trans h.outside, ?_⟩
  have hsize := h.size
  have hsize' := hset.size
  rw [FileStore.child, h.second] at hsize'
  omega

/-! ## What a call exposes -/

/-- Two directories have the same files with the same bytes. -/
def Directory.Same (d d' : Directory) : Prop := d.isPrivate = d'.isPrivate ∧ d.entries.entries.Perm d'.entries.entries

/-- An entry is absent as it was, or a directory with the files that it had. -/
def AsBefore : Option Child → Option Child → Prop
  | none, none => True
  | some (.dir d), some (.dir d') => d.Same d'
  | _, _ => False

/-- The directory that holds exactly the two streams. -/
def published (stdout stderr : Bytes) : Directory :=
  ⟨true, (AList.insert (binName .stdout) (.file stdout) ∅).insert (binName .stderr) (.file stderr)⟩

/-- The calls of `write_job` that leave something changed when they fail, by what the job had and gets. -/
def Exposed (old : Option Child) (new : Directory) : WriteJobCall → Prop
  | .ensureStaging c => c = .open ∨ c = .fchmod ∨ c = .close
  | .remove c => ∃ d, old = some (.dir d) ∧ removalLate d c = true
  | .replace => old.isSome = true
  | .syncRoot _ => ¬AsBefore old (some (.dir new))
  | .lexists | .ensureTarget _ | .size _ | .stage _ _ | .syncStaging _ | .exists | .cleanup _ | .rescan => False

/-- What makes `write_job` refuse before it creates anything, when no call fails. -/
def Refused (host : Host) (s : FileStore) (j g : Name) (new : ℕ) : Prop :=
  (s.child j).isSome = true ∧ host.shared (.child j) = true ∨ ¬Fits host s (childBytes (s.child j)) new ∨
    host.shared (.child g) = true ∨ host.accepts g = false

/-- Less to replace leaves no more room. -/
theorem Fits.mono {host : Host} {existing existing' new : ℕ} (h : Fits host s existing new) (hle : existing ≤ existing') :
    Fits host s existing' new := by
  simp only [Fits] at h ⊢
  omega

section Parts

variable {host : Host} {fails : WriteJobCall → Bool} {stdout stderr : Bytes}

/-- The entry of a job: absent, or a private directory of regular files. -/
def JobEntry (c : Option Child) : Prop := c = none ∨ ∃ d, c = some (.dir d) ∧ Plain d

/-- What stands at a name of a well-formed tree is an entry of a job. -/
theorem WellFormed.jobEntry (h : WellFormed s.tree) (n : Name) : JobEntry (s.child n) := by
  cases hchild : s.child n with
  | none => exact .inl rfl
  | some c =>
    obtain ⟨d, rfl, hd⟩ := h n c hchild
    exact .inr ⟨d, rfl, hd⟩

/-- The check of the entry that is there. -/
theorem post_checkTarget (fails : EnsureCall → Bool) (hold : JobEntry (s.child j)) (hsome : (s.tree.kind (.child j)).isSome = true) :
    Post (ensurePrivateDirectory host fails (.child j)) s
      (fun _ s' => s' = s ∧ host.shared (.child j) = false) fun _ s' =>
        s' = s ∧ ((s.child j).isSome = true ∧ host.shared (.child j) = true ∨ ∃ c, fails c = true) := by
  obtain hnone | ⟨d, hchild, hd⟩ := hold
  · simp [kind_none hnone] at hsome
  · refine (post_ensure_there _ hchild hd.isPrivate).mono (fun _ _ h => h) ?_
    rintro _ s' ⟨rfl, hcause⟩
    exact ⟨rfl, hcause.imp_left fun hshared => ⟨by rw [hchild]; rfl, hshared⟩⟩

/-- The size of what the job has, unless it is taken for absent. -/
theorem post_existingSize (fails : SizeCall → Bool) (hold : JobEntry (s.child j)) :
    Post (directorySizeLocked fails (.child j)) s
      (fun v s' => s' = s ∧ (v = childBytes (s.child j) ∨ fails .lexists = true ∧ v = 0)) fun _ s' => s' = s ∧ ∃ c, fails c = true := by
  obtain hnone | ⟨d, hchild, hd⟩ := hold
  · refine (post_directorySize_absent fails hnone).mono ?_ fun _ _ => False.elim
    rintro v s' ⟨rfl, rfl⟩
    exact ⟨rfl, .inl (by rw [hnone]; rfl)⟩
  · rw [hchild]
    exact post_directorySize fails hchild hd

/-- `write_job` up to the staging directory: it refuses and changes nothing, it leaves the staging directory behind, or it goes on. -/
theorem post_prepare (new : Directory) (hold : JobEntry (s.child j)) (hfresh : s.child g = none) :
    Post (prepare host fails (.child j) (.child g) stdout stderr) s
      (fun _ s' => Sets g (some (.dir ⟨true, ∅⟩)) s s' ∧ host.accepts g = true ∧ host.shared (.child g) = false ∧
        Fits host s (childBytes (s.child j)) (stdout.length + stderr.length) ∧
        (Refused host s j g (stdout.length + stderr.length) → fails .lexists = true) ∧
        ∀ c, Exposed (s.child j) new (.ensureStaging c) → fails (.ensureStaging c) = false)
      fun _ s' =>
        s' = s ∧ (Refused host s j g (stdout.length + stderr.length) ∨ ∃ c, fails c = true ∧ ¬Exposed (s.child j) new c) ∨
        Sets g (some (.dir ⟨true, ∅⟩)) s s' ∧ (Refused host s j g (stdout.length + stderr.length) → fails .lexists = true) ∧
          ∃ c, fails c = true ∧ Exposed (s.child j) new c := by
  have hrest (hshared : (s.child j).isSome = true → host.shared (.child j) = true → fails .lexists = true) :
      Post (do
          let existing ← directorySizeLocked (fun c => fails (.size c)) (.child j)
          checkCapacity host existing (stdout.length + stderr.length)
          let _ ← ensurePrivateDirectory host (fun c => fails (.ensureStaging c)) (.child g)
          pure ()) s
        (fun _ s' => Sets g (some (.dir ⟨true, ∅⟩)) s s' ∧ host.accepts g = true ∧ host.shared (.child g) = false ∧
          Fits host s (childBytes (s.child j)) (stdout.length + stderr.length) ∧
          (Refused host s j g (stdout.length + stderr.length) → fails .lexists = true) ∧
          ∀ c, Exposed (s.child j) new (.ensureStaging c) → fails (.ensureStaging c) = false)
        fun _ s' =>
          s' = s ∧ (Refused host s j g (stdout.length + stderr.length) ∨ ∃ c, fails c = true ∧ ¬Exposed (s.child j) new c) ∨
          Sets g (some (.dir ⟨true, ∅⟩)) s s' ∧ (Refused host s j g (stdout.length + stderr.length) → fails .lexists = true) ∧
            ∃ c, fails c = true ∧ Exposed (s.child j) new c := by
    simp only [post_bind]
    refine (post_existingSize _ hold).mono ?_ ?_
    · rintro v s' ⟨rfl, hv⟩
      refine (post_checkCapacity v _).mono ?_ ?_
      · rintro _ s' ⟨rfl, hfits⟩
        have hfits' : Fits host s' (childBytes (s'.child j)) (stdout.length + stderr.length) := by
          refine hfits.mono ?_
          obtain rfl | ⟨-, rfl⟩ := hv
          · exact Nat.le_refl _
          · exact Nat.zero_le _
        have hrefused (hshared' : host.shared (.child g) = false) (haccepts : host.accepts g = true)
            (h : Refused host s' j g (stdout.length + stderr.length)) : fails .lexists = true := by
          obtain h | h | h | h := h
          · exact hshared h.1 h.2
          · exact absurd hfits' h
          · exact absurd h (by simp [hshared'])
          · exact absurd h (by simp [haccepts])
        refine (post_ensure_new _ hfresh).mono ?_ ?_
        · rintro _ s₁ ⟨hset, hshared', haccepts, hopen, hfchmod, hclose⟩
          refine ⟨hset, haccepts, hshared', hfits', hrefused hshared' haccepts, ?_⟩
          rintro c (rfl | rfl | rfl)
          · exact hopen
          · exact hfchmod
          · exact hclose
        · rintro _ s₁ (⟨rfl, hcause⟩ | ⟨hset, hshared', haccepts, hcause⟩)
          · refine .inl ⟨rfl, ?_⟩
            obtain h | h | h := hcause
            · exact .inl (.inr (.inr (.inl h)))
            · exact .inl (.inr (.inr (.inr h)))
            · exact .inr ⟨_, h, by simp [Exposed]⟩
          · refine .inr ⟨hset, hrefused hshared' haccepts, ?_⟩
            obtain h | h | h := hcause
            · exact ⟨_, h, .inl rfl⟩
            · exact ⟨_, h, .inr (.inl rfl)⟩
            · exact ⟨_, h, .inr (.inr rfl)⟩
      · rintro _ s' ⟨rfl, -, hfits⟩
        refine .inl ⟨rfl, ?_⟩
        obtain rfl | ⟨hlexists, -⟩ := hv
        · exact .inl (.inr (.inl hfits))
        · exact .inr ⟨_, hlexists, not_false⟩
    · rintro _ s' ⟨rfl, c, hfails⟩
      exact .inl ⟨rfl, .inr ⟨_, hfails, not_false⟩⟩
  simp only [prepare, post_bind, post_lexists, post_ite] at hrest ⊢
  refine ⟨fun hseen => ?_, fun hseen => hrest fun hsome _ => ?_⟩
  · refine (post_checkTarget _ hold (by simp_all)).mono ?_ ?_
    · rintro _ s' ⟨rfl, hshared⟩
      exact hrest fun _ h => absurd h (by simp [hshared])
    · rintro _ s' ⟨rfl, hcause⟩
      refine .inl ⟨rfl, ?_⟩
      obtain h | ⟨c, hfails⟩ := hcause
      · exact .inl (.inl h)
      · exact .inr ⟨_, hfails, not_false⟩
  · obtain hnone | ⟨d, hchild, -⟩ := hold
    · simp [hnone] at hsome
    · simpa [kind_dir hchild] using hseen

/-- The calls of the cleanup, which are made after an exception only. -/
def WriteJobCall.ofHandler : WriteJobCall → Bool
  | .cleanup _ | .rescan => true
  | .lexists | .ensureTarget _ | .size _ | .ensureStaging _ | .stage _ _ | .syncStaging _ | .exists | .remove _ | .replace | .syncRoot _ =>
    false

/-- The calls that write the staging directory. -/
def WriteJobCall.ofStaging : WriteJobCall → Bool
  | .stage _ _ | .syncStaging _ => true
  | .lexists | .ensureTarget _ | .size _ | .ensureStaging _ | .exists | .remove _ | .replace | .syncRoot _ | .cleanup _ | .rescan => false

/-- A call on the staging directory is neither exposed nor of the handler. -/
theorem WriteJobCall.not_exposed_of_ofStaging {old : Option Child} {new : Directory} {c : WriteJobCall} (h : c.ofStaging = true) :
    ¬Exposed old new c ∧ c.ofHandler = false := by
  cases c with
  | stage _ _ | syncStaging _ => exact ⟨not_false, rfl⟩
  | lexists | ensureTarget _ | size _ | ensureStaging _ | «exists» | remove _ | replace | syncRoot _ | cleanup _ | rescan => cases h

/-- What is published is a directory of plain files. -/
theorem plain_published (stdout stderr : Bytes) : Plain (published stdout stderr) := (plain_empty.insert _ _).insert _ _

/-- What is published has the bytes of both streams. -/
theorem published_size (stdout stderr : Bytes) : (published stdout stderr).size = stdout.length + stderr.length := by
  simp [published, Directory.size, Entry.size, binName, Stream.value, Nat.add_comm]

/-- A new name of a temporary file is free beside the published ones. -/
theorem free_of_ne {es : AList fun _ : Name => Entry} {stream : Stream} {tokens : List String} (hne : tokens ≠ [])
    (hes : ∀ name ∈ es, ∃ stream', name = binName stream') : ¬∀ token ∈ tokens, "." ++ stream.value ++ "." ++ token ∈ es := by
  intro hall
  obtain ⟨token, rest, rfl⟩ := List.exists_cons_of_ne_nil hne
  obtain ⟨stream', heq⟩ := hes _ (hall token List.mem_cons_self)
  exact temporary_ne_binName stream stream' token heq.symm

/-- A sync leaves the store as it is and returns where no call of it fails. -/
theorem post_syncPath (fails : SyncCall → Bool) :
    Post (syncPath fails) s (fun _ s' => s' = s ∧ ∀ c, fails c = false) fun _ s' => s' = s ∧ ∃ c, fails c = true := by
  simp only [syncPath, post_bind, post_call]
  refine ⟨fun hfails => ⟨trivial, _, hfails⟩, fun hopen => ⟨fun hfails => ⟨trivial, _, hfails⟩, fun hsync =>
    ⟨fun hfails => ⟨trivial, _, hfails⟩, fun hclose => ⟨trivial, fun c => ?_⟩⟩⟩⟩
  cases c with
  | «open» => exact hopen
  | sync => exact hsync
  | close => exact hclose

/-- Both streams in the fresh staging directory. -/
theorem post_stageStreams (draws : Draws) (hg : s.child g = some (.dir ⟨true, ∅⟩)) :
    Post (stageStreams fails draws (.child g) stdout stderr) s
      (fun _ s' => Sets g (some (.dir (published stdout stderr))) s s')
      fun _ s' => (∃ d, Plain d ∧ Sets g (some (.dir d)) s s') ∧ ∃ c, fails c = true ∧ c.ofStaging = true := by
  rw [stageStreams, post_bind]
  refine (post_stage _ draws .stdout stdout hg plain_empty).mono ?_ ?_
  · intro _ s₁ hset₁
    rw [post_bind]
    refine (post_stage _ draws .stderr stderr hset₁.child (plain_empty.insert _ _)).mono ?_ ?_
    · intro _ s₂ hset₂
      refine (post_syncPath _).mono ?_ ?_
      · rintro _ s₃ ⟨rfl, -⟩
        exact hset₁.trans hset₂
      · rintro _ s₃ ⟨rfl, c, hfails⟩
        exact ⟨⟨_, plain_published stdout stderr, hset₁.trans hset₂⟩, .syncStaging c, hfails, rfl⟩
    · rintro _ s₂ ⟨⟨d, hd, hset₂⟩, hcause⟩
      refine ⟨⟨d, hd, hset₁.trans hset₂⟩, ?_⟩
      obtain ⟨c, hfails⟩ | hall := hcause
      · exact ⟨.stage .stderr c, hfails, rfl⟩
      · exact absurd hall (free_of_ne (draws.temporary_ne .stderr) fun name hname =>
        ⟨.stdout, ((AList.mem_insert _).mp hname).resolve_right (AList.notMem_empty _)⟩)
  · rintro _ s₁ ⟨⟨d, hd, hset₁⟩, hcause⟩
    refine ⟨⟨d, hd, hset₁⟩, ?_⟩
    obtain ⟨c, hfails⟩ | hall := hcause
    · exact ⟨.stage .stdout c, hfails, rfl⟩
    · exact absurd hall (free_of_ne (draws.temporary_ne .stdout) fun name hname => by simp at hname)

/-- The staging directory takes the place of the absent one, and the root is synced. -/
theorem post_rename {new : Directory} (hjg : j ≠ g) (hpair : Pair j g none (some (.dir new)) t s.tree)
    (haccepts : host.accepts j = true) :
    Post (do
        replaceDirectory host (fails .replace) g (.child j)
        modify fun s : FileStore => { s with usedBytes := s.usedBytes + (stdout.length + stderr.length) }
        syncPath fun c => fails (.syncRoot c)) s
      (fun _ s' => Pair j g (some (.dir new)) none t s'.tree ∧ s'.usedBytes = s.usedBytes + (stdout.length + stderr.length) ∧
        fails .replace = false ∧ ∀ c, fails (.syncRoot c) = false)
      fun _ s' => s' = s ∧ fails .replace = true ∨
        Pair j g (some (.dir new)) none t s'.tree ∧ ∃ c, fails (.syncRoot c) = true := by
  have hj : s.tree.children.lookup j = none := hpair.first
  have hg : s.tree.children.lookup g = some (.dir new) := hpair.second
  have hmoved := (hpair.setSecond hjg (sets_erase s g s.touched)).setFirst hjg
    (sets_insert _ j (.dir new) (s.touched ++ [.child g, .child j]))
  simp only [post_bind, replaceDirectory, post_call, post_get, hg, hj, haccepts, Bool.not_true, Bool.false_eq_true, if_false, post_modify]
  refine ⟨fun hfails => .inl ⟨trivial, hfails⟩, fun hreplace => ?_⟩
  refine (post_syncPath _).mono ?_ ?_
  · rintro _ s' ⟨rfl, hsync⟩
    exact ⟨hmoved, rfl, hreplace, hsync⟩
  · rintro _ s' ⟨rfl, c, hfails⟩
    exact .inr ⟨hmoved, c, hfails⟩

/-- What was not touched is as before. -/
theorem AsBefore.refl {c : Option Child} (h : JobEntry c) : AsBefore c c := by
  obtain rfl | ⟨d, rfl, -⟩ := h
  · trivial
  · exact ⟨rfl, .refl _⟩

/-- A directory that is gone is not as before. -/
theorem not_asBefore_none {d : Directory} : ¬AsBefore (some (.dir d)) none := id

/-- A directory with fewer files is not as before. -/
theorem not_asBefore_of_length {d d' : Directory} (h : d'.entries.entries.length < d.entries.entries.length) :
    ¬AsBefore (some (.dir d)) (some (.dir d')) := by
  rintro ⟨-, hperm⟩
  exact Nat.ne_of_lt h hperm.length_eq.symm

/-- What a failure after the staging leaves of the two entries: either the job's directory is as before, or a failing call was exposed. -/
structure Broken (host : Host) (fails : WriteJobCall → Bool) (j g : Name) (old : Option Child) (new : Directory) (t t' : Tree)
    (cj cg : Option Child) : Prop where
  pair : Pair j g cj cg t t'
  first : JobEntry cj
  second : JobEntry cg
  bytes : childBytes cj ≤ childBytes old ∨ cj = some (.dir new)
  cause : AsBefore old cj ∧ ((old.isSome = true ∧ host.shared (.child j) = true) ∨
      ∃ c, fails c = true ∧ ¬Exposed old new c ∧ c.ofHandler = false) ∨
    ¬AsBefore old cj ∧ ∃ c, fails c = true ∧ Exposed old new c

/-- The staging directory takes the place of what the job has. -/
theorem post_publish {old : Option Child} {new : Directory} (hjg : j ≠ g) (hpair : Pair j g old (some (.dir new)) t s.tree)
    (hold : JobEntry old) (hnew : Plain new) (haccepts : host.accepts j = true) :
    Post (publish host fails (.child j) g stdout stderr) s
      (fun _ s' => Pair j g (some (.dir new)) none t s'.tree ∧
        s'.usedBytes = s.usedBytes - childBytes old + (stdout.length + stderr.length) ∧
        (∀ c, Exposed old new (.remove c) → fails (.remove c) = false) ∧ (Exposed old new .replace → fails .replace = false) ∧
        ∀ c, fails (.syncRoot c) = false)
      fun _ s' => ∃ cj cg, Broken host fails j g old new t s'.tree cj cg := by
  have hplain : JobEntry (some (.dir new)) := .inr ⟨new, rfl, hnew⟩
  have hsync (c : SyncCall) (hfails : fails (.syncRoot c) = true) (s' : FileStore) (hpair' : Pair j g (some (.dir new)) none t s'.tree) :
      Broken host fails j g old new t s'.tree (some (.dir new)) none := by
    refine ⟨hpair', hplain, .inl rfl, .inr rfl, ?_⟩
    by_cases hbefore : AsBefore old (some (.dir new))
    · exact .inl ⟨hbefore, .inr ⟨.syncRoot c, hfails, not_not_intro hbefore, rfl⟩⟩
    · exact .inr ⟨hbefore, .syncRoot c, hfails, hbefore⟩
  have hbegin {c : WriteJobCall} (hfails : fails c = true) (hexposed : ¬Exposed old new c) (hhandler : c.ofHandler = false) :
      ∃ cj cg, Broken host fails j g old new t s.tree cj cg :=
    ⟨old, _, hpair, hold, hplain, .inl (Nat.le_refl _), .inl ⟨.refl hold, .inr ⟨c, hfails, hexposed, hhandler⟩⟩⟩
  simp only [publish, post_bind, post_call, post_get]
  refine ⟨fun hfails => hbegin hfails not_false rfl, fun _ => ?_⟩
  obtain rfl | ⟨d, rfl, hd⟩ := hold
  · have hnone : s.tree.children.lookup j = none := hpair.first
    have hleads : s.tree.leadsSomewhere (.child j) = false := by simp [Tree.leadsSomewhere, Tree.locate, hnone]
    rw [hleads, if_neg Bool.false_ne_true]
    refine (post_rename hjg hpair haccepts).mono ?_ ?_
    · rintro _ s' ⟨hpair', hused, -, hok⟩
      exact ⟨hpair', by simp [hused], fun c ⟨_, h, _⟩ => (nomatch h), fun h => by simp [Exposed] at h, hok⟩
    · rintro _ s' (⟨rfl, hfails⟩ | ⟨hpair', c, hfails⟩)
      · exact hbegin hfails (by simp [Exposed]) rfl
      · exact ⟨_, _, hsync c hfails s' hpair'⟩
  · have hsome : s.child j = some (.dir d) := hpair.first
    have hleads : s.tree.leadsSomewhere (.child j) = true := by simp [Tree.leadsSomewhere, Tree.locate, hsome]
    rw [hleads, if_pos rfl, post_bind]
    refine (post_removeJobDirectory _ false hsome hd).mono ?_ ?_
    · rintro v s₁ (⟨rfl, hset, hok⟩ | ⟨h, -⟩)
      · have hgone : Pair j g none (some (.dir new)) t s₁.tree := hpair.setFirst hjg hset
        rw [post_bind, post_modify]
        refine (post_rename (s := { s₁ with usedBytes := s₁.usedBytes - d.size }) hjg hgone haccepts).mono ?_ ?_
        · rintro _ s' ⟨hpair', hused, hreplace, hsynced⟩
          refine ⟨hpair', ?_, ?_, fun _ => hreplace, hsynced⟩
          · rw [hused, hset.used]
            rfl
          · rintro c ⟨d', heq, hlate⟩
            cases heq
            exact hok c hlate
        · rintro _ s' (⟨rfl, hfails⟩ | ⟨hpair', c, hfails⟩)
          · exact ⟨none, _, hgone, .inl rfl, hplain, .inl (Nat.zero_le _),
              .inr ⟨not_asBefore_none, .replace, hfails, rfl⟩⟩
          · exact ⟨_, _, hsync c hfails s' hpair'⟩
      · cases h
    · rintro _ s₁ (⟨hset, hcause⟩ | ⟨d', hd', hlength, hbytes, hset, c, hfails, hlate⟩)
      · refine ⟨_, _, hpair.setFirst hjg hset, .inr ⟨d, rfl, hd⟩, hplain, .inl (Nat.le_refl _), .inl ⟨.refl (.inr ⟨d, rfl, hd⟩), ?_⟩⟩
        refine hcause.imp (fun hshared => ⟨rfl, hshared⟩) fun ⟨c, hfails, hlate⟩ => ⟨.remove c, hfails, ?_, rfl⟩
        rintro ⟨d', heq, hlate'⟩
        cases heq
        rw [hlate] at hlate'
        cases hlate'
      · exact ⟨_, _, hpair.setFirst hjg hset, .inr ⟨d', rfl, hd'⟩, hplain, .inl hbytes,
          .inr ⟨not_asBefore_of_length hlength, .remove c, hfails, d, rfl, hlate⟩⟩

/-- At most one call fails. -/
def AtMostOne {Call : Type} (fails : Call → Bool) : Prop := ∀ c c', fails c = true → fails c' = true → c = c'

/-- To remove a directory that is not there changes nothing. -/
theorem post_removeJobDirectory_absent (fails : RemoveCall → Bool) (h : s.child j = none) :
    Post (removeJobDirectory host fails (.child j) true) s (fun v s' => v = 0 ∧ s' = s) fun _ _ => False := by
  simp [removeJobDirectory, kind_none h]

/-- The cleanup, when no call of it fails. -/
theorem post_cleanup (e : OsError) (hjg : j ≠ g) (hpair : Pair j g cj cg t s.tree) (hcg : JobEntry cg)
    (hshared : host.shared (.child g) = false)
    (hok : ∀ c, c.ofHandler = true → fails c = false) :
    Post (do
        let _ ← removeJobDirectory host (fun c => fails (.cleanup c)) (.child g) true
        rescan (fails .rescan)
        throw e : Op Unit) s (fun _ _ => False) fun _ s' => Pair j g cj none t s'.tree ∧ s'.usedBytes = s'.tree.size := by
  have hrescan (s₁ : FileStore) (hpair₁ : Pair j g cj none t s₁.tree) :
      Post (do
          rescan (fails .rescan)
          throw e : Op Unit) s₁ (fun _ _ => False) fun _ s' => Pair j g cj none t s'.tree ∧ s'.usedBytes = s'.tree.size := by
    simp only [rescan, post_bind, post_call, post_modify, post_throw, hok .rescan rfl]
    exact ⟨by simp, fun _ => ⟨hpair₁, trivial⟩⟩
  rw [post_bind]
  obtain rfl | ⟨d, rfl, hd⟩ := hcg
  · refine (post_removeJobDirectory_absent _ hpair.second).mono ?_ fun _ _ => False.elim
    rintro _ s₁ ⟨-, rfl⟩
    exact hrescan s₁ hpair
  · refine (post_removeJobDirectory _ true hpair.second hd).mono ?_ ?_
    · rintro _ s₁ (⟨-, hset, -⟩ | ⟨-, hfails, -⟩)
      · exact hrescan s₁ (hpair.setSecond hjg hset)
      · simp [hok (.cleanup .lexists) rfl] at hfails
    · rintro _ s₁ (⟨-, hcause⟩ | ⟨-, -, -, -, -, c, hfails, -⟩)
      · obtain h | ⟨c, hfails, -⟩ := hcause
        · simp [hshared] at h
        · simp [hok (.cleanup c) rfl] at hfails
      · simp [hok (.cleanup c) rfl] at hfails

/-- What `write_job` leaves when it raises. -/
structure Raised (host : Host) (fails : WriteJobCall → Bool) (j g : Name) (stdout stderr : Bytes) (s s' : FileStore)
    (cj cg : Option Child) : Prop where
  pair : Pair j g cj cg s.tree s'.tree
  first : JobEntry cj
  second : JobEntry cg
  used : s'.usedBytes = s.usedBytes ∧ s'.tree.size = s.tree.size ∨ s'.usedBytes = s'.tree.size
  bytes : s'.tree.size ≤ s.tree.size ∨ s'.tree.size + childBytes (s.child j) = s.tree.size + (stdout.length + stderr.length) ∧
    Fits host s (childBytes (s.child j)) (stdout.length + stderr.length)
  cause : AsBefore (s.child j) cj ∧ cg = none ∧ (Refused host s j g (stdout.length + stderr.length) ∨
      ∃ c, fails c = true ∧ ¬Exposed (s.child j) (published stdout stderr) c) ∨
    (¬AsBefore (s.child j) cj ∨ cg ≠ none) ∧ ¬Refused host s j g (stdout.length + stderr.length) ∧
      ∃ c, fails c = true ∧ Exposed (s.child j) (published stdout stderr) c

/-- An exposed call is not one of the handler. -/
theorem Exposed.not_ofHandler {old : Option Child} {new : Directory} {c : WriteJobCall} (h : Exposed old new c) : c.ofHandler = false := by
  cases c with
  | lexists | ensureTarget _ | size _ | stage _ _ | syncStaging _ | «exists» | cleanup _ | rescan => exact h.elim
  | ensureStaging _ | remove _ | replace | syncRoot _ => rfl

/-- `write_job` of a job id that names an entry of the root. -/
theorem post_writeJob (host : Host) (draws : Draws) {jobId : String} (stdout stderr : Bytes) (hname : isName jobId = true)
    (hparent : jobId ≠ "..") (hold : JobEntry (s.child jobId)) (hfresh : s.child (stagingName jobId draws.staging) = none)
    (hone : AtMostOne fails) :
    Post (writeJob host fails draws jobId stdout stderr) s
      (fun _ s' => Pair jobId (stagingName jobId draws.staging) (some (.dir (published stdout stderr))) none s.tree s'.tree ∧
        s'.usedBytes = s.usedBytes - childBytes (s.child jobId) + (stdout.length + stderr.length) ∧
        Fits host s (childBytes (s.child jobId)) (stdout.length + stderr.length) ∧
        ∀ c, Exposed (s.child jobId) (published stdout stderr) c → fails c = false)
      fun _ s' => ∃ cj cg, Raised host fails jobId (stagingName jobId draws.staging) stdout stderr s s' cj cg := by
  have hjg : jobId ≠ stagingName jobId draws.staging := (stagingName_ne _ _).symm
  generalize hg : stagingName jobId draws.staging = g at hfresh hjg ⊢
  simp only [writeJob, hname, Bool.not_true, Bool.false_eq_true, if_false, place_child hparent, hg, post_bind]
  have hbegin : Pair jobId g (s.child jobId) none s.tree s.tree := .refl rfl hfresh
  refine (post_prepare (published stdout stderr) hold hfresh).mono ?_ ?_
  · rintro _ s₁ ⟨hset, haccepts, hshared, hfits, hrefused, hensured⟩
    have hstaged := hbegin.setSecond hjg hset
    have hnot {c : WriteJobCall} (hfails : fails c = true) (hexposed : Exposed (s.child jobId) (published stdout stderr) c) :
        ¬Refused host s jobId g (stdout.length + stderr.length) := by
      intro h
      cases hone c .lexists hfails (hrefused h)
      exact hexposed
    -- a failure after the staging directory is there uses up the one that may happen, so nothing of the cleanup fails
    have hhandle (e : OsError) (s₂ : FileStore) (cj cg : Option Child)
        (h : Broken host fails jobId g (s.child jobId) (published stdout stderr) s.tree s₂.tree cj cg) :
        Post (do
            let _ ← removeJobDirectory host (fun c => fails (.cleanup c)) (.child g) true
            rescan (fails .rescan)
            throw e : Op Unit) s₂ (fun _ _ => False) fun _ s' => ∃ cj cg, Raised host fails jobId g stdout stderr s s' cj cg := by
      have hrefuses (hshared : (s.child jobId).isSome = true ∧ host.shared (.child jobId) = true) :
          Refused host s jobId g (stdout.length + stderr.length) := .inl hshared
      obtain ⟨c, hfails, hhandler⟩ : ∃ c, fails c = true ∧ c.ofHandler = false := by
        obtain ⟨-, hshared | ⟨c, hfails, -, hhandler⟩⟩ | ⟨-, c, hfails, hexposed⟩ := h.cause
        · exact ⟨.lexists, hrefused (hrefuses hshared), rfl⟩
        · exact ⟨c, hfails, hhandler⟩
        · exact ⟨c, hfails, hexposed.not_ofHandler⟩
      have hok (c' : WriteJobCall) (hc' : c'.ofHandler = true) : fails c' = false := by
        by_contra hfails'
        rw [Bool.not_eq_false] at hfails'
        rw [hone c c' hfails hfails', hc'] at hhandler
        cases hhandler
      refine (post_cleanup e hjg h.pair h.second hshared hok).mono (fun _ _ => False.elim) ?_
      rintro _ s₃ ⟨hpair, hused⟩
      refine ⟨cj, none, hpair, h.first, .inl rfl, .inr hused, ?_, ?_⟩
      · have hsize := hpair.size
        rw [FileStore.child] at hfresh
        rw [hfresh] at hsize
        obtain hbytes | rfl := h.bytes
        · refine .inl ?_
          simp only [FileStore.child] at hbytes
          omega
        · refine .inr ⟨?_, hfits⟩
          rw [← published_size]
          exact hsize
      · refine h.cause.imp (fun hbefore => ⟨hbefore.1, rfl, hbefore.2.imp hrefuses ?_⟩) ?_
        · rintro ⟨hbefore, c', hfails', hexposed⟩
          exact ⟨.inl hbefore, hnot hfails' hexposed, c', hfails', hexposed⟩
        · rintro ⟨c', hfails', hexposed, -⟩
          exact ⟨c', hfails', hexposed⟩
    rw [post_tryCatch, post_bind]
    refine (post_stageStreams draws hset.child).mono ?_ ?_
    · intro _ s₂ hset₂
      have hready := hstaged.setSecond hjg hset₂
      refine (post_publish hjg hready hold (plain_published _ _) (accepts_of_stagingName (hg ▸ haccepts))).mono ?_ ?_
      · rintro _ s₃ ⟨hpair, hused, hremove, hreplace, hsync⟩
        refine ⟨hpair, ?_, hfits, ?_⟩
        · rw [hused, hset₂.used, hset.used]
        · intro c hexposed
          cases c with
          | lexists | ensureTarget _ | size _ | stage _ _ | syncStaging _ | «exists» | cleanup _ | rescan => exact hexposed.elim
          | ensureStaging c => exact hensured c hexposed
          | remove c => exact hremove c hexposed
          | replace => exact hreplace hexposed
          | syncRoot c => exact hsync c
      · rintro e s₃ ⟨cj, cg, hbroken⟩
        exact (hhandle e s₃ cj cg hbroken).mono (fun _ _ => False.elim) fun _ _ h => h
    · rintro e s₂ ⟨⟨d, hd, hset₂⟩, c, hfails, hstaging⟩
      obtain ⟨hexposed, hhandler⟩ : ¬Exposed (s.child jobId) (published stdout stderr) c ∧ c.ofHandler = false :=
        WriteJobCall.not_exposed_of_ofStaging hstaging
      refine (hhandle e s₂ (s.child jobId) (some (.dir d)) ?_).mono (fun _ _ => False.elim) fun _ _ h => h
      exact ⟨hstaged.setSecond hjg hset₂, hold, .inr ⟨d, rfl, hd⟩, .inl (Nat.le_refl _),
        .inl ⟨.refl hold, .inr ⟨c, hfails, hexposed, hhandler⟩⟩⟩
  · rintro _ s₁ (⟨rfl, hcause⟩ | ⟨hset, hrefused, c, hfails, hexposed⟩)
    · exact ⟨_, _, hbegin, hold, .inl rfl, .inl ⟨rfl, rfl⟩, .inl (Nat.le_refl _), .inl ⟨.refl hold, rfl, hcause⟩⟩
    · have hpair := hbegin.setSecond hjg hset
      have hsize : s₁.tree.size = s.tree.size := by simpa [hfresh, Child.size, Directory.size] using hset.size
      refine ⟨_, _, hpair, hold, .inr ⟨_, rfl, plain_empty⟩, .inl ⟨hset.used, hsize⟩, .inl (Nat.le_of_eq hsize), .inr ⟨.inr (by simp), ?_,
        c, hfails, hexposed⟩⟩
      intro h
      cases hone c .lexists hfails (hrefused h)
      exact hexposed

end Parts

end OutputFiles

end SharkRail
