import SharkRail.Lemmas.StoreFrames
import SharkRail.Theorems.OutputReplacement

/-!
# Where the output operations work

`write`, `write_job` and `delete_job` touch the directory of the job and its staging directory only, both entries of the root, whatever the
job id, the paths and the tree are, links and files of the root included. The exception is the job id `..`, which is its own last part and
so passes the name check: `write` and `write_job` work in the directory that the root is in, unless they refuse before they change it.
-/

namespace SharkRail

namespace OutputFiles

open Effectful

/-! ## Names -/

/-- A name that is the path of an entry when it is joined to a directory. -/
def DirectChild (name : Name) : Prop := name ≠ "" ∧ name ≠ "." ∧ name ≠ ".." ∧ '/' ∉ name.toList

/-- No part of a list that is split has the separator. -/
theorem not_mem_of_mem_splitOn {α : Type} [BEq α] [LawfulBEq α] {a : α} {xs part : List α} (h : part ∈ xs.splitOn a) : a ∉ part := by
  rw [List.splitOn_eq_splitOnP] at h
  induction xs generalizing part with
  | nil =>
    rw [List.splitOnP_nil, List.mem_singleton] at h
    simp [h]
  | cons x xs ih =>
    rw [List.splitOnP_cons_eq_if_modifyHead] at h
    split at h
    · obtain rfl | h := List.mem_cons.mp h
      · simp
      · exact ih h
    · rename_i hne
      cases hsplit : xs.splitOnP (· == a) with
      | nil => exact absurd hsplit (List.splitOnP_ne_nil _ _)
      | cons first rest =>
        rw [hsplit] at h
        obtain rfl | h := List.mem_cons.mp h
        · have hfirst : a ∉ first := ih (by simp [hsplit])
          rw [List.mem_cons, not_or]
          exact ⟨Ne.symm (by simpa using hne), hfirst⟩
        · exact ih (by simp [hsplit, h])

/-- The name check accepts the names of entries, and `..`. -/
theorem directChild_of_isName {jobId : String} (h : isName jobId = true) (hparent : jobId ≠ "..") : DirectChild jobId := by
  simp only [isName, Bool.and_eq_true, decide_eq_true_eq] at h
  obtain ⟨hempty, hname⟩ := h
  cases hlast : (pathParts jobId.toList).getLast? with
  | none =>
    rw [pathName, hlast] at hname
    exact absurd hname.symm hempty
  | some part =>
    have hmem : part ∈ pathParts jobId.toList := List.mem_of_getLast? hlast
    simp only [pathParts, List.mem_filter, decide_eq_true_eq] at hmem
    have heq : jobId.toList = part := by
      rw [pathName, hlast] at hname
      rw [← hname]
      simp
    refine ⟨hempty, ?_, hparent, ?_⟩
    · rintro rfl
      exact hmem.2.2 heq.symm
    · rw [heq]
      exact not_mem_of_mem_splitOn hmem.1

/-- The name of a staging directory is that of a direct child where the name of the job has no separator. -/
theorem directChild_stagingName {jobId : String} (hjob : '/' ∉ jobId.toList) (draws : Draws) :
    DirectChild (stagingName jobId draws.staging) := by
  have hlength : 5 ≤ (stagingName jobId draws.staging).toList.length := by
    simp [stagingName]
    omega
  have hne {name : Name} (hname : name.toList.length < 5) : stagingName jobId draws.staging ≠ name := by
    rintro rfl
    omega
  refine ⟨hne (by decide), hne (by decide), hne (by decide), ?_⟩
  have htoken : '/' ∉ draws.staging.toList := fun hmem => absurd (List.all_eq_true.mp draws.staging_hex '/' hmem) (by decide)
  simp [stagingName, hjob, htoken]

/-! ## Inside the root -/

/-- Only entries of the root of some names were touched, and nothing else of the tree changed. -/
structure Inside (names : List Name) (s s' : FileStore) : Prop where
  touched : ∀ l ∈ s'.touched, l ∈ s.touched ∨ ∃ n ∈ names, l = .child n
  parent : s'.tree.parent = s.tree.parent
  outside : s'.tree.outside = s.tree.outside
  others : ∀ n, n ∉ names → s'.child n = s.child n

/-- Nothing was touched. -/
theorem Inside.refl (names : List Name) (s : FileStore) : Inside names s s := ⟨fun _ h => .inl h, rfl, rfl, fun _ _ => rfl⟩

/-- The entry of the root is no link. -/
def NotLink (s : FileStore) (n : Name) : Prop := ∀ target, s.child n ≠ some (.link target)

/-- What holds while a method works: it stayed inside, and the entries that it checked are no links. -/
def Working (names checked : List Name) (s₀ s : FileStore) : Prop := Inside names s₀ s ∧ ∀ n ∈ checked, NotLink s n

section Working

variable {names checked : List Name} {s₀ s : FileStore} {n : Name}

/-- A name of the list may be touched. -/
theorem Inside.touch (h : Inside names s₀ s) (hn : n ∈ names) {c : Option Child} {s' : FileStore} (hset : Sets n c s s')
    (htouched : s'.touched = s.touched ++ [.child n]) : Inside names s₀ s' := by
  refine ⟨fun l hl => ?_, hset.parent.trans h.parent, hset.outside.trans h.outside, fun m hm => ?_⟩
  · rw [htouched, List.mem_append, List.mem_singleton] at hl
    obtain hl | rfl := hl
    · exact h.touched l hl
    · exact .inr ⟨n, hn, rfl⟩
  · exact (hset.others m fun heq => hm (heq ▸ hn)).trans (h.others m hm)

/-- A name that is no link is none after something else than a link was put somewhere. -/
theorem NotLink.of_sets {c : Option Child} {s' : FileStore} {m : Name} (h : NotLink s m) (hset : Sets n c s s')
    (hc : ∀ target, c ≠ some (.link target)) : NotLink s' m := by
  intro target
  by_cases hm : m = n
  · subst hm
    rw [hset.child]
    exact hc target
  · rw [hset.others m hm]
    exact h target

/-- A name of the list may be touched by a call that puts no link there. -/
theorem Working.touch (h : Working names checked s₀ s) (hn : n ∈ names) {c : Option Child} {s' : FileStore} (hset : Sets n c s s')
    (hc : ∀ target, c ≠ some (.link target)) (htouched : s'.touched = s.touched ++ [.child n]) : Working names checked s₀ s' :=
  ⟨h.1.touch hn hset htouched, fun m hm => (h.2 m hm).of_sets hset hc⟩

/-- The changes of the calls stay inside, at entries that were checked. -/
theorem stable_working (hchecked : checked ⊆ names) :
    Stable (fun p => ∃ n ∈ checked, p = .child n) (fun n => n ∈ names) (Working names checked s₀) where
  used s used h := ⟨⟨h.1.touched, h.1.parent, h.1.outside, h.1.others⟩, h.2⟩
  entries := by
    rintro s p f ⟨n, hn, rfl⟩ h
    have hlocate : s.tree.locate (.child n) = .child n := by
      rw [Tree.locate]
      cases hchild : s.tree.children.lookup n with
      | none => rfl
      | some c =>
        cases c with
        | dir _ | file _ => rfl
        | link target => exact absurd hchild (h.2 n hn target)
    rw [hlocate]
    cases hchild : s.child n with
    | none =>
      simp only [Tree.setEntries, hchild]
      exact h.touch (c := none) (hchecked hn) ⟨rfl, hchild, fun _ _ => rfl, rfl, rfl, by rw [hchild]⟩ (by simp) rfl
    | some c =>
      cases c with
      | dir d =>
        simp only [Tree.setEntries, hchild]
        exact h.touch (hchecked hn) (sets_insert s n _ _) (by simp) rfl
      | file data =>
        simp only [Tree.setEntries, hchild]
        exact h.touch (c := some (.file data)) (hchecked hn) ⟨rfl, hchild, fun _ _ => rfl, rfl, rfl, by rw [hchild]⟩ (by simp) rfl
      | link target => exact absurd hchild (h.2 n hn target)
  make s n hn _ h := h.touch hn (sets_insert s n _ _) (by simp) rfl
  delete s n hn h := h.touch hn (sets_erase s n _) (by simp) rfl
  move := by
    rintro s source target moved ⟨n, hn, heq⟩ hsource htarget hmoved h
    cases heq
    have hgone := h.touch hsource (sets_erase s source (s.touched ++ [.child source])) (by simp) rfl
    have hmove := hgone.touch htarget (sets_insert _ target moved (s.touched ++ [.child source] ++ [.child target]))
      (fun link hlink => h.2 source hn link (hlink ▸ hmoved)) rfl
    rw [List.append_assoc] at hmove
    exact hmove

/-- A directory that the check accepts or makes is a directory, if nothing hides it from the check. -/
theorem post_ensure_dir {host : Host} {fails : EnsureCall → Bool} (hseen : fails .lexists = false) :
    Post (ensurePrivateDirectory host fails (.child n)) s (fun _ s' => ∃ d, s'.child n = some (.dir d)) fun _ _ => True := by
  cases hchild : s.child n with
  | none => exact (post_ensure_new fails hchild).mono (fun _ _ h => ⟨_, h.1.child⟩) fun _ _ _ => trivial
  | some c =>
    rw [ensurePrivateDirectory]
    refine post_ite.mpr ⟨fun _ => trivial, fun _ => ?_⟩
    cases c with
    | dir d => cases hd : d.isPrivate <;> simp [hseen, validatePrivateDirectory, Tree.kind, hchild, hd]
    | file _ | link _ => simp [hseen, validatePrivateDirectory, Tree.kind, hchild]

/-- The check of an entry of the root adds it to the checked ones. -/
theorem post_ensure_working {host : Host} {fails : EnsureCall → Bool} (hseen : fails .lexists = false) (hchecked : checked ⊆ names)
    (hn : n ∈ names) (h : Working names checked s₀ s) :
    Post (ensurePrivateDirectory host fails (.child n)) s (fun _ => Working names (n :: checked) s₀) fun _ => Working names checked s₀ := by
  refine ((keeps_ensure (stable_working hchecked) fails (p := .child n) hn s h).and (post_ensure_dir hseen)).mono ?_ fun _ _ h => h.1
  rintro _ s' ⟨hworking, d, hdir⟩
  refine ⟨hworking.1, fun m hm => ?_⟩
  obtain rfl | hm := List.mem_cons.mp hm
  · intro target hlink
    rw [hdir] at hlink
    cases hlink
  · exact hworking.2 m hm

/-- Fewer names may be known to be checked. -/
theorem Working.weaken (h : Working names (n :: checked) s₀ s) : Working names checked s₀ s :=
  ⟨h.1, fun m hm => h.2 m (List.mem_cons_of_mem _ hm)⟩

/-- A removal stays inside. -/
theorem keeps_working_removal {host : Host} {fails : RemoveCall → Bool} {missingOk : Bool} (hseen : fails (.ensure .lexists) = false)
    (hchecked : checked ⊆ names) (hn : n ∈ names) :
    Keeps (Working names checked s₀) (removeJobDirectory host fails (.child n) missingOk) :=
  keeps_removal (stable_working (List.cons_subset.mpr ⟨hn, hchecked⟩)) ⟨n, List.mem_cons_self, rfl⟩ hn (fun _ h => h.weaken) fails missingOk
    fun _ h => post_ensure_working hseen hchecked hn h

end Working

/-! ## The operations -/

/-- An operation on the output of a job, none of whose system calls fails of itself. -/
inductive OutputCall where
  | write (stream : Stream) (data : Bytes)
  | writeJob (stdout stderr : Bytes)
  | deleteJob (stdoutPath stderrPath : Option String)

/-- From one state to another only entries of the root of some names were touched, each a direct child of it. -/
def OnlyTouched (names : List Name) (s s' : FileStore) : Prop :=
  Inside names s s' ∧ ∀ l ∈ s'.touched, ∃ n ∈ names, l = .child n ∧ DirectChild n

namespace OutputCall

variable (host : Host) (draws : Draws) (jobId : String)

def perform : OutputCall → Op Unit
  | .write stream data => (fun _ => ()) <$> OutputFiles.write host (fun _ => false) draws jobId stream data
  | .writeJob stdout stderr => (fun _ => ()) <$> OutputFiles.writeJob host (fun _ => false) draws jobId stdout stderr
  | .deleteJob stdoutPath stderrPath => OutputFiles.deleteJob host (fun _ => false) jobId stdoutPath stderrPath

/-- What an operation leaves of a tree, with what it touched. -/
def after (c : OutputCall) (t : Tree) (used : Int) : FileStore :=
  match c.perform host draws jobId ⟨t, used, []⟩ with
  | .ok _ s' => s'
  | .error _ s' => s'

/-- The entries of the root that an operation may touch. -/
def names : OutputCall → List Name
  | .write _ _ | .deleteJob _ _ => [jobId]
  | .writeJob _ _ => [jobId, stagingName jobId draws.staging]

/-- An operation raised and touched nothing, or it touched only the directory of the job and its staging directory, direct children of the
root. -/
def Confined (c : OutputCall) (t : Tree) (used : Int) : Prop :=
  OnlyTouched (c.names draws jobId) ⟨t, used, []⟩ (c.after host draws jobId t used)

end OutputCall

/-- What makes an operation on the job id `..` raise before it changes the directory that the root is in. -/
def SparesParent (host : Host) (draws : Draws) (t : Tree) (used : Int) : OutputCall → Prop
  | .write stream data =>
    host.shared .parent = true ∨ t.parent.isPrivate = false ∨
      ¬Fits host ⟨t, used, []⟩ (fileBytes (t.parent.entries.lookup (binName stream))) data.length ∨
      ∀ token ∈ draws.temporary stream, "." ++ stream.value ++ "." ++ token ∈ t.parent.entries
  | .writeJob stdout stderr =>
    host.shared .parent = true ∨ t.parent.isPrivate = false ∨
      ¬Fits host ⟨t, used, []⟩ ((t.parent.entries.entries.map fun e => fileBytes (some e.2)).sum) (stdout.length + stderr.length) ∨
      host.shared (.child (stagingName ".." draws.staging)) = true ∨ host.accepts (stagingName ".." draws.staging) = false ∨
      StartsWithDirectory t.parent
  | .deleteJob _ _ => True

section Confined

variable {host : Host} {draws : Draws} {jobId : String} {c : OutputCall} {t : Tree} {used : Int}

/-- What holds after the call of the program holds of the store that it leaves. -/
theorem after_of_post {P : FileStore → Prop} (h : Post (c.perform host draws jobId) ⟨t, used, []⟩ (fun _ s' => P s') fun _ s' => P s') :
    P (c.after host draws jobId t used) := by
  unfold Post at h
  unfold OutputCall.after
  cases hrun : c.perform host draws jobId ⟨t, used, []⟩ with
  | ok _ s' =>
    rw [hrun] at h
    exact h
  | error _ s' =>
    rw [hrun] at h
    exact h

/-- `write_job` up to the staging directory, in any place: it stays inside, and the staging directory is checked. -/
theorem post_prepare_working {p : Place} {names : List Name} {g : Name} {stdout stderr : Bytes} {s₀ s : FileStore}
    (hp : p.Allowed (fun n => n ∈ names)) (hg : g ∈ names) (hs : Working names [] s₀ s) :
    Post (prepare host (fun _ => false) p (.child g) stdout stderr) s (fun _ => Working names [g] s₀) fun _ => Working names [] s₀ := by
  have hI : Stable _ _ (Working names [] s₀) := stable_working (List.nil_subset _)
  have hrest (s : FileStore) (hs : Working names [] s₀ s) :
      Post (do
          let existing ← directorySizeLocked (fun _ => false) p
          checkCapacity host existing (stdout.length + stderr.length)
          let _ ← ensurePrivateDirectory host (fun _ => false) (.child g)
          pure ()) s (fun _ => Working names [g] s₀) fun _ => Working names [] s₀ := by
    rw [post_bind]
    refine (keeps_directorySize _ p s hs).mono (fun existing s₁ hs₁ => ?_) fun _ _ h => h
    rw [post_bind]
    refine (keeps_checkCapacity _ _ s₁ hs₁).mono (fun _ s₂ hs₂ => ?_) fun _ _ h => h
    rw [post_bind]
    exact post_ensure_working rfl (List.nil_subset _) hg hs₂
  rw [prepare, post_bind]
  refine (keeps_lexists _ p s hs).mono (fun there s₁ hs₁ => ?_) fun _ _ h => h
  refine post_ite.mpr ⟨fun _ => ?_, fun _ => hrest s₁ hs₁⟩
  rw [post_bind]
  exact (keeps_ensure hI _ hp s₁ hs₁).mono (fun _ s₂ hs₂ => hrest s₂ hs₂) fun _ _ h => h

/-- `write_job` after that, in a place whose removal stays inside. -/
theorem keeps_working_replace {p : Place} {names : List Name} {g : Name} {stdout stderr : Bytes} {s₀ : FileStore} {value : String × String}
    (hp : p.Allowed (fun n => n ∈ names)) (hg : g ∈ names)
    (hremoval : Keeps (Working names [g] s₀) (removeJobDirectory host (fun _ => false) p false)) :
    Keeps (Working names [g] s₀) (do
      tryCatch (do
          stageStreams (fun _ => false) draws (.child g) stdout stderr
          publish host (fun _ => false) p g stdout stderr)
        fun e => do
          let _ ← removeJobDirectory host (fun _ => false) (.child g) true
          rescan false
          throw e
      pure value) := by
  have hI : Stable (fun p => ∃ n ∈ [g], p = .child n) (fun n => n ∈ names) (Working names [g] s₀) :=
    stable_working (List.cons_subset.mpr ⟨hg, List.nil_subset _⟩)
  have hplace : ∃ n ∈ [g], Place.child g = .child n := ⟨g, List.mem_cons_self, rfl⟩
  have hcleanup : Keeps (Working names [g] s₀) (removeJobDirectory host (fun _ => false) (.child g) true) :=
    keeps_working_removal rfl (List.cons_subset.mpr ⟨hg, List.nil_subset _⟩) hg
  exact (((keeps_stageStreams hI hplace _ _ _ _).bind fun _ => keeps_publish hI hplace hg hp _ _ _ hremoval).tryCatch fun e =>
    hcleanup.bind fun _ => (keeps_rescan hI _).bind fun _ => keeps_throw e).bind fun _ => keeps_pure _

/-- An operation on a job id that is not `..` stays inside. -/
theorem inside_of_ne (hparent : jobId ≠ "..") :
    Inside (c.names draws jobId) ⟨t, used, []⟩ (c.after host draws jobId t used) := by
  have hstart (names : List Name) : Working names [] ⟨t, used, []⟩ ⟨t, used, []⟩ := ⟨.refl _ _, nofun⟩
  apply after_of_post
  cases c with
  | write stream data =>
    rw [OutputCall.perform, post_map, write]
    refine post_ite.mpr ⟨fun _ => .refl _ _, fun _ => ?_⟩
    rw [place_child hparent, post_bind]
    refine (post_ensure_working rfl (List.nil_subset _) List.mem_cons_self (hstart [jobId])).mono ?_ fun _ _ h => h.1
    intro _ s hs
    have hI : Stable (fun p => ∃ n ∈ [jobId], p = .child n) (fun n => n ∈ [jobId]) (Working [jobId] [jobId] ⟨t, used, []⟩) :=
      stable_working (List.Subset.refl _)
    have hplace : ∃ n ∈ [jobId], Place.child jobId = .child n := ⟨jobId, List.mem_cons_self, rfl⟩
    have hrest : Keeps (Working [jobId] [jobId] ⟨t, used, []⟩) (do
        let existing ← existingSize (fun _ => false) (.child jobId) (binName stream)
        checkCapacity host existing data.length
        let temporary ← createPrivateTempFile (fun _ => false) (.child jobId) stream (draws.temporary stream)
        tryCatch (do
            writeTemporary (fun _ => false) (.child jobId) temporary data
            replaceFile false (.child jobId) temporary (binName stream)
            modify fun s => { s with usedBytes := s.usedBytes + (data.length - existing) }
            syncPath fun _ => false
            syncPath fun _ => false)
          fun e => do
            tryCatch (unlink false (.child jobId) temporary) fun _ => pure ()
            throw e
        pure (targetPath host jobId stream)) :=
      (keeps_existingSize _ _ _).bind fun existing => (keeps_checkCapacity _ _).bind fun _ =>
        (keeps_createTemp hI hplace _ _ _).bind fun temporary =>
          (((keeps_writeTemporary hI hplace _ _ _).bind fun _ => (keeps_replaceFile hI _ hplace _ _).bind fun _ =>
            (keeps_used hI fun s => s.usedBytes + (data.length - existing)).bind fun _ => (keeps_syncPath _).bind fun _ =>
              keeps_syncPath _).tryCatch fun e => ((keeps_unlink hI _ hplace _).tryCatch fun _ => keeps_pure _).bind fun _ =>
                keeps_throw e).bind fun _ => keeps_pure _
    exact (hrest s hs).mono (fun _ _ h => h.1) fun _ _ h => h.1
  | writeJob stdout stderr =>
    have hjob : jobId ∈ [jobId, stagingName jobId draws.staging] := List.mem_cons_self
    have hg : stagingName jobId draws.staging ∈ [jobId, stagingName jobId draws.staging] := List.mem_cons_of_mem _ List.mem_cons_self
    rw [OutputCall.perform, post_map, writeJob]
    refine post_ite.mpr ⟨fun _ => .refl _ _, fun _ => ?_⟩
    rw [place_child hparent, post_bind]
    refine (post_prepare_working (p := .child jobId) hjob hg (hstart _)).mono (fun _ s hs => ?_) fun _ _ h => h.1
    refine (keeps_working_replace (p := .child jobId) hjob hg ?_ s hs).mono (fun _ _ h => h.1) fun _ _ h => h.1
    exact keeps_working_removal rfl (List.cons_subset.mpr ⟨hg, List.nil_subset _⟩) hjob
  | deleteJob stdoutPath stderrPath =>
    rw [OutputCall.perform, deleteJob]
    refine post_ite.mpr ⟨fun _ => .refl _ _, fun _ => ?_⟩
    simp only [post_bind, post_get, place_child hparent]
    cases t.resolve (.child jobId) with
    | none => exact .refl _ _
    | some resolved =>
      refine post_ite.mpr ⟨fun _ => .refl _ _, fun _ => ?_⟩
      have hI : Stable _ _ (Working [jobId] [] ⟨t, used, []⟩) := stable_working (List.nil_subset _)
      have hremoval : Keeps (Working [jobId] [] ⟨t, used, []⟩) (removeJobDirectory host (fun _ => false) (.child jobId) true) :=
        keeps_working_removal rfl (List.nil_subset _) List.mem_cons_self
      have hbody := (hremoval.bind fun removed => keeps_used hI fun s => s.usedBytes - removed).tryCatch fun e =>
        (keeps_rescan hI false).bind fun _ => keeps_throw e
      exact (hbody _ (hstart [jobId])).mono (fun _ _ h => h.1) fun _ _ h => h.1

/-- A call whose job has no valid name touches nothing. -/
theorem after_of_not_name (hname : isName jobId = false) : c.after host draws jobId t used = ⟨t, used, []⟩ := by
  apply after_of_post (P := fun s' => s' = ⟨t, used, []⟩)
  cases c with
  | write stream data => simp [OutputCall.perform, write, hname]
  | writeJob stdout stderr => simp [OutputCall.perform, writeJob, hname]
  | deleteJob stdoutPath stderrPath => simp [OutputCall.perform, deleteJob, hname]

/-- An operation on a job id that is not `..` is confined. -/
theorem confined_of_ne (hparent : jobId ≠ "..") : c.Confined host draws jobId t used := by
  have hinside : Inside (c.names draws jobId) ⟨t, used, []⟩ (c.after host draws jobId t used) := inside_of_ne hparent
  refine ⟨hinside, fun l hl => ?_⟩
  cases hname : isName jobId with
  | false =>
    rw [after_of_not_name hname] at hl
    cases hl
  | true =>
    have hjob := directChild_of_isName hname hparent
    have hstaging := directChild_stagingName hjob.2.2.2 draws
    obtain hl | ⟨n, hn, rfl⟩ := hinside.touched l hl
    · cases hl
    · refine ⟨n, hn, rfl, ?_⟩
      cases c with
      | write _ _ | deleteJob _ _ =>
        rw [List.mem_singleton.mp hn]
        exact hjob
      | writeJob _ _ =>
        obtain rfl | hn := List.mem_cons.mp hn
        · exact hjob
        · rw [List.mem_singleton.mp hn]
          exact hstaging

end Confined

/-! ## The directory that the root is in -/

section Parent

variable {host : Host} {draws : Draws} {s : FileStore} {l : Location}

/-- To ensure the parent returns where it is private and not shared. -/
theorem post_ensure_parent : Post (ensurePrivateDirectory host (fun _ => false) .parent) s
    (fun _ s' => s' = s ∧ host.shared .parent = false ∧ s.tree.parent.isPrivate = true)
    fun _ s' => s' = s ∧ (host.shared .parent = true ∨ s.tree.parent.isPrivate = false) := by
  cases hshared : host.shared .parent <;> cases hprivate : s.tree.parent.isPrivate <;>
    simp [ensurePrivateDirectory, validatePrivateDirectory, Tree.kind, hshared, hprivate]

/-- The size of a file in the parent. -/
theorem post_existing_parent (name : Name) : Post (existingSize (fun _ => false) .parent name) s
    (fun v s' => s' = s ∧ v = fileBytes (s.tree.parent.entries.lookup name)) fun _ _ => False := by
  simp only [existingSize, post_bind, post_call, post_get, Tree.directory, Tree.locate, Tree.directoryAt, Option.bind_some]
  refine ⟨by simp, fun _ => ?_⟩
  cases s.tree.parent.entries.lookup name with
  | none => simp [fileBytes]
  | some e =>
    cases e with
    | file data => simp [Entry.isFile, Entry.isSymlink, Entry.size, fileBytes]
    | link toFile => cases toFile <;> simp [Entry.isFile, Entry.isSymlink, fileBytes]
    | dir size => simp [Entry.isFile, fileBytes]

/-- The size of the parent is that of its files. -/
theorem post_size_parent : Post (directorySizeLocked (fun _ => false) .parent) s
    (fun v s' => s' = s ∧ v = (s.tree.parent.entries.entries.map fun e => fileBytes (some e.2)).sum) fun _ _ => False := by
  have hloop (entries : List (Sigma fun _ : Name => Entry)) (size : ℕ) :
      Post ((entries.map fun e => (e.1, e.2)).foldlM (childSize fun _ => false) size) s
        (fun v s' => s' = s ∧ v = size + (entries.map fun e => fileBytes (some e.2)).sum) fun _ _ => False := by
    induction entries generalizing size with
    | nil => exact ⟨rfl, rfl⟩
    | cons e entries ih =>
      obtain ⟨name, e⟩ := e
      have hchild : Post (childSize (fun _ => false) size (name, e)) s (fun v s' => s' = s ∧ v = size + fileBytes (some e))
          fun _ _ => False := by
        cases e with
        | file data => simp [childSize, Entry.isFile, Entry.isSymlink, Entry.size, fileBytes]
        | link toFile => cases toFile <;> simp [childSize, Entry.isFile, Entry.isSymlink, fileBytes]
        | dir size => simp [childSize, Entry.isFile, fileBytes]
      rw [List.map_cons, List.foldlM_cons, post_bind]
      refine hchild.mono ?_ fun _ _ h => h
      rintro v s' ⟨rfl, rfl⟩
      refine (ih _).mono (fun v s'' h => ⟨h.1, ?_⟩) fun _ _ h => h
      rw [h.2, List.map_cons, List.sum_cons, Nat.add_assoc]
  simp only [directorySizeLocked, iterdir, post_bind, post_lexists, post_call, post_get, Tree.kind, Tree.directory, Tree.locate,
    Tree.directoryAt, Option.isSome_some, Bool.not_false, Bool.and_self, if_true, post_pure]
  refine ⟨by simp, fun _ => (hloop _ 0).mono (fun v s' h => ⟨h.1, ?_⟩) fun _ _ h => h⟩
  rw [h.2, Nat.zero_add]

/-- The changes of every call keep what was touched. -/
theorem stable_touched (l : Location) : Stable (fun _ => True) (fun _ => True) fun s => l ∈ s.touched where
  used _ _ h := h
  entries _ _ _ _ h := List.mem_append_left _ h
  make _ _ _ _ h := List.mem_append_left _ h
  delete _ _ _ h := List.mem_append_left _ h
  move _ _ _ _ _ _ _ _ h := List.mem_append_left _ h

/-- Every place is allowed where every name is. -/
theorem allowed_true (p : Place) : p.Allowed fun _ => True := by cases p <;> trivial

/-- To remove a directory leaves what was touched touched. -/
theorem keeps_touched_removal (fails : RemoveCall → Bool) (p : Place) (missingOk : Bool) :
    Keeps (fun s => l ∈ s.touched) (removeJobDirectory host fails p missingOk) :=
  keeps_removal (stable_touched l) trivial (allowed_true p) (fun _ h => h) fails missingOk fun s hs =>
    keeps_ensure (stable_touched l) _ (allowed_true p) s hs

/-- A temporary file in the directory that the root is in, unless every name is taken. -/
theorem post_createTemp_parent (stream : Stream) (tokens : List String) :
    Post (createPrivateTempFile (fun _ => false) .parent stream tokens) s
      (fun _ s' => .parent ∈ s'.touched ∧ ¬∀ token ∈ tokens, "." ++ stream.value ++ "." ++ token ∈ s.tree.parent.entries)
      fun _ s' => s' = s ∧ ∀ token ∈ tokens, "." ++ stream.value ++ "." ++ token ∈ s.tree.parent.entries := by
  simp only [createPrivateTempFile, post_bind, post_call, post_get, Tree.kind, Tree.directory, Tree.locate, Tree.directoryAt]
  refine ⟨by simp, fun _ => ?_⟩
  cases hname : (tokens.map fun token => "." ++ stream.value ++ "." ++ token).find? fun name =>
      (s.tree.parent.entries.lookup name).isNone with
  | none =>
    refine ⟨rfl, fun token htoken => ?_⟩
    have hnone := List.find?_eq_none.mp hname _ (List.mem_map_of_mem htoken)
    rw [Option.isNone_iff_eq_none, AList.lookup_eq_none, not_not] at hnone
    exact hnone
  | some name =>
    have hfree : name ∉ s.tree.parent.entries := AList.lookup_eq_none.mp (by simpa using List.find?_some hname)
    obtain ⟨token, htoken, heq⟩ := List.mem_map.mp (List.mem_of_find?_eq_some hname)
    have htaken : ¬∀ token ∈ tokens, "." ++ stream.value ++ "." ++ token ∈ s.tree.parent.entries := fun hall =>
      hfree (heq ▸ hall token htoken)
    simpa [modifyEntries, Tree.locate] using htaken

/-- `write` of the job id `..` changes the directory that the root is in, or raises at once. -/
theorem post_write_parent (t : Tree) (used : Int) (stream : Stream) (data : Bytes) :
    Post (write host (fun _ => false) draws ".." stream data) ⟨t, used, []⟩
      (fun _ s' => .parent ∈ s'.touched ∧ ¬SparesParent host draws t used (.write stream data))
      fun _ s' => s' = ⟨t, used, []⟩ ∧ SparesParent host draws t used (.write stream data) ∨
        .parent ∈ s'.touched ∧ ¬SparesParent host draws t used (.write stream data) := by
  have hname : isName ".." = true := by decide
  simp only [write, hname, place, Bool.not_true, Bool.false_eq_true, if_false, if_true]
  rw [post_bind]
  refine post_ensure_parent.mono ?_ fun _ _ h => .inl ⟨h.1, h.2.elim .inl fun h => .inr (.inl h)⟩
  rintro _ s ⟨rfl, hshared, hprivate⟩
  rw [post_bind]
  refine (post_existing_parent _).mono ?_ fun _ _ => False.elim
  rintro v s ⟨rfl, rfl⟩
  rw [post_bind]
  refine (post_checkCapacity _ _).mono ?_ fun _ _ h => .inl ⟨h.1, .inr (.inr (.inl h.2.2))⟩
  rintro _ s ⟨rfl, hfits⟩
  rw [post_bind]
  refine (post_createTemp_parent stream _).mono ?_ fun _ _ h => .inl ⟨h.1, .inr (.inr (.inr h.2))⟩
  rintro temporary s ⟨htouched, hfree⟩
  have hspares : ¬SparesParent host draws t used (.write stream data) := by
    rintro (h | h | h | h)
    · simp [hshared] at h
    · simp [h] at hprivate
    · exact h hfits
    · exact hfree h
  have hI := stable_touched .parent
  have hrest (existing : ℕ) : Keeps (fun s : FileStore => .parent ∈ s.touched) (do
      tryCatch (do
          writeTemporary (fun _ => false) .parent temporary data
          replaceFile false .parent temporary (binName stream)
          modify fun s => { s with usedBytes := s.usedBytes + (data.length - existing) }
          syncPath fun _ => false
          syncPath fun _ => false)
        fun e => do
          tryCatch (unlink false .parent temporary) fun _ => pure ()
          throw e
      pure (targetPath host ".." stream)) :=
    (((keeps_writeTemporary hI trivial _ _ _).bind fun _ => (keeps_replaceFile hI _ trivial _ _).bind fun _ =>
      (keeps_used hI fun s => s.usedBytes + (data.length - existing)).bind fun _ => (keeps_syncPath _).bind fun _ =>
        keeps_syncPath _).tryCatch fun e => ((keeps_unlink hI _ trivial _).tryCatch fun _ => keeps_pure _).bind fun _ =>
          keeps_throw e).bind fun _ => keeps_pure _
  exact (hrest _ s htouched).mono (fun _ _ h => ⟨h, hspares⟩) fun _ _ h => .inr ⟨h, hspares⟩

/-- The removal of the directory that the root is in raises at a first entry that is a directory, and at an empty one. -/
theorem keeps_parent_removal {names checked : List Name} {s₀ : FileStore} (hchecked : checked ⊆ names)
    (hhead : StartsWithDirectory s₀.tree.parent) :
    Keeps (Working names checked s₀) (removeJobDirectory host (fun _ => false) .parent false) := by
  intro s hs
  have hI : Stable _ _ (Working names checked s₀) := stable_working hchecked
  simp only [removeJobDirectory, post_bind, post_lexists, Tree.kind, Option.isSome_some, Bool.not_false, Bool.and_self, if_true]
  refine (keeps_ensure hI _ (p := .parent) trivial s hs).mono (fun _ s hs => ?_) fun _ _ h => h
  simp only [post_bind, post_tryCatch, post_map, iterdir, post_call, post_get, Tree.directory, Tree.locate, Tree.directoryAt, post_pure]
  refine ⟨by simp, fun _ => ?_⟩
  rw [hs.1.parent]
  cases hentries : s₀.tree.parent.entries.entries with
  | nil => simp [rmdir, hs]
  | cons e entries =>
    obtain ⟨name, e⟩ := e
    obtain ⟨size, rfl⟩ := hhead ⟨name, e⟩ (by rw [hentries]; rfl)
    simp [removeChild, Entry.isFile, Entry.isSymlink, hs]

/-- At a first entry of another kind it removes it. -/
theorem post_parent_removal (hshared : host.shared .parent = false) (hprivate : s.tree.parent.isPrivate = true)
    (hhead : ¬StartsWithDirectory s.tree.parent) :
    Post (removeJobDirectory host (fun _ => false) .parent false) s (fun _ s' => .parent ∈ s'.touched) fun _ s' =>
      .parent ∈ s'.touched := by
  simp only [removeJobDirectory, post_bind, post_lexists, Tree.kind, Option.isSome_some, Bool.not_false, Bool.and_self, if_true]
  refine post_ensure_parent.mono ?_ fun _ _ h => ?_
  · rintro _ s ⟨rfl, -⟩
    simp only [post_bind, post_tryCatch, post_map, iterdir, post_call, post_get, Tree.directory, Tree.locate, Tree.directoryAt, post_pure]
    refine ⟨by simp, fun _ => ?_⟩
    cases hentries : s.tree.parent.entries.entries with
    | nil => exact absurd (fun e he => by rw [hentries] at he; cases he) hhead
    | cons e entries =>
      obtain ⟨name, e⟩ := e
      have hlookup : s.tree.parent.entries.lookup name = some e := by
        change s.tree.parent.entries.entries.dlookup name = some e
        rw [hentries]
        exact List.dlookup_cons_eq _ _ _
      have hfirst : Post (removeChild (fun _ => false) .parent 0 (name, e)) s (fun _ s' => .parent ∈ s'.touched) fun _ s' =>
          .parent ∈ s'.touched := by
        cases e with
        | file data => simp [removeChild, Entry.isFile, Entry.isSymlink, unlink, Tree.directory, Tree.locate, Tree.directoryAt, hlookup,
            modifyEntries]
        | link toFile => cases toFile <;> simp [removeChild, Entry.isFile, Entry.isSymlink, unlink, Tree.directory, Tree.locate,
            Tree.directoryAt, hlookup, modifyEntries]
        | dir size =>
          refine absurd (fun e he => ?_) hhead
          rw [hentries] at he
          cases he
          exact ⟨size, rfl⟩
      have hI := stable_touched .parent
      have hrest (removed : ℕ) : Keeps (fun s : FileStore => .parent ∈ s.touched) (do
          let removed ← (entries.map fun e => (e.1, e.2)).foldlM (removeChild (fun _ => false) .parent) removed
          rmdir false .parent
          pure removed) :=
        (keeps_foldlM (keeps_removeChild hI _ trivial) _ _).bind fun _ => (keeps_rmdir hI _ (allowed_true _)).bind fun _ => keeps_pure _
      simp only [List.map_cons, List.foldlM_cons, post_bind]
      refine hfirst.mono (fun removed s' h => ?_) fun _ _ h => h
      have hpost := hrest removed s' h
      simp only [post_bind] at hpost
      exact hpost
  · simp [hshared, hprivate] at h

/-- `write_job` of the job id `..` up to the staging directory. -/
theorem post_prepare_parent {g : Name} {stdout stderr : Bytes} (hfresh : s.child g = none) :
    Post (prepare host (fun _ => false) .parent (.child g) stdout stderr) s
      (fun _ s' => Sets g (some (.dir ⟨true, ∅⟩)) s s' ∧ host.shared .parent = false ∧ s.tree.parent.isPrivate = true ∧
        Fits host s ((s.tree.parent.entries.entries.map fun e => fileBytes (some e.2)).sum) (stdout.length + stderr.length) ∧
        host.shared (.child g) = false ∧ host.accepts g = true)
      fun _ s' => s' = s ∧ (host.shared .parent = true ∨ s.tree.parent.isPrivate = false ∨
        ¬Fits host s ((s.tree.parent.entries.entries.map fun e => fileBytes (some e.2)).sum) (stdout.length + stderr.length) ∨
        host.shared (.child g) = true ∨ host.accepts g = false) := by
  simp only [prepare, post_bind, post_lexists, Tree.kind, Option.isSome_some, Bool.not_false, Bool.and_self, if_true]
  refine post_ensure_parent.mono ?_ fun _ _ h => ⟨h.1, h.2.elim .inl fun h => .inr (.inl h)⟩
  rintro _ s ⟨rfl, hshared, hprivate⟩
  refine post_size_parent.mono ?_ fun _ _ => False.elim
  rintro v s ⟨rfl, rfl⟩
  refine (post_checkCapacity _ _).mono ?_ fun _ _ h => ⟨h.1, .inr (.inr (.inl h.2.2))⟩
  rintro _ s ⟨rfl, hfits⟩
  refine (post_ensure_new _ hfresh).mono ?_ ?_
  · rintro _ s' ⟨hset, hshared', haccepts, -⟩
    exact ⟨hset, hshared, hprivate, hfits, hshared', haccepts⟩
  · rintro _ s' (⟨rfl, h | h | h⟩ | ⟨-, -, -, h⟩)
    · exact ⟨rfl, .inr (.inr (.inr (.inl h)))⟩
    · exact ⟨rfl, .inr (.inr (.inr (.inr h)))⟩
    · cases h
    · simp at h

/-- What `write_job` of the job id `..` comes to: it touches the staging directory only, or the directory that the root is in too. -/
theorem post_writeJob_parent {t : Tree} {used : Int} {stdout stderr : Bytes}
    (hfresh : t.children.lookup (stagingName ".." draws.staging) = none) :
    let P (s' : FileStore) : Prop :=
      Inside [stagingName ".." draws.staging] ⟨t, used, []⟩ s' ∧ SparesParent host draws t used (.writeJob stdout stderr) ∨
        .parent ∈ s'.touched ∧ ¬SparesParent host draws t used (.writeJob stdout stderr)
    Post (writeJob host (fun _ => false) draws ".." stdout stderr) ⟨t, used, []⟩ (fun _ s' => P s') fun _ s' => P s' := by
  intro P
  have hname : isName ".." = true := by decide
  have hg : stagingName ".." draws.staging ∈ [stagingName ".." draws.staging] := List.mem_cons_self
  simp only [writeJob, hname, place, Bool.not_true, Bool.false_eq_true, if_false, if_true]
  rw [post_bind]
  have hworking : Post (prepare host (fun _ => false) .parent (.child (stagingName ".." draws.staging)) stdout stderr) ⟨t, used, []⟩
      (fun _ => Working _ _ ⟨t, used, []⟩) fun _ => Working _ _ ⟨t, used, []⟩ :=
    post_prepare_working trivial hg ⟨.refl _ _, by simp⟩
  refine ((post_prepare_parent (s := ⟨t, used, []⟩) hfresh).and hworking).mono ?_ ?_
  · rintro _ s ⟨⟨hset, hshared, hprivate, hfits, hshared', haccepts⟩, hs⟩
    by_cases hhead : StartsWithDirectory t.parent
    · have hspares : SparesParent host draws t used (.writeJob stdout stderr) := .inr (.inr (.inr (.inr (.inr hhead))))
      exact (keeps_working_replace (p := .parent) trivial hg (keeps_parent_removal (List.Subset.refl _) hhead) s hs).mono
        (fun _ _ h => .inl ⟨h.1, hspares⟩) fun _ _ h => .inl ⟨h.1, hspares⟩
    · have hspares : ¬SparesParent host draws t used (.writeJob stdout stderr) := by
        rintro (h | h | h | h | h | h)
        · simp [hshared] at h
        · simp [h] at hprivate
        · exact h hfits
        · simp [hshared'] at h
        · simp [haccepts] at h
        · exact hhead h
      have hI := stable_touched .parent
      have hrename : Keeps (fun s : FileStore => .parent ∈ s.touched) (do
          replaceDirectory host false (stagingName ".." draws.staging) .parent
          modify fun s : FileStore => { s with usedBytes := s.usedBytes + (stdout.length + stderr.length) }
          syncPath fun _ => false) :=
        (keeps_replaceDirectory hI _ trivial trivial (allowed_true _)).bind fun _ =>
          (keeps_used hI fun s => s.usedBytes + (stdout.length + stderr.length)).bind fun _ => keeps_syncPath _
      have hhandler (e : OsError) : Keeps (fun s : FileStore => .parent ∈ s.touched) (do
          let _ ← removeJobDirectory host (fun _ => false) (.child (stagingName ".." draws.staging)) true
          rescan false
          throw e : Op Unit) :=
        (keeps_touched_removal _ _ _).bind fun _ => (keeps_rescan hI _).bind fun _ => keeps_throw e
      have hlast (s : FileStore) (h : .parent ∈ s.touched) : P s := .inr ⟨h, hspares⟩
      have hbody : Post (do
          stageStreams (fun _ => false) draws (.child (stagingName ".." draws.staging)) stdout stderr
          publish host (fun _ => false) .parent (stagingName ".." draws.staging) stdout stderr) s
          (fun _ s' => .parent ∈ s'.touched) fun _ s' => .parent ∈ s'.touched := by
        rw [post_bind]
        refine (post_stageStreams draws hset.child).mono ?_ ?_
        on_goal 2 =>
          rintro _ _ ⟨-, c, hfails, -⟩
          cases hfails
        intro _ s₂ hset₂
        have hparent : s₂.tree.parent = t.parent := hset₂.parent.trans hset.parent
        simp only [publish, post_bind, post_call, post_get, Tree.leadsSomewhere, Tree.locate, if_true]
        refine ⟨by simp, fun _ => ?_⟩
        refine (post_parent_removal hshared (hparent ▸ hprivate) (hparent ▸ hhead)).mono (fun removed s₃ h => ?_) fun _ _ h => h
        have hrest := hrename { s₃ with usedBytes := s₃.usedBytes - removed } h
        simp only [post_bind] at hrest
        exact hrest
      rw [post_bind, post_tryCatch]
      exact hbody.mono (fun _ s' h => hlast s' h) fun e s' h => (hhandler e s' h).mono (fun _ s'' h => hlast s'' h) fun _ s'' h =>
        hlast s'' h
  · rintro _ s ⟨⟨rfl, h⟩, -⟩
    refine .inl ⟨.refl _ _, ?_⟩
    obtain h | h | h | h | h := h
    · exact .inl h
    · exact .inr (.inl h)
    · exact .inr (.inr (.inl h))
    · exact .inr (.inr (.inr (.inl h)))
    · exact .inr (.inr (.inr (.inr (.inl h))))

end Parent

/-- An operation is confined exactly when its job id is not `..`, or it raises before it changes the directory that the root is in. -/
theorem confined_iff (host : Host) (draws : Draws) (jobId : String) (c : OutputCall) (t : Tree) (used : Int)
    (hfresh : jobId = ".." → t.children.lookup (stagingName jobId draws.staging) = none) :
    c.Confined host draws jobId t used ↔ jobId ≠ ".." ∨ SparesParent host draws t used c := by
  by_cases hparent : jobId = ".."
  · subst hparent
    have hstaging : DirectChild (stagingName ".." draws.staging) := directChild_stagingName (by decide) draws
    have hescaped {names : List Name} {s' : FileStore} (h : .parent ∈ s'.touched) :
        ¬∀ l ∈ s'.touched, ∃ n ∈ names, l = .child n ∧ DirectChild n := fun hall => by
      obtain ⟨n, -, h, -⟩ := hall .parent h
      cases h
    rw [or_iff_right (not_not_intro rfl)]
    cases c with
    | write stream data =>
      apply after_of_post (P := fun s' => OnlyTouched _ _ s' ↔ _)
      rw [OutputCall.perform, post_map]
      refine (post_write_parent t used stream data).mono (fun _ s' h => ?_) fun _ s' h => ?_
      · exact iff_of_false (fun hc => hescaped h.1 hc.2) h.2
      · obtain ⟨rfl, hspares⟩ | h := h
        · exact iff_of_true ⟨.refl _ _, nofun⟩ hspares
        · exact iff_of_false (fun hc => hescaped h.1 hc.2) h.2
    | writeJob stdout stderr =>
      have hiff {s' : FileStore} (h : Inside [stagingName ".." draws.staging] ⟨t, used, []⟩ s' ∧
          SparesParent host draws t used (.writeJob stdout stderr) ∨
            .parent ∈ s'.touched ∧ ¬SparesParent host draws t used (.writeJob stdout stderr)) :
          OnlyTouched ["..", stagingName ".." draws.staging] ⟨t, used, []⟩ s' ↔
            SparesParent host draws t used (.writeJob stdout stderr) := by
        obtain ⟨hinside, hspares⟩ | h := h
        · have htouched (l : Location) (hl : l ∈ s'.touched) : l = .child (stagingName ".." draws.staging) := by
            obtain hl | ⟨n, hn, rfl⟩ := hinside.touched l hl
            · cases hl
            · rw [List.mem_singleton.mp hn]
          have hmem : stagingName ".." draws.staging ∈ ["..", stagingName ".." draws.staging] := List.mem_cons_of_mem _ List.mem_cons_self
          refine iff_of_true ⟨⟨fun l hl => .inr ⟨_, hmem, htouched l hl⟩, hinside.parent, hinside.outside, fun n hn => ?_⟩,
            fun l hl => ⟨_, hmem, htouched l hl, hstaging⟩⟩ hspares
          exact hinside.others n fun h => hn (List.mem_cons_of_mem _ h)
        · exact iff_of_false (fun hc => hescaped h.1 hc.2) h.2
      apply after_of_post (P := fun s' => OnlyTouched _ _ s' ↔ _)
      rw [OutputCall.perform, post_map]
      exact (post_writeJob_parent (hfresh rfl)).mono (fun _ _ h => hiff h) fun _ _ h => hiff h
    | deleteJob stdoutPath stderrPath =>
      apply after_of_post (P := fun s' => OnlyTouched _ _ s' ↔ _)
      have hname : isName ".." = true := by decide
      simp only [OutputCall.perform, deleteJob, hname, place, Bool.not_true, Bool.false_eq_true, if_false, if_true, post_bind, post_get,
        Tree.resolve, post_throw]
      exact iff_of_true ⟨.refl _ _, nofun⟩ trivial
  · exact iff_of_true (confined_of_ne hparent) (.inl hparent)

namespace Sample

/-- A root with one job, in a directory with a file beside it. -/
def nested : Tree :=
  ⟨AList.insert "job" (.dir (published [1] [2])) ∅, ⟨true, (AList.insert "output" (.dir 2) ∅).insert "notes" (.file [7])⟩, fun _ => none⟩

end Sample

/-- A call that replaces a nested output is confined. -/
theorem confined_replacing : (OutputCall.writeJob [3] [4]).Confined Sample.host Sample.draws "job" Sample.nested 2 :=
  (confined_iff Sample.host Sample.draws "job" (.writeJob [3] [4]) Sample.nested 2 fun h => absurd h (by decide)).mpr (.inl (by decide))

/-- With the job id `..`, `write` makes a file beside the root, and `write_job` deletes one that is there. -/
theorem parent_escapes :
    ¬(OutputCall.write .stdout [3]).Confined Sample.host Sample.draws ".." Sample.nested 2 ∧
    ¬(OutputCall.writeJob [3] [4]).Confined Sample.host Sample.draws ".." Sample.nested 2 ∧
    ((OutputCall.writeJob [3] [4]).after Sample.host Sample.draws ".." Sample.nested 2).tree.parent.entries.lookup "notes" = none := by
  refine ⟨fun h => ?_, fun h => ?_, by decide⟩
  · obtain ⟨n, -, heq, -⟩ := h.2 .parent (by decide)
    cases heq
  · obtain ⟨n, -, heq, -⟩ := h.2 .parent (by decide)
    cases heq

end OutputFiles

end SharkRail
