import SharkRail.Lemmas.WriteJobParent

/-!
# Replacing the output of a job

`write_job` is all or nothing except at the calls that are exposed: when the final rename fails after the old directory was removed, nothing
is left; when a call of the removal fails after the first file, a part; when the sync of the root fails, the new files are there although
the call raised; and when a call that secures the fresh staging directory fails, that directory stays. The job id `..` names the directory
that the root is in, from which the call removes what is listed before the first directory, unless something makes it raise before.
-/

namespace SharkRail

namespace OutputFiles

open Effectful

/-- The directory of a job. -/
def entryAt (t : Tree) : Place → Option Child
  | .parent => some (.dir t.parent)
  | .child n => t.children.lookup n

/-- What a call of `write_job` that returned or raised must leave. -/
def AllOrNothing (jobId : String) (staging : Name) (stdout stderr : Bytes) (s : FileStore) :
    EStateM.Result OsError FileStore (String × String) → Prop
  | .ok _ s' => entryAt s'.tree (place jobId) = some (.dir (published stdout stderr)) ∧ s'.child staging = none
  | .error _ s' => AsBefore (entryAt s.tree (place jobId)) (entryAt s'.tree (place jobId)) ∧ s'.child staging = none

section Parts

variable {host : Host} {fails : WriteJobCall → Bool} {draws : Draws} {jobId : String} {stdout stderr : Bytes} {s : FileStore}

/-- Of a job id that names an entry of the root. -/
theorem allOrNothing_job (hparent : jobId ≠ "..") (hold : JobEntry (s.child jobId))
    (hfresh : s.child (stagingName jobId draws.staging) = none) (hone : AtMostOne fails) :
    AllOrNothing jobId (stagingName jobId draws.staging) stdout stderr s (writeJob host fails draws jobId stdout stderr s) ↔
      isName jobId = false ∨ Refused host s jobId (stagingName jobId draws.staging) (stdout.length + stderr.length) ∨
        ∀ c, Exposed (s.child jobId) (published stdout stderr) c → fails c = false := by
  cases hname : isName jobId with
  | false =>
    have hrun : writeJob host fails draws jobId stdout stderr s = .error (.osError "invalid output Job ID") s := by
      rw [writeJob, hname]
      rfl
    rw [hrun]
    refine iff_of_true ⟨?_, hfresh⟩ (.inl rfl)
    rw [place_child hparent]
    exact .refl hold
  | true =>
    have hpost := post_writeJob host draws stdout stderr hname hparent hold hfresh hone
    unfold Post at hpost
    cases hrun : writeJob host fails draws jobId stdout stderr s with
    | ok paths s' =>
      rw [hrun] at hpost
      obtain ⟨hpair, -, -, hok⟩ := hpost
      refine iff_of_true ⟨?_, hpair.second⟩ (.inr (.inr hok))
      rw [place_child hparent]
      exact hpair.first
    | error e s' =>
      rw [hrun] at hpost
      obtain ⟨cj, cg, hraised⟩ := hpost
      simp only [AllOrNothing, place_child hparent, entryAt, hraised.pair.first]
      rw [show s'.child _ = cg from hraised.pair.second]
      obtain ⟨hbefore, hcg, hcause⟩ | ⟨hbroken, hnot, c, hfails, hexposed⟩ := hraised.cause
      · refine iff_of_true ⟨hbefore, hcg⟩ (.inr ?_)
        refine hcause.imp_right ?_
        rintro ⟨c, hfails, hnot⟩ c' hexposed
        by_contra hfails'
        exact hnot (hone c c' hfails (by simpa using hfails') ▸ hexposed)
      · refine iff_of_false (fun h => ?_) (fun h => ?_)
        · exact hbroken.elim (fun hbefore => hbefore h.1) fun hcg => hcg h.2
        · obtain h | h | h := h
          · cases h
          · exact hnot h
          · rw [h c hexposed] at hfails
            cases hfails

/-- Of the job id `..`, with which it never returns. -/
theorem allOrNothing_parent (hfresh : s.child (stagingName ".." draws.staging) = none) (hone : AtMostOne fails) :
    AllOrNothing ".." (stagingName ".." draws.staging) stdout stderr s (writeJob host fails draws ".." stdout stderr s) ↔
      isName ".." = false ∨
      (".." : String) ≠ ".." ∧ (Refused host s ".." (stagingName ".." draws.staging) (stdout.length + stderr.length) ∨
        ∀ c, Exposed (s.child "..") (published stdout stderr) c → fails c = false) ∨
      (".." : String) = ".." ∧ ParentSpared host fails s (stagingName ".." draws.staging) (stdout.length + stderr.length) := by
  have hname : isName ".." = true := by decide
  have hpost : Post (writeJob host fails draws ".." stdout stderr) s (fun _ _ => False) fun _ s' =>
      Left (stagingName ".." draws.staging) s s' ↔
        ParentSpared host fails s (stagingName ".." draws.staging) (stdout.length + stderr.length) :=
    post_writeJob_at_parent hone hfresh
  unfold Post at hpost
  cases hrun : writeJob host fails draws ".." stdout stderr s with
  | ok paths s' =>
    rw [hrun] at hpost
    exact hpost.elim
  | error e s' =>
    rw [hrun] at hpost
    simp only [hname, Bool.true_eq_false, ne_eq, not_true_eq_false, false_and, false_or, true_and]
    exact hpost

end Parts

/-- `write_job` is all or nothing exactly when it refuses, or no exposed call fails; of the job id `..`, exactly when something spares the
directory that the root is in and the staging directory is removed. -/
theorem writeJob_allOrNothing (host : Host) (fails : WriteJobCall → Bool) (draws : Draws) (jobId : String) (stdout stderr : Bytes)
    (s : FileStore) (hold : jobId ≠ ".." → JobEntry (s.child jobId)) (hfresh : s.child (stagingName jobId draws.staging) = none)
    (hone : AtMostOne fails) :
    AllOrNothing jobId (stagingName jobId draws.staging) stdout stderr s (writeJob host fails draws jobId stdout stderr s) ↔
      isName jobId = false ∨
      jobId ≠ ".." ∧ (Refused host s jobId (stagingName jobId draws.staging) (stdout.length + stderr.length) ∨
        ∀ c, Exposed (s.child jobId) (published stdout stderr) c → fails c = false) ∨
      jobId = ".." ∧ ParentSpared host fails s (stagingName jobId draws.staging) (stdout.length + stderr.length) := by
  by_cases hparent : jobId = ".."
  · subst hparent
    exact allOrNothing_parent hfresh hone
  · rw [allOrNothing_job hparent (hold hparent) hfresh hone]
    simp [hparent]

namespace Sample

def host : Host := ⟨"/output", 100, fun _ => false, 255, fun _ _ => none⟩

def draws : Draws := ⟨"0", by decide, fun _ => ["1"], by simp⟩

/-- A root with one job, whose streams have a byte each. -/
def tree : Tree := ⟨AList.insert "job" (.dir (published [1] [2])) ∅, ⟨true, ∅⟩, fun _ => none⟩

def store : FileStore := ⟨tree, 2, []⟩

theorem jobEntry : JobEntry (store.child "job") := .inr ⟨_, rfl, plain_published [1] [2]⟩

theorem atMostOne {Call : Type} [DecidableEq Call] (call : Call) : AtMostOne fun c => decide (c = call) := by
  intro c c' hc hc'
  rw [decide_eq_true_eq] at hc hc'
  rw [hc, hc']

end Sample

theorem writeJob_replaces : AllOrNothing "job" (stagingName "job" "0") [3] [4] Sample.store
    (writeJob Sample.host (fun _ => false) Sample.draws "job" [3] [4] Sample.store) :=
  (writeJob_allOrNothing Sample.host (fun _ => false) Sample.draws "job" [3] [4] Sample.store (fun _ => Sample.jobEntry) rfl
    fun _ _ h => nomatch h).mpr (.inr (.inl ⟨by decide, .inr fun _ _ => rfl⟩))

/-- The final rename fails after the old directory was removed: nothing is left of the job. -/
theorem rename_loses_old_output : JobEntry (Sample.store.child "job") ∧ AtMostOne (fun c : WriteJobCall => decide (c = .replace)) ∧
    ¬AllOrNothing "job" (stagingName "job" "0") [3] [4] Sample.store
      (writeJob Sample.host (fun c => decide (c = .replace)) Sample.draws "job" [3] [4] Sample.store) :=
  ⟨Sample.jobEntry, Sample.atMostOne _, fun h => h.1⟩

end OutputFiles

end SharkRail
