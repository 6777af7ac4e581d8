import SharkRail.Lemmas.Refusals
import SharkRail.Lib.Machine
import SharkRail.Theorems.OutputReplacement

/-!
# The quota of the output store

Over every run of the four methods with at most one failing call in each, the account is the size of the tree, the tree stays within the
quota, and no write that fits is refused, as long as no step loses the account: a write of the job id `..`, whose bytes are counted and are
not under the root; a reconciliation whose last scan fails, which leaves the account of the tree before; and a `write_job` that fails to
see its directory when it counts what it replaces, which refuses what fits.
-/

namespace SharkRail

namespace OutputFiles

open Effectful

/-- A call of a method, with the system calls of it that fail and the tokens that it draws. -/
inductive StoreCall where
  | write (fails : WriteCall → Bool) (draws : Draws) (jobId : String) (stream : Stream) (data : Bytes)
  | writeJob (fails : WriteJobCall → Bool) (draws : Draws) (jobId : String) (stdout stderr : Bytes)
  | reconcile (fails : ReconcileCall → Bool) (referenced : List Name)
  | deleteJob (fails : DeleteJobCall → Bool) (jobId : String) (stdoutPath stderrPath : Option String)

namespace StoreCall

/-- The call, without the value that it returns. -/
def perform (host : Host) : StoreCall → Op Unit
  | .write fails draws jobId stream data => (fun _ => ()) <$> OutputFiles.write host fails draws jobId stream data
  | .writeJob fails draws jobId stdout stderr => (fun _ => ()) <$> OutputFiles.writeJob host fails draws jobId stdout stderr
  | .reconcile fails referenced => (fun _ => ()) <$> OutputFiles.reconcile host fails referenced
  | .deleteJob fails jobId stdoutPath stderrPath => OutputFiles.deleteJob host fails jobId stdoutPath stderrPath

/-- The state after a call, whether it returned or raised. -/
def step (host : Host) (s : FileStore) (c : StoreCall) : FileStore :=
  match c.perform host s with
  | .ok _ s' => s'
  | .error _ s' => s'

/-- The bytes under the root that a write replaces. -/
def existing (t : Tree) : StoreCall → ℕ
  | .write _ _ jobId stream _ => existingBytes (t.children.lookup jobId) (binName stream)
  | .writeJob _ _ jobId _ _ => childBytes (t.children.lookup jobId)
  | .reconcile _ _ | .deleteJob _ _ _ _ => 0

/-- The bytes that a write writes. -/
def new : StoreCall → ℕ
  | .write _ _ _ _ data => data.length
  | .writeJob _ _ _ stdout stderr => stdout.length + stderr.length
  | .reconcile _ _ | .deleteJob _ _ _ _ => 0

end StoreCall

/-- A write into the directory of a job keeps the account. -/
theorem Wrote.accounted {host : Host} {s s' : FileStore} {j : Name} {existing new : ℕ} (hs : Accounted s)
    (h : Wrote j existing new host s s') : Accounted s' := by
  obtain ⟨c, hc, hset⟩ := h.set
  refine ⟨hset.wellFormed hs.wellFormed hc.plain, ?_⟩
  have hused := h.used
  rw [hs.used] at hused
  omega

/-- A pair of entries that are absent or directories of regular files leaves a well-formed tree. -/
theorem Pair.wellFormed {j g : Name} {cj cg : Option Child} {t t' : Tree} (h : Pair j g cj cg t t') (ht : WellFormed t) (hcj : JobEntry cj)
    (hcg : JobEntry cg) : WellFormed t' := by
  intro m c hm
  by_cases hj : m = j
  · subst hj
    exact hcj.plain c (h.first ▸ hm)
  · by_cases hg : m = g
    · subst hg
      exact hcg.plain c (h.second ▸ hm)
    · exact ht m c ((h.others m hj hg).symm.trans hm)

namespace Sample

theorem accounted : Accounted store := by
  refine ⟨fun n c hc => ?_, rfl⟩
  by_cases hn : n = "job"
  · subst hn
    rw [store, tree, AList.lookup_insert, Option.some_inj] at hc
    exact ⟨_, hc.symm, plain_published [1] [2]⟩
  · rw [store, tree, AList.lookup_insert_ne hn] at hc
    cases hc

/-- A staging directory that a crash left, with a byte in it. -/
def leftover : Name := ".job_00000000000000000000000000000000.0000000000000000.tmp"

def crashed : FileStore := ⟨⟨AList.insert leftover (.dir (published [1] [])) ∅, ⟨true, ∅⟩, fun _ => none⟩, 1, []⟩

end Sample

end OutputFiles

end SharkRail
