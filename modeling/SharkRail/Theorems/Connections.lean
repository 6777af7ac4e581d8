import Mathlib
import SharkRail.Lib.Machine
import SharkRail.Service.Handlers

/-!
# The slots of a server

A connection holds a slot for requests from its acceptance to the end of its thread, and its handler holds one for submissions while a
submission runs. What the connections hold accounts for both semaphores in every state, whatever the order in which they take turns.
-/

namespace SharkRail

namespace Service

/-- A connection holds a slot for submissions just while its handler has one to give back, and no handler runs before its thread. -/
structure JobConnection.Consistent (connection : JobConnection) : Prop where
  holds : connection.submission.isSome = true ↔ connection.slotCalls = [.acquired]
  waits : connection.started = false → connection.slotCalls = []

theorem JobConnection.Consistent.submission {connection : JobConnection} (h : connection.Consistent)
    (hcalls : connection.slotCalls ≠ [.acquired]) : connection.submission = none := by
  rw [← Option.not_isSome_iff_eq_none, h.holds]
  exact hcalls

namespace JobHTTPServer

open BoundedSemaphore

variable {s s' : JobHTTPServer} {connection : JobConnection} {k limit : ℕ}

/-- The slots that the connections hold: for requests, and for submissions. -/
def requestsHeld (s : JobHTTPServer) : List ℕ := s.connections.flatMap fun connection => [connection.slot]

def submissionsHeld (s : JobHTTPServer) : List ℕ := s.connections.flatMap fun connection => connection.submission.toList

/-- What is held accounts for both semaphores, and no release raised. -/
structure Conserved (limit : ℕ) (s : JobHTTPServer) : Prop where
  bound : s.requestSlots.bound = limit
  submissionBound : s.submissionSlots.bound = max 1 (limit - 1)
  requests : Accounts s.requestsHeld s.requestSlots
  submissions : Accounts s.submissionsHeld s.submissionSlots
  consistent : ∀ connection ∈ s.connections, connection.Consistent
  neverOver : s.overReleased = false

theorem conserved_create (limit : ℕ) : Conserved limit (create limit) where
  bound := rfl
  submissionBound := rfl
  requests := accounts_new _
  submissions := accounts_new _
  consistent := by simp [create]
  neverOver := rfl

/-- A connection is replaced by one with the same slot for requests, and the slots for submissions change hands. -/
theorem Conserved.set (h : Conserved limit s) (hk : s.connections[k]? = some connection) :
    ∃ rest, Accounts (connection.submission.toList ++ rest) s.submissionSlots ∧
      ∀ connection' submissionSlots, connection'.slot = connection.slot →
        connection'.Consistent →
        submissionSlots.bound = s.submissionSlots.bound → Accounts (connection'.submission.toList ++ rest) submissionSlots →
          Conserved limit { s with submissionSlots, connections := s.connections.set k connection' } := by
  obtain ⟨rest, hbefore, hafter, -⟩ := List.exists_flatMap_rest (fun connection : JobConnection => connection.submission.toList) hk
  obtain ⟨others, hothers, hreplaced, -⟩ := List.exists_flatMap_rest (fun connection : JobConnection => [connection.slot]) hk
  refine ⟨rest, h.submissions.perm hbefore.symm, fun connection' submissionSlots hslot hconsistent hbound haccounts => ?_⟩
  refine ⟨h.bound, hbound.trans h.submissionBound, ?_, haccounts.perm (hafter connection'), fun c hc => ?_, h.neverOver⟩
  · refine h.requests.perm ((hreplaced connection').trans ?_)
    rw [hslot]
    exact hothers.symm
  · rcases List.mem_or_eq_of_mem_set hc with hc | rfl
    · exact h.consistent c hc
    · exact hconsistent

/-- A connection that holds no slot for a submission goes, and gives its slot for requests back. -/
theorem Conserved.releaseRequest (h : Conserved limit s) (hk : s.connections[k]? = some connection)
    (hsubmission : connection.submission = none) : Conserved limit (s.releaseRequest k connection.slot) := by
  obtain ⟨rest, hbefore, -, hgone⟩ := List.exists_flatMap_rest (fun connection : JobConnection => connection.submission.toList) hk
  obtain ⟨others, hothers, -, herased⟩ := List.exists_flatMap_rest (fun connection : JobConnection => [connection.slot]) hk
  obtain ⟨requestSlots, hrelease, haccounts, hbound⟩ := (h.requests.perm hothers.symm).release
  rw [hsubmission] at hbefore
  unfold JobHTTPServer.releaseRequest
  rw [hrelease]
  refine ⟨hbound.trans h.bound, h.submissionBound, haccounts.perm herased, ?_, fun c hc => ?_, h.neverOver⟩
  · exact h.submissions.perm (hgone.trans hbefore.symm)
  · exact h.consistent c (List.mem_of_mem_eraseIdx hc)

theorem Conserved.connect (h : Conserved limit s) : Conserved limit (s.step .connect) := by
  simp only [step]
  split
  · rename_i slot requestSlots hacquire
    refine ⟨(bound_of_acquire hacquire).trans h.bound, h.submissionBound, ?_, ?_, fun c hc => ?_, h.neverOver⟩
    · have hperm : (s.requestsHeld ++ [slot]).Perm (slot :: s.requestsHeld) := List.perm_append_singleton _ _
      simpa [requestsHeld] using (h.requests.acquire hacquire).perm hperm
    · simpa [submissionsHeld] using h.submissions
    · rcases List.mem_append.1 hc with hc | hc
      · exact h.consistent c hc
      · rw [List.mem_singleton.1 hc]
        exact ⟨by simp, fun _ => rfl⟩
  · exact ⟨h.bound, h.submissionBound, h.requests, h.submissions, h.consistent, h.neverOver⟩

theorem Conserved.startThread (h : Conserved limit s) (k : ℕ) (started : Bool) : Conserved limit (s.step (.startThread k started)) := by
  simp only [step]
  split
  · rename_i connection hk
    have hconsistent := h.consistent connection (List.mem_of_getElem? hk)
    split
    · exact h
    · rename_i hwaiting
      have hcalls := hconsistent.waits (by simpa using hwaiting)
      split
      · obtain ⟨rest, haccounts, hgo⟩ := h.set hk
        exact hgo { connection with started := true } s.submissionSlots rfl ⟨hconsistent.holds, by simp⟩ rfl haccounts
      · exact h.releaseRequest hk (hconsistent.submission (by simp [hcalls]))
  · exact h

theorem Conserved.acquireSubmission (h : Conserved limit s) (k : ℕ) : Conserved limit (s.step (.acquireSubmission k)) := by
  simp only [step]
  split
  · rename_i connection hk
    have hconsistent := h.consistent connection (List.mem_of_getElem? hk)
    split
    · rename_i hready
      have hnone := hconsistent.submission (by simp [hready.2])
      obtain ⟨rest, haccounts, hgo⟩ := h.set hk
      rw [hnone] at haccounts
      split
      · rename_i slot submissionSlots hacquire
        exact hgo { connection with slotCalls := [.acquired], submission := some slot } submissionSlots rfl ⟨by simp, by simp [hready.1]⟩
          (bound_of_acquire hacquire) (haccounts.acquire hacquire)
      · refine hgo { connection with slotCalls := [.refused] } s.submissionSlots rfl ⟨?_, by simp [hready.1]⟩ rfl ?_
        · simp [hnone]
        · simpa [hnone] using haccounts
    · exact h
  · exact h

theorem Conserved.releaseSubmission (h : Conserved limit s) (k : ℕ) : Conserved limit (s.step (.releaseSubmission k)) := by
  simp only [step]
  split
  · rename_i connection hk
    have hconsistent := h.consistent connection (List.mem_of_getElem? hk)
    split
    · rename_i slot hslot
      have hcalls : connection.slotCalls = [.acquired] := hconsistent.holds.1 (by simp [hslot])
      obtain ⟨rest, haccounts, hgo⟩ := h.set hk
      rw [hslot] at haccounts
      obtain ⟨submissionSlots, hrelease, hreleased, hbound⟩ := haccounts.release
      rw [hrelease]
      refine hgo { connection with slotCalls := connection.slotCalls ++ [.released], submission := none } submissionSlots rfl ⟨?_, ?_⟩
        hbound hreleased
      · simp [hcalls]
      · intro hwaiting
        rw [hconsistent.waits hwaiting] at hcalls
        cases hcalls
    · exact h
  · exact h

theorem Conserved.finish (h : Conserved limit s) (k : ℕ) : Conserved limit (s.step (.finish k)) := by
  simp only [step]
  split
  · rename_i connection hk
    split
    · rename_i hdone
      refine h.releaseRequest hk ((h.consistent connection (List.mem_of_getElem? hk)).submission fun hcalls => ?_)
      rw [hcalls] at hdone
      exact absurd hdone.2 (by decide)
    · exact h
  · exact h

theorem Conserved.step (h : Conserved limit s) (input : ServerInput) : Conserved limit (s.step input) := by
  cases input with
  | connect => exact h.connect
  | startThread k started => exact h.startThread k started
  | acquireSubmission k => exact h.acquireSubmission k
  | releaseSubmission k => exact h.releaseSubmission k
  | finish k => exact h.finish k

/-- What the slots are for: how many connections and submissions there are at most, and when the next one is refused. -/
structure Bounded (limit : ℕ) (s : JobHTTPServer) : Prop where
  connections : s.connections.length ≤ limit
  submissions : s.submissionsHeld.length ≤ max 1 (limit - 1)
  neverOver : s.overReleased = false
  refuses : s.requestSlots.acquire = none ↔ s.connections.length = limit
  refusesSubmission : s.submissionSlots.acquire = none ↔ s.submissionsHeld.length = max 1 (limit - 1)
  unused : s.connections = [] → s.requestSlots.value = limit ∧ s.submissionSlots.value = max 1 (limit - 1)

theorem Conserved.bounded (h : Conserved limit s) : Bounded limit s := by
  have hlength : s.requestsHeld.length = s.connections.length := by simp [requestsHeld]
  have hrequests := h.requests.free
  have hsubmissions := h.submissions.free
  rw [hlength, h.bound] at hrequests
  rw [h.submissionBound] at hsubmissions
  refine ⟨by omega, by omega, h.neverOver, ?_, ?_, fun hnone => ?_⟩
  · unfold acquire
    split
    · simp only [true_iff]
      omega
    · simp only [reduceCtorEq, false_iff]
      omega
  · unfold acquire
    split
    · simp only [true_iff]
      omega
    · simp only [reduceCtorEq, false_iff]
      omega
  · have hnothing : s.submissionsHeld = [] := by simp [submissionsHeld, hnone]
    rw [hnothing] at hsubmissions
    rw [hnone] at hrequests
    simp only [List.length_nil] at hrequests hsubmissions
    omega

/-- In every order of turns a server has no more connections than its limit and one submission less, refuses only what is above that, and
never releases a slot that is not held; where no connection is left all slots are free. -/
theorem connection_slots_conserved (limit : ℕ) (inputs : List ServerInput) : Bounded limit (Machine.run step (create limit) inputs) := by
  have hconserved : Conserved limit (Machine.run step (create limit) inputs) :=
    Machine.run_induct (P := Conserved limit) (fun _ input h => Conserved.step h input) (conserved_create limit) inputs
  exact hconserved.bounded

end JobHTTPServer

end Service

end SharkRail
