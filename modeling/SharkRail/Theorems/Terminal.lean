import SharkRail.Lib.FloatText
import SharkRail.Lemmas.Operations

/-!
# Terminal outcomes

Every operation but one looks at the phase before it moves a row, so a terminal row stays the row it is until it is pruned. The
exception is `mark_running`: it asks for the attempt and its owner only, and both stay in the row when the attempt ends. A late
`mark_running` therefore takes a finished job back to `running` (`mark_running_reopens`), and a run without one keeps every
terminal row (`terminal_row_kept`).
-/

namespace SharkRail

namespace Store

variable {cfg : StoreConfig} {s s' : Store}

/-- What a job came to. -/
structure JobOutcome where
  phase : JobPhase
  exitCode : Option Int
  reason : Option String
  errorJson : Option PyJson
  completedAt : Option Instant
  stdoutPath : Option String
  stderrPath : Option String
  stdoutBytes : Int
  stderrBytes : Int
  revision : Nat
  deriving DecidableEq

def outcome (r : JobRow) : JobOutcome :=
  { phase := r.phase
    exitCode := r.exitCode
    reason := r.reason
    errorJson := r.errorJson
    completedAt := r.completedAt
    stdoutPath := r.stdoutPath
    stderrPath := r.stderrPath
    stdoutBytes := r.stdoutBytes
    stderrBytes := r.stderrBytes
    revision := r.revision }

/-- The call is no `mark_running` of an attempt whose job is already terminal. -/
def SparesTerminal (s : Store) (input : StoreCall × Reading) : Prop :=
  ∀ jobId attemptId owner, input.1 = .markRunning jobId attemptId owner →
    ∀ r ∈ s.jobs, ownedBy jobId attemptId owner r = true → r.phase.terminal = false

/-- One transaction leaves a terminal row as it is, or deletes it. -/
theorem step_terminal (cfg : StoreConfig) (hs : WellFormed s) {input : StoreCall × Reading} (hg : SparesTerminal s input) {r : JobRow}
    (hr : r ∈ s.jobs) (ht : r.phase.terminal = true) :
    r ∈ (step cfg s input).jobs ∨ Deletes cfg input.1 ∧ Gone r.id (step cfg s input) := by
  refine (step_induct input (P := fun s' => r ∈ s'.jobs ∨ Deletes cfg input.1 ∧ Gone r.id s') hs (Or.inl hr) ?_)
  rintro s₁ s₂ hs₁ (hr₁ | ⟨hdel, hgone⟩) hchange
  · rcases hchange.row hs₁ hr₁ with h | ⟨r', kind, notes, hstep, -, -⟩ | ⟨hdel, hgone⟩
    · exact Or.inl h
    · obtain ⟨attemptId, owner, hcall, howned⟩ := hstep.terminal ht
      have hlive := hg r.id attemptId owner hcall r hr howned
      rw [ht] at hlive
      cases hlive
    · exact Or.inr ⟨hdel, (hs₁.jobDrawn r hr₁).trans_le hchange.drawn_le, hgone⟩
  · exact Or.inr ⟨hdel, hgone.change hchange⟩

/-- In every run without a `mark_running` of a terminal job, a terminal row stays the row it is, and so does its outcome. It
leaves the table by a pruning (or with a store in memory that is closed), and no other row takes its id. -/
theorem terminal_row_kept (h : Reachable cfg s) {is : List (StoreCall × Reading)}
    (hg : Machine.Guarded (step cfg) SparesTerminal s is) {r : JobRow} (hr : r ∈ s.jobs)
    (ht : r.phase.terminal = true) :
    (∀ r' ∈ (Machine.run (step cfg) s is).jobs, r'.id = r.id → r' = r ∧ outcome r' = outcome r) ∧
      (r ∈ (Machine.run (step cfg) s is).jobs ∨
        ∃ js i ks, is = js ++ i :: ks ∧ Deletes cfg i.1 ∧ r ∈ (Machine.run (step cfg) s js).jobs ∧
          Gone r.id (Machine.run (step cfg) s (js ++ [i]))) := by
  have hs := h.wellFormed
  have hfate : r ∈ (Machine.run (step cfg) s is).jobs ∨
      ∃ js i ks, is = js ++ i :: ks ∧ Deletes cfg i.1 ∧ r ∈ (Machine.run (step cfg) s js).jobs ∧
        Gone r.id (Machine.run (step cfg) s (js ++ [i])) := by
    clear h
    induction is generalizing s with
    | nil => exact Or.inl hr
    | cons i is ih =>
      rcases step_terminal cfg hs hg.1 hr ht with hr' | ⟨hdel, hgone⟩
      · rcases ih hg.2 hr' (hs.step i) with h | ⟨js, j, ks, rfl, hdel, hmem, hgone⟩
        · exact Or.inl h
        · exact Or.inr ⟨i :: js, j, ks, rfl, hdel, hmem, hgone⟩
      · exact Or.inr ⟨[], i, is, rfl, hdel, hr, hgone⟩
  refine ⟨fun r' hr' hid => ?_, hfate⟩
  have hsame : r' = r := by
    rcases hfate with hmem | ⟨js, i, ks, rfl, -, -, hgone⟩
    · exact Table.eq_of_key JobRow.id (hs.run is).jobIds hr' hmem hid
    · have hgone' : Gone r.id (Machine.run (step cfg) (Machine.run (step cfg) s (js ++ [i])) ks) := hgone.run (hs.run _) ks
      rw [← Machine.run_append, List.append_assoc, List.singleton_append] at hgone'
      exact absurd hid (hgone'.2 r' hr')
  exact ⟨hsame, congrArg outcome hsame⟩

end Store

/-! ## A sample store

The inputs on which the witnesses and counterexamples run.
-/

namespace Sample

def spec : JobSpec := { command := [.str "echo", .str "hello"], callbackEndpointId := .str "receiver" }

/-- The same job, submitted with the intent to cancel. -/
def cancelledSpec : JobSpec := { spec with desiredState := .str "cancelled" }

/-- What the store takes from outside, on the values met here: the digests of the two specifications, whose texts have 188 and
191 characters. -/
def host : Host where
  sha256 := fun text =>
    if text.length = 188 then "8b0f2a2d01d5fed9449f9e79bf91d8a84aae38d7b1605f779a318cb2e65d06e3"
    else "0e85d2307ba2bd8f96d1d5d7590d794d48c69a98598d875c945956b949457a26"
  float := PyJson.ratText
  realBytes := fun _ => 12

def cfg : StoreConfig := { host }

/-- What a successful attempt without output reports. -/
def report : Store.Report := ⟨.succeeded, some 0, "success", none, none, none, 0, 0, false⟩

/-- The microseconds of a second of the sample clock. -/
def clockAt (seconds : Int) : Reading := .at (seconds * Instant.second)

/-- A job is submitted, claimed by `worker` and finished: job 1, attempt 2. -/
def finishedRun : List (StoreCall × Reading) :=
  [(.submit "tenant" "key" spec, clockAt 1), (.claimNext "worker" 30, clockAt 2), (.markRunning 1 2 "worker", clockAt 3),
    (.finish 1 2 "worker" report, clockAt 4)]

def finishedStore : Store := Machine.run (Store.step cfg) (Store.create cfg 0) finishedRun

end Sample

namespace Store

open Sample in
/-- The job of the sample run is finished, and has another outcome after a late call of its attempt. -/
theorem finished_then_reopened : (∃ r ∈ finishedStore.jobs, r.phase = .succeeded) ∧
    ∃ r ∈ finishedStore.jobs, r.phase.terminal = true ∧
      ∃ r' ∈ (Machine.run (step cfg) (create cfg 0) (finishedRun ++ [(.markRunning 1 2 "worker", clockAt 5)])).jobs,
        r'.id = r.id ∧ outcome r' ≠ outcome r := by decide +kernel

open Sample in
/-- The late call of the same attempt takes the finished job back to `running`, under a new revision. -/
theorem mark_running_reopens :
    ¬∀ (is : List (StoreCall × Reading)) (i : StoreCall × Reading),
      ∀ r ∈ (Machine.run (step cfg) (create cfg 0) is).jobs, r.phase.terminal = true →
        ∀ r' ∈ (Machine.run (step cfg) (create cfg 0) (is ++ [i])).jobs, r'.id = r.id → outcome r' = outcome r := by
  intro h
  obtain ⟨-, r, hr, hterminal, r', hr', hid, hne⟩ := finished_then_reopened
  exact hne (h finishedRun (.markRunning 1 2 "worker", clockAt 5) r hr hterminal r' hr' hid)

open Sample in
/-- The finished job of the sample stays as it is when its attempt reports again. -/
theorem terminal_row_kept_sample :
    ∃ r ∈ finishedStore.jobs, r.phase = .succeeded ∧
      ∀ r' ∈ (Machine.run (step cfg) finishedStore [(.finish 1 2 "worker" { report with phase := .failed }, clockAt 5)]).jobs,
        r'.id = r.id → r' = r ∧ outcome r' = outcome r := by
  obtain ⟨⟨r, hr, hphase⟩, -⟩ := finished_then_reopened
  have hspares : Machine.Guarded (step cfg) SparesTerminal finishedStore
      [(.finish 1 2 "worker" { report with phase := .failed }, clockAt 5)] :=
    Machine.guarded_singleton.2 fun _ _ _ h => nomatch h
  exact ⟨r, hr, hphase, (terminal_row_kept ⟨finishedRun, rfl⟩ hspares hr (by rw [hphase]; rfl)).1⟩

end Store

end SharkRail
