import SharkRail.Lemmas.Columns
import SharkRail.Lib.FloatText
import SharkRail.Theorems.Capacity
import SharkRail.Theorems.Accounting

/-!
# Every row can be read

The text of a specification is read back as the specification, but for the pairs of surrogates that a string may hold as two code points:
the scanner joins them. The texts of a row are read after any sequence of transactions, whatever error objects they were given; and no
read of a row raises in any state of the store.
-/

namespace SharkRail

namespace Store

open Fallible

variable {cfg : StoreConfig} {s : Store}

/-- A transaction is refused for its room when its body returns. -/
theorem transaction_admissionLimited {α : Type} {body : Store → Except StoreError (α × Store)} (a : α) (s' : Store)
    (h : body s = .ok (a, s')) {e : StoreError} (he : (transaction cfg body s).1 = .error e) :
    ∃ message, e = .admissionLimited message := by
  unfold transaction at he
  rw [h] at he
  dsimp only at he
  split at he
  · cases he
    exact ⟨_, rfl⟩
  · cases he

/-- `claim_next` reads the job it claims. -/
theorem claimNext_reads (hs : Sound cfg s) (hr : Readable s) (clock : Reading) (owner : String) (leaseSeconds : Int) {e : StoreError}
    (h : (claimNext cfg clock owner leaseSeconds s).1 = .error e) : ∃ message, e = .admissionLimited message := by
  cases hhead : (Table.selectBy (·.createdAt) (fun r : JobRow => r.phase = .queued) s.jobs).head? with
  | none =>
    refine transaction_admissionLimited none s ?_ h
    rw [hhead]
    rfl
  | some row =>
    obtain ⟨hrow, hphase⟩ := Table.mem_selectBy.1 (List.mem_of_mem_head? hhead)
    have hphase : row.phase = .queued := by simpa using hphase
    let clause := fun (r : JobRow) => r.id = row.id && r.revision = row.revision && r.phase = .queued
    have hclause : ∀ r, clause r = true → r.id = row.id := fun r hr => by
      simp only [clause, Bool.and_eq_true, decide_eq_true_eq] at hr
      exact hr.1.1
    have hmet : clause row = true := by simp [clause, hphase]
    have hcount : Table.rowcount clause s.jobs = 1 := Table.rowcount_key hs.wellFormed.jobIds hrow hclause hmet
    obtain ⟨spec, hspec⟩ := hr row hrow
    let row' := assignedRow clock s.drawn owner leaseSeconds row
    have hholds : row'.Holds spec := hspec.of_specJson rfl
    have hjobs : Table.update clause (assignedRow clock s.drawn owner leaseSeconds) s.jobs = replaceJob row.id row' s.jobs :=
      update_eq_replaceJob hs.wellFormed.jobIds hrow hclause hmet
    let s₀ := s.draw.2.updateJobs cfg clause (assignedRow clock s.drawn owner leaseSeconds)
    obtain ⟨s₁, hevent⟩ := event_returns (s := s₀) cfg clock.now (hs.fresh hrow "job.assigned")
    obtain ⟨bytes, hs₁⟩ := event_eq hevent
    have hjobs₁ : s₁.jobs = replaceJob row.id row' s.jobs := by
      rw [hs₁]
      exact hjobs
    have hmem : row' ∈ s₁.jobs := by
      rw [hjobs₁, mem_replaceJob]
      exact Or.inr ⟨rfl, row, hrow, rfl⟩
    obtain ⟨r, hread⟩ := rowOf_returns hmem
    obtain rfl : r = row' := rowOf_replaced row rfl hjobs₁ hread
    refine transaction_admissionLimited (some { row' with spec := spec.reread true }) s₁ ?_ h
    rw [hhead]
    dsimp only [draw]
    rw [if_neg (not_not_intro hcount)]
    change (s₀.event cfg clock.now row.id (row.revision + 1) "job.assigned" >>= fun s => do
      let job ← rowToJob (← s.rowOf row.id)
      pure (some job, s)) = _
    rw [hevent]
    change (s₁.rowOf row'.id >>= fun r => do
      let job ← rowToJob r
      pure (some job, s₁)) = _
    rw [hread]
    change (rowToJob row' >>= fun job => pure (some job, s₁)) = _
    rw [hholds.rowToJob]
    rfl

/-- The recovery after a restart reads every row it settles, and raises for one that it can not announce. -/
theorem recoverInterrupted_reads (hs : Sound cfg s) (hx : Exact cfg s) (clock : Reading) {e : StoreError}
    (h : (recoverInterrupted cfg clock s).1 = .error e) :
    (∃ message, e = .admissionLimited message) ∨
      ∃ row ∈ s.jobs, row.phase.held = true ∧ ∃ endpoint ∈ row.unencodable, e = .py (.unicodeEncodeError endpoint) := by
  by_cases hnotifiable : ∀ row ∈ s.jobs, row.phase.held = true → row.Notifiable
  · obtain ⟨hfits, hraises⟩ := recoverInterrupted_fits clock hs hx hnotifiable
    left
    by_cases hroom : Fits cfg (interruptedGrowth cfg clock s) s
    · obtain ⟨n, hn⟩ := (hfits hroom).1
      cases hn.symm.trans h
    · cases (hraises hroom).symm.trans h
      exact ⟨_, rfl⟩
  · obtain ⟨row, hrow, hheld, endpoint, hendpoint, hraised⟩ := recoverInterrupted_raises clock hs hx hnotifiable
    rw [hraised] at h
    cases h
    exact .inr ⟨row, hrow, hheld, endpoint, hendpoint, rfl⟩

/-- So does the recovery of expired leases. -/
theorem recoverExpiredLeases_reads (hs : Sound cfg s) (hx : Exact cfg s) (clock : Reading) (excludeJobIds : List Uuid) {e : StoreError}
    (h : (recoverExpiredLeases cfg clock excludeJobIds s).1 = .error e) :
    (∃ message, e = .admissionLimited message) ∨
      ∃ row ∈ s.expired clock excludeJobIds, ∃ endpoint ∈ row.unencodable, e = .py (.unicodeEncodeError endpoint) := by
  by_cases hnotifiable : ∀ row ∈ s.expired clock excludeJobIds, row.Notifiable
  · obtain ⟨hfits, hraises⟩ := recoverExpiredLeases_fits clock excludeJobIds hs hx hnotifiable
    left
    by_cases hroom : Fits cfg (expiredGrowth cfg clock excludeJobIds s) s
    · obtain ⟨n, hn⟩ := (hfits hroom).1
      cases hn.symm.trans h
    · cases (hraises hroom).symm.trans h
      exact ⟨_, rfl⟩
  · obtain ⟨row, hrow, endpoint, hendpoint, hraised⟩ := recoverExpiredLeases_raises clock excludeJobIds hs hx hnotifiable
    rw [hraised] at h
    cases h
    exact .inr ⟨row, hrow, endpoint, hendpoint, rfl⟩

/-- `get` of a store whose rows are read. -/
theorem get_reads (hr : Readable s) {jobId : Uuid} {tenantId : Option String} {e : StoreError} (h : s.get jobId tenantId = .error e) :
    e = .jobNotFound jobId := by
  unfold get at h
  rcases bind_eq_error.1 h with hselect | ⟨row, hread, hjob⟩
  · unfold selectJob at hselect
    split at hselect
    · cases hselect
    · cases hselect
      rfl
  · obtain ⟨hrow, -⟩ := mem_of_selectJob hread
    obtain ⟨spec, hspec⟩ := hr row hrow
    cases hspec.rowToJob.symm.trans hjob

/-- What reads the rows of a store raises nothing for what is in them, but for the endpoint of a row that is announced: a job is missing,
there is no room for what is written, or that endpoint has a surrogate. -/
structure Reads (cfg : StoreConfig) (s : Store) : Prop where
  rows : ∀ row ∈ s.jobs, ∃ job, rowToJob row = .ok job
  get : ∀ jobId tenantId e, s.get jobId tenantId = .error e → e = .jobNotFound jobId
  claimNext : ∀ clock owner leaseSeconds e, (claimNext cfg clock owner leaseSeconds s).1 = .error e →
    ∃ message, e = .admissionLimited message
  recoverInterrupted : ∀ clock e, (recoverInterrupted cfg clock s).1 = .error e → (∃ message, e = .admissionLimited message) ∨
    ∃ row ∈ s.jobs, row.phase.held = true ∧ ∃ endpoint ∈ row.unencodable, e = .py (.unicodeEncodeError endpoint)
  recoverExpiredLeases : ∀ clock excludeJobIds e, (recoverExpiredLeases cfg clock excludeJobIds s).1 = .error e →
    (∃ message, e = .admissionLimited message) ∨
      ∃ row ∈ s.expired clock excludeJobIds, ∃ endpoint ∈ row.unencodable, e = .py (.unicodeEncodeError endpoint)
  notify : ∀ row ∈ s.jobs, ∀ now, (row.unencodable = none ∧ ∃ s', s.notify cfg now row = .ok s') ∨
    ∃ endpoint ∈ row.unencodable, s.notify cfg now row = .error (.py (.unicodeEncodeError endpoint))

theorem Reachable.reads (h : Reachable cfg s) : Reads cfg s where
  rows row hrow := by
    obtain ⟨spec, hspec⟩ := h.holds row hrow
    exact ⟨_, hspec.rowToJob⟩
  get _ _ _ he := get_reads h.holds he
  claimNext clock owner leaseSeconds _ he := claimNext_reads h.sound h.holds clock owner leaseSeconds he
  recoverInterrupted clock _ he := recoverInterrupted_reads h.sound h.exact clock he
  recoverExpiredLeases clock excludeJobIds _ he := recoverExpiredLeases_reads h.sound h.exact clock excludeJobIds he
  notify row hrow now := by
    obtain ⟨spec, hspec⟩ := h.holds row hrow
    rcases notify_cases cfg s now hspec with ⟨hnotifiable, hreturned⟩ | ⟨-, hraised⟩
    · exact .inl ⟨hnotifiable.unencodable, hreturned⟩
    · exact .inr hraised

end Store

open PyJson PyStr

/-- `json.dumps` with no option. -/
def plainStyle : DumpStyle := ⟨true, true⟩

/-- `JobSpec.from_dict(json.loads(json.dumps(spec.to_dict())))`. -/
def JobSpec.roundTrip (F : FloatText) (spec : JobSpec) : Option JobSpec := JobSpec.readText F (dumps F plainStyle (.obj spec.toDict))

namespace Texts

/-- A valid specification is read back from its text with its pairs of surrogates joined, so it is read back as it is when it has none. A
row whose specification was accepted is read after any sequence of transactions, whatever error objects they wrote. And in every state of
the store the operations that read rows raise nothing for what is in them, except that a row which is announced can not be when the endpoint
it names has a surrogate. -/
theorem rows_read (cfg : StoreConfig) (F : FloatText) :
    (∀ spec : JobSpec, spec.validate = .ok () → spec.IsPython →
      spec.roundTrip F = some (spec.reread true) ∧ (spec.roundTrip F = some spec ↔ spec.Joined)) ∧
    (∀ (spec : JobSpec) (reason now : PyStr) (writes : List Columns.Write), spec.validate = .ok () → spec.IsPython →
      (∀ w ∈ writes, w.Python) →
      ∃ columns job, (Columns.submitted F spec reason now).run F writes = some columns ∧ columns.rowToJob F = some job) ∧
    ∀ s, Store.Reachable cfg s → Store.Reads cfg s := by
  refine ⟨fun spec hvalid hpython => ?_, fun spec reason now writes hvalid hpython hwrites => ?_, fun s h => h.reads⟩
  · have hread : spec.roundTrip F = some (spec.reread true) :=
      (JobSpec.validate_eq_ok.1 hvalid).readText_dumps hpython F plainStyle
    refine ⟨hread, ?_⟩
    rw [hread, Option.some.injEq]
    exact ⟨fun hsame => hsame ▸ JobSpec.joined_reread spec, JobSpec.reread_of_joined true hpython⟩
  · have hsound := Columns.sound_submitted (F := F) (JobSpec.validate_eq_ok.1 hvalid) hpython reason now
    obtain ⟨columns, hrun, hsound'⟩ := hsound.run hwrites
    obtain ⟨spec', error, conditions, hread, -⟩ := hsound'.rowToJob
    exact ⟨columns, _, hrun, hread⟩

/-- A specification that names an executable. -/
def echo : JobSpec := { command := [.str (ofString "echo")] }

theorem echo_valid : echo.validate = .ok () := by rfl

theorem echo_isPython : echo.IsPython :=
  ⟨JobSpec.nodup_toDict _, ⟨trivial, trivial⟩, trivial, trivial, trivial, trivial, trivial, trivial, trivial, trivial⟩

theorem echo_joined : echo.Joined := by
  unfold JobSpec.Joined
  decide

/-- A job that is claimed, asked to cancel and finished with an error. -/
def echoWrites : List Columns.Write :=
  [.claimNext, .markRunning, .requestCancel,
    .finish .failed (ofString "spawn_failed") (ofString "2026-01-01") (some [(ofString "type", .str [CodePoint.ofNat 0xD800])])]

theorem echoWrites_python : ∀ w ∈ echoWrites, w.Python := by
  intro w hw
  simp only [echoWrites, List.mem_cons, List.not_mem_nil, or_false] at hw
  rcases hw with rfl | rfl | rfl | rfl
  · trivial
  · trivial
  · trivial
  · rintro members ⟨⟩
    exact ⟨List.nodup_singleton _, trivial, trivial⟩

theorem rows_read_echo :
    echo.roundTrip ratText = some echo ∧
      (∃ columns job, (Columns.submitted ratText echo (ofString "Persisted") (ofString "2026-01-01")).run ratText echoWrites =
        some columns ∧
        columns.rowToJob ratText = some job) ∧
      Store.Reads Sample.cfg (Store.create Sample.cfg 0) :=
  ⟨((rows_read Sample.cfg ratText).1 echo echo_valid echo_isPython).2.2 echo_joined,
    (rows_read Sample.cfg ratText).2.1 echo _ _ echoWrites echo_valid echo_isPython echoWrites_python,
    (rows_read Sample.cfg ratText).2.2 _ ⟨[], rfl⟩⟩

/-- An executable that a client of the library writes as two surrogates. -/
def surrogatePair : JobSpec := { command := [.str [CodePoint.ofNat 0xD83D, CodePoint.ofNat 0xDE00]] }

/-- The two surrogates are read back as one code point. -/
theorem surrogatePair_joined : surrogatePair.validate = .ok () ∧ surrogatePair.IsPython ∧
    surrogatePair.roundTrip ratText ≠ some surrogatePair := by
  have hvalid : surrogatePair.validate = .ok () := by rfl
  have hpython : surrogatePair.IsPython :=
    ⟨JobSpec.nodup_toDict _, ⟨trivial, trivial⟩, trivial, trivial, trivial, trivial, trivial, trivial,
    trivial, trivial⟩
  refine ⟨hvalid, hpython, ?_⟩
  have hread : surrogatePair.roundTrip ratText = some (surrogatePair.reread true) :=
    (JobSpec.validate_eq_ok.1 hvalid).readText_dumps hpython ratText plainStyle
  rw [hread, Ne, Option.some.injEq]
  intro hsame
  have hlength := congrArg (fun spec => (strings (.arr spec.command)).map List.length) hsame
  revert hlength
  decide

end Texts

end SharkRail
