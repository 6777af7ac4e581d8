import SharkRail.Lemmas.Columns
import SharkRail.Lemmas.SpecIdentity
import SharkRail.Lib.FloatText
import SharkRail.Lib.JsonReading
import SharkRail.Service.Reports
import SharkRail.Theorems.Responses

/-!
# What can be reported

A response encodes when no string in it has a surrogate. The strings of a job that can have one are those of its specification and of its
error: the other columns are texts of SQLite. A request brings surrogates in as escapes, the checks of a specification let them pass, and
the response that reports the job is refused by the encoder after the job was committed.
-/

namespace SharkRail

namespace Texts

open PyStr PyJson
open Integrations (Library Manager JsonRpcRuntime McpRuntime RpcSendable McpSendable requestIdOf mcpIdOf isNotification writtenLine
  isSome_writtenLine)

variable {F : FloatText}

/-! ## The dictionary of a job -/

namespace JobRecord

/-- A job has a surrogate in its error, its conditions or its specification, or nowhere. -/
theorem clean_toDict {job : JobRecord} (includeSpec : Bool) : Clean (.obj (job.toDict includeSpec)) ↔
    Clean job.error ∧ Clean (.arr job.conditions) ∧ (includeSpec = true → Clean (.obj job.spec.toDict)) := by
  have htext : ∀ column : Option SqlText, Clean (nullJson textJson column) := fun column => by
    cases column with
    | none => exact clean_null
    | some text => exact clean_str.2 text.2
  have hint : ∀ column : Option ℤ, Clean (nullJson PyJson.int column) := fun column => by cases column <;> exact nofun
  have hstr : ∀ text : SqlText, Clean (textJson text) := fun text => clean_str.2 text.2
  have hname : ∀ s : String, Clean (.str (ofString s)) := fun s => clean_str.2 (unicode_ofString s)
  have hurl : ∀ s : String, Clean (.str (ofString s ++ job.row.id.1)) :=
    fun s => clean_str.2 (unicode_append.2 ⟨unicode_ofString s, job.row.id.2⟩)
  have hresult : Clean (.str (ofString "/v1/jobs/" ++ (job.row.id.1 ++ ofString "/result"))) :=
    clean_str.2 (unicode_append.2 ⟨unicode_ofString _, unicode_append.2 ⟨job.row.id.2, unicode_ofString _⟩⟩)
  have houtput : ∀ a b : ℤ, ∀ c : Bool, Clean (.obj [(ofString "stdout_bytes", .int a), (ofString "stderr_bytes", .int b),
      (ofString "truncated", .bool c)]) := fun a b c => clean_obj.2 (by simp [unicode_ofString, clean_int, clean_bool])
  rw [clean_obj]
  unfold toDict
  cases includeSpec <;>
    simp [unicode_ofString, clean_int, htext, hint, hstr, hname, hurl, hresult, houtput]

end JobRecord

/-! ## The texts of a row -/

/-- A value without a surrogate is read back as it is. -/
theorem reread_of_clean {v : PyJson} (hv : PyJson.IsPython v) (h : Clean v) : PyJson.reread true v = v :=
  PyJson.reread_of_joined true v hv fun s hs => joined_of_clean (h s hs)

/-- A condition has no surrogate where its reason and its time have none. -/
theorem clean_condition (type : String) (status : Bool) {reason now : PyStr} (hreason : Unicode reason) (hnow : Unicode now) :
    Clean (condition type status reason now) := by
  unfold condition
  rw [clean_obj]
  simp [unicode_ofString, clean_bool, clean_str, hreason, hnow]

/-- Two lists, one after the other, are clean where both are. -/
theorem clean_arr_append {items items' : List PyJson} : Clean (.arr (items ++ items')) ↔ Clean (.arr items) ∧ Clean (.arr items') := by
  simp only [clean_arr, List.forall_mem_append]

/-- The policy of a cancellation is clean in a clean specification. -/
theorem JobSpec.clean_cancel {spec : JobSpec} (h : Clean (.obj spec.toDict)) : Clean (.obj spec.cancel.toDict) := by
  rw [clean_obj] at h ⊢
  rw [← JobSpec.set_toDict]
  intro m hm
  rcases mem_set hm with hm | rfl
  · exact h m hm
  · exact ⟨unicode_ofString _, clean_str.2 (unicode_ofString _)⟩

namespace Columns

variable {columns columns' : Columns}

/-- The reason and the time of a transaction are bound to columns of text too. -/
def Write.Bound : Write → Prop
  | .finish _ reason now _ => Unicode reason ∧ Unicode now
  | _ => True

/-- The texts of a row whose specification and conditions have no surrogate. -/
structure Sent (F : FloatText) (columns : Columns) : Prop where
  spec : ∃ spec, JobSpec.Holds F columns.specJson spec ∧ Clean (.obj spec.toDict)
  conditions : ∃ items, ItemsPython items ∧ columns.conditionsJson = dumps F JobSpec.specStyle (.arr items) ∧ Clean (.arr items)

/-- The columns of a submitted job that can be reported. -/
theorem sent_submitted {spec : JobSpec} (h : spec.Valid) (hpython : spec.IsPython) (hclean : Clean (.obj spec.toDict)) {reason now : PyStr}
    (hreason : Unicode reason) (hnow : Unicode now) : (submitted F spec reason now).Sent F := by
  refine ⟨⟨_, JobSpec.holds_specText F h hpython, fun s hs => hclean s (JobSpec.mem_strings_sorted.1 hs)⟩,
    [condition "Accepted" true reason now], ⟨isPython_condition "Accepted" true reason now, trivial⟩, rfl, ?_⟩
  rw [clean_arr, List.forall_mem_singleton]
  exact clean_condition "Accepted" true hreason hnow

/-- The members that a statement reads in `spec_json` are those of the specification. -/
theorem Sent.specData (h : columns.Sent F) : ∃ members spec, columns.specData F = some members ∧ members.Perm (JobSpec.toDict spec) ∧
    spec.Valid ∧ spec.IsPython ∧ Clean (.obj spec.toDict) := by
  obtain ⟨spec, hspec, hclean⟩ := h.spec
  obtain ⟨members, hloads, hperm⟩ := hspec.loads
  rw [JobSpec.reread_of_joined true hspec.python fun s hs => joined_of_clean (hclean s hs)] at hperm
  refine ⟨members, spec, ?_, hperm, hspec.valid, hspec.python, hclean⟩
  unfold Columns.specData
  rw [hloads]

/-- The conditions of such columns are read, and are clean. -/
theorem Sent.readConditions (h : columns.Sent F) : ∃ items, columns.conditions F = some items ∧ ItemsPython items ∧ Clean (.arr items) := by
  obtain ⟨items, hitems, htext, hclean⟩ := h.conditions
  have hloads : loads F columns.conditionsJson = some (.arr items) := by
    rw [htext, loads_dumps F JobSpec.specStyle (v := .arr items) hitems]
    exact congrArg some (reread_of_clean (v := .arr items) hitems hclean)
  refine ⟨items, ?_, hitems, hclean⟩
  unfold Columns.conditions
  rw [hloads]

/-- A report keeps the columns of a job that can be reported. -/
theorem Sent.finish (h : columns.Sent F) {phase : JobPhase} {reason now : PyStr} {error : Option (List (PyStr × PyJson))}
    (hreason : Unicode reason) (hnow : Unicode now) (hfinish : columns.finish F phase reason now error = some columns') :
    columns'.Sent F := by
  obtain ⟨members, -, hspec, -⟩ := h.specData
  obtain ⟨items, hitems, hpython, hclean⟩ := h.readConditions
  unfold Columns.finish at hfinish
  split at hfinish
  · rw [hspec, hitems] at hfinish
    obtain rfl := Option.some.inj hfinish
    refine ⟨h.spec, _, ?_, rfl, ?_⟩
    · exact itemsPython_append hpython ⟨isPython_condition _ _ _ _, trivial⟩
    · rw [clean_arr_append, clean_arr, clean_arr, List.forall_mem_singleton]
      refine ⟨clean_arr.1 hclean, clean_condition _ _ ?_ hnow⟩
      cases wantsCancel members with
      | true => exact unicode_ofString _
      | false => exact hreason
  · cases hfinish
    exact h

/-- A request to cancel keeps the columns of a job that can be reported. -/
theorem Sent.requestCancel (h : columns.Sent F) (hcancel : columns.requestCancel F = some columns') : columns'.Sent F := by
  obtain ⟨members, spec, hread, hperm, hvalid, hpython, hclean⟩ := h.specData
  unfold Columns.requestCancel at hcancel
  split at hcancel
  · cases hcancel
    exact h
  · rw [hread, Option.bind_eq_bind, Option.bind_some] at hcancel
    split at hcancel
    · cases hcancel
      exact h
    · cases hcancel
      refine ⟨⟨spec.cancel.sorted, ?_, fun s hs => JobSpec.clean_cancel hclean s (JobSpec.mem_strings_sorted.1 hs)⟩, h.conditions⟩
      exact JobSpec.holds_of_perm F hvalid.cancel (JobSpec.isPython_cancel hpython) (JobSpec.set_perm hperm)

/-- No transaction puts a surrogate in the specification or in the conditions. -/
theorem Sent.write (h : columns.Sent F) {w : Write} (hw : w.Bound) (hwrite : columns.write F w = some columns') : columns'.Sent F := by
  cases w with
  | claimNext =>
    cases hwrite
    split
    · exact ⟨h.spec, h.conditions⟩
    · exact h
  | markRunning =>
    cases hwrite
    exact ⟨h.spec, h.conditions⟩
  | finish phase reason now error => exact h.finish hw.1 hw.2 hwrite
  | requestCancel => exact h.requestCancel hwrite
  | recover =>
    obtain ⟨members, -, hspec, -⟩ := h.specData
    unfold Columns.write Columns.recover at hwrite
    dsimp only at hwrite
    split at hwrite
    · rw [hspec, Option.bind_eq_bind, Option.bind_some] at hwrite
      cases hwrite
      exact ⟨h.spec, h.conditions⟩
    · cases hwrite
      exact h

/-- Every run of bound writes keeps the columns of a job that can be reported. -/
theorem Sent.run (h : columns.Sent F) {writes : List Write} (hw : ∀ w ∈ writes, w.Bound) (hrun : columns.run F writes = some columns') :
    columns'.Sent F := by
  unfold Columns.run at hrun
  induction writes generalizing columns with
  | nil =>
    cases hrun
    exact h
  | cons w writes ih =>
    rw [List.foldlM_cons, Option.bind_eq_bind, Option.bind_eq_some_iff] at hrun
    obtain ⟨columns₁, hwrite, hrun⟩ := hrun
    exact ih (h.write (hw w List.mem_cons_self) hwrite) (fun w' hw' => hw w' (List.mem_cons_of_mem w hw')) hrun

end Columns

/-! ## The answers -/

/-- A body encodes where its value is clean. -/
theorem isSome_jsonBody {v : PyJson} : (jsonBody F v).isSome = true ↔ Clean v := encode_dumps F false

/-- The answer is the report. -/
def Answer.isReported : Answer → Bool
  | .reported .. => true
  | _ => false

/-- What of a job is in a report. -/
def Report.includesSpec : Report → Bool
  | .result => false
  | _ => true

/-- A report is its body, where that encodes. -/
theorem Report.answer_eq (report : Report) {job : JobRecord} (hterminal : report = .result → job.phase.terminal = true) :
    report.answer F job =
      match jsonBody F (.obj (job.toDict report.includesSpec)) with
      | some body => .reported report.status body
      | none => report.refused := by
  cases report with
  | result =>
    unfold Report.answer
    rw [hterminal rfl]
    rfl
  | submit | get | cancel => rfl

/-- A refusal reports no job. -/
theorem Report.isReported_refused (report : Report) : report.refused.isReported = false := by cases report <;> rfl

/-- An answer that does not report the job is the refusal. -/
theorem Report.answer_of_not_reported (report : Report) {job : JobRecord} (hterminal : report = .result → job.phase.terminal = true)
    (h : (report.answer F job).isReported = false) : report.answer F job = report.refused := by
  rw [report.answer_eq hterminal] at h ⊢
  split at h
  · cases h
  · rfl

/-- A report is sent when the job has no surrogate in what is in it. -/
theorem Report.isReported_answer (report : Report) {job : JobRecord} (hterminal : report = .result → job.phase.terminal = true) :
    (report.answer F job).isReported = true ↔
      Clean job.error ∧ Clean (.arr job.conditions) ∧ (report.includesSpec = true → Clean (.obj job.spec.toDict)) := by
  rw [← JobRecord.clean_toDict, ← isSome_jsonBody (F := F), report.answer_eq hterminal]
  cases jsonBody F (.obj (job.toDict report.includesSpec)) with
  | some body => exact iff_of_true rfl rfl
  | none =>
    dsimp only
    rw [report.isReported_refused]
    simp

namespace Columns

/-- A row is read where its three JSON columns are. -/
theorem rowToJob_eq_some {columns : Columns} {spec : JobSpec} {error : PyJson} {items : List PyJson} :
    columns.rowToJob F = some (spec, error, items) ↔
      JobSpec.readText F columns.specJson = some spec ∧ columns.error F = some error ∧ columns.conditions F = some items := by
  unfold Columns.rowToJob
  cases JobSpec.readText F columns.specJson <;> cases columns.error F <;> cases columns.conditions F <;> simp

end Columns

/-! ## Accepted work -/

/-- A row that reports nothing but its texts. -/
def RowValues.blank : RowValues where
  id := ⟨[], nofun⟩
  tenantId := ⟨[], nofun⟩
  generation := 1
  observedGeneration := 0
  revision := 1
  durability := ⟨[], nofun⟩
  storeEpoch := ⟨[], nofun⟩
  attemptId := none
  leaseEpoch := 0
  createdAt := ⟨[], nofun⟩
  updatedAt := ⟨[], nofun⟩
  startedAt := none
  completedAt := none
  exitCode := none
  reason := none
  stdoutBytes := 0
  stderrBytes := 0
  outputTruncated := false

/-- Every report of a job that was committed is sent, after any number of the transactions. -/
def AlwaysReported (F : FloatText) (submitted : Columns) (writes : List Columns.Write) : Prop :=
  ∀ k columns row job report, submitted.run F (writes.take k) = some columns → rowToJob F row columns = some job →
    (report = Report.result → job.phase.terminal = true) → (report.answer F job).isReported = true

/-- No error that is recorded for a job has a surrogate. -/
def CleanErrors (F : FloatText) (submitted : Columns) (writes : List Columns.Write) : Prop :=
  ∀ k columns error, submitted.run F (writes.take k) = some columns → columns.error F = some error → Clean error

/-- The reports of a job are sent when neither its specification nor an error recorded for it has a surrogate. -/
theorem alwaysReported_iff {spec : JobSpec} (hvalid : spec.Valid) (hpython : spec.IsPython) (hjoined : spec.Joined) {reason now : PyStr}
    (hreason : Unicode reason) (hnow : Unicode now) {writes : List Columns.Write} (hwrites : ∀ w ∈ writes, w.Python ∧ w.Bound) :
    AlwaysReported F (Columns.submitted F spec reason now) writes ↔
      Clean (.obj spec.toDict) ∧ CleanErrors F (Columns.submitted F spec reason now) writes := by
  have hsubmitted := Columns.sound_submitted (F := F) hvalid hpython reason now
  have hsound : ∀ k columns, (Columns.submitted F spec reason now).run F (writes.take k) = some columns → columns.Sound F := by
    intro k columns hrun
    have htaken : ∀ w ∈ writes.take k, w.Python := fun w hw => (hwrites w (List.mem_of_mem_take hw)).1
    obtain ⟨columns', hrun', hsound⟩ := hsubmitted.run htaken
    rw [hrun] at hrun'
    cases hrun'
    exact hsound
  constructor
  · intro h
    -- what `get` reports shows the whole row
    have hget : ∀ k columns, (Columns.submitted F spec reason now).run F (writes.take k) = some columns →
        ∃ read error items, columns.rowToJob F = some (read, error, items) ∧ Clean (.obj read.toDict) ∧ Clean error := by
      intro k columns hrun
      obtain ⟨spec', error, items, hread, -⟩ := (hsound k columns hrun).rowToJob
      have hjob : rowToJob F .blank columns = some ⟨.blank, columns.phase, spec'.reread true, error, items⟩ := by
        unfold rowToJob
        rw [hread]
        rfl
      have hreported := (Report.get.isReported_answer nofun).1 (h k columns .blank _ .get hrun hjob nofun)
      exact ⟨_, error, items, hread, hreported.2.2 rfl, hreported.1⟩
    constructor
    · obtain ⟨read, error, items, hread, hclean, -⟩ := hget 0 _ rfl
      have hspec : JobSpec.readText F (Columns.submitted F spec reason now).specJson = some (spec.sorted.reread true) :=
        (JobSpec.holds_specText F hvalid hpython).readText
      cases hspec.symm.trans (Columns.rowToJob_eq_some.1 hread).1
      have hsorted : spec.sorted.Joined := fun s hs => hjoined s (JobSpec.mem_strings_sorted.1 hs)
      rw [JobSpec.reread_of_joined true (JobSpec.isPython_sorted hpython) hsorted] at hclean
      exact fun s hs => hclean s (JobSpec.mem_strings_sorted.2 hs)
    · intro k columns error hrun herror
      obtain ⟨read, error', items, hread, -, hclean⟩ := hget k columns hrun
      cases herror.symm.trans (Columns.rowToJob_eq_some.1 hread).2.1
      exact hclean
  · rintro ⟨hclean, herrors⟩ k columns row job report hrun hjob hterminal
    have hsent := (Columns.sent_submitted (F := F) hvalid hpython hclean hreason hnow).run
      (fun w hw => (hwrites w (List.mem_of_mem_take hw)).2) hrun
    rw [report.isReported_answer hterminal]
    obtain ⟨spec', hspec', hclean'⟩ := hsent.spec
    obtain ⟨items, hitems, -, hitemsClean⟩ := hsent.readConditions
    obtain ⟨error, herror⟩ := (hsound k columns hrun).readError
    unfold rowToJob at hjob
    rw [Columns.rowToJob_eq_some.2 ⟨hspec'.readText, herror, hitems⟩,
      JobSpec.reread_of_joined true hspec'.python fun s hs => joined_of_clean (hclean' s hs)] at hjob
    obtain rfl := Option.some.inj hjob
    exact ⟨herrors k columns error hrun herror, hitemsClean, fun _ => hclean'⟩

/-- A job that was accepted is reported by every response when neither its specification nor an error recorded for it has a surrogate: a
surrogate that a body brings in alone passes the checks, and no report of the job is sent. And the response to a request is written when
neither the identifier has one nor what the response has beside it: what the operations of the manager return or raise, the name of a
method or of a tool that is not there, or the place that the schema of a tool refuses. -/
theorem accepted_reported (F : FloatText) (hF : ReadsDoubles F) (library : Library) (manager : Manager) :
    (∀ (body : PyStr) (payload : List (PyStr × PyJson)) (spec : JobSpec) (reason now : PyStr) (writes : List Columns.Write),
      Unicode body → loads F body = some (.obj payload) → JobSpec.fromDict payload = .ok spec → Unicode reason → Unicode now →
      (∀ w ∈ writes, w.Python ∧ w.Bound) →
      (AlwaysReported F (Columns.submitted F spec reason now) writes ↔
        Clean (.obj spec.toDict) ∧ CleanErrors F (Columns.submitted F spec reason now) writes)) ∧
    (∀ (runtime : JsonRpcRuntime) (request response : PyJson), (runtime.dispatch library manager request).2 = .ok (some response) →
      ((writtenLine library.float response).isSome = true ↔ Clean (requestIdOf request) ∧ RpcSendable library manager request)) ∧
    ∀ (runtime : McpRuntime) (request response : PyJson), (runtime.dispatch library manager request).2 = .ok (some response) →
      ((writtenLine library.float response).isSome = true ↔ Clean (mcpIdOf request) ∧ McpSendable library manager runtime request) := by
  have hwritten : ∀ (request response envelope : PyJson) (outcome : Except Integrations.Raised (Option PyJson)) (p : Prop),
      outcome = pure (if isNotification request = true then none else some envelope) → (Clean envelope ↔ p) →
      outcome = .ok (some response) → ((writtenLine library.float response).isSome = true ↔ p) := by
    rintro request response envelope outcome p hdispatch hclean hresponse
    have henvelope := hdispatch.symm.trans hresponse
    split at henvelope
    · cases henvelope
    · cases henvelope
      exact isSome_writtenLine.trans hclean
  refine ⟨fun body payload spec reason now writes hbody hloads hspec hreason hnow hwrites => ?_, fun runtime request response h => ?_,
    fun runtime request response h => ?_⟩
  · have hread := loads_read hF hbody hloads
    have hfrom := JobSpec.readFrom_of_fromDict hspec
    exact alwaysReported_iff hfrom.valid (hfrom.isPython hread.python) (hfrom.joined hread.joined) hreason hnow hwrites
  · obtain ⟨envelope, -, hdispatch, hclean⟩ := runtime.dispatch_envelope library manager request
    exact hwritten request response envelope _ _ hdispatch hclean h
  · rcases runtime.dispatch_cases library manager request with ⟨-, e, hdispatch⟩ | ⟨-, envelope, -, hdispatch, hclean⟩
    · cases hdispatch.symm.trans h
    · exact hwritten request response envelope _ _ hdispatch hclean h

namespace Sample

/-- What a client that holds its text to ASCII writes. -/
noncomputable def asciiText (v : PyJson) : PyStr := dumps doubleText ⟨true, false⟩ v

def echoPayload (argument : PyStr) : List (PyStr × PyJson) := [(ofString "command", .arr [.str (ofString "echo"), .str argument])]

def echoSpec (argument : PyStr) : JobSpec := { command := [.str (ofString "echo"), .str argument] }

/-- The row of such a job. -/
noncomputable def echoColumns (argument : PyStr) : Columns :=
  .submitted doubleText (echoSpec argument) (ofString "Persisted") (ofString "2026-01-01")

def methodRequest (method : PyStr) : List (PyStr × PyJson) :=
  [(ofString "jsonrpc", .str (ofString "2.0")), (ofString "id", .int 1), (ofString "method", .str method)]

/-- A surrogate that is not half of a pair. -/
def lone : PyStr := [CodePoint.ofNat 0xD800]

/-- The payload is a value of Python. -/
theorem echoPayload_isPython (argument : PyStr) : PyJson.IsPython (.obj (echoPayload argument)) :=
  ⟨List.nodup_singleton _, ⟨trivial, trivial, trivial⟩, trivial⟩

/-- The specification is a value of Python. -/
theorem echoSpec_isPython (argument : PyStr) : (echoSpec argument).IsPython :=
  ⟨JobSpec.nodup_toDict _, ⟨trivial, trivial, trivial⟩, trivial, trivial, trivial, trivial, trivial, trivial, trivial, trivial⟩

/-- An ASCII text has no surrogate. -/
theorem unicode_asciiText (v : PyJson) : Unicode (asciiText v) := fun _ hc => not_surrogate_of_ascii (ascii_dumps rfl hc)

/-- An ASCII text is read back to the value. -/
theorem loads_asciiText {v : PyJson} (hv : PyJson.IsPython v) (h : ∀ s ∈ strings v, PyStr.Joined s) :
    loads doubleText (asciiText v) = some v := loads_dumps_self doubleText _ hv h

/-- A lone surrogate is written as its escape. -/
theorem asciiText_lone : asciiText (.obj (echoPayload lone)) = ofString "\x7b\"command\":[\"echo\",\"\\ud800\"]\x7d" := by decide +kernel

/-- The job is claimed and runs: no error is recorded. -/
theorem cleanErrors_echo (argument : PyStr) : CleanErrors doubleText (echoColumns argument) [.claimNext, .markRunning] := by
  have hrun : ∀ k columns, (echoColumns argument).run doubleText (List.take k [.claimNext, .markRunning]) = some columns →
      columns.errorJson = none := by
    intro k columns hrun
    match k with
    | 0 =>
      cases hrun
      rfl
    | 1 =>
      cases hrun
      rfl
    | k + 2 =>
      rw [List.take_of_length_le (by simp)] at hrun
      cases hrun
      rfl
  intro k columns error h herror
  unfold Columns.error at herror
  rw [hrun k columns h] at herror
  cases herror
  exact clean_null

end Sample

open Sample in
/-- A job is reported while it runs, the sessions are listed, and an unknown method is answered. -/
theorem accepted_reported_echo :
    AlwaysReported doubleText (echoColumns (ofString "hi")) [.claimNext, .markRunning] ∧
      (∃ response, (JsonRpcRuntime.dispatch Integrations.Sample.python Integrations.Sample.inputClosed {}
          (.obj (methodRequest (ofString "session.list")))).2 = .ok (some response) ∧
        (writtenLine Integrations.Sample.python.float response).isSome = true) ∧
      ∃ response, (McpRuntime.dispatch Integrations.Sample.python Integrations.Sample.inputClosed ⟨true, true⟩
          (.obj (methodRequest (ofString "run")))).2 = .ok (some response) ∧
        (writtenLine Integrations.Sample.python.float response).isSome = true := by
  have hpayload := echoPayload_isPython (ofString "hi")
  have hreported := accepted_reported doubleText readsDoubles_doubleText Integrations.Sample.python Integrations.Sample.inputClosed
  refine ⟨?_, ⟨_, rfl, ?_⟩, _, rfl, ?_⟩
  · refine (hreported.1 _ (echoPayload (ofString "hi")) (echoSpec (ofString "hi")) _ _ [.claimNext, .markRunning] (unicode_asciiText _)
      (loads_asciiText hpayload (by decide)) (by rfl) (unicode_ofString _) (unicode_ofString _) ?_).2
        ⟨by unfold Clean; decide, cleanErrors_echo _⟩
    simp [Columns.Write.Python, Columns.Write.Bound]
  · refine (hreported.2.1 {} (.obj (methodRequest (ofString "session.list"))) _ rfl).2 ⟨clean_int 1, fun method params hinvokes => ?_⟩
    cases hinvokes.method
    cases hinvokes.params
    refine ⟨unicode_ofString _, fun call hcall => ?_⟩
    cases hcall
    exact clean_arr.2 fun x hx => by cases hx
  · refine (hreported.2.2 ⟨true, true⟩ (.obj (methodRequest (ofString "run"))) _ rfl).2 ⟨clean_int 1, fun method params hinvokes _ => ?_⟩
    cases hinvokes.method
    exact ⟨unicode_ofString _, fun h => absurd (ofString_injective h) (by decide)⟩

open Sample in
/-- A body with a lone surrogate is accepted, and the response to the submission is an internal error: the job was committed. And the
response to a request for a method with such a name is not written. -/
theorem lone_surrogate_unreported :
    asciiText (.obj (echoPayload lone)) = ofString "\x7b\"command\":[\"echo\",\"\\ud800\"]\x7d" ∧
      loads doubleText (asciiText (.obj (echoPayload lone))) = some (.obj (echoPayload lone)) ∧
      JobSpec.fromDict (echoPayload lone) = .ok (echoSpec lone) ∧
      (∃ job, rowToJob doubleText .blank (echoColumns lone) = some job ∧ (Report.submit true).answer doubleText job = .internalError 500) ∧
      ¬AlwaysReported doubleText (echoColumns lone) [] ∧
      ∃ response, (JsonRpcRuntime.dispatch Integrations.Sample.python Integrations.Sample.inputClosed {}
          (.obj (methodRequest lone))).2 = .ok (some response) ∧
        writtenLine Integrations.Sample.python.float response = none := by
  have hspec : JobSpec.fromDict (echoPayload lone) = .ok (echoSpec lone) := by rfl
  have hvalid := (JobSpec.readFrom_of_fromDict hspec).valid
  have hsound : (echoColumns lone).Sound doubleText := Columns.sound_submitted hvalid (echoSpec_isPython lone) _ _
  have hdirty : ¬Clean (.obj (echoSpec lone).toDict) := by
    unfold Clean
    decide
  have hjoined : (echoSpec lone).sorted.Joined := by
    unfold JobSpec.Joined
    decide
  have hread := (JobSpec.holds_specText doubleText hvalid (echoSpec_isPython lone)).readText
  rw [JobSpec.reread_of_joined true (JobSpec.isPython_sorted (echoSpec_isPython lone)) hjoined] at hread
  obtain ⟨error, herror⟩ := hsound.readError
  obtain ⟨items, hitems, -⟩ := hsound.readConditions
  have hjob : rowToJob doubleText .blank (echoColumns lone) = some
    ⟨.blank, (echoColumns lone).phase, (echoSpec lone).sorted, error, items⟩ := by
    have hcolumns : (echoColumns lone).rowToJob doubleText = some ((echoSpec lone).sorted, error, items) :=
      Columns.rowToJob_eq_some.2 ⟨hread, herror, hitems⟩
    unfold rowToJob
    rw [hcolumns]
    rfl
  have hrefused : ((Report.submit true).answer doubleText
    ⟨.blank, (echoColumns lone).phase, (echoSpec lone).sorted, error, items⟩).isReported = false := by
    rw [Bool.eq_false_iff, Ne, (Report.submit true).isReported_answer nofun]
    rintro ⟨-, -, hclean⟩
    exact hdirty fun s hs => hclean rfl s (JobSpec.mem_strings_sorted.2 hs)
  refine ⟨asciiText_lone, loads_asciiText (echoPayload_isPython lone) (by decide), hspec, ⟨_, hjob, ?_⟩, fun h => ?_, _, rfl,
    by decide +kernel⟩
  · exact (Report.submit true).answer_of_not_reported nofun hrefused
  · rw [h 0 _ .blank _ (.submit true) rfl hjob nofun] at hrefused
    cases hrefused

end Texts

end SharkRail
