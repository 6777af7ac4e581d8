import SharkRail.Runtime.Recorder

/-!
# The audit log

An event gets its number under the condition of its session, and its record is written later, by whichever thread comes first to the lock
of the recorder. The file is in the order of the numbers where the threads come to it in that order, and complete where no emit is
cancelled whose record waits for a thread (`audit_log_ordered`); two emits of one session suffice to write them the other way round
(`audit_log_overtaken`).
-/

namespace SharkRail

namespace Runtime

namespace AuditedSessions

variable {s s' : AuditedSessions} {sessionId : String}

/-- A record is written after those of all earlier events of its session, and no emit is cancelled whose record waits for a thread, unless
the recorder has stopped to be complete. -/
def InOrder (s : AuditedSessions) : AuditInput → Prop
  | .records i _ =>
    ∀ call, s.calls[i]? = some call → call.stage = .running →
      ∀ other ∈ s.calls, other.event.sessionId = call.event.sessionId → other.outstanding = true → call.event.seq ≤ other.event.seq
  | .cancel i =>
    s.recorder.truncated = false → s.recorder.failed = false → ∀ call, s.calls[i]? = some call → call.stage ≠ .queued
  | _ => True

/-- Sessions with a new recorder; `size` is what is in the file already. -/
def start (maxBytes : Nat) (includeOutput : Bool) (encodedBytes : AuditRecord → Nat) (size : Nat) : AuditedSessions :=
  { recorder := { maxBytes, includeOutput, encodedBytes, size } }

/-! ## The events and their calls -/

/-- The emits of every session are numbered from 0 on. -/
structure NumberedEmits (s : AuditedSessions) : Prop where
  increasing : (s.calls.map (·.event)).Pairwise fun a b => a.sessionId = b.sessionId → a.seq < b.seq
  below : ∀ event ∈ s.calls.map (·.event), event.seq < s.nextEventSeq event.sessionId
  all : ∀ sessionId n, n < s.nextEventSeq sessionId → ∃ event ∈ s.calls.map (·.event), event.sessionId = sessionId ∧ event.seq = n

theorem NumberedEmits.same (h : NumberedEmits s) (hnext : s'.nextEventSeq = s.nextEventSeq)
    (hcalls : s'.calls.map (·.event) = s.calls.map (·.event)) : NumberedEmits s' := by
  refine ⟨?_, ?_, ?_⟩
  · rw [hcalls]
    exact h.increasing
  · rw [hcalls, hnext]
    exact h.below
  · rw [hcalls, hnext]
    exact h.all

/-- A call that goes on is about the same event. -/
theorem map_event_setCall {i : Nat} {call call' : RecordCall} (hcall : s.calls[i]? = some call) (hevent : call'.event = call.event) :
    (s.setCall i call').calls.map (·.event) = s.calls.map (·.event) := by
  obtain ⟨hi, rfl⟩ := List.getElem?_eq_some_iff.1 hcall
  change (s.calls.set i call').map _ = _
  rw [List.map_set, hevent]
  exact List.ext_getElem (by simp) fun j _ _ => by
    rw [List.getElem_set]
    split
    · rename_i hij
      subst hij
      simp
    · rfl

theorem NumberedEmits.emit (h : NumberedEmits s) (sessionId traceId : String) (kind : LifecycleEventType) (timestamp : String)
    (payload : List (PyStr × PyJson)) : NumberedEmits (s.emit sessionId traceId kind timestamp payload) := by
  obtain ⟨hincreasing, hbelow, hall⟩ := h
  have hcalls : (s.emit sessionId traceId kind timestamp payload).calls.map (·.event) =
      s.calls.map (·.event) ++ [⟨sessionId, traceId, s.nextEventSeq sessionId, kind, timestamp, payload⟩] := by
    simp [AuditedSessions.emit]
  have hnext : ∀ x, (s.emit sessionId traceId kind timestamp payload).nextEventSeq x =
      if x = sessionId then s.nextEventSeq sessionId + 1 else s.nextEventSeq x := fun _ => rfl
  refine ⟨?_, ?_, ?_⟩
  · rw [hcalls]
    refine List.pairwise_append.2 ⟨hincreasing, List.pairwise_singleton _ _, fun event hevent new hnew hsame => ?_⟩
    rw [List.mem_singleton.1 hnew] at hsame ⊢
    have hlt := hbelow event hevent
    rwa [hsame] at hlt
  · intro event hevent
    rw [hcalls] at hevent
    rw [hnext]
    rcases List.mem_append.1 hevent with hevent | hevent
    · have hlt := hbelow event hevent
      split
      · rename_i hsame
        rw [hsame] at hlt
        omega
      · exact hlt
    · rw [List.mem_singleton.1 hevent, if_pos rfl]
      exact Nat.lt_succ_self _
  · intro x n hn
    rw [hcalls]
    rw [hnext] at hn
    by_cases hnew : x = sessionId ∧ n = s.nextEventSeq sessionId
    · exact ⟨_, List.mem_append_right _ (List.mem_singleton_self _), hnew.1.symm, hnew.2.symm⟩
    · have hold : n < s.nextEventSeq x := by
        split at hn
        · rename_i hsame
          subst hsame
          have hne : n ≠ s.nextEventSeq x := fun hn => hnew ⟨rfl, hn⟩
          omega
        · exact hn
      obtain ⟨event, hevent, hfound⟩ := hall x n hold
      exact ⟨event, List.mem_append_left _ hevent, hfound⟩

/-! ## The file -/

/-- The records of a session in the file are those of calls that have returned, in the order of their numbers, and every call that may
still write is about a later event. While the recorder is complete, they are all records up to some number. -/
structure Logged (sessionId : String) (s : AuditedSessions) : Prop where
  recorded : ∀ a ∈ s.calls, ∀ b ∈ s.calls, a.event.sessionId = sessionId → b.event.sessionId = sessionId → a.stage = .recorded →
    b.outstanding = true → a.event.seq < b.event.seq
  lines : ∀ n ∈ s.recordedSeqs sessionId, ∃ call ∈ s.calls, call.event.sessionId = sessionId ∧ call.stage = .recorded ∧ call.event.seq = n
  increasing : (s.recordedSeqs sessionId).Pairwise (· < ·)
  complete : s.recorder.truncated = false → s.recorder.failed = false → ∃ n, s.recordedSeqs sessionId = List.range n ∧
    ∀ call ∈ s.calls, call.event.sessionId = sessionId →
      call.stage ≠ .dropped ∧ (call.stage = .recorded → call.event.seq < n) ∧ (call.outstanding = true → n ≤ call.event.seq)
  returned : ∀ call ∈ s.calls, call.returned = true → call.stage = .recorded

/-- Another call than the one that goes on stays in the list. -/
theorem mem_set_of_ne {i : Nat} {call call' a : RecordCall} (hcall : s.calls[i]? = some call) (ha : a ∈ s.calls) (hne : a ≠ call) :
    a ∈ s.calls.set i call' := by
  obtain ⟨j, hj⟩ := List.mem_iff_getElem?.1 ha
  have hij : i ≠ j := by
    rintro rfl
    rw [hj] at hcall
    exact hne (Option.some.inj hcall)
  exact List.mem_of_getElem? ((List.getElem?_set_ne hij).trans hj)

/-- A call goes on, while the file stays as it is. -/
theorem Logged.goesOn (h : Logged sessionId s) {i : Nat} {call call' : RecordCall} (hcall : s.calls[i]? = some call)
    (hevent : call'.event = call.event) (hrecorded : call'.stage = .recorded ↔ call.stage = .recorded)
    (houtstanding : call'.outstanding = true → call.outstanding = true) (hreturned : call'.returned = true → call'.stage = .recorded)
    (hdropped : s.recorder.truncated = false → s.recorder.failed = false → call'.stage = .dropped → call.stage = .dropped) :
    Logged sessionId (s.setCall i call') := by
  have hmem := List.mem_of_getElem? hcall
  have hback : ∀ a ∈ (s.setCall i call').calls, ∃ b ∈ s.calls, a.event = b.event ∧ (a.stage = .recorded ↔ b.stage = .recorded) ∧
      (a.outstanding = true → b.outstanding = true) ∧
      (s.recorder.truncated = false → s.recorder.failed = false → a.stage = .dropped → b.stage = .dropped) := by
    intro a ha
    rcases List.mem_or_eq_of_mem_set ha with ha | rfl
    · exact ⟨a, ha, rfl, Iff.rfl, id, fun _ _ => id⟩
    · exact ⟨call, hmem, hevent, hrecorded, houtstanding, hdropped⟩
  refine ⟨fun a ha b hb hax hbx har hbo => ?_, fun n hn => ?_, h.increasing, fun htruncated hfailed => ?_, fun a ha har => ?_⟩
  · obtain ⟨a', ha', hae, harec, -, -⟩ := hback a ha
    obtain ⟨b', hb', hbe, -, hbout, -⟩ := hback b hb
    rw [hae, hbe]
    exact h.recorded a' ha' b' hb' (hae ▸ hax) (hbe ▸ hbx) (harec.1 har) (hbout hbo)
  · obtain ⟨a, ha, hax, har, han⟩ := h.lines n hn
    by_cases hsame : a = call
    · subst hsame
      exact ⟨call', List.mem_set (List.getElem?_eq_some_iff.1 hcall).1 call', hevent ▸ hax, hrecorded.2 har, hevent ▸ han⟩
    · refine ⟨a, ?_, hax, har, han⟩
      exact mem_set_of_ne hcall ha hsame
  · obtain ⟨n, hrange, hcalls⟩ := h.complete htruncated hfailed
    refine ⟨n, hrange, fun a ha hax => ?_⟩
    obtain ⟨b, hb, hae, harec, haout, hadrop⟩ := hback a ha
    obtain ⟨hdrop, hrec, hout⟩ := hcalls b hb (hae ▸ hax)
    rw [hae]
    exact ⟨fun hd => hdrop (hadrop htruncated hfailed hd), fun hr => hrec (harec.1 hr), fun ho => hout (haout ho)⟩
  · rcases List.mem_or_eq_of_mem_set ha with ha | rfl
    · exact h.returned a ha har
    · exact hreturned har

theorem Logged.emit (hnumbered : NumberedEmits s) (h : Logged sessionId s) (x traceId : String) (kind : LifecycleEventType)
    (timestamp : String) (payload : List (PyStr × PyJson)) : Logged sessionId (s.emit x traceId kind timestamp payload) := by
  have hbelow : ∀ call ∈ s.calls, call.event.seq < s.nextEventSeq call.event.sessionId :=
    fun call hcall => hnumbered.below _ (List.mem_map_of_mem hcall)
  have hnew : ∀ call ∈ (s.emit x traceId kind timestamp payload).calls, call ∈ s.calls ∨
      call = ⟨⟨x, traceId, s.nextEventSeq x, kind, timestamp, payload⟩, .queued, false, false⟩ := by
    intro call hcall
    rcases List.mem_append.1 hcall with hcall | hcall
    · exact Or.inl hcall
    · exact Or.inr (List.mem_singleton.1 hcall)
  refine ⟨fun a ha b hb hax hbx har hbo => ?_, fun n hn => ?_, h.increasing, fun htruncated hfailed => ?_, fun a ha har => ?_⟩
  · rcases hnew a ha with ha | rfl
    · rcases hnew b hb with hb | rfl
      · exact h.recorded a ha b hb hax hbx har hbo
      · have hlt := hbelow a ha
        rw [hax, ← hbx] at hlt
        exact hlt
    · cases har
  · obtain ⟨call, hcall, hfound⟩ := h.lines n hn
    exact ⟨call, List.mem_append_left _ hcall, hfound⟩
  · obtain ⟨n, hrange, hcalls⟩ := h.complete htruncated hfailed
    refine ⟨n, hrange, fun call hcall hx => ?_⟩
    rcases hnew call hcall with hcall | rfl
    · exact hcalls call hcall hx
    · refine ⟨nofun, nofun, fun _ => ?_⟩
      cases n with
      | zero => exact Nat.zero_le _
      | succ n =>
        have hlast : n ∈ s.recordedSeqs sessionId := by
          rw [hrange]
          exact List.mem_range.2 (Nat.lt_succ_self n)
        obtain ⟨call, hcall, hsame, -, rfl⟩ := h.lines n hlast
        have hlt := hbelow call hcall
        rw [hsame, ← hx] at hlt
        exact hlt
  · rcases hnew a ha with ha | rfl
    · exact h.returned a ha har
    · cases har

/-- A record that is written stands at the end of the file; else the file stays as it is, and the recorder is not complete any more. -/
theorem record_lines (recorder : EventRecorder) (event : AuditRecord) (outcome : RecordOutcome) :
    (recorder.record event outcome).lines =
        recorder.lines ++ [{ event with payload := recorder.safePayload event.kind event.payload }] ∧
      (recorder.record event outcome).truncated = recorder.truncated ∧ (recorder.record event outcome).failed = recorder.failed ∨
    (recorder.record event outcome).lines = recorder.lines ∧
      ((recorder.record event outcome).truncated = true ∨ (recorder.record event outcome).failed = true) := by
  unfold EventRecorder.record
  cases outcome with
  | statFails => exact Or.inr ⟨rfl, Or.inr rfl⟩
  | writeFails torn =>
    dsimp only
    split
    · exact Or.inr ⟨rfl, Or.inl rfl⟩
    · exact Or.inr ⟨rfl, Or.inr rfl⟩
  | written =>
    dsimp only
    split
    · exact Or.inr ⟨rfl, Or.inl rfl⟩
    · exact Or.inl ⟨rfl, rfl, rfl⟩

/-- The calls after a record is written: the others are as they were. -/
theorem mem_setCall {i : Nat} {call' b : RecordCall} (hb : b ∈ s.calls.set i call') :
    b = call' ∨ ∃ j, i ≠ j ∧ s.calls[j]? = some b := by
  obtain ⟨j, hj, rfl⟩ := List.mem_iff_getElem.1 hb
  rw [List.getElem_set]
  split
  · exact Or.inl rfl
  · rename_i hij
    exact Or.inr ⟨j, hij, List.getElem?_eq_getElem (by simpa using hj)⟩

/-- Two calls of one session are about different events. -/
theorem NumberedEmits.seq_ne (h : NumberedEmits s) {i j : Nat} {a b : RecordCall} (hij : i ≠ j) (ha : s.calls[i]? = some a)
    (hb : s.calls[j]? = some b) (hsame : a.event.sessionId = b.event.sessionId) : a.event.seq ≠ b.event.seq := by
  obtain ⟨hi, rfl⟩ := List.getElem?_eq_some_iff.1 ha
  obtain ⟨hj, rfl⟩ := List.getElem?_eq_some_iff.1 hb
  have hpairwise := List.pairwise_iff_getElem.1 h.increasing
  rcases Nat.lt_or_gt_of_ne hij with hlt | hlt
  · have hseq := hpairwise i j (by simpa using hi) (by simpa using hj) hlt
    simp only [List.getElem_map] at hseq
    exact Nat.ne_of_lt (hseq hsame)
  · have hseq := hpairwise j i (by simpa using hj) (by simpa using hi) hlt
    simp only [List.getElem_map] at hseq
    exact Nat.ne_of_gt (hseq hsame.symm)

theorem Logged.records (hnumbered : NumberedEmits s) (h : Logged sessionId s) {i : Nat} {outcome : RecordOutcome} {call : RecordCall}
    (hcall : s.calls[i]? = some call) (hrunning : call.stage = .running) (horder : InOrder s (.records i outcome)) :
    Logged sessionId
      ({ s with recorder := s.recorder.record call.event outcome }.setCall i { call with stage := .recorded }) := by
  have hmem := List.mem_of_getElem? hcall
  have hi := (List.getElem?_eq_some_iff.1 hcall).1
  have hout : call.outstanding = true := by simp [RecordCall.outstanding, hrunning]
  -- every other call of the session that may still write is about a later event
  have hlater : ∀ j b, i ≠ j → s.calls[j]? = some b → b.event.sessionId = call.event.sessionId → b.outstanding = true →
      call.event.seq < b.event.seq := by
    intro j b hij hb hsame hbo
    have hle := horder call hcall hrunning b (List.mem_of_getElem? hb) hsame hbo
    have hne := hnumbered.seq_ne hij hcall hb hsame.symm
    omega
  have hnew : call.event.sessionId = sessionId → ∀ n ∈ s.recordedSeqs sessionId, n < call.event.seq := by
    intro hx n hn
    obtain ⟨a, ha, hax, har, rfl⟩ := h.lines n hn
    exact h.recorded a ha call hmem hax hx har hout
  have hrecords : ∀ a ∈ s.calls, a.stage = .recorded → a ∈ s.calls.set i { call with stage := .recorded } := by
    intro a ha har
    refine mem_set_of_ne hcall ha ?_
    rintro rfl
    cases hrunning.symm.trans har
  have hrecorded : ∀ a ∈ s.calls.set i { call with stage := .recorded }, ∀ b ∈ s.calls.set i { call with stage := .recorded },
      a.event.sessionId = sessionId → b.event.sessionId = sessionId → a.stage = .recorded → b.outstanding = true →
      a.event.seq < b.event.seq := by
    intro a ha b hb hax hbx har hbo
    rcases mem_setCall hb with rfl | ⟨k, hik, hb⟩
    · cases hbo
    · rcases mem_setCall ha with rfl | ⟨j, -, ha⟩
      · exact hlater k b hik hb (hbx.trans hax.symm) hbo
      · exact h.recorded a (List.mem_of_getElem? ha) b (List.mem_of_getElem? hb) hax hbx har hbo
  have hreturned : ∀ a ∈ s.calls.set i { call with stage := .recorded }, a.returned = true → a.stage = .recorded := by
    intro a ha har
    rcases mem_setCall ha with rfl | ⟨j, -, ha⟩
    · rfl
    · exact h.returned a (List.mem_of_getElem? ha) har
  have hlines : ∀ n ∈ s.recordedSeqs sessionId, ∃ a ∈ s.calls.set i { call with stage := .recorded },
      a.event.sessionId = sessionId ∧ a.stage = .recorded ∧ a.event.seq = n := by
    intro n hn
    obtain ⟨a, ha, hax, har, han⟩ := h.lines n hn
    exact ⟨a, hrecords a ha har, hax, har, han⟩
  rcases record_lines s.recorder call.event outcome with ⟨hwritten, htruncated, hfailed⟩ | ⟨hsame, hstopped⟩
  · by_cases hx : call.event.sessionId = sessionId
    · have hseqs : recordedSeqs sessionId
          ({ s with recorder := s.recorder.record call.event outcome }.setCall i { call with stage := .recorded }) =
          s.recordedSeqs sessionId ++ [call.event.seq] := by
        simp [recordedSeqs, setCall, hwritten, hx]
      refine ⟨hrecorded, fun n hn => ?_, ?_, fun htruncated' hfailed' => ?_, hreturned⟩
      · rw [hseqs] at hn
        rcases List.mem_append.1 hn with hn | hn
        · exact hlines n hn
        · exact ⟨_, List.mem_set hi _, hx, rfl, (List.mem_singleton.1 hn).symm⟩
      · rw [hseqs]
        refine List.pairwise_append.2 ⟨h.increasing, List.pairwise_singleton _ _, fun n hn m hm => ?_⟩
        rw [List.mem_singleton.1 hm]
        exact hnew hx n hn
      · obtain ⟨n, hrange, hcalls⟩ := h.complete (htruncated.symm.trans htruncated') (hfailed.symm.trans hfailed')
        -- the call is about the first event that is not in the file
        have hnext : call.event.seq = n := by
          refine Nat.le_antisymm (Nat.le_of_not_lt fun hlt => ?_) ((hcalls call hmem hx).2.2 hout)
          have hbelow := hnumbered.below _ (List.mem_map_of_mem hmem)
          rw [hx] at hbelow
          obtain ⟨event, hevent, hsession, hseq⟩ := hnumbered.all sessionId n (Nat.lt_trans hlt hbelow)
          obtain ⟨b, hb, rfl⟩ := List.mem_map.1 hevent
          obtain ⟨hdrop, hrec, -⟩ := hcalls b hb hsession
          have hbo : b.outstanding = true := by
            cases hstage : b.stage with
            | queued | running => simp [RecordCall.outstanding, hstage]
            | recorded => exact absurd (hrec hstage) (by omega)
            | dropped => exact absurd hstage hdrop
          have hle := horder call hcall hrunning b hb (hsession.trans hx.symm) hbo
          omega
        refine ⟨n + 1, ?_, fun b hb hbx => ?_⟩
        · rw [hseqs, hrange, hnext, List.range_succ]
        · rcases mem_setCall hb with rfl | ⟨j, hij, hb⟩
          · refine ⟨nofun, fun _ => ?_, nofun⟩
            change call.event.seq < n + 1
            omega
          · obtain ⟨hdrop, hrec, -⟩ := hcalls b (List.mem_of_getElem? hb) hbx
            refine ⟨hdrop, fun hstage => Nat.lt_succ_of_lt (hrec hstage), fun hbo => ?_⟩
            have hlt := hlater j b hij hb (hbx.trans hx.symm) hbo
            omega
    · have hseqs : recordedSeqs sessionId
          ({ s with recorder := s.recorder.record call.event outcome }.setCall i { call with stage := .recorded }) =
          s.recordedSeqs sessionId := by
        simp [recordedSeqs, setCall, hwritten, hx]
      refine ⟨hrecorded, ?_, ?_, fun htruncated' hfailed' => ?_, hreturned⟩
      · rw [hseqs]
        exact hlines
      · rw [hseqs]
        exact h.increasing
      · obtain ⟨n, hrange, hcalls⟩ := h.complete (htruncated.symm.trans htruncated') (hfailed.symm.trans hfailed')
        refine ⟨n, hseqs.trans hrange, fun b hb hbx => ?_⟩
        rcases mem_setCall hb with rfl | ⟨j, -, hb⟩
        · exact absurd hbx hx
        · exact hcalls b (List.mem_of_getElem? hb) hbx
  · have hseqs : recordedSeqs sessionId
        ({ s with recorder := s.recorder.record call.event outcome }.setCall i { call with stage := .recorded }) =
        s.recordedSeqs sessionId := by
      simp [recordedSeqs, setCall, hsame]
    refine ⟨hrecorded, ?_, ?_, fun htruncated' hfailed' => ?_, hreturned⟩
    · rw [hseqs]
      exact hlines
    · rw [hseqs]
      exact h.increasing
    · rcases hstopped with hstopped | hstopped
      · cases hstopped.symm.trans htruncated'
      · cases hstopped.symm.trans hfailed'

/-! ## Runs -/

theorem NumberedEmits.step (h : NumberedEmits s) (input : AuditInput) : NumberedEmits (s.step input) := by
  cases input with
  | emit x traceId kind timestamp payload => exact h.emit x traceId kind timestamp payload
  | begins i | returns i =>
    unfold AuditedSessions.step
    dsimp only
    split
    · rename_i hcall
      split
      · exact h.same rfl (map_event_setCall hcall rfl)
      · exact h
    · exact h
  | records i outcome =>
    unfold AuditedSessions.step
    dsimp only
    split
    · rename_i hcall
      split
      · exact h.same rfl (map_event_setCall hcall rfl)
      · exact h
    · exact h
  | cancel i =>
    unfold AuditedSessions.step
    dsimp only
    split
    · rename_i hcall
      exact h.same rfl (map_event_setCall hcall rfl)
    · exact h
  | grows bytes => exact h.same rfl rfl

theorem Logged.step (hnumbered : NumberedEmits s) (h : Logged sessionId s) {input : AuditInput} (horder : InOrder s input) :
    Logged sessionId (s.step input) := by
  cases input with
  | emit x traceId kind timestamp payload => exact h.emit hnumbered x traceId kind timestamp payload
  | begins i =>
    unfold AuditedSessions.step
    dsimp only
    split
    · rename_i call hcall
      split
      · rename_i hqueued
        have hreturned : call.returned = true → RecordStage.running = .recorded := by
          intro hr
          have hrecorded := h.returned call (List.mem_of_getElem? hcall) hr
          rw [hqueued] at hrecorded
          cases hrecorded
        exact h.goesOn hcall rfl (by simp [hqueued]) (fun _ => by simp [RecordCall.outstanding, hqueued]) hreturned nofun
      · exact h
    · exact h
  | records i outcome =>
    unfold AuditedSessions.step
    dsimp only
    split
    · rename_i hcall
      split
      · rename_i hrunning
        exact h.records hnumbered hcall hrunning horder
      · exact h
    · exact h
  | returns i =>
    unfold AuditedSessions.step
    dsimp only
    split
    · rename_i hcall
      split
      · rename_i hrecorded
        exact h.goesOn hcall rfl Iff.rfl id (fun _ => hrecorded.1) fun _ _ => id
      · exact h
    · exact h
  | cancel i =>
    unfold AuditedSessions.step
    dsimp only
    split
    · rename_i call hcall
      by_cases hqueued : call.stage = .queued
      · simp only [hqueued, if_true]
        have hreturned : call.returned = true → RecordStage.dropped = .recorded := by
          intro hr
          have hrecorded := h.returned call (List.mem_of_getElem? hcall) hr
          rw [hqueued] at hrecorded
          cases hrecorded
        exact h.goesOn hcall rfl (by simp [hqueued]) nofun hreturned fun htruncated hfailed _ =>
          absurd hqueued (horder htruncated hfailed call hcall)
      · simp only [hqueued, if_false]
        exact h.goesOn hcall rfl Iff.rfl id (h.returned call (List.mem_of_getElem? hcall)) fun _ _ => id
    · exact h
  | grows bytes => exact ⟨h.recorded, h.lines, h.increasing, h.complete, h.returned⟩

/-- Before the first emit there is no call and no line. -/
theorem logged_start (maxBytes : Nat) (includeOutput : Bool) (encodedBytes : AuditRecord → Nat) (size : Nat) (sessionId : String) :
    Logged sessionId (start maxBytes includeOutput encodedBytes size) := by
  have hcalls : (start maxBytes includeOutput encodedBytes size).calls = [] := rfl
  have hseqs : (start maxBytes includeOutput encodedBytes size).recordedSeqs sessionId = [] := rfl
  refine ⟨?_, ?_, ?_, ?_, ?_⟩
  · simp [hcalls]
  · simp [hseqs]
  · simp [hseqs]
  · intro _ _
    exact ⟨0, by simp [hseqs, hcalls]⟩
  · simp [hcalls]

/-- In every run whose records are written in order, the records of each session stand in the file in strictly increasing order of their
numbers; until the recorder is truncated or fails, they are all those from 0 to some number that no emit which has returned exceeds. -/
theorem audit_log_ordered (maxBytes : Nat) (includeOutput : Bool) (encodedBytes : AuditRecord → Nat) (size : Nat) (sessionId : String)
    {inputs : List AuditInput} (horder : Machine.Guarded step InOrder (start maxBytes includeOutput encodedBytes size) inputs) :
    let s := Machine.run step (start maxBytes includeOutput encodedBytes size) inputs
    (s.recordedSeqs sessionId).Pairwise (· < ·) ∧
      (s.recorder.truncated = false → s.recorder.failed = false → ∃ n, s.recordedSeqs sessionId = List.range n ∧
        ∀ call ∈ s.calls, call.event.sessionId = sessionId → call.returned = true → call.event.seq < n) := by
  have hstart : NumberedEmits (start maxBytes includeOutput encodedBytes size) ∧
      Logged sessionId (start maxBytes includeOutput encodedBytes size) :=
    ⟨⟨List.Pairwise.nil, nofun, nofun⟩, logged_start maxBytes includeOutput encodedBytes size sessionId⟩
  obtain ⟨-, hlogged⟩ := Machine.run_induct_of_guarded (P := fun s => NumberedEmits s ∧ Logged sessionId s)
    (fun _ input h hg => ⟨h.1.step input, h.2.step h.1 hg⟩) horder hstart
  refine ⟨hlogged.increasing, fun htruncated hfailed => ?_⟩
  obtain ⟨n, hrange, hcalls⟩ := hlogged.complete htruncated hfailed
  exact ⟨n, hrange, fun call hcall hsession hreturned =>
    (hcalls call hcall hsession).2.1 (hlogged.returned call hcall hreturned)⟩

namespace Sample

/-- The monitor and a cancel of session 1 emit, and two threads begin their records. -/
def twoEmits : List AuditInput :=
  [.emit "1" "t" .processExited "2026-01-01T00:00:00+00:00" [], .emit "1" "t" .cancellationStep "2026-01-01T00:00:00+00:00" [], .begins 0,
    .begins 1]

/-- The first thread comes first to the lock. -/
def inTurn : List AuditInput := twoEmits ++ [.records 0 .written, .returns 0, .records 1 .written]

/-- The second thread comes first to the lock. -/
def overtaken : List AuditInput := twoEmits ++ [.records 1 .written, .records 0 .written]

end Sample

theorem audit_log_ordered_sample :
    (recordedSeqs "1" (Machine.run step (start 1000 false (fun _ => 100) 0) Sample.inTurn)).Pairwise (· < ·) := by
  have horder : Machine.Guarded step InOrder (start 1000 false (fun _ => 100) 0) Sample.inTurn := by
    refine ⟨trivial, trivial, trivial, trivial, ?_, trivial, ?_, trivial⟩
    · rintro _ ⟨⟩ -
      decide
    · rintro _ ⟨⟩ -
      decide
  exact (audit_log_ordered 1000 false (fun _ => 100) 0 "1" horder).1

/-- Two emits of one session are recorded the other way round. -/
theorem audit_log_overtaken :
    ¬∀ (maxBytes : Nat) (includeOutput : Bool) (encodedBytes : AuditRecord → Nat) (size : Nat) (sessionId : String)
      (inputs : List AuditInput),
      (recordedSeqs sessionId (Machine.run step (start maxBytes includeOutput encodedBytes size) inputs)).Pairwise (· < ·) := by
  intro h
  have hovertaken := h 1000 false (fun _ => 100) 0 "1" Sample.overtaken
  revert hovertaken
  decide

end AuditedSessions

end Runtime

end SharkRail
