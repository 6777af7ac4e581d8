import SharkRail.Runtime.AppendOutput

/-!
# Loss accounting

Every byte that a reader was given is in the total. It is in a buffer, or was counted as dropped, or is still to be counted by the
reader that dropped it, which waits for its output event to be emitted. A reader that is cancelled there never counts it
(`cancelled_reader_loses_count`), and this is the only way that the result can be wrong (`loss_accounting`).
-/

namespace SharkRail

namespace Runtime

namespace SessionOutput

variable {policy : OutputPolicy} {s : SessionOutput} {stream : OutputStream} {data : Bytes}

/-- The dropped bytes that the readers have still to count. -/
def uncountedAll (s : SessionOutput) : Nat :=
  (s.readers .stdout).uncounted + (s.readers .stderr).uncounted + (s.readers .pty).uncounted

/-- Where the bytes that were received are; `owed` bytes were dropped by the part of `append_output` that runs. -/
structure Accounts (policy : OutputPolicy) (owed : Nat) (s : SessionOutput) : Prop where
  total : s.totalOutputBytes =
    s.stdout.length + s.stderr.length + s.truncatedOutputBytes + s.uncountedAll + s.lost + owed
  received : s.totalOutputBytes = s.received.1.length + s.received.2.length
  stdout : s.stdout.Sublist s.received.1
  stderr : s.stderr.Sublist s.received.2
  ptyOnly : policy.pty = true → s.stderr = []
  unread : ∀ stream, hasReader policy stream = false → s.readers stream = .reading ∨ s.readers stream = .done
  built : ∀ r ∈ s.result, s.complete.result = some r ∧ ∀ stream, hasReader policy stream = true → s.readers stream = .done

/-! ## Readers -/

theorem uncountedAll_setReader (s : SessionOutput) (stream : OutputStream) (reader : Reader) :
    (s.setReader stream reader).uncountedAll + (s.readers stream).uncounted = s.uncountedAll + reader.uncounted := by
  cases stream <;> simp [uncountedAll, setReader] <;> omega

/-- What a step may change of the output besides a reader: nothing of what was received, and after the result nothing else. -/
structure SameBytes (s s' : SessionOutput) : Prop where
  stdout : s'.stdout = s.stdout
  stderr : s'.stderr = s.stderr
  totalOutputBytes : s'.totalOutputBytes = s.totalOutputBytes
  received : s'.received = s.received
  readers : s'.readers = s.readers
  result : s'.result = s.result
  truncated : s.result.isSome = true → s'.truncatedOutputBytes = s.truncatedOutputBytes

/-- A reader goes on: what was dropped was counted, was lost, is owed, or is left to the reader. -/
theorem Accounts.setReader {owed owed' : Nat} {s' : SessionOutput} (h : Accounts policy owed s) (hsame : SameBytes s s')
    (reader : Reader) (hreader : hasReader policy stream = false → reader = .reading ∨ reader = .done)
    (hdone : s.result.isSome = true → hasReader policy stream = true → reader = .done)
    (hcounted : s'.truncatedOutputBytes + s'.lost + reader.uncounted + owed' =
      s.truncatedOutputBytes + s.lost + (s.readers stream).uncounted + owed) :
    Accounts policy owed' (s'.setReader stream reader) := by
  have hpending := uncountedAll_setReader s' stream reader
  have hsum : s'.uncountedAll = s.uncountedAll := by simp only [uncountedAll, hsame.readers]
  refine ⟨?_, ?_, ?_, ?_, fun hpty => ?_, fun x hx => ?_, fun r hr => ?_⟩
  · have htotal := h.total
    change s'.totalOutputBytes = s'.stdout.length + s'.stderr.length + s'.truncatedOutputBytes +
      (s'.setReader stream reader).uncountedAll + s'.lost + owed'
    rw [hsame.readers] at hpending
    rw [hsame.stdout, hsame.stderr, hsame.totalOutputBytes]
    omega
  · change s'.totalOutputBytes = s'.received.1.length + s'.received.2.length
    rw [hsame.totalOutputBytes, hsame.received]
    exact h.received
  · change s'.stdout.Sublist s'.received.1
    rw [hsame.stdout, hsame.received]
    exact h.stdout
  · change s'.stderr.Sublist s'.received.2
    rw [hsame.stderr, hsame.received]
    exact h.stderr
  · exact hsame.stderr.trans (h.ptyOnly hpty)
  · change (if x = stream then reader else s'.readers x) = .reading ∨ (if x = stream then reader else s'.readers x) = .done
    split
    · rename_i heq
      exact hreader (heq ▸ hx)
    · rw [hsame.readers]
      exact h.unread x hx
  · change r ∈ s'.result at hr
    rw [hsame.result] at hr
    have hsome : s.result.isSome = true := by rw [Option.mem_def.1 hr]; rfl
    obtain ⟨hfields, hreaders⟩ := h.built r hr
    refine ⟨?_, fun x hx => ?_⟩
    · rw [← hfields]
      simp only [complete, SessionOutput.setReader, hsame.stdout, hsame.stderr, hsame.totalOutputBytes, hsame.truncated hsome]
    · change (if x = stream then reader else s'.readers x) = .done
      split
      · rename_i heq
        exact hdone hsome (heq ▸ hx)
      · rw [hsame.readers]
        exact hreaders x hx

/-! ## Appending -/

/-- What a chunk does to the buffers: what it adds to them, less what is dropped for it, is the chunk. -/
structure Retained (policy : OutputPolicy) (stream : OutputStream) (data : Bytes) (s s' : SessionOutput) (dropped : Nat) : Prop where
  same : ∃ stdout stderr, s' = { s with stdout, stderr }
  total : s'.stdout.length + s'.stderr.length + dropped = s.stdout.length + s.stderr.length + data.length
  stdout : (s'.stdout).Sublist (s.stdout ++ if stream = .stderr then [] else data)
  stderr : (s'.stderr).Sublist (s.stderr ++ if stream = .stderr then data else [])
  ptyOnly : policy.pty = true → s'.stderr = []

/-- Without the tail, a prefix of the chunk is kept, shown, and appended to the buffer of its stream. -/
theorem retain_of_head (policy : OutputPolicy) (s : SessionOutput) (stream : OutputStream) (data : Bytes)
    (htail : policy.tail = false) :
    s.retain policy stream data =
      (match stream with
        | .stderr => { s with stderr := s.stderr ++ data.take (s.remaining policy data) }
        | .stdout | .pty => { s with stdout := s.stdout ++ data.take (s.remaining policy data) },
        data.take (s.remaining policy data), data.length - (data.take (s.remaining policy data)).length) := by
  unfold retain
  simp only [htail, Bool.false_eq_true, if_false]
  cases stream <;> split <;> rfl

theorem retained_of_head (policy : OutputPolicy) (s : SessionOutput) (stream : OutputStream) (data : Bytes)
    (hptyOnly : policy.pty = true → s.stderr = []) (hreader : hasReader policy stream = true)
    (htail : policy.tail = false) :
    Retained policy stream data s (s.retain policy stream data).1 (s.retain policy stream data).2.2 := by
  rw [retain_of_head policy s stream data htail]
  have hkept : (data.take (s.remaining policy data)).Sublist data := List.take_sublist _ _
  have hlength := hkept.length_le
  cases stream with
  | stderr =>
    refine ⟨⟨_, _, rfl⟩, ?_, by simp, by simpa using hkept, fun hpty => ?_⟩
    · simp only [List.length_append]
      omega
    · simp [hasReader, hpty] at hreader
  | stdout | pty =>
    refine ⟨⟨_, _, rfl⟩, ?_, by simpa using hkept, by simp, hptyOnly⟩
    simp only [List.length_append]
    omega

/-- With the tail, the chunk is kept and the oldest bytes beyond the cap are dropped. -/
theorem retained_of_tail (policy : OutputPolicy) (s : SessionOutput) (stream : OutputStream) (data : Bytes)
    (hptyOnly : policy.pty = true → s.stderr = []) (hreader : hasReader policy stream = true)
    (htail : policy.tail = true) :
    Retained policy stream data s (s.retain policy stream data).1 (s.retain policy stream data).2.2 := by
  have hpty := policy.tailRequiresPty htail
  have hstderr := hptyOnly hpty
  obtain rfl : stream = .pty := by simpa [hasReader, hpty] using hreader
  unfold retain
  simp only [htail, if_true]
  cases hmax : policy.maxOutputBytes with
  | none =>
    refine ⟨⟨_, _, rfl⟩, ?_, by simp, by simp, hptyOnly⟩
    simp only [List.length_append]
    omega
  | some cap =>
    refine ⟨⟨_, _, rfl⟩, ?_, by simpa using List.drop_sublist _ _, by simp, hptyOnly⟩
    simp only [List.length_append, List.length_drop, hstderr, List.length_nil]
    split <;> omega

theorem retained (policy : OutputPolicy) (s : SessionOutput) (stream : OutputStream) (data : Bytes)
    (hptyOnly : policy.pty = true → s.stderr = []) (hreader : hasReader policy stream = true) :
    Retained policy stream data s (s.retain policy stream data).1 (s.retain policy stream data).2.2 := by
  cases htail : policy.tail with
  | false => exact retained_of_head policy s stream data hptyOnly hreader htail
  | true => exact retained_of_tail policy s stream data hptyOnly hreader htail

/-- A stream whose reader is not done has no result yet. -/
theorem Accounts.unbuilt {owed : Nat} (h : Accounts policy owed s) (hreader : hasReader policy stream = true)
    (hreading : s.readers stream ≠ .done) : s.result = none := by
  cases hresult : s.result with
  | none => rfl
  | some r => exact absurd ((h.built r hresult).2 stream hreader) hreading

/-- The bytes that were dropped are counted. -/
theorem Accounts.countDropped {owed dropped : Nat} (h : Accounts policy owed s) (hreader : hasReader policy stream = true)
    (hunbuilt : s.result = none) (howed : (s.readers stream).uncounted + owed = dropped) :
    Accounts policy 0 (s.countDropped stream dropped) := by
  have hread : ∀ reader : Reader, hasReader policy stream = false → reader = .reading ∨ reader = .done := fun _ hno => by
    rw [hreader] at hno
    cases hno
  have hopen : ∀ reader : Reader, s.result.isSome = true → hasReader policy stream = true → reader = .done := fun _ hsome => by
    rw [hunbuilt] at hsome
    cases hsome
  unfold SessionOutput.countDropped
  split
  · have hsame : SameBytes s s := ⟨rfl, rfl, rfl, rfl, rfl, rfl, fun _ => rfl⟩
    exact h.setReader hsame .reading (hread _) (hopen _) (by rw [Reader.uncounted_reading]; omega)
  · have hnone : s.result.isSome = true → s.truncatedOutputBytes + dropped = s.truncatedOutputBytes := fun hsome => by
      rw [hunbuilt] at hsome
      cases hsome
    dsimp only
    split
    · have hsame : SameBytes s { s with truncatedOutputBytes := s.truncatedOutputBytes + dropped } :=
        ⟨rfl, rfl, rfl, rfl, rfl, rfl, hnone⟩
      exact h.setReader hsame .reading (hread _) (hopen _) (by rw [Reader.uncounted_reading]; dsimp only; omega)
    · have hsame : SameBytes s
          { s with
            truncatedOutputBytes := s.truncatedOutputBytes + dropped
            truncationReportedStreams := stream :: s.truncationReportedStreams } :=
        ⟨rfl, rfl, rfl, rfl, rfl, rfl, hnone⟩
      exact h.setReader hsame .reporting (hread _) (hopen _) (by rw [Reader.uncounted_reporting]; dsimp only; omega)

/-- What a reader was given grows by the chunk, and nothing else changes. -/
theorem receive_eq (s : SessionOutput) (stream : OutputStream) (data : Bytes) :
    ∃ received, s.receive stream data = { s with received } ∧
      received.1.length + received.2.length = s.received.1.length + s.received.2.length + data.length ∧
      received.1 = s.received.1 ++ (if stream = .stderr then [] else data) ∧
      received.2 = s.received.2 ++ (if stream = .stderr then data else []) := by
  cases stream <;> refine ⟨_, rfl, ?_, ?_, ?_⟩ <;> simp <;> omega

/-- A chunk is in the buffers, but for the bytes that were dropped. -/
theorem Accounts.retain (data : Bytes) (h : Accounts policy 0 s) (hreader : hasReader policy stream = true)
    (hunbuilt : s.result = none) :
    let received := s.receive stream data
    Accounts policy ({ received with totalOutputBytes := received.totalOutputBytes + data.length }.retain policy stream data).2.2
      ({ received with totalOutputBytes := received.totalOutputBytes + data.length }.retain policy stream data).1 := by
  obtain ⟨received, hreceive, hlength, hout, herr⟩ := receive_eq s stream data
  rw [hreceive]
  dsimp only
  have hretained := retained policy { s with received, totalOutputBytes := s.totalOutputBytes + data.length } stream data h.ptyOnly hreader
  revert hretained
  generalize ({ s with received, totalOutputBytes := s.totalOutputBytes + data.length }.retain policy stream data) = r
  obtain ⟨s', shown, dropped⟩ := r
  rintro ⟨⟨stdout, stderr, rfl⟩, htotal, hstdout, hstderr, hptyOnly⟩
  dsimp only at htotal hstdout hstderr hptyOnly ⊢
  have hbefore := h.total
  have hbytes := h.received
  refine ⟨?_, ?_, ?_, ?_, hptyOnly, h.unread, fun r hr => ?_⟩
  · change s.totalOutputBytes + data.length = stdout.length + stderr.length + s.truncatedOutputBytes + s.uncountedAll + s.lost +
      dropped
    omega
  · dsimp only
    omega
  · dsimp only
    rw [hout]
    exact hstdout.trans (h.stdout.append (List.Sublist.refl _))
  · dsimp only
    rw [herr]
    exact hstderr.trans (h.stderr.append (List.Sublist.refl _))
  · rw [Option.mem_def, hunbuilt] at hr
    cases hr

/-- A reader that is inside `append_output` is a reader of the session. -/
theorem Accounts.hasReader_of_busy {owed : Nat} (h : Accounts policy owed s) (hreading : s.readers stream ≠ .reading)
    (hdone : s.readers stream ≠ .done) : hasReader policy stream = true := by
  cases hreader : hasReader policy stream with
  | true => rfl
  | false =>
    rcases h.unread stream hreader with h | h
    · exact absurd h hreading
    · exact absurd h hdone

theorem Accounts.appendOutput (h : Accounts policy 0 s) (hreader : hasReader policy stream = true)
    (hreading : s.readers stream = .reading) : Accounts policy 0 ((s.receive stream data).appendOutput policy stream data) := by
  have hunbuilt := h.unbuilt hreader (by rw [hreading]; nofun)
  have hretain := h.retain data hreader hunbuilt
  obtain ⟨received, hreceive, -⟩ := receive_eq s stream data
  rw [hreceive] at hretain ⊢
  have hsame := (retained policy { s with received, totalOutputBytes := s.totalOutputBytes + data.length } stream data
    h.ptyOnly hreader).same
  unfold SessionOutput.appendOutput
  revert hretain hsame
  dsimp only
  generalize ({ s with received, totalOutputBytes := s.totalOutputBytes + data.length }.retain policy stream data) = r
  obtain ⟨s₁, shown, dropped⟩ := r
  rintro hretain ⟨stdout, stderr, hsame⟩
  dsimp only at hretain hsame ⊢
  have hreaders : s₁.readers stream = .reading := by rw [hsame]; exact hreading
  have hresult : s₁.result = none := by rw [hsame]; exact hunbuilt
  have hno : ∀ reader : Reader, hasReader policy stream = false → reader = .reading ∨ reader = .done := fun _ hno => by
    rw [hreader] at hno
    cases hno
  have hopen : ∀ reader : Reader, s₁.result.isSome = true → hasReader policy stream = true → reader = .done :=
    fun _ hsome => by
      rw [hresult] at hsome
      cases hsome
  split
  · have hsame₁ : SameBytes s₁ s₁ := ⟨rfl, rfl, rfl, rfl, rfl, rfl, fun _ => rfl⟩
    exact hretain.setReader hsame₁ _ (hno _) (hopen _) (by rw [hreaders, Reader.uncounted_emitting, Reader.uncounted_reading]; omega)
  · split
    · have hsame₁ : SameBytes s₁ { s₁ with outputEventLimitReported := true } := ⟨rfl, rfl, rfl, rfl, rfl, rfl, fun _ => rfl⟩
      exact hretain.setReader hsame₁ _ (hno _) (hopen _)
        (by rw [hreaders, Reader.uncounted_emitting, Reader.uncounted_reading]; dsimp only; omega)
    · exact hretain.countDropped hreader hresult (by rw [hreaders, Reader.uncounted_reading, Nat.zero_add])

theorem Accounts.step (h : Accounts policy 0 s) (input : OutputInput) : Accounts policy 0 (s.step policy input) := by
  cases input with
  | chunk stream data =>
    unfold SessionOutput.step
    dsimp only
    split
    · rename_i hstarts
      rw [Bool.and_eq_true, decide_eq_true_eq] at hstarts
      obtain ⟨hreader, hreading⟩ := hstarts
      exact h.appendOutput hreader hreading
    · exact h
  | resume stream =>
    unfold SessionOutput.step SessionOutput.resume
    dsimp only
    cases hreading : s.readers stream with
    | emitting dropped outputEvent =>
      have hreader := h.hasReader_of_busy (by rw [hreading]; nofun) (by rw [hreading]; nofun)
      have hunbuilt := h.unbuilt hreader (by rw [hreading]; nofun)
      have hcounted : Accounts policy 0
          { s with outputEventCount := s.outputEventCount + if outputEvent = true then 1 else 0 } :=
        ⟨h.total, h.received, h.stdout, h.stderr, h.ptyOnly, h.unread, h.built⟩
      exact hcounted.countDropped hreader hunbuilt (by simp only [hreading, Reader.uncounted_emitting]; omega)
    | reporting =>
      have hreader := h.hasReader_of_busy (by rw [hreading]; nofun) (by rw [hreading]; nofun)
      have hunbuilt := h.unbuilt hreader (by rw [hreading]; nofun)
      have hsame : SameBytes s s := ⟨rfl, rfl, rfl, rfl, rfl, rfl, fun _ => rfl⟩
      exact h.setReader hsame .reading (fun _ => Or.inl rfl) (fun hsome => by rw [hunbuilt] at hsome; cases hsome)
        (by rw [hreading, Reader.uncounted_reporting, Reader.uncounted_reading])
    | reading | done => exact h
  | endOfFile stream =>
    unfold SessionOutput.step
    dsimp only
    split
    · rename_i hreading
      have hsame : SameBytes s s := ⟨rfl, rfl, rfl, rfl, rfl, rfl, fun _ => rfl⟩
      exact h.setReader hsame .done (fun _ => Or.inr rfl) (fun _ _ => rfl)
        (by rw [hreading, Reader.uncounted_done, Reader.uncounted_reading])
    · exact h
  | cancel stream =>
    unfold SessionOutput.step
    dsimp only
    split
    · unfold SessionOutput.cancel
      have hsame : SameBytes s { s with lost := s.lost + (s.readers stream).uncounted } :=
        ⟨rfl, rfl, rfl, rfl, rfl, rfl, fun _ => rfl⟩
      exact h.setReader hsame .done (fun _ => Or.inr rfl) (fun _ _ => rfl) (by rw [Reader.uncounted_done]; dsimp only; omega)
    · exact h
  | complete =>
    unfold SessionOutput.step
    dsimp only
    split
    · rename_i hready
      rw [Bool.and_eq_true] at hready
      refine ⟨h.total, h.received, h.stdout, h.stderr, h.ptyOnly, h.unread, fun r hr => ⟨hr, fun stream hreader => ?_⟩⟩
      have hall := List.all_eq_true.1 hready.1 stream (by cases stream <;> simp)
      change s.readers stream = .done
      simpa [hreader] using hall
    · exact h

/-! ## Cancelled readers -/

/-- No reader is cancelled that has still to count bytes it dropped. -/
def Counted (policy : OutputPolicy) (s : SessionOutput) (input : OutputInput) : Prop :=
  ∀ stream, input = .cancel stream → hasReader policy stream = true → (s.readers stream).uncounted = 0

theorem countDropped_lost (s : SessionOutput) (stream : OutputStream) (dropped : Nat) :
    (s.countDropped stream dropped).lost = s.lost := by
  unfold SessionOutput.countDropped
  split
  · rfl
  · dsimp only
    split <;> rfl

theorem retain_lost (policy : OutputPolicy) (s : SessionOutput) (stream : OutputStream) (data : Bytes) :
    (s.retain policy stream data).1.lost = s.lost := by
  unfold SessionOutput.retain
  dsimp only
  split
  · split <;> cases stream <;> rfl
  · cases stream <;> rfl

theorem appendOutput_lost (policy : OutputPolicy) (s : SessionOutput) (stream : OutputStream) (data : Bytes) :
    (s.appendOutput policy stream data).lost = s.lost := by
  have hretain := retain_lost policy { s with totalOutputBytes := s.totalOutputBytes + data.length } stream data
  unfold SessionOutput.appendOutput
  dsimp only
  split
  · exact hretain
  · split
    · exact hretain
    · rw [countDropped_lost]
      exact hretain

/-- Bytes are lost when a reader is cancelled that has still to count them, and then only. -/
theorem lost_step (policy : OutputPolicy) (s : SessionOutput) (input : OutputInput) :
    (s.step policy input).lost = 0 ↔ s.lost = 0 ∧ Counted policy s input := by
  have hkept : (∀ stream, input ≠ .cancel stream) → (s.step policy input).lost = s.lost →
      ((s.step policy input).lost = 0 ↔ s.lost = 0 ∧ Counted policy s input) := by
    intro hinput hlost
    rw [hlost]
    exact ⟨fun h => ⟨h, fun stream heq => absurd heq (hinput stream)⟩, fun h => h.1⟩
  cases input with
  | chunk stream data =>
    refine hkept nofun ?_
    unfold SessionOutput.step
    dsimp only
    split
    · obtain ⟨received, hreceive, -⟩ := receive_eq s stream data
      rw [appendOutput_lost, hreceive]
    · rfl
  | resume stream =>
    refine hkept nofun ?_
    unfold SessionOutput.step SessionOutput.resume
    dsimp only
    split
    · exact countDropped_lost _ _ _
    all_goals rfl
  | endOfFile stream =>
    refine hkept nofun ?_
    unfold SessionOutput.step
    dsimp only
    split <;> rfl
  | complete =>
    refine hkept nofun ?_
    unfold SessionOutput.step
    dsimp only
    split <;> rfl
  | cancel stream =>
    unfold SessionOutput.step
    dsimp only
    split
    · rename_i hreader
      change s.lost + (s.readers stream).uncounted = 0 ↔ _
      refine ⟨fun h => ⟨by omega, ?_⟩, fun ⟨hlost, hcounted⟩ => ?_⟩
      · rintro x ⟨⟩ -
        omega
      · have hzero := hcounted stream rfl hreader
        omega
    · rename_i hreader
      refine ⟨fun h => ⟨h, ?_⟩, fun h => h.1⟩
      rintro x ⟨⟩ hx
      exact absurd hx hreader

/-- Nothing is lost in a run exactly when it cancels no reader that has still to count. -/
theorem lost_run (policy : OutputPolicy) (s : SessionOutput) (inputs : List OutputInput) :
    (Machine.run (SessionOutput.step policy) s inputs).lost = 0 ↔
      s.lost = 0 ∧ Machine.Guarded (SessionOutput.step policy) (Counted policy) s inputs := by
  induction inputs generalizing s with
  | nil => simp [Machine.Guarded]
  | cons input inputs ih =>
    rw [Machine.run_cons, ih, lost_step, Machine.Guarded, and_assoc]

/-- When the result is built, its totals are right exactly when no reader was cancelled in the run that had still to count bytes it
had dropped: then the total is what is retained and what is truncated, and `output_truncated` says whether some byte that was
received is missing. -/
theorem loss_accounting (policy : OutputPolicy) {inputs : List OutputInput} {r : OutputResult}
    (hresult : (Machine.run (SessionOutput.step policy) {} inputs).result = some r) :
    (r.totalOutputBytes = r.stdoutBytes.length + r.stderrBytes.length + r.truncatedOutputBytes ∧
        (r.outputTruncated = true ↔
          ¬(r.stdoutBytes = (Machine.run (SessionOutput.step policy) {} inputs).received.1 ∧
            r.stderrBytes = (Machine.run (SessionOutput.step policy) {} inputs).received.2))) ↔
      Machine.Guarded (SessionOutput.step policy) (Counted policy) {} inputs := by
  have hstart : Accounts policy 0 ({} : SessionOutput) :=
    ⟨rfl, rfl, List.Sublist.refl _, List.Sublist.refl _, fun _ => rfl, fun _ _ => Or.inl rfl, nofun⟩
  have hrun : Accounts policy 0 (Machine.run (SessionOutput.step policy) {} inputs) :=
    Machine.run_induct (P := Accounts policy 0) (fun _ input h => Accounts.step h input) (s := ({} : SessionOutput)) hstart inputs
  have hlost := lost_run policy {} inputs
  obtain ⟨hfields, hdone⟩ := hrun.built r hresult
  generalize Machine.run (SessionOutput.step policy) {} inputs = s at *
  have hr : r = { stdoutBytes := s.stdout, stderrBytes := s.stderr, totalOutputBytes := s.totalOutputBytes,
                  truncatedOutputBytes := s.truncatedOutputBytes, outputTruncated := s.truncatedOutputBytes > 0 } :=
    (Option.some.inj hfields).symm
  have hidle : ∀ stream, (s.readers stream).uncounted = 0 := by
    intro stream
    cases hreader : hasReader policy stream with
    | true => rw [hdone stream hreader, Reader.uncounted_done]
    | false =>
      rcases hrun.unread stream hreader with h | h
      · rw [h, Reader.uncounted_reading]
      · rw [h, Reader.uncounted_done]
  have htotal := hrun.total
  have hreceived := hrun.received
  rw [uncountedAll, hidle, hidle, hidle] at htotal
  have hstdout := hrun.stdout.length_le
  have hstderr := hrun.stderr.length_le
  subst hr
  dsimp only
  refine ⟨fun ⟨hsum, _⟩ => (hlost.1 (by omega)).2, fun hg => ?_⟩
  have hnone := hlost.2 ⟨rfl, hg⟩
  refine ⟨by omega, ?_⟩
  rw [decide_eq_true_eq]
  constructor
  · rintro htruncated ⟨hout, herr⟩
    rw [← hout, ← herr] at hreceived
    omega
  · intro hmissing
    by_contra htruncated
    exact hmissing ⟨hrun.stdout.eq_of_length (by omega), hrun.stderr.eq_of_length (by omega)⟩

/-- A session of pipes that keeps two bytes. -/
def twoBytes : OutputPolicy :=
  { maxOutputBytes := some 2, maxOutputEvents := 10000, pty := false, tail := false, tailRequiresPty := OutputPolicy.of_head }

theorem loss_accounting_sample :
    ∃ r, (Machine.run (SessionOutput.step twoBytes) {}
        [.chunk .stdout [1, 2, 3], .resume .stdout, .resume .stdout, .cancel .stdout, .endOfFile .stderr, .complete]).result = some r ∧
      r.totalOutputBytes = r.stdoutBytes.length + r.stderrBytes.length + r.truncatedOutputBytes := by
  have hresult : (Machine.run (SessionOutput.step twoBytes) {}
      [.chunk .stdout [1, 2, 3], .resume .stdout, .resume .stdout, .cancel .stdout, .endOfFile .stderr, .complete]).result =
        some { stdoutBytes := [1, 2], stderrBytes := [], totalOutputBytes := 3, truncatedOutputBytes := 1, outputTruncated := true } := by
    decide
  refine ⟨_, hresult, ((loss_accounting twoBytes hresult).2 ?_).1⟩
  refine ⟨nofun, nofun, nofun, ?_, nofun, nofun, trivial⟩
  rintro stream ⟨⟩ -
  decide

/-- A reader drops one byte, and is cancelled while its output event is recorded: the byte is in the total, and nowhere else. -/
theorem cancelled_reader_loses_count :
    ¬∀ (inputs : List OutputInput) (r : OutputResult),
      (Machine.run (SessionOutput.step twoBytes) {} inputs).result = some r →
        r.totalOutputBytes = r.stdoutBytes.length + r.stderrBytes.length + r.truncatedOutputBytes := by
  intro h
  have hlost := h [.chunk .stdout [1, 2, 3], .cancel .stdout, .endOfFile .stderr, .complete]
    { stdoutBytes := [1, 2], stderrBytes := [], totalOutputBytes := 3, truncatedOutputBytes := 0, outputTruncated := false } (by decide)
  revert hlost
  decide

end SessionOutput

end Runtime

end SharkRail
