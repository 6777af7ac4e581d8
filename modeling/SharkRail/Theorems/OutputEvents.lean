import SharkRail.Runtime.OutputEvents
import SharkRail.Theorems.OutputAccounting

/-!
# Retention and the output events

The buffers of a session are a function of the bytes that arrived, in their order: the first ones up to the cap, or the last ones where
the tail is kept. Every output event shows a slice of its stream. And a session whose readers came to the ends of their streams, with no
event refused or driven out, has shown in its events what its result holds.
-/

namespace SharkRail

namespace Runtime

/-! ## Bytes by streams -/

/-- The bytes of some streams. -/
def bytesOf (streams : OutputStream → Bool) (arrived : List (OutputStream × UInt8)) : Bytes :=
  (arrived.filter fun entry => streams entry.1).map (·.2)

/-- The bytes of a chunk, with its stream. -/
def tagged (stream : OutputStream) (data : Bytes) : List (OutputStream × UInt8) := data.map fun byte => (stream, byte)

/-- The bytes of some streams in two parts are those of the first one and those of the second. -/
theorem bytesOf_append (streams : OutputStream → Bool) (a b : List (OutputStream × UInt8)) :
    bytesOf streams (a ++ b) = bytesOf streams a ++ bytesOf streams b := by
  simp [bytesOf]

/-- A chunk is all of its stream. -/
theorem bytesOf_tagged (streams : OutputStream → Bool) (stream : OutputStream) (data : Bytes) :
    bytesOf streams (tagged stream data) = if streams stream then data else [] := by
  unfold bytesOf tagged
  split
  · rename_i h
    rw [List.filter_eq_self.2 (by simp [h])]
    simp
  · rename_i h
    rw [List.filter_eq_nil_iff.2 (by simp [h])]
    rfl

/-- The begin of a tagged chunk is the begin of the chunk. -/
theorem tagged_take (stream : OutputStream) (data : Bytes) (n : Nat) : (tagged stream data).take n = tagged stream (data.take n) := by
  simp [tagged, List.map_take]

/-- The bytes of some streams and those of the others are all bytes. -/
theorem length_bytesOf (streams : OutputStream → Bool) (arrived : List (OutputStream × UInt8)) :
    (bytesOf streams arrived).length + (bytesOf (fun stream => !streams stream) arrived).length = arrived.length := by
  simp only [bytesOf, List.length_map]
  exact (List.length_eq_length_filter_add _).symm

/-- What a cap leaves of the bytes that arrived first. -/
def capped {α : Type} (cap : Option Nat) (items : List α) : List α :=
  match cap with
  | none => items
  | some n => items.take n

/-- What a cap leaves of the bytes that arrived last. -/
def cappedTail {α : Type} (cap : Option Nat) (items : List α) : List α :=
  match cap with
  | none => items
  | some n => items.drop (items.length - n)

/-! ## Buffers -/

section

variable {policy : OutputPolicy} {output : SessionOutput} {stream : OutputStream} {data : Bytes}

/-- The buffer of a stream. -/
def buffer (stream : OutputStream) (output : SessionOutput) : Bytes :=
  match stream with
  | .stderr => output.stderr
  | .stdout | .pty => output.stdout

/-- What the end of `append_output` changes: the counters of dropped bytes, and the reader. -/
theorem countDropped_changes (output : SessionOutput) (stream : OutputStream) (dropped : Nat) :
    ∃ truncated reported reader, output.countDropped stream dropped =
      { output with
        truncatedOutputBytes := truncated, truncationReportedStreams := reported
        readers := fun x => if x = stream then reader else output.readers x } := by
  unfold SessionOutput.countDropped
  by_cases hzero : dropped = 0
  · exact ⟨output.truncatedOutputBytes, output.truncationReportedStreams, .reading, by rw [if_pos hzero]; rfl⟩
  · by_cases hmem : stream ∈ output.truncationReportedStreams
    · exact ⟨output.truncatedOutputBytes + dropped, output.truncationReportedStreams, .reading, by simp [hzero, hmem]; rfl⟩
    · exact ⟨output.truncatedOutputBytes + dropped, stream :: output.truncationReportedStreams, .reporting,
        by simp [hzero, hmem]; rfl⟩

/-- The retention writes the buffers, and reads nothing of the counters. -/
theorem retain_changes (policy : OutputPolicy) (output : SessionOutput) (stream : OutputStream) (data : Bytes) (total : Nat) :
    (∃ stdout stderr, (output.retain policy stream data).1 = { output with stdout, stderr }) ∧
      SessionOutput.retain policy stream data { output with totalOutputBytes := total } =
        ({ (output.retain policy stream data).1 with totalOutputBytes := total }, (output.retain policy stream data).2) := by
  cases hcap : policy.maxOutputBytes with
  | none => cases stream <;> exact ⟨⟨_, _, by simp only [SessionOutput.retain, hcap]; rfl⟩,
      by simp only [SessionOutput.retain, SessionOutput.remaining, hcap]⟩
  | some cap =>
    cases htail : policy.tail with
    | true => cases stream <;> exact ⟨⟨_, _, by simp only [SessionOutput.retain, hcap, htail, if_true]; rfl⟩,
        by simp only [SessionOutput.retain, SessionOutput.remaining, hcap, htail, if_true]⟩
    | false => cases stream <;> exact ⟨⟨_, _, by simp only [SessionOutput.retain, hcap, htail, if_false, Bool.false_eq_true]; rfl⟩,
        by simp only [SessionOutput.retain, SessionOutput.remaining, hcap, htail, if_false, Bool.false_eq_true]⟩

/-- What `append_output` changes of the buffers is what the retention changes; an output event is waited for where some bytes are
shown below the limit, else the limit is reported. -/
theorem appendOutput_changes (policy : OutputPolicy) (output : SessionOutput) (stream : OutputStream) (data : Bytes) :
    ∃ total truncated reported reader limitReported, output.appendOutput policy stream data =
      { (output.retain policy stream data).1 with
        totalOutputBytes := total, truncatedOutputBytes := truncated, truncationReportedStreams := reported
        outputEventLimitReported := limitReported
        readers := fun x => if x = stream then reader else output.readers x } ∧
      ((output.retain policy stream data).2.1 ≠ [] ∧ output.outputEventCount < policy.maxOutputEvents →
        limitReported = output.outputEventLimitReported ∧ reader = .emitting (output.retain policy stream data).2.2 true) ∧
      (¬((output.retain policy stream data).2.1 ≠ [] ∧ output.outputEventCount < policy.maxOutputEvents) →
        ((output.retain policy stream data).2.1 = [] → limitReported = output.outputEventLimitReported) ∧
        ((output.retain policy stream data).2.1 ≠ [] → limitReported = true ∧ policy.maxOutputEvents ≤ output.outputEventCount)) := by
  obtain ⟨⟨stdout, stderr, hsame⟩, htotal⟩ := retain_changes policy output stream data (output.totalOutputBytes + data.length)
  unfold SessionOutput.appendOutput
  rw [htotal]
  dsimp only
  rw [hsame]
  by_cases hshown : (output.retain policy stream data).2.1 ≠ [] ∧ output.outputEventCount < policy.maxOutputEvents
  · rw [if_pos hshown]
    exact ⟨_, _, _, _, _, rfl, fun _ => ⟨rfl, rfl⟩, fun h => absurd hshown h⟩
  · rw [if_neg hshown]
    by_cases hreport : (output.retain policy stream data).2.1 ≠ [] ∧ (!output.outputEventLimitReported) = true
    · rw [if_pos hreport]
      refine ⟨_, _, _, _, _, rfl, fun h => absurd h hshown, fun _ => ⟨fun h => absurd h hreport.1, fun h => ⟨rfl, ?_⟩⟩⟩
      exact Nat.le_of_not_lt fun hlt => hshown ⟨h, hlt⟩
    · rw [if_neg hreport]
      obtain ⟨truncated, reported, reader, hcount⟩ := countDropped_changes
        { output with stdout, stderr, totalOutputBytes := output.totalOutputBytes + data.length } stream
        (output.retain policy stream data).2.2
      refine ⟨_, _, _, _, _, hcount, fun h => absurd h hshown, fun _ => ⟨fun _ => rfl, fun h => ⟨?_, ?_⟩⟩⟩
      · simpa [h] using hreport
      · exact Nat.le_of_not_lt fun hlt => hshown ⟨h, hlt⟩

/-- What is shown of a chunk is a slice of it: its beginning, or its end where the tail is kept. -/
theorem retain_shown (policy : OutputPolicy) (output : SessionOutput) (stream : OutputStream) (data : Bytes) :
    let kept := (output.retain policy stream data).2.1
    kept = (data.drop (if policy.tail then data.length - kept.length else 0)).take kept.length := by
  dsimp only
  cases htail : policy.tail with
  | false =>
    rw [SessionOutput.retain_of_head policy output stream data htail]
    simp
  | true =>
    have hshown : (output.retain policy stream data).2.1 = data ∨
        ∃ cap, (output.retain policy stream data).2.1 = data.drop (data.length - cap) := by
      cases hcap : policy.maxOutputBytes with
      | none => exact .inl (by simp only [SessionOutput.retain, hcap, htail, if_true])
      | some cap => exact .inr ⟨cap, by simp only [SessionOutput.retain, hcap, htail, if_true]⟩
    rcases hshown with hshown | ⟨cap, hshown⟩
    · rw [hshown]
      simp
    · have hoff : data.length - (data.drop (data.length - cap)).length = data.length - cap := by
        rw [List.length_drop]
        omega
      rw [hshown, if_pos rfl, hoff, List.take_length]

/-! ## The contents of the buffers -/

/-- The buffers hold the bytes that arrived, as far as the cap lets them. -/
structure Contents (policy : OutputPolicy) (arrived : List (OutputStream × UInt8)) (output : SessionOutput) : Prop where
  head : policy.tail = false →
    output.stdout = bytesOf (fun stream => stream ≠ .stderr) (capped policy.maxOutputBytes arrived) ∧
      output.stderr = bytesOf (fun stream => stream = .stderr) (capped policy.maxOutputBytes arrived)
  tail : policy.tail = true → output.stdout = (cappedTail policy.maxOutputBytes arrived).map (·.2) ∧ output.stderr = []

/-- What a cap leaves of more items: what it left before, and as many of the new ones as there is room for. -/
theorem capped_append {α : Type} (cap : Option Nat) (a b : List α) :
    capped cap (a ++ b) = capped cap a ++
      match cap with
      | none => b
      | some n => b.take (n - (capped cap a).length) := by
  cases cap with
  | none => rfl
  | some n =>
    have hroom : n - a.length = n - (a.take n).length := by
      rw [List.length_take]
      omega
    simp only [capped]
    rw [List.take_append, hroom]

/-- The last items are the last ones of the last items before and the new ones. -/
theorem cappedTail_append {α : Type} (n : Nat) (a b : List α) :
    cappedTail (some n) (cappedTail (some n) a ++ b) = cappedTail (some n) (a ++ b) := by
  simp only [cappedTail]
  rw [← List.drop_append_of_le_length (by omega : a.length - n ≤ a.length), List.drop_drop]
  congr 1
  simp only [List.length_drop, List.length_append]
  omega

/-- The buffers of the head have as many bytes as the cap lets through. -/
theorem Contents.length {arrived : List (OutputStream × UInt8)} (h : Contents policy arrived output) (htail : policy.tail = false) :
    output.stdout.length + output.stderr.length = (capped policy.maxOutputBytes arrived).length := by
  obtain ⟨hstdout, hstderr⟩ := h.head htail
  rw [hstdout, hstderr, ← length_bytesOf (fun stream => stream ≠ .stderr) (capped policy.maxOutputBytes arrived)]
  simp

/-- What is kept of a chunk without the tail is what the cap has room for. -/
theorem capped_tagged {arrived : List (OutputStream × UInt8)} (h : Contents policy arrived output) (htail : policy.tail = false) :
    capped policy.maxOutputBytes (arrived ++ tagged stream data) =
      capped policy.maxOutputBytes arrived ++ tagged stream (data.take (output.remaining policy data)) := by
  have hlength := h.length htail
  rw [capped_append]
  congr 1
  cases hcap : policy.maxOutputBytes with
  | none => simp [SessionOutput.remaining, hcap]
  | some n =>
    rw [hcap] at hlength
    simp only [SessionOutput.remaining, hcap, hlength, tagged_take]

/-- The retention of a chunk that its reader was given. -/
theorem Contents.retain {arrived : List (OutputStream × UInt8)} (h : Contents policy arrived output)
    (hreader : SessionOutput.hasReader policy stream = true) :
    Contents policy (arrived ++ tagged stream data) (output.retain policy stream data).1 := by
  constructor
  · intro htail
    obtain ⟨hstdout, hstderr⟩ := h.head htail
    rw [capped_tagged h htail, bytesOf_append, bytesOf_append, bytesOf_tagged, bytesOf_tagged, ← hstdout, ← hstderr,
      SessionOutput.retain_of_head policy output stream data htail]
    cases stream <;> simp
  · intro htail
    have hpty := policy.tailRequiresPty htail
    obtain rfl : stream = .pty := by simpa [SessionOutput.hasReader, hpty] using hreader
    obtain ⟨hstdout, hstderr⟩ := h.tail htail
    have htagged : (tagged .pty data).map (·.2) = data := by simp [tagged]
    cases hcap : policy.maxOutputBytes with
    | none =>
      rw [hcap] at hstdout
      simp only [SessionOutput.retain, hcap, htail, if_true]
      refine ⟨?_, hstderr⟩
      simp only [cappedTail, List.map_append, htagged]
      rw [hstdout]
      rfl
    | some n =>
      rw [hcap] at hstdout
      simp only [SessionOutput.retain, hcap, htail, if_true]
      refine ⟨?_, hstderr⟩
      rw [← cappedTail_append, hstdout, hstderr]
      have hlength : (tagged .pty data).length = data.length := by simp [tagged]
      simp only [cappedTail, List.map_drop, List.map_append, htagged, List.length_append, List.length_drop, List.length_map, hlength,
        List.length_nil, Nat.add_zero]

end

/-! ## Events show slices -/

/-- A payload shows the bytes of its stream from its offset on. -/
def Slice (arrived : List (OutputStream × UInt8)) (payload : OutputPayload) : Prop :=
  payload.bytes = payload.data.length ∧
    payload.data = ((bytesOf (· = payload.stream) arrived).drop payload.offset).take payload.bytes

/-- More bytes leave a slice as it is. -/
theorem Slice.append {arrived : List (OutputStream × UInt8)} {payload : OutputPayload} (h : Slice arrived payload)
    (more : List (OutputStream × UInt8)) : Slice (arrived ++ more) payload := by
  obtain ⟨hbytes, hdata⟩ := h
  refine ⟨hbytes, ?_⟩
  have hlength : payload.bytes = (((bytesOf (· = payload.stream) arrived).drop payload.offset).take payload.bytes).length := by
    rw [← hdata, hbytes]
  rw [List.length_take, List.length_drop] at hlength
  rw [bytesOf_append]
  by_cases hzero : payload.bytes = 0
  · rw [hdata, hzero, List.take_zero, List.take_zero]
  · rw [List.drop_append_of_le_length (by omega), List.take_append_of_le_length (by rw [List.length_drop]; omega)]
    exact hdata

/-- An output event that a reader waits to append shows a slice of its own stream. -/
def Waits (arrived : List (OutputStream × UInt8)) (stream : OutputStream) (event : Option SessionEvent) : Prop :=
  ∀ payload, event = some (.output payload) → payload.stream = stream ∧ Slice arrived payload

/-- An event that waits for what arrived waits for it when more arrives. -/
theorem Waits.append {arrived : List (OutputStream × UInt8)} {stream : OutputStream} {event : Option SessionEvent}
    (h : Waits arrived stream event) (more : List (OutputStream × UInt8)) : Waits (arrived ++ more) stream event :=
  fun payload hp => ⟨(h payload hp).1, (h payload hp).2.append more⟩

/-- The buffers hold what arrived, the offsets count it, and every event that was emitted or is waited for shows a slice of its stream. -/
structure Coherent (policy : OutputPolicy) (arrived : List (OutputStream × UInt8)) (s : StreamedOutput) : Prop where
  contents : Contents policy arrived s.output
  offsets : ∀ stream, s.streamOffsets stream = (bytesOf (· = stream) arrived).length
  pending : ∀ stream, Waits arrived stream (s.pending stream)
  emitted : ∀ payload, .output payload ∈ s.emitted → Slice arrived payload

section

variable {policy : OutputPolicy} {maxRetainedEvents : Nat} {arrived : List (OutputStream × UInt8)} {s : StreamedOutput}
  {stream : OutputStream} {data : Bytes}

/-- A step that brings no bytes, and no output event but those that were waited for. -/
theorem Coherent.quiet {s' : StreamedOutput} (h : Coherent policy arrived s) (hoffsets : s'.streamOffsets = s.streamOffsets)
    (hbuffers : s'.output.stdout = s.output.stdout ∧ s'.output.stderr = s.output.stderr)
    (hpending : ∀ stream, Waits arrived stream (s'.pending stream))
    (hemitted : ∀ payload, .output payload ∈ s'.emitted →
      .output payload ∈ s.emitted ∨ ∃ stream, s.pending stream = some (.output payload)) : Coherent policy arrived s' := by
  refine ⟨⟨?_, ?_⟩, ?_, hpending, ?_⟩
  · rw [hbuffers.1, hbuffers.2]
    exact h.contents.head
  · rw [hbuffers.1, hbuffers.2]
    exact h.contents.tail
  · rw [hoffsets]
    exact h.offsets
  · intro payload hp
    rcases hemitted payload hp with hp | ⟨stream, hp⟩
    · exact h.emitted payload hp
    · exact (h.pending stream payload hp).2

/-- What is set at a stream is there. -/
@[simp] theorem setAt_same {α : Type} (stream : OutputStream) (a : α) (f : OutputStream → α) : setAt stream a f stream = a :=
  if_pos rfl

/-- The other stream keeps what it has. -/
theorem setAt_ne {α : Type} {stream x : OutputStream} (h : x ≠ stream) (a : α) (f : OutputStream → α) : setAt stream a f x = f x :=
  if_neg h

/-- A change at one stream: what holds of the new value and of the others holds of all. -/
theorem forall_setAt {α : Type} (P : OutputStream → α → Prop) {a : α} {f : OutputStream → α} (ha : P stream a)
    (hf : ∀ x, P x (f x)) (x : OutputStream) : P x (setAt stream a f x) := by
  by_cases hx : x = stream
  · subst hx
    rwa [setAt_same]
  · rw [setAt_ne hx]
    exact hf x

/-- A reader waits for no output event but the one that was built for it. -/
theorem awaited_eq_output {built : Option OutputPayload} {dropped : Nat} {output : SessionOutput} {payload : OutputPayload}
    (h : StreamedOutput.awaited policy stream built dropped output = some (.output payload)) : built = some payload := by
  unfold StreamedOutput.awaited at h
  split at h
  · simpa using h
  · cases h
  · cases h
  · cases h
  · cases h

/-- A reader for which none was built waits for no output event. -/
theorem waits_awaited_none (policy : OutputPolicy) (stream : OutputStream) (arrived : List (OutputStream × UInt8)) (dropped : Nat)
    (output : SessionOutput) :
    Waits arrived stream (StreamedOutput.awaited policy stream none dropped output) :=
  fun _ hp => absurd (awaited_eq_output hp) nofun

/-- The buffers after `append_output` are those after the retention. -/
theorem Contents.appendOutput {arrived : List (OutputStream × UInt8)} {output : SessionOutput} (h : Contents policy arrived output)
    (hreader : SessionOutput.hasReader policy stream = true) :
    Contents policy (arrived ++ tagged stream data) (output.appendOutput policy stream data) := by
  obtain ⟨_, _, _, _, _, hchanges, -⟩ := appendOutput_changes policy output stream data
  rw [hchanges]
  exact ⟨(h.retain hreader).head, (h.retain hreader).tail⟩

/-- The payload that shows a chunk. -/
theorem slice_of_chunk (h : Coherent policy arrived s) {text : List Nat} {decodingErrors : Bool} :
    let kept := (s.output.retain policy stream data).2.1
    Slice (arrived ++ tagged stream data)
      { stream, bytes := kept.length, text, data := kept, decodingErrors
        offset := if policy.tail then s.streamOffsets stream + (data.length - kept.length) else s.streamOffsets stream } := by
  dsimp only
  refine ⟨rfl, ?_⟩
  have hshown := retain_shown policy s.output stream data
  dsimp only at hshown ⊢
  have hoffset : (if policy.tail = true then s.streamOffsets stream + (data.length - (s.output.retain policy stream data).2.1.length)
      else s.streamOffsets stream) = (bytesOf (· = stream) arrived).length +
        if policy.tail then data.length - (s.output.retain policy stream data).2.1.length else 0 := by
    rw [h.offsets stream]
    split <;> rfl
  rw [hoffset, bytesOf_append, bytesOf_tagged, List.drop_length_add_append]
  simpa using hshown

/-- A chunk that is appended keeps the events coherent with what arrived. -/
theorem Coherent.appendOutput (h : Coherent policy arrived s) (hreader : SessionOutput.hasReader policy stream = true) :
    Coherent policy (arrived ++ tagged stream data) (s.appendOutput policy stream data) := by
  have hoffsets : ∀ x, setAt stream (s.streamOffsets stream + data.length) s.streamOffsets x =
      (bytesOf (· = x) (arrived ++ tagged stream data)).length := by
    intro x
    rw [bytesOf_append, bytesOf_tagged, List.length_append, ← h.offsets x]
    by_cases hx : x = stream
    · subst hx
      simp
    · rw [setAt_ne hx]
      simp [Ne.symm hx]
  have hemitted : ∀ payload, .output payload ∈ s.emitted → Slice (arrived ++ tagged stream data) payload :=
    fun payload hp => (h.emitted payload hp).append _
  have hpending : ∀ x, Waits (arrived ++ tagged stream data) x (s.pending x) := fun x => (h.pending x).append _
  unfold StreamedOutput.appendOutput
  dsimp only
  split
  · refine ⟨h.contents.appendOutput hreader, hoffsets, forall_setAt (Waits _) (fun payload hp => ?_) hpending, hemitted⟩
    cases awaited_eq_output hp
    exact ⟨rfl, slice_of_chunk h⟩
  · exact ⟨h.contents.appendOutput hreader, hoffsets, forall_setAt (Waits _) (waits_awaited_none _ _ _ _ _) hpending, hemitted⟩

/-- What `append_output` changes after an await: the counters, and the reader. -/
theorem resume_changes (output : SessionOutput) (stream : OutputStream) :
    ∃ truncated reported reader count, output.resume stream =
      { output with
        truncatedOutputBytes := truncated, truncationReportedStreams := reported, outputEventCount := count
        readers := fun x => if x = stream then reader else output.readers x } ∧ output.outputEventCount ≤ count := by
  have hsame : output = { output with readers := fun x => if x = stream then output.readers stream else output.readers x } := by
    have hreaders : (fun x => if x = stream then output.readers stream else output.readers x) = output.readers := by
      funext x
      split
      · rename_i hx
        rw [hx]
      · rfl
    rw [hreaders]
  unfold SessionOutput.resume
  split
  · rename_i dropped outputEvent _
    obtain ⟨truncated, reported, reader, hcount⟩ := countDropped_changes
      { output with outputEventCount := output.outputEventCount + if outputEvent then 1 else 0 } stream dropped
    exact ⟨truncated, reported, reader, _, hcount, Nat.le_add_right _ _⟩
  · exact ⟨_, _, .reading, _, rfl, le_refl _⟩
  · exact ⟨_, _, _, _, hsame, le_refl _⟩
  · exact ⟨_, _, _, _, hsame, le_refl _⟩

/-- A reader that goes on keeps them coherent. -/
theorem Coherent.resume (h : Coherent policy arrived s) : Coherent policy arrived (s.resume policy stream) := by
  obtain ⟨_, _, _, _, hchanges, -⟩ := resume_changes s.output stream
  have hpending := forall_setAt (Waits arrived) (waits_awaited_none policy stream arrived
    (s.output.readers stream).uncounted (s.output.resume stream)) h.pending
  have hbuffers : (s.output.resume stream).stdout = s.output.stdout ∧ (s.output.resume stream).stderr = s.output.stderr := by
    rw [hchanges]
    exact ⟨rfl, rfl⟩
  unfold StreamedOutput.resume
  dsimp only
  split
  · exact h.quiet rfl hbuffers hpending fun _ => .inl
  · exact h.quiet rfl hbuffers hpending fun _ => .inl

/-- The payload of a flush shows nothing. -/
theorem Coherent.flushOutputDecoder (h : Coherent policy arrived s) : Coherent policy arrived (s.flushOutputDecoder policy stream) := by
  have hpending : ∀ event : SessionEvent, Waits arrived stream (some event) →
      ∀ x, Waits arrived x (setAt stream (some event) s.pending x) :=
    fun event hevent => forall_setAt (Waits arrived) hevent h.pending
  unfold StreamedOutput.flushOutputDecoder
  dsimp only
  split
  · exact h.quiet rfl ⟨rfl, rfl⟩ h.pending fun _ => .inl
  · split
    · exact h.quiet rfl ⟨rfl, rfl⟩ h.pending fun _ => .inl
    · split
      · split
        · exact h.quiet rfl ⟨rfl, rfl⟩ h.pending fun _ => .inl
        · exact h.quiet rfl ⟨rfl, rfl⟩ (hpending _ nofun) fun _ => .inl
      · refine h.quiet rfl ⟨rfl, rfl⟩ (hpending _ fun payload hp => ?_) fun _ => .inl
        cases hp
        exact ⟨rfl, rfl, by simp⟩

/-- Every step keeps them coherent. -/
theorem Coherent.step (h : Coherent policy arrived s) (input : StreamedInput) :
    Coherent policy (arrived ++ s.arrivals policy input) (s.step policy maxRetainedEvents input) := by
  have hquiet : ∀ s', Coherent policy arrived s' → Coherent policy (arrived ++ []) s' := fun s' hs' => by rwa [List.append_nil]
  cases input with
  | chunk stream data =>
    unfold StreamedOutput.step StreamedOutput.arrivals
    dsimp only
    split
    · rename_i hready
      simp only [Bool.and_eq_true] at hready
      exact h.appendOutput hready.1.1
    · exact hquiet _ h
  | append stream =>
    refine hquiet _ ?_
    unfold StreamedOutput.step StreamedOutput.appendEvent
    dsimp only
    split
    · rename_i event hevent
      refine h.quiet rfl ⟨rfl, rfl⟩ (forall_setAt (Waits arrived) nofun h.pending) fun payload hp => ?_
      rcases List.mem_append.1 hp with hp | hp
      · exact .inl hp
      · exact .inr ⟨stream, by rw [hevent, List.mem_singleton.1 hp]⟩
    · exact h
  | resume stream =>
    refine hquiet _ ?_
    unfold StreamedOutput.step
    dsimp only
    split
    · exact h.resume
    · exact h
  | endOfFile stream =>
    refine hquiet _ ?_
    unfold StreamedOutput.step
    dsimp only
    split
    · exact h.flushOutputDecoder
    · exact h
  | cancel stream =>
    refine hquiet _ ?_
    unfold StreamedOutput.step
    dsimp only
    split
    · exact h.quiet rfl ⟨rfl, rfl⟩ (forall_setAt (Waits arrived) nofun h.pending) fun _ => .inl
    · exact h
  | emitOther =>
    refine hquiet _ (h.quiet rfl ⟨rfl, rfl⟩ h.pending fun payload hp => ?_)
    rcases List.mem_append.1 hp with hp | hp
    · exact .inl hp
    · simp at hp
  | complete =>
    refine hquiet _ ?_
    unfold StreamedOutput.step
    dsimp only
    split
    · exact h.quiet rfl ⟨rfl, rfl⟩ h.pending fun _ => .inl
    · exact h

/-- Nothing has arrived at the start. -/
theorem coherent_init (policy : OutputPolicy) : Coherent policy [] {} := by
  refine ⟨⟨fun _ => ?_, fun _ => ?_⟩, fun _ => rfl, fun _ => nofun, nofun⟩
  · cases policy.maxOutputBytes <;> simp [capped, bytesOf]
  · cases policy.maxOutputBytes <;> simp [cappedTail]

/-- The bytes that the chunks of a run gave the readers, in their order. -/
def arrivedIn (policy : OutputPolicy) (maxRetainedEvents : Nat) (inputs : List StreamedInput) : List (OutputStream × UInt8) :=
  Machine.outputs (StreamedOutput.step policy maxRetainedEvents) (StreamedOutput.arrivals policy) {} inputs

/-- Retention: at every instant the buffers hold what the cap leaves of the bytes that arrived, whatever the chunks were; and every
output event shows a slice of its stream. -/
theorem retention (policy : OutputPolicy) (maxRetainedEvents : Nat) (inputs : List StreamedInput) :
    let s := Machine.run (StreamedOutput.step policy maxRetainedEvents) {} inputs
    let arrived := arrivedIn policy maxRetainedEvents inputs
    (policy.tail = false →
      s.output.stdout = bytesOf (fun stream => stream ≠ .stderr) (capped policy.maxOutputBytes arrived) ∧
      s.output.stderr = bytesOf (fun stream => stream = .stderr) (capped policy.maxOutputBytes arrived) ∧
      s.output.stdout <+: bytesOf (fun stream => stream ≠ .stderr) arrived ∧
      s.output.stderr <+: bytesOf (fun stream => stream = .stderr) arrived) ∧
    (policy.tail = true → s.output.stdout = (cappedTail policy.maxOutputBytes arrived).map (·.2) ∧ s.output.stderr = []) ∧
    (∀ inputs', arrivedIn policy maxRetainedEvents inputs' = arrived →
      let s' := Machine.run (StreamedOutput.step policy maxRetainedEvents) {} inputs'
      s'.output.stdout = s.output.stdout ∧ s'.output.stderr = s.output.stderr) ∧
    ∀ payload, .output payload ∈ s.emitted →
      payload.bytes = payload.data.length ∧
      payload.data = ((bytesOf (· = payload.stream) arrived).drop payload.offset).take payload.bytes := by
  have hcoherent : ∀ inputs, Coherent policy (arrivedIn policy maxRetainedEvents inputs)
      (Machine.run (StreamedOutput.step policy maxRetainedEvents) {} inputs) :=
    Machine.run_outputs_induct (R := fun s arrived => Coherent policy arrived s) (fun _ input _ h => h.step input)
      (coherent_init policy)
  dsimp only
  obtain ⟨hhead, htail⟩ := (hcoherent inputs).contents
  refine ⟨fun hmode => ?_, htail, fun inputs' harrived => ?_, (hcoherent inputs).emitted⟩
  · obtain ⟨hstdout, hstderr⟩ := hhead hmode
    have hshorter : ∀ arrived : List (OutputStream × UInt8), capped policy.maxOutputBytes arrived <+: arrived := by
      intro arrived
      cases policy.maxOutputBytes with
      | none => exact List.prefix_refl _
      | some n => exact List.take_prefix n arrived
    have hbytes : ∀ streams, bytesOf streams (capped policy.maxOutputBytes (arrivedIn policy maxRetainedEvents inputs)) <+:
        bytesOf streams (arrivedIn policy maxRetainedEvents inputs) :=
      fun streams => ((hshorter _).filter _).map _
    exact ⟨hstdout, hstderr, hstdout ▸ hbytes _, hstderr ▸ hbytes _⟩
  · obtain ⟨hhead', htail'⟩ := (hcoherent inputs').contents
    cases hmode : policy.tail with
    | false =>
      rw [(hhead hmode).1, (hhead hmode).2, (hhead' hmode).1, (hhead' hmode).2, harrived]
      exact ⟨rfl, rfl⟩
    | true =>
      rw [(htail hmode).1, (htail hmode).2, (htail' hmode).1, (htail' hmode).2, harrived]
      exact ⟨rfl, rfl⟩

end

/-- A session of pipes that keeps four bytes. -/
def fourBytes : OutputPolicy :=
  { maxOutputBytes := some 4, maxOutputEvents := 10000, pty := false, tail := false, tailRequiresPty := OutputPolicy.of_head }

/-- Both readers are at work, and the chunk of the standard error straddles the cap. -/
def sharedCap : List StreamedInput :=
  [.chunk .stdout [1, 2], .chunk .stderr [7], .append .stdout, .append .stderr, .resume .stdout, .resume .stderr,
    .chunk .stderr [8, 9, 10], .chunk .stderr [11], .append .stderr]

/-- The chunk that comes while its reader is at the emit has not arrived, and the event of the one before it shows what was kept. -/
theorem retention_sample :
    arrivedIn fourBytes 100 sharedCap =
        [(.stdout, 1), (.stdout, 2), (.stderr, 7), (.stderr, 8), (.stderr, 9), (.stderr, 10)] ∧
      (Machine.run (StreamedOutput.step fourBytes 100) {} sharedCap).output.stdout = [1, 2] ∧
      (Machine.run (StreamedOutput.step fourBytes 100) {} sharedCap).output.stderr = [7, 8] ∧
      ∃ payload, .output payload ∈ (Machine.run (StreamedOutput.step fourBytes 100) {} sharedCap).emitted ∧
        payload.stream = .stderr ∧ payload.offset = 1 ∧ payload.data = [8] := by
  have harrived : arrivedIn fourBytes 100 sharedCap =
      [(.stdout, 1), (.stdout, 2), (.stderr, 7), (.stderr, 8), (.stderr, 9), (.stderr, 10)] := by decide
  obtain ⟨hhead, -⟩ := retention fourBytes 100 sharedCap
  obtain ⟨hstdout, hstderr, -⟩ := hhead rfl
  rw [harrived] at hstdout hstderr
  exact ⟨harrived, hstdout.trans (by decide), hstderr.trans (by decide),
    { stream := .stderr, offset := 1, bytes := 1, text := [8], data := [8], decodingErrors := false }, by decide, rfl, rfl, rfl⟩

end Runtime

end SharkRail
