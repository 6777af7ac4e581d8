import SharkRail.Theorems.OutputEvents

/-!
# The cap on output events

A reader compares the count of output events with the cap, emits, and counts after the emit. A reader that comes in between finds a place
that is taken (`two_readers_take_one_place`); where the events on their way are counted too, the cap is hard (`output_events_capped`).
The event of the limit is emitted at most once in every run, and it is lost only with a reader that is cancelled before it appends it.
-/

namespace SharkRail

namespace Runtime

def SessionEvent.isOutput : SessionEvent → Bool
  | .output _ => true
  | _ => false

def SessionEvent.isLimit : SessionEvent → Bool
  | .outputEventsLimit _ => true
  | _ => false

/-- A sum over the streams of a session. -/
def overStreams (f : OutputStream → Nat) : Nat := f .stdout + f .stderr + f .pty

/-- The sum over the streams changes by what the one stream changes. -/
theorem overStreams_update {f f' : OutputStream → Nat} {stream : OutputStream} (h : ∀ x, x ≠ stream → f' x = f x) :
    overStreams f' + f stream = overStreams f + f' stream := by
  have hstdout := h .stdout
  have hstderr := h .stderr
  have hpty := h .pty
  unfold overStreams
  cases stream <;> simp only [ne_eq, reduceCtorEq, not_false_eq_true, not_true_eq_false, forall_true_left] at hstdout hstderr hpty <;>
    omega

namespace StreamedOutput

variable {policy : OutputPolicy} {maxRetainedEvents : Nat} {s s' : StreamedOutput} {stream : OutputStream} {data : Bytes}

/-- The reader waits to append an event of a kind. -/
def awaits (kind : SessionEvent → Bool) (s : StreamedOutput) (stream : OutputStream) : Nat := if (s.pending stream).any kind then 1 else 0

/-- The count may miss an event of the reader: it is inside the emit of an output event, or was cancelled. -/
def uncounted (s : StreamedOutput) (stream : OutputStream) : Nat :=
  match s.output.readers stream with
  | .emitting _ true => 1
  | _ => if s.cancelled stream then 1 else 0

/-- The step brings output that an event is due for: bytes that are kept, or what the decoder held back at the end of the stream. -/
def Shows (policy : OutputPolicy) (s : StreamedOutput) : StreamedInput → Prop
  | .chunk stream data =>
    (SessionOutput.hasReader policy stream && s.output.readers stream = .reading && !s.flushed stream) = true ∧
      (s.output.retain policy stream data).2.1 ≠ []
  | .endOfFile stream =>
    (SessionOutput.hasReader policy stream && s.output.readers stream = .reading && !s.flushed stream) = true ∧
      ∃ decoder, s.decoders stream = some decoder ∧ (decoder.decode [] true).2.1 ≠ []
  | _ => False

/-- The step brings output that gets no event because of the cap. -/
def Denied (policy : OutputPolicy) (s : StreamedOutput) (input : StreamedInput) : Prop :=
  Shows policy s input ∧ policy.maxOutputEvents ≤ s.output.outputEventCount

/-- A reader that goes on to emit finds a place below the cap also when the events that may be uncounted are counted, and no reader is
cancelled while it waits to append the event of the limit. -/
structure Reserved (policy : OutputPolicy) (s : StreamedOutput) (input : StreamedInput) : Prop where
  place : Shows policy s input → s.output.outputEventCount < policy.maxOutputEvents →
    s.output.outputEventCount + overStreams s.uncounted < policy.maxOutputEvents
  limit : ∀ stream, input = .cancel stream → s.awaits SessionEvent.isLimit stream = 0

/-! ## Counting -/

/-- What is so of a reader: it waits to append an output event only inside its emit, and nothing at its transport or at its end. -/
structure Fits (s : StreamedOutput) (stream : OutputStream) : Prop where
  output : s.awaits SessionEvent.isOutput stream ≤ s.uncounted stream
  idle : s.output.readers stream = .reading ∨ s.output.readers stream = .done → s.pending stream = none
  cancelled : s.cancelled stream = true → s.output.readers stream = .done

/-- The output events emitted or on their way are within the cap and are counted or uncounted; the event of the limit is there once, or on
its way, when it is marked as reported. -/
structure Counted (policy : OutputPolicy) (s : StreamedOutput) : Prop where
  fits : ∀ stream, s.Fits stream
  events : s.emitted.countP SessionEvent.isOutput + overStreams (s.awaits SessionEvent.isOutput) ≤
    s.output.outputEventCount + overStreams s.uncounted
  cap : s.emitted.countP SessionEvent.isOutput + overStreams (s.awaits SessionEvent.isOutput) ≤ policy.maxOutputEvents
  limits : s.emitted.countP SessionEvent.isLimit + overStreams (s.awaits SessionEvent.isLimit) =
    if s.output.outputEventLimitReported then 1 else 0

/-- A step of one reader. -/
structure At (stream : OutputStream) (s s' : StreamedOutput) : Prop where
  readers : ∀ x, x ≠ stream → s'.output.readers x = s.output.readers x
  pending : ∀ x, x ≠ stream → s'.pending x = s.pending x
  cancelled : ∀ x, x ≠ stream → s'.cancelled x = s.cancelled x

/-- A step of one stream leaves what the other one waits for. -/
theorem At.awaits (h : At stream s s') (kind : SessionEvent → Bool) {x : OutputStream} (hx : x ≠ stream) :
    s'.awaits kind x = s.awaits kind x := by
  unfold StreamedOutput.awaits
  rw [h.pending x hx]

/-- A step of one stream leaves what the other one has not counted. -/
theorem At.uncounted (h : At stream s s') {x : OutputStream} (hx : x ≠ stream) : s'.uncounted x = s.uncounted x := by
  unfold StreamedOutput.uncounted
  rw [h.readers x hx, h.cancelled x hx]

/-- A step of one reader keeps the counts when it keeps them at its stream. -/
theorem Counted.at (h : Counted policy s) (hat : At stream s s') (hfits : s'.Fits stream)
    (hevents : s'.emitted.countP SessionEvent.isOutput + s'.awaits SessionEvent.isOutput stream + s.output.outputEventCount +
        s.uncounted stream ≤
      s.emitted.countP SessionEvent.isOutput + s.awaits SessionEvent.isOutput stream + s'.output.outputEventCount + s'.uncounted stream)
    (hcap : s'.emitted.countP SessionEvent.isOutput + s'.awaits SessionEvent.isOutput stream ≤
        s.emitted.countP SessionEvent.isOutput + s.awaits SessionEvent.isOutput stream ∨
      s'.emitted = s.emitted ∧ s.output.outputEventCount + overStreams s.uncounted < policy.maxOutputEvents)
    (hlimits : s'.emitted.countP SessionEvent.isLimit + s'.awaits SessionEvent.isLimit stream +
        (if s.output.outputEventLimitReported then 1 else 0) =
      s.emitted.countP SessionEvent.isLimit + s.awaits SessionEvent.isLimit stream +
        if s'.output.outputEventLimitReported then 1 else 0) : Counted policy s' := by
  have hawaits : ∀ kind, overStreams (s'.awaits kind) + s.awaits kind stream = overStreams (s.awaits kind) + s'.awaits kind stream :=
    fun kind => overStreams_update fun x hx => hat.awaits kind hx
  have huncounted : overStreams s'.uncounted + s.uncounted stream = overStreams s.uncounted + s'.uncounted stream :=
    overStreams_update fun x hx => hat.uncounted hx
  have houtputs := hawaits SessionEvent.isOutput
  have hlimit := hawaits SessionEvent.isLimit
  have hone : s'.awaits SessionEvent.isOutput stream ≤ 1 := by
    unfold StreamedOutput.awaits
    split <;> omega
  obtain ⟨hfitsAll, hbefore, hcapBefore, hlimitsBefore⟩ := h
  refine ⟨fun x => ?_, ?_, ?_, ?_⟩
  · by_cases hx : x = stream
    · exact hx ▸ hfits
    · obtain ⟨houtput, hidle, hcancelled⟩ := hfitsAll x
      refine ⟨?_, ?_, ?_⟩
      · rw [hat.awaits _ hx, hat.uncounted hx]
        exact houtput
      · rw [hat.readers x hx, hat.pending x hx]
        exact hidle
      · rw [hat.readers x hx, hat.cancelled x hx]
        exact hcancelled
  · omega
  · rcases hcap with hcap | ⟨hsame, hplace⟩
    · omega
    · rw [hsame] at hevents ⊢
      omega
  · omega

/-! ## Steps -/

/-- Where `append_output` takes its reader: to the emit of an output event, to the emit of the limit, or past both; and whether the limit
is marked as reported. -/
inductive Appends (policy : OutputPolicy) (output : SessionOutput) (kept : Bytes) : Reader → Bool → Prop
  | shows (dropped : Nat) (hkept : kept ≠ []) (hplace : output.outputEventCount < policy.maxOutputEvents) :
    Appends policy output kept (.emitting dropped true) output.outputEventLimitReported
  | reports (dropped : Nat) (hkept : kept ≠ []) (hfull : policy.maxOutputEvents ≤ output.outputEventCount)
    (hfirst : output.outputEventLimitReported = false) : Appends policy output kept (.emitting dropped false) true
  | passes (reader : Reader) (hreader : reader = .reading ∨ reader = .reporting)
    (hnone : ¬(kept ≠ [] ∧ output.outputEventCount < policy.maxOutputEvents))
    (hreported : kept ≠ [] → output.outputEventLimitReported = true) :
    Appends policy output kept reader output.outputEventLimitReported

/-- The end of `append_output` leaves the reader at its transport or at the emit of a truncation. -/
theorem countDropped_reader (output : SessionOutput) (stream : OutputStream) (dropped : Nat) :
    ((output.countDropped stream dropped).readers stream = .reading ∨ (output.countDropped stream dropped).readers stream = .reporting) ∧
      (∀ x, x ≠ stream → (output.countDropped stream dropped).readers x = output.readers x) ∧
      (output.countDropped stream dropped).outputEventCount = output.outputEventCount ∧
      (output.countDropped stream dropped).outputEventLimitReported = output.outputEventLimitReported := by
  unfold SessionOutput.countDropped
  split
  · exact ⟨Or.inl (if_pos rfl), fun x hx => if_neg hx, rfl, rfl⟩
  · dsimp only
    split
    · exact ⟨Or.inl (if_pos rfl), fun x hx => if_neg hx, rfl, rfl⟩
    · exact ⟨Or.inr (if_pos rfl), fun x hx => if_neg hx, rfl, rfl⟩

/-- A reader that appends a chunk stops for the event that it may emit, or goes on. -/
theorem appendOutput_appends (policy : OutputPolicy) (output : SessionOutput) (stream : OutputStream) (data : Bytes) :
    Appends policy output (output.retain policy stream data).2.1 ((output.appendOutput policy stream data).readers stream)
        (output.appendOutput policy stream data).outputEventLimitReported ∧
      (∀ x, x ≠ stream → (output.appendOutput policy stream data).readers x = output.readers x) ∧
      (output.appendOutput policy stream data).outputEventCount = output.outputEventCount := by
  obtain ⟨⟨stdout, stderr, hsame⟩, htotal⟩ := retain_changes policy output stream data (output.totalOutputBytes + data.length)
  unfold SessionOutput.appendOutput
  rw [htotal]
  dsimp only
  rw [hsame]
  split
  · rename_i hshown
    refine ⟨?_, fun x hx => if_neg hx, rfl⟩
    simp only [SessionOutput.setReader]
    exact .shows _ hshown.1 hshown.2
  · rename_i hshown
    split
    · rename_i hreport
      have hfull : policy.maxOutputEvents ≤ output.outputEventCount := Nat.le_of_not_lt fun hlt => hshown ⟨hreport.1, hlt⟩
      refine ⟨?_, fun x hx => if_neg hx, rfl⟩
      simp only [SessionOutput.setReader, if_true]
      exact .reports _ hreport.1 hfull (by simpa using hreport.2)
    · rename_i hreport
      obtain ⟨hreader, hothers, hcount, hreported⟩ := countDropped_reader
        { output with stdout, stderr, totalOutputBytes := output.totalOutputBytes + data.length } stream
        (output.retain policy stream data).2.2
      refine ⟨?_, hothers, hcount⟩
      rw [hreported]
      exact .passes _ hreader hshown fun hkept => by simpa [hkept] using hreport

/-- A reader waits for the event that is pending. -/
theorem awaits_eq {event : Option SessionEvent} (h : s.pending stream = event) (kind : SessionEvent → Bool) :
    s.awaits kind stream = if event.any kind then 1 else 0 := by
  unfold awaits
  rw [h]

/-- What `append_output` does beside the output: the reader waits for the event that is due to it. -/
theorem appendOutput_fields (policy : OutputPolicy) (s : StreamedOutput) (stream : OutputStream) (data : Bytes) :
    (s.appendOutput policy stream data).output = s.output.appendOutput policy stream data ∧
      (s.appendOutput policy stream data).emitted = s.emitted ∧ (s.appendOutput policy stream data).cancelled = s.cancelled ∧
      (s.appendOutput policy stream data).flushed = s.flushed ∧
      (∀ x, x ≠ stream → (s.appendOutput policy stream data).pending x = s.pending x) ∧
      ∃ payload, (s.appendOutput policy stream data).pending stream =
        awaited policy stream
          (if (s.output.retain policy stream data).2.1 ≠ [] ∧
            s.output.outputEventCount < policy.maxOutputEvents then some payload else none)
          (s.output.retain policy stream data).2.2 (s.output.appendOutput policy stream data) := by
  unfold StreamedOutput.appendOutput
  dsimp only
  split
  · exact ⟨rfl, rfl, rfl, rfl, fun x hx => setAt_ne hx _ _, _, setAt_same _ _ _⟩
  · exact ⟨rfl, rfl, rfl, rfl, fun x hx => setAt_ne hx _ _, ⟨stream, 0, 0, [], [], false⟩, setAt_same _ _ _⟩

/-- A reader that goes on was not cancelled. -/
theorem Counted.not_cancelled (h : Counted policy s) (hlive : s.output.readers stream ≠ .done) : s.cancelled stream = false := by
  cases hc : s.cancelled stream with
  | false => rfl
  | true => exact absurd ((h.fits stream).cancelled hc) hlive

/-- A reader at its transport has nothing on its way. -/
theorem Counted.reading (h : Counted policy s) (hreading : s.output.readers stream = .reading) :
    s.cancelled stream = false ∧ s.pending stream = none ∧ s.uncounted stream = 0 := by
  have hlive : s.cancelled stream = false := h.not_cancelled (by rw [hreading]; nofun)
  refine ⟨hlive, (h.fits stream).idle (Or.inl hreading), ?_⟩
  simp [uncounted, hreading, hlive]

/-- A reader that can take a chunk reads. -/
theorem reading_of_ready (hready : (SessionOutput.hasReader policy stream && s.output.readers stream = .reading && !s.flushed stream) =
    true) :
    s.output.readers stream = .reading := by
  simp only [Bool.and_eq_true, decide_eq_true_eq] at hready
  exact hready.1.2

/-- A reader that passes the emits of an event waits at most to append the event of a truncation. -/
theorem awaited_passes (policy : OutputPolicy) {output : SessionOutput}
    (hreader : output.readers stream = .reading ∨ output.readers stream = .reporting)
    (dropped : Nat) :
    (awaited policy stream none dropped output).any SessionEvent.isOutput = false ∧
      (awaited policy stream none dropped output).any SessionEvent.isLimit = false ∧
      (output.readers stream = .reading → awaited policy stream none dropped output = none) := by
  rcases hreader with h | h <;> simp [awaited, h, SessionEvent.isOutput, SessionEvent.isLimit]

/-! ### Where a reader goes -/

/-- A reader goes on to emit an output event. -/
theorem Counted.emits (h : Counted policy s) (hreading : s.output.readers stream = .reading) (hat : At stream s s') {dropped : Nat}
    {payload : OutputPayload} (hreader : s'.output.readers stream = .emitting dropped true)
    (hcancelled : s'.cancelled stream = s.cancelled stream) (hwaits : s'.pending stream = some (.output payload))
    (hemitted : s'.emitted = s.emitted) (hcount : s'.output.outputEventCount = s.output.outputEventCount)
    (hreported : s'.output.outputEventLimitReported = s.output.outputEventLimitReported)
    (hplace : s.output.outputEventCount + overStreams s.uncounted < policy.maxOutputEvents) : Counted policy s' := by
  obtain ⟨hlive, hnone, hzero⟩ := h.reading hreading
  have hbefore : ∀ kind, s.awaits kind stream = 0 := fun kind => awaits_eq hnone kind
  have huncounted : s'.uncounted stream = 1 := by simp [uncounted, hreader]
  have houtputs := awaits_eq hwaits SessionEvent.isOutput
  have hlimits := awaits_eq hwaits SessionEvent.isLimit
  simp only [Option.any_some, SessionEvent.isOutput, if_true, SessionEvent.isLimit, Bool.false_eq_true, if_false] at houtputs hlimits
  refine h.at hat ⟨by omega, by rw [hreader]; nofun, by rw [hcancelled, hlive]; nofun⟩ ?_ (Or.inr ⟨hemitted, hplace⟩) ?_
  · rw [hemitted, hbefore]
    omega
  · rw [hemitted, hlimits, hbefore, hreported]

/-- A reader goes on to emit the event of the limit, which is marked as reported. -/
theorem Counted.reports (h : Counted policy s) (hreading : s.output.readers stream = .reading) (hat : At stream s s') {dropped limit : Nat}
    (hreader : s'.output.readers stream = .emitting dropped false) (hcancelled : s'.cancelled stream = s.cancelled stream)
    (hwaits : s'.pending stream = some (.outputEventsLimit limit)) (hemitted : s'.emitted = s.emitted)
    (hcount : s'.output.outputEventCount = s.output.outputEventCount) (hfirst : s.output.outputEventLimitReported = false)
    (hreported : s'.output.outputEventLimitReported = true) : Counted policy s' := by
  obtain ⟨hlive, hnone, hzero⟩ := h.reading hreading
  have hbefore : ∀ kind, s.awaits kind stream = 0 := fun kind => awaits_eq hnone kind
  have houtputs := awaits_eq hwaits SessionEvent.isOutput
  have hlimits := awaits_eq hwaits SessionEvent.isLimit
  simp only [Option.any_some, SessionEvent.isOutput, if_true, SessionEvent.isLimit, Bool.false_eq_true, if_false] at houtputs hlimits
  refine h.at hat ⟨by omega, by rw [hreader]; nofun, by rw [hcancelled, hlive]; nofun⟩ ?_ (Or.inl ?_) ?_
  · rw [hemitted, hbefore]
    omega
  · rw [hemitted, hbefore]
    omega
  · rw [hemitted, hlimits, hbefore, hreported, hfirst]
    rfl

/-- A reader that goes on, or ends, without an event on its way. -/
theorem Counted.passes (h : Counted policy s) (hnone : s.pending stream = none) (hat : At stream s s')
    (hlive : s'.cancelled stream = false)
    (hsilent : (s'.pending stream).any SessionEvent.isOutput = false ∧ (s'.pending stream).any SessionEvent.isLimit = false)
    (hidle : s'.output.readers stream ≠ .reporting → s'.pending stream = none) (hemitted : s'.emitted = s.emitted)
    (hcount : s.output.outputEventCount + s.uncounted stream = s'.output.outputEventCount)
    (hreported : s'.output.outputEventLimitReported = s.output.outputEventLimitReported) : Counted policy s' := by
  have hpending : s'.pending stream = s'.pending stream := rfl
  have houtputs := awaits_eq hpending SessionEvent.isOutput
  have hlimits := awaits_eq hpending SessionEvent.isLimit
  simp only [hsilent.1, hsilent.2, Bool.false_eq_true, if_false] at houtputs hlimits
  have hbefore : ∀ kind, s.awaits kind stream = 0 := fun kind => awaits_eq hnone kind
  refine h.at hat ⟨by omega, fun hends => hidle ?_, by rw [hlive]; nofun⟩ ?_ ?_ ?_
  · rcases hends with hends | hends <;> rw [hends] <;> nofun
  · rw [hemitted, hbefore]
    omega
  · exact Or.inl (by rw [hemitted, hbefore]; omega)
  · rw [hemitted, hlimits, hbefore, hreported]

/-! ### Steps of a reader -/

/-- An appended chunk keeps the count of the events, where its event has a place. -/
theorem Counted.appendOutput (h : Counted policy s)
    (hready : (SessionOutput.hasReader policy stream && s.output.readers stream = .reading && !s.flushed stream) = true)
    (hplace : (s.output.retain policy stream data).2.1 ≠ [] → s.output.outputEventCount < policy.maxOutputEvents →
      s.output.outputEventCount + overStreams s.uncounted < policy.maxOutputEvents) :
    Counted policy (s.appendOutput policy stream data) := by
  have hreading := reading_of_ready hready
  obtain ⟨hlive, hnone, hzero⟩ := h.reading hreading
  obtain ⟨houtput, hemitted, hcancelled, -, hothers, payload, hpending⟩ := appendOutput_fields policy s stream data
  obtain ⟨happends, hreaders, hcount⟩ := appendOutput_appends policy s.output stream data
  have hat : At stream s (s.appendOutput policy stream data) :=
    ⟨fun x hx => by rw [houtput]; exact hreaders x hx, hothers, fun x _ => by rw [hcancelled]⟩
  have hsame : (s.appendOutput policy stream data).cancelled stream = s.cancelled stream := by rw [hcancelled]
  rw [← houtput] at hcount
  generalize hr : (s.output.appendOutput policy stream data).readers stream = reader at happends
  generalize hreported : (s.output.appendOutput policy stream data).outputEventLimitReported = reported at happends
  have hreader : (s.appendOutput policy stream data).output.readers stream = reader := by rw [houtput, hr]
  have hlimitReported : (s.appendOutput policy stream data).output.outputEventLimitReported = reported := by rw [houtput, hreported]
  cases happends with
  | shows dropped hkept hroom =>
    have hwaits : (s.appendOutput policy stream data).pending stream = some (.output payload) := by
      rw [hpending, if_pos ⟨hkept, hroom⟩]
      simp [StreamedOutput.awaited, hr]
    exact h.emits hreading hat hreader hsame hwaits hemitted hcount hlimitReported (hplace hkept hroom)
  | reports dropped hkept hfull hfirst =>
    have hwaits : (s.appendOutput policy stream data).pending stream = some (.outputEventsLimit policy.maxOutputEvents) := by
      rw [hpending]
      simp [StreamedOutput.awaited, hr]
    exact h.reports hreading hat hreader hsame hwaits hemitted hcount hfirst hlimitReported
  | passes reader hpasses hshown hreported =>
    rw [if_neg hshown] at hpending
    obtain ⟨houtput, hlimit, hidle⟩ := awaited_passes policy (by rw [hr]; exact hpasses) (s.output.retain policy stream data).2.2
    refine h.passes hnone hat (hsame.trans hlive) ?_ (fun hnot => ?_) hemitted ?_ hlimitReported
    · rw [hpending]
      exact ⟨houtput, hlimit⟩
    · rw [hpending]
      rw [hreader] at hnot
      exact hidle (hr.trans (hpasses.resolve_right hnot))
    · rw [hzero, hcount]
      rfl

/-- An event that is recorded keeps the count. -/
theorem Counted.appendEvent (h : Counted policy s) : Counted policy (s.appendEvent maxRetainedEvents stream) := by
  unfold StreamedOutput.appendEvent
  split
  · rename_i event hevent
    have hat : At stream s ({ s with pending := setAt stream none s.pending }.emit maxRetainedEvents event) :=
      ⟨fun _ _ => rfl, fun x hx => setAt_ne hx _ _, fun _ _ => rfl⟩
    have hbefore := awaits_eq hevent
    have hafter : ∀ kind, ({ s with pending := setAt stream none s.pending }.emit maxRetainedEvents event).awaits kind stream = 0 :=
      fun kind => (awaits_eq (setAt_same stream none s.pending) kind).trans rfl
    have hemitted : ∀ kind, ({ s with pending := setAt stream none s.pending }.emit maxRetainedEvents event).emitted.countP kind =
        s.emitted.countP kind + if kind event then 1 else 0 := by
      intro kind
      change (s.emitted ++ [event]).countP kind = _
      rw [List.countP_append, List.countP_singleton]
    simp only [Option.any_some] at hbefore
    refine h.at hat ⟨by rw [hafter]; exact Nat.zero_le _, fun _ => setAt_same _ _ _, (h.fits stream).cancelled⟩ ?_ ?_ ?_
    · rw [hafter, hbefore, hemitted]
      exact Nat.le_refl _
    · exact Or.inl (by rw [hafter, hbefore, hemitted]; exact Nat.le_refl _)
    · rw [hafter, hbefore, hemitted]
      rfl
  · exact h

/-- What `append_output` does after an await: the reader goes to its transport or to the emit of a truncation, and an output event that it
emitted is counted. -/
theorem resume_reader (output : SessionOutput) (stream : OutputStream) :
    (output.readers stream = .done → output.resume stream = output) ∧
      (output.readers stream ≠ .done → (output.resume stream).readers stream = .reading ∨
        (output.resume stream).readers stream = .reporting) ∧
      (∀ x, x ≠ stream → (output.resume stream).readers x = output.readers x) ∧
      (output.resume stream).outputEventCount =
        output.outputEventCount + (match output.readers stream with | .emitting _ true => 1 | _ => 0) ∧
      (output.resume stream).outputEventLimitReported = output.outputEventLimitReported := by
  unfold SessionOutput.resume
  split
  · rename_i dropped outputEvent hr
    obtain ⟨hreader, hothers, hcount, hreported⟩ := countDropped_reader
      { output with outputEventCount := output.outputEventCount + if outputEvent then 1 else 0 } stream dropped
    refine ⟨by rw [hr]; nofun, fun _ => hreader, hothers, ?_, hreported⟩
    rw [hcount, hr]
    cases outputEvent <;> rfl
  · rename_i hr
    exact ⟨by rw [hr]; nofun, fun _ => Or.inl (if_pos rfl), fun x hx => if_neg hx, by rw [hr]; rfl, rfl⟩
  · rename_i hr
    exact ⟨by rw [hr]; nofun, fun _ => Or.inl hr, fun _ _ => rfl, by rw [hr]; rfl, rfl⟩
  · rename_i hr
    exact ⟨fun _ => rfl, fun h => absurd hr h, fun _ _ => rfl, by rw [hr]; rfl, rfl⟩

/-- A reader that goes on keeps the count. -/
theorem Counted.resume (h : Counted policy s) (hnone : s.pending stream = none) : Counted policy (s.resume policy stream) := by
  obtain ⟨hdone, hgoesOn, hothers, hcount, hreported⟩ := resume_reader s.output stream
  unfold StreamedOutput.resume
  dsimp only
  by_cases hended : s.output.readers stream = .done
  · have hawaited : awaited policy stream none (s.output.readers stream).uncounted s.output = none := by simp [awaited, hended]
    rw [hdone hended, if_neg (by rw [hended]; simp), hawaited]
    have hfits := h.fits stream
    have hat : At stream s { s with pending := setAt stream none s.pending } :=
      ⟨fun _ _ => rfl, fun x hx => setAt_ne hx _ _, fun _ _ => rfl⟩
    have hsame : ∀ kind, ({ s with pending := setAt stream none s.pending } : StreamedOutput).awaits kind stream = s.awaits kind stream :=
      fun kind => (awaits_eq (setAt_same stream none s.pending) kind).trans (awaits_eq hnone kind).symm
    refine h.at hat ⟨?_, fun _ => setAt_same _ _ _, hfits.cancelled⟩ ?_ (Or.inl ?_) ?_
    · rw [hsame]
      exact hfits.output
    · rw [hsame]
      exact Nat.le_refl _
    · rw [hsame]
    · rw [hsame]
  · have hlive := h.not_cancelled hended
    have hpasses := hgoesOn hended
    obtain ⟨houtput, hlimit, hidle⟩ := awaited_passes policy hpasses (s.output.readers stream).uncounted
    have huncounted : s.output.outputEventCount + s.uncounted stream = (s.output.resume stream).outputEventCount := by
      rw [hcount]
      unfold uncounted
      rw [hlive]
      rfl
    split
    · rename_i hflushed
      refine h.passes hnone ⟨fun x hx => ?_, fun x hx => setAt_ne hx _ _, fun _ _ => rfl⟩ hlive ?_ (fun _ => ?_) rfl huncounted hreported
      · exact (if_neg hx).trans (hothers x hx)
      · simp only [setAt_same]
        exact ⟨houtput, hlimit⟩
      · simp only [setAt_same]
        exact hidle hflushed.2
    · refine h.passes hnone ⟨hothers, fun x hx => setAt_ne hx _ _, fun _ _ => rfl⟩ hlive ?_ (fun hreader => ?_) rfl huncounted hreported
      · simp only [setAt_same]
        exact ⟨houtput, hlimit⟩
      · simp only [setAt_same]
        exact hidle (hpasses.resolve_right hreader)

/-- The end of a reader that had nothing on its way. -/
theorem Counted.endReader (h : Counted policy s) (hreading : s.output.readers stream = .reading) (hpending : s'.pending = s.pending)
    (hcancelled : s'.cancelled = s.cancelled) (houtput : s'.output = s.output.setReader stream .done) (hemitted : s'.emitted = s.emitted) :
    Counted policy s' := by
  obtain ⟨hlive, hnone, hzero⟩ := h.reading hreading
  have hnone' : s'.pending stream = none := by rw [hpending, hnone]
  have hothers : ∀ x, x ≠ stream → s'.output.readers x = s.output.readers x := by
    intro x hx
    rw [houtput]
    exact if_neg hx
  refine h.passes hnone ⟨hothers, fun _ _ => by rw [hpending], fun _ _ => by rw [hcancelled]⟩ (by rw [hcancelled, hlive])
    (by rw [hnone']; exact ⟨rfl, rfl⟩) (fun _ => hnone') hemitted ?_ (by rw [houtput]; rfl)
  rw [houtput, hzero]
  rfl

/-- The flush of a decoder keeps the count, where its event has a place. -/
theorem Counted.flushOutputDecoder (h : Counted policy s)
    (hready : (SessionOutput.hasReader policy stream && s.output.readers stream = .reading && !s.flushed stream) = true)
    (hplace : (∃ decoder, s.decoders stream = some decoder ∧ (decoder.decode [] true).2.1 ≠ []) →
      s.output.outputEventCount < policy.maxOutputEvents →
      s.output.outputEventCount + overStreams s.uncounted < policy.maxOutputEvents) :
    Counted policy (s.flushOutputDecoder policy stream) := by
  have hreading := reading_of_ready hready
  unfold StreamedOutput.flushOutputDecoder
  dsimp only
  split
  · exact h.endReader hreading rfl rfl rfl rfl
  · rename_i decoder hdecoder
    split
    · exact h.endReader hreading rfl rfl rfl rfl
    · rename_i htext
      split
      · split
        · exact h.endReader hreading rfl rfl rfl rfl
        · rename_i hfirst
          exact h.reports hreading ⟨fun x hx => if_neg hx, fun x hx => setAt_ne hx _ _, fun _ _ => rfl⟩ (if_pos rfl) rfl (setAt_same _ _ _)
            rfl rfl (by simpa using hfirst) rfl
      · rename_i hroom
        refine h.emits hreading ⟨fun x hx => if_neg hx, fun x hx => setAt_ne hx _ _, fun _ _ => rfl⟩ (if_pos rfl) rfl (setAt_same _ _ _)
          rfl rfl rfl ?_
        exact hplace ⟨decoder, hdecoder, htext⟩ (Nat.lt_of_not_le hroom)

/-- A step keeps the count, where the place of its event is reserved. -/
theorem Counted.step (h : Counted policy s) {input : StreamedInput} (hreserved : Reserved policy s input) :
    Counted policy (s.step policy maxRetainedEvents input) := by
  cases input with
  | chunk stream data =>
    unfold StreamedOutput.step
    dsimp only
    split
    · rename_i hready
      exact h.appendOutput hready fun hkept => hreserved.place ⟨hready, hkept⟩
    · exact h
  | append stream => exact h.appendEvent
  | resume stream =>
    unfold StreamedOutput.step
    dsimp only
    split
    · rename_i hnone
      exact h.resume (Option.isNone_iff_eq_none.1 hnone)
    · exact h
  | endOfFile stream =>
    unfold StreamedOutput.step
    dsimp only
    split
    · rename_i hready
      exact h.flushOutputDecoder hready fun htext => hreserved.place ⟨hready, htext⟩
    · exact h
  | cancel stream =>
    unfold StreamedOutput.step
    dsimp only
    split
    · have hbefore := hreserved.limit stream rfl
      have hone : s.uncounted stream ≤ 1 := by
        unfold uncounted
        split
        · exact Nat.le_refl _
        · split <;> omega
      have hafter : ∀ kind, awaits kind
          { s with output := s.output.cancel stream, cancelled := setAt stream true s.cancelled, pending := setAt stream none s.pending }
          stream = 0 := fun kind => (awaits_eq (setAt_same stream none s.pending) kind).trans rfl
      have huncounted : uncounted
          { s with output := s.output.cancel stream, cancelled := setAt stream true s.cancelled, pending := setAt stream none s.pending }
          stream = 1 := by simp [uncounted, SessionOutput.cancel, SessionOutput.setReader]
      refine h.at ⟨fun x hx => if_neg hx, fun x hx => setAt_ne hx _ _, fun x hx => setAt_ne hx _ _⟩
        ⟨by rw [hafter]; exact Nat.zero_le _, fun _ => setAt_same _ _ _, fun _ => if_pos rfl⟩ ?_ (Or.inl ?_) ?_
      · rw [hafter, huncounted]
        change s.emitted.countP _ + 0 + s.output.outputEventCount + _ ≤ s.emitted.countP _ + _ + s.output.outputEventCount + 1
        omega
      · rw [hafter]
        change s.emitted.countP _ + 0 ≤ _
        omega
      · rw [hafter, hbefore]
        rfl
    · exact h
  | emitOther =>
    have hat : At .stdout s (s.step policy maxRetainedEvents .emitOther) := ⟨fun _ _ => rfl, fun _ _ => rfl, fun _ _ => rfl⟩
    have hemitted : ∀ kind, kind SessionEvent.other = false →
        (s.step policy maxRetainedEvents .emitOther).emitted.countP kind = s.emitted.countP kind := by
      intro kind hkind
      change (s.emitted ++ [SessionEvent.other]).countP kind = _
      rw [List.countP_append, List.countP_singleton, if_neg (by rw [hkind]; exact Bool.false_ne_true), Nat.add_zero]
    refine h.at hat ⟨(h.fits .stdout).output, (h.fits .stdout).idle, (h.fits .stdout).cancelled⟩ ?_ (Or.inl ?_) ?_
    · rw [hemitted _ rfl]
      exact Nat.le_refl _
    · rw [hemitted _ rfl]
      exact Nat.le_refl _
    · rw [hemitted _ rfl]
      rfl
  | complete =>
    unfold StreamedOutput.step
    dsimp only
    split
    · exact ⟨fun x => ⟨(h.fits x).output, (h.fits x).idle, (h.fits x).cancelled⟩, h.events, h.cap, h.limits⟩
    · exact h

/-! ## The event of the limit -/

/-- A chunk whose event has no place leaves the limit reported. -/
theorem appendOutput_reported (hdenied : (s.output.retain policy stream data).2.1 ≠ [] ∧
    policy.maxOutputEvents ≤ s.output.outputEventCount ∨
    s.output.outputEventLimitReported = true) : (s.appendOutput policy stream data).output.outputEventLimitReported = true := by
  obtain ⟨houtput, -⟩ := appendOutput_fields policy s stream data
  obtain ⟨happends, -⟩ := appendOutput_appends policy s.output stream data
  rw [houtput]
  generalize (s.output.appendOutput policy stream data).readers stream = reader at happends
  generalize (s.output.appendOutput policy stream data).outputEventLimitReported = reported at happends ⊢
  cases happends with
  | shows dropped hkept hroom => exact hdenied.resolve_left fun hfull => absurd hroom (Nat.not_lt.2 hfull.2)
  | reports => rfl
  | passes reader hreader hnone hreported => exact hdenied.elim (fun hfull => hreported hfull.1) id

/-- A flush whose event has no place leaves the limit reported. -/
theorem flushOutputDecoder_reported
    (hdenied : (∃ decoder, s.decoders stream = some decoder ∧ (decoder.decode [] true).2.1 ≠ []) ∧
        policy.maxOutputEvents ≤ s.output.outputEventCount ∨ s.output.outputEventLimitReported = true) :
    (s.flushOutputDecoder policy stream).output.outputEventLimitReported = true := by
  unfold StreamedOutput.flushOutputDecoder
  dsimp only
  split
  · rename_i hdecoder
    refine hdenied.resolve_left ?_
    rintro ⟨⟨decoder, hsome, -⟩, -⟩
    rw [hdecoder] at hsome
    cases hsome
  · rename_i decoder hdecoder
    split
    · rename_i htext
      refine hdenied.resolve_left ?_
      rintro ⟨⟨decoder', hsome, hshown⟩, -⟩
      rw [hdecoder] at hsome
      cases hsome
      exact hshown htext
    · split
      · split
        · assumption
        · rfl
      · rename_i hroom
        exact hdenied.resolve_left fun hfull => hroom hfull.2

/-- The limit is marked as reported from the first output on that gets no event because of it. -/
theorem step_reported {input : StreamedInput} (h : Denied policy s input ∨ s.output.outputEventLimitReported = true) :
    (s.step policy maxRetainedEvents input).output.outputEventLimitReported = true := by
  have hsame : ∀ {s' : StreamedOutput}, ¬Shows policy s input → s'.output.outputEventLimitReported = s.output.outputEventLimitReported →
      s'.output.outputEventLimitReported = true := by
    intro s' hnot heq
    rw [heq]
    exact h.resolve_left fun hdenied => hnot hdenied.1
  cases input with
  | chunk stream data =>
    unfold StreamedOutput.step
    dsimp only
    split
    · exact appendOutput_reported (h.imp_left fun hdenied => ⟨hdenied.1.2, hdenied.2⟩)
    · rename_i hready
      exact hsame (fun hshows => hready hshows.1) rfl
  | endOfFile stream =>
    unfold StreamedOutput.step
    dsimp only
    split
    · exact flushOutputDecoder_reported (h.imp_left fun hdenied => ⟨hdenied.1.2, hdenied.2⟩)
    · rename_i hready
      exact hsame (fun hshows => hready hshows.1) rfl
  | append stream =>
    unfold StreamedOutput.step StreamedOutput.appendEvent
    dsimp only
    split <;> exact hsame id rfl
  | resume stream =>
    obtain ⟨-, -, -, -, hreported⟩ := resume_reader s.output stream
    unfold StreamedOutput.step
    dsimp only
    split
    · unfold StreamedOutput.resume
      dsimp only
      split <;> exact hsame id hreported
    · exact hsame id rfl
  | cancel _ | complete =>
    unfold StreamedOutput.step
    dsimp only
    split <;> exact hsame id rfl
  | emitOther => exact hsame id rfl

/-- Once the limit was reported it stays so. -/
theorem run_reported (inputs : List StreamedInput) (h : s.output.outputEventLimitReported = true) :
    (Machine.run (step policy maxRetainedEvents) s inputs).output.outputEventLimitReported = true :=
  Machine.run_induct (P := fun s : StreamedOutput => s.output.outputEventLimitReported = true)
    (fun _ _ h => step_reported (Or.inr h)) h inputs

/-! ## The cap -/

/-- No event has been counted at the start. -/
theorem counted_start (policy : OutputPolicy) : Counted policy {} :=
  ⟨fun _ => ⟨Nat.zero_le _, fun _ => rfl, nofun⟩, Nat.zero_le _, Nat.zero_le _, rfl⟩

/-- No reader waits for such an event, or one does. -/
theorem awaits_cases (kind : SessionEvent → Bool) (s : StreamedOutput) :
    overStreams (s.awaits kind) = 0 ∨ ∃ stream, s.awaits kind stream = 1 := by
  by_cases hwaits : ∃ stream, s.awaits kind stream = 1
  · exact Or.inr hwaits
  · have hzero : ∀ stream, s.awaits kind stream = 0 := by
      intro stream
      have hnot : s.awaits kind stream ≠ 1 := fun h => hwaits ⟨stream, h⟩
      unfold awaits at hnot ⊢
      split at hnot <;> simp_all
    simp [overStreams, hzero]

/-- In every run in which a reader goes on to emit only where the events on their way leave a place, no more output events are emitted than
the cap allows; the event of the limit is emitted at most once, and when some output got no event because of the cap it was emitted, or its
reader waits to append it. -/
theorem output_events_capped (policy : OutputPolicy) (maxRetainedEvents : Nat) {inputs : List StreamedInput}
    (hreserved : Machine.Guarded (step policy maxRetainedEvents) (Reserved policy) {} inputs) :
    let s := Machine.run (step policy maxRetainedEvents) {} inputs
    s.emitted.countP SessionEvent.isOutput ≤ policy.maxOutputEvents ∧
      s.emitted.countP SessionEvent.isLimit ≤ 1 ∧
      ∀ before input after, inputs = before ++ input :: after →
        Denied policy (Machine.run (step policy maxRetainedEvents) {} before) input →
          s.emitted.countP SessionEvent.isLimit = 1 ∨ ∃ stream, s.awaits SessionEvent.isLimit stream = 1 := by
  dsimp only
  have hcounted := Machine.run_induct_of_guarded (P := Counted policy) (fun _ _ h hg => h.step hg) hreserved (counted_start policy)
  have hlimits := hcounted.limits
  refine ⟨Nat.le_trans (Nat.le_add_right _ _) hcounted.cap, ?_, fun before input after hinputs hdenied => ?_⟩
  · refine Nat.le_trans (Nat.le_add_right _ _) (hlimits.trans_le ?_)
    split <;> omega
  · have hreported : (Machine.run (step policy maxRetainedEvents) {} inputs).output.outputEventLimitReported = true := by
      rw [hinputs, Machine.run_append, Machine.run_cons]
      exact run_reported after (step_reported (Or.inl hdenied))
    rw [hreported, if_pos rfl] at hlimits
    rcases awaits_cases SessionEvent.isLimit (Machine.run (step policy maxRetainedEvents) {} inputs) with hnone | hwaits
    · rw [hnone] at hlimits
      exact Or.inl hlimits
    · exact Or.inr hwaits

namespace Sample

def onePlace : OutputPolicy :=
  { maxOutputBytes := none, maxOutputEvents := 1, pty := false, tail := false, tailRequiresPty := OutputPolicy.of_head }

/-- Standard output takes the only place, and standard error is told of the limit. -/
def inTurn : List StreamedInput :=
  [.chunk .stdout [104], .append .stdout, .resume .stdout, .chunk .stderr [105], .append .stderr]

/-- Standard error finds the place free while the event of standard output is on its way. -/
def together : List StreamedInput := [.chunk .stdout [104], .chunk .stderr [105], .append .stdout, .append .stderr]

end Sample

/-- Two readers in turn emit no more than the one event that has a place. -/
theorem output_events_capped_sample :
    (Machine.run (step Sample.onePlace 8) {} Sample.inTurn).emitted.countP SessionEvent.isOutput ≤ 1 := by
  have hreserved : Machine.Guarded (step Sample.onePlace 8) (Reserved Sample.onePlace) {} Sample.inTurn :=
    ⟨⟨fun _ _ => by decide +kernel, nofun⟩, ⟨nofun, nofun⟩, ⟨nofun, nofun⟩, ⟨fun _ h => absurd h (by decide +kernel), nofun⟩,
      ⟨nofun, nofun⟩, trivial⟩
  exact (output_events_capped Sample.onePlace 8 hreserved).1

/-- Two readers take the last place. -/
theorem two_readers_take_one_place :
    ¬∀ (policy : OutputPolicy) (maxRetainedEvents : Nat) (inputs : List StreamedInput),
      (Machine.run (step policy maxRetainedEvents) {} inputs).emitted.countP SessionEvent.isOutput ≤ policy.maxOutputEvents := by
  intro h
  have htogether := h Sample.onePlace 8 Sample.together
  revert htogether
  decide +kernel

end StreamedOutput

end Runtime

end SharkRail
