import SharkRail.Theorems.OutputEvents

/-!
# The events and the result agree

What the output events of a stream show, one after the other, is the buffer of the stream: their bytes are its bytes, their texts are its
text as far as it was decoded, and one of them has decoding errors once an undecodable byte was read (`Agrees`). At the ends of the
streams this is what the result holds.
-/

namespace SharkRail

namespace Runtime

/-- The payload of an output event of a stream. -/
def payloadOf (stream : OutputStream) : SessionEvent → Option OutputPayload
  | .output payload => if payload.stream = stream then some payload else none
  | _ => none

/-- The payloads of the output events of a stream, in their order. -/
def payloads (stream : OutputStream) (events : List SessionEvent) : List OutputPayload := events.filterMap (payloadOf stream)

/-- The payloads of two lists of events are those of the first one and those of the second. -/
theorem payloads_append (stream : OutputStream) (a b : List SessionEvent) :
    payloads stream (a ++ b) = payloads stream a ++ payloads stream b := List.filterMap_append

/-- What the events of a stream show, the one that its reader waits to append included. -/
def shown (stream : OutputStream) (s : StreamedOutput) : List OutputPayload :=
  payloads stream (s.emitted ++ (s.pending stream).toList)

/-- The bytes, the text and the errors of some payloads. -/
def dataOf (payloads : List OutputPayload) : Bytes := payloads.flatMap (·.data)
def textsOf (payloads : List OutputPayload) : List Nat := payloads.flatMap (·.text)
def errorsOf (payloads : List OutputPayload) : Bool := payloads.any (·.decodingErrors)

/-- What the payloads show of a buffer: its bytes, and the text and the errors of what a decoder made of them. -/
structure Shows (shown : List OutputPayload) (data : Bytes) (items : List Utf8.Item) : Prop where
  data : dataOf shown = data
  text : textsOf shown = Utf8.textOf .replace items
  errors : errorsOf shown = items.any Utf8.Item.isInvalid

/-- The events of a stream agree with its buffer. Up to the end of the stream its decoder holds back the bytes of a character that is
not complete; the flush shows them. -/
structure Agrees (s : StreamedOutput) (stream : OutputStream) : Prop where
  unfinished : s.flushed stream = false →
    Shows (shown stream s) (buffer stream s.output) (Utf8.feed [] (buffer stream s.output)).2 ∧
    (∀ decoder, s.decoders stream = some decoder →
      decoder = ⟨(Utf8.feed [] (buffer stream s.output)).1, (Utf8.feed [] (buffer stream s.output)).1⟩) ∧
    (s.decoders stream = none → buffer stream s.output = [])
  finished : s.flushed stream = true → Shows (shown stream s) (buffer stream s.output) (Utf8.items (buffer stream s.output))

/-- What a decoder that holds back the same bytes twice makes of some more. -/
theorem decode_begun {pending : Bytes} (h : Utf8.Begun pending) (data : Bytes) :
    Utf8StreamDecoder.decode data false ⟨pending, pending⟩ =
      (⟨(Utf8.feed pending data).1, (Utf8.feed pending data).1⟩, Utf8.textOf .replace (Utf8.feed pending data).2,
        (Utf8.feed pending data).2.any Utf8.Item.isInvalid) := by
  have hitems := (Utf8.feed_spec h data).2
  simp only [Utf8StreamDecoder.decode, Utf8.decodeMore, Bool.false_eq_true, if_false]
  rw [Utf8.any_escape_text hitems]

/-- What it makes of the end. -/
theorem decode_end {pending : Bytes} (h : Utf8.Begun pending) :
    (Utf8StreamDecoder.decode [] true ⟨pending, pending⟩).2 =
      (Utf8.textOf .replace (Utf8.finish pending), (Utf8.finish pending).any Utf8.Item.isInvalid) := by
  have hitems := Utf8.finish_spec h
  simp only [Utf8StreamDecoder.decode, Utf8.decodeMore, if_true, Utf8.feed_nil, List.nil_append]
  rw [Utf8.any_escape_text hitems]

/-- What is pending after some bytes begins a character. -/
theorem begun_feed (data : Bytes) : Utf8.Begun (Utf8.feed [] data).1 :=
  have hnone : Utf8.Begun [] := trivial
  (Utf8.feed_spec hnone data).1

/-- One more payload shows more. -/
theorem Shows.append {before : List OutputPayload} {data : Bytes} {items : List Utf8.Item} (h : Shows before data items)
    {payload : OutputPayload} {more : List Utf8.Item} (htext : payload.text = Utf8.textOf .replace more)
    (herrors : payload.decodingErrors = more.any Utf8.Item.isInvalid) :
    Shows (before ++ [payload]) (data ++ payload.data) (items ++ more) := by
  refine ⟨?_, ?_, ?_⟩
  · simp [dataOf, ← h.data]
  · simp [textsOf, ← htext, ← h.text]
  · simp [errorsOf, ← herrors, ← h.errors]

section

variable {policy : OutputPolicy} {maxRetainedEvents : Nat} {s : StreamedOutput} {stream : OutputStream} {data : Bytes}

/-- The events of a stream agree while nothing of the stream changes. -/
theorem Agrees.congr {s' : StreamedOutput} (h : Agrees s stream) (hflushed : s'.flushed stream = s.flushed stream)
    (hdecoders : s'.decoders stream = s.decoders stream) (hbuffer : buffer stream s'.output = buffer stream s.output)
    (hshown : shown stream s' = shown stream s) : Agrees s' stream := by
  refine ⟨fun hopen => ?_, fun hended => ?_⟩
  · rw [hshown, hbuffer, hdecoders]
    exact h.unfinished (hflushed ▸ hopen)
  · rw [hshown, hbuffer]
    exact h.finished (hflushed ▸ hended)

/-- An event that is no output of a stream shows nothing of it. -/
theorem payloads_singleton {event : SessionEvent} (h : ∀ payload, event = .output payload → payload.stream ≠ stream) :
    payloads stream [event] = [] := by
  cases event with
  | output payload => simp [payloads, payloadOf, h payload rfl]
  | outputEventsLimit limit => rfl
  | outputTruncated x dropped total => rfl
  | other => rfl

/-- An event that is waited for, but shows nothing of a stream. -/
theorem shown_of_pending {s' : StreamedOutput} (hemitted : s'.emitted = s.emitted) (hpending : s.pending stream = none)
    (hnone : ∀ payload, s'.pending stream ≠ some (.output payload)) : shown stream s' = shown stream s := by
  unfold shown
  rw [hemitted, hpending, payloads_append, payloads_append]
  congr 1
  cases hevent : s'.pending stream with
  | none => rfl
  | some event => exact payloads_singleton fun payload hp => absurd (hp ▸ hevent) (hnone payload)

/-- A reader of one stream writes no buffer of another one. -/
theorem buffer_retain_ne {output : SessionOutput} {x : OutputStream} (htail : policy.tail = false)
    (hreader : SessionOutput.hasReader policy stream = true) (hother : SessionOutput.hasReader policy x = true) (hx : x ≠ stream) :
    buffer x (output.retain policy stream data).1 = buffer x output := by
  rw [SessionOutput.retain_of_head policy output stream data htail]
  cases hpty : policy.pty <;> cases stream <;> cases x <;> simp_all [SessionOutput.hasReader, buffer]

/-- What is kept of a chunk goes to the end of its buffer. -/
theorem buffer_retain {output : SessionOutput} (htail : policy.tail = false) :
    buffer stream (output.retain policy stream data).1 = buffer stream output ++ (output.retain policy stream data).2.1 := by
  rw [SessionOutput.retain_of_head policy output stream data htail]
  cases stream <;> rfl

/-- The buffers after `append_output` are those after the retention. -/
theorem buffer_appendOutput (output : SessionOutput) (x : OutputStream) :
    buffer x (output.appendOutput policy stream data) = buffer x (output.retain policy stream data).1 := by
  obtain ⟨_, _, _, _, _, hchanges, -⟩ := appendOutput_changes policy output stream data
  rw [hchanges]
  cases x <;> rfl

/-- `append_output` of a chunk that is shown: the reader waits for an event with what the decoder made of it. -/
theorem appendOutput_shown
    (hshow : (s.output.retain policy stream data).2.1 ≠ [] ∧ s.output.outputEventCount < policy.maxOutputEvents) :
    let kept := (s.output.retain policy stream data).2.1
    let decoded := ((s.decoders stream).getD {}).decode kept false
    ∃ payload, payload.stream = stream ∧ payload.data = kept ∧ payload.text = decoded.2.1 ∧ payload.decodingErrors = decoded.2.2 ∧
      (s.appendOutput policy stream data).pending stream = some (.output payload) ∧
      (s.appendOutput policy stream data).decoders stream = some decoded.1 := by
  obtain ⟨_, _, _, reader, _, hchanges, hreader, -⟩ := appendOutput_changes policy s.output stream data
  obtain ⟨-, rfl⟩ := hreader hshow
  have hawaited : ∀ payload dropped, StreamedOutput.awaited policy stream (some payload) dropped
      (s.output.appendOutput policy stream data) = some (.output payload) := by
    intro payload dropped
    rw [hchanges]
    simp [StreamedOutput.awaited]
  unfold StreamedOutput.appendOutput
  dsimp only
  rw [if_pos hshow]
  exact ⟨_, rfl, rfl, rfl, rfl, (setAt_same _ _ _).trans (hawaited _ _), setAt_same _ _ _⟩

/-- What `append_output` leaves as it is. -/
theorem appendOutput_frame (policy : OutputPolicy) (s : StreamedOutput) (stream : OutputStream) (data : Bytes) :
    (s.appendOutput policy stream data).output = s.output.appendOutput policy stream data ∧
    (s.appendOutput policy stream data).emitted = s.emitted ∧ (s.appendOutput policy stream data).flushed = s.flushed ∧
    (s.appendOutput policy stream data).cancelled = s.cancelled ∧ (s.appendOutput policy stream data).captured = s.captured ∧
    (s.appendOutput policy stream data).events = s.events ∧
    ∀ x, x ≠ stream → (s.appendOutput policy stream data).pending x = s.pending x ∧
      (s.appendOutput policy stream data).decoders x = s.decoders x := by
  unfold StreamedOutput.appendOutput
  dsimp only
  split
  · exact ⟨rfl, rfl, rfl, rfl, rfl, rfl, fun x hx => ⟨setAt_ne hx _ _, setAt_ne hx _ _⟩⟩
  · exact ⟨rfl, rfl, rfl, rfl, rfl, rfl, fun x hx => ⟨setAt_ne hx _ _, rfl⟩⟩

/-- `append_output` of a chunk that is not shown: no output event is waited for. -/
theorem appendOutput_hidden
    (hhide : ¬((s.output.retain policy stream data).2.1 ≠ [] ∧ s.output.outputEventCount < policy.maxOutputEvents)) :
    (∀ payload, (s.appendOutput policy stream data).pending stream ≠ some (.output payload)) ∧
      (s.appendOutput policy stream data).decoders = s.decoders := by
  unfold StreamedOutput.appendOutput
  dsimp only
  rw [if_neg hhide]
  refine ⟨fun payload hp => ?_, rfl⟩
  have hawaited := (setAt_same _ _ _).symm.trans hp
  cases awaited_eq_output hawaited

/-- A chunk that is shown. -/
theorem Agrees.chunk_shown (h : Agrees s stream) (htail : policy.tail = false) (hopen : s.flushed stream = false)
    (hidle : s.pending stream = none)
    (hshow : (s.output.retain policy stream data).2.1 ≠ [] ∧ s.output.outputEventCount < policy.maxOutputEvents) :
    Agrees (s.appendOutput policy stream data) stream := by
  obtain ⟨hshows, hdecoder, hnone⟩ := h.unfinished hopen
  obtain ⟨houtput, hemitted, hflushed, -⟩ := appendOutput_frame policy s stream data
  obtain ⟨payload, hstream, hdata, htext, herrors, hpending, hdecoders⟩ := appendOutput_shown hshow
  have hbegun : (s.decoders stream).getD {} =
      ⟨(Utf8.feed [] (buffer stream s.output)).1, (Utf8.feed [] (buffer stream s.output)).1⟩ := by
    cases hd : s.decoders stream with
    | none =>
      rw [hnone hd]
      rfl
    | some decoder => exact hdecoder decoder hd
  rw [hbegun, decode_begun (begun_feed (buffer stream s.output))] at htext herrors hdecoders
  have hbuffer : buffer stream (s.appendOutput policy stream data).output = buffer stream s.output ++ payload.data := by
    rw [houtput, buffer_appendOutput, buffer_retain htail, hdata]
  have hshown : shown stream (s.appendOutput policy stream data) = shown stream s ++ [payload] := by
    unfold shown
    rw [hemitted, hpending, hidle, payloads_append, payloads_append]
    simp [payloads, payloadOf, hstream]
  rw [← hdata] at htext herrors hdecoders
  refine ⟨fun _ => ⟨?_, fun decoder hd => ?_, fun hd => ?_⟩, fun hended => ?_⟩
  · rw [hshown, hbuffer, Utf8.feed_append]
    exact hshows.append htext herrors
  · rw [hbuffer, Utf8.feed_append]
    exact Option.some.inj (hd.symm.trans hdecoders)
  · rw [hdecoders] at hd
    cases hd
  · rw [hflushed, hopen] at hended
    cases hended

/-- A chunk that is not shown, where no output event was refused: nothing of it is kept. -/
theorem Agrees.chunk_hidden (h : Agrees s stream) (htail : policy.tail = false) (hidle : s.pending stream = none)
    (hkept : (s.output.retain policy stream data).2.1 = []) : Agrees (s.appendOutput policy stream data) stream := by
  obtain ⟨houtput, hemitted, hflushed, -⟩ := appendOutput_frame policy s stream data
  obtain ⟨hpending, hdecoders⟩ := appendOutput_hidden fun hshow => hshow.1 hkept
  refine h.congr (by rw [hflushed]) (by rw [hdecoders]) ?_ (shown_of_pending hemitted hidle hpending)
  rw [houtput, buffer_appendOutput, buffer_retain htail, hkept, List.append_nil]

/-- What is held back is nothing once its text is nothing. -/
theorem finish_eq_nil {pending : Bytes} (h : Utf8.textOf .replace (Utf8.finish pending) = []) : Utf8.finish pending = [] := by
  unfold Utf8.finish at h ⊢
  split
  · rfl
  · rename_i hpending
    rw [if_neg hpending] at h
    simp [Utf8.textOf, Utf8.Item.text] at h

/-- What the flush leaves as it is. -/
theorem flushOutputDecoder_frame (policy : OutputPolicy) (s : StreamedOutput) (stream : OutputStream) :
    (∀ x, buffer x (s.flushOutputDecoder policy stream).output = buffer x s.output) ∧
    (s.flushOutputDecoder policy stream).output.outputEventCount = s.output.outputEventCount ∧
    (s.flushOutputDecoder policy stream).emitted = s.emitted ∧ (s.flushOutputDecoder policy stream).events = s.events ∧
    (s.flushOutputDecoder policy stream).cancelled = s.cancelled ∧ (s.flushOutputDecoder policy stream).captured = s.captured ∧
    (s.flushOutputDecoder policy stream).flushed stream = true ∧
    ∀ x, x ≠ stream → (s.flushOutputDecoder policy stream).flushed x = s.flushed x ∧
      (s.flushOutputDecoder policy stream).decoders x = s.decoders x ∧
      (s.flushOutputDecoder policy stream).pending x = s.pending x ∧
      (s.flushOutputDecoder policy stream).output.readers x = s.output.readers x := by
  have hbuffers : ∀ x reader, buffer x (s.output.setReader stream reader) = buffer x s.output := fun x _ => by cases x <;> rfl
  unfold StreamedOutput.flushOutputDecoder
  dsimp only
  split
  · exact ⟨fun x => hbuffers x _, rfl, rfl, rfl, rfl, rfl, setAt_same _ _ _,
      fun x hx => ⟨setAt_ne hx _ _, rfl, rfl, if_neg hx⟩⟩
  · split
    · exact ⟨fun x => hbuffers x _, rfl, rfl, rfl, rfl, rfl, setAt_same _ _ _,
        fun x hx => ⟨setAt_ne hx _ _, setAt_ne hx _ _, rfl, if_neg hx⟩⟩
    · split
      · split
        · exact ⟨fun x => hbuffers x _, rfl, rfl, rfl, rfl, rfl, setAt_same _ _ _,
            fun x hx => ⟨setAt_ne hx _ _, setAt_ne hx _ _, rfl, if_neg hx⟩⟩
        · exact ⟨fun x => by cases x <;> rfl, rfl, rfl, rfl, rfl, rfl, setAt_same _ _ _,
            fun x hx => ⟨setAt_ne hx _ _, setAt_ne hx _ _, setAt_ne hx _ _, if_neg hx⟩⟩
      · exact ⟨fun x => hbuffers x _, rfl, rfl, rfl, rfl, rfl, setAt_same _ _ _,
          fun x hx => ⟨setAt_ne hx _ _, setAt_ne hx _ _, setAt_ne hx _ _, if_neg hx⟩⟩

/-- The flush shows what was held back, unless the limit of the events is reported. -/
theorem flushOutputDecoder_shown (hidle : s.pending stream = none)
    (hlimit : (s.flushOutputDecoder policy stream).output.outputEventLimitReported = false) :
    (∃ more, shown stream (s.flushOutputDecoder policy stream) = shown stream s ++ more ∧
      ((s.decoders stream = none ∧ more = []) ∨
        ∃ decoder, s.decoders stream = some decoder ∧
          ((decoder.decode [] true).2.1 = [] ∧ more = [] ∨
            ∃ payload, more = [payload] ∧ payload.data = [] ∧ payload.text = (decoder.decode [] true).2.1 ∧
              payload.decodingErrors = (decoder.decode [] true).2.2))) := by
  have hsame : ∀ s' : StreamedOutput, s'.emitted = s.emitted → s'.pending stream = none → shown stream s' = shown stream s ++ [] := by
    intro s' hemitted hpending
    unfold shown
    rw [hemitted, hpending, hidle, List.append_nil]
  unfold StreamedOutput.flushOutputDecoder at hlimit ⊢
  dsimp only at hlimit ⊢
  split
  · rename_i hnone
    exact ⟨[], hsame _ rfl hidle, .inl ⟨hnone, rfl⟩⟩
  · rename_i decoder hdecoder
    rw [hdecoder] at hlimit
    dsimp only at hlimit
    split
    · rename_i htext
      exact ⟨[], hsame _ rfl hidle, .inr ⟨decoder, hdecoder, .inl ⟨htext, rfl⟩⟩⟩
    · rename_i htext
      rw [if_neg htext] at hlimit
      split
      · rename_i hfull
        rw [if_pos hfull] at hlimit
        split at hlimit
        · rename_i hreported
          exact absurd (hreported.symm.trans hlimit) nofun
        · cases hlimit
      · refine ⟨[{ stream := stream, offset := s.streamOffsets stream, bytes := 0, text := _, data := [], decodingErrors := _ }], ?_,
          .inr ⟨decoder, hdecoder, .inr ⟨_, rfl, rfl, rfl, rfl⟩⟩⟩
        unfold shown
        dsimp only
        rw [setAt_same, hidle, payloads_append, payloads_append]
        simp [payloads, payloadOf]

/-- The flush at the end of a stream: what its decoder held back is shown, and the events agree with the whole. -/
theorem Agrees.flush (h : Agrees s stream) (hopen : s.flushed stream = false) (hidle : s.pending stream = none)
    (hlimit : (s.flushOutputDecoder policy stream).output.outputEventLimitReported = false) :
    Agrees (s.flushOutputDecoder policy stream) stream := by
  obtain ⟨hshows, hdecoder, hnone⟩ := h.unfinished hopen
  obtain ⟨hbuffer, -, -, -, -, -, hflushed, -⟩ := flushOutputDecoder_frame policy s stream
  obtain ⟨more, hshown, hmore⟩ := flushOutputDecoder_shown hidle hlimit
  refine ⟨fun hopen' => absurd (hflushed.symm.trans hopen') nofun, fun _ => ?_⟩
  rw [hshown, hbuffer]
  rcases hmore with ⟨hd, rfl⟩ | ⟨decoder, hd, hmore⟩
  · have hempty := hnone hd
    rw [hempty] at hshows ⊢
    rw [List.append_nil]
    exact hshows
  · have hdecode := decode_end (begun_feed (buffer stream s.output))
    rw [← hdecoder decoder hd] at hdecode
    rw [hdecode] at hmore
    unfold Utf8.items
    rcases hmore with ⟨htext, rfl⟩ | ⟨payload, rfl, hdata, htext, herrors⟩
    · rw [finish_eq_nil htext, List.append_nil, List.append_nil]
      exact hshows
    · have happend := hshows.append htext herrors
      rwa [hdata, List.append_nil] at happend

/-! ## Runs -/

/-- What a run keeps where the head is retained: a reader that is at no emit waits for no event, output events are of streams with
readers, the limit is reported only once it is reached, and the streams whose readers were not given up on agree until it is reported. -/
structure Faithful (policy : OutputPolicy) (s : StreamedOutput) : Prop where
  limit : s.output.outputEventLimitReported = true → policy.maxOutputEvents ≤ s.output.outputEventCount
  idle : ∀ stream, s.output.readers stream = .reading ∨ s.output.readers stream = .done → s.pending stream = none
  owned : ∀ stream payload, s.pending stream = some (.output payload) →
    payload.stream = stream ∧ SessionOutput.hasReader policy stream = true
  emitted : ∀ payload, .output payload ∈ s.emitted → SessionOutput.hasReader policy payload.stream = true
  agrees : s.output.outputEventLimitReported = false → ∀ stream, SessionOutput.hasReader policy stream = true →
    s.cancelled stream = false → Agrees s stream

/-- A reader that is at no emit waits for no event. -/
theorem awaited_idle {built : Option OutputPayload} {dropped : Nat} {output : SessionOutput}
    (h : output.readers stream = .reading ∨ output.readers stream = .done) :
    StreamedOutput.awaited policy stream built dropped output = none := by
  unfold StreamedOutput.awaited
  rcases h with h | h <;> rw [h]

/-- What a stream has shown depends on its events and on the one that is pending. -/
theorem shown_congr {s' : StreamedOutput} (hemitted : s'.emitted = s.emitted) (hpending : s'.pending stream = s.pending stream) :
    shown stream s' = shown stream s := by
  unfold shown
  rw [hemitted, hpending]

/-- A chunk that is appended keeps the text faithful to the bytes, where the stream is still read. -/
theorem Faithful.appendOutput (h : Faithful policy s) (htail : policy.tail = false)
    (hreader : SessionOutput.hasReader policy stream = true) (hreading : s.output.readers stream = .reading)
    (hopen : s.flushed stream = false) : Faithful policy (s.appendOutput policy stream data) := by
  obtain ⟨houtput, hemitted, hflushed, hcancelled, -, -, hothers⟩ :=
    appendOutput_frame policy s stream data
  obtain ⟨total, truncated, reported, reader, limitReported, hchanges, hshow, hhide⟩ :=
    appendOutput_changes policy s.output stream data
  obtain ⟨⟨stdout, stderr, hsame⟩, -⟩ := retain_changes policy s.output stream data 0
  have hlimit : (s.appendOutput policy stream data).output.outputEventLimitReported = limitReported := by rw [houtput, hchanges]
  have hcount : (s.appendOutput policy stream data).output.outputEventCount = s.output.outputEventCount := by
    rw [houtput, hchanges, hsame]
  have hidle := h.idle stream (.inl hreading)
  refine ⟨fun hreport => ?_, fun x hx => ?_, fun x payload hp => ?_, fun payload hp => h.emitted payload (hemitted ▸ hp),
    fun hreport x hx hlive => ?_⟩
  · rw [hcount]
    rw [hlimit] at hreport
    by_cases hcase : (s.output.retain policy stream data).2.1 ≠ [] ∧ s.output.outputEventCount < policy.maxOutputEvents
    · exact h.limit ((hshow hcase).1 ▸ hreport)
    · by_cases hkept : (s.output.retain policy stream data).2.1 = []
      · exact h.limit ((hhide hcase).1 hkept ▸ hreport)
      · exact ((hhide hcase).2 hkept).2
  · by_cases heq : x = stream
    · subst heq
      rw [houtput] at hx
      unfold StreamedOutput.appendOutput
      dsimp only
      split
      · exact (setAt_same _ _ _).trans (awaited_idle hx)
      · exact (setAt_same _ _ _).trans (awaited_idle hx)
    · rw [(hothers x heq).1]
      refine h.idle x ?_
      rw [houtput, hchanges] at hx
      simpa [heq] using hx
  · by_cases heq : x = stream
    · subst heq
      refine ⟨?_, hreader⟩
      unfold StreamedOutput.appendOutput at hp
      dsimp only at hp
      split at hp
      · cases awaited_eq_output ((setAt_same _ _ _).symm.trans hp)
        rfl
      · cases awaited_eq_output ((setAt_same _ _ _).symm.trans hp)
    · rw [(hothers x heq).1] at hp
      exact h.owned x payload hp
  · have hbefore : s.output.outputEventLimitReported = false := by
      rw [hlimit] at hreport
      by_cases hcase : (s.output.retain policy stream data).2.1 ≠ [] ∧ s.output.outputEventCount < policy.maxOutputEvents
      · exact (hshow hcase).1 ▸ hreport
      · by_cases hkept : (s.output.retain policy stream data).2.1 = []
        · exact (hhide hcase).1 hkept ▸ hreport
        · exact absurd (((hhide hcase).2 hkept).1.symm.trans hreport) nofun
    rw [hcancelled] at hlive
    have hagrees := h.agrees hbefore x hx hlive
    by_cases heq : x = stream
    · subst heq
      by_cases hcase : (s.output.retain policy x data).2.1 ≠ [] ∧ s.output.outputEventCount < policy.maxOutputEvents
      · exact hagrees.chunk_shown htail hopen hidle hcase
      · refine hagrees.chunk_hidden htail hidle ?_
        by_contra hkept
        rw [hlimit, ((hhide hcase).2 hkept).1] at hreport
        cases hreport
    · refine hagrees.congr (by rw [hflushed]) (hothers x heq).2 ?_ (shown_congr hemitted (hothers x heq).1)
      rw [houtput, buffer_appendOutput, buffer_retain_ne htail hreader hx heq]

/-- A step that reads nothing and decodes nothing: what the events of the streams show stays as it is. -/
theorem Faithful.quiet {s' : StreamedOutput} (h : Faithful policy s)
    (hlimit : s'.output.outputEventLimitReported = s.output.outputEventLimitReported)
    (hcount : s.output.outputEventCount ≤ s'.output.outputEventCount) (hbuffers : ∀ x, buffer x s'.output = buffer x s.output)
    (hflushed : s'.flushed = s.flushed) (hdecoders : s'.decoders = s.decoders)
    (hcancelled : ∀ x, s'.cancelled x = false → s.cancelled x = false)
    (hidle : ∀ x, s'.output.readers x = .reading ∨ s'.output.readers x = .done → s'.pending x = none)
    (hpending : ∀ x payload, s'.pending x = some (.output payload) → s.pending x = some (.output payload))
    (hemitted : ∀ payload, .output payload ∈ s'.emitted →
      .output payload ∈ s.emitted ∨ ∃ x, s.pending x = some (.output payload))
    (hshown : ∀ x, s'.cancelled x = false → shown x s' = shown x s) : Faithful policy s' := by
  refine ⟨fun hreport => ?_, hidle, fun x payload hp => h.owned x payload (hpending x payload hp), fun payload hp => ?_,
    fun hreport x hx hlive => ?_⟩
  · exact (h.limit (hlimit ▸ hreport)).trans hcount
  · rcases hemitted payload hp with hp | ⟨x, hp⟩
    · exact h.emitted payload hp
    · obtain ⟨hstream, hreader⟩ := h.owned x payload hp
      rwa [hstream]
  · exact (h.agrees (hlimit ▸ hreport) x hx (hcancelled x hlive)).congr (by rw [hflushed]) (by rw [hdecoders]) (hbuffers x)
      (hshown x hlive)

/-- Appending the event that a reader waits for shows nothing new. -/
theorem Faithful.appendEvent (h : Faithful policy s) : Faithful policy (s.appendEvent maxRetainedEvents stream) := by
  unfold StreamedOutput.appendEvent
  split
  · rename_i event hevent
    refine h.quiet rfl (le_refl _) (fun _ => rfl) rfl rfl (fun _ => id) (fun x hx => ?_) (fun x payload hp => ?_) (fun payload hp => ?_)
      fun x _ => ?_
    · exact forall_setAt (fun x e => s.pending x = none → e = none) (fun _ => rfl) (fun _ => id) x (h.idle x hx)
    · by_cases hx : x = stream
      · subst hx
        cases (setAt_same _ _ _).symm.trans hp
      · exact (setAt_ne hx _ _).symm.trans hp
    · rcases List.mem_append.1 hp with hp | hp
      · exact .inl hp
      · exact .inr ⟨stream, by rw [hevent, List.mem_singleton.1 hp]⟩
    · unfold shown StreamedOutput.emit
      dsimp only
      by_cases hx : x = stream
      · subst hx
        rw [setAt_same, hevent]
        simp
      · rw [setAt_ne hx, payloads_append, payloads_append, payloads_append]
        have hother : payloads x [event] = [] := by
          refine payloads_singleton fun payload hp hstream => ?_
          rw [hp] at hevent
          exact hx (hstream.symm.trans (h.owned stream payload hevent).1)
        rw [hother, List.append_nil]
  · exact h

/-- A reader that goes on keeps it faithful. -/
theorem Faithful.resume (h : Faithful policy s) (hidle : s.pending stream = none) : Faithful policy (s.resume policy stream) := by
  obtain ⟨_, _, reader, count, hchanges, hcount⟩ := resume_changes s.output stream
  have hbuffers : ∀ x, buffer x (s.output.resume stream) = buffer x s.output := by
    intro x
    rw [hchanges]
    cases x <;> rfl
  have hbuffersDone : ∀ x, buffer x ((s.output.resume stream).setReader stream .done) = buffer x s.output := by
    intro x
    rw [← hbuffers x]
    cases x <;> rfl
  have hlimit : (s.output.resume stream).outputEventLimitReported = s.output.outputEventLimitReported := by rw [hchanges]
  have hcounted : s.output.outputEventCount ≤ (s.output.resume stream).outputEventCount := by
    rw [hchanges]
    exact hcount
  have hreaders : ∀ x, x ≠ stream → (s.output.resume stream).readers x = s.output.readers x := by
    intro x hx
    rw [hchanges]
    exact if_neg hx
  have hpending : ∀ x payload, setAt stream (StreamedOutput.awaited policy stream none (s.output.readers stream).uncounted
      (s.output.resume stream)) s.pending x = some (.output payload) → s.pending x = some (.output payload) := by
    intro x payload hp
    by_cases hx : x = stream
    · subst hx
      cases awaited_eq_output ((setAt_same _ _ _).symm.trans hp)
    · exact (setAt_ne hx _ _).symm.trans hp
  have hshown : ∀ s' : StreamedOutput, s'.emitted = s.emitted →
      s'.pending = setAt stream (StreamedOutput.awaited policy stream none (s.output.readers stream).uncounted
        (s.output.resume stream)) s.pending → ∀ x, shown x s' = shown x s := by
    intro s' hemitted hpending' x
    by_cases hx : x = stream
    · subst hx
      refine shown_of_pending hemitted hidle fun payload hp => ?_
      rw [hpending', setAt_same] at hp
      cases awaited_eq_output hp
    · exact shown_congr hemitted (by rw [hpending', setAt_ne hx])
  unfold StreamedOutput.resume
  dsimp only
  split
  · rename_i hended
    refine h.quiet hlimit hcounted hbuffersDone rfl rfl (fun _ => id) (fun x hx => ?_) hpending (fun _ => .inl)
      fun x _ => hshown _ (by rfl) (by rfl) x
    by_cases heq : x = stream
    · subst heq
      exact (setAt_same _ _ _).trans (awaited_idle (.inl hended.2))
    · refine (setAt_ne heq _ _).trans (h.idle x ?_)
      have hsame : ((s.output.resume stream).setReader stream .done).readers x = s.output.readers x :=
        (if_neg heq).trans (hreaders x heq)
      rwa [← hsame]
  · refine h.quiet hlimit hcounted hbuffers rfl rfl (fun _ => id) (fun x hx => ?_) hpending (fun _ => .inl)
      fun x _ => hshown _ (by rfl) (by rfl) x
    by_cases heq : x = stream
    · subst heq
      exact (setAt_same _ _ _).trans (awaited_idle hx)
    · refine (setAt_ne heq _ _).trans (h.idle x ?_)
      rwa [← hreaders x heq]

/-- Where the flush leaves its reader and the limit: the reader returns, or waits for an event; the limit is reported once it is
reached. -/
theorem flushOutputDecoder_reader (policy : OutputPolicy) (hidle : s.pending stream = none) :
    ((s.flushOutputDecoder policy stream).output.readers stream = .reading ∨
        (s.flushOutputDecoder policy stream).output.readers stream = .done →
      (s.flushOutputDecoder policy stream).pending stream = none) ∧
    (∀ payload, (s.flushOutputDecoder policy stream).pending stream = some (.output payload) → payload.stream = stream) ∧
    ((s.flushOutputDecoder policy stream).output.outputEventLimitReported = s.output.outputEventLimitReported ∨
      policy.maxOutputEvents ≤ s.output.outputEventCount ∧
        (s.flushOutputDecoder policy stream).output.outputEventLimitReported = true) := by
  have hnone : ∀ payload, s.pending stream = some (.output payload) → payload.stream = stream := by
    intro payload hp
    rw [hidle] at hp
    cases hp
  unfold StreamedOutput.flushOutputDecoder
  dsimp only
  split
  · exact ⟨fun _ => hidle, hnone, .inl rfl⟩
  · split
    · exact ⟨fun _ => hidle, hnone, .inl rfl⟩
    · split
      · rename_i hfull
        split
        · exact ⟨fun _ => hidle, hnone, .inl rfl⟩
        · refine ⟨fun hx => ?_, fun payload hp => ?_, .inr ⟨hfull, rfl⟩⟩
          · simp [SessionOutput.setReader] at hx
          · cases (setAt_same _ _ _).symm.trans hp
      · refine ⟨fun hx => ?_, fun payload hp => ?_, .inl rfl⟩
        · simp [SessionOutput.setReader] at hx
        · cases (setAt_same _ _ _).symm.trans hp
          rfl

/-- The flush of a decoder keeps it faithful, where the stream is still read. -/
theorem Faithful.flushOutputDecoder (h : Faithful policy s) (hreader : SessionOutput.hasReader policy stream = true)
    (hreading : s.output.readers stream = .reading) (hopen : s.flushed stream = false) :
    Faithful policy (s.flushOutputDecoder policy stream) := by
  obtain ⟨hbuffer, hcount, hemitted, -, hcancelled, -, -, hothers⟩ :=
    flushOutputDecoder_frame policy s stream
  have hidle := h.idle stream (.inl hreading)
  obtain ⟨hwaits, howned, hlimit⟩ := flushOutputDecoder_reader policy hidle
  refine ⟨fun hreport => ?_, fun x hx => ?_, fun x payload hp => ?_, fun payload hp => h.emitted payload (hemitted ▸ hp),
    fun hreport x hx hlive => ?_⟩
  · rw [hcount]
    rcases hlimit with hsame | ⟨hfull, -⟩
    · exact h.limit (hsame ▸ hreport)
    · exact hfull
  · by_cases heq : x = stream
    · subst heq
      exact hwaits hx
    · obtain ⟨-, -, hpending, hreaders⟩ := hothers x heq
      rw [hpending]
      exact h.idle x (hreaders ▸ hx)
  · by_cases heq : x = stream
    · subst heq
      exact ⟨howned payload hp, hreader⟩
    · rw [(hothers x heq).2.2.1] at hp
      exact h.owned x payload hp
  · have hbefore : s.output.outputEventLimitReported = false := by
      rcases hlimit with hsame | ⟨-, hreported⟩
      · exact hsame ▸ hreport
      · exact absurd (hreported.symm.trans hreport) nofun
    have hagrees := h.agrees hbefore x hx (hcancelled ▸ hlive)
    by_cases heq : x = stream
    · subst heq
      exact hagrees.flush hopen hidle hreport
    · obtain ⟨hflushed, hdecoders, hpending, -⟩ := hothers x heq
      exact hagrees.congr hflushed hdecoders (hbuffer x) (shown_congr hemitted hpending)

/-- Every step keeps it faithful, where the head is kept. -/
theorem Faithful.step (h : Faithful policy s) (htail : policy.tail = false) (input : StreamedInput) :
    Faithful policy (s.step policy maxRetainedEvents input) := by
  cases input with
  | chunk stream data =>
    unfold StreamedOutput.step
    dsimp only
    split
    · rename_i hready
      simp only [Bool.and_eq_true, decide_eq_true_eq, Bool.not_eq_true'] at hready
      exact h.appendOutput htail hready.1.1 hready.1.2 hready.2
    · exact h
  | append stream => exact h.appendEvent
  | resume stream =>
    unfold StreamedOutput.step
    dsimp only
    split
    · rename_i hnone
      exact h.resume (Option.isNone_iff_eq_none.1 hnone)
    · exact h
  | endOfFile stream =>
    unfold StreamedOutput.step
    dsimp only
    split
    · rename_i hready
      simp only [Bool.and_eq_true, decide_eq_true_eq, Bool.not_eq_true'] at hready
      exact h.flushOutputDecoder hready.1.1 hready.1.2 hready.2
    · exact h
  | cancel stream =>
    unfold StreamedOutput.step
    dsimp only
    split
    · refine h.quiet rfl (le_refl _) (fun x => by cases x <;> rfl) rfl rfl (fun x hx => ?_) (fun x hx => ?_)
        (fun x payload hp => ?_) (fun _ => .inl) fun x hx => ?_
      · by_cases heq : x = stream
        · subst heq
          cases (setAt_same _ _ _).symm.trans hx
        · exact (setAt_ne heq _ _).symm.trans hx
      · by_cases heq : x = stream
        · subst heq
          exact setAt_same _ _ _
        · refine (setAt_ne heq _ _).trans (h.idle x ?_)
          have hsame : (s.output.cancel stream).readers x = s.output.readers x := if_neg heq
          rwa [← hsame]
      · by_cases heq : x = stream
        · subst heq
          cases (setAt_same _ _ _).symm.trans hp
        · exact (setAt_ne heq _ _).symm.trans hp
      · by_cases heq : x = stream
        · subst heq
          cases (setAt_same _ _ _).symm.trans hx
        · exact shown_congr rfl (setAt_ne heq _ _)
    · exact h
  | emitOther =>
    refine h.quiet rfl (le_refl _) (fun _ => rfl) rfl rfl (fun _ => id) h.idle (fun _ _ => id) (fun payload hp => ?_) fun x _ => ?_
    · rcases List.mem_append.1 hp with hp | hp
      · exact .inl hp
      · simp at hp
    · have hother : payloads x [SessionEvent.other] = [] := payloads_singleton nofun
      unfold shown StreamedOutput.step StreamedOutput.emit
      rw [payloads_append, payloads_append, payloads_append, hother, List.append_nil]
  | complete =>
    unfold StreamedOutput.step
    dsimp only
    split
    · exact h.quiet rfl (le_refl _) (fun x => by cases x <;> rfl) rfl rfl (fun _ => id) h.idle (fun _ _ => id) (fun _ => .inl)
        fun _ _ => rfl
    · exact h

/-- Nothing has been shown at the start. -/
theorem faithful_init (policy : OutputPolicy) : Faithful policy {} := by
  refine ⟨nofun, fun _ _ => rfl, fun _ _ => nofun, nofun, fun _ x _ _ => ⟨fun _ => ⟨⟨?_, ?_, ?_⟩, nofun, fun _ => ?_⟩, nofun⟩⟩
  · cases x <;> rfl
  · cases x <;> rfl
  · cases x <;> rfl
  · cases x <;> rfl

/-! ## The result -/

/-- What a run keeps besides: the history holds the newest events; a result is made of the buffers as they are, once the readers are
done; and a PTY session has nothing on standard error. -/
structure Concluded (policy : OutputPolicy) (maxRetainedEvents : Nat) (s : StreamedOutput) : Prop where
  holds : RingBuffer.Holds maxRetainedEvents s.emitted s.events
  stderr : policy.pty = true → s.output.stderr = []
  drained : s.captured.isSome = true → ∀ stream, SessionOutput.hasReader policy stream = true → s.output.readers stream = .done
  captured : ∀ captured, s.captured = some captured →
    captured = captureOutput s.output.stdout s.output.stderr none ∧
      ∃ result, s.output.result = some result ∧ result.stdoutBytes = s.output.stdout ∧ result.stderrBytes = s.output.stderr

/-- A step that appends no event, writes no buffer and leaves the readers that are done. -/
theorem Concluded.quiet {s' : StreamedOutput} (h : Concluded policy maxRetainedEvents s) (hevents : s'.events = s.events)
    (hemitted : s'.emitted = s.emitted) (hcaptured : s'.captured = s.captured)
    (hreaders : ∀ x, s.output.readers x = .done → s'.output.readers x = .done)
    (hstdout : s'.output.stdout = s.output.stdout) (hstderr : s'.output.stderr = s.output.stderr)
    (hresult : s'.output.result = s.output.result) : Concluded policy maxRetainedEvents s' := by
  refine ⟨?_, fun hpty => hstderr.trans (h.stderr hpty), fun hsome x hx => hreaders x (h.drained (hcaptured ▸ hsome) x hx),
    fun captured hc => ?_⟩
  · rw [hevents, hemitted]
    exact h.holds
  · rw [hstdout, hstderr, hresult]
    exact h.captured captured (hcaptured ▸ hc)

/-- A step of a reader that is not done: there is no result yet. -/
theorem Concluded.open {s' : StreamedOutput} (h : Concluded policy maxRetainedEvents s) (hevents : s'.events = s.events)
    (hemitted : s'.emitted = s.emitted) (hcaptured : s'.captured = s.captured)
    (hstderr : policy.pty = true → s'.output.stderr = s.output.stderr)
    (hreader : SessionOutput.hasReader policy stream = true) (hreading : s.output.readers stream = .reading) :
    Concluded policy maxRetainedEvents s' := by
  have hnone : s.captured = none := by
    cases hc : s.captured with
    | none => rfl
    | some captured => exact absurd (hreading.symm.trans (h.drained (by rw [hc]; rfl) stream hreader)) nofun
  refine ⟨?_, fun hpty => (hstderr hpty).trans (h.stderr hpty), fun hsome => ?_, fun captured hc => ?_⟩
  · rw [hevents, hemitted]
    exact h.holds
  · rw [hcaptured, hnone] at hsome
    cases hsome
  · rw [hcaptured, hnone] at hc
    cases hc

/-- An event more in the history. -/
theorem Concluded.emit (h : Concluded policy maxRetainedEvents s) (hretained : 0 < maxRetainedEvents) (event : SessionEvent) :
    Concluded policy maxRetainedEvents (s.emit maxRetainedEvents event) :=
  ⟨RingBuffer.push_holds hretained h.holds event, h.stderr, h.drained, h.captured⟩

/-- Every step keeps what is concluded of streams that have ended. -/
theorem Concluded.step (h : Concluded policy maxRetainedEvents s) (htail : policy.tail = false) (hretained : 0 < maxRetainedEvents)
    (input : StreamedInput) :
    Concluded policy maxRetainedEvents (s.step policy maxRetainedEvents input) := by
  cases input with
  | chunk stream data =>
    unfold StreamedOutput.step
    dsimp only
    split
    · rename_i hready
      simp only [Bool.and_eq_true, decide_eq_true_eq] at hready
      obtain ⟨houtput, hemitted, -, -, hcaptured, hevents, -⟩ :=
        appendOutput_frame policy s stream data
      refine h.open hevents hemitted hcaptured (fun hpty => ?_) hready.1.1 hready.1.2
      have hbuffer : buffer .stderr (s.output.appendOutput policy stream data) = buffer .stderr s.output := by
        rw [buffer_appendOutput, SessionOutput.retain_of_head policy s.output stream data htail]
        have hreader := hready.1.1
        cases stream <;> simp_all [SessionOutput.hasReader, buffer]
      rw [houtput]
      exact hbuffer
    · exact h
  | append stream =>
    unfold StreamedOutput.step StreamedOutput.appendEvent
    dsimp only
    split
    · rename_i event _
      have hwaiting : Concluded policy maxRetainedEvents { s with pending := setAt stream none s.pending } :=
        h.quiet rfl rfl rfl (fun _ => id) rfl rfl rfl
      exact hwaiting.emit hretained event
    · exact h
  | resume stream =>
    obtain ⟨_, _, reader, count, hchanges, -⟩ := resume_changes s.output stream
    have hdone : ∀ x, s.output.readers x = .done → (s.output.resume stream).readers x = .done := by
      intro x hx
      by_cases heq : x = stream
      · subst heq
        unfold SessionOutput.resume
        rw [hx]
        exact hx
      · rw [hchanges]
        exact (if_neg heq).trans hx
    unfold StreamedOutput.step StreamedOutput.resume
    dsimp only
    split
    · split
      · refine h.quiet rfl rfl rfl (fun x hx => ?_) (by rw [hchanges]; rfl) (by rw [hchanges]; rfl) (by rw [hchanges]; rfl)
        by_cases heq : x = stream
        · exact if_pos heq
        · exact (if_neg heq).trans (hdone x hx)
      · exact h.quiet rfl rfl rfl hdone (by rw [hchanges]) (by rw [hchanges]) (by rw [hchanges])
    · exact h
  | endOfFile stream =>
    unfold StreamedOutput.step
    dsimp only
    split
    · rename_i hready
      simp only [Bool.and_eq_true, decide_eq_true_eq] at hready
      obtain ⟨hbuffer, -, hemitted, hevents, -, hcaptured, -⟩ :=
        flushOutputDecoder_frame policy s stream
      exact h.open hevents hemitted hcaptured (fun _ => hbuffer .stderr) hready.1.1 hready.1.2
    · exact h
  | cancel stream =>
    unfold StreamedOutput.step
    dsimp only
    split
    · refine h.quiet rfl rfl rfl (fun x hx => ?_) rfl rfl rfl
      by_cases heq : x = stream
      · exact if_pos heq
      · exact (if_neg heq).trans hx
    · exact h
  | emitOther => exact h.emit hretained .other
  | complete =>
    unfold StreamedOutput.step
    dsimp only
    split
    · rename_i hready
      simp only [Bool.and_eq_true, SessionOutput.drained, List.all_eq_true] at hready
      refine ⟨h.holds, h.stderr, fun _ x hx => ?_, fun captured hc => ?_⟩
      · have hx' := hready.1 x (by cases x <;> simp)
        have hdone : s.output.readers x = .done := by simpa [hx] using hx'
        exact hdone
      · cases hc
        exact ⟨rfl, _, rfl, rfl, rfl⟩
    · exact h

/-- No stream has ended at the start. -/
theorem concluded_init (policy : OutputPolicy) (maxRetainedEvents : Nat) : Concluded policy maxRetainedEvents {} :=
  ⟨RingBuffer.holds_empty _, fun _ => rfl, nofun, nofun⟩

/-- The text and the errors of a buffer. -/
theorem decodeOutput_eq (data : Bytes) : decodeOutput data = (Utf8.decode .replace data, (Utf8.items data).any Utf8.Item.isInvalid) := by
  unfold decodeOutput Utf8.decodeStrict
  cases h : (Utf8.items data).any Utf8.Item.isInvalid <;> simp

/-- Without a cap of its own `capture_output` decodes the buffers as they are. -/
theorem captureOutput_uncapped (stdout stderr : Bytes) :
    (captureOutput stdout stderr none).stdout = Utf8.decode .replace stdout ∧
    (captureOutput stdout stderr none).stderr = Utf8.decode .replace stderr ∧
    (captureOutput stdout stderr none).decodingErrors =
      ((Utf8.items stdout).any Utf8.Item.isInvalid || (Utf8.items stderr).any Utf8.Item.isInvalid) := by
  have hstdout : stdout.take (stdout.length + stderr.length) = stdout := List.take_of_length_le (by omega)
  have hstderr : stderr.take (stdout.length + stderr.length - stdout.length) = stderr := List.take_of_length_le (by omega)
  simp only [captureOutput, Option.getD_none, hstdout, hstderr, decodeOutput_eq, and_self]

/-- The events that are there when none was driven out. -/
theorem Concluded.history (h : Concluded policy maxRetainedEvents s) (hretained : 0 < maxRetainedEvents)
    (hfirst : s.events.first = 0) : s.events.items.map (·.value) = s.emitted := by
  have hall : s.emitted.length - min s.emitted.length maxRetainedEvents = 0 := by
    rw [← h.holds.first hretained]
    exact hfirst
  have hvalues : ∀ (n : Nat) (events : List SessionEvent), (RingBuffer.numberedFrom n events).map (·.value) = events := by
    intro n events
    induction events generalizing n with
    | nil => rfl
    | cons event events ih => simp [RingBuffer.numberedFrom, ih]
  rw [h.holds.items, hall, List.drop_zero, hvalues]

/-- Some output event has decoding errors if and only if one of a stream has. -/
theorem exists_errors_iff {events : List SessionEvent} :
    (∃ payload, .output payload ∈ events ∧ payload.decodingErrors = true) ↔ ∃ x, errorsOf (payloads x events) = true := by
  constructor
  · rintro ⟨payload, hmem, herrors⟩
    refine ⟨payload.stream, List.any_eq_true.2 ⟨payload, List.mem_filterMap.2 ⟨.output payload, hmem, ?_⟩, herrors⟩⟩
    exact if_pos rfl
  · rintro ⟨x, herrors⟩
    obtain ⟨payload, hmem, herrors⟩ := List.any_eq_true.1 herrors
    obtain ⟨event, hevent, hpayload⟩ := List.mem_filterMap.1 hmem
    cases event with
    | output shown =>
      refine ⟨payload, ?_, herrors⟩
      unfold payloadOf at hpayload
      dsimp only at hpayload
      split at hpayload
      · cases hpayload
        exact hevent
      · cases hpayload
    | outputEventsLimit limit => cases hpayload
    | outputTruncated y dropped total => cases hpayload
    | other => cases hpayload

/-- The events of a session agree with its result, where the head was retained, every reader came to the end of its stream, the output
events stayed below their limit, and none was driven out of the history. -/
theorem events_agree_with_result (policy : OutputPolicy) (htail : policy.tail = false) (maxRetainedEvents : Nat)
    (hretained : 0 < maxRetainedEvents) (inputs : List StreamedInput) (captured : CapturedOutput) :
    let s := Machine.run (StreamedOutput.step policy maxRetainedEvents) {} inputs
    s.captured = some captured →
    (∀ stream, SessionOutput.hasReader policy stream = true → s.flushed stream = true ∧ s.cancelled stream = false) →
    s.output.outputEventCount < policy.maxOutputEvents → s.events.first = 0 →
    ∃ result, s.output.result = some result ∧
      let events := s.events.items.map (·.value)
      (∀ stream, SessionOutput.hasReader policy stream = true →
        dataOf (payloads stream events) = (if stream = .stderr then result.stderrBytes else result.stdoutBytes) ∧
        textsOf (payloads stream events) = (if stream = .stderr then captured.stderr else captured.stdout)) ∧
      ((∃ payload, .output payload ∈ events ∧ payload.decodingErrors = true) ↔ captured.decodingErrors = true) := by
  intro s hcaptured hended hcount hfirst
  have hfaithful : Faithful policy s := Machine.run_induct (fun _ input h => h.step htail input) (faithful_init policy) inputs
  have hconcluded : Concluded policy maxRetainedEvents s :=
    Machine.run_induct (fun _ input h => h.step htail hretained input) (concluded_init policy maxRetainedEvents) inputs
  obtain ⟨hresult, result, hsome, hstdout, hstderr⟩ := hconcluded.captured captured hcaptured
  obtain ⟨htextOut, htextErr, herrors⟩ := captureOutput_uncapped s.output.stdout s.output.stderr
  rw [← hresult] at htextOut htextErr herrors
  have hreport : s.output.outputEventLimitReported = false := by
    by_contra hreported
    have hfull := hfaithful.limit (by simpa using hreported)
    omega
  -- a reader that is done waits for no event: what is shown is what was emitted
  have hshows : ∀ x, SessionOutput.hasReader policy x = true →
      Shows (payloads x s.emitted) (buffer x s.output) (Utf8.items (buffer x s.output)) := by
    intro x hx
    have hidle := hfaithful.idle x (.inr (hconcluded.drained (by rw [hcaptured]; rfl) x hx))
    have hshows := (hfaithful.agrees hreport x hx (hended x hx).2).finished (hended x hx).1
    unfold shown at hshows
    rwa [hidle, Option.toList_none, List.append_nil] at hshows
  refine ⟨result, hsome, ?_⟩
  dsimp only
  rw [hconcluded.history hretained hfirst]
  refine ⟨fun x hx => ?_, ?_⟩
  · have hx' := hshows x hx
    cases x with
    | stdout => exact ⟨hx'.data.trans hstdout.symm, hx'.text.trans htextOut.symm⟩
    | stderr => exact ⟨hx'.data.trans hstderr.symm, hx'.text.trans htextErr.symm⟩
    | pty => exact ⟨hx'.data.trans hstdout.symm, hx'.text.trans htextOut.symm⟩
  · have hnone : ∀ x, SessionOutput.hasReader policy x ≠ true → errorsOf (payloads x s.emitted) = false := by
      intro x hx
      by_contra hsomeError
      obtain ⟨payload, hmem, -⟩ := List.any_eq_true.1 (by simpa [errorsOf] using hsomeError)
      obtain ⟨event, hevent, hpayload⟩ := List.mem_filterMap.1 hmem
      cases event with
      | output shown =>
        unfold payloadOf at hpayload
        dsimp only at hpayload
        split at hpayload
        · rename_i hstream
          exact hx (hstream ▸ hfaithful.emitted shown hevent)
        · cases hpayload
      | outputEventsLimit limit => cases hpayload
      | outputTruncated y dropped total => cases hpayload
      | other => cases hpayload
    rw [exists_errors_iff, herrors, Bool.or_eq_true]
    cases hpty : policy.pty with
    | false =>
      have hout := hshows .stdout (by simp [SessionOutput.hasReader, hpty])
      have herr := hshows .stderr (by simp [SessionOutput.hasReader, hpty])
      constructor
      · rintro ⟨x, hx⟩
        cases x with
        | stdout => exact .inl (hout.errors.symm.trans hx)
        | stderr => exact .inr (herr.errors.symm.trans hx)
        | pty => exact absurd ((hnone .pty (by simp [SessionOutput.hasReader, hpty])).symm.trans hx) Bool.false_ne_true
      · rintro (h | h)
        · exact ⟨.stdout, hout.errors.trans h⟩
        · exact ⟨.stderr, herr.errors.trans h⟩
    | true =>
      have hout := hshows .pty (by simp [SessionOutput.hasReader, hpty])
      have hempty := hconcluded.stderr hpty
      constructor
      · rintro ⟨x, hx⟩
        cases x with
        | pty => exact .inl (hout.errors.symm.trans hx)
        | stdout => exact absurd ((hnone .stdout (by simp [SessionOutput.hasReader, hpty])).symm.trans hx) Bool.false_ne_true
        | stderr => exact absurd ((hnone .stderr (by simp [SessionOutput.hasReader, hpty])).symm.trans hx) Bool.false_ne_true
      · rintro (h | h)
        · exact ⟨.pty, hout.errors.trans h⟩
        · rw [hempty] at h
          cases h

/-- A cap of four bytes. -/
def cappedPolicy : OutputPolicy :=
  { maxOutputBytes := some 4, maxOutputEvents := 8, pty := false, tail := false, tailRequiresPty := OutputPolicy.of_head }

/-- A euro sign is cut after its first byte, and the cap cuts the next one. -/
def cutEuros : List StreamedInput :=
  [.chunk .stdout [0xE2], .append .stdout, .resume .stdout, .chunk .stdout [0x82, 0xAC, 0xE2, 0x82], .append .stdout, .resume .stdout,
    .append .stdout, .resume .stdout, .endOfFile .stdout, .append .stdout, .resume .stdout, .endOfFile .stderr, .complete]

/-- The events and the result agree where a chunk ends inside of a character. -/
theorem cutEuros_agree :
    let s := Machine.run (StreamedOutput.step cappedPolicy 16) {} cutEuros
    let captured := captureOutput [0xE2, 0x82, 0xAC, 0xE2] [] none
    captured.stdout = [0x20AC, 0xFFFD] ∧ captured.decodingErrors = true ∧
    ∃ result, s.output.result = some result ∧
      let events := s.events.items.map (·.value)
      (∀ stream, SessionOutput.hasReader cappedPolicy stream = true →
        dataOf (payloads stream events) = (if stream = .stderr then result.stderrBytes else result.stdoutBytes) ∧
        textsOf (payloads stream events) = (if stream = .stderr then captured.stderr else captured.stdout)) ∧
      ((∃ payload, .output payload ∈ events ∧ payload.decodingErrors = true) ↔ captured.decodingErrors = true) :=
  ⟨by decide, by decide, events_agree_with_result cappedPolicy rfl 16 (by decide) cutEuros _ (by decide +kernel)
    (fun stream => by cases stream <;> decide +kernel) (by decide +kernel) (by decide +kernel)⟩

end

end Runtime

end SharkRail
