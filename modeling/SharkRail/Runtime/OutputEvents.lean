import SharkRail.Lib.Ring
import SharkRail.Lib.Utf8
import SharkRail.Runtime.AppendOutput

/-!
# The output events of a session

`append_output` and `flush_output_decoder` with the events they emit, over the buffers and counters of `SessionOutput`. An emit is cut
in two: a reader waits for the condition, then its event is appended, and `emit` returns when the recorder is done with it. The events
of the other tasks of the session come in between at any time.
-/

namespace SharkRail

namespace Runtime

/-! ## The result -/

/-- `CapturedOutput`. -/
structure CapturedOutput where
  stdout : List Nat
  stderr : List Nat
  retainedBytes : Nat
  truncatedBytes : Nat
  decodingErrors : Bool
  deriving DecidableEq

/-- `_decode_output`. -/
def decodeOutput (data : Bytes) : List Nat × Bool :=
  match Utf8.decodeStrict data with
  | some text => (text, false)
  | none => (Utf8.decode .replace data, true)

/-- `capture_output`. -/
def captureOutput (stdout stderr : Bytes) (maxBytes : Option Nat) : CapturedOutput :=
  let budget := maxBytes.getD (stdout.length + stderr.length)
  let keptStdout := stdout.take budget
  let keptStderr := stderr.take (budget - keptStdout.length)
  let retained := keptStdout.length + keptStderr.length
  { stdout := (decodeOutput keptStdout).1
    stderr := (decodeOutput keptStderr).1
    retainedBytes := retained
    truncatedBytes := stdout.length + stderr.length - retained
    decodingErrors := (decodeOutput keptStdout).2 || (decodeOutput keptStderr).2 }

/-! ## Events -/

/-- `_Utf8StreamDecoder`, by the bytes that its two decoders hold back. -/
structure Utf8StreamDecoder where
  textDecoder : Bytes := []
  validationDecoder : Bytes := []
  deriving DecidableEq

/-- The decoder after some bytes, the text, and whether there are decoding errors. -/
def Utf8StreamDecoder.decode (data : Bytes) (final : Bool) (decoder : Utf8StreamDecoder) : Utf8StreamDecoder × List Nat × Bool :=
  let text := Utf8.decodeMore .replace decoder.textDecoder data final
  let validated := Utf8.decodeMore .surrogateescape decoder.validationDecoder data final
  ({ textDecoder := text.1, validationDecoder := validated.1 }, text.2, validated.2.any Utf8.isEscape)

/-- The payload of an output event; `data` is what `data_base64` encodes. -/
structure OutputPayload where
  stream : OutputStream
  offset : Nat
  bytes : Nat
  text : List Nat
  data : Bytes
  decodingErrors : Bool
  deriving DecidableEq

/-- An event of the session, as far as it is about output. -/
inductive SessionEvent where
  | output (payload : OutputPayload)
  | outputEventsLimit (limit : Nat)
  | outputTruncated (stream : OutputStream) (droppedBytes totalDroppedBytes : Nat)
  | other
  deriving DecidableEq

/-- The output of a session with its events. `pending` is the event that a reader waits to append; `flushed` says that the reader came
to the end of its stream, `cancelled` that the monitor gave up on it before it was done. `emitted` is every event. -/
structure StreamedOutput where
  output : SessionOutput := {}
  streamOffsets : OutputStream → Nat := fun _ => 0
  decoders : OutputStream → Option Utf8StreamDecoder := fun _ => none
  pending : OutputStream → Option SessionEvent := fun _ => none
  flushed : OutputStream → Bool := fun _ => false
  cancelled : OutputStream → Bool := fun _ => false
  events : RingBuffer SessionEvent := {}
  captured : Option CapturedOutput := none
  emitted : List SessionEvent := []

inductive StreamedInput where
  | chunk (stream : OutputStream) (data : Bytes)
  | append (stream : OutputStream)
  | resume (stream : OutputStream)
  | endOfFile (stream : OutputStream)
  | cancel (stream : OutputStream)
  | emitOther
  | complete
  deriving DecidableEq

/-- A table by streams, changed at one. -/
def setAt {α : Type} (stream : OutputStream) (a : α) (f : OutputStream → α) : OutputStream → α :=
  fun x => if x = stream then a else f x

namespace StreamedOutput

variable (policy : OutputPolicy) (maxRetainedEvents : Nat)

/-- An event is appended: the oldest one is driven out of a full history. -/
def emit (event : SessionEvent) (s : StreamedOutput) : StreamedOutput :=
  { s with events := s.events.push maxRetainedEvents event, emitted := s.emitted ++ [event] }

/-- The event of the emit that a reader came to, from where it is now: the output event that was built for it, the event of the limit,
or the one of a truncation. -/
def awaited (stream : OutputStream) (payload : Option OutputPayload) (dropped : Nat) (output : SessionOutput) : Option SessionEvent :=
  match output.readers stream with
  | .emitting _ true => payload.map .output
  | .emitting _ false => some (.outputEventsLimit policy.maxOutputEvents)
  | .reporting => some (.outputTruncated stream dropped output.truncatedOutputBytes)
  | .reading | .done => none

/-- `append_output`, up to its first await. -/
def appendOutput (stream : OutputStream) (data : Bytes) (s : StreamedOutput) : StreamedOutput :=
  let offset := s.streamOffsets stream
  let (_, kept, dropped) := s.output.retain policy stream data
  let output := s.output.appendOutput policy stream data
  let next := { s with output, streamOffsets := setAt stream (offset + data.length) s.streamOffsets }
  if kept ≠ [] ∧ s.output.outputEventCount < policy.maxOutputEvents then
    -- the decoder reads what the event shows
    let (decoder, text, decodingErrors) := ((s.decoders stream).getD {}).decode kept false
    let payload : OutputPayload :=
      { stream, bytes := kept.length, text, data := kept, decodingErrors
        -- only the last bytes of a chunk that is longer than the cap are shown
        offset := if policy.tail then offset + (data.length - kept.length) else offset }
    { next with
      decoders := setAt stream (some decoder) s.decoders
      pending := setAt stream (awaited policy stream (some payload) dropped output) s.pending }
  else { next with pending := setAt stream (awaited policy stream none dropped output) s.pending }

/-- The reader has the condition: its event is appended. -/
def appendEvent (stream : OutputStream) (s : StreamedOutput) : StreamedOutput :=
  match s.pending stream with
  | some event => { s with pending := setAt stream none s.pending }.emit maxRetainedEvents event
  | none => s

/-- What `emit` returns to. A reader that has flushed its decoder is done. -/
def resume (stream : OutputStream) (s : StreamedOutput) : StreamedOutput :=
  let output := s.output.resume stream
  let s := { s with pending := setAt stream (awaited policy stream none (s.output.readers stream).uncounted output) s.pending }
  if s.flushed stream ∧ output.readers stream = .reading then { s with output := output.setReader stream .done }
  else { s with output }

/-- The reader returns. -/
def endReader (stream : OutputStream) (s : StreamedOutput) : StreamedOutput :=
  { s with output := s.output.setReader stream .done }

/-- `flush_output_decoder`, up to its await, once the transport is at its end. -/
def flushOutputDecoder (stream : OutputStream) (s : StreamedOutput) : StreamedOutput :=
  let s := { s with flushed := setAt stream true s.flushed }
  match s.decoders stream with
  | none => s.endReader stream
  | some decoder =>
    let s := { s with decoders := setAt stream none s.decoders }
    let (_, text, decodingErrors) := decoder.decode [] true
    if text = [] then s.endReader stream
    else if policy.maxOutputEvents ≤ s.output.outputEventCount then
      if s.output.outputEventLimitReported then s.endReader stream
      else
        { s with
          output := { s.output with outputEventLimitReported := true }.setReader stream (.emitting 0 false)
          pending := setAt stream (some (.outputEventsLimit policy.maxOutputEvents)) s.pending }
    else
      { s with
        output := s.output.setReader stream (.emitting 0 true)
        pending := setAt stream
          (some (.output { stream, offset := s.streamOffsets stream, bytes := 0, text, data := [], decodingErrors })) s.pending }

/-- The bytes that a step gives a reader, with their stream: those of a chunk, where its reader is at its transport. -/
def arrivals (s : StreamedOutput) : StreamedInput → List (OutputStream × UInt8)
  | .chunk stream data =>
    if SessionOutput.hasReader policy stream && s.output.readers stream = .reading && !s.flushed stream then
      data.map fun byte => (stream, byte)
    else []
  | _ => []

def step (s : StreamedOutput) : StreamedInput → StreamedOutput
  | .chunk stream data =>
    if SessionOutput.hasReader policy stream && s.output.readers stream = .reading && !s.flushed stream then
      s.appendOutput policy stream data
    else s
  | .append stream => s.appendEvent maxRetainedEvents stream
  | .resume stream => if (s.pending stream).isNone then s.resume policy stream else s
  | .endOfFile stream =>
    if SessionOutput.hasReader policy stream && s.output.readers stream = .reading && !s.flushed stream then
      s.flushOutputDecoder policy stream
    else s
  | .cancel stream =>
    if SessionOutput.hasReader policy stream && s.output.readers stream ≠ .done then
      { s with
        output := s.output.cancel stream
        cancelled := setAt stream true s.cancelled
        pending := setAt stream none s.pending }
    else s
  | .emitOther => s.emit maxRetainedEvents .other
  | .complete =>
    if s.output.drained policy && s.captured.isNone then
      { s with output := s.output.complete, captured := some (captureOutput s.output.stdout s.output.stderr none) }
    else s

end StreamedOutput

end Runtime

end SharkRail
