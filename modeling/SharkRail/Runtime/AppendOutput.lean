import SharkRail.Lib.Machine
import SharkRail.Service.Output

/-!
# Output of a session

`Session.append_output` and the readers that call it, cut at its awaits: what it does up to the emit of the output, which may suspend,
and what it does after it. A reader that the monitor cancels at that emit never comes to the second part.
-/

namespace SharkRail

namespace Runtime

/-- The readers of a session, and the streams they append to. -/
inductive OutputStream where
  | stdout
  | stderr
  | pty
  deriving DecidableEq

/-- Where a reader is: at its transport, inside `append_output` at the emit of an output event or of the event limit (with the bytes
it has still to count as dropped, and whether an output event is to be counted), at the emit of the truncation, or at its end. -/
inductive Reader where
  | reading
  | emitting (dropped : Nat) (outputEvent : Bool)
  | reporting
  | done
  deriving DecidableEq

/-- The dropped bytes that a reader has still to count. -/
def Reader.uncounted : Reader → Nat
  | .emitting dropped _ => dropped
  | _ => 0

namespace Reader

@[simp] theorem uncounted_reading : uncounted .reading = 0 := rfl

@[simp] theorem uncounted_emitting (dropped : Nat) (outputEvent : Bool) :
    uncounted (.emitting dropped outputEvent) = dropped := rfl

@[simp] theorem uncounted_reporting : uncounted .reporting = 0 := rfl

@[simp] theorem uncounted_done : uncounted .done = 0 := rfl

end Reader

/-- How a session keeps output. Retention of the tail is refused unless the session has a PTY. -/
structure OutputPolicy where
  maxOutputBytes : Option Nat
  maxOutputEvents : Nat
  pty : Bool
  tail : Bool
  tailRequiresPty : tail = true → pty = true

/-- A session that keeps the head of its output may have a PTY or not. -/
theorem OutputPolicy.of_head {pty : Bool} (htail : false = true) : pty = true := absurd htail Bool.false_ne_true

/-- The parts of the result that are about output. -/
structure OutputResult where
  stdoutBytes : Bytes
  stderrBytes : Bytes
  totalOutputBytes : Nat
  truncatedOutputBytes : Nat
  outputTruncated : Bool
  deriving DecidableEq

/-- The output of a session. `received` is what the readers were given, for standard output (or the PTY) and for standard error;
`lost` the dropped bytes that cancelled readers did not come to count. -/
structure SessionOutput where
  stdout : Bytes := []
  stderr : Bytes := []
  totalOutputBytes : Nat := 0
  truncatedOutputBytes : Nat := 0
  outputEventCount : Nat := 0
  outputEventLimitReported : Bool := false
  truncationReportedStreams : List OutputStream := []
  readers : OutputStream → Reader := fun _ => .reading
  received : Bytes × Bytes := ([], [])
  lost : Nat := 0
  result : Option OutputResult := none

inductive OutputInput where
  | chunk (stream : OutputStream) (data : Bytes)
  | resume (stream : OutputStream)
  | endOfFile (stream : OutputStream)
  | cancel (stream : OutputStream)
  | complete
  deriving DecidableEq

namespace SessionOutput

variable (policy : OutputPolicy)

/-- The session has a reader for the stream. -/
def hasReader (stream : OutputStream) : Bool := policy.pty == (stream = .pty)

def setReader (stream : OutputStream) (reader : Reader) (s : SessionOutput) : SessionOutput :=
  { s with readers := fun x => if x = stream then reader else s.readers x }

/-- What the cap leaves for a chunk: all of it without a cap. -/
def remaining (data : Bytes) (s : SessionOutput) : Nat :=
  match policy.maxOutputBytes with
  | none => data.length
  | some cap => cap - (s.stdout.length + s.stderr.length)

/-- The bytes of a chunk go into the buffer of its stream: the session after it, what an output event shows of the chunk, and how
many bytes were dropped. -/
def retain (stream : OutputStream) (data : Bytes) (s : SessionOutput) : SessionOutput × Bytes × Nat :=
  let kept := if policy.tail then data else data.take (s.remaining policy data)
  let dropped := data.length - kept.length
  let s :=
    match stream with
    | .stderr => { s with stderr := s.stderr ++ kept }
    | .stdout | .pty => { s with stdout := s.stdout ++ kept }
  match policy.maxOutputBytes with
  | some cap =>
    if policy.tail then
      let overflow := s.stdout.length + s.stderr.length - cap
      ({ s with stdout := s.stdout.drop overflow }, kept.drop (kept.length - cap),
        if overflow ≠ 0 then overflow else dropped)
    else (s, kept, dropped)
  | none => (s, kept, dropped)

/-- What a reader was given, with a chunk more. -/
def receive (stream : OutputStream) (data : Bytes) (s : SessionOutput) : SessionOutput :=
  match stream with
  | .stderr => { s with received := (s.received.1, s.received.2 ++ data) }
  | .stdout | .pty => { s with received := (s.received.1 ++ data, s.received.2) }

/-- The end of `append_output`: the dropped bytes are counted, and the first truncation of a stream is reported. -/
def countDropped (stream : OutputStream) (dropped : Nat) (s : SessionOutput) : SessionOutput :=
  if dropped = 0 then s.setReader stream .reading
  else
    let s := { s with truncatedOutputBytes := s.truncatedOutputBytes + dropped }
    if stream ∈ s.truncationReportedStreams then s.setReader stream .reading
    else { s with truncationReportedStreams := stream :: s.truncationReportedStreams }.setReader stream .reporting

/-- `append_output`, up to its first await. -/
def appendOutput (stream : OutputStream) (data : Bytes) (s : SessionOutput) : SessionOutput :=
  let (s, shown, dropped) := { s with totalOutputBytes := s.totalOutputBytes + data.length }.retain policy stream data
  if shown ≠ [] ∧ s.outputEventCount < policy.maxOutputEvents then s.setReader stream (.emitting dropped true)
  else if shown ≠ [] ∧ !s.outputEventLimitReported then
    { s with outputEventLimitReported := true }.setReader stream (.emitting dropped false)
  else s.countDropped stream dropped

/-- `append_output`, after an await. -/
def resume (stream : OutputStream) (s : SessionOutput) : SessionOutput :=
  match s.readers stream with
  | .emitting dropped outputEvent =>
    { s with outputEventCount := s.outputEventCount + if outputEvent then 1 else 0 }.countDropped stream dropped
  | .reporting => s.setReader stream .reading
  | .reading | .done => s

/-- The monitor cancels a reader. -/
def cancel (stream : OutputStream) (s : SessionOutput) : SessionOutput :=
  { s with lost := s.lost + (s.readers stream).uncounted }.setReader stream .done

/-- The readers are gathered. -/
def drained (s : SessionOutput) : Bool :=
  [OutputStream.stdout, .stderr, .pty].all fun stream => !hasReader policy stream || s.readers stream = .done

/-- The monitor builds the result, once every reader is done. -/
def complete (s : SessionOutput) : SessionOutput :=
  { s with
    result := some
      { stdoutBytes := s.stdout
        stderrBytes := s.stderr
        totalOutputBytes := s.totalOutputBytes
        truncatedOutputBytes := s.truncatedOutputBytes
        outputTruncated := s.truncatedOutputBytes > 0 } }

def step (s : SessionOutput) : OutputInput → SessionOutput
  | .chunk stream data =>
    if hasReader policy stream && s.readers stream = .reading then (s.receive stream data).appendOutput policy stream data else s
  | .resume stream => s.resume stream
  | .endOfFile stream => if s.readers stream = .reading then s.setReader stream .done else s
  | .cancel stream => if hasReader policy stream then s.cancel stream else s
  | .complete => if s.drained policy && s.result.isNone then s.complete else s

end SessionOutput

end Runtime

end SharkRail
