import SharkRail.Lib.JsonText
import SharkRail.Lib.Machine
import SharkRail.Runtime.Lifecycle

/-!
# The event recorder

`EventRecorder.record`, and the emits that call it. `Session.emit` numbers its event under the condition of the session and then hands the
record to a worker thread, where it waits for the lock of the recorder; the emit returns when the thread is done. An emit whose task is
cancelled takes back a record that no thread has begun; one that a thread has begun goes on without it. The file is shared with other
sessions, and with other processes.
-/

namespace SharkRail

namespace Runtime

/-- A record, as it is written on one line. -/
structure AuditRecord where
  sessionId : String
  traceId : String
  seq : Nat
  kind : LifecycleEventType
  timestamp : String
  payload : List (PyStr × PyJson)
  deriving DecidableEq

/-- What the system does with a record: it may refuse to tell the size of the file, or to write all of it. -/
inductive RecordOutcome where
  | written
  | statFails
  | writeFails (torn : Nat)
  deriving DecidableEq

/-- An `EventRecorder` with its file: the whole records in it, and its size. `encodedBytes` is the length of a record as a line of JSON. -/
structure EventRecorder where
  maxBytes : Nat
  includeOutput : Bool := false
  encodedBytes : AuditRecord → Nat
  lines : List AuditRecord := []
  size : Nat := 0
  truncated : Bool := false
  failed : Bool := false

namespace EventRecorder

/-- The payload as it is recorded: the output itself is left out unless it is asked for. -/
def safePayload (recorder : EventRecorder) (kind : LifecycleEventType) (payload : List (PyStr × PyJson)) : List (PyStr × PyJson) :=
  if !recorder.includeOutput ∧ kind ∈ [.stdout, .stderr, .ptyOutput] then
    payload.filter (fun member => member.1 ≠ ("text" : PyStr) ∧ member.1 ≠ ("data_base64" : PyStr) ∧
      member.1 ≠ ("output_redacted" : PyStr)) ++ [(("output_redacted" : PyStr), PyJson.bool true)]
  else payload

/-- `record`, in the thread that has the lock. -/
def record (event : AuditRecord) (outcome : RecordOutcome) (recorder : EventRecorder) : EventRecorder :=
  let line := { event with payload := recorder.safePayload event.kind event.payload }
  match outcome with
  | .statFails => { recorder with failed := true }
  | .writeFails torn =>
    if recorder.maxBytes < recorder.size + recorder.encodedBytes line then { recorder with truncated := true }
    else { recorder with failed := true, size := recorder.size + torn }
  | .written =>
    if recorder.maxBytes < recorder.size + recorder.encodedBytes line then { recorder with truncated := true }
    else { recorder with lines := recorder.lines ++ [line], size := recorder.size + recorder.encodedBytes line }

end EventRecorder

/-- Where a call of `record` is: it waits for a thread, a thread has begun it, it has returned, or it was taken back before it began. -/
inductive RecordStage where
  | queued
  | running
  | recorded
  | dropped
  deriving DecidableEq

/-- A call of `record` that an emit has made. `returned` says that the emit has returned, `cancelled` that its task was cancelled in it. -/
structure RecordCall where
  event : AuditRecord
  stage : RecordStage := .queued
  returned : Bool := false
  cancelled : Bool := false
  deriving DecidableEq

/-- The call may still write. -/
def RecordCall.outstanding (call : RecordCall) : Bool := call.stage = .queued || call.stage = .running

/-- The sessions of a manager with its recorder: the next number of each, and the calls of `record`, in the order of their emits. -/
structure AuditedSessions where
  recorder : EventRecorder
  nextEventSeq : String → Nat := fun _ => 0
  calls : List RecordCall := []

inductive AuditInput where
  | emit (sessionId traceId : String) (kind : LifecycleEventType) (timestamp : String) (payload : List (PyStr × PyJson))
  | begins (i : Nat)
  | records (i : Nat) (outcome : RecordOutcome)
  | returns (i : Nat)
  | cancel (i : Nat)
  | grows (bytes : Nat)
  deriving DecidableEq

namespace AuditedSessions

/-- `Session.emit`, up to its await. -/
def emit (sessionId traceId : String) (kind : LifecycleEventType) (timestamp : String) (payload : List (PyStr × PyJson))
    (s : AuditedSessions) : AuditedSessions :=
  let seq := s.nextEventSeq sessionId
  { s with
    nextEventSeq := fun x => if x = sessionId then seq + 1 else s.nextEventSeq x
    calls := s.calls ++ [{ event := { sessionId, traceId, seq, kind, timestamp, payload } }] }

def setCall (i : Nat) (call : RecordCall) (s : AuditedSessions) : AuditedSessions := { s with calls := s.calls.set i call }

def step (s : AuditedSessions) : AuditInput → AuditedSessions
  | .emit sessionId traceId kind timestamp payload => s.emit sessionId traceId kind timestamp payload
  | .begins i =>
    match s.calls[i]? with
    | some call => if call.stage = .queued then s.setCall i { call with stage := .running } else s
    | none => s
  | .records i outcome =>
    match s.calls[i]? with
    | some call =>
      if call.stage = .running then
        { s with recorder := s.recorder.record call.event outcome }.setCall i { call with stage := .recorded }
      else s
    | none => s
  | .returns i =>
    match s.calls[i]? with
    | some call => if call.stage = .recorded ∧ !call.cancelled then s.setCall i { call with returned := true } else s
    | none => s
  | .cancel i =>
    match s.calls[i]? with
    | some call => s.setCall i { call with stage := if call.stage = .queued then .dropped else call.stage, cancelled := true }
    | none => s
  | .grows bytes => { s with recorder := { s.recorder with size := s.recorder.size + bytes } }

/-- The numbers of the records of a session, in the order of the file. -/
def recordedSeqs (sessionId : String) (s : AuditedSessions) : List Nat :=
  (s.recorder.lines.filter fun line => line.sessionId = sessionId).map (·.seq)

end AuditedSessions

end Runtime

end SharkRail
