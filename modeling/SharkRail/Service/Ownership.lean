import SharkRail.Lib.Machine
import SharkRail.Lib.Table

/-!
# Process ownership

The channel on which a Worker registers its process trees with the Master: the client in the Worker, the pipe, and the Master, which
serves the queued messages of the pipe in order and, when the Worker has ended, hands what is still registered to the cleanup of
orphaned processes. On Windows a process tree is owned by its Job, whose handle the Worker sends and the Master duplicates.
-/

namespace SharkRail

namespace Ownership

inductive ProcessTree where
  | unknown
  | processGroup
  | jobObject
  | taskkillFallback
  deriving DecidableEq

/-- What `os.name` is, and on Windows the pid that the Master knows its Worker by and the one that the Worker has. -/
inductive Platform where
  | posix
  | nt (workerPid currentPid : Int)
  deriving DecidableEq

/-- What does not change while the Master serves its Worker. -/
structure Registry where
  maxRecords : Nat
  platform : Platform := .posix

/-- What the client reads and writes of a process handle; `job` is the handle value of the Job that owns its tree. -/
structure ProcessHandle where
  pid : Int
  processTree : ProcessTree
  birthIdentity : Option String
  job : Option Int := none
  ownershipId : Option Nat := none
  deriving DecidableEq

/-- `source_pid` and `source_job_handle` of a registration. -/
structure JobSource where
  pid : Int
  jobHandle : Int
  deriving DecidableEq

/-- What is registered of a process. The last two fields are only written and read on Windows, the last one by the Master. -/
structure OwnershipRecord where
  ownershipId : Nat
  pid : Int
  pgid : Option Int
  processTree : ProcessTree
  birthIdentity : String
  source : Option JobSource := none
  jobHandle : Option Int := none
  deriving DecidableEq

inductive Operation where
  | register (record : OwnershipRecord)
  | unregister (ownershipId : Nat)
  deriving DecidableEq

/-- The record that an operation is about. -/
def Operation.ownershipId : Operation → Nat
  | .register record => record.ownershipId
  | .unregister ownershipId => ownershipId

structure Message where
  requestId : Nat
  operation : Operation
  deriving DecidableEq

structure Ack where
  requestId : Nat
  accepted : Bool
  deriving DecidableEq

/-- What the operating system answers about processes, at one moment; on Windows, also which handle it duplicates from a process and
whether it closes one. -/
structure Host where
  processBirthIdentity : Int → Option String
  getpgid : Int → Option Int
  duplicateJobHandle : Int → Int → Option Int := fun _ _ => none
  closesHandle : Int → Bool := fun _ => true

/-- What the Master meets at one message: the host, and whether the pipe takes the acknowledgement. -/
structure Turn where
  host : Host
  delivered : Bool

/-- A message that the Master served: the host at that moment, how many records it held, and its answer. -/
structure Served where
  message : Message
  host : Host
  held : Nat
  accepted : Bool

/-- A request that waits for its acknowledgement, and the handle it is about. -/
structure Request where
  requestId : Nat
  handle : Nat
  unregisters : Bool
  deriving DecidableEq

/-! ## The Master -/

/-- `_registered_process_is_current`. -/
def registeredProcessIsCurrent (platform : Platform) (host : Host) (process : OwnershipRecord) : Bool :=
  if process.pid ≤ 0 ∨ host.processBirthIdentity process.pid ≠ some process.birthIdentity then false
  else
    match platform with
    | .nt _ _ => true
    | .posix =>
      match process.processTree, process.pgid with
      | .processGroup, some pgid => 0 < pgid ∧ host.getpgid process.pid = some pgid
      | _, _ => false

/-- The record that is kept of a registration: on Windows the one with a handle of the Master for the Job that the Worker owns. -/
def keptRecord (platform : Platform) (host : Host) (payload : OwnershipRecord) : Option OwnershipRecord :=
  match platform with
  | .posix => some payload
  | .nt workerPid _ =>
    match payload.source with
    | none => none
    | some source =>
      if payload.processTree ≠ .jobObject ∨ source.pid ≠ workerPid then none
      else
        match host.duplicateJobHandle source.pid source.jobHandle with
        | none => none
        | some masterHandle => some { payload with jobHandle := some masterHandle }

/-- `_release_master_job` of a record that is not terminated, by whether it returns. -/
def releaseMasterJob (platform : Platform) (host : Host) (process : OwnershipRecord) : Bool :=
  match platform, process.jobHandle with
  | .nt _ _, some rawHandle => host.closesHandle rawHandle
  | _, _ => true

/-- The registry is changed by one message, or refuses it. A record that can not be released is removed all the same. -/
def serveOperation (registry : Registry) (host : Host) (owned : List OwnershipRecord) : Operation → Bool × List OwnershipRecord
  | .register payload =>
    if owned.any (·.ownershipId = payload.ownershipId) then (true, owned)
    else if owned.length ≥ registry.maxRecords then (false, owned)
    else if !registeredProcessIsCurrent registry.platform host payload then (false, owned)
    else
      match keptRecord registry.platform host payload with
      | none => (false, owned)
      | some record => (true, Table.insert owned record)
  | .unregister ownershipId =>
    ((owned.find? (·.ownershipId = ownershipId)).all (releaseMasterJob registry.platform host),
      Table.delete (·.ownershipId = ownershipId) owned)

/-- A Worker and the Master it registers with, from the start of the Worker to the cleanup after its end. `written` are the messages
that were written to the pipe, `served` those that the Master read from it. -/
structure Generation where
  handles : List ProcessHandle := []
  requested : Option Request := none
  closed : Bool := false
  alive : Bool := true
  nextOwnershipId : Nat := 0
  nextRequestId : Nat := 0
  queue : List Message := []
  acks : List Ack := []
  owned : List OwnershipRecord := []
  orphans : Option (List OwnershipRecord) := none
  written : List Message := []
  served : List Served := []

namespace Generation

variable (registry : Registry)

/-- `_service_ownership_messages`: every queued message is served and acknowledged, up to the first acknowledgement that the pipe
does not take. -/
def serviceOwnershipMessages (g : Generation) : List Message → (Nat → Turn) → Generation
  | [], _ => { g with queue := [] }
  | message :: queue, turns =>
    let (accepted, owned) := serveOperation registry (turns 0).host g.owned message.operation
    let served : Served := { message, host := (turns 0).host, held := g.owned.length, accepted }
    let ack : Ack := { requestId := message.requestId, accepted }
    let g := { g with owned, served := g.served ++ [served] }
    if (turns 0).delivered then
      serviceOwnershipMessages { g with acks := g.acks ++ [ack] } queue fun k => turns (k + 1)
    else { g with queue }

/-- `_finish_ownership_generation`: a last time the messages are served, and what is registered is handed to the cleanup. -/
def finishOwnershipGeneration (g : Generation) (turns : Nat → Turn) : Generation :=
  let g := g.serviceOwnershipMessages registry g.queue turns
  { g with orphans := some g.owned, owned := [] }

/-! ## The client -/

def setHandle (g : Generation) (i : Nat) (handle : ProcessHandle) : Generation := { g with handles := g.handles.set i handle }

/-- What a registration says of the Job. -/
def jobSource (platform : Platform) (handle : ProcessHandle) : Option JobSource :=
  match platform with
  | .posix => none
  | .nt _ currentPid => handle.job.map fun jobHandle => { pid := currentPid, jobHandle }

/-- `_request`, up to its wait for the acknowledgement; `sent` says whether the pipe takes the message. -/
def request (g : Generation) (i : Nat) (operation : Operation) (sent : Bool) : Generation :=
  if g.closed ∨ !sent then { g with nextRequestId := g.nextRequestId + 1 }
  else
    let message : Message := { requestId := g.nextRequestId, operation }
    { g with
      nextRequestId := g.nextRequestId + 1
      requested := some { requestId := g.nextRequestId, handle := i, unregisters := operation matches .unregister _ }
      queue := g.queue ++ [message]
      written := g.written ++ [message] }

/-- `ProcessOwnershipClient.register`. A handle that has an identifier is not registered again, and on Windows none without a Job. -/
def register (g : Generation) (i : Nat) (handle : ProcessHandle) (sent : Bool) : Generation :=
  match handle.ownershipId, handle.birthIdentity with
  | none, some birthIdentity =>
    if registry.platform ≠ .posix ∧ handle.job = none then g
    else
      let record : OwnershipRecord :=
        { ownershipId := g.nextOwnershipId
          pid := handle.pid
          pgid := if handle.processTree = .processGroup then some handle.pid else none
          processTree := handle.processTree
          birthIdentity
          source := jobSource registry.platform handle }
      let g := g.setHandle i { handle with ownershipId := some g.nextOwnershipId }
      ({ g with nextOwnershipId := g.nextOwnershipId + 1 } : Generation).request i (.register record) sent
  | _, _ => g

/-- `ProcessOwnershipClient.unregister`. The handle loses its identifier when the Master acknowledges. -/
def unregister (g : Generation) (i : Nat) (handle : ProcessHandle) (sent : Bool) : Generation :=
  match handle.ownershipId with
  | none => g
  | some ownershipId => g.request i (.unregister ownershipId) sent

/-- The request that waits reads an acknowledgement; one of another request is passed over. -/
def receive (g : Generation) : Generation :=
  match g.requested, g.acks with
  | some request, ack :: acks =>
    if ack.requestId ≠ request.requestId then { g with acks }
    else
      let g := { g with acks, requested := none }
      match g.handles[request.handle]? with
      | some handle => if ack.accepted && request.unregisters then g.setHandle request.handle { handle with ownershipId := none } else g
      | none => g
  | _, _ => g

end Generation

/-- What can happen next. The client sends a request when none waits (its lock); a request that waits ends by an acknowledgement or
by its timeout. -/
inductive OwnershipInput where
  | spawn (pid : Int) (processTree : ProcessTree) (birthIdentity : Option String) (job : Option Int)
  | register (i : Nat) (sent : Bool)
  | unregister (i : Nat) (sent : Bool)
  | receive
  | timeout
  | close
  | die
  | service (turns : Nat → Turn)
  | finish (turns : Nat → Turn)

/-- The client only acts while the Worker lives, the Master only up to the cleanup, which follows the Worker's end. -/
def Generation.step (registry : Registry) (g : Generation) : OwnershipInput → Generation
  | .spawn pid processTree birthIdentity job =>
    if g.alive then { g with handles := g.handles ++ [{ pid, processTree, birthIdentity, job }] } else g
  | .register i sent =>
    match g.handles[i]? with
    | some handle => if g.alive ∧ g.requested = none then g.register registry i handle sent else g
    | none => g
  | .unregister i sent =>
    match g.handles[i]? with
    | some handle => if g.alive ∧ g.requested = none then g.unregister i handle sent else g
    | none => g
  | .receive => if g.alive then g.receive else g
  | .timeout => if g.alive then { g with requested := none } else g
  | .close => if g.alive ∧ g.requested = none then { g with closed := true } else g
  | .die => { g with alive := false }
  | .service turns => if g.orphans = none then g.serviceOwnershipMessages registry g.queue turns else g
  | .finish turns => if !g.alive ∧ g.orphans = none then g.finishOwnershipGeneration registry turns else g

end Ownership

end SharkRail
