import SharkRail.Runtime.SessionTasks

/-!
# The admission of sessions

`SessionManager.start` on its way from the admission to the session it returns, with the two counters of the manager, for any number of
calls. Each call is cut at its awaits: the start of the backend, the bounded settles after a cancellation, the emits, and the cleanup of
a handle that it gives up. A session that is registered goes on by its own tasks. What a backend, the registration of the process and
the recorder do, when a call is cancelled, and which deadline passes first, is an input.
-/

namespace SharkRail

namespace Runtime

/-- A session that the admission counts: neither completed, nor failed, nor disposed of. -/
def SessionState.counts : SessionState → Bool
  | .completed | .failed | .disposed => false
  | _ => true

/-- The steps of a session that its start takes. -/
def SessionInput.ofStart : SessionInput → Bool
  | .accept | .launch | .degraded | .startEnds _ | .startFails => true
  | _ => false

/-- What `_cleanup_abandoned_start` calls for a handle. -/
inductive HandleCall where
  | killTree
  | dispose
  deriving DecidableEq

/-- Where the task of `_cleanup_abandoned_start` is: created, and before its first step; cancelled there, so that it never runs; in
`kill_tree` and the wait for the exit; past them, with the task of the disposal created; in the disposal of the handle; or at its
end. -/
inductive CleanupPc where
  | scheduled
  | dropped
  | killing
  | leaving
  | disposing
  | ended
  deriving DecidableEq

/-- Where a call of `start` is: at the start of the backend; cancelled there, at the settle of it, or at the settle of the cleanup of its
handle; at an emit of the session it has registered; failed, at the settle of the cleanup; or at its end. -/
inductive AdmissionPc where
  | starting
  | settling
  | releasing
  | emitting
  | cleaning
  | returned
  | raised
  deriving DecidableEq

/-- A call of `start`. `handle` says that the backend returned a handle in time, `cleanupTimedOut` that the settle of the cleanup gave
up on it. -/
structure Start where
  pc : AdmissionPc
  handle : Bool := false
  cleanup : Option CleanupPc := none
  cleanupTimedOut : Bool := false
  calls : List HandleCall := []
  session : Option SessionTasks := none

/-- The calls of `start` so far, with the sessions they registered, and the counters. -/
structure SessionManager where
  starts : List Start := []
  startingSessions : Int := 0
  startedSessions : Int := 0

inductive ManagerInput where
  | start (refused : Bool) (pruned : List Nat)
  | prune (pruned : List Nat)
  | returns (k : Nat) (registers : Bool)
  | raises (k : Nat)
  | cancelled (k : Nat)
  | settleTimesOut (k : Nat)
  | emits (k : Nat) (input : SessionInput)
  | kills (k : Nat)
  | killed (k : Nat)
  | disposes (k : Nat)
  | cleanedUp (k : Nat)
  | settled (k : Nat)
  | session (k : Nat) (input : SessionInput)

namespace Start

/-- The session of the call is in `_sessions`. -/
def registered (start : Start) : Bool := start.session.any fun s => s.registered

/-- The session of the call is in `_sessions`, and the admission counts it. -/
def counts (start : Start) : Bool := start.session.any fun s => s.registered && s.state.counts

/-- The task of the cleanup of the handle is created. -/
def cleanUp (pc : AdmissionPc) (start : Start) : Start := { start with pc, cleanup := some .scheduled }

/-- The settle of the cleanup gives up on it, and cancels its task. The settle reads the clock before it awaits, so the task may not
have taken its first step, and then it takes none. -/
def giveUp (start : Start) : Start :=
  { start with
    cleanup := if start.cleanup = some .scheduled then some .dropped else start.cleanup
    cleanupTimedOut := true }

end Start

namespace SessionManager

/-- `active_count`. -/
def activeCount (m : SessionManager) : Nat := m.starts.countP Start.counts

def set (k : Nat) (start : Start) (m : SessionManager) : SessionManager := { m with starts := m.starts.set k start }

@[simp] theorem set_startingSessions (k : Nat) (start : Start) (m : SessionManager) :
    (m.set k start).startingSessions = m.startingSessions := rfl

@[simp] theorem set_startedSessions (k : Nat) (start : Start) (m : SessionManager) :
    (m.set k start).startedSessions = m.startedSessions := rfl

/-- A step of another task than the start on a session. -/
def stepSession (m : SessionManager) (k : Nat) (input : SessionInput) : SessionManager :=
  match m.starts[k]? with
  | some start => if input.ofStart then m else m.set k { start with session := start.session.map (·.step input) }
  | none => m

/-- `_prune_completed_sessions`. Which of the completed sessions are over their time, or over the number that is retained, is an input. -/
def pruneCompletedSessions (pruned : List Nat) (m : SessionManager) : SessionManager :=
  pruned.foldl (fun m k => m.stepSession k .prune) m

/-- `start`, up to its first await; `refused` says that a check before the admission fails. -/
def start (maxActiveSessions : Nat) (refused : Bool) (pruned : List Nat) (m : SessionManager) : SessionManager :=
  let m := m.pruneCompletedSessions pruned
  if refused ∨ m.activeCount + m.startingSessions ≥ maxActiveSessions then { m with starts := m.starts ++ [{ pc := .raised }] }
  else { m with starts := m.starts ++ [{ pc := .starting }], startingSessions := m.startingSessions + 1 }

/-- The backend returned a handle: the session is registered and accepted, up to the emit of the acceptance. `registers` says that the
ownership of the process could be registered. -/
def handleReturned (k : Nat) (registers : Bool) (start : Start) (m : SessionManager) : SessionManager :=
  let start := { start with handle := true }
  if registers then
    { m.set k { start with pc := .emitting, session := some (SessionTasks.step {} .accept) } with
      startingSessions := m.startingSessions - 1
      startedSessions := m.startedSessions + 1 }
  else { m.set k (start.cleanUp .cleaning) with startingSessions := m.startingSessions - 1 }

/-- The next emit of a start, or its end. Where the session is taken back the start has failed. -/
def emits (k : Nat) (input : SessionInput) (start : Start) (m : SessionManager) : SessionManager :=
  match start.session with
  | none => m
  | some s =>
    let s := s.step input
    let start := { start with session := some s }
    match s.start with
    | .failed => { m.set k (start.cleanUp .cleaning) with startedSessions := m.startedSessions - 1 }
    | .done => m.set k { start with pc := .returned }
    | _ => m.set k start

/-- The call raises, and gives its place back. -/
def raised (k : Nat) (start : Start) (m : SessionManager) : SessionManager :=
  { m.set k { start with pc := .raised } with startingSessions := m.startingSessions - 1 }

/-- A step of a call of `start`. -/
def stepCall (k : Nat) (start : Start) (m : SessionManager) : ManagerInput → SessionManager
  | .returns _ registers =>
    match start.pc with
    | .starting => m.handleReturned k registers start
    | .settling => m.set k ({ start with handle := true }.cleanUp .releasing)
    | _ => m
  | .raises _ =>
    match start.pc with
    | .starting | .settling => m.raised k start
    | _ => m
  | .cancelled _ =>
    match start.pc with
    | .starting => m.set k { start with pc := .settling }
    | .emitting => m.emits k .startFails start
    -- The settles go on despite a cancellation.
    | _ => m
  | .settleTimesOut _ =>
    match start.pc with
    | .settling => m.raised k start
    | .releasing => m.raised k start.giveUp
    | .cleaning => m.set k { start.giveUp with pc := .raised }
    | _ => m
  | .emits _ input =>
    match start.pc with
    | .emitting => if input.ofStart then m.emits k input start else m
    | _ => m
  | .kills _ =>
    match start.cleanup with
    | some .scheduled => m.set k { start with cleanup := some .killing, calls := start.calls ++ [.killTree] }
    | _ => m
  | .killed _ =>
    match start.cleanup with
    | some .killing => m.set k { start with cleanup := some .leaving }
    | _ => m
  | .disposes _ =>
    -- The disposal is shielded, and goes on when the cleanup is cancelled.
    match start.cleanup with
    | some .leaving => m.set k { start with cleanup := some .disposing, calls := start.calls ++ [.dispose] }
    | _ => m
  | .cleanedUp _ =>
    match start.cleanup with
    | some .disposing => m.set k { start with cleanup := some .ended }
    | _ => m
  | .settled _ =>
    match start.pc with
    | .releasing => if start.cleanup = some .ended then m.raised k start else m
    | .cleaning => if start.cleanup = some .ended then m.set k { start with pc := .raised } else m
    | _ => m
  | _ => m

/-- One step of one task. -/
def step (maxActiveSessions : Nat) (m : SessionManager) (input : ManagerInput) : SessionManager :=
  match input with
  | .start refused pruned => m.start maxActiveSessions refused pruned
  | .prune pruned => m.pruneCompletedSessions pruned
  | .session k input => m.stepSession k input
  | .returns k _ | .raises k | .cancelled k | .settleTimesOut k | .emits k _ | .kills k | .killed k | .disposes k
  | .cleanedUp k | .settled k =>
    match m.starts[k]? with
    | some start => m.stepCall k start input
    | none => m

end SessionManager

end Runtime

end SharkRail
