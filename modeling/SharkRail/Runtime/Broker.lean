import Mathlib
import SharkRail.Lib.AsyncLock
import SharkRail.Lib.Machine

/-!
# Requests to a ConPTY broker

`WindowsPtyBackend._broker_request` and the loop of `_conpty_broker_main` that answers. The requests of one handle share a lock, a pipe to
the broker and a pipe back; neither pipe says which request a message belongs to. The name of a request counts the calls before it, and in
the model a reply carries the name of the request that it answers, which no function of the backend reads.

The event loop runs one task at a time, so a task that left `asyncio.sleep` goes on, primitive by primitive, until it sleeps or ends
(`busy`); the broker is another process and acts in between.
-/

namespace SharkRail

namespace Runtime

/-- An operation of the broker and its arguments. -/
inductive BrokerOperation
  | write (text : List ℕ)
  | sendeof
  | sendintr
  | terminate (force : Bool)
  | setwinsize (rows cols : ℤ)
  | close (force : Bool)
  deriving DecidableEq

/-- `operation in {"sendintr", "terminate", "close"}`. -/
def BrokerOperation.isTermination : BrokerOperation → Bool
  | .sendintr | .terminate _ | .close _ => true
  | .write _ | .sendeof | .setwinsize _ _ => false

/-- What the broker sends for a request: `("ok", result)`, or the envelope of `_send_broker_error`. -/
inductive BrokerMessage (ν : Type)
  | ok (result : ν)
  | error (type text : String) (errno winerror : Option ℤ)
  deriving DecidableEq

/-- What `_raise_broker_error` raises. -/
inductive BrokerError
  | fileNotFound (errno : Option ℤ) (text : String) (winerror : Option ℤ)
  | permission (errno : Option ℤ) (text : String) (winerror : Option ℤ)
  | os (errno : Option ℤ) (text : String) (winerror : Option ℤ)
  | runtime (detail : String)
  deriving DecidableEq

/-- `_broker_error_message` of an error envelope. -/
def brokerErrorMessage (type text : String) : String := s!"ConPTY broker {type}: {text}"

/-- `_raise_broker_error`. -/
def raiseBrokerError (type text : String) (errno winerror : Option ℤ) : BrokerError :=
  if type = "FileNotFoundError" then .fileNotFound errno text winerror
  else if type = "PermissionError" then .permission errno text winerror
  else if type = "OSError" then .os errno text winerror
  else .runtime (brokerErrorMessage type text)

/-- What a request makes of the message it received. -/
def BrokerMessage.result {ν : Type} : BrokerMessage ν → Except BrokerError ν
  | .ok result => .ok result
  | .error type text errno winerror => .error (raiseBrokerError type text errno winerror)

structure BrokerRequest where
  id : ℕ
  operation : BrokerOperation
  deriving DecidableEq

/-- What the request that holds the lock does next; asleep, it waits for the loop. -/
inductive BrokerPhase
  | sending
  | polling
  | checkingExit
  | sleeping
  deriving DecidableEq

structure BrokerHolder where
  request : BrokerRequest
  phase : BrokerPhase := .sending
  cancelled : Bool := false
  deriving DecidableEq

/-- How a call of `_broker_request` ended. `answered` names the request whose answer was received. -/
inductive BrokerOutcome (ν : Type)
  | unavailable
  | requiresDisposal
  | answered (answers : ℕ) (result : Except BrokerError ν)
  | closed
  | channelError
  | exitedBeforeReplying
  | cancelled

/-- A handle with its broker. -/
structure BrokerHandle (ν : Type) where
  brokered : Bool
  controlFailed : Bool := false
  /-- This end of the control pipe was closed by `_dispose_owned_pty`. -/
  controlClosed : Bool := false
  /-- The child of the broker reported its exit. -/
  returned : Bool := false
  treeKilled : Bool := false
  controlLock : AsyncLock BrokerRequest := {}
  holder : Option BrokerHolder := none
  nextId : ℕ := 0
  requests : List BrokerRequest := []
  replies : List (ℕ × BrokerMessage ν) := []
  /-- The broker's end of the control pipe is closed. -/
  brokerClosed : Bool := false
  brokerExited : Bool := false
  /-- Every answer of the broker so far. -/
  answers : List (ℕ × BrokerMessage ν) := []
  outcomes : List (ℕ × BrokerOutcome ν) := []

namespace BrokerHandle

variable {ν : Type}

/-- The loop runs the request that holds the lock. -/
def busy (s : BrokerHandle ν) : Bool := s.holder.any (·.phase ≠ .sleeping)

/-- A call ends. -/
def ends (s : BrokerHandle ν) (request : BrokerRequest) (outcome : BrokerOutcome ν) : BrokerHandle ν :=
  { s with outcomes := s.outcomes ++ [(request.id, outcome)] }

/-- The call that holds the lock ends, and `async with` releases it. -/
def leaves (s : BrokerHandle ν) (request : BrokerRequest) (outcome : BrokerOutcome ν) : BrokerHandle ν :=
  { s.ends request outcome with holder := none, controlLock := s.controlLock.release }

/-- `_control_failed = True`, and the error is raised on. -/
def fails (s : BrokerHandle ν) (request : BrokerRequest) (outcome : BrokerOutcome ν) : BrokerHandle ν :=
  { s.leaves request outcome with controlFailed := true }

/-- `except (BrokenPipeError, EOFError, OSError)`. The return code is also there once the broker exited. -/
def channelError (s : BrokerHandle ν) (request : BrokerRequest) : BrokerHandle ν :=
  if request.operation.isTermination && (s.returned || s.brokerExited || s.treeKilled) then s.leaves request .closed
  else s.fails request .channelError

/-- `_broker_request` up to the lock: it is taken, or waited for. -/
def call (s : BrokerHandle ν) (operation : BrokerOperation) : BrokerHandle ν :=
  let request : BrokerRequest := { id := s.nextId, operation }
  let s := { s with nextId := s.nextId + 1 }
  if !s.brokered then s.ends request .unavailable
  else if s.controlFailed then s.ends request .requiresDisposal
  else
    { s with
      controlLock := s.controlLock.acquire request
      holder := if s.controlLock.enters then some { request } else s.holder }

/-- The loop runs a request that waited for the lock: the flag is not read again. -/
def resumeWaiter (s : BrokerHandle ν) (waiter : LockWaiter BrokerRequest) : BrokerHandle ν :=
  if waiter.cancelled then { s.ends waiter.key .cancelled with controlLock := s.controlLock.resume waiter }
  else { s with controlLock := s.controlLock.resume waiter, holder := some { request := waiter.key } }

/-- The loop runs the request that slept: its cancellation is raised, or it polls again. -/
def resumeHolder (s : BrokerHandle ν) (holder : BrokerHolder) : BrokerHandle ν :=
  if holder.cancelled then s.fails holder.request .cancelled else { s with holder := some { holder with phase := .polling } }

/-- The waiter of this name, if its future is done. -/
def waiter? (s : BrokerHandle ν) (id : ℕ) : Option (LockWaiter BrokerRequest) :=
  s.controlLock.waiters.find? fun waiter => waiter.key.id = id && waiter.done

/-- The loop runs a task. -/
def resume (s : BrokerHandle ν) (id : ℕ) : BrokerHandle ν :=
  match s.waiter? id, s.holder with
  | some waiter, _ => s.resumeWaiter waiter
  | none, some holder => if holder.request.id = id then s.resumeHolder holder else s
  | none, none => s

/-- `task.cancel()`. -/
def cancel (s : BrokerHandle ν) (id : ℕ) : BrokerHandle ν :=
  { s with
    controlLock := s.controlLock.cancel fun request => request.id = id
    holder := s.holder.map fun holder => if holder.request.id = id then { holder with cancelled := true } else holder }

/-- The next primitive of the request that holds the lock: `send`, then `_receive_broker_message`. -/
def proceed (s : BrokerHandle ν) (holder : BrokerHolder) : BrokerHandle ν :=
  match holder.phase with
  | .sending =>
    if s.controlClosed || s.brokerClosed then s.channelError holder.request
    else { s with requests := s.requests ++ [holder.request], holder := some { holder with phase := .polling } }
  | .polling =>
    if s.controlClosed then s.channelError holder.request
    else match s.replies with
      | (answers, message) :: replies => { s with replies }.leaves holder.request (.answered answers message.result)
      | [] =>
        if s.brokerClosed then s.channelError holder.request
        else { s with holder := some { holder with phase := .checkingExit } }
  | .checkingExit =>
    if s.brokerExited then s.fails holder.request .exitedBeforeReplying
    else { s with holder := some { holder with phase := .sleeping } }
  | .sleeping => s

/-- The `finally` of `_conpty_broker_main`: what it did not answer it never will. -/
def brokerCloses (s : BrokerHandle ν) : BrokerHandle ν := { s with brokerClosed := true, requests := [] }

/-- The broker answers the request it received first; `close` is the last one that it answers. -/
def answer (s : BrokerHandle ν) (message : BrokerMessage ν) : BrokerHandle ν :=
  match s.requests with
  | [] => s
  | request :: requests =>
    if s.controlClosed then s.brokerCloses
    else
      let s := { s with
        requests, replies := s.replies ++ [(request.id, message)], answers := s.answers ++ [(request.id, message)] }
      match request.operation, message with
      | .close _, .ok _ => s.brokerCloses
      | _, _ => s

end BrokerHandle

/-- What happens next: a task calls, is cancelled or is run by the loop, the running one makes its next step, the broker acts, or the
session ends around them. -/
inductive BrokerInput (ν : Type)
  | call (operation : BrokerOperation)
  | cancel (id : ℕ)
  | resume (id : ℕ)
  | proceed
  | answer (message : BrokerMessage ν)
  | brokerCloses
  | brokerExits
  | childReturns
  | killTree
  | dispose

namespace BrokerHandle

variable {ν : Type}

def step (s : BrokerHandle ν) : BrokerInput ν → BrokerHandle ν
  | .call operation => if s.busy then s else s.call operation
  | .cancel id => if s.busy then s else s.cancel id
  | .resume id => if s.busy then s else s.resume id
  | .proceed => match s.holder with
    | some holder => s.proceed holder
    | none => s
  | .answer message => s.answer message
  | .brokerCloses => s.brokerCloses
  | .brokerExits => { s.brokerCloses with brokerExited := true }
  | .childReturns => { s with returned := true }
  | .killTree => if s.busy then s else { s with treeKilled := true }
  | .dispose => if s.busy then s else { s with treeKilled := true, controlClosed := true }

end BrokerHandle

end Runtime

end SharkRail
