import SharkRail.Lib.Machine
import SharkRail.Lib.Ring

/-!
# The events of a session

`Session.emit` and `SessionManager.event_page`. A page is built in two parts: the cursor is checked, and a caller that has read
everything may sleep until an event comes; the page is cut from what is retained when it wakes up. `Paging` is a session with one
client, which asks for one page after the other: emits come at any time, also while the client sleeps.
-/

namespace SharkRail

namespace Runtime

/-- The limits of the constructor that events meet, as it checks them; `payloadBytes` is the length of a payload as JSON text. -/
structure EventLimits (α : Type) where
  maxRetainedEvents : Nat
  maxEventPageSize : Nat
  maxEventPageBytes : Int
  payloadBytes : α → Nat
  retained : 0 < maxRetainedEvents
  pageSize : 0 < maxEventPageSize

/-- What `event_page` is called with besides the cursor: `None` is the default of the manager. -/
structure PageRequest where
  waitMs : Int := 0
  limit : Option Int := none
  maxBytes : Option Int := none
  deriving DecidableEq

/-- A page: the events, `next_cursor` and `has_more`. -/
structure Page (α : Type) where
  events : List (Numbered α)
  nextCursor : Nat
  hasMore : Bool
  deriving DecidableEq

inductive PageError where
  | sessionNotFound
  | eventCursorExpired (firstCursor : Nat)
  | invalidRequest
  deriving DecidableEq

variable {α : Type} (limits : EventLimits α)

/-- The events of a page, from those that the cursor has not passed: at least one, as many as the limits allow. -/
def selectEvents (pageLimit byteLimit : Int) : List (Numbered α) → Nat → Int → List (Numbered α)
  | [], _, _ => []
  | event :: events, selected, selectedBytes =>
    let eventBytes : Int := limits.payloadBytes event.value
    if selected ≠ 0 ∧ selectedBytes + eventBytes > byteLimit then []
    else if (selected : Int) + 1 ≥ pageLimit then [event]
    else event :: selectEvents pageLimit byteLimit events (selected + 1) (selectedBytes + eventBytes)

/-- The second part of `event_page`: the page, from what is retained now. -/
def buildPage (events : RingBuffer α) (cursor : Nat) (request : PageRequest) : Except PageError (Page α) :=
  let pageLimit := request.limit.getD limits.maxEventPageSize
  if pageLimit ≤ 0 ∨ pageLimit > limits.maxEventPageSize then throw .invalidRequest
  else
    let byteLimit := request.maxBytes.getD limits.maxEventPageBytes
    let selected := selectEvents limits pageLimit byteLimit (events.items.filter fun e => cursor ≤ e.seq) 0 0
    let nextCursor := (selected.getLast?.map (·.seq + 1)).getD cursor
    pure ⟨selected, nextCursor, nextCursor < events.next⟩

/-- The first part of `event_page`: an error, or whether the call sleeps before it builds the page. -/
def checkCursor (events : RingBuffer α) (present ended : Bool) (cursor : Nat) (request : PageRequest) : Except PageError Bool :=
  if !present then throw .sessionNotFound
  else if cursor < events.first then throw (.eventCursorExpired events.first)
  else if cursor > events.next then throw .invalidRequest
  else pure (cursor = events.next ∧ request.waitMs > 0 ∧ !ended)

/-- A session with a client that reads it from the beginning. `emitted` is what was emitted, `received` the pages so far, one after
the other; `waiting` is the call that sleeps, and `expired` says that the client was told of lost events. -/
structure Paging (α : Type) where
  events : RingBuffer α := {}
  emitted : List α := []
  present : Bool := true
  ended : Bool := false
  cursor : Nat := 0
  received : List (Numbered α) := []
  waiting : Option PageRequest := none
  expired : Bool := false
  deriving DecidableEq

inductive PagingInput (α : Type) where
  | emit (payload : α)
  | request (request : PageRequest)
  | wake
  | finish
  | remove
  deriving DecidableEq

namespace Paging

/-- The client takes what its call returned. -/
def receive (reply : Except PageError (Page α)) (s : Paging α) : Paging α :=
  match reply with
  | .ok page => { s with received := s.received ++ page.events, cursor := page.nextCursor }
  | .error (.eventCursorExpired _) => { s with expired := true }
  | .error _ => s

/-- What the call of a step returns, if one does: a request at once, or a call that wakes up. -/
def reply (s : Paging α) : PagingInput α → Option (Except PageError (Page α))
  | .request request =>
    if s.waiting.isSome || s.expired then none
    else
      match checkCursor s.events s.present s.ended s.cursor request with
      | .error e => some (.error e)
      | .ok true => none
      | .ok false => some (buildPage limits s.events s.cursor request)
  | .wake => s.waiting.map (buildPage limits s.events s.cursor)
  | _ => none

def step (s : Paging α) (input : PagingInput α) : Paging α :=
  match input with
  | .emit payload =>
    { s with events := s.events.push limits.maxRetainedEvents payload, emitted := s.emitted ++ [payload] }
  | .request request =>
    match s.reply limits input with
    | some reply => s.receive reply
    | none =>
      if s.waiting.isSome || s.expired then s else { s with waiting := some request }
  | .wake =>
    match s.reply limits input with
    | some reply => { s with waiting := none }.receive reply
    | none => s
  | .finish => { s with ended := true }
  | .remove => { s with present := false }

end Paging

end Runtime

end SharkRail
