import Mathlib
import SharkRail.Lib.Effectful
import SharkRail.Lib.Semaphore
import SharkRail.Lib.Utf8
import SharkRail.Service.Http
import SharkRail.Service.Reports

/-!
# The handlers of requests

`do_GET` and `do_POST` of `JobRequestHandler` with all that they call, over any service. A handler serves one request: every response
closes its connection. A write to the connection may fail, and of what the client announced a part may be missing.
-/

namespace SharkRail

namespace Service

open PyStr (ofString)
open PyJson (FloatText)
open Texts (jsonBody)

/-- The exceptions that the handlers tell apart, with their texts: `StoreError` beside three subclasses of it, and `ValueError` with all
of its own. -/
inductive Raised where
  | jobNotFound (message : PyStr)
  | idempotencyConflict (message : PyStr)
  | admissionLimited (message : PyStr)
  | storeError (message : PyStr)
  | osError (message : PyStr)
  | valueError (message : PyStr)
  | typeError (message : PyStr)
  | other (message : PyStr)
  deriving DecidableEq

/-- `isinstance(err, (StoreError, OSError))`. -/
def Raised.unavailable : Raised → Bool
  | .jobNotFound _ | .idempotencyConflict _ | .admissionLimited _ | .storeError _ | .osError _ => true
  | .valueError _ | .typeError _ | .other _ => false

/-- A job as a response reports it: `job.id` and `job.to_dict()`. -/
structure ReportedJob where
  id : PyStr
  toDict : List (PyStr × PyJson)

/-- `health()`, by the entries that the probes look at and the whole of it. -/
structure Health where
  live : Bool
  ready : Bool
  degraded : PyJson
  reason : PyJson
  state : List (PyStr × PyJson)

/-- The calls of a `JobService` that the handlers make. -/
structure JobCalls (σ : Type) where
  submit (tenantId idempotencyKey : String) (payload : List (PyStr × PyJson)) : EStateM Raised σ (ReportedJob × Bool)
  get (jobId tenantId : String) : EStateM Raised σ ReportedJob
  result (jobId tenantId : String) : EStateM Raised σ (List (PyStr × PyJson))
  readOutput (jobId stream tenantId : String) : EStateM Raised σ Bytes
  cancel (jobId tenantId : String) : EStateM Raised σ ReportedJob
  health : EStateM Raised σ Health

/-- What the handlers use of Python's codecs and of `json`: the texts of floats, those of a `UnicodeEncodeError`, a `UnicodeDecodeError` and
a `JSONDecodeError`, and which texts nest too deep. -/
structure Parser where
  float : FloatText
  unencodable : List (PyStr × PyJson) → PyStr := fun _ => []
  undecodable : Bytes → PyStr := fun _ => []
  malformed : PyStr → PyStr := fun _ => []
  tooDeep : PyStr → Bool := fun _ => false

/-- `urlparse(self.path)`: its path, and the first value of `stream` in its query. -/
structure Url where
  path : String
  stream : Option String := none

/-- A request: its URL, `none` where `urlparse` raises, its headers, the bytes that arrive after them, and whether the client ends there. -/
structure HttpRequest where
  url : Option Url
  headers : RequestHeaders := {}
  idempotencyKey : Option String := none
  contentLength : Option String := none
  body : Bytes := []
  ended : Bool := true

/-- A response as it is written. -/
structure HttpResponse where
  status : ℕ
  headers : List (String × PyStr)
  body : Bytes

/-- What a handler does with the slots for submissions. -/
inductive SlotCall where
  | refused
  | acquired
  | released
  deriving DecidableEq

/-- What a handler that is done may have done with them: nothing, or an acquisition that was refused, or one that was given back. -/
def slotUses : List (List SlotCall) := [[], [.refused], [.acquired, .released]]

/-- What a handler of one request works with: the settings of the server, how each write to the connection goes, where a text is the one of
the `OSError` that it raises, whether a slot for a submission is free, and the id of the request. -/
structure Serving (σ : Type) where
  calls : JobCalls σ
  server : ServerSettings
  requestBodyMaxBytes : Int
  volatile : Bool
  parser : Parser
  write : ℕ → Option PyStr
  slotFree : Bool
  requestId : String

/-- A `JobRequestHandler` at work on a request: `_tenant_id`, `_response_started`, the responses that were started and those that were
written whole. -/
structure Exchange (σ : Type) where
  service : σ
  tenantId : Option String := none
  responseStarted : Bool := false
  started : List HttpResponse := []
  complete : List HttpResponse := []
  writes : ℕ := 0
  slotCalls : List SlotCall := []

abbrev Handler (σ : Type) := EStateM Raised (Exchange σ)

/-! ## `int` -/

/-- `str.isspace` of a character of Latin-1. -/
def isBlank (c : Char) : Bool :=
  (9 ≤ c.toNat && c.toNat ≤ 13) || (0x1C ≤ c.toNat && c.toNat ≤ 0x20) || c.toNat = 0x85 || c.toNat = 0xA0

/-- Digits with single underscores between them. -/
def plainDigits : List Char → Option (List Char)
  | [] => none
  | [c] => if c.isDigit then some [c] else none
  | c :: '_' :: rest => if c.isDigit then (plainDigits rest).map (c :: ·) else none
  | c :: d :: rest => if c.isDigit then (plainDigits (d :: rest)).map (c :: ·) else none

/-- `int(text)` of a text without its blanks and its sign: of more than 4300 digits it raises `ValueError` too. -/
def naturalOf (text : List Char) : Option ℕ :=
  (plainDigits text).bind fun digits =>
    if digits.length ≤ 4300 then some (digits.foldl (fun n c => 10 * n + (c.toNat - 48)) 0) else none

/-- `int(text)` of a header, `none` where it raises `ValueError`. -/
def intOf (text : String) : Option Int :=
  match ((text.toList.dropWhile isBlank).reverse.dropWhile isBlank).reverse with
  | '-' :: rest => (naturalOf rest).map fun n => -(n : Int)
  | '+' :: rest => (naturalOf rest).map fun n => (n : Int)
  | rest => (naturalOf rest).map fun n => (n : Int)

namespace Exchange

variable {σ : Type} (serving : Serving σ) (request : HttpRequest)

/-! ## Responses -/

/-- A call of the service. -/
def call {α : Type} (x : EStateM Raised σ α) : Handler σ α := do
  let exchange ← get
  match x exchange.service with
  | .ok a service => do
    modify fun exchange => { exchange with service }
    pure a
  | .error e service => do
    modify fun exchange => { exchange with service }
    throw e

/-- What a part of a handler that changes nothing returns or raises. -/
def raised {α : Type} : Except Raised α → Handler σ α
  | .ok a => pure a
  | .error e => throw e

/-- `self.wfile.write`. -/
def write : Handler σ Unit := do
  let exchange ← get
  modify fun exchange => { exchange with writes := exchange.writes + 1 }
  match serving.write exchange.writes with
  | none => pure ()
  | some message => throw (.osError message)

/-- The response that `_bytes` writes. -/
def response (status : ℕ) (body : Bytes) (contentType : String) (headers : List (String × PyStr)) : HttpResponse where
  status
  headers := [("Content-Type", ofString contentType), ("Content-Length", ofString (toString body.length)),
      ("Connection", ofString "close")] ++
    (if serving.volatile then [("X-SharkRail-Durability", ofString "volatile")] else []) ++
    [("X-Request-ID", ofString serving.requestId)] ++ headers
  body

/-- `_bytes`: the headers are written at once, then the body. -/
def bytes (status : ℕ) (body : Bytes) (contentType : String) (headers : List (String × PyStr)) : Handler σ Unit := do
  modify fun exchange =>
    { exchange with
      responseStarted := true
      started := exchange.started ++ [response serving status body contentType headers] }
  write serving
  write serving
  modify fun exchange => { exchange with complete := exchange.complete ++ [response serving status body contentType headers] }

/-- `_json`. The text is encoded before the response is started. -/
def json (status : ℕ) (value : List (PyStr × PyJson)) (headers : List (String × PyStr)) : Handler σ Unit :=
  match jsonBody serving.parser.float (.obj value) with
  | none => throw (.valueError (serving.parser.unencodable value))
  | some body => bytes serving status body "application/json; charset=utf-8" headers

/-- `{"error": message}`. -/
def errorValue (message : PyStr) : List (PyStr × PyJson) := [(ofString "error", .str message)]

def error (status : ℕ) (message : String) (headers : List (String × PyStr)) : Handler σ Unit :=
  json serving status (errorValue (ofString message)) headers

/-- The value of an internal error: it says nothing of the exception. -/
def internalValue : List (PyStr × PyJson) :=
  errorValue (ofString "internal service error") ++ [(ofString "request_id", .str (ofString serving.requestId))]

/-- `_internal_error`. -/
def internalError (e : Raised) : Handler σ Unit := do
  if (← get).responseStarted then pure ()
  else json serving (if e.unavailable then 503 else 500) (internalValue serving) []

/-! ## Requests -/

/-- One of the three authorizations, with the refusals that it sends. -/
def authorize (authorized : JobRequestHandler → Bool × JobRequestHandler) : Handler σ Bool := do
  let outcome := authorized { tenantId := (← get).tenantId }
  outcome.2.refusals.foldlM (fun _ refusal =>
    error serving refusal.status refusal.error (refusal.headers.map fun header => (header.1, ofString header.2))) ()
  modify fun exchange => { exchange with tenantId := outcome.2.tenantId }
  pure outcome.1

/-- `self._tenant_id`, an `AttributeError` where it was not set. -/
def tenant : Handler σ String := do
  match (← get).tenantId with
  | some tenantId => pure tenantId
  | none => throw (.other (ofString "_tenant_id"))

/-- `[part for part in path.split("/") if part]`. -/
def parts (path : String) : List String := ((path.toList.splitOn '/').filter (· ≠ [])).map String.ofList

/-- `self.rfile.read(length)`: it waits for what is missing until the client ends, or its time is out. -/
def readBody (length : ℕ) : Except Raised Bytes :=
  if length ≤ request.body.length ∨ request.ended = true then pure (request.body.take length)
  else throw (.osError (ofString "timed out"))

/-- `_read_json`. -/
def readJson : Except Raised (List (PyStr × PyJson)) :=
  match request.contentLength with
  | none => throw (.valueError (ofString "Content-Length is required"))
  | some rawLength =>
    match intOf rawLength with
    | none => throw (.valueError (ofString "invalid Content-Length"))
    | some length =>
      if length < 0 ∨ serving.requestBodyMaxBytes < length then
        throw (.valueError (ofString ("request body exceeds " ++ toString serving.requestBodyMaxBytes ++ " bytes")))
      else do
        let data ← readBody request length.toNat
        match (Utf8.decodeStrict data).map fun codes => codes.map CodePoint.ofNat with
        | none => throw (.valueError (serving.parser.undecodable data))
        | some text =>
          if serving.parser.tooDeep text then throw (.other (ofString "maximum recursion depth exceeded"))
          else
            match PyJson.loads serving.parser.float text with
            | none => throw (.valueError (serving.parser.malformed text))
            | some (.obj payload) => pure payload
            | some _ => throw (.typeError (ofString "request body must be a JSON object"))

/-- The routes of a job in `_do_get`, `false` where none is answered. -/
def getJob (url : Url) (jobId tenantId : String) (rest : List String) : Handler σ Bool :=
  match rest with
  | [] => do
    let job ← call (serving.calls.get jobId tenantId)
    json serving 200 job.toDict []
    pure true
  | ["result"] => do
    let result ← call (serving.calls.result jobId tenantId)
    json serving 200 result []
    pure true
  | ["output"] => do
    let data ← call (serving.calls.readOutput jobId (url.stream.getD "stdout") tenantId)
    bytes serving 200 data "application/octet-stream" []
    pure true
  | _ => pure false

/-- The `except` clauses of `_do_get`. -/
def getFailed : Raised → Handler σ Bool
  | .jobNotFound _ => do
    error serving 404 "job not found" []
    pure true
  | .storeError message => do
    internalError serving (.storeError message)
    pure true
  | .idempotencyConflict message => do
    internalError serving (.idempotencyConflict message)
    pure true
  | .admissionLimited message => do
    internalError serving (.admissionLimited message)
    pure true
  | .osError message | .valueError message => do
    json serving 400 (errorValue message) []
    pure true
  | .typeError message => throw (.typeError message)
  | .other message => throw (.other message)

/-- `_do_get`. -/
def doGet (url : Url) : Handler σ Unit := do
  if url.path = "/health/live" then do
    let health ← call serving.calls.health
    json serving (if health.live then 200 else 503) [(ofString "live", .bool health.live)] []
  else if url.path = "/health/ready" then do
    let health ← call serving.calls.health
    json serving (if health.ready then 200 else 503)
      [(ofString "ready", .bool health.ready), (ofString "degraded", health.degraded), (ofString "reason", health.reason)] []
  else if url.path = "/health/state" then do
    let health ← call serving.calls.health
    json serving 200 health.state []
  else
    match parts url.path with
    | "v1" :: "jobs" :: jobId :: rest => do
      let tenantId ← tenant
      if ← tryCatch (getJob serving url jobId tenantId rest) (getFailed serving) then pure ()
      else error serving 404 "not found" []
    | _ => error serving 404 "not found" []

/-- `do_GET`. -/
def doGET : Handler σ Unit :=
  tryCatch
    (match request.url with
      | none => throw (.valueError (ofString "Invalid URL"))
      | some url => do
        if ← authorize serving fun handler => handler.doGet serving.server url.path request.headers then doGet serving url
        else pure ())
    (internalError serving)

/-- `submission_slots.acquire(blocking=False)`. -/
def acquireSlot : Handler σ Bool := do
  modify fun exchange =>
    { exchange with slotCalls := exchange.slotCalls ++ [if serving.slotFree then SlotCall.acquired else SlotCall.refused] }
  pure serving.slotFree

/-- `submission_slots.release()`. -/
def releaseSlot : Handler σ Unit := modify fun exchange => { exchange with slotCalls := exchange.slotCalls ++ [SlotCall.released] }

/-- `try` with `finally: submission_slots.release()`. -/
def withSlot {α : Type} (x : Handler σ α) : Handler σ α := do
  let outcome ← tryCatch (Except.ok <$> x) fun e => pure (Except.error e)
  releaseSlot
  match outcome with
  | .ok a => pure a
  | .error e => throw e

/-- The `except` clauses of a submission; what was answered is over. -/
def submitFailed : Raised → Handler σ (Option (ReportedJob × Bool))
  | .admissionLimited message => do
    json serving 429 (errorValue message) [("Retry-After", ofString "1")]
    pure none
  | .idempotencyConflict message => do
    json serving 409 (errorValue message) []
    pure none
  | .typeError message | .valueError message => do
    json serving 400 (errorValue message) []
    pure none
  | .jobNotFound message => throw (.jobNotFound message)
  | .storeError message => throw (.storeError message)
  | .osError message => throw (.osError message)
  | .other message => throw (.other message)

/-- A submission, its slot held. -/
def submitJob (tenantId key : String) : Handler σ (Option (ReportedJob × Bool)) :=
  tryCatch
    (do
      let payload ← raised (readJson serving request)
      some <$> call (serving.calls.submit tenantId key payload))
    (submitFailed serving)

/-- `_do_post` of `/v1/jobs`. -/
def postJob (tenantId : String) : Handler σ Unit := do
  if ← acquireSlot serving then
    match request.idempotencyKey.filter (· ≠ "") with
    | none => do
      releaseSlot
      error serving 400 "Idempotency-Key header is required" []
    | some key => do
      match ← withSlot (submitJob serving request tenantId key) with
      | none => pure ()
      | some (job, created) =>
        json serving (if created then 202 else 200) job.toDict [("Location", ofString "/v1/jobs/" ++ job.id)]
  else error serving 429 "submission capacity full" [("Retry-After", ofString "1")]

/-- `_do_post` of `/v1/jobs/<job_id>/cancel`. -/
def postCancel (jobId tenantId : String) : Handler σ Unit := do
  let job ← tryCatch (some <$> call (serving.calls.cancel jobId tenantId)) fun e =>
    match e with
    | .jobNotFound _ => do
      error serving 404 "job not found" []
      pure none
    | e => throw e
  match job with
  | none => pure ()
  | some job => json serving 202 job.toDict []

/-- `_do_post`. -/
def doPost (url : Url) : Handler σ Unit := do
  let tenantId ← tenant
  if url.path = "/v1/jobs" then postJob serving request tenantId
  else
    match parts url.path with
    | ["v1", "jobs", jobId, "cancel"] => postCancel serving jobId tenantId
    | _ => error serving 404 "not found" []

/-- `do_POST`. -/
def doPOST : Handler σ Unit :=
  tryCatch
    (do
      if ← authorize serving fun handler => handler.doPost serving.server request.headers then
        match request.url with
        | none => throw (.valueError (ofString "Invalid URL"))
        | some url => doPost serving request url
      else pure ())
    (internalError serving)

/-- A new handler before a service. -/
def start (service : σ) : Exchange σ := { service }

end Exchange

/-! ## The connections of a server -/

/-- A connection that was accepted: its slot for requests, whether its thread was started, the uses of the slots for submissions by its
handler, and the one that it holds. -/
structure JobConnection where
  slot : ℕ
  started : Bool := false
  slotCalls : List SlotCall := []
  submission : Option ℕ := none

/-- `JobHTTPServer`: its semaphores, its connections, and how many it refused. A release that raises `ValueError` would be seen. -/
structure JobHTTPServer where
  requestSlots : BoundedSemaphore
  submissionSlots : BoundedSemaphore
  connections : List JobConnection := []
  refused : ℕ := 0
  overReleased : Bool := false

/-- What happens to a server: a connection is made; the `Thread.start` of one goes well or raises; a handler acquires a slot for a
submission or gives it back; and a thread is done with its request. -/
inductive ServerInput where
  | connect
  | startThread (k : ℕ) (started : Bool)
  | acquireSubmission (k : ℕ)
  | releaseSubmission (k : ℕ)
  | finish (k : ℕ)

namespace JobHTTPServer

/-- `__init__`, of `min(max_concurrent_requests, api_workers)`. -/
def create (requestLimit : ℕ) : JobHTTPServer where
  requestSlots := .new requestLimit
  submissionSlots := .new (max 1 (requestLimit - 1))

/-- `request_slots.release()`, for a connection that is gone. -/
def releaseRequest (s : JobHTTPServer) (k slot : ℕ) : JobHTTPServer :=
  match s.requestSlots.release slot with
  | some requestSlots => { s with requestSlots, connections := s.connections.eraseIdx k }
  | none => { s with connections := s.connections.eraseIdx k, overReleased := true }

/-- One turn of a thread. A handler that is done has given its slot back. -/
def step (s : JobHTTPServer) : ServerInput → JobHTTPServer
  | .connect =>
    match s.requestSlots.acquire with
    | some (slot, requestSlots) => { s with requestSlots, connections := s.connections ++ [{ slot }] }
    | none => { s with refused := s.refused + 1 }
  | .startThread k started =>
    match s.connections[k]? with
    | some connection =>
      if connection.started then s
      else if started then { s with connections := s.connections.set k { connection with started := true } }
      else s.releaseRequest k connection.slot
    | none => s
  | .acquireSubmission k =>
    match s.connections[k]? with
    | some connection =>
      if connection.started ∧ connection.slotCalls = [] then
        match s.submissionSlots.acquire with
        | some (slot, submissionSlots) =>
          { s with
            submissionSlots
            connections := s.connections.set k { connection with slotCalls := [.acquired], submission := some slot } }
        | none => { s with connections := s.connections.set k { connection with slotCalls := [.refused] } }
      else s
    | none => s
  | .releaseSubmission k =>
    match s.connections[k]? with
    | some connection =>
      match connection.submission with
      | some slot =>
        let connections := s.connections.set k
          { connection with slotCalls := connection.slotCalls ++ [.released], submission := none }
        match s.submissionSlots.release slot with
        | some submissionSlots => { s with submissionSlots, connections }
        | none => { s with connections, overReleased := true }
      | none => s
    | none => s
  | .finish k =>
    match s.connections[k]? with
    | some connection =>
      if connection.started ∧ connection.slotCalls ∈ slotUses then s.releaseRequest k connection.slot
      else s
    | none => s

end JobHTTPServer

end Service

end SharkRail
