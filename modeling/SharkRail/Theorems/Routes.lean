import Mathlib
import SharkRail.Service.JobCalls
import SharkRail.Theorems.Handlers
import SharkRail.Theorems.Tenants

/-!
# What each route comes to

A request on a connection that takes what is written asks the service one thing and is answered with one response. `Route.ask` is what it
asks, and `Route.answer` the response to what the service returns or raises: the table of the statuses. Over a `JobService` the table shows
that a job of another tenant is answered as one that does not exist.
-/

namespace SharkRail

namespace Service

open Effectful
open PyStr (ofString)

/-- What a request for a job asks for. -/
inductive Route where
  | job (jobId : String)
  | result (jobId : String)
  | output (jobId stream : String)
  | submit (idempotencyKey : String)
  | cancel (jobId : String)
  deriving DecidableEq

/-- What is answered: the status, a value or data, and headers. -/
structure Reply where
  status : ℕ
  content : List (PyStr × PyJson) ⊕ Bytes
  headers : List (String × PyStr) := []

namespace Route

variable {σ : Type} (serving : Serving σ) (request : HttpRequest) (tenantId : String)

/-- The call of a route, with the answer to what it returns. -/
def ask : Route → EStateM Raised σ Reply
  | .job jobId => (fun job => { status := 200, content := .inl job.toDict }) <$> serving.calls.get jobId tenantId
  | .result jobId => (fun value => { status := 200, content := .inl value }) <$> serving.calls.result jobId tenantId
  | .output jobId stream => (fun data => { status := 200, content := .inr data }) <$> serving.calls.readOutput jobId stream tenantId
  | .submit key =>
    match Exchange.readJson serving request with
    | .error e => throw e
    | .ok payload =>
      (fun submitted =>
        { status := if submitted.2 then 202 else 200
          content := .inl submitted.1.toDict
          headers := [("Location", ofString "/v1/jobs/" ++ submitted.1.id)] }) <$>
        serving.calls.submit tenantId key payload
  | .cancel jobId => (fun job => { status := 202, content := .inl job.toDict }) <$> serving.calls.cancel jobId tenantId

/-- What the call of a route returns or raises, and the service after it. -/
def run (route : Route) (service : σ) : Except Raised Reply × σ :=
  match route.ask serving request tenantId service with
  | .ok reply service => (.ok reply, service)
  | .error e service => (.error e, service)

/-- An error with its text. -/
def failure (status : ℕ) (message : PyStr) : Reply := { status, content := .inl (Exchange.errorValue message) }

/-- An internal error, which says nothing of the exception. -/
def internal (e : Raised) : Reply :=
  { status := if e.unavailable then 503 else 500, content := .inl (Exchange.internalValue serving) }

/-- The answer to an exception. -/
def refused : Route → Raised → Reply
  | .job _, e | .result _, e | .output _ _, e =>
    match e with
    | .jobNotFound _ => failure 404 (ofString "job not found")
    | .osError message | .valueError message => failure 400 message
    | e => internal serving e
  | .submit _, e =>
    match e with
    | .admissionLimited message => { failure 429 message with headers := [("Retry-After", ofString "1")] }
    | .idempotencyConflict message => failure 409 message
    | .typeError message | .valueError message => failure 400 message
    | e => internal serving e
  | .cancel _, e =>
    match e with
    | .jobNotFound _ => failure 404 (ofString "job not found")
    | e => internal serving e

/-- The response of an answer, `none` where it does not encode. -/
def respond (reply : Reply) : Option HttpResponse :=
  match reply.content with
  | .inl value => Exchange.jsonResponse serving reply.status value reply.headers
  | .inr data => some (Exchange.response serving reply.status data "application/octet-stream" reply.headers)

/-- The routes of `GET` answer in their `try`, where a value that does not encode is a `ValueError` as any other. -/
def retried : Route → Reply → Option Reply
  | .job _, reply | .result _, reply | .output _ _, reply =>
    match reply.content with
    | .inl value => some (failure 400 (serving.parser.unencodable value))
    | .inr _ => none
  | .submit _, _ | .cancel _, _ => none

/-- The response to what the call of a route returned or raised: what can not be sent is an internal error in the end. -/
def answer (route : Route) (outcome : Except Raised Reply) : Option HttpResponse :=
  match outcome with
  | .ok reply =>
    respond serving reply <|> (route.retried serving reply).bind (respond serving) <|> respond serving (internal serving (.valueError []))
  | .error e => respond serving (route.refused serving e) <|> respond serving (internal serving (.valueError []))

variable {serving request tenantId}

/-- A route whose call returns replies with what it returned. -/
theorem run_ok {α : Type} {route : Route} {x : EStateM Raised σ α} {reply : α → Reply} {service service' : σ} {a : α}
    (hask : route.ask serving request tenantId = reply <$> x) (hx : x service = .ok a service') :
    route.run serving request tenantId service = (.ok (reply a), service') := by
  have hmap : (reply <$> x) service = .ok (reply a) service' := by
    change EStateM.map reply x service = _
    rw [EStateM.map, hx]
  rw [run, hask, hmap]

/-- A route whose call raises raises the same. -/
theorem run_error {α : Type} {route : Route} {x : EStateM Raised σ α} {reply : α → Reply} {service service' : σ} {e : Raised}
    (hask : route.ask serving request tenantId = reply <$> x) (hx : x service = .error e service') :
    route.run serving request tenantId service = (.error e, service') := by
  have hmap : (reply <$> x) service = .error e service' := by
    change EStateM.map reply x service = _
    rw [EStateM.map, hx]
  rw [run, hask, hmap]

/-- A reply is the response where it encodes, then the one of a second try, and the internal error where neither does. -/
theorem answer_ok (route : Route) (reply : Reply) : route.answer serving (.ok reply) =
    (respond serving reply <|> (route.retried serving reply).bind (respond serving) <|> respond serving
      (internal serving (.valueError []))) :=
  rfl

/-- An exception is answered as the route refuses it, and as an internal error where that does not encode. -/
theorem answer_error (route : Route) (e : Raised) : route.answer serving (.error e) =
    (respond serving (route.refused serving e) <|> respond serving (internal serving (.valueError []))) :=
  rfl

/-- The route of a `GET`, where it is one of a job. -/
def ofGet (url : Url) : Option Route :=
  match Exchange.parts url.path with
  | ["v1", "jobs", jobId] => some (.job jobId)
  | ["v1", "jobs", jobId, "result"] => some (.result jobId)
  | ["v1", "jobs", jobId, "output"] => some (.output jobId (url.stream.getD "stdout"))
  | _ => none

variable (serving request) in
/-- The route of a `POST`: a submission that has a key and a slot, or a cancellation. -/
def ofPost (url : Url) : Option Route :=
  if url.path = "/v1/jobs" then
    if serving.slotFree then (request.idempotencyKey.filter (· ≠ "")).map .submit else none
  else
    match Exchange.parts url.path with
    | ["v1", "jobs", jobId, "cancel"] => some (.cancel jobId)
    | _ => none

variable (serving request tenantId) in
/-- The request was answered: the response is the one of its route, and the service is as its call left it. -/
def Answered (route : Route) (service : σ) (exchange : Exchange σ) : Prop :=
  ∃ response, route.answer serving (route.run serving request tenantId service).1 = some response ∧
    exchange.service = (route.run serving request tenantId service).2 ∧ exchange.started = [response] ∧ exchange.complete = [response]

end Route

namespace Exchange

variable {σ : Type} {serving : Serving σ} {request : HttpRequest} {exchange : Exchange σ} {tenantId : String} {route : Route} {service : σ}
  {e e' : Raised}

/-- Nothing was started, and this is the service. -/
structure Waits (service : σ) (exchange : Exchange σ) : Prop extends Idle exchange where
  service_eq : exchange.service = service

/-- One response was sent, whole. -/
structure Sent (service : σ) (response : HttpResponse) (exchange : Exchange σ) : Prop where
  service_eq : exchange.service = service
  started : exchange.started = [response]
  complete : exchange.complete = [response]

/-- `_json` or `_bytes` of an answer. -/
def send (serving : Serving σ) (reply : Reply) : Handler σ Unit :=
  match reply.content with
  | .inl value => json serving reply.status value reply.headers
  | .inr data => bytes serving reply.status data "application/octet-stream" reply.headers

/-- What can not be sent raises the `ValueError` of its value. -/
def Unsent (serving : Serving σ) (reply : Reply) (e : Raised) : Prop :=
  Route.respond serving reply = none ∧ ∃ value, reply.content = .inl value ∧ e = .valueError (serving.parser.unencodable value)

/-- A reply is sent where it encodes, and nothing is where it does not. -/
theorem Waits.send (hquiet : ∀ n, serving.write n = none) (h : Waits service exchange) (reply : Reply) :
    Post (Exchange.send serving reply) exchange
      (fun _ x => ∃ response, Route.respond serving reply = some response ∧ Sent service response x)
      fun e x => Waits service x ∧ Unsent serving reply e := by
  unfold Exchange.send Unsent Route.respond
  split
  · rename_i value hvalue
    refine post_json (fun response writes hresponse => ⟨response, hresponse, h.service_eq, ?_, ?_⟩)
      (fun _ _ _ _ hwrite => ?_) fun hnone => ⟨h, hnone, value, hvalue, rfl⟩
    · simp [h.started]
    · simp [h.complete]
    · obtain ⟨n, hn⟩ := hwrite
      rw [hquiet] at hn
      cases hn
  · refine post_bytes rfl (fun writes => ⟨_, rfl, h.service_eq, ?_, ?_⟩) fun _ _ hwrite => ?_
    · simp [h.started]
    · simp [h.complete]
    · obtain ⟨n, hn⟩ := hwrite
      rw [hquiet] at hn
      cases hn

/-- The internal error is sent. -/
theorem Waits.internalError (hquiet : ∀ n, serving.write n = none) (h : Waits service exchange) (e : Raised) :
    Post (Exchange.internalError serving e) exchange
      (fun _ x => ∃ response, Route.respond serving (Route.internal serving e) = some response ∧ Sent service response x)
      fun _ _ => False := by
  rw [Exchange.internalError, post_bind, post_get, h.responseStarted, if_neg Bool.false_ne_true]
  refine (h.send hquiet (Route.internal serving e)).mono (fun _ _ hx => hx) fun e' x he => ?_
  have hsome := isSome_internalResponse serving (if e.unavailable then 503 else 500) []
  have hnone : jsonResponse serving (if e.unavailable then 503 else 500) (internalValue serving) [] = none := he.2.1
  rw [hnone] at hsome
  cases hsome

/-- What an exception of a route comes to that its clauses do not answer. -/
def Falls (serving : Serving σ) (route : Route) (e e' : Raised) : Prop :=
  Route.respond serving (route.refused serving e) = none ∧ e'.unavailable = false ∨ route.refused serving e = Route.internal serving e'

/-- The internal error shows of an exception only whether the service is unavailable. -/
theorem internal_of_not_unavailable (h : e.unavailable = false) : Route.internal serving e = Route.internal serving (.valueError []) := by
  unfold Route.internal
  rw [h]
  rfl

/-- What falls to the internal error is answered with it. -/
theorem Falls.answer (h : Falls serving route e e') {response : HttpResponse}
    (hresponse : Route.respond serving (Route.internal serving e') = some response) : route.answer serving (.error e) = some response := by
  rw [Route.answer_error]
  rcases h with ⟨hnone, hother⟩ | heq
  · rw [internal_of_not_unavailable hother] at hresponse
    rw [hnone, hresponse]
    rfl
  · rw [heq, hresponse]
    rfl

/-- A clause that answers an exception with an error of its own. -/
theorem Waits.refuse (hquiet : ∀ n, serving.write n = none) (h : Waits service exchange) (reply : Reply)
    (hreply : route.refused serving e = reply) :
    Post (Exchange.send serving reply) exchange
      (fun _ x => ∃ response, route.answer serving (.error e) = some response ∧ Sent service response x)
      fun e' x => Waits service x ∧ Falls serving route e e' := by
  refine (h.send hquiet reply).mono (fun _ x hx => ?_) fun e' x he => ⟨he.1, .inl ⟨?_, ?_⟩⟩
  · obtain ⟨response, hresponse, hsent⟩ := hx
    refine ⟨response, ?_, hsent⟩
    rw [Route.answer_error, hreply, hresponse]
    rfl
  · rw [hreply]
    exact he.2.1
  · obtain ⟨-, -, value, -, rfl⟩ := he
    rfl

/-! ## The routes of `GET` -/

/-- The routes that `_do_get` answers in its `try`. -/
inductive OfGet : Route → Prop
  | job (jobId : String) : OfGet (.job jobId)
  | result (jobId : String) : OfGet (.result jobId)
  | output (jobId stream : String) : OfGet (.output jobId stream)

/-- A value that does not encode is answered as the `ValueError` it raises. -/
theorem OfGet.answer_unsent (h : OfGet route) {reply : Reply} (hunsent : Unsent serving reply e) :
    route.answer serving (.ok reply) = route.answer serving (.error e) := by
  obtain ⟨hnone, value, hvalue, rfl⟩ := hunsent
  rw [Route.answer_ok, Route.answer_error, hnone]
  cases h with
  | job jobId | result jobId | output jobId stream => simp [Route.retried, hvalue, Route.refused]

/-- What a clause of `_do_get` leaves: an answer, or an exception that falls through. -/
theorem Waits.getFailed (hquiet : ∀ n, serving.write n = none) (hroute : OfGet route) (h : Waits service exchange) (e : Raised) :
    Post (Exchange.getFailed serving e) exchange
      (fun answered x => answered = true ∧ ∃ response, route.answer serving (.error e) = some response ∧ Sent service response x)
      fun e' x => Waits service x ∧ Falls serving route e e' := by
  have hinternal : route.refused serving e = Route.internal serving e → Post (Exchange.internalError serving e) exchange
      (fun _ x => ∃ response, route.answer serving (.error e) = some response ∧ Sent service response x)
      fun e' x => Waits service x ∧ Falls serving route e e' := by
    intro heq
    refine (h.internalError hquiet e).mono (fun _ x hx => ?_) fun _ _ he => he.elim
    obtain ⟨response, hresponse, hsent⟩ := hx
    exact ⟨response, Falls.answer (.inr heq) hresponse, hsent⟩
  cases e with
  | jobNotFound message =>
    simp only [Exchange.getFailed, post_bind, post_pure, true_and]
    exact h.refuse hquiet (Route.failure 404 (ofString "job not found")) (by cases hroute <;> rfl)
  | osError message | valueError message =>
    simp only [Exchange.getFailed, post_bind, post_pure, true_and]
    exact h.refuse hquiet (Route.failure 400 message) (by cases hroute <;> rfl)
  | storeError message | idempotencyConflict message | admissionLimited message =>
    simp only [Exchange.getFailed, post_bind, post_pure, true_and]
    exact hinternal (by cases hroute <;> rfl)
  | typeError message | other message => exact ⟨h, .inr (by cases hroute <;> rfl)⟩

/-- The call of a route, and its answer sent. -/
theorem Waits.asked {α : Type} (hquiet : ∀ n, serving.write n = none) (h : Waits service exchange) {x : EStateM Raised σ α}
    {reply : α → Reply} (hask : route.ask serving request tenantId = reply <$> x) :
    Post (call x >>= fun a => Exchange.send serving (reply a)) exchange
      (fun _ x' => ∃ answer response, (route.run serving request tenantId service).1 = .ok answer ∧
        Route.respond serving answer = some response ∧ Sent (route.run serving request tenantId service).2 response x')
      fun e x' => Waits (route.run serving request tenantId service).2 x' ∧
        ((route.run serving request tenantId service).1 = .error e ∨
          ∃ answer, (route.run serving request tenantId service).1 = .ok answer ∧ Unsent serving answer e) := by
  rw [post_bind, post_call, h.service_eq]
  unfold Post
  cases hx : x service with
  | ok a service' =>
    rw [Route.run_ok hask hx]
    have hwaits : Waits service' { exchange with service := service' } := ⟨⟨h.responseStarted, h.started, h.complete⟩, rfl⟩
    refine (hwaits.send hquiet (reply a)).mono (fun _ x' hx => ?_) fun e x' he => ⟨he.1, .inr ⟨_, rfl, he.2⟩⟩
    exact ⟨reply a, hx.choose, rfl, hx.choose_spec⟩
  | error e service' =>
    rw [Route.run_error hask hx]
    exact ⟨⟨⟨h.responseStarted, h.started, h.complete⟩, rfl⟩, .inl rfl⟩

/-- A response that was sent is the answer of the route. -/
theorem Sent.answered {response : HttpResponse} (h : Sent (route.run serving request tenantId service).2 response exchange)
    (hanswer : route.answer serving (route.run serving request tenantId service).1 = some response) :
    route.Answered serving request tenantId service exchange :=
  ⟨response, hanswer, h.service_eq, h.started, h.complete⟩

/-- What comes to the boundary of a request: an exception that falls through the clauses of its route. -/
def Pending (serving : Serving σ) (request : HttpRequest) (tenantId : String) (route : Route) (service : σ) (e' : Raised)
    (exchange : Exchange σ) : Prop :=
  Waits (route.run serving request tenantId service).2 exchange ∧
    ∃ e, route.answer serving (route.run serving request tenantId service).1 = route.answer serving (.error e) ∧ Falls serving route e e'

/-- A pending exception is answered. -/
theorem Pending.internalError (hquiet : ∀ n, serving.write n = none) (h : Pending serving request tenantId route service e exchange) :
    Post (Exchange.internalError serving e) exchange (fun _ => route.Answered serving request tenantId service) fun _ _ => False := by
  obtain ⟨hwaits, cause, hcause, hfalls⟩ := h
  refine (hwaits.internalError hquiet e).mono (fun _ x hx => ?_) fun _ _ he => he
  obtain ⟨response, hresponse, hsent⟩ := hx
  exact hsent.answered (hcause.trans (hfalls.answer hresponse))

/-- A read below a job is answered, or its exception is pending. -/
theorem Waits.getJob {α : Type} (hquiet : ∀ n, serving.write n = none) (h : Waits service exchange) (hroute : OfGet route)
    {x : EStateM Raised σ α} {reply : α → Reply} (hask : route.ask serving request tenantId = reply <$> x) {p : Handler σ Bool}
    (hget : p = call x >>= fun a => Exchange.send serving (reply a) >>= fun _ => pure true) :
    Post (tryCatch p (Exchange.getFailed serving)) exchange
      (fun answered x' => answered = true ∧ route.Answered serving request tenantId service x')
      (Pending serving request tenantId route service) := by
  rw [hget, ← bind_assoc, post_tryCatch, post_bind]
  refine (h.asked hquiet hask).mono (fun _ x' hx => ?_) fun e x' he => ?_
  · obtain ⟨answer, response, hanswer, hresponse, hsent⟩ := hx
    refine ⟨rfl, hsent.answered ?_⟩
    rw [hanswer, Route.answer_ok, hresponse]
    rfl
  · have hcause : route.answer serving (route.run serving request tenantId service).1 = route.answer serving (.error e) := by
      rcases he.2 with herror | ⟨answer, hanswer, hunsent⟩
      · rw [herror]
      · rw [hanswer, hroute.answer_unsent hunsent]
    refine (he.1.getFailed hquiet hroute e).mono (fun answered x'' hx => ?_) fun e' x'' he' => ⟨he'.1, e, hcause, he'.2⟩
    obtain ⟨htrue, response, hresponse, hsent⟩ := hx
    exact ⟨htrue, hsent.answered (hcause.trans hresponse)⟩

/-- The parts of the paths that name no job. -/
theorem parts_health : parts "/health/live" = ["health", "live"] ∧ parts "/health/ready" = ["health", "ready"] ∧
    parts "/health/state" = ["health", "state"] ∧ parts "/v1/jobs" = ["v1", "jobs"] := by
  decide +kernel

/-- The paths of jobs are none of the health paths. -/
theorem not_health {url : Url} {jobs : String} {rest : List String} (h : parts url.path = "v1" :: jobs :: rest) :
    url.path ≠ "/health/live" ∧ url.path ≠ "/health/ready" ∧ url.path ≠ "/health/state" := by
  obtain ⟨hlive, hready, hstate, -⟩ := parts_health
  refine ⟨fun hpath => ?_, fun hpath => ?_, fun hpath => ?_⟩
  · rw [hpath, hlive] at h
    simp at h
  · rw [hpath, hready] at h
    simp at h
  · rw [hpath, hstate] at h
    simp at h

/-- A path of a job is left to the routes of the job. -/
theorem doGet_job {url : Url} {jobId : String} {rest : List String} (hparts : parts url.path = "v1" :: "jobs" :: jobId :: rest)
    (htenant : exchange.tenantId = some tenantId) {Q : Unit → Exchange σ → Prop} {E : Raised → Exchange σ → Prop}
    (h : Post (tryCatch (getJob serving url jobId tenantId rest) (getFailed serving)) exchange
      (fun answered x => answered = true ∧ Q () x) E) :
    Post (doGet serving url) exchange Q E := by
  obtain ⟨hlive, hready, hstate⟩ := not_health hparts
  unfold doGet
  rw [if_neg hlive, if_neg hready, if_neg hstate, hparts]
  change Post (tenant >>= fun tenantId => _) exchange Q E
  rw [post_bind, tenant, post_bind, post_get, htenant, post_pure, post_bind]
  refine h.mono (fun answered x hx => ?_) fun _ _ he => he
  rw [hx.1]
  exact hx.2

/-- A path of a read is answered as its route says, or its exception is pending. -/
theorem Waits.doGet (hquiet : ∀ n, serving.write n = none) (h : Waits service exchange) (htenant : exchange.tenantId = some tenantId)
    {url : Url} (hroute : Route.ofGet url = some route) :
    Post (Exchange.doGet serving url) exchange (fun _ => route.Answered serving request tenantId service)
      (Pending serving request tenantId route service) := by
  unfold Route.ofGet at hroute
  split at hroute
  · rename_i jobId hparts
    cases hroute
    exact doGet_job hparts htenant (h.getJob hquiet (.job jobId) rfl rfl)
  · rename_i jobId hparts
    cases hroute
    exact doGet_job hparts htenant (h.getJob hquiet (.result jobId) rfl rfl)
  · rename_i jobId hparts
    cases hroute
    exact doGet_job hparts htenant (h.getJob hquiet (.output jobId (url.stream.getD "stdout")) rfl rfl)
  · cases hroute

/-! ## The routes of `POST` -/

/-- What a clause of a submission leaves: an answer, or an exception that falls through. -/
theorem Waits.submitFailed (hquiet : ∀ n, serving.write n = none) {key : String} (h : Waits service exchange) (e : Raised) :
    Post (Exchange.submitFailed serving e) exchange
      (fun submitted x => submitted = none ∧ ∃ response, (Route.submit key).answer serving (.error e) = some response ∧
        Sent service response x)
      fun e' x => Waits service x ∧ Falls serving (.submit key) e e' := by
  cases e with
  | admissionLimited message =>
    simp only [Exchange.submitFailed, post_bind, post_pure, true_and]
    exact h.refuse hquiet { Route.failure 429 message with headers := [("Retry-After", ofString "1")] } rfl
  | idempotencyConflict message =>
    simp only [Exchange.submitFailed, post_bind, post_pure, true_and]
    exact h.refuse hquiet (Route.failure 409 message) rfl
  | typeError message | valueError message =>
    simp only [Exchange.submitFailed, post_bind, post_pure, true_and]
    exact h.refuse hquiet (Route.failure 400 message) rfl
  | jobNotFound message | storeError message | osError message | other message => exact ⟨h, .inr rfl⟩

/-- The routes that `_do_post` answers after its clauses. -/
inductive OfPost : Route → Prop
  | submit (key : String) : OfPost (.submit key)
  | cancel (jobId : String) : OfPost (.cancel jobId)

/-- A job that does not encode is answered as an internal error. -/
theorem OfPost.pending (h : OfPost route) {reply : Reply} (hrun : (route.run serving request tenantId service).1 = .ok reply)
    (hwaits : Waits (route.run serving request tenantId service).2 exchange) (hunsent : Unsent serving reply e) :
    Pending serving request tenantId route service e exchange := by
  obtain ⟨hnone, value, hvalue, rfl⟩ := hunsent
  refine ⟨hwaits, .other [], ?_, .inr ?_⟩
  · rw [hrun, Route.answer_ok, Route.answer_error, hnone]
    cases h with
    | submit key | cancel jobId =>
      change Route.respond serving (Route.internal serving (.other [])) =
        (Route.respond serving (Route.internal serving (.other [])) <|> Route.respond serving (Route.internal serving (.other [])))
      cases Route.respond serving (Route.internal serving (.other [])) with
      | none => rfl
      | some response => rfl
  · cases h with
    | submit key | cancel jobId => rfl

/-- To take or to return a slot sends nothing. -/
theorem Waits.slotCalls (h : Waits service exchange) (slotCalls : List SlotCall) : Waits service { exchange with slotCalls } :=
  ⟨h.toIdle.slotCalls slotCalls, h.service_eq⟩

/-- The answer to a submission that was taken. -/
def submission (submitted : ReportedJob × Bool) : Reply where
  status := if submitted.2 then 202 else 200
  content := .inl submitted.1.toDict
  headers := [("Location", ofString "/v1/jobs/" ++ submitted.1.id)]

/-- A submission that was answered in its clauses, or that was taken and is to be answered. -/
def Submitted (serving : Serving σ) (request : HttpRequest) (tenantId key : String) (service : σ) (submitted : Option (ReportedJob × Bool))
    (exchange : Exchange σ) : Prop :=
  (submitted = none ∧ (Route.submit key).Answered serving request tenantId service exchange) ∨
    ∃ job, submitted = some job ∧ (Route.submit key).run serving request tenantId service = (.ok (submission job), exchange.service) ∧
      Idle exchange

/-- A submission whose slot is held. -/
theorem Waits.submitJob (hquiet : ∀ n, serving.write n = none) (h : Waits service exchange) (key : String) :
    Post (Exchange.submitJob serving request tenantId key) exchange
      (Submitted serving request tenantId key service)
      (Pending serving request tenantId (.submit key) service) := by
  have hfailed : ∀ e x, ((Route.submit key).run serving request tenantId service).1 = .error e →
      Waits ((Route.submit key).run serving request tenantId service).2 x → Post (Exchange.submitFailed serving e) x
      (Submitted serving request tenantId key service)
      (Pending serving request tenantId (.submit key) service) := by
    intro e x hrun hx
    refine (hx.submitFailed hquiet e).mono (fun submitted x' hx' => .inl ⟨hx'.1, ?_⟩) fun e' x' he => ⟨he.1, e, by rw [hrun], he.2⟩
    obtain ⟨-, response, hresponse, hsent⟩ := hx'
    exact hsent.answered (by rw [hrun, hresponse])
  rw [Exchange.submitJob, post_tryCatch, post_bind]
  cases hread : readJson serving request with
  | error e =>
    have hrun : (Route.submit key).run serving request tenantId service = (.error e, service) := by
      simp only [Route.run, Route.ask, hread]
      rfl
    refine hfailed e exchange (by rw [hrun]) ?_
    rw [hrun]
    exact h
  | ok payload =>
    rw [raised, post_pure, post_map, post_call, h.service_eq]
    have hask : (Route.submit key).ask serving request tenantId = submission <$> serving.calls.submit tenantId key payload := by
      rw [Route.ask, hread]
      rfl
    unfold Post
    cases hsubmit : serving.calls.submit tenantId key payload service with
    | ok job service' => exact .inr ⟨job, rfl, Route.run_ok hask hsubmit, h.responseStarted, h.started, h.complete⟩
    | error e service' =>
      have hrun := Route.run_error hask hsubmit
      refine hfailed e _ (by rw [hrun]) ?_
      rw [hrun]
      exact ⟨⟨h.responseStarted, h.started, h.complete⟩, rfl⟩

/-- A submission is answered as its route says, or its exception is pending. -/
theorem Waits.postJob (hquiet : ∀ n, serving.write n = none) (h : Waits service exchange) {key : String}
    (hfree : serving.slotFree = true) (hkey : request.idempotencyKey.filter (· ≠ "") = some key) :
    Post (Exchange.postJob serving request tenantId) exchange (fun _ => (Route.submit key).Answered serving request tenantId service)
      (Pending serving request tenantId (.submit key) service) := by
  simp only [Exchange.postJob, acquireSlot, post_bind, post_modify, post_pure, hfree, if_true, hkey, post_withSlot]
  refine ((h.slotCalls _).submitJob hquiet key).mono (fun submitted x hx => ?_) fun e x he => ?_
  · rcases hx with ⟨rfl, hanswered⟩ | ⟨job, rfl, hrun, hidle⟩
    · exact hanswered
    · have hwaits : Waits x.service { x with slotCalls := x.slotCalls ++ [SlotCall.released] } := ⟨hidle.slotCalls _, rfl⟩
      refine (hwaits.send hquiet (submission job)).mono (fun _ x' hx' => ?_) fun e x' he => ?_
      · obtain ⟨response, hresponse, hsent⟩ := hx'
        refine ⟨response, ?_, ?_, hsent.started, hsent.complete⟩
        · rw [hrun, Route.answer_ok, hresponse]
          rfl
        · rw [hrun]
          exact hsent.service_eq
      · refine OfPost.pending (.submit key) (by rw [hrun]) ?_ he.2
        rw [hrun]
        exact he.1
  · exact ⟨he.1.slotCalls _, he.2⟩

/-- A cancellation is answered as its route says, or its exception is pending. -/
theorem Waits.postCancel (hquiet : ∀ n, serving.write n = none) (h : Waits service exchange) (jobId : String) :
    Post (Exchange.postCancel serving jobId tenantId) exchange (fun _ => (Route.cancel jobId).Answered serving request tenantId service)
      (Pending serving request tenantId (.cancel jobId) service) := by
  have hask : (Route.cancel jobId).ask serving request tenantId =
      (fun job : ReportedJob => ({ status := 202, content := .inl job.toDict } : Reply)) <$> serving.calls.cancel jobId tenantId := rfl
  rw [Exchange.postCancel, post_bind, post_tryCatch, post_map, post_call, h.service_eq]
  unfold Post
  cases hcancel : serving.calls.cancel jobId tenantId service with
  | ok job service' =>
    have hrun := Route.run_ok hask hcancel
    have hwaits : Waits service' { exchange with service := service' } := ⟨⟨h.responseStarted, h.started, h.complete⟩, rfl⟩
    refine (hwaits.send hquiet { status := 202, content := .inl job.toDict }).mono (fun _ x hx => ?_) fun e x he => ?_
    · obtain ⟨response, hresponse, hsent⟩ := hx
      refine ⟨response, ?_, ?_, hsent.started, hsent.complete⟩
      · rw [hrun, Route.answer_ok, hresponse]
        rfl
      · rw [hrun]
        exact hsent.service_eq
    · refine OfPost.pending (.cancel jobId) (by rw [hrun]) ?_ he.2
      rw [hrun]
      exact he.1
  | error e service' =>
    have hrun := Route.run_error hask hcancel
    have hwaits : Waits service' { exchange with service := service' } := ⟨⟨h.responseStarted, h.started, h.complete⟩, rfl⟩
    cases e with
    | jobNotFound message =>
      have hsend : Post (error serving 404 "job not found" []) { exchange with service := service' }
          (fun _ => (Route.cancel jobId).Answered serving request tenantId service)
          (Pending serving request tenantId (.cancel jobId) service) := by
        have hrefused : (Route.cancel jobId).refused serving (.jobNotFound message) = Route.failure 404 (ofString "job not found") := rfl
        refine (hwaits.refuse hquiet _ hrefused).mono (fun _ x hx => ?_) fun e x he => ⟨?_, .jobNotFound message, by rw [hrun], he.2⟩
        · obtain ⟨response, hresponse, hsent⟩ := hx
          refine ⟨response, by rw [hrun, hresponse], ?_, hsent.started, hsent.complete⟩
          rw [hrun]
          exact hsent.service_eq
        · rw [hrun]
          exact he.1
      change Post (error serving 404 "job not found" [] >>= fun _ => pure none) { exchange with service := service' } _ _
      rw [post_bind]
      exact hsend
    | idempotencyConflict message | admissionLimited message | storeError message | osError message | valueError message
    | typeError message | other message =>
      refine ⟨?_, _, by rw [hrun], .inr rfl⟩
      rw [hrun]
      exact hwaits

/-- The route of a `POST` that is no submission. -/
theorem Route.cancels_of_ofPost {url : Url} (hpath : ¬url.path = "/v1/jobs") (hroute : Route.ofPost serving request url = some route) :
    ∃ jobId, Exchange.parts url.path = ["v1", "jobs", jobId, "cancel"] ∧ route = .cancel jobId := by
  unfold Route.ofPost at hroute
  rw [if_neg hpath] at hroute
  split at hroute
  · rename_i jobId hparts
    exact ⟨jobId, hparts, (Option.some.inj hroute).symm⟩
  · cases hroute

/-- A path of a write is answered as its route says, or its exception is pending. -/
theorem Waits.doPost (hquiet : ∀ n, serving.write n = none) (h : Waits service exchange) (htenant : exchange.tenantId = some tenantId)
    {url : Url} (hroute : Route.ofPost serving request url = some route) :
    Post (Exchange.doPost serving request url) exchange (fun _ => route.Answered serving request tenantId service)
      (Pending serving request tenantId route service) := by
  rw [Exchange.doPost, post_bind, Exchange.tenant, post_bind, post_get, htenant, post_pure]
  by_cases hpath : url.path = "/v1/jobs"
  · rw [if_pos hpath]
    unfold Route.ofPost at hroute
    rw [if_pos hpath] at hroute
    split at hroute
    · rename_i hfree
      obtain ⟨key, hkey, rfl⟩ := Option.map_eq_some_iff.1 hroute
      exact h.postJob hquiet hfree hkey
    · cases hroute
  · rw [if_neg hpath]
    obtain ⟨jobId, hparts, rfl⟩ := Route.cancels_of_ofPost hpath hroute
    rw [hparts]
    exact h.postCancel hquiet jobId

/-! ## Requests -/

/-- An authorized request goes on with its tenant. -/
theorem post_authorize {authorized : JobRequestHandler → Bool × JobRequestHandler}
    (hauthorized : authorized {} = (true, { tenantId := some tenantId })) {Q : Bool → Exchange σ → Prop} {E : Raised → Exchange σ → Prop}
    (h : Q true { start service with tenantId := some tenantId }) : Post (authorize serving authorized) (start service) Q E := by
  rw [authorize, post_bind, post_get]
  change Post (_ >>= _) (start service) Q E
  have htenant : authorized { tenantId := (start service).tenantId } = (true, { tenantId := some tenantId }) := hauthorized
  simp only [htenant, List.foldlM_nil, post_bind, post_pure, post_modify]
  exact h

/-- At the start nothing was sent. -/
theorem waits_start (service : σ) (tenantId : Option String) : Waits service { start service with tenantId } := ⟨⟨rfl, rfl, rfl⟩, rfl⟩

section Answered

variable {url : Url} (hquiet : ∀ n, serving.write n = none) (hurl : request.url = some url)
  (hauthorized : ({} : JobRequestHandler).authorizedTenant serving.server request.headers = (true, { tenantId := some tenantId }))
include hquiet hurl hauthorized

/-- A read is answered as its route says. -/
theorem get_answered (hroute : Route.ofGet url = some route) :
    Post (doGET serving request) (start service) (fun _ => route.Answered serving request tenantId service) fun _ _ => False := by
  have hjobs : ∃ rest, parts url.path = "v1" :: "jobs" :: rest := by
    unfold Route.ofGet at hroute
    split at hroute
    · exact ⟨_, ‹_›⟩
    · exact ⟨_, ‹_›⟩
    · exact ⟨_, ‹_›⟩
    · cases hroute
  obtain ⟨rest, hparts⟩ := hjobs
  obtain ⟨hlive, hready, hstate⟩ := not_health hparts
  have hget : ({} : JobRequestHandler).doGet serving.server url.path request.headers = (true, { tenantId := some tenantId }) := by
    rw [JobRequestHandler.doGet, if_neg hstate, if_neg (by simp [hlive, hready]), hauthorized]
  rw [doGET, post_tryCatch, hurl]
  change Post (authorize _ _ >>= _) (start service) _ _
  rw [post_bind]
  refine post_authorize hget ?_
  rw [if_pos rfl]
  exact ((waits_start service _).doGet hquiet rfl hroute).mono (fun _ _ hx => hx) fun e x he => he.internalError hquiet

/-- A write is answered as its route says. -/
theorem post_answered (hroute : Route.ofPost serving request url = some route) :
    Post (doPOST serving request) (start service) (fun _ => route.Answered serving request tenantId service) fun _ _ => False := by
  rw [doPOST, post_tryCatch, post_bind]
  refine post_authorize hauthorized ?_
  rw [if_pos rfl, hurl]
  exact ((waits_start service _).doPost hquiet rfl hroute).mono (fun _ _ hx => hx) fun e x he => he.internalError hquiet

end Answered

end Exchange

/-- The text by which a route names a job. -/
def Route.named : Route → Option String
  | .job jobId | .result jobId | .output jobId _ | .cancel jobId => some jobId
  | .submit _ => none

/-- No job of a tenant has a text for its id. -/
def Foreign (tenantId jobId : String) (s : Service) : Prop :=
  ∀ u, s.idOf jobId = some u → ∃ other, other ≠ tenantId ∧ s.store.OfTenant other u

variable {cfg : RequestConfig} {call : TenantRequest} {health : Service → Health} {tenantId jobId : String} {s : Service}

/-- The service answers a call about another tenant's job as about one that is not there. -/
theorem served_foreign {α : Type} (hs : Reachable cfg.toServiceConfig s) (hforeign : Foreign tenantId jobId s)
    (ask : Uuid → TenantCall Uuid) (hask : ∀ u, (ask u).job = some u) (pass : Answer → Option α) :
    ∃ message, served cfg call tenantId (byId ask jobId) pass s = .error (.jobNotFound message) s := by
  unfold served byId
  cases hid : s.idOf jobId with
  | none => exact ⟨_, rfl⟩
  | some u =>
    obtain ⟨other, hne, hother⟩ := hforeign u hid
    have hmissing : Tenant.serve cfg tenantId call (ask u) s = (.error (.store (.jobNotFound u)), s) :=
      Tenant.serve_missing (hask u) (Tenant.selectJob_of_other hs.store.wellFormed hne hother)
    refine ⟨ofString (String.ofList (idText "job_" u)), ?_⟩
    dsimp only
    rw [hmissing]
    rfl

/-- A route that names another tenant's job raises that it is not there. -/
theorem run_foreign {serving : Serving Service} {request : HttpRequest} {route : Route} (hcalls : serving.calls = jobCalls cfg call health)
    (hs : Reachable cfg.toServiceConfig s) (hnamed : route.named = some jobId) (hforeign : Foreign tenantId jobId s) :
    ∃ message, route.run serving request tenantId s = (.error (.jobNotFound message), s) := by
  cases route with
  | submit key => cases hnamed
  | job jobId =>
    cases hnamed
    obtain ⟨message, hserved⟩ := served_foreign hs hforeign TenantCall.get (fun _ => rfl) Answer.reportedJob
    refine ⟨message, Route.run_error rfl ?_⟩
    rw [hcalls]
    exact hserved
  | result jobId =>
    cases hnamed
    obtain ⟨message, hserved⟩ := served_foreign hs hforeign TenantCall.result (fun _ => rfl) _
    refine ⟨message, Route.run_error rfl ?_⟩
    rw [hcalls]
    exact hserved
  | output jobId stream =>
    cases hnamed
    obtain ⟨message, hserved⟩ := served_foreign hs hforeign (fun u => TenantCall.readOutput u stream) (fun _ => rfl) _
    refine ⟨message, Route.run_error rfl ?_⟩
    rw [hcalls]
    exact hserved
  | cancel jobId =>
    cases hnamed
    obtain ⟨message, hserved⟩ := served_foreign hs hforeign TenantCall.cancel (fun _ => rfl) Answer.reportedJob
    refine ⟨message, Route.run_error rfl ?_⟩
    rw [hcalls]
    exact hserved

/-- The answer to a job that is not found. -/
theorem answer_jobNotFound {σ : Type} {serving : Serving σ} {route : Route} (hnamed : route.named = some jobId) (message : PyStr) :
    route.answer serving (.error (.jobNotFound message)) =
      Exchange.jsonResponse serving 404 (Exchange.errorValue (ofString "job not found")) [] := by
  have hsome := Exchange.isSome_errorResponse serving 404 "job not found" []
  obtain ⟨response, hresponse⟩ := Option.isSome_iff_exists.1 hsome
  have hrefused : route.refused serving (.jobNotFound message) = Route.failure 404 (ofString "job not found") := by
    cases route with
    | submit key => cases hnamed
    | job jobId | result jobId | output jobId stream | cancel jobId => rfl
  rw [Route.answer_error, hrefused]
  change (Exchange.jsonResponse serving 404 (Exchange.errorValue (ofString "job not found")) [] <|> _) = _
  rw [hresponse]
  rfl

/-- A job of another tenant is answered as one that does not exist: the response is the same for every text that names no job of the
tenant, whatever is asked of it, and nothing changes. -/
theorem foreign_job_not_found (cfg : RequestConfig) (call : TenantRequest) (health : Service → Health) (s : Service)
    (hs : Reachable cfg.toServiceConfig s) (serving : Serving Service) (hcalls : serving.calls = jobCalls cfg call health)
    (hquiet : ∀ n, serving.write n = none) (request : HttpRequest) (url : Url) (hurl : request.url = some url) (tenantId : String)
    (hauthorized : ({} : JobRequestHandler).authorizedTenant serving.server request.headers = (true, { tenantId := some tenantId }))
    (route : Route) (jobId : String) (hnamed : route.named = some jobId) (hforeign : Foreign tenantId jobId s) :
    ∃ response, Exchange.jsonResponse serving 404 (Exchange.errorValue (ofString "job not found")) [] = some response ∧
      (Route.ofGet url = some route → Post (Exchange.doGET serving request) (Exchange.start s)
        (fun _ x => x.service = s ∧ x.started = [response] ∧ x.complete = [response]) fun _ _ => False) ∧
      (Route.ofPost serving request url = some route → Post (Exchange.doPOST serving request) (Exchange.start s)
        (fun _ x => x.service = s ∧ x.started = [response] ∧ x.complete = [response]) fun _ _ => False) := by
  obtain ⟨response, hresponse⟩ := Option.isSome_iff_exists.1 (Exchange.isSome_errorResponse serving 404 "job not found" [])
  obtain ⟨message, hrun⟩ : ∃ message, route.run serving request tenantId s = (.error (.jobNotFound message), s) :=
    run_foreign hcalls hs hnamed hforeign
  have hanswered : ∀ x : Exchange Service, route.Answered serving request tenantId s x →
      x.service = s ∧ x.started = [response] ∧ x.complete = [response] := by
    intro x hx
    obtain ⟨answer, hanswer, hservice, hstarted, hcomplete⟩ := hx
    rw [hrun, answer_jobNotFound hnamed, hresponse] at hanswer
    rw [hrun] at hservice
    cases hanswer
    exact ⟨hservice, hstarted, hcomplete⟩
  refine ⟨response, hresponse, fun hroute => ?_, fun hroute => ?_⟩
  · exact (Exchange.get_answered hquiet hurl hauthorized hroute).mono (fun _ x hx => hanswered x hx) fun _ _ he => he
  · exact (Exchange.post_answered hquiet hurl hauthorized hroute).mono (fun _ x hx => hanswered x hx) fun _ _ he => he

end Service

namespace Sample

open Service (Serving HttpRequest Health)

/-- A server of the sample service, with a token for one tenant, on a connection that takes everything. -/
def serving : Serving Service where
  calls := Service.jobCalls requestCfg reads fun _ => { live := true, ready := true, degraded := .bool true, reason := .null, state := [] }
  server := { tenantTokens := [("tenant", "token")] }
  requestBodyMaxBytes := 1000
  volatile := true
  parser := { float := PyJson.ratText }
  write _ := none
  slotFree := true
  requestId := "request"

/-- A request of the tenant. -/
def requested (path : String) : HttpRequest where
  url := some { path }
  headers := { authorization := some "Bearer token" }
  idempotencyKey := some "key"
  contentLength := some "2"
  body := [0x7B, 0x7D]

def ownJob : String := "job_00000000000000000000000000000001"
def otherJob : String := "job_00000000000000000000000000000002"

end Sample

namespace Service

open Effectful Sample

/-- The sample request is authorized. -/
theorem authorized_sample (path : String) :
    ({} : JobRequestHandler).authorizedTenant serving.server (requested path).headers = (true, { tenantId := some "tenant" }) := by
  change ({} : JobRequestHandler).authorizedTenant serving.server { authorization := some "Bearer token" } = _
  decide +kernel

/-- The sample path is the one of a read. -/
theorem routes_sample : Route.ofGet { path := "/v1/jobs/" ++ ownJob } = some (.job ownJob) ∧
    Route.ofGet { path := "/v1/jobs/" ++ otherJob } = some (.job otherJob) ∧
    Route.ofPost serving (requested "/v1/jobs") { path := "/v1/jobs" } = some (.submit "key") := by
  decide +kernel

/-- The tenant asks for the job of the other one. -/
theorem foreign_job_not_found_sample :
    ∃ response, Post (Exchange.doGET serving (requested ("/v1/jobs/" ++ otherJob))) (Exchange.start busy)
      (fun _ x => x.service = busy ∧ x.started = [response] ∧ x.complete = [response]) fun _ _ => False := by
  have hbusy : Reachable requestCfg.toServiceConfig busy := Tenant.reachable_served requestCfg
    (opened [.store (.submit "tenant" "old" plainSpec) (clockAt 1), .store (.submit "other" "key" plainSpec) (clockAt 1)])
  have hid : busy.idOf otherJob = some 2 ∧ busy.store.OfTenant "other" 2 := by decide +kernel
  generalize busy = s at hbusy hid ⊢
  have hforeign : Foreign "tenant" otherJob s := by
    intro u hu
    rw [hid.1] at hu
    cases hu
    exact ⟨"other", by decide, hid.2⟩
  obtain ⟨response, -, hget, -⟩ := foreign_job_not_found requestCfg reads _ s hbusy serving rfl (fun _ => rfl)
    (requested ("/v1/jobs/" ++ otherJob)) { path := "/v1/jobs/" ++ otherJob } rfl "tenant" (authorized_sample _)
      (.job otherJob) otherJob rfl
    hforeign
  exact ⟨response, hget routes_sample.2.1⟩

end Service

end SharkRail
