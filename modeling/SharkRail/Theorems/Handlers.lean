import Mathlib
import SharkRail.Service.Handlers
import SharkRail.Theorems.Reports

/-!
# What the handlers answer

Every request gets a response: one, as long as the connection takes what is written to it. Where a write fails a job route of `GET` takes
the `OSError` for one of the service and starts a second response on the broken connection.
-/

namespace SharkRail

namespace Service

namespace Exchange

open Effectful
open PyStr (ofString)
open Texts (jsonBody)

variable {σ α : Type} {serving : Serving σ} {request : HttpRequest} {exchange exchange' : Exchange σ}

/-! ## The steps of a handler -/

section Rules

variable {Q : α → Exchange σ → Prop} {R : Unit → Exchange σ → Prop} {E : Raised → Exchange σ → Prop} {status : ℕ}
  {headers : List (String × PyStr)}

/-- A call of the service leaves the rest of the exchange as it was. -/
@[simp] theorem post_call {x : EStateM Raised σ α} :
    Post (call x) exchange Q E ↔ Post x exchange.service (fun a service => Q a { exchange with service })
      fun e service => E e { exchange with service } := by
  rw [call, post_bind, post_get]
  unfold Post
  cases x exchange.service with
  | ok a service => exact Iff.rfl
  | error e service => exact Iff.rfl

/-- A write reaches the client, or raises because the client is gone. -/
theorem post_write (hgone : serving.write exchange.writes = none → R () { exchange with writes := exchange.writes + 1 })
    (hfailed : ∀ message, serving.write exchange.writes = some message →
      E (.osError message) { exchange with writes := exchange.writes + 1 }) :
    Post (write serving) exchange R E := by
  rw [write, post_bind, post_get, post_bind, post_modify]
  cases h : serving.write exchange.writes with
  | none => exact hgone h
  | some message => exact hfailed message h

/-- A response is started, and then it is written whole, or a write fails. -/
theorem post_bytes {body : Bytes} {contentType : String} {response : HttpResponse}
    (hresponse : Exchange.response serving status body contentType headers = response)
    (hwhole : ∀ writes, R () { exchange with
      responseStarted := true, started := exchange.started ++ [response], complete := exchange.complete ++ [response], writes })
    (hbroken : ∀ message writes, (∃ n, serving.write n = some message) →
      E (.osError message) { exchange with responseStarted := true, started := exchange.started ++ [response], writes }) :
    Post (bytes serving status body contentType headers) exchange R E := by
  subst hresponse
  rw [bytes, post_bind, post_modify, post_bind]
  refine post_write (fun _ => ?_) fun message h => hbroken message _ ⟨_, h⟩
  rw [post_bind]
  exact post_write (fun _ => hwhole _) fun message h => hbroken message _ ⟨_, h⟩

/-- The response to a value, `none` where the value does not encode. -/
def jsonResponse (serving : Serving σ) (status : ℕ) (value : List (PyStr × PyJson)) (headers : List (String × PyStr)) :
    Option HttpResponse :=
  (jsonBody serving.parser.float (.obj value)).map fun body =>
    response serving status body "application/json; charset=utf-8" headers

/-- A response that encodes is written whole or in part; one that does not encode writes nothing. -/
theorem post_json {value : List (PyStr × PyJson)}
    (hwhole : ∀ response writes, jsonResponse serving status value headers = some response → R () { exchange with
      responseStarted := true, started := exchange.started ++ [response], complete := exchange.complete ++ [response], writes })
    (hbroken : ∀ response message writes, jsonResponse serving status value headers = some response →
      (∃ n, serving.write n = some message) →
      E (.osError message) { exchange with responseStarted := true, started := exchange.started ++ [response], writes })
    (hunencodable : jsonResponse serving status value headers = none → E (.valueError (serving.parser.unencodable value)) exchange) :
    Post (json serving status value headers) exchange R E := by
  unfold jsonResponse at hwhole hbroken hunencodable
  rw [json]
  cases h : jsonBody serving.parser.float (.obj value) with
  | none =>
    rw [h] at hunencodable
    exact hunencodable rfl
  | some body =>
    rw [h] at hwhole hbroken
    exact post_bytes rfl (fun writes => hwhole _ _ rfl) fun message writes hwrite => hbroken _ _ _ rfl hwrite

end Rules

/-- A response has the status that it was made with. -/
theorem status_jsonResponse {status : ℕ} {value : List (PyStr × PyJson)} {headers : List (String × PyStr)} {response : HttpResponse}
    (h : jsonResponse serving status value headers = some response) : response.status = status := by
  obtain ⟨body, -, rfl⟩ := Option.map_eq_some_iff.1 h
  rfl

/-- A text of the program encodes. -/
theorem isSome_errorResponse (serving : Serving σ) (status : ℕ) (message : String) (headers : List (String × PyStr)) :
    (jsonResponse serving status (errorValue (ofString message)) headers).isSome = true := by
  rw [jsonResponse, Option.isSome_map, Texts.isSome_jsonBody]
  simp [PyJson.clean_obj, PyJson.clean_str, errorValue, PyStr.unicode_ofString]

/-- The internal error encodes. -/
theorem isSome_internalResponse (serving : Serving σ) (status : ℕ) (headers : List (String × PyStr)) :
    (jsonResponse serving status (internalValue serving) headers).isSome = true := by
  rw [jsonResponse, Option.isSome_map, Texts.isSome_jsonBody]
  simp [PyJson.clean_obj, PyJson.clean_str, internalValue, errorValue, PyStr.unicode_ofString]

/-! ## Where a handler is -/

/-- No response was started. -/
structure Idle (exchange : Exchange σ) : Prop where
  responseStarted : exchange.responseStarted = false
  started : exchange.started = []
  complete : exchange.complete = []

/-- Some write to the connection raises. -/
def Failing (serving : Serving σ) : Prop := ∃ n message, serving.write n = some message

/-- One response was started, and where no write raises it was written whole. -/
structure Once (serving : Serving σ) (response : HttpResponse) (exchange : Exchange σ) : Prop where
  responseStarted : exchange.responseStarted = true
  started : exchange.started = [response]
  complete : exchange.complete = [response] ∨ exchange.complete = [] ∧ Failing serving

/-- A response that says 200 was broken off, and one that says 400 was started after it. -/
structure Twice (serving : Serving σ) (exchange : Exchange σ) : Prop where
  responseStarted : exchange.responseStarted = true
  failing : Failing serving
  started : ∃ first second, exchange.started = [first, second] ∧ first.status = 200 ∧ second.status = 400 ∧
    (exchange.complete = [] ∨ exchange.complete = [second])

/-- What an exception leaves: nothing was started, or it is the `OSError` of a write that broke a response off. -/
def Broken (serving : Serving σ) (P : ℕ → Prop) (e : Raised) (exchange : Exchange σ) : Prop :=
  Idle exchange ∨ (∃ message, e = .osError message) ∧ ∃ response, P response.status ∧ exchange.responseStarted = true ∧
    exchange.started = [response] ∧ exchange.complete = [] ∧ Failing serving

variable {P : ℕ → Prop} {status : ℕ} {headers : List (String × PyStr)} {value : List (PyStr × PyJson)}

/-- A call of the service writes no response. -/
theorem Idle.call (h : Idle exchange) (x : EStateM Raised σ α) :
    Post (Exchange.call x) exchange (fun _ => Idle) fun _ => Idle := by
  rw [post_call]
  unfold Post
  cases x exchange.service with
  | ok a service => exact ⟨h.responseStarted, h.started, h.complete⟩
  | error e service => exact ⟨h.responseStarted, h.started, h.complete⟩

/-- The bytes of one response are written, or nothing more can be. -/
theorem Idle.bytes (h : Idle exchange) (hstatus : P status) (body : Bytes) (contentType : String) :
    Post (bytes serving status body contentType headers) exchange (fun _ x => ∃ response, P response.status ∧ Once serving response x)
      (Broken serving P) := by
  have hresponse : P (response serving status body contentType headers).status := hstatus
  refine post_bytes rfl (fun writes => ⟨_, hresponse, rfl, ?_, .inl ?_⟩) fun message writes hwrite =>
    .inr ⟨⟨message, rfl⟩, _, hresponse, rfl, ?_, h.complete, hwrite.imp fun n hn => ⟨message, hn⟩⟩
  · simp [h.started]
  · simp [h.complete]
  · simp [h.started]

/-- One response is written, or none because its value does not encode, or nothing more can be. -/
theorem Idle.json (h : Idle exchange) (hstatus : P status) (value : List (PyStr × PyJson)) (headers : List (String × PyStr)) :
    Post (json serving status value headers) exchange (fun _ x => ∃ response, P response.status ∧ Once serving response x)
      (Broken serving P) := by
  rw [Exchange.json]
  cases jsonBody serving.parser.float (.obj value) with
  | none => exact .inl h
  | some body => exact h.bytes hstatus body _

/-- An internal error is answered, unless something was. -/
theorem Idle.internalError (h : Idle exchange) (e : Raised) :
    Post (internalError serving e) exchange (fun _ x => ∃ response, Once serving response x)
      fun e x => (∃ message, e = .osError message) ∧ Failing serving ∧ ∃ response, Once serving response x := by
  rw [Exchange.internalError, post_bind, post_get, h.responseStarted, if_neg Bool.false_ne_true]
  have hsome := isSome_internalResponse serving (if e.unavailable then 503 else 500) []
  refine post_json (fun response writes _ => ⟨response, rfl, ?_, .inl ?_⟩) (fun response message writes _ hwrite => ?_) fun hnone => ?_
  · simp [h.started]
  · simp [h.complete]
  · have hfailing : Failing serving := hwrite.imp fun n hn => ⟨message, hn⟩
    exact ⟨⟨message, rfl⟩, hfailing, response, rfl, by simp [h.started], .inr ⟨h.complete, hfailing⟩⟩
  · rw [hnone] at hsome
    cases hsome

/-- After a response was started no other one is. -/
theorem internalError_started (h : exchange.responseStarted = true) (e : Raised) {R : Unit → Exchange σ → Prop}
    {E : Raised → Exchange σ → Prop}
    (hR : R () exchange) : Post (internalError serving e) exchange R E := by
  rw [Exchange.internalError, post_bind, post_get, h, if_pos rfl]
  exact hR

/-! ## Authorization -/

/-- An authorization lets a request pass, as a tenant, or sends one refusal. -/
inductive Decided : Bool × JobRequestHandler → Prop
  | passed (tenantId : Option String) : Decided (true, { tenantId })
  | refused (tenantId : Option String) (refusal : Response) : Decided (false, { tenantId, refusals := [refusal] })

/-- A tenant is claimed, or one response refuses it. -/
theorem decided_claim (tenantId : Option String) (tenant : String) (headers : RequestHeaders) :
    Decided (({ tenantId } : JobRequestHandler).claim tenant headers) := by
  unfold JobRequestHandler.claim
  split
  · exact .refused _ _
  · exact .passed _

/-- A request has a tenant, or one response refuses it. -/
theorem decided_tenant (server : ServerSettings) (headers : RequestHeaders) (tenantId : Option String) :
    Decided (({ tenantId } : JobRequestHandler).authorizedTenant server headers) := by
  unfold JobRequestHandler.authorizedTenant
  split
  · exact decided_claim _ _ _
  · split
    · exact decided_claim _ _ _
    · exact .refused _ _

/-- A read is authorized, or one response refuses it. -/
theorem decided_get (server : ServerSettings) (path : String) (headers : RequestHeaders) (tenantId : Option String) :
    Decided (({ tenantId } : JobRequestHandler).doGet server path headers) := by
  unfold JobRequestHandler.doGet JobRequestHandler.authorizedAdmin JobRequestHandler.authorizedProbe
  split
  · split
    · split
      · exact .passed _
      · exact .refused _ _
    · split
      · exact .passed _
      · exact .refused _ _
  · split
    · split
      · exact .passed _
      · exact decided_tenant server headers tenantId
    · exact decided_tenant server headers tenantId

/-- A request that is refused has its one response; one that passes has none yet. -/
theorem Idle.authorize (h : Idle exchange) {authorized : JobRequestHandler → Bool × JobRequestHandler}
    (hdecided : ∀ tenantId, Decided (authorized { tenantId })) :
    Post (authorize serving authorized) exchange
      (fun passed x => if passed = true then Idle x else ∃ response, Once serving response x) (Broken serving fun _ => True) := by
  rw [Exchange.authorize, post_bind, post_get]
  dsimp only
  generalize hauthorized : authorized { tenantId := exchange.tenantId } = outcome
  have hout : Decided outcome := hauthorized ▸ hdecided exchange.tenantId
  cases hout with
  | passed tenantId =>
    simp only [List.foldlM_nil, post_bind, post_pure, post_modify, if_true]
    exact ⟨h.responseStarted, h.started, h.complete⟩
  | refused tenantId refusal =>
    simp only [List.foldlM_cons, List.foldlM_nil, post_bind, post_pure, post_modify, Bool.false_eq_true, if_false]
    refine (h.json (P := fun _ => True) trivial _ _).mono (fun _ x hx => ?_) fun _ _ he => he
    obtain ⟨response, -, honce⟩ := hx
    exact ⟨response, honce.responseStarted, honce.started, honce.complete⟩

/-! ## `do_GET` -/

/-- A path below a job has its one response, or is not one of those. -/
theorem Idle.getJob (h : Idle exchange) (url : Url) (jobId tenantId : String) (rest : List String) :
    Post (getJob serving url jobId tenantId rest) exchange
      (fun answered x => if answered = true then ∃ response, Once serving response x else Idle x) (Broken serving (· = 200)) := by
  unfold Exchange.getJob
  split
  · rw [post_bind]
    refine (h.call _).mono (fun job x hx => ?_) fun _ _ hx => .inl hx
    simp only [post_bind, post_pure, if_true]
    exact (hx.json (P := (· = 200)) rfl _ _).mono (fun _ _ honce => honce.imp fun _ hr => hr.2) fun _ _ he => he
  · rw [post_bind]
    refine (h.call _).mono (fun job x hx => ?_) fun _ _ hx => .inl hx
    simp only [post_bind, post_pure, if_true]
    exact (hx.json (P := (· = 200)) rfl _ _).mono (fun _ _ honce => honce.imp fun _ hr => hr.2) fun _ _ he => he
  · rw [post_bind]
    refine (h.call _).mono (fun job x hx => ?_) fun _ _ hx => .inl hx
    simp only [post_bind, post_pure, if_true]
    exact (hx.bytes (P := (· = 200)) rfl _ _).mono (fun _ _ honce => honce.imp fun _ hr => hr.2) fun _ _ he => he
  · simpa using h

/-- One response, or two. -/
def Replied (serving : Serving σ) (exchange : Exchange σ) : Prop := (∃ response, Once serving response exchange) ∨ Twice serving exchange

/-- What stops a handler leaves it before its response or after it. -/
theorem Broken.replied {e : Raised} (h : Broken serving P e exchange) : Idle exchange ∨ Replied serving exchange := by
  rcases h with hidle | ⟨-, response, -, hresponse, hstarted, hcomplete, hfailing⟩
  · exact .inl hidle
  · exact .inr (.inl ⟨response, hresponse, hstarted, .inr ⟨hcomplete, hfailing⟩⟩)

/-- The clauses that answer with an error of their own. -/
theorem Idle.failed (h : Idle exchange) (status : ℕ) (value : List (PyStr × PyJson)) :
    Post (Exchange.json serving status value []) exchange (fun _ => Replied serving) fun _ x => Idle x ∨ Replied serving x :=
  (h.json (P := fun _ => True) trivial _ _).mono (fun _ _ hx => .inl (hx.imp fun _ hr => hr.2)) fun _ _ he => he.replied

/-- The internal error is the response of a handler that has none. -/
theorem Idle.internal (h : Idle exchange) (e : Raised) :
    Post (Exchange.internalError serving e) exchange (fun _ => Replied serving) fun _ x => Idle x ∨ Replied serving x :=
  (h.internalError e).mono (fun _ _ hx => .inl hx) fun _ _ he => .inr (.inl he.2.2)

/-- The `OSError` of a broken response is answered with another one. -/
theorem getFailed_broken {response : HttpResponse} (hstatus : response.status = 200) (hresponse : exchange.responseStarted = true)
    (hstarted : exchange.started = [response]) (hcomplete : exchange.complete = []) (hfailing : Failing serving) (message : PyStr) :
    Post (json serving 400 (errorValue message) []) exchange (fun _ => Replied serving) fun _ x => Idle x ∨ Replied serving x := by
  refine post_json (fun second writes hsecond => .inr ⟨rfl, hfailing, response, second, ?_, hstatus, status_jsonResponse hsecond, .inr ?_⟩)
    (fun second _ writes hsecond _ => .inr
      (.inr ⟨rfl, hfailing, response, second, ?_, hstatus, status_jsonResponse hsecond, .inl hcomplete⟩))
    fun _ => .inr (.inl ⟨response, hresponse, hstarted, .inr ⟨hcomplete, hfailing⟩⟩)
  · simp [hstarted]
  · simp [hcomplete]
  · simp [hstarted]

/-- The exception of a read is answered, unless the response was started. -/
theorem Broken.getFailed {e : Raised} (h : Broken serving (· = 200) e exchange) :
    Post (getFailed serving e) exchange (fun answered x => answered = true ∧ Replied serving x) fun _ x => Idle x ∨ Replied serving x := by
  have hidle : ∀ {e : Raised}, (∀ message, e ≠ .osError message) → Broken serving (· = 200) e exchange → Idle exchange := by
    intro e hne h
    rcases h with hidle | ⟨⟨message, rfl⟩, -⟩
    · exact hidle
    · exact absurd rfl (hne message)
  cases e with
  | jobNotFound message =>
    simp only [Exchange.getFailed, post_bind, post_pure, true_and]
    exact (hidle (by simp) h).failed 404 _
  | idempotencyConflict message | admissionLimited message | storeError message =>
    simp only [Exchange.getFailed, post_bind, post_pure, true_and]
    exact (hidle (by simp) h).internal _
  | valueError message =>
    simp only [Exchange.getFailed, post_bind, post_pure, true_and]
    exact (hidle (by simp) h).failed 400 _
  | osError message =>
    simp only [Exchange.getFailed, post_bind, post_pure, true_and]
    rcases h with hidle | ⟨-, response, hstatus, hresponse, hstarted, hcomplete, hfailing⟩
    · exact hidle.failed 400 _
    · exact getFailed_broken hstatus hresponse hstarted hcomplete hfailing message
  | typeError message | other message => exact .inl (hidle (by simp) h)

/-- To read the tenant writes no response. -/
theorem Idle.tenant (h : Idle exchange) :
    Post Exchange.tenant exchange (fun _ => Idle) fun _ => Idle := by
  rw [Exchange.tenant, post_bind, post_get]
  cases exchange.tenantId with
  | none => exact h
  | some tenantId => exact h

/-- A health check has one response. -/
theorem Idle.health (h : Idle exchange) (status : Health → ℕ) (value : Health → List (PyStr × PyJson)) :
    Post (Exchange.call serving.calls.health >>= fun health => Exchange.json serving (status health) (value health) []) exchange
      (fun _ => Replied serving) fun _ x => Idle x ∨ Replied serving x := by
  rw [post_bind]
  exact (h.call _).mono (fun health x hx => hx.failed _ _) fun _ _ hx => .inl hx

/-- A path of a read has one response. -/
theorem Idle.doGet (h : Idle exchange) (url : Url) :
    Post (doGet serving url) exchange (fun _ => Replied serving) fun _ x => Idle x ∨ Replied serving x := by
  unfold Exchange.doGet
  split
  · exact h.health _ _
  · split
    · exact h.health _ _
    · split
      · exact h.health (fun _ => 200) _
      · split
        · rw [post_bind]
          refine h.tenant.mono (fun tenantId x hx => ?_) fun _ _ hx => .inl hx
          rw [post_bind, post_tryCatch]
          refine (hx.getJob _ _ _ _).mono (fun answered x' hx' => ?_) fun e x' he =>
            he.getFailed.mono (fun answered x'' hreplied => ?_) fun _ _ he => he
          · cases answered with
            | false =>
              rw [if_neg Bool.false_ne_true]
              exact Idle.failed hx' 404 _
            | true => exact .inl hx'
          · rw [hreplied.1]
            exact hreplied.2
        · exact h.failed 404 _

/-- What is left of an exception at the boundary: where nothing was started it is answered as an internal error. -/
theorem internalError_boundary (h : Idle exchange ∨ Replied serving exchange) (e : Raised) :
    Post (internalError serving e) exchange (fun _ => Replied serving)
      fun e x => (∃ message, e = .osError message) ∧ Failing serving ∧ ∃ response, Once serving response x := by
  rcases h with hidle | hreplied
  · exact (hidle.internalError e).mono (fun _ _ hx => .inl hx) fun _ _ he => he
  · refine internalError_started ?_ e hreplied
    rcases hreplied with ⟨response, honce⟩ | htwice
    · exact honce.responseStarted
    · exact htwice.responseStarted

/-- At the start nothing was written. -/
theorem idle_start (service : σ) : Idle (start service) := ⟨rfl, rfl, rfl⟩

/-- A read has one response, or the client is gone in the middle of it. -/
theorem replied_doGET (serving : Serving σ) (request : HttpRequest) (service : σ) :
    Post (doGET serving request) (start service) (fun _ => Replied serving)
      fun e x => (∃ message, e = .osError message) ∧ Failing serving ∧ ∃ response, Once serving response x := by
  rw [doGET, post_tryCatch]
  cases request.url with
  | none => exact internalError_boundary (.inl (idle_start service)) _
  | some url =>
    rw [post_bind]
    refine ((idle_start service).authorize fun tenantId => decided_get serving.server url.path request.headers tenantId).mono
      (fun passed x hx => ?_) fun e x he => internalError_boundary he.replied e
    cases passed with
    | false => exact .inl hx
    | true => exact (Idle.doGet hx url).mono (fun _ _ hreplied => hreplied) fun e x he => internalError_boundary he e

/-! ## `do_POST` -/

/-- One response is written, or what stops it is known. -/
theorem Idle.once (h : Idle exchange) (status : ℕ) (value : List (PyStr × PyJson)) (headers : List (String × PyStr)) :
    Post (Exchange.json serving status value headers) exchange (fun _ x => ∃ response, Once serving response x)
      (Broken serving fun _ => True) :=
  (h.json (P := fun _ => True) trivial _ _).mono (fun _ _ hx => hx.imp fun _ hr => hr.2) fun _ _ he => he

/-- A submission that was answered, and one that is to be. -/
theorem Idle.submitJob (h : Idle exchange) (tenantId key : String) :
    Post (submitJob serving request tenantId key) exchange
      (fun submitted x => if submitted.isSome = true then Idle x else ∃ response, Once serving response x)
      (Broken serving fun _ => True) := by
  rw [Exchange.submitJob, post_tryCatch, post_bind]
  have hfailed : ∀ e x, Idle x → Post (submitFailed serving e) x
      (fun submitted x => if submitted.isSome = true then Idle x else ∃ response, Once serving response x)
        (Broken serving fun _ => True) := by
    intro e x hx
    cases e with
    | admissionLimited message =>
      simp only [submitFailed, post_bind, post_pure, Option.isSome_none, Bool.false_eq_true, if_false]
      exact hx.once _ _ _
    | idempotencyConflict message =>
      simp only [submitFailed, post_bind, post_pure, Option.isSome_none, Bool.false_eq_true, if_false]
      exact hx.once _ _ _
    | typeError message | valueError message =>
      simp only [submitFailed, post_bind, post_pure, Option.isSome_none, Bool.false_eq_true, if_false]
      exact hx.once _ _ _
    | jobNotFound message | storeError message | osError message | other message => exact .inl hx
  cases readJson serving request with
  | ok payload =>
    rw [raised, post_pure, post_map]
    exact (h.call _).mono (fun _ _ hx => by simpa using hx) hfailed
  | error e => exact hfailed e exchange h

/-- To take or to return a slot writes no response. -/
theorem Idle.slotCalls (h : Idle exchange) (slotCalls : List SlotCall) : Idle { exchange with slotCalls } :=
  ⟨h.responseStarted, h.started, h.complete⟩

/-- The slot is given back whatever happens. -/
theorem post_withSlot {x : Handler σ α} {Q : α → Exchange σ → Prop} {E : Raised → Exchange σ → Prop} :
    Post (withSlot x) exchange Q E ↔
      Post x exchange (fun a x' => Q a { x' with slotCalls := x'.slotCalls ++ [SlotCall.released] })
        fun e x' => E e { x' with slotCalls := x'.slotCalls ++ [SlotCall.released] } := by
  rw [withSlot, post_bind, post_tryCatch, post_map]
  simp only [post_bind, post_pure, releaseSlot, post_modify, post_throw]

/-- A submission has one response, or what stops it is known. -/
theorem Idle.postJob (h : Idle exchange) (tenantId : String) :
    Post (postJob serving request tenantId) exchange (fun _ x => ∃ response, Once serving response x) (Broken serving fun _ => True) := by
  simp only [Exchange.postJob, acquireSlot, post_bind, post_modify, post_pure]
  generalize exchange.slotCalls ++ [if serving.slotFree = true then SlotCall.acquired else SlotCall.refused] = slotCalls
  have hidle := h.slotCalls slotCalls
  split
  · split
    · rw [post_bind, releaseSlot, post_modify]
      exact (hidle.slotCalls _).once _ _ _
    · rw [post_bind, post_withSlot]
      refine (hidle.submitJob tenantId _).mono (fun submitted x hx => ?_) fun e x he => ?_
      · cases submitted with
        | none => exact hx.imp fun _ honce => ⟨honce.responseStarted, honce.started, honce.complete⟩
        | some submitted => exact (Idle.slotCalls hx _).once _ _ _
      · rcases he with hx | ⟨hmessage, response, hP, hresponse, hstarted, hcomplete, hfailing⟩
        · exact .inl (hx.slotCalls _)
        · exact .inr ⟨hmessage, response, hP, hresponse, hstarted, hcomplete, hfailing⟩
  · exact hidle.once _ _ _

/-- A cancellation has one response, or what stops it is known. -/
theorem Idle.postCancel (h : Idle exchange) (jobId tenantId : String) :
    Post (postCancel serving jobId tenantId) exchange (fun _ x => ∃ response, Once serving response x) (Broken serving fun _ => True) := by
  rw [Exchange.postCancel, post_bind, post_tryCatch, post_map]
  refine (h.call _).mono (fun job x hx => hx.once _ _ _) fun e x hx => ?_
  split
  · rw [post_bind]
    exact (hx.once _ _ _).mono (fun _ _ honce => honce) fun _ _ he => he
  · exact .inl hx

/-- A path of a write has one response, or what stops it is known. -/
theorem Idle.doPost (h : Idle exchange) (url : Url) :
    Post (doPost serving request url) exchange (fun _ x => ∃ response, Once serving response x) (Broken serving fun _ => True) := by
  rw [Exchange.doPost, post_bind]
  refine h.tenant.mono (fun tenantId x hx => ?_) fun _ _ hx => .inl hx
  split
  · exact hx.postJob tenantId
  · split
    · exact hx.postCancel _ tenantId
    · exact hx.once _ _ _

/-- What stops a write is answered with the internal error, unless its response was started. -/
theorem internalError_broken {e : Raised} (h : Broken serving (fun _ => True) e exchange) :
    Post (internalError serving e) exchange (fun _ x => ∃ response, Once serving response x)
      fun e x => (∃ message, e = .osError message) ∧ Failing serving ∧ ∃ response, Once serving response x := by
  rcases h with hidle | ⟨-, response, -, hresponse, hstarted, hcomplete, hfailing⟩
  · exact hidle.internalError e
  · exact internalError_started hresponse e ⟨response, hresponse, hstarted, .inr ⟨hcomplete, hfailing⟩⟩

/-- A write has one response, or the client is gone in the middle of it. -/
theorem once_doPOST (serving : Serving σ) (request : HttpRequest) (service : σ) :
    Post (doPOST serving request) (start service) (fun _ x => ∃ response, Once serving response x)
      fun e x => (∃ message, e = .osError message) ∧ Failing serving ∧ ∃ response, Once serving response x := by
  rw [doPOST, post_tryCatch, post_bind]
  refine ((idle_start service).authorize fun tenantId => decided_tenant serving.server request.headers tenantId).mono
    (fun passed x hx => ?_) fun e x he => internalError_broken he
  cases passed with
  | false => exact hx
  | true =>
    rw [if_pos rfl]
    split
    · exact internalError_broken (.inl hx)
    · exact (Idle.doPost hx _).mono (fun _ _ honce => honce) fun e x he => internalError_broken he

/-- Every request is answered, and a request that raises does so because a write to its connection did. One response is started, and it is
written whole where no write raises; but the `OSError` of a response that a job route of `GET` started is taken for one of the service,
and a second response is started after it. -/
theorem every_request_answered (serving : Serving σ) (request : HttpRequest) (service : σ) :
    Post (doGET serving request) (start service) (fun _ => Replied serving)
        (fun e x => (∃ message, e = .osError message) ∧ Failing serving ∧ ∃ response, Once serving response x) ∧
      Post (doPOST serving request) (start service) (fun _ x => ∃ response, Once serving response x)
        fun e x => (∃ message, e = .osError message) ∧ Failing serving ∧ ∃ response, Once serving response x :=
  ⟨replied_doGET serving request service, once_doPOST serving request service⟩

/-! ## The slots for submissions -/

section Slots

variable {slotCalls : List SlotCall}

/-- A part of a handler that does nothing with the slots. -/
def NoSlot (x : Handler σ α) : Prop := ∀ slotCalls, Keeps (fun exchange => exchange.slotCalls = slotCalls) x

/-- A call of the service uses no slot. -/
theorem noSlot_call (x : EStateM Raised σ α) : NoSlot (call x) := by
  intro slotCalls exchange h
  rw [post_call]
  unfold Post
  cases x exchange.service with
  | ok a service => exact h
  | error e service => exact h

/-- Writing bytes uses no slot. -/
theorem noSlot_bytes (serving : Serving σ) (status : ℕ) (body : Bytes) (contentType : String) (headers : List (String × PyStr)) :
    NoSlot (bytes serving status body contentType headers) :=
  fun _ _ h => post_bytes rfl (fun _ => h) fun _ _ _ => h

/-- Writing a response uses no slot. -/
theorem noSlot_json (serving : Serving σ) (status : ℕ) (value : List (PyStr × PyJson)) (headers : List (String × PyStr)) :
    NoSlot (json serving status value headers) :=
  fun _ _ h => post_json (fun _ _ _ => h) (fun _ _ _ _ _ => h) fun _ => h

/-- The internal error uses no slot. -/
theorem noSlot_internalError (serving : Serving σ) (e : Raised) : NoSlot (internalError serving e) := by
  intro slotCalls
  refine keeps_get_bind fun exchange h => ?_
  split
  · exact h
  · exact noSlot_json serving _ _ _ slotCalls exchange h

/-- Authorization uses no slot. -/
theorem noSlot_authorize (serving : Serving σ) (authorized : JobRequestHandler → Bool × JobRequestHandler) :
    NoSlot (authorize serving authorized) := by
  intro slotCalls
  refine keeps_get_bind fun exchange h => ?_
  refine ((keeps_foldlM (fun _ refusal => ?_) _ ()).bind fun _ => (keeps_modify ?_).bind fun _ => keeps_pure _) exchange h
  · exact noSlot_json serving _ _ _ slotCalls
  · exact fun _ hs => hs

/-- Reading the tenant uses no slot. -/
theorem noSlot_tenant : NoSlot (tenant : Handler σ String) := by
  intro slotCalls
  refine keeps_get_bind fun exchange h => ?_
  split
  · exact h
  · exact h

/-- The paths below a job use no slot. -/
theorem noSlot_getJob (serving : Serving σ) (url : Url) (jobId tenantId : String) (rest : List String) :
    NoSlot (getJob serving url jobId tenantId rest) := by
  intro slotCalls
  unfold getJob
  split
  · exact (noSlot_call _ _).bind fun _ => (noSlot_json _ _ _ _ _).bind fun _ => keeps_pure _
  · exact (noSlot_call _ _).bind fun _ => (noSlot_json _ _ _ _ _).bind fun _ => keeps_pure _
  · exact (noSlot_call _ _).bind fun _ => (noSlot_bytes _ _ _ _ _ _).bind fun _ => keeps_pure _
  · exact keeps_pure _

/-- A read that failed uses no slot. -/
theorem noSlot_getFailed (serving : Serving σ) (e : Raised) : NoSlot (getFailed serving e) := by
  intro slotCalls
  cases e with
  | jobNotFound message => exact (noSlot_json _ _ _ _ _).bind fun _ => keeps_pure _
  | storeError message | idempotencyConflict message | admissionLimited message =>
    exact (noSlot_internalError _ _ _).bind fun _ => keeps_pure _
  | osError message | valueError message => exact (noSlot_json _ _ _ _ _).bind fun _ => keeps_pure _
  | typeError message | other message => exact keeps_throw _

/-- The paths of reads use no slot. -/
theorem noSlot_doGet (serving : Serving σ) (url : Url) : NoSlot (doGet serving url) := by
  intro slotCalls
  unfold doGet
  split
  · exact (noSlot_call _ _).bind fun _ => noSlot_json _ _ _ _ _
  · split
    · exact (noSlot_call _ _).bind fun _ => noSlot_json _ _ _ _ _
    · split
      · exact (noSlot_call _ _).bind fun _ => noSlot_json _ _ _ _ _
      · split
        · refine (noSlot_tenant _).bind fun tenantId => ?_
          refine ((noSlot_getJob _ _ _ _ _ _).tryCatch fun e => noSlot_getFailed _ e _).bind fun answered => ?_
          exact (keeps_pure ()).ite (noSlot_json _ _ _ _ _)
        · exact noSlot_json _ _ _ _ _

/-- Reads use no slot. -/
theorem noSlot_doGET (serving : Serving σ) (request : HttpRequest) : NoSlot (doGET serving request) := by
  intro slotCalls
  refine Keeps.tryCatch ?_ fun e => noSlot_internalError serving e slotCalls
  split
  · exact keeps_throw _
  · exact (noSlot_authorize _ _ _).bind fun passed => (noSlot_doGet _ _ _).ite (keeps_pure ())

/-- Raising uses no slot. -/
theorem noSlot_raised (x : Except Raised α) : NoSlot (raised x : Handler σ α) := by
  intro slotCalls
  cases x with
  | ok a => exact keeps_pure a
  | error e => exact keeps_throw e

/-- What a submission does under its slot takes no other one. -/
theorem noSlot_submitJob (serving : Serving σ) (request : HttpRequest) (tenantId key : String) :
    NoSlot (submitJob serving request tenantId key) := by
  intro slotCalls
  refine Keeps.tryCatch ((noSlot_raised _ _).bind fun payload => (noSlot_call _ _).map) fun e => ?_
  cases e with
  | admissionLimited message | idempotencyConflict message => exact (noSlot_json _ _ _ _ _).bind fun _ => keeps_pure _
  | typeError message | valueError message => exact (noSlot_json _ _ _ _ _).bind fun _ => keeps_pure _
  | jobNotFound message | storeError message | osError message | other message => exact keeps_throw _

/-- A cancellation uses no slot. -/
theorem noSlot_postCancel (serving : Serving σ) (jobId tenantId : String) : NoSlot (postCancel serving jobId tenantId) := by
  intro slotCalls
  refine Keeps.bind (Keeps.tryCatch (noSlot_call _ _).map fun e => ?_) fun job => ?_
  · split
    · exact (noSlot_json _ _ _ _ _).bind fun _ => keeps_pure _
    · exact keeps_throw _
  · split
    · exact keeps_pure _
    · exact noSlot_json _ _ _ _ _

/-- A submission takes its slot and returns it, or takes none. -/
theorem slotUses_postJob (serving : Serving σ) (request : HttpRequest) (tenantId : String) (h : exchange.slotCalls = []) :
    Post (postJob serving request tenantId) exchange (fun _ x => x.slotCalls ∈ slotUses) fun _ x => x.slotCalls ∈ slotUses := by
  have hjson : ∀ status value headers (x : Exchange σ), x.slotCalls ∈ slotUses →
      Post (json serving status value headers) x (fun _ x => x.slotCalls ∈ slotUses) fun _ x => x.slotCalls ∈ slotUses := by
    intro status value headers x hx
    exact (noSlot_json serving status value headers x.slotCalls x rfl).mono (fun _ _ hx' => hx' ▸ hx) fun _ _ hx' => hx' ▸ hx
  have hrefused : [SlotCall.refused] ∈ slotUses := by decide
  have hused : [SlotCall.acquired, .released] ∈ slotUses := by decide
  simp only [postJob, acquireSlot, post_bind, post_modify, post_pure, h, List.nil_append]
  split
  · split
    · rw [post_bind, releaseSlot, post_modify]
      exact hjson _ _ _ _ hused
    · rw [post_bind, post_withSlot]
      refine (noSlot_submitJob serving request tenantId _ [.acquired] _ rfl).mono (fun submitted x hx => ?_) fun e x hx => ?_
      · rw [hx]
        split
        · exact hused
        · exact hjson _ _ _ _ hused
      · rw [hx]
        exact hused
  · exact hjson _ _ _ _ hrefused

/-- Whatever a request meets, its handler has given the slot for submissions back, once, if it had acquired it. -/
theorem slots_given_back (serving : Serving σ) (request : HttpRequest) (service : σ) :
    Post (doGET serving request) (start service) (fun _ x => x.slotCalls = []) (fun _ x => x.slotCalls = []) ∧
      Post (doPOST serving request) (start service) (fun _ x => x.slotCalls ∈ slotUses) fun _ x => x.slotCalls ∈ slotUses := by
  refine ⟨noSlot_doGET serving request [] _ rfl, ?_⟩
  have hinternal : ∀ e (x : Exchange σ), x.slotCalls ∈ slotUses →
      Post (internalError serving e) x (fun _ x => x.slotCalls ∈ slotUses) fun _ x => x.slotCalls ∈ slotUses := by
    intro e x hx
    exact (noSlot_internalError serving e x.slotCalls x rfl).mono (fun _ _ hx' => hx' ▸ hx) fun _ _ hx' => hx' ▸ hx
  have hnone : ∀ x : Exchange σ, x.slotCalls = [] → x.slotCalls ∈ slotUses := fun _ hx => hx ▸ by decide
  rw [doPOST, post_tryCatch, post_bind]
  refine (noSlot_authorize serving _ [] _ rfl).mono (fun passed x hx => ?_) fun e x hx => hinternal e x (hnone x hx)
  split
  · split
    · exact hinternal _ x (hnone x hx)
    · rw [doPost, post_bind]
      refine (noSlot_tenant [] x hx).mono (fun tenantId x hx => ?_) fun e x hx => hinternal e x (hnone x hx)
      split
      · exact (slotUses_postJob serving request tenantId hx).mono (fun _ _ h => h) hinternal
      · split
        · exact (noSlot_postCancel serving _ tenantId [] x hx).mono (fun _ x hx => hnone x hx) fun e x hx => hinternal e x (hnone x hx)
        · exact (noSlot_json serving _ _ _ [] x hx).mono (fun _ x hx => hnone x hx) fun e x hx => hinternal e x (hnone x hx)
  · exact hnone x hx

end Slots

end Exchange

end Service

end SharkRail
