import SharkRail.Lemmas.Responses
import SharkRail.Lib.FloatText

/-!
# Responses

A dispatcher answers a request when it returns no response for a notification, and for every other request one envelope with the
identifier of the request; the line of the response is written when it has no surrogate. The JSON-RPC dispatcher always answers. The MCP
dispatcher has no handler for an exception outside of the classes it names, and reads the identifier after it has checked the rest of the
envelope and before it has checked the identifier (`mcp_answers_iff`).
-/

namespace SharkRail

namespace Integrations

open Fallible PyStr
open PyJson (Clean)
open Texts.Mcp (ToolOperation validateToolArguments readTool)

/-- The identifier that a response to the request has: its `id` where that is a string, an integer or null. -/
def requestIdOf : PyJson → PyJson
  | .obj request => if isRequestId (getD request "id" .null) then getD request "id" .null else .null
  | _ => .null

/-- An envelope of a response. -/
def IsEnvelope (requestId response : PyJson) : Prop :=
  ∃ members, response = .obj members ∧ PyJson.get? members "jsonrpc" = some (.str "2.0") ∧ PyJson.get? members "id" = some requestId ∧
    (PyJson.get? members "result").isSome = (PyJson.get? members "error").isNone

/-- The dispatcher returns, without a response for a notification, with the envelope of a response for every other request. -/
def Answers (request : PyJson) (outcome : Except Raised (Option PyJson)) : Prop :=
  ∃ response, outcome = .ok response ∧ (response = none ↔ isNotification request = true) ∧
    ∀ envelope ∈ response, IsEnvelope (requestIdOf request) envelope

/-! ## Envelopes -/

theorem isEnvelope_result (requestId result : PyJson) : IsEnvelope requestId (resultResponse requestId result) :=
  ⟨_, rfl, rfl, rfl, rfl⟩

theorem isEnvelope_error (requestId : PyJson) (code : Int) (message : PyStr) (data : Option PyJson) :
    IsEnvelope requestId (errorResponse requestId code message data) :=
  ⟨_, rfl, rfl, rfl, rfl⟩

/-- An envelope has one identifier. -/
theorem IsEnvelope.unique {requestId requestId' response : PyJson} (h : IsEnvelope requestId response)
    (h' : IsEnvelope requestId' response) : requestId = requestId' := by
  obtain ⟨members, rfl, -, hid, -⟩ := h
  obtain ⟨members', heq, -, hid', -⟩ := h'
  cases heq
  exact Option.some.inj (hid.symm.trans hid')

/-- A dispatcher that returns an envelope with an identifier, but for a notification, answers when it is the identifier of the
request. -/
theorem answers_of_envelope {request requestId envelope : PyJson} (henvelope : IsEnvelope requestId envelope) :
    Answers request (pure (if isNotification request = true then none else some envelope)) ↔
      (isNotification request = true ∨ requestId = requestIdOf request) := by
  cases hnotification : isNotification request with
  | true => exact ⟨fun _ => Or.inl rfl, fun _ => ⟨none, rfl, by simp [hnotification], nofun⟩⟩
  | false =>
    constructor
    · rintro ⟨response, hresponse, -, hid⟩
      cases hresponse
      exact Or.inr (henvelope.unique (hid envelope rfl))
    · rintro (hno | rfl)
      · cases hno
      · refine ⟨some envelope, rfl, by simp [hnotification], ?_⟩
        rintro x ⟨⟩
        exact henvelope

/-- A request without an `id` member has the identifier null. -/
theorem requestIdOf_of_notification {request : PyJson} (h : isNotification request = true) : requestIdOf request = .null := by
  cases request with
  | obj request =>
    have hnone : PyJson.get? request "id" = none := by simpa [isNotification] using h
    simp [requestIdOf, getD, hnone]
  | _ => rfl

variable (library : Library) (manager : Manager)

/-- A dispatcher that returns an envelope with an identifier, but for a notification, answers with one line when it is the identifier of the
request, and the envelope has no surrogate. -/
theorem answered_of_envelope {request requestId envelope : PyJson} (dispatch : PyJson → Except Raised (Option PyJson))
    (henvelope : IsEnvelope requestId envelope)
    (hdispatch : dispatch request = pure (if isNotification request = true then none else some envelope)) (maxRequestBytes : Nat) :
    (Answers request (dispatch request) ∧ (respond library maxRequestBytes dispatch (.request request)).length =
        if isNotification request = true then 0 else 1) ↔
      (isNotification request = true ∨ requestId = requestIdOf request ∧ Clean envelope) := by
  have hrespond : respond library maxRequestBytes dispatch (.request request) =
      if isNotification request = true then [] else (writtenLine library.float envelope).toList := by
    rw [respond, hdispatch]
    cases isNotification request <;> rfl
  rw [hrespond, hdispatch, answers_of_envelope henvelope]
  cases hnotification : isNotification request with
  | true => simp
  | false =>
    have hline : ((writtenLine library.float envelope).toList.length = 1) ↔ Clean envelope := by
      rw [← isSome_writtenLine (F := library.float)]
      cases writtenLine library.float envelope <;> simp
    simpa using fun _ => hline

/-! ## The JSON-RPC dispatcher -/

/-- The identifier is the one of the request, whether the request is valid or not. -/
theorem JsonRpcRuntime.answer_id (runtime : JsonRpcRuntime) (request : PyJson) :
    (runtime.answer library manager request).1 = requestIdOf request := by
  cases request with
  | obj members =>
    unfold JsonRpcRuntime.answer requestIdOf
    dsimp only
    split
    · rename_i hinvalid
      rw [if_neg (by simpa using hinvalid.2)]
    · rename_i hvalid
      change getD members "id" .null = _
      split
      · rfl
      · rename_i hid
        have hnone : PyJson.get? members "id" = none := by
          by_contra hsome
          exact hvalid ⟨Option.isSome_iff_ne_none.2 hsome, by simpa using hid⟩
        simp [getD, hnone]
  | _ => rfl

/-- The JSON-RPC dispatcher returns an envelope with the identifier of the request, but for a notification. -/
theorem JsonRpcRuntime.dispatch_envelope (runtime : JsonRpcRuntime) (request : PyJson) :
    ∃ envelope, IsEnvelope (requestIdOf request) envelope ∧
      (runtime.dispatch library manager request).2 = pure (if isNotification request = true then none else some envelope) ∧
      (Clean envelope ↔ Clean (requestIdOf request) ∧ RpcSendable library manager request) := by
  have hid := JsonRpcRuntime.answer_id library manager { runtime with rpcRequests := runtime.rpcRequests + 1 } request
  have hcarried := JsonRpcRuntime.carried_answer library manager { runtime with rpcRequests := runtime.rpcRequests + 1 } request
  rw [← hid, ← hcarried]
  unfold JsonRpcRuntime.dispatch
  dsimp only
  split
  · rename_i requestId result hanswer
    rw [hanswer]
    exact ⟨_, isEnvelope_result _ _, rfl, clean_resultResponse⟩
  · rename_i requestId e hanswer
    rw [hanswer]
    exact ⟨_, isEnvelope_error _ _ _ _, rfl, JsonRpcRuntime.clean_report e⟩

/-! ## What leaves the MCP dispatcher -/

/-- An operation raised an exception that the MCP dispatcher has no handler for. -/
def Unhandled {α : Type} (x : Except Raised α) : Prop := ∃ message, x = .error (.other message)

@[simp] theorem unhandled_ok {α : Type} (a : α) : ¬Unhandled (.ok a : Except Raised α) := by
  rintro ⟨message, h⟩
  cases h

@[simp] theorem unhandled_error {α : Type} (e : Raised) :
    Unhandled (.error e : Except Raised α) ↔ ∃ message, e = .other message := by
  simp [Unhandled]

theorem unhandled_bind_pure {α β : Type} {x : Except Raised α} {f : α → β} :
    Unhandled (x >>= fun a => (pure (f a) : Except Raised β)) ↔ Unhandled x := by
  cases x with
  | error e => exact (unhandled_error e).trans (unhandled_error e).symm
  | ok a => exact iff_of_false (unhandled_ok (f a)) (unhandled_ok a)

/-- What a computation with handled exceptions is followed by raises what is not handled. -/
theorem unhandled_bind {α β : Type} {x : Except Raised α} {f : α → Except Raised β} (hx : OnlyRaises Plain x) :
    Unhandled (x >>= f) ↔ ∃ a, x = .ok a ∧ Unhandled (f a) := by
  constructor
  · rintro ⟨message, h⟩
    rcases bind_eq_error.1 h with h | ⟨a, ha, h⟩
    · exact absurd rfl ((hx _ h).1 message)
    · exact ⟨a, ha, message, h⟩
  · rintro ⟨a, rfl, message, h⟩
    exact ⟨message, h⟩

/-- The operations that a tool calls raise an exception without a handler. A command that is run to its end leaves one of its start,
of the disposal, and, when the disposal returns, of the wait; a wait without a result is one. -/
def Leaks (manager : Manager) : ToolOperation → Prop
  | .capabilities => Unhandled manager.collect
  | .start command timeoutMs idleTimeoutMs maxOutputBytes true =>
    Unhandled (manager.start (toolRequest command timeoutMs idleTimeoutMs maxOutputBytes)) ∨
      ∃ session, manager.start (toolRequest command timeoutMs idleTimeoutMs maxOutputBytes) = .ok session ∧
        (Unhandled (manager.dispose session.id) ∨
          manager.dispose session.id = .ok () ∧
            (manager.wait session.id none = .ok none ∨ Unhandled (manager.wait session.id none)))
  | .start command timeoutMs idleTimeoutMs maxOutputBytes false =>
    Unhandled (manager.start (toolRequest command timeoutMs idleTimeoutMs maxOutputBytes))
  | .eventPage sessionId cursor waitMs limit => Unhandled (manager.eventPage sessionId cursor waitMs limit)
  | .write sessionId data => Unhandled (manager.write sessionId data)
  | .wait sessionId timeoutMs => Unhandled (manager.wait sessionId timeoutMs)
  | .cancel sessionId => Unhandled (manager.cancel sessionId {})
  | .dispose sessionId => Unhandled (manager.dispose sessionId)

theorem unhandled_runToEnd (request : StartRequest) : Unhandled (runToEnd manager request) ↔
    Unhandled (manager.start request) ∨ ∃ session, manager.start request = .ok session ∧
      (Unhandled (manager.dispose session.id) ∨
        manager.dispose session.id = .ok () ∧
          (manager.wait session.id none = .ok none ∨ Unhandled (manager.wait session.id none))) := by
  unfold runToEnd
  cases hstart : manager.start request with
  | error e =>
    change Unhandled (.error e : Except Raised SessionResult) ↔ _
    simp
  | ok session =>
    change Unhandled (manager.dispose session.id >>= fun _ => _) ↔ _
    cases hdispose : manager.dispose session.id with
    | error e =>
      change Unhandled (.error e : Except Raised SessionResult) ↔ _
      simp [hdispose]
    | ok _ =>
      rcases hwait : manager.wait session.id none with e | result
      · change Unhandled (.error e : Except Raised SessionResult) ↔ _
        simp [hdispose, hwait]
      · cases result with
        | none =>
          change Unhandled (.error (.other _) : Except Raised SessionResult) ↔ _
          simp [hdispose, hwait]
        | some result =>
          change Unhandled (.ok result : Except Raised SessionResult) ↔ _
          simp [hdispose, hwait]

theorem unhandled_performTool (operation : ToolOperation) :
    Unhandled (performTool library manager operation) ↔ Leaks manager operation := by
  cases operation with
  | start command timeoutMs idleTimeoutMs maxOutputBytes untilEnd =>
    cases untilEnd with
    | true => exact unhandled_bind_pure.trans (unhandled_runToEnd manager _)
    | false => exact unhandled_bind_pure
  | _ => exact unhandled_bind_pure

/-- A tool reports the exceptions that have a handler, and lets the others through. -/
theorem unhandled_toolErrors (x : Except Raised PyJson) : Unhandled (McpRuntime.toolErrors library x) ↔ Unhandled x := by
  cases x with
  | ok result => exact Iff.rfl
  | error e =>
    cases e with
    | other message => exact Iff.rfl
    | _ => exact iff_of_false (by simp [McpRuntime.toolErrors, McpRuntime.toolErrors.invalid, pure, Except.pure]) (by simp)

/-- The parameters of `tools/call` are those of a call of a tool: the tool is known, its arguments meet the schema and can be read. -/
def Calls (params : List (PyStr × PyJson)) (operation : ToolOperation) : Prop :=
  ∃ name arguments, requiredStr params "name" = .ok name ∧ getD params "arguments" (.obj []) = .obj arguments ∧
    validateToolArguments name arguments = .ok () ∧ readTool library.b64decode name arguments = .ok operation

/-- A tool that is called leaks from its operations. -/
theorem unhandled_callTool (params : List (PyStr × PyJson)) :
    Unhandled (McpRuntime.callTool library manager params) ↔ ∃ operation, Calls library params operation ∧ Leaks manager operation := by
  unfold McpRuntime.callTool Calls
  rw [unhandled_bind (plain_requiredStr params "name")]
  cases harguments : getD params "arguments" (.obj []) with
  | obj arguments =>
    simp only [unhandled_toolErrors, PyJson.obj.injEq, exists_and_left]
    constructor
    · rintro ⟨name, hname, h⟩
      cases hvalid : validateToolArguments name arguments with
      | error e =>
        rw [hvalid] at h
        obtain ⟨message, h⟩ := h
        exact absurd (Except.error.inj h) (handled_schemaError library e message)
      | ok u =>
        rw [hvalid] at h
        obtain ⟨operation, hread, h⟩ := (unhandled_bind (plain_readTool library hvalid)).1 h
        have hread : readTool library.b64decode name arguments = .ok operation := by
          cases hread' : readTool library.b64decode name arguments with
          | error e =>
            rw [hread'] at hread
            cases hread
          | ok operation' =>
            rw [hread'] at hread
            exact congrArg Except.ok (Except.ok.inj hread)
        exact ⟨operation, ⟨name, hname, arguments, rfl, hvalid, hread⟩, (unhandled_performTool library manager operation).1 h⟩
    · rintro ⟨operation, ⟨name, hname, arguments', rfl, hvalid, hread⟩, h⟩
      refine ⟨name, hname, ?_⟩
      rw [hvalid, hread]
      exact (unhandled_performTool library manager operation).2 h
  | _ =>
    constructor
    · rintro ⟨name, -, message, h⟩
      cases h
    · rintro ⟨operation, ⟨name, arguments, -, h, -⟩, -⟩
      cases h

/-- No other method leaks. -/
theorem unhandled_call (runtime : McpRuntime) (method : PyStr) (params : List (PyStr × PyJson)) :
    Unhandled (runtime.call library manager method params).2 ↔
      runtime.initialized = true ∧ method = ofString "tools/call" ∧ ∃ operation, Calls library params operation ∧
        Leaks manager operation := by
  rw [← unhandled_callTool]
  have hno : ∀ e : Raised, Plain e → ¬Unhandled (throw e : Except Raised PyJson) := by
    rintro e he ⟨message, h⟩
    cases h
    exact he.1 message rfl
  have hyes : ∀ result : PyJson, ¬Unhandled (pure result : Except Raised PyJson) := by
    rintro result ⟨message, h⟩
    cases h
  have hother : ∀ {name : String} {x : Except Raised PyJson}, name ≠ "tools/call" → method = ofString name → ¬Unhandled x →
      (Unhandled x ↔ runtime.initialized = true ∧ method = ofString "tools/call" ∧
        Unhandled (McpRuntime.callTool library manager params)) := by
    rintro name x hname rfl hx
    exact iff_of_false hx fun h => hname (ofString_injective h.2.1)
  unfold McpRuntime.call
  split
  · rename_i hmethod
    refine hother (by decide) hmethod ?_
    split
    · exact hno _ (plain_typeError _)
    · split
      · exact hno _ (plain_typeError _)
      · split
        · exact hno _ (plain_typeError _)
        · exact hyes _
  · split
    · rename_i hmethod
      exact hother (by decide) hmethod (hyes _)
    · split
      · rename_i hmethod
        refine hother (by decide) hmethod ?_
        split
        · exact hno _ (plain_rpcError _ _)
        · exact hyes _
      · split
        · rename_i hinitialized
          refine iff_of_false (hno _ (plain_rpcError _ _)) fun h => ?_
          rw [h.1] at hinitialized
          cases hinitialized
        · rename_i hinitialized
          split
          · rename_i hmethod
            exact hother (by decide) hmethod (hyes _)
          · split
            · rename_i hmethod
              exact ⟨fun h => ⟨by simpa using hinitialized, hmethod, h⟩, fun h => h.2.2⟩
            · rename_i hmethod
              refine iff_of_false ?_ fun h => hmethod h.2.1
              rintro ⟨message, h⟩
              cases h

/-! ## The MCP dispatcher -/

/-- The members of the envelope that are checked before the identifier is read are right. -/
def validEnvelope (request : List (PyStr × PyJson)) : Bool :=
  getD request "jsonrpc" .null = .str "2.0" && isStr (getD request "method" .null)

/-- The request calls the tool: it is valid and the server is initialized. -/
structure Reaches (runtime : McpRuntime) (request : List (PyStr × PyJson)) (operation : ToolOperation) : Prop where
  initialized : runtime.initialized = true
  invokes : ∃ params, Invokes request (ofString "tools/call") params ∧ Calls library params operation

/-- A request whose identifier is one when the rest of the envelope is right, and is none when it is not; and that calls no tool with
an operation that raises an exception without a handler. -/
def McpAnswerable (runtime : McpRuntime) : PyJson → Prop
  | .obj request =>
    (if validEnvelope request = true then isRequestId (getD request "id" .null) = true else requestIdOf (.obj request) = .null) ∧
      ∀ operation, Reaches library runtime request operation → ¬Leaks manager operation
  | _ => True

/-- The identifier that the MCP dispatcher has read when it answers. -/
def mcpIdOf : PyJson → PyJson
  | .obj request => if validEnvelope request = true then getD request "id" .null else .null
  | _ => .null

theorem McpRuntime.answer_id (runtime : McpRuntime) (request : PyJson) :
    (runtime.answer library manager request).2.1 = mcpIdOf request := by
  cases request with
  | obj request =>
    unfold McpRuntime.answer mcpIdOf validEnvelope
    dsimp only
    split
    · rename_i method hjsonrpc hmethod
      have hvalid : (decide (getD request "jsonrpc" .null = .str "2.0") && isStr (getD request "method" .null)) = true := by
        rw [hjsonrpc, hmethod]
        rfl
      rw [if_pos hvalid]
      split
      · rfl
      · split <;> rfl
    · rename_i hno
      rw [if_neg]
      rw [Bool.and_eq_true]
      rintro ⟨hjsonrpc, hmethod⟩
      cases hvalue : getD request "method" .null with
      | str method => exact hno method hjsonrpc hvalue
      | _ => rw [hvalue] at hmethod; cases hmethod
  | _ => rfl

/-- An exception without a handler comes from an operation of the tool that the request calls. -/
theorem McpRuntime.answer_unhandled (runtime : McpRuntime) (request : List (PyStr × PyJson)) :
    Unhandled (runtime.answer library manager (.obj request)).2.2 ↔
      ∃ operation, Reaches library runtime request operation ∧ Leaks manager operation := by
  have hno : ∀ code message, ¬Unhandled (throw (.rpcError code message none) : Except Raised PyJson) := by
    rintro code message ⟨text, h⟩
    cases h
  unfold McpRuntime.answer
  dsimp only
  split
  · rename_i method hjsonrpc hmethod
    split
    · rename_i hrefused
      refine iff_of_false (hno _ _) ?_
      rintro ⟨operation, hreaches, -⟩
      obtain ⟨params, hinvokes, -⟩ := hreaches.invokes
      rw [hinvokes.id] at hrefused
      exact absurd hrefused.2 Bool.false_ne_true
    · rename_i hvalid
      have hid := isRequestId_of_not_refused hvalid
      split
      · rename_i params hparams
        refine (unhandled_call library manager runtime method params).trans ⟨?_, ?_⟩
        · rintro ⟨hinitialized, rfl, operation, hcalls, hleaks⟩
          exact ⟨operation, ⟨hinitialized, params, ⟨of_decide_eq_true hjsonrpc, hmethod, hid, hparams⟩, hcalls⟩, hleaks⟩
        · rintro ⟨operation, ⟨hinitialized, params', hinvokes, hcalls⟩, hleaks⟩
          cases hparams.symm.trans hinvokes.params
          exact ⟨hinitialized, PyJson.str.inj (hmethod.symm.trans hinvokes.method), operation, hcalls, hleaks⟩
      · rename_i hparams
        refine iff_of_false (hno _ _) ?_
        rintro ⟨operation, ⟨-, params, hinvokes, -⟩, -⟩
        exact absurd hinvokes.params (hparams params)
  · rename_i hinvalid
    refine iff_of_false (hno _ _) ?_
    rintro ⟨operation, ⟨-, params, hinvokes, -⟩, -⟩
    exact absurd hinvokes.method (hinvalid _ (decide_eq_true hinvokes.jsonrpc))

/-- The identifier that the MCP dispatcher has read is the one of the request, but for a notification. -/
theorem mcp_id_iff (request : List (PyStr × PyJson)) :
    (isNotification (.obj request) = true ∨
        (if validEnvelope request = true then getD request "id" .null else .null) = requestIdOf (.obj request)) ↔
      if validEnvelope request = true then isRequestId (getD request "id" .null) = true
      else requestIdOf (.obj request) = .null := by
  have hnotification : isNotification (.obj request) = true → getD request "id" .null = .null := fun h => by
    have hnone : PyJson.get? request "id" = none := by simpa [isNotification] using h
    simp [getD, hnone]
  split
  · unfold requestIdOf
    dsimp only
    constructor
    · rintro (h | h)
      · rw [hnotification h]
        rfl
      · by_contra hid
        rw [if_neg hid] at h
        rw [h] at hid
        exact hid rfl
    · intro hid
      exact Or.inr (by rw [if_pos hid])
  · constructor
    · rintro (h | h)
      · exact requestIdOf_of_notification h
      · exact h.symm
    · intro h
      exact Or.inr h.symm

/-- The MCP dispatcher lets an exception without a handler through, or returns an envelope with the identifier that it has read, but for a
notification. -/
theorem McpRuntime.dispatch_cases (runtime : McpRuntime) (request : PyJson) :
    (Unhandled (runtime.answer library manager request).2.2 ∧ ∃ e, (runtime.dispatch library manager request).2 = .error e) ∨
      ¬Unhandled (runtime.answer library manager request).2.2 ∧ ∃ envelope, IsEnvelope (mcpIdOf request) envelope ∧
        (runtime.dispatch library manager request).2 = pure (if isNotification request = true then none else some envelope) ∧
        (Clean envelope ↔ Clean (mcpIdOf request) ∧ McpSendable library manager runtime request) := by
  have hid := McpRuntime.answer_id library manager runtime request
  have hcarried := McpRuntime.carried_answer library manager runtime request
  rw [← hid, ← hcarried]
  unfold McpRuntime.dispatch
  split
  · rename_i runtime' requestId result hanswer
    rw [hanswer]
    exact .inr ⟨unhandled_ok _, _, isEnvelope_result _ _, rfl, clean_resultResponse⟩
  · rename_i runtime' requestId e hanswer
    rw [hanswer]
    dsimp only
    split
    · rename_i code message data hreport
      refine .inr ⟨?_, _, isEnvelope_error _ _ _ _, rfl, McpRuntime.clean_report hreport⟩
      rintro ⟨text, h⟩
      cases h
      cases hreport
    · rename_i hreport
      refine .inl ⟨?_, e, rfl⟩
      cases e with
      | other message => exact ⟨message, rfl⟩
      | _ => cases hreport

/-- The MCP dispatcher answers the requests that meet `McpAnswerable`. -/
theorem mcp_answerable_iff (runtime : McpRuntime) (request : PyJson) :
    McpAnswerable library manager runtime request ↔
      ¬Unhandled (runtime.answer library manager request).2.2 ∧
        (isNotification request = true ∨ mcpIdOf request = requestIdOf request) := by
  cases request with
  | obj request =>
    rw [McpRuntime.answer_unhandled, mcpIdOf, mcp_id_iff, McpAnswerable, not_exists, and_comm]
    simp only [not_and]
  | _ =>
    refine iff_of_true trivial ⟨?_, .inr rfl⟩
    rintro ⟨message, h⟩
    cases h

/-- Every request gets its one response, and one line, from the JSON-RPC dispatcher, unless the identifier or what the response has beside
it has a surrogate; from the MCP dispatcher exactly when the request meets `McpAnswerable` besides. -/
theorem one_response_iff (maxRequestBytes : Nat) (rpc : JsonRpcRuntime) (mcp : McpRuntime) (request : PyJson) :
    ((Answers request (rpc.dispatch library manager request).2 ∧
        (respond library maxRequestBytes (fun request => (rpc.dispatch library manager request).2) (.request request)).length =
          if isNotification request = true then 0 else 1) ↔
        (isNotification request = true ∨ Clean (requestIdOf request) ∧ RpcSendable library manager request)) ∧
      ((Answers request (mcp.dispatch library manager request).2 ∧
          (respond library maxRequestBytes (fun request => (mcp.dispatch library manager request).2) (.request request)).length =
            if isNotification request = true then 0 else 1) ↔
        McpAnswerable library manager mcp request ∧
          (isNotification request = true ∨ Clean (requestIdOf request) ∧ McpSendable library manager mcp request)) := by
  constructor
  · obtain ⟨envelope, henvelope, hdispatch, hclean⟩ := rpc.dispatch_envelope library manager request
    have hanswered := answered_of_envelope library (fun request => (rpc.dispatch library manager request).2) henvelope hdispatch
      maxRequestBytes
    rw [hclean, eq_self, true_and] at hanswered
    exact hanswered
  · rw [mcp_answerable_iff]
    rcases mcp.dispatch_cases library manager request with ⟨hunhandled, e, hdispatch⟩ | ⟨hhandled, envelope, henvelope, hdispatch, hclean⟩
    · refine iff_of_false ?_ fun h => h.1.1 hunhandled
      rintro ⟨⟨response, hresponse, -⟩, -⟩
      cases hdispatch.symm.trans hresponse
    · have hanswered := answered_of_envelope library (fun request => (mcp.dispatch library manager request).2) henvelope
        hdispatch maxRequestBytes
      rw [hclean] at hanswered
      rw [and_iff_right hhandled, ← or_and_left]
      refine hanswered.trans (or_congr_right (and_congr_right fun hid => ?_))
      rw [hid]

namespace Sample

def python : Library :=
  { float := PyJson.ratText, repr := fun _ => "", b64decode := fun _ => .error "Incorrect padding", version := "" }

/-- A manager with one session, which is gone for every operation but the writes, and whose process has closed its input. -/
def inputClosed : Manager :=
  let gone : ExecutionError := { code := .sessionNotFound, stage := .validate, message := "session does not exist" }
  { start := fun _ => .error (.sharkRailError gone)
    listSessions := .ok (.arr [])
    inspect := fun _ => .error (.sharkRailError gone)
    get := fun _ => .error (.sharkRailError gone)
    maxEventPageSize := 1000
    eventPage := fun _ _ _ _ => .error (.sharkRailError gone)
    write := fun _ _ => .error (.other "[Errno 32] Broken pipe")
    closeStdin := fun _ => .error (.sharkRailError gone)
    resize := fun _ _ _ => .error (.sharkRailError gone)
    interrupt := fun _ => .error (.sharkRailError gone)
    cancel := fun _ _ => .error (.sharkRailError gone)
    wait := fun _ _ => .error (.sharkRailError gone)
    dispose := fun _ => .error (.sharkRailError gone)
    stats := .ok []
    activeSessions := .ok (.int 0)
    averageDurationMs := .int 0
    collect := .ok { modes := ["pipe"], degradedReasons := [], dict := .obj [] }
    protocolSchema := .ok (.obj []) }

/-- `runtime.hello`, with an identifier that is a lone surrogate. -/
def surrogateId : PyJson :=
  .obj [("jsonrpc", .str "2.0"), ("id", .str [CodePoint.ofNat 0xD800]), ("method", .str "runtime.hello")]

/-- `tools/call` of `sharkrail_session_write`. -/
def write : PyJson :=
  .obj
    [("jsonrpc", .str "2.0"), ("id", .int 7), ("method", .str "tools/call"),
      ("params",
        .obj
          [("name", .str "sharkrail_session_write"), ("arguments", .obj [("sessionId", .str "s"), ("text", .str "x")])])]

end Sample

/-- A write to a process that has closed its input raises `BrokenPipeError`, which leaves the MCP dispatcher. And no line is written for a
request whose identifier is a lone surrogate, by neither server. -/
theorem broken_pipe_leaves :
    (¬∀ (library : Library) (manager : Manager) (mcp : McpRuntime) (request : PyJson),
      Answers request (mcp.dispatch library manager request).2) ∧
    respond Sample.python 65536 (fun request => (JsonRpcRuntime.dispatch Sample.python Sample.inputClosed {} request).2)
      (.request Sample.surrogateId) = [] ∧
    respond Sample.python 65536 (fun request => (McpRuntime.dispatch Sample.python Sample.inputClosed {} request).2)
      (.request Sample.surrogateId) = [] := by
  refine ⟨fun h => ?_, by decide +kernel, by decide +kernel⟩
  obtain ⟨response, hresponse, -⟩ := h Sample.python Sample.inputClosed { initializeReplied := true, initialized := true } Sample.write
  cases hresponse

end Integrations

end SharkRail
