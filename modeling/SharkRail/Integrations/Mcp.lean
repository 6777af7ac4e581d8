import SharkRail.Integrations.ToolArguments

/-!
# The Model Context Protocol adapter

`McpRuntime.dispatch` with the tools it calls. A tool's arguments are validated and read, the operation of the manager is called, and what
it returns or raises is put in the result of the tool.
-/

namespace SharkRail

namespace Integrations

open Texts.Mcp (SchemaError ArgumentError ToolCommand ToolOperation validateToolArguments readTool)

/-- The exception of arguments that a schema refuses. -/
def schemaError (library : Library) (e : SchemaError) : Raised :=
  let message := e.message fun values => library.repr (.arr values)
  match e with
  | .wrongType .. => .typeError message
  | _ => .valueError message

/-- The exception of arguments that can not be read. -/
def argumentError (library : Library) : ArgumentError → Raised
  | .unknownTool name => .rpcError (-32602) "Unknown tool" (some (.obj [("name", .str name)]))
  | .key key => .keyError key
  | .type message => .typeError message
  | .mode value => .valueError (library.repr value ++ " is not a valid CommandMode" : String)
  | .base64 message => .valueError message
  | .unicodeEncode text => .valueError text.encodeError

/-- `direct_command`, for a tool. -/
def toolSpec (command : ToolCommand) : CommandSpec :=
  directCommand command.executable command.argv .native {}
    { executable := [], argv := [], cwd := (command.cwd.map .str).getD .null, env := command.env, inheritEnv := .bool command.inheritEnv
      mode := command.mode }

/-- The arguments of `manager.start`, for a tool. -/
def toolRequest (command : ToolCommand) (timeoutMs idleTimeoutMs maxOutputBytes : Option Int) : StartRequest :=
  { spec := toolSpec command, timeoutMs, idleTimeoutMs, maxOutputBytes }

/-- `_tool_result`. -/
def toolResult (library : Library) (value : PyJson) (isError : Bool) : PyJson :=
  .obj
    [("content", .arr [.obj [("type", .str "text"), ("text", .str (PyJson.dumps library.float ⟨false, false⟩ value))]]),
      ("structuredContent", value), ("isError", .bool isError)]

/-- A command is run to its end. The session is disposed of in any case, and an exception of that replaces every other outcome. -/
def runToEnd (manager : Manager) (request : StartRequest) : Except Raised SessionResult := do
  let session ← manager.start request
  let waited : Except Raised SessionResult :=
    match manager.wait session.id none with
    | .ok (some result) => pure result
    | .ok none => throw (.other "unbounded command wait returned without a result")
    | .error e => throw e
  manager.dispose session.id
  waited

/-- `_call_tool`, from the operations on. -/
def performTool (library : Library) (manager : Manager) : ToolOperation → Except Raised PyJson
  | .capabilities => do pure (toolResult library (← manager.collect).dict false)
  | .start command timeoutMs idleTimeoutMs maxOutputBytes true => do
    let result ← runToEnd manager (toolRequest command timeoutMs idleTimeoutMs maxOutputBytes)
    pure (toolResult library result.dict (result.exitCode ≠ 0))
  | .start command timeoutMs idleTimeoutMs maxOutputBytes false => do
    let session ← manager.start (toolRequest command timeoutMs idleTimeoutMs maxOutputBytes)
    pure (toolResult library
      (.obj
        [("sessionId", .str session.id), ("pid", session.pid), ("mode", session.mode), ("processTree", session.processTree),
          ("nextCursor", session.nextEventSeq)])
      false)
  | .eventPage sessionId cursor waitMs limit => do
    let page ← manager.eventPage sessionId cursor waitMs limit
    pure (toolResult library
      (.obj [("events", .arr page.events), ("nextCursor", .int page.nextCursor), ("hasMore", .bool page.hasMore)]) false)
  | .write sessionId data => do
    manager.write sessionId data
    pure (toolResult library (.obj [("acceptedBytes", .int data.length)]) false)
  | .wait sessionId timeoutMs => do
    let result ← manager.wait sessionId timeoutMs
    pure (toolResult library (.obj [("result", (result.map (·.dict)).getD .null)]) false)
  | .cancel sessionId => do
    let steps ← manager.cancel sessionId {}
    pure (toolResult library (.obj [("steps", steps)]) false)
  | .dispose sessionId => do
    manager.dispose sessionId
    pure (toolResult library (.obj [("disposed", .bool true)]) false)

/-! ## The dispatcher -/

structure McpRuntime where
  initializeReplied : Bool := false
  initialized : Bool := false
  deriving DecidableEq

namespace McpRuntime

variable (library : Library) (manager : Manager)

/-- The reply to `initialize`. -/
def serverInfo : PyJson :=
  .obj
    [("protocolVersion", .str "2025-11-25"), ("capabilities", .obj [("tools", .obj [("listChanged", .bool false)])]),
      ("serverInfo",
        .obj
          [("name", .str "sharkrail"), ("title", .str "SharkRail"), ("version", .str library.version),
            ("description", .str "Predictable local execution for AI agents"),
            ("websiteUrl", .str "https://github.com/SharkFury/SharkRail")]),
      ("instructions",
        .str "Use direct argv by default. Use PTY only for programs that require a terminal. The host execution policy is authoritative.")]

/-- The exceptions that a tool reports in its result; every other one goes on. -/
def toolErrors : Except Raised PyJson → Except Raised PyJson
  | .error (.sharkRailError error) => pure (toolResult library (.obj [("error", error.toDict)]) true)
  | .error (.keyError key) => invalid (.keyError key)
  | .error (.typeError message) => invalid (.typeError message)
  | .error (.valueError message) => invalid (.valueError message)
  | outcome => outcome
where
  invalid (e : Raised) : Except Raised PyJson :=
    let error : List (PyStr × PyJson) := [("code", .str "INVALID_TOOL_ARGUMENTS"), ("message", .str e.text)]
    pure (toolResult library (.obj [("error", .obj error)]) true)

/-- The method `tools/call`. -/
def callTool (params : List (PyStr × PyJson)) : Except Raised PyJson := do
  let name ← requiredStr params "name"
  match getD params "arguments" (.obj []) with
  | .obj arguments =>
    toolErrors library do
      (validateToolArguments name arguments).mapError (schemaError library)
      performTool library manager (← (readTool library.b64decode name arguments).mapError (argumentError library))
  | _ => throw (.typeError "arguments must be an object")

def isObject : PyJson → Bool
  | .obj _ => true
  | _ => false

/-- `_call`: one method. -/
def call (runtime : McpRuntime) (method : PyStr) (params : List (PyStr × PyJson)) : McpRuntime × Except Raised PyJson :=
  if method = "initialize" then
    if !isStr (getD params "protocolVersion" .null) then (runtime, throw (.typeError "protocolVersion must be a string"))
    else if !isObject (getD params "capabilities" .null) then (runtime, throw (.typeError "capabilities must be an object"))
    else if !isObject (getD params "clientInfo" .null) then (runtime, throw (.typeError "clientInfo must be an object"))
    else ({ runtime with initializeReplied := true }, pure (serverInfo library))
  else if method = "ping" then (runtime, pure (.obj []))
  else if method = "notifications/initialized" then
    if !runtime.initializeReplied then (runtime, throw (.rpcError (-32002) "Initialize request has not completed" none))
    else ({ runtime with initialized := true }, pure .null)
  else if !runtime.initialized then (runtime, throw (.rpcError (-32002) "Server is not initialized" none))
  else if method = "tools/list" then (runtime, pure (.obj [("tools", .arr (toolDefinitions.map Tool.toDict))]))
  else if method = "tools/call" then (runtime, callTool library manager params)
  else (runtime, throw (.rpcError (-32601) "Method not found" (some (.obj [("method", .str method)]))))

/-- The body of `dispatch`: the identifier it has read when it ends, and how it ends. -/
def answer (runtime : McpRuntime) : PyJson → McpRuntime × PyJson × Except Raised PyJson
  | .obj request =>
    match decide (getD request "jsonrpc" .null = .str "2.0"), getD request "method" .null with
    | true, .str method =>
      let requestId := getD request "id" .null
      if (PyJson.get? request "id").isSome ∧ !isRequestId requestId then
        (runtime, requestId, throw (.rpcError (-32600) "Invalid Request" none))
      else
        match getD request "params" (.obj []) with
        | .obj params =>
          let (runtime, result) := runtime.call library manager method params
          (runtime, requestId, result)
        | _ => (runtime, requestId, throw (.rpcError (-32602) "Invalid params" none))
    | _, _ => (runtime, .null, throw (.rpcError (-32600) "Invalid Request" none))
  | _ => (runtime, .null, throw (.rpcError (-32600) "Invalid Request" none))

/-- The code, message and data of the error that reports an exception, of a class that has a handler. -/
def report (e : Raised) : Option (Int × PyStr × Option PyJson) :=
  match e with
  | .rpcError code message data => some (code, message, data)
  | .sharkRailError error => some (-32000, error.message, some error.toDict)
  | .keyError _ | .typeError _ | .valueError _ => some (-32602, "Invalid params", some (.obj [("message", .str e.text)]))
  | .other _ => none

/-- `dispatch`. An exception without a handler leaves it. -/
def dispatch (runtime : McpRuntime) (request : PyJson) : McpRuntime × Except Raised (Option PyJson) :=
  match runtime.answer library manager request with
  | (runtime, requestId, .ok result) =>
    (runtime, pure (if isNotification request then none else some (resultResponse requestId result)))
  | (runtime, requestId, .error e) =>
    match report e with
    | some (code, message, data) =>
      (runtime, pure (if isNotification request then none else some (errorResponse requestId code message data)))
    | none => (runtime, throw e)

end McpRuntime

end Integrations

end SharkRail
