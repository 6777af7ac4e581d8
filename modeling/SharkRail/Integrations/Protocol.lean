import SharkRail.Jobs.SpecText
import SharkRail.Service.Output

/-!
# The JSON-RPC adapter

`JsonRpcRuntime.dispatch` and what it calls: the readers of request parameters, the methods, and the envelopes of responses. The
session manager is a parameter, so that each of its operations may return or raise anything. A string of a request is one of code points: a
surrogate may be one of them, and the stream that responses are written to has no bytes for it.
-/

namespace SharkRail

namespace Integrations

inductive ErrorCode where
  | executableNotFound
  | startFailed
  | invalidRequest
  | capabilityNotSupported
  | sessionNotFound
  | invalidSessionState
  | internalError
  | resourceLimited
  | drainTimeout
  | terminationFailed
  | eventCursorExpired
  | sessionExpired
  | idleTimeout
  | policyDenied
  deriving DecidableEq

def ErrorCode.value : ErrorCode → String
  | .executableNotFound => "EXECUTABLE_NOT_FOUND"
  | .startFailed => "START_FAILED"
  | .invalidRequest => "INVALID_REQUEST"
  | .capabilityNotSupported => "CAPABILITY_NOT_SUPPORTED"
  | .sessionNotFound => "SESSION_NOT_FOUND"
  | .invalidSessionState => "INVALID_SESSION_STATE"
  | .internalError => "INTERNAL_ERROR"
  | .resourceLimited => "RESOURCE_LIMITED"
  | .drainTimeout => "DRAIN_TIMEOUT"
  | .terminationFailed => "TERMINATION_FAILED"
  | .eventCursorExpired => "EVENT_CURSOR_EXPIRED"
  | .sessionExpired => "SESSION_EXPIRED"
  | .idleTimeout => "IDLE_TIMEOUT"
  | .policyDenied => "POLICY_DENIED"

inductive ErrorStage where
  | validate
  | start
  | run
  | drain
  | dispose
  deriving DecidableEq

def ErrorStage.value : ErrorStage → String
  | .validate => "validate"
  | .start => "start"
  | .run => "run"
  | .drain => "drain"
  | .dispose => "dispose"

structure ExecutionError where
  code : ErrorCode
  stage : ErrorStage
  message : PyStr
  retryable : Bool := false
  native : List (PyStr × PyJson) := []
  deriving DecidableEq

def ExecutionError.toDict (e : ExecutionError) : PyJson :=
  .obj
    [("code", .str e.code.value), ("stage", .str e.stage.value), ("message", .str e.message), ("retryable", .bool e.retryable),
      ("native", .obj e.native)]

/-- An exception, by the class that the handlers tell apart: `JsonRpcError` or `McpError`, `SharkRailError`, the three classes of bad
arguments, and every other one. -/
inductive Raised where
  | rpcError (code : Int) (message : PyStr) (data : Option PyJson)
  | sharkRailError (error : ExecutionError)
  | keyError (key : String)
  | typeError (message : PyStr)
  | valueError (message : PyStr)
  | other (message : PyStr)
  deriving DecidableEq

/-- `str(err)`. -/
def Raised.text : Raised → PyStr
  | .rpcError _ message _ | .typeError message | .valueError message | .other message => message
  | .sharkRailError error => error.message
  | .keyError key => ("'" ++ key ++ "'" : String)

/-- What the standard library writes and reads, as far as the adapters use it: the texts of floats, `repr`, which writes a surrogate as its
escape, `base64.b64decode(validate=True)`, and the version of the package. -/
structure Library where
  float : PyJson.FloatText
  repr : PyJson → String
  b64decode : PyStr → Except String Bytes
  version : String

/-! ## Parameters -/

/-- `params.get(key, default)`. -/
def getD (params : List (PyStr × PyJson)) (key : String) (default : PyJson) : PyJson := (PyJson.get? params key).getD default

/-- `_required_str`, and `_required_string`. -/
def requiredStr (params : List (PyStr × PyJson)) (key : String) : Except Raised PyStr :=
  match PyJson.get? params key with
  | none => throw (.keyError key)
  | some (.str s) => if s = [] then throw (.typeError (key ++ " must be a non-empty string" : String)) else pure s
  | some _ => throw (.typeError (key ++ " must be a non-empty string" : String))

/-- `_optional_int`, and `_optional_integer`. -/
def optionalInt (params : List (PyStr × PyJson)) (key : String) : Except Raised (Option Int) :=
  match getD params key .null with
  | .null => pure none
  | .int n => pure (some n)
  | _ => throw (.typeError (key ++ " must be an integer" : String))

/-- `_bounded_int`. A parameter without a default is required. -/
def boundedInt (params : List (PyStr × PyJson)) (key : String) (default minimum maximum : Option Int) : Except Raised Int :=
  match PyJson.get? params key with
  | none =>
    match default with
    | none => throw (.keyError key)
    | some n => pure n
  | some (.int n) =>
    if minimum.any (n < ·) then throw (.valueError (key ++ " must be at least " ++ toString (minimum.getD 0) : String))
    else if maximum.any (· < n) then throw (.valueError (key ++ " must be no greater than " ++ toString (maximum.getD 0) : String))
    else pure n
  | some _ => throw (.typeError (key ++ " must be an integer" : String))

/-- `_optional_bounded_int`. -/
def optionalBoundedInt (params : List (PyStr × PyJson)) (key : String) (minimum maximum : Option Int) :
    Except Raised (Option Int) :=
  if getD params key .null = .null then pure none else some <$> boundedInt params key none minimum maximum

/-- `_optional_bool`. -/
def optionalBool (params : List (PyStr × PyJson)) (key : String) (default : Bool) : Except Raised Bool :=
  match PyJson.get? params key with
  | none => pure default
  | some (.bool b) => pure b
  | some _ => throw (.typeError (key ++ " must be a boolean" : String))

def maxControlWaitMs : Int := 24 * 60 * 60 * 1000
def maxCancellationGraceMs : Int := 5 * 60 * 1000
def maxTerminalDimension : Int := 65535

/-! ## Command specifications -/

inductive CommandMode where
  | pipe
  | pty
  deriving DecidableEq

structure ResourceLimits where
  memoryBytes : Option Int := none
  cpuTimeSeconds : Option Int := none
  processCount : Option Int := none
  deriving DecidableEq

/-- A command; the fields that the adapters pass on unchecked hold any JSON value. -/
structure CommandSpec where
  executable : PyStr
  argv : List PyJson
  cwd : PyJson := .null
  env : Option (List (PyStr × PyJson)) := none
  inheritEnv : PyJson := .bool true
  mode : CommandMode := .pipe
  resources : ResourceLimits := {}
  deriving DecidableEq

inductive Shell where
  | cmd
  | powershell
  | pwsh
  | bash
  | zsh
  deriving DecidableEq

def Shell.value : Shell → String
  | .cmd => "cmd"
  | .powershell => "powershell"
  | .pwsh => "pwsh"
  | .bash => "bash"
  | .zsh => "zsh"

inductive Target where
  | native
  | wsl
  deriving DecidableEq

structure WslOptions where
  distribution : PyJson := .null
  user : PyJson := .null
  cwd : PyJson := .null

/-- A member of an enumeration, by its value. -/
def enumOf {α : Type} (library : Library) (name : String) (members : List (String × α)) (value : PyJson) : Except Raised α :=
  match members.find? fun m => value = .str m.1 with
  | some m => pure m.2
  | none => throw (.valueError (library.repr value ++ " is not a valid " ++ name : String))

def commandMode (library : Library) : PyJson → Except Raised CommandMode :=
  enumOf library "CommandMode" [("pipe", .pipe), ("pty", .pty)]

/-- A value that counts as true. -/
def truthy : PyJson → Bool
  | .null => false
  | .bool b => b
  | .int n => n ≠ 0
  | .float x => x ≠ .finite 0
  | .str s => s ≠ []
  | .arr items => !items.isEmpty
  | .obj members => !members.isEmpty

def wslSpec (command : List PyJson) (options : WslOptions) (spec : CommandSpec) : CommandSpec :=
  let option (name : String) (value : PyJson) := if truthy value then [.str name, value] else []
  { spec with
    executable := "wsl.exe"
    argv := option "--distribution" options.distribution ++ option "--user" options.user ++ option "--cd" options.cwd ++
      [.str "--exec"] ++ command
    cwd := .null }

/-- `direct_command`; `spec` holds what both kinds of command have. -/
def directCommand (executable : PyStr) (argv : List PyJson) (target : Target) (wsl : WslOptions) (spec : CommandSpec) : CommandSpec :=
  match target with
  | .wsl => wslSpec (.str executable :: argv) wsl spec
  | .native => { spec with executable, argv }

/-- `shell_command` of a POSIX host. -/
def shellCommand (shell : Shell) (script : PyStr) (target : Target) (wsl : WslOptions) (spec : CommandSpec) :
    Except Raised CommandSpec :=
  let powershellArgv : List PyJson := [.str "-NoLogo", .str "-NoProfile", .str "-NonInteractive", .str "-Command", .str script]
  if script = [] then throw (.valueError "shell script must be non-empty")
  else
    match target, shell with
    | .wsl, .bash | .wsl, .zsh => pure (wslSpec [.str shell.value, .str "-lc", .str script] wsl spec)
    | .wsl, _ => throw (.valueError "WSL target supports bash and zsh shell requests")
    | .native, .cmd => pure { spec with executable := "cmd.exe", argv := [.str "/d", .str "/s", .str "/c", .str script] }
    | .native, .powershell => pure { spec with executable := "powershell", argv := powershellArgv }
    | .native, .pwsh => pure { spec with executable := "pwsh", argv := powershellArgv }
    | .native, _ => pure { spec with executable := shell.value, argv := [.str "-lc", .str script] }

/-- An array of strings, under a name. -/
def stringArray (name : String) : PyJson → Except Raised (List PyJson)
  | .arr items => if items.all isStr then pure items else throw (.typeError (name ++ " must be an array of strings" : String))
  | _ => throw (.typeError (name ++ " must be an array of strings" : String))

def environment : PyJson → Except Raised (Option (List (PyStr × PyJson)))
  | .null => pure none
  | .obj env =>
    if env.all fun m => isStr m.2 then pure (some env) else throw (.typeError "env must be an object containing string values")
  | _ => throw (.typeError "env must be an object containing string values")

/-- A member that is an object, empty by default. -/
def objectOf (params : List (PyStr × PyJson)) (key : String) : Except Raised (List (PyStr × PyJson)) :=
  match getD params key (.obj []) with
  | .obj members => pure members
  | _ => throw (.typeError (key ++ " must be an object" : String))

/-- `_parse_resources`. -/
def parseResources (spec : List (PyStr × PyJson)) : Except Raised ResourceLimits := do
  let resources ← objectOf spec "resources"
  pure
    { memoryBytes := ← optionalInt resources "memory_bytes"
      cpuTimeSeconds := ← optionalInt resources "cpu_time_seconds"
      processCount := ← optionalInt resources "process_count" }

/-- `_parse_spec`. -/
def parseSpec (library : Library) (params : List (PyStr × PyJson)) : Except Raised CommandSpec := do
  let spec ← match getD params "spec" (.obj params) with
    | .obj spec => pure spec
    | _ => throw (.typeError "spec must be an object")
  let argv ← stringArray "argv" (getD spec "argv" (.arr []))
  let env ← environment (getD spec "env" .null)
  let target ← enumOf library "Target" [("native", .native), ("wsl", .wsl)] (getD spec "target" (.str "native"))
  let wslData ← objectOf spec "wsl"
  let wsl : WslOptions :=
    { distribution := getD wslData "distribution" .null, user := getD wslData "user" .null, cwd := getD wslData "cwd" .null }
  let common : CommandSpec :=
    { executable := "", argv := [], cwd := getD spec "cwd" .null, env
      inheritEnv := getD spec "inherit_env" (.bool true)
      mode := ← commandMode library (getD spec "mode" (.str "pipe"))
      resources := ← parseResources spec }
  match PyJson.get? spec "shell" with
  | some value =>
    let shell ← enumOf library "Shell"
      [("cmd", .cmd), ("powershell", .powershell), ("pwsh", .pwsh), ("bash", .bash), ("zsh", .zsh)] value
    shellCommand shell (← requiredStr spec "script") target wsl common
  | none => pure (directCommand (← requiredStr spec "executable") argv target wsl common)

/-- What `base64.b64decode` returns or raises. -/
def decodeBase64 (library : Library) (text : PyStr) : Except Raised Bytes :=
  match library.b64decode text with
  | .ok data => pure data
  | .error message => throw (.valueError message)

/-- `text.encode("utf-8")`. -/
def encodeText (text : PyStr) : Except Raised Bytes :=
  match PyStr.encode text with
  | some data => pure data
  | none => throw (.valueError text.encodeError)

/-- `_parse_input`. -/
def parseInput (library : Library) (params : List (PyStr × PyJson)) : Except Raised Bytes :=
  if (PyJson.get? params "data_base64").isSome then do decodeBase64 library (← requiredStr params "data_base64")
  else if (PyJson.get? params "text").isSome then do encodeText (← requiredStr params "text")
  else throw (.keyError "text or data_base64 is required")

/-! ## The session manager -/

structure StartRequest where
  spec : CommandSpec
  timeoutMs : Option Int
  idleTimeoutMs : Option Int
  maxOutputBytes : Option Int
  traceId : Option PyStr := none
  requestId : Option PyStr := none

structure CancellationPolicy where
  interruptGraceMs : Int := 1000
  terminateGraceMs : Int := 1000
  killTreeGraceMs : Int := 2000
  skipInterrupt : Bool := false

structure StartedSession where
  id : PyStr
  state : PyJson
  pid : PyJson
  mode : PyJson
  processTree : PyJson
  degradedReasons : PyJson
  traceId : PyJson
  requestId : PyJson
  createdAt : PyJson
  firstEventSeq : PyJson
  nextEventSeq : PyJson

/-- A result, by its exit code and what `_result_dict` makes of it. -/
structure SessionResult where
  exitCode : Int
  dict : PyJson

/-- The capabilities, by what `_capability_dict` makes of them and the parts that are read. -/
structure Capability where
  modes : List String
  degradedReasons : List PyJson
  dict : PyJson

/-- A page, by what `_event_dict` makes of its events. -/
structure EventPage where
  events : List PyJson
  nextCursor : Int
  hasMore : Bool

/-- The operations of a `SessionManager`, and the others that a method reads something from: what each returns or raises. -/
structure Manager where
  start : StartRequest → Except Raised StartedSession
  listSessions : Except Raised PyJson
  inspect : PyStr → Except Raised PyJson
  get : PyStr → Except Raised StartedSession
  maxEventPageSize : Int
  eventPage : PyStr → Int → Int → Int → Except Raised EventPage
  write : PyStr → Bytes → Except Raised Unit
  closeStdin : PyStr → Except Raised Unit
  resize : PyStr → Int → Int → Except Raised Unit
  interrupt : PyStr → Except Raised Unit
  cancel : PyStr → CancellationPolicy → Except Raised PyJson
  wait : PyStr → Option Int → Except Raised (Option SessionResult)
  dispose : PyStr → Except Raised Unit
  stats : Except Raised (List (PyStr × PyJson))
  activeSessions : Except Raised PyJson
  averageDurationMs : PyJson
  collect : Except Raised Capability
  protocolSchema : Except Raised PyJson

/-- `_session_dict`. -/
def sessionDict (session : StartedSession) : PyJson :=
  .obj
    [("session_id", .str session.id), ("state", session.state), ("pid", session.pid), ("mode", session.mode),
      ("process_tree", session.processTree), ("degraded_reasons", session.degradedReasons), ("trace_id", session.traceId),
      ("request_id", session.requestId), ("created_at", session.createdAt), ("first_cursor", session.firstEventSeq),
      ("next_cursor", session.nextEventSeq)]

/-! ## Envelopes -/

/-- A request may have this identifier. -/
def isRequestId : PyJson → Bool
  | .str _ | .int _ | .null => true
  | _ => false

def resultResponse (requestId result : PyJson) : PyJson := .obj [("jsonrpc", .str "2.0"), ("id", requestId), ("result", result)]

/-- `_error_response`. -/
def errorResponse (requestId : PyJson) (code : Int) (message : PyStr) (data : Option PyJson) : PyJson :=
  let error : List (PyStr × PyJson) :=
    [(PyStr.ofString "code", PyJson.int code), (PyStr.ofString "message", PyJson.str message)] ++
      (data.map fun data => (PyStr.ofString "data", data)).toList
  .obj [("jsonrpc", .str "2.0"), ("id", requestId), ("error", .obj error)]

/-- The request has no `id` member. -/
def isNotification : PyJson → Bool
  | .obj request => (PyJson.get? request "id").isNone
  | _ => false

/-! ## The methods -/

/-- A method with its parameters read, at the operations of the manager that it calls. -/
inductive RpcCall where
  | hello
  | capabilities
  | schema
  | stats
  | health
  | start (request : StartRequest)
  | list
  | inspect (sessionId : PyStr)
  | get (sessionId : PyStr)
  | events (sessionId : PyStr) (cursor waitMs limit : Int)
  | write (sessionId : PyStr) (data : Bytes)
  | closeStdin (sessionId : PyStr)
  | resize (sessionId : PyStr) (cols rows : Int)
  | interrupt (sessionId : PyStr)
  | cancel (sessionId : PyStr) (policy : CancellationPolicy)
  | wait (sessionId : PyStr) (timeoutMs : Option Int)
  | dispose (sessionId : PyStr)

/-- The `trace_id` of a start. -/
def traceIdOf : PyJson → Except Raised (Option PyStr)
  | .null => pure none
  | .str s => if s = [] then throw (.typeError "trace_id must be a non-empty string") else pure (some s)
  | _ => throw (.typeError "trace_id must be a non-empty string")

/-- The identifier that a session keeps of the request that started it. -/
def keptId : PyJson → Option PyStr
  | .str s => some s
  | .int n => some (PyJson.intText n)
  | _ => none

/-- The arguments of `manager.start`. -/
def readStart (library : Library) (params : List (PyStr × PyJson)) (requestId : PyJson) : Except Raised StartRequest := do
  let traceId ← traceIdOf (getD params "trace_id" .null)
  pure
    { spec := ← parseSpec library params
      timeoutMs := ← optionalInt params "timeout_ms"
      idleTimeoutMs := ← optionalInt params "idle_timeout_ms"
      maxOutputBytes := ← optionalInt params "max_output_bytes"
      traceId
      requestId := keptId requestId }

/-- The arguments of `manager.cancel`. -/
def readCancellation (params : List (PyStr × PyJson)) : Except Raised CancellationPolicy := do
  pure
    { interruptGraceMs := ← boundedInt params "interrupt_grace_ms" (some 1000) (some 0) (some maxCancellationGraceMs)
      terminateGraceMs := ← boundedInt params "terminate_grace_ms" (some 1000) (some 0) (some maxCancellationGraceMs)
      killTreeGraceMs := ← boundedInt params "kill_tree_grace_ms" (some 2000) (some 1) (some maxCancellationGraceMs)
      skipInterrupt := ← optionalBool params "force" false }

/-- `_call`, up to the operations: the parameters of a method are read. -/
def readMethod (library : Library) (maxPageSize : Int) (method : PyStr) (params : List (PyStr × PyJson)) (requestId : PyJson) :
    Except Raised RpcCall := do
  if method = "runtime.hello" then pure .hello
  else if method = "runtime.capabilities" then pure .capabilities
  else if method = "runtime.schema" then pure .schema
  else if method = "runtime.stats" then pure .stats
  else if method = "runtime.health" then pure .health
  else if method = "session.start" then pure (.start (← readStart library params requestId))
  else if method = "session.list" then pure .list
  else if method = "session.inspect" then pure (.inspect (← requiredStr params "session_id"))
  else if method = "session.get" then pure (.get (← requiredStr params "session_id"))
  else if method = "session.subscribe" ∨ method = "session.events" then
    let sessionId ← requiredStr params "session_id"
    let cursor ← boundedInt params "cursor" (some 0) (some 0) none
    let waitMs ← boundedInt params "wait_ms" (some 0) (some 0) (some maxControlWaitMs)
    let limit ← boundedInt params "limit" (some maxPageSize) (some 1) (some maxPageSize)
    pure (.events sessionId cursor waitMs limit)
  else if method = "session.write" then pure (.write (← requiredStr params "session_id") (← parseInput library params))
  else if method = "session.close_stdin" then pure (.closeStdin (← requiredStr params "session_id"))
  else if method = "session.resize" then
    pure (.resize (← requiredStr params "session_id") (← boundedInt params "cols" none (some 1) (some maxTerminalDimension))
      (← boundedInt params "rows" none (some 1) (some maxTerminalDimension)))
  else if method = "session.interrupt" then pure (.interrupt (← requiredStr params "session_id"))
  else if method = "session.cancel" then pure (.cancel (← requiredStr params "session_id") (← readCancellation params))
  else if method = "session.wait" then
    pure (.wait (← requiredStr params "session_id") (← optionalBoundedInt params "wait_timeout_ms" (some 0) (some maxControlWaitMs)))
  else if method = "session.dispose" then pure (.dispose (← requiredStr params "session_id"))
  else throw (.rpcError (-32601) "Method not found" (some (.obj [("method", .str method)])))

/-! ## The dispatcher -/

structure JsonRpcRuntime where
  rpcRequests : Nat := 0
  rpcErrors : Nat := 0
  deriving DecidableEq

namespace JsonRpcRuntime

variable (library : Library) (manager : Manager)

/-- `_call`, from the operations on. -/
def perform (runtime : JsonRpcRuntime) : RpcCall → Except Raised PyJson
  | .hello =>
    pure (.obj [("runtime", .str "SharkRail"), ("runtime_version", .str library.version), ("protocol_version", .str "1.0.0")])
  | .capabilities => do pure (← manager.collect).dict
  | .schema => manager.protocolSchema
  | .stats => do
    let stats ← manager.stats
    let rpc : List (PyStr × PyJson) :=
      [("requests", .int runtime.rpcRequests), ("errors", .int runtime.rpcErrors), ("average_duration_ms", manager.averageDurationMs)]
    pure (.obj (PyJson.set stats "rpc" (.obj rpc)))
  | .health => do
    let capability ← manager.collect
    let active ← manager.activeSessions
    pure (.obj
      [("status", .str (if capability.degradedReasons.isEmpty then "ok" else "degraded" : String)), ("live", .bool true),
        ("ready", .bool (capability.modes.contains "pipe")), ("degraded_reasons", .arr capability.degradedReasons),
        ("active_sessions", active)])
  | .start request => do pure (sessionDict (← manager.start request))
  | .list => do pure (.obj [("sessions", ← manager.listSessions)])
  | .inspect sessionId => manager.inspect sessionId
  | .get sessionId => do pure (sessionDict (← manager.get sessionId))
  | .events sessionId cursor waitMs limit => do
    let page ← manager.eventPage sessionId cursor waitMs limit
    pure (.obj [("events", .arr page.events), ("next_cursor", .int page.nextCursor), ("has_more", .bool page.hasMore)])
  | .write sessionId data => do
    manager.write sessionId data
    pure (.obj [("accepted", .bool true)])
  | .closeStdin sessionId => do
    manager.closeStdin sessionId
    pure (.obj [("closed", .bool true)])
  | .resize sessionId cols rows => do
    manager.resize sessionId cols rows
    pure (.obj [("resized", .bool true)])
  | .interrupt sessionId => do
    manager.interrupt sessionId
    pure (.obj [("interrupted", .bool true)])
  | .cancel sessionId policy => do pure (.obj [("steps", ← manager.cancel sessionId policy)])
  | .wait sessionId timeoutMs => do
    match ← manager.wait sessionId timeoutMs with
    | none => pure .null
    | some result => pure result.dict
  | .dispose sessionId => do
    manager.dispose sessionId
    pure (.obj [("disposed", .bool true)])

/-- `_call`: one method. -/
def call (runtime : JsonRpcRuntime) (method : PyStr) (params : List (PyStr × PyJson)) (requestId : PyJson) : Except Raised PyJson := do
  runtime.perform library manager (← readMethod library manager.maxEventPageSize method params requestId)

/-- The body of `dispatch`: the identifier it has read when it ends, and how it ends. -/
def answer (runtime : JsonRpcRuntime) : PyJson → PyJson × Except Raised PyJson
  | .obj request =>
    let candidateId := getD request "id" .null
    if (PyJson.get? request "id").isSome ∧ !isRequestId candidateId then
      (.null, throw (.rpcError (-32600) "Invalid Request" none))
    else
      (candidateId,
        match decide (getD request "jsonrpc" .null = .str "2.0"), getD request "method" .null with
        | true, .str method =>
          match getD request "params" (.obj []) with
          | .obj params => runtime.call library manager method params candidateId
          | _ => throw (.rpcError (-32602) "Invalid params" none)
        | _, _ => throw (.rpcError (-32600) "Invalid Request" none))
  | _ => (.null, throw (.rpcError (-32600) "Invalid Request" none))

/-- The code, message and data of the error that reports an exception. -/
def report (e : Raised) : Int × PyStr × Option PyJson :=
  match e with
  | .rpcError code message data => (code, message, data)
  | .sharkRailError error => (-32000, error.message, some error.toDict)
  | .keyError _ | .typeError _ | .valueError _ =>
    let error : ExecutionError := { code := .invalidRequest, stage := .validate, message := e.text }
    (-32602, "Invalid params", some error.toDict)
  | .other _ =>
    let error : ExecutionError := { code := .internalError, stage := .run, message := e.text }
    (-32603, "Internal error", some error.toDict)

/-- `dispatch`. Every exception is handled. -/
def dispatch (runtime : JsonRpcRuntime) (request : PyJson) : JsonRpcRuntime × Except Raised (Option PyJson) :=
  let runtime := { runtime with rpcRequests := runtime.rpcRequests + 1 }
  match runtime.answer library manager request with
  | (requestId, .ok result) => (runtime, pure (if isNotification request then none else some (resultResponse requestId result)))
  | (requestId, .error e) =>
    let (code, message, data) := report e
    ({ runtime with rpcErrors := runtime.rpcErrors + 1 },
      pure (if isNotification request then none else some (errorResponse requestId code message data)))

end JsonRpcRuntime

/-! ## Standard input and output -/

/-- The line that `write_response` writes, `none` where the stream has no bytes for it: `stdout.write` raises `UnicodeEncodeError`, and
writes nothing. -/
def writtenLine (F : PyJson.FloatText) (response : PyJson) : Option Bytes :=
  PyStr.encode (PyJson.dumps F ⟨false, false⟩ response ++ PyStr.ofString "\n")

/-- A line of standard input: one that is too long, one that is no JSON, or a request. -/
inductive Line where
  | oversized
  | malformed (message : String)
  | request (value : PyJson)

/-- `respond`: the lines that are written for a line. An exception of the dispatcher or of the stream ends the task, and nothing is
written. -/
def respond (library : Library) (maxRequestBytes : Nat) (dispatch : PyJson → Except Raised (Option PyJson)) : Line → List Bytes
  | .oversized =>
    let error : ExecutionError :=
      { code := .resourceLimited, stage := .validate
        message := ("request exceeds " ++ toString maxRequestBytes ++ " byte limit" : String) }
    (writtenLine library.float (errorResponse .null (-32000) error.message (some error.toDict))).toList
  | .malformed message =>
    (writtenLine library.float (errorResponse .null (-32700) "Parse error" (some (.obj [("message", .str message)])))).toList
  | .request value =>
    match dispatch value with
    | .ok (some response) => (writtenLine library.float response).toList
    | .ok none | .error _ => []

end Integrations

end SharkRail
