import Mathlib
import SharkRail.Runtime.PolicyFile
import SharkRail.Service.Callback
import SharkRail.Service.Configuration

/-!
# The configuration of the service

`load_config` and `validate_service_config`, with the variables of the environment that stand over the settings of the file, and
`public_dict`. A setting has any value that the file gives it until it is checked; no value is a date or a time. What the files hold, how
they are parsed and what names resolve to are parameters, on a POSIX host.
-/

namespace SharkRail

namespace Service

namespace Config

/-! ## The host -/

/-- What `read_verified_text_file` raises. -/
inductive ReadError where
  | notFound (message : String)
  | osError (message : String)
  | unicodeError (message : String)
  | valueError (message : String)
  deriving DecidableEq

def ReadError.message : ReadError → String
  | .notFound message | .osError message | .unicodeError message | .valueError message => message

/-- What a parser raises: its error, or the `RecursionError` of a text that is nested too deeply. -/
inductive ParseError where
  | malformed (message : String)
  | tooDeep (message : String)
  deriving DecidableEq

/-- The files, the parsers, the resolver and the standard library, with the texts of the errors that the library raises; `none` is a
`ValueError` of `int`, and `urlparseError` one of `urlparse`. -/
structure ConfigHost extends NetLibrary where
  readVerifiedTextFile : PosixPath → ℕ → Except ReadError String
  tomlLoads : String → Except ParseError (List (String × Json))
  jsonLoads : String → Except ParseError Json
  getaddrinfo : String → Except String (List String)
  int : String → Option ℤ
  upper : String → String
  str : Json → String
  urlparseError : String → Option String
  portError : String → String
  unexpectedArgument : String → String → String
  missingArguments : String → List String → String
  pathTypeError : Json → String
  systemConfigPath : PosixPath

/-- What the functions here raise. -/
inductive ConfigException where
  | configError (message : String)
  | attributeError (message : String)
  | typeError (message : String)
  | valueError (message : String)
  | recursionError (message : String)
  deriving DecidableEq

/-- `type(value).__name__`. -/
def typeName : Json → String
  | .null => "NoneType"
  | .bool _ => "bool"
  | .int _ => "int"
  | .float _ => "float"
  | .str _ => "str"
  | .arr _ => "list"
  | .obj _ => "dict"

def noAttribute (value : Json) (name : String) : ConfigException :=
  .attributeError ("'" ++ typeName value ++ "' object has no attribute '" ++ name ++ "'")

/-- `text.strip()`. -/
def strip (text : String) : String :=
  let space := fun c : Char => isSpace (CodePoint.ofChar c)
  String.ofList ((text.toList.dropWhile space).reverse.dropWhile space).reverse

/-- Whether a value counts as true. -/
def truthy : Json → Bool
  | .null => false
  | .bool b => b
  | .int n => n ≠ 0
  | .float x => x ≠ .finite 0
  | .str s => s ≠ ""
  | .arr items => !items.isEmpty
  | .obj members => !members.isEmpty

/-! ## The sections -/

structure JobStoreSettings where
  url : Json := .str "sqlite:///:memory:"
  urlFile : Json := .null

structure LoggingSettings where
  level : Json := .str "INFO"
  format : Json := .str "json"

/-- `CallbackEndpoint`, before it is checked. -/
structure EndpointSettings where
  url : Json
  tenantId : Json
  secret : Json := .null
  secretFile : Json := .null
  allowPrivateNetworks : Json := .bool false

/-- `ServiceConfig`. -/
structure Configuration where
  server : ServerSettings := {}
  jobStore : JobStoreSettings := {}
  outputStore : OutputStoreSettings := {}
  control : ControlSettings := {}
  executor : ExecutorSettings := {}
  admission : AdmissionSettings := {}
  volatileStore : VolatileStoreSettings := {}
  durableStore : DurableStoreSettings := {}
  notifications : NotificationSettings := {}
  logging : LoggingSettings := {}
  callbackEndpoints : List (String × EndpointSettings) := []
  configPath : Option PosixPath := none

def JobStoreSettings.asdict (s : JobStoreSettings) : List (String × Json) := [("url", s.url), ("url_file", s.urlFile)]

def LoggingSettings.asdict (s : LoggingSettings) : List (String × Json) := [("level", s.level), ("format", s.format)]

def EndpointSettings.asdict (s : EndpointSettings) : List (String × Json) :=
  [("url", s.url), ("tenant_id", s.tenantId), ("secret", s.secret), ("secret_file", s.secretFile),
    ("allow_private_networks", s.allowPrivateNetworks)]

/-- The sections whose numbers are checked, as `_positive_values` is given them. -/
def Configuration.numbers (config : Configuration) : ServiceConfig where
  server := config.server
  outputStore := config.outputStore
  control := config.control
  executor := config.executor
  admission := config.admission
  volatileStore := config.volatileStore
  durableStore := config.durableStore
  notifications := config.notifications

/-! ## The file and the environment -/

/-- `_SECTIONS`. -/
def sections : List (String × List String) :=
  [("server", ["listen", "request_body_max_bytes", "request_timeout_seconds", "auth_token", "admin_token", "tenant_tokens"]),
    ("job_store", ["url", "url_file"]),
    ("output_store", ["url", "max_total_bytes"]),
    ("control", ["api_workers", "controller_workers", "notification_workers", "worker_heartbeat_seconds",
      "worker_progress_timeout_seconds", "worker_drain_timeout_seconds", "worker_restart_limit", "worker_restart_window_seconds"]),
    ("executor", ["workers", "heartbeat_seconds", "lease_seconds", "policy_file"]),
    ("admission", ["max_concurrent_requests", "max_queued_jobs", "max_queued_jobs_per_tenant"]),
    ("volatile_store", ["max_jobs", "max_metadata_bytes", "max_event_records", "job_ttl_seconds", "max_temporary_output_bytes"]),
    ("durable_store", ["max_jobs", "max_metadata_bytes", "max_event_records", "job_ttl_seconds"]),
    ("notifications", ["max_concurrent_deliveries", "request_timeout_seconds", "max_attempts"]),
    ("logging", ["level", "format"]),
    ("callback_endpoints", [])]

def endpointKeys : List String := ["url", "tenant_id", "secret", "secret_file", "allow_private_networks"]

/-- `_ENV_KEYS`. -/
def envKeys : List (String × String × String) :=
  [("SHARKRAIL_JOB_STORE_URL", "job_store", "url"), ("SHARKRAIL_JOB_STORE_URL_FILE", "job_store", "url_file"),
    ("SHARKRAIL_OUTPUT_STORE_URL", "output_store", "url"), ("SHARKRAIL_LISTEN", "server", "listen"),
    ("SHARKRAIL_AUTH_TOKEN", "server", "auth_token"), ("SHARKRAIL_ADMIN_TOKEN", "server", "admin_token")]

/-- The keys of a table are among the known ones; else the error names the least of the others. -/
def checkKnown (message : String → String) (known : List String) (values : List (String × Json)) : Except ConfigException Unit :=
  match (values.map (·.1)).filter fun key => !known.contains key with
  | [] => pure ()
  | key :: keys => throw (.configError (message (keys.foldl min key)))

section

variable (host : ConfigHost)

def checkEndpointKeys (entry : String × Json) : Except ConfigException Unit :=
  match entry.2 with
  | .obj values => checkKnown (fun key => "unknown callback endpoint setting: " ++ entry.1 ++ "." ++ key) endpointKeys values
  | _ => throw (.configError ("callback endpoint " ++ host.repr entry.1 ++ " must be a table"))

/-- `_validate_keys`. -/
def validateKeys (raw : List (String × Json)) : Except ConfigException Unit := do
  checkKnown ("unknown configuration section: " ++ ·) (sections.map (·.1)) raw
  sections.forM fun entry =>
    match (Json.get? raw entry.1).getD (.obj []) with
    | .obj values =>
      if entry.1 = "callback_endpoints" then values.forM (checkEndpointKeys host)
      else checkKnown (fun key => "unknown configuration setting: " ++ entry.1 ++ "." ++ key) entry.2 values
    | _ => throw (.configError ("configuration section " ++ host.repr entry.1 ++ " must be a table"))

end

/-- The members of a table; a section or an endpoint is nothing else once `_validate_keys` has passed. -/
def tableOf : Json → List (String × Json)
  | .obj values => values
  | _ => []

def membersOf (raw : List (String × Json)) (name : String) : List (String × Json) := tableOf ((Json.get? raw name).getD (.obj []))

/-- `_apply_environment`. -/
def applyEnvironment (env : String → Option String) (raw : List (String × Json)) : List (String × Json) :=
  envKeys.foldl (fun merged entry =>
    match env entry.1 with
    | some value => Json.set merged entry.2.1 (.obj (Json.set (membersOf merged entry.2.1) entry.2.2 (.str value)))
    | none => merged) raw

/-- A setting that is given, or its default. -/
def given (values : List (String × Json)) (key : String) (default : Json) : Json := (Json.get? values key).getD default

def ServerSettings.make (values : List (String × Json)) : ServerSettings where
  listen := given values "listen" ({} : ServerSettings).listen
  requestBodyMaxBytes := given values "request_body_max_bytes" ({} : ServerSettings).requestBodyMaxBytes
  requestTimeoutSeconds := given values "request_timeout_seconds" ({} : ServerSettings).requestTimeoutSeconds
  authToken := given values "auth_token" ({} : ServerSettings).authToken
  adminToken := given values "admin_token" ({} : ServerSettings).adminToken
  tenantTokens := given values "tenant_tokens" ({} : ServerSettings).tenantTokens

def JobStoreSettings.make (values : List (String × Json)) : JobStoreSettings where
  url := given values "url" ({} : JobStoreSettings).url
  urlFile := given values "url_file" ({} : JobStoreSettings).urlFile

def OutputStoreSettings.make (values : List (String × Json)) : OutputStoreSettings where
  url := given values "url" ({} : OutputStoreSettings).url
  maxTotalBytes := given values "max_total_bytes" ({} : OutputStoreSettings).maxTotalBytes

def ControlSettings.make (values : List (String × Json)) : ControlSettings where
  apiWorkers := given values "api_workers" ({} : ControlSettings).apiWorkers
  controllerWorkers := given values "controller_workers" ({} : ControlSettings).controllerWorkers
  notificationWorkers := given values "notification_workers" ({} : ControlSettings).notificationWorkers
  workerHeartbeatSeconds := given values "worker_heartbeat_seconds" ({} : ControlSettings).workerHeartbeatSeconds
  workerProgressTimeoutSeconds := given values "worker_progress_timeout_seconds" ({} : ControlSettings).workerProgressTimeoutSeconds
  workerDrainTimeoutSeconds := given values "worker_drain_timeout_seconds" ({} : ControlSettings).workerDrainTimeoutSeconds
  workerRestartLimit := given values "worker_restart_limit" ({} : ControlSettings).workerRestartLimit
  workerRestartWindowSeconds := given values "worker_restart_window_seconds" ({} : ControlSettings).workerRestartWindowSeconds

def ExecutorSettings.make (values : List (String × Json)) : ExecutorSettings where
  workers := given values "workers" ({} : ExecutorSettings).workers
  heartbeatSeconds := given values "heartbeat_seconds" ({} : ExecutorSettings).heartbeatSeconds
  leaseSeconds := given values "lease_seconds" ({} : ExecutorSettings).leaseSeconds
  policyFile := given values "policy_file" ({} : ExecutorSettings).policyFile

def AdmissionSettings.make (values : List (String × Json)) : AdmissionSettings where
  maxConcurrentRequests := given values "max_concurrent_requests" ({} : AdmissionSettings).maxConcurrentRequests
  maxQueuedJobs := given values "max_queued_jobs" ({} : AdmissionSettings).maxQueuedJobs
  maxQueuedJobsPerTenant := given values "max_queued_jobs_per_tenant" ({} : AdmissionSettings).maxQueuedJobsPerTenant

def VolatileStoreSettings.make (values : List (String × Json)) : VolatileStoreSettings where
  maxJobs := given values "max_jobs" ({} : VolatileStoreSettings).maxJobs
  maxMetadataBytes := given values "max_metadata_bytes" ({} : VolatileStoreSettings).maxMetadataBytes
  maxEventRecords := given values "max_event_records" ({} : VolatileStoreSettings).maxEventRecords
  jobTtlSeconds := given values "job_ttl_seconds" ({} : VolatileStoreSettings).jobTtlSeconds
  maxTemporaryOutputBytes := given values "max_temporary_output_bytes" ({} : VolatileStoreSettings).maxTemporaryOutputBytes

def DurableStoreSettings.make (values : List (String × Json)) : DurableStoreSettings where
  maxJobs := given values "max_jobs" ({} : DurableStoreSettings).maxJobs
  maxMetadataBytes := given values "max_metadata_bytes" ({} : DurableStoreSettings).maxMetadataBytes
  maxEventRecords := given values "max_event_records" ({} : DurableStoreSettings).maxEventRecords
  jobTtlSeconds := given values "job_ttl_seconds" ({} : DurableStoreSettings).jobTtlSeconds

def NotificationSettings.make (values : List (String × Json)) : NotificationSettings where
  maxConcurrentDeliveries := given values "max_concurrent_deliveries" ({} : NotificationSettings).maxConcurrentDeliveries
  requestTimeoutSeconds := given values "request_timeout_seconds" ({} : NotificationSettings).requestTimeoutSeconds
  maxAttempts := given values "max_attempts" ({} : NotificationSettings).maxAttempts

def LoggingSettings.make (values : List (String × Json)) : LoggingSettings where
  level := given values "level" ({} : LoggingSettings).level
  format := given values "format" ({} : LoggingSettings).format

def EndpointSettings.make (values : List (String × Json)) : EndpointSettings where
  url := given values "url" .null
  tenantId := given values "tenant_id" .null
  secret := given values "secret" .null
  secretFile := given values "secret_file" .null
  allowPrivateNetworks := given values "allow_private_networks" (.bool false)

section

variable (host : ConfigHost)

/-- `cls(**values)` of a class with these fields, the first of which have no default. -/
def construct {α : Type} (className : String) (required fields : List String) (make : List (String × Json) → α)
    (values : List (String × Json)) : Except ConfigException α :=
  match values.find? fun entry => !fields.contains entry.1 with
  | some entry => throw (.typeError (host.unexpectedArgument className entry.1))
  | none =>
    match required.filter fun key => (Json.get? values key).isNone with
    | [] => pure (make values)
    | missing => throw (.typeError (host.missingArguments className missing))

def makeEndpoint (entry : String × Json) : Except ConfigException (String × EndpointSettings) := do
  let endpoint ← construct host "CallbackEndpoint" ["url", "tenant_id"] endpointKeys EndpointSettings.make (tableOf entry.2)
  pure (entry.1, endpoint)

/-- A section of its class. -/
def buildSection {α : Type} (raw : List (String × Json)) (className name : String) (make : List (String × Json) → α) :
    Except ConfigException α :=
  construct host className [] ((sections.lookup name).getD []) make (membersOf raw name)

/-- `_build_config`. -/
def buildConfig (raw : List (String × Json)) (path : Option PosixPath) : Except ConfigException Configuration := do
  let callbackEndpoints ← (membersOf raw "callback_endpoints").mapM (makeEndpoint host)
  let server ← buildSection host raw "ServerSettings" "server" ServerSettings.make
  let jobStore ← buildSection host raw "JobStoreSettings" "job_store" JobStoreSettings.make
  let outputStore ← buildSection host raw "OutputStoreSettings" "output_store" OutputStoreSettings.make
  let control ← buildSection host raw "ControlSettings" "control" ControlSettings.make
  let executor ← buildSection host raw "ExecutorSettings" "executor" ExecutorSettings.make
  let admission ← buildSection host raw "AdmissionSettings" "admission" AdmissionSettings.make
  let volatileStore ← buildSection host raw "VolatileStoreSettings" "volatile_store" VolatileStoreSettings.make
  let durableStore ← buildSection host raw "DurableStoreSettings" "durable_store" DurableStoreSettings.make
  let notifications ← buildSection host raw "NotificationSettings" "notifications" NotificationSettings.make
  let logging ← buildSection host raw "LoggingSettings" "logging" LoggingSettings.make
  pure
    { server, jobStore, outputStore, control, executor, admission, volatileStore, durableStore, notifications, logging, callbackEndpoints
      configPath := path }

/-! ## The checks -/

/-- `text.rsplit(":", 1)`, where there are two parts. -/
def rsplitColon (text : String) : Option (String × String) :=
  let tail := text.toList.reverse.takeWhile (· ≠ ':')
  if tail.length = text.toList.length then none
  else some (String.ofList (text.toList.reverse.drop (tail.length + 1)).reverse, String.ofList tail.reverse)

/-- The host that the server listens on. -/
def listenHost (listen : Json) : Except ConfigException String :=
  match listen with
  | .str text =>
    match rsplitColon text with
    | none => throw (.configError "server.listen must be HOST:PORT")
    | some (name, port) =>
      match host.int port with
      | none => throw (.configError "server.listen must be HOST:PORT")
      | some port =>
        if name = "" ∨ port < 0 ∨ 65535 < port then throw (.configError "server.listen must contain a valid host and port")
        else pure name
  | _ => throw (.configError "server.listen must be HOST:PORT")

/-- `_validate_bearer_token`, of any value. -/
def validateToken (value : Json) (name : String) : Except ConfigException String :=
  match value with
  | .str token => do
    (validateBearerToken token name).mapError .configError
    pure token
  | _ => throw (.configError (name ++ " must be a non-empty visible ASCII string of at most 4096 bytes"))

/-- One turn of the loop over the tokens of the tenants. -/
def validateTenantEntry (identities : List (String × String)) (entry : String × Json) :
    Except ConfigException (List (String × String)) :=
  if entry.1 = "" ∨ 256 < entry.1.utf8ByteSize then
    throw (.configError "server.tenant_tokens keys must be non-empty tenant IDs of at most 256 UTF-8 bytes")
  else do
    let token ← validateToken entry.2 ("server.tenant_tokens." ++ entry.1)
    if (identities.lookup token).any (· ≠ entry.1) then
      throw (.configError "server authentication tokens must be unique to one tenant")
    else pure ((token, entry.1) :: identities)

/-- The token of the default tenant. -/
def authIdentities (value : Json) : Except ConfigException (List (String × String)) :=
  match value with
  | .null => pure []
  | value => do pure [(← validateToken value "server.auth_token", "default")]

def validateAdminToken (identities : List (String × String)) (value : Json) : Except ConfigException Unit :=
  match value with
  | .null => pure ()
  | value => do
    let token ← validateToken value "server.admin_token"
    if (identities.lookup token).isSome then throw (.configError "server.admin_token must differ from all tenant tokens")
    else pure ()

/-- `_validate_tenant_tokens`, of any values. -/
def validateTokens (server : ServerSettings) : Except ConfigException Unit :=
  match server.tenantTokens with
  | .obj tokens => do
    let identities ← authIdentities server.authToken
    let identities ← tokens.foldlM validateTenantEntry identities
    validateAdminToken identities server.adminToken
  | _ => throw (.configError "server.tenant_tokens must be a table")

/-- `is_loopback_listener`. -/
def isLoopbackListener (name : String) : Bool :=
  host.casefold name = "localhost" || (host.ipAddress name).any Ipaddress.isLoopback

def cannotLoadPolicy (path : PosixPath) (message : String) : ConfigException :=
  .configError ("cannot load executor policy_file " ++ path.text ++ ": " ++ message)

/-- `load_service_execution_policy`. -/
def loadServiceExecutionPolicy (config : Configuration) : Except ConfigException Runtime.ExecutionPolicy :=
  match config.executor.policyFile with
  | .null => pure { allowedExecutables := some ∅, allowParentEnvironment := false, requireTimeout := true }
  | .str configured =>
    if configured = "" then throw (.configError "ExecutorSettings.policy_file must be a non-empty string")
    else
      let path := PosixPath.ofText configured
      let path := if path.isAbsolute then path else (config.configPath.map fun file => file.parent.join path).getD path
      match host.readVerifiedTextFile path 0o022 with
      | .error e => throw (cannotLoadPolicy path e.message)
      | .ok text =>
        match host.jsonLoads text with
        | .error (.malformed message) => throw (cannotLoadPolicy path message)
        | .error (.tooDeep message) => throw (.recursionError message)
        | .ok (.obj value) => (Runtime.ExecutionPolicy.fromDict value).mapError fun e => cannotLoadPolicy path e.message
        | .ok _ => throw (cannotLoadPolicy path "execution policy must be a JSON object")
  | _ => throw (.configError "ExecutorSettings.policy_file must be a non-empty string")

/-- The job store's `url`, which `url_file` stands over. -/
def resolveStoreUrl (store : JobStoreSettings) : Except ConfigException JobStoreSettings :=
  if truthy store.urlFile then
    match store.urlFile with
    | .str file =>
      match host.readVerifiedTextFile (PosixPath.ofText file) 0o027 with
      | .error (.valueError message) => throw (.valueError message)
      | .error e => throw (.configError ("cannot read job_store.url_file: " ++ e.message))
      | .ok text =>
        if strip text = "" then throw (.configError "job_store.url_file is empty") else pure { store with url := .str (strip text) }
    | value => throw (.typeError (host.pathTypeError value))
  else pure store

def checkStoreUrl (url : Json) : Except ConfigException Unit :=
  match url with
  | .str text =>
    if "sqlite:///".toList.isPrefixOf text.toList then pure ()
    else throw (.configError "only sqlite:/// JobStore URLs are currently supported")
  | value => throw (noAttribute value "startswith")

/-- `urlparse(url)`: of a value that is no string and counts as true it raises, of another one it gives no scheme. -/
def urlparse (url : Json) : Except ConfigException (Option ParsedUrl) :=
  match url with
  | .str text =>
    match host.urlparseError text with
    | some message => throw (.valueError message)
    | none => pure (some (host.urlparse text))
  | value => if truthy value then throw (noAttribute value "decode") else pure none

def checkOutputUrl (url : Json) : Except ConfigException Unit := do
  let output ← urlparse host url
  if output.any (·.scheme = "file") then pure () else throw (.configError "only file:// OutputStore URLs are currently supported")

/-- `resolved_secret`. -/
def resolvedSecret (endpoint : EndpointSettings) : Except ConfigException String :=
  match endpoint.secret, endpoint.secretFile with
  | .str secret, _ =>
    if strip secret = "" then throw (.configError "callback secret must not be empty or whitespace") else pure secret
  | .null, .str file =>
    match host.readVerifiedTextFile (PosixPath.ofText file) 0o027 with
    | .error (.valueError message) => throw (.valueError message)
    | .error e => throw (.configError ("cannot read callback secret file " ++ host.repr file ++ ": " ++ e.message))
    | .ok text =>
      if strip text = "" then throw (.configError ("callback secret file " ++ host.repr file ++ " is empty")) else pure (strip text)
  | .null, .null => throw (.configError "callback endpoint requires secret or secret_file")
  | .null, value => throw (.typeError (host.pathTypeError value))
  | value, _ => throw (noAttribute value "strip")

def checkEndpointText (name setting : String) (value : Json) : Except ConfigException Unit :=
  match value with
  | .null => pure ()
  | .str text =>
    if text = "" then throw (.configError ("callback endpoint " ++ host.repr name ++ " " ++ setting ++ " must be a non-empty string"))
    else pure ()
  | _ => throw (.configError ("callback endpoint " ++ host.repr name ++ " " ++ setting ++ " must be a non-empty string"))

/-- `validate_callback_destination` of an endpoint whose other settings were checked. -/
def checkDestination (name tenantId : String) (allowPrivateNetworks resolve : Bool) (url : Json) : Except ConfigException Unit :=
  match url with
  | .str text =>
    match host.urlparseError text with
    | some message => throw (.valueError message)
    | none => do
      let _ ← (validateCallbackDestination host.toNetLibrary { url := text, tenantId, allowPrivateNetworks } name resolve
        (host.getaddrinfo ((host.urlparse text).hostname.getD ""))).mapError .configError
      pure ()
  | value =>
    if truthy value then throw (noAttribute value "decode")
    else throw (.configError ("callback endpoint " ++ host.repr name ++ " must use a credential-free HTTP(S) URL"))

/-- The checks of one endpoint. -/
def checkEndpoint (resolve : Bool) (entry : String × EndpointSettings) : Except ConfigException Unit :=
  if entry.1 = "" then throw (.configError "callback endpoint IDs must be non-empty strings")
  else
    match entry.2.tenantId, entry.2.allowPrivateNetworks with
    | .str tenantId, .bool allowPrivateNetworks =>
      if tenantId = "" ∨ 256 < tenantId.utf8ByteSize then
        throw (.configError ("callback endpoint " ++ host.repr entry.1 ++
          " must have a non-empty tenant_id of at most 256 UTF-8 bytes"))
      else do
        checkEndpointText host entry.1 "secret" entry.2.secret
        checkEndpointText host entry.1 "secret_file" entry.2.secretFile
        if truthy entry.2.secret ∧ truthy entry.2.secretFile then
          throw (.configError ("callback endpoint " ++ host.repr entry.1 ++ " cannot set secret and secret_file"))
        else do
          let _ ← resolvedSecret host entry.2
          checkDestination host entry.1 tenantId allowPrivateNetworks resolve entry.2.url
    | .str tenantId, _ =>
      if tenantId = "" ∨ 256 < tenantId.utf8ByteSize then
        throw (.configError ("callback endpoint " ++ host.repr entry.1 ++
          " must have a non-empty tenant_id of at most 256 UTF-8 bytes"))
      else throw (.configError ("callback endpoint " ++ host.repr entry.1 ++ " allow_private_networks must be a boolean"))
    | _, _ =>
      throw (.configError ("callback endpoint " ++ host.repr entry.1 ++
        " must have a non-empty tenant_id of at most 256 UTF-8 bytes"))

def checkLogging (logging : LoggingSettings) : Except ConfigException Unit :=
  match logging.level with
  | .str level =>
    if !(["CRITICAL", "ERROR", "WARNING", "INFO", "DEBUG"].contains (host.upper level)) then
      throw (.configError "logging.level must be a standard Python logging level")
    else if logging.format ≠ .str "json" then throw (.configError "only logging.format=json is currently supported")
    else pure ()
  | value => throw (noAttribute value "upper")

/-- `_validate_config`; `direct` says that the settings it was built from give the `url` of the job store. -/
def validateConfig (config : Configuration) (direct resolve : Bool) : Except ConfigException Configuration := do
  let name ← listenHost host config.server.listen
  validateTokens config.server
  if !isLoopbackListener host name then
    throw (.configError ("server.listen must use a loopback address; expose the service only through a same-host TLS reverse proxy"))
  (positiveValues config.numbers).mapError .configError
  let _ ← loadServiceExecutionPolicy host config
  if truthy config.jobStore.urlFile ∧ direct then
    throw (.configError "job_store.url and job_store.url_file are mutually exclusive")
  let jobStore ← resolveStoreUrl host config.jobStore
  let config := { config with jobStore }
  checkStoreUrl config.jobStore.url
  checkOutputUrl host config.outputStore.url
  config.callbackEndpoints.forM (checkEndpoint host resolve)
  checkLogging host config.logging
  pure config

/-! ## Loading -/

/-- The exceptions that `load_config` takes for those of the values. -/
def ConfigException.ofValue : ConfigException → ConfigException
  | .attributeError message | .typeError message | .valueError message => .configError ("invalid configuration value: " ++ message)
  | e => e

/-- The path that is read. -/
def selectedPath (env : String → Option String) (path : Option PosixPath) : PosixPath :=
  path.getD (((env "SHARKRAIL_CONFIG_FILE").filter (· ≠ "")).elim host.systemConfigPath PosixPath.ofText)

/-- The settings of the file, with its path where there is one: a file that was not asked for may be missing. -/
def readSettings (selected : PosixPath) (explicit : Bool) : Except ConfigException (List (String × Json) × Option PosixPath) :=
  match host.readVerifiedTextFile selected 0o027 with
  | .error (.notFound _) =>
    if explicit then throw (.configError ("configuration file does not exist: " ++ selected.text)) else pure ([], none)
  | .error (.valueError message) => throw (.valueError message)
  | .error e => throw (.configError ("cannot load configuration " ++ selected.text ++ ": " ++ e.message))
  | .ok text =>
    match host.tomlLoads text with
    | .error (.malformed message) => throw (.configError ("cannot load configuration " ++ selected.text ++ ": " ++ message))
    | .error (.tooDeep message) => throw (.recursionError message)
    | .ok loaded => pure (loaded, some selected)

/-- `load_config`. -/
def loadConfig (env : String → Option String) (path : Option PosixPath) (requireExplicit : Bool) :
    Except ConfigException Configuration := do
  let (raw, selected) ← readSettings host (selectedPath host env path)
    (path.isSome || (env "SHARKRAIL_CONFIG_FILE").isSome || requireExplicit)
  validateKeys host raw
  let merged := applyEnvironment env raw
  let config ← (buildConfig host merged selected).mapError ConfigException.ofValue
  let direct := (Json.get? (membersOf merged "job_store") "url").isSome
  (validateConfig host config direct true).mapError ConfigException.ofValue

/-- What a Worker loads that is given the path of the configuration of its control process. -/
def workerConfig (env : String → Option String) (configPath : Option PosixPath) : Except ConfigException Configuration :=
  match configPath with
  | some path => loadConfig host env (some (PosixPath.ofText path.text)) true
  | none => loadConfig host env none false

/-- The configuration that `JobService` takes: it is checked again, without resolving the hosts of callbacks. -/
def serviceConfig (config : Configuration) : Except ConfigException Configuration := validateConfig host config false false

/-! ## What is shown -/

def Configuration.durability (config : Configuration) : String :=
  if config.jobStore.url = .str "sqlite:///:memory:" then "volatile" else "durable"

/-- `_redact_url`. -/
def redactUrl (url : String) : Except ConfigException String :=
  match host.urlparseError url with
  | some message => throw (.valueError message)
  | none =>
    let parsed := host.urlparse url
    if parsed.password.isNone then pure url
    else
      match parsed.port with
      | none => throw (.valueError (host.portError url))
      | some port =>
        let port := if port.getD 0 = 0 then "" else ":" ++ toString (port.getD 0)
        pure (parsed.scheme ++ "://" ++ parsed.username.getD "" ++ ":<redacted>@" ++ parsed.hostname.getD "" ++ port ++ parsed.path)

/-- `str(url)`. -/
def urlText (url : Json) : String :=
  match url with
  | .str text => text
  | value => host.str value

/-- A secret that counts as true is not shown. -/
def redacted (value : Json) : Json := if truthy value then .str "<redacted>" else value

/-- The tokens of the tenants are not shown. -/
def redactedTokens (value : Json) : Json :=
  match value with
  | .obj tokens => .obj (tokens.map fun entry => (entry.1, .str "<redacted>"))
  | value => value

def ServerSettings.shown (s : ServerSettings) : ServerSettings :=
  { s with authToken := redacted s.authToken, adminToken := redacted s.adminToken, tenantTokens := redactedTokens s.tenantTokens }

def EndpointSettings.shown (s : EndpointSettings) : EndpointSettings := { s with secret := redacted s.secret }

/-- `public_dict`. -/
def publicDict (config : Configuration) : Except ConfigException Json := do
  let url ← redactUrl host (urlText host config.jobStore.url)
  pure (.obj
    [("server", .obj config.server.shown.asdict),
      ("job_store", .obj { config.jobStore with url := Json.str url : JobStoreSettings }.asdict),
      ("output_store", .obj config.outputStore.asdict), ("control", .obj config.control.asdict),
      ("executor", .obj config.executor.asdict), ("admission", .obj config.admission.asdict),
      ("volatile_store", .obj config.volatileStore.asdict), ("durable_store", .obj config.durableStore.asdict),
      ("notifications", .obj config.notifications.asdict), ("logging", .obj config.logging.asdict),
      ("callback_endpoints", .obj (config.callbackEndpoints.map fun entry => (entry.1, .obj entry.2.shown.asdict))),
      ("config_path", config.configPath.elim .null fun path => .str path.text), ("durability", .str config.durability)])

end

end Config

end Service

end SharkRail
