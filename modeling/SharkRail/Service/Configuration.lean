import SharkRail.Service.Settings

/-!
# The numbers of the configuration

The sections of `ServiceConfig` whose settings `_positive_values` checks, with their defaults. A setting has any value that the file gives
it until it is checked.
-/

namespace SharkRail

namespace Service

namespace Config

structure ServerSettings where
  listen : Json := .str "127.0.0.1:8765"
  requestBodyMaxBytes : Json := .int (1024 * 1024)
  requestTimeoutSeconds : Json := .int 30
  authToken : Json := .null
  adminToken : Json := .null
  tenantTokens : Json := .obj []

structure OutputStoreSettings where
  url : Json := .str "file://./output"
  maxTotalBytes : Json := .int (1024 * 1024 * 1024)

structure ControlSettings where
  apiWorkers : Json := .int 2
  controllerWorkers : Json := .int 1
  notificationWorkers : Json := .int 1
  workerHeartbeatSeconds : Json := .int 5
  workerProgressTimeoutSeconds : Json := .int 30
  workerDrainTimeoutSeconds : Json := .int 20
  workerRestartLimit : Json := .int 5
  workerRestartWindowSeconds : Json := .int 60

structure ExecutorSettings where
  workers : Json := .int 2
  heartbeatSeconds : Json := .int 5
  leaseSeconds : Json := .int 30
  policyFile : Json := .null

structure AdmissionSettings where
  maxConcurrentRequests : Json := .int 128
  maxQueuedJobs : Json := .int 1000
  maxQueuedJobsPerTenant : Json := .int 100

structure VolatileStoreSettings where
  maxJobs : Json := .int 1000
  maxMetadataBytes : Json := .int (64 * 1024 * 1024)
  maxEventRecords : Json := .int 10000
  jobTtlSeconds : Json := .int 3600
  maxTemporaryOutputBytes : Json := .int (1024 * 1024 * 1024)

structure DurableStoreSettings where
  maxJobs : Json := .int 1000000
  maxMetadataBytes : Json := .int (1024 * 1024 * 1024)
  maxEventRecords : Json := .int 10000000
  jobTtlSeconds : Json := .int (30 * 24 * 60 * 60)

structure NotificationSettings where
  maxConcurrentDeliveries : Json := .int 16
  requestTimeoutSeconds : Json := .int 10
  maxAttempts : Json := .int 12

/-- The sections that are read here, and the `url` of the job store, which tells a volatile store. -/
structure ServiceConfig where
  server : ServerSettings := {}
  jobStoreUrl : String := "sqlite:///:memory:"
  outputStore : OutputStoreSettings := {}
  control : ControlSettings := {}
  executor : ExecutorSettings := {}
  admission : AdmissionSettings := {}
  volatileStore : VolatileStoreSettings := {}
  durableStore : DurableStoreSettings := {}
  notifications : NotificationSettings := {}

/-! ## `asdict` -/

def ServerSettings.asdict (s : ServerSettings) : List (String × Json) :=
  [("listen", s.listen), ("request_body_max_bytes", s.requestBodyMaxBytes), ("request_timeout_seconds", s.requestTimeoutSeconds),
    ("auth_token", s.authToken), ("admin_token", s.adminToken), ("tenant_tokens", s.tenantTokens)]

def OutputStoreSettings.asdict (s : OutputStoreSettings) : List (String × Json) := [("url", s.url), ("max_total_bytes", s.maxTotalBytes)]

def ControlSettings.asdict (s : ControlSettings) : List (String × Json) :=
  [("api_workers", s.apiWorkers), ("controller_workers", s.controllerWorkers), ("notification_workers", s.notificationWorkers),
    ("worker_heartbeat_seconds", s.workerHeartbeatSeconds), ("worker_progress_timeout_seconds", s.workerProgressTimeoutSeconds),
    ("worker_drain_timeout_seconds", s.workerDrainTimeoutSeconds), ("worker_restart_limit", s.workerRestartLimit),
    ("worker_restart_window_seconds", s.workerRestartWindowSeconds)]

def ExecutorSettings.asdict (s : ExecutorSettings) : List (String × Json) :=
  [("workers", s.workers), ("heartbeat_seconds", s.heartbeatSeconds), ("lease_seconds", s.leaseSeconds), ("policy_file", s.policyFile)]

def AdmissionSettings.asdict (s : AdmissionSettings) : List (String × Json) :=
  [("max_concurrent_requests", s.maxConcurrentRequests), ("max_queued_jobs", s.maxQueuedJobs),
    ("max_queued_jobs_per_tenant", s.maxQueuedJobsPerTenant)]

def VolatileStoreSettings.asdict (s : VolatileStoreSettings) : List (String × Json) :=
  [("max_jobs", s.maxJobs), ("max_metadata_bytes", s.maxMetadataBytes), ("max_event_records", s.maxEventRecords),
    ("job_ttl_seconds", s.jobTtlSeconds), ("max_temporary_output_bytes", s.maxTemporaryOutputBytes)]

def DurableStoreSettings.asdict (s : DurableStoreSettings) : List (String × Json) :=
  [("max_jobs", s.maxJobs), ("max_metadata_bytes", s.maxMetadataBytes), ("max_event_records", s.maxEventRecords),
    ("job_ttl_seconds", s.jobTtlSeconds)]

def NotificationSettings.asdict (s : NotificationSettings) : List (String × Json) :=
  [("max_concurrent_deliveries", s.maxConcurrentDeliveries), ("request_timeout_seconds", s.requestTimeoutSeconds),
    ("max_attempts", s.maxAttempts)]

/-! ## `_positive_values` -/

/-- A section: the name of its class, its defaults and its values. -/
structure Group where
  className : String
  defaults : List (String × Json)
  values : List (String × Json)

/-- `isinstance(value, int)`, which a boolean is too. -/
def isInt : Json → Bool
  | .int _ | .bool _ => true
  | _ => false

/-- An integer above zero that is no boolean. -/
def isPositive : Json → Bool
  | .int n => decide (0 < n)
  | _ => false

/-- The check of one setting. -/
def Group.checkSetting (group : Group) (setting : String × Json) : Except ConfigError Unit :=
  if (Json.get? group.defaults setting.1).any isInt && !isPositive setting.2 then
    throw (group.className ++ "." ++ setting.1 ++ " must be a positive integer")
  else pure ()

def groups (config : ServiceConfig) : List Group :=
  [⟨"ServerSettings", ServerSettings.asdict {}, config.server.asdict⟩,
    ⟨"OutputStoreSettings", OutputStoreSettings.asdict {}, config.outputStore.asdict⟩,
    ⟨"ControlSettings", ControlSettings.asdict {}, config.control.asdict⟩,
    ⟨"ExecutorSettings", ExecutorSettings.asdict {}, config.executor.asdict⟩,
    ⟨"AdmissionSettings", AdmissionSettings.asdict {}, config.admission.asdict⟩,
    ⟨"VolatileStoreSettings", VolatileStoreSettings.asdict {}, config.volatileStore.asdict⟩,
    ⟨"DurableStoreSettings", DurableStoreSettings.asdict {}, config.durableStore.asdict⟩,
    ⟨"NotificationSettings", NotificationSettings.asdict {}, config.notifications.asdict⟩]

/-- `_positive_values`. -/
def positiveValues (config : ServiceConfig) : Except ConfigError Unit :=
  (groups config).forM fun group => group.values.forM group.checkSetting

/-! ## What is taken from the settings -/

/-- `ServiceConfig.durability`. -/
def ServiceConfig.durability (config : ServiceConfig) : String :=
  if config.jobStoreUrl = "sqlite:///:memory:" then "volatile" else "durable"

/-- The `job_ttl_seconds` that the service gives its store. -/
def ServiceConfig.jobTtlSeconds (config : ServiceConfig) : Json :=
  if config.durability = "volatile" then config.volatileStore.jobTtlSeconds else config.durableStore.jobTtlSeconds

end Config

end Service

end SharkRail
