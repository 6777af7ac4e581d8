import SharkRail.Lib.Clock
import SharkRail.Lib.Json
import SharkRail.Lib.Table
import SharkRail.Lib.Machine
import SharkRail.Lib.Fallible
import SharkRail.Jobs.Spec
import SharkRail.Store.Rows
import SharkRail.Store.Operations
import SharkRail.Store.Run
import SharkRail.Store.Transitions
import SharkRail.Lemmas.Statements
import SharkRail.Lemmas.WellFormed
import SharkRail.Lemmas.Spec
import SharkRail.Lemmas.Pruning
import SharkRail.Theorems.Cancellation
import SharkRail.Theorems.Announcement
import SharkRail.Theorems.Delivery
import SharkRail.Theorems.Submission
import SharkRail.Lemmas.Service
import SharkRail.Theorems.Starts
import SharkRail.Lib.Ring
import SharkRail.Runtime.AppendOutput
import SharkRail.Runtime.Events
import SharkRail.Service.Ownership
import SharkRail.Store.Connection
import SharkRail.Theorems.Accounting
import SharkRail.Theorems.OutputAccounting
import SharkRail.Theorems.OutputAgreement
import SharkRail.Theorems.Ownership
import SharkRail.Theorems.Paging
import SharkRail.Theorems.Rollback
import SharkRail.Integrations.Mcp
import SharkRail.Theorems.Responses
import SharkRail.Runtime.Lifecycle
import SharkRail.Runtime.SessionTasks
import SharkRail.Theorems.EventOrder
import SharkRail.Runtime.Admission
import SharkRail.Theorems.Admission
import SharkRail.Theorems.Capacity
import SharkRail.Lemmas.Executions
import SharkRail.Lemmas.Intent
import SharkRail.Lemmas.Runs
import SharkRail.Theorems.Shutdown
import SharkRail.Lemmas.Committed
import SharkRail.Lemmas.Stored
import SharkRail.Lib.Ipaddress
import SharkRail.Lib.Utf8
import SharkRail.Runtime.OutputEvents
import SharkRail.Runtime.Policy
import SharkRail.Runtime.Sessions
import SharkRail.Service.Callback
import SharkRail.Service.Http
import SharkRail.Theorems.Authentication
import SharkRail.Theorems.Callbacks
import SharkRail.Theorems.Ceilings
import SharkRail.Theorems.OutputEvents
import SharkRail.Theorems.OutputText
import SharkRail.Lemmas.Scheduling
import SharkRail.Theorems.Scheduling
import SharkRail.Runtime.ProcessGroup
import SharkRail.Theorems.ProcessGroups
import SharkRail.Lemmas.Paths
import SharkRail.Theorems.Isolation
import SharkRail.Theorems.Tenants
import SharkRail.Theorems.CancellationSteps
import SharkRail.Runtime.Recorder
import SharkRail.Theorems.AuditLog
import SharkRail.Theorems.OutputEventCap
import SharkRail.Lemmas.EventLog
import SharkRail.Lib.ClockOrder
import SharkRail.Theorems.Expiry
import SharkRail.Theorems.QueuedCancellation
import SharkRail.Theorems.Revisions
import SharkRail.Theorems.TerminalConditions
import SharkRail.Jobs.SpecText
import SharkRail.Lemmas.SpecText
import SharkRail.Store.Columns
import SharkRail.Lemmas.Columns
import SharkRail.Lemmas.SpecIdentity
import SharkRail.Lib.FloatText
import SharkRail.Lib.JsonReading
import SharkRail.Service.Reports
import SharkRail.Theorems.RequestIdentity
import SharkRail.Theorems.RoundTrip
import SharkRail.Theorems.Reports
import SharkRail.Lemmas.Notifications
import SharkRail.Theorems.NotificationHealth
import SharkRail.Integrations.Acp
import SharkRail.Integrations.Framing
import SharkRail.Runtime.TerminalInput
import SharkRail.Theorems.AcpOutput
import SharkRail.Theorems.Framing
import SharkRail.Theorems.TerminalInput
import SharkRail.Theorems.WslCommands
import SharkRail.Lemmas.OutputFiles
import SharkRail.Lemmas.Refusals
import SharkRail.Theorems.OutputQuota
import SharkRail.Lemmas.StoreFrames
import SharkRail.Theorems.OutputConfinement
import SharkRail.Integrations.ToolArguments
import SharkRail.Lib.AsyncLock
import SharkRail.Lib.Binary64
import SharkRail.Runtime.Broker
import SharkRail.Runtime.Runner
import SharkRail.Service.Configuration
import SharkRail.Service.Master
import SharkRail.Theorems.BrokerReplies
import SharkRail.Theorems.DryRun
import SharkRail.Theorems.ToolSchemas
import SharkRail.Theorems.Restarts
import SharkRail.Lemmas.StoredRuns
import SharkRail.Theorems.StoredOutput
import SharkRail.Theorems.AdmissionLimits
import SharkRail.Service.Handlers
import SharkRail.Service.JobCalls
import SharkRail.Theorems.Handlers
import SharkRail.Theorems.Connections
import SharkRail.Theorems.Routes
import SharkRail.Theorems.Attempts
import SharkRail.Service.ControlMaster
import SharkRail.Theorems.Supervision
import SharkRail.Theorems.Replacements
import SharkRail.Theorems.Stopping
import SharkRail.Lib.PosixPath
import SharkRail.Runtime.PolicyFile
import SharkRail.Service.ConfigFile
import SharkRail.Theorems.ConfigFile
