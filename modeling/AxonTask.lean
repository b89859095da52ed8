import AxonTask.Api.Alone
import AxonTask.Api.Auth
import AxonTask.Api.CancelTask
import AxonTask.Api.Endpoints
import AxonTask.Api.Error
import AxonTask.Api.Insertable
import AxonTask.Api.QuotaOvershoot
import AxonTask.Api.QuotaRace
import AxonTask.Api.RateLimit
import AxonTask.Api.RefillSafety
import AxonTask.Api.Registration
import AxonTask.Api.ResumePosition
import AxonTask.Api.RetryAfter
import AxonTask.Api.Roles
import AxonTask.Api.Router
import AxonTask.Api.ScopeList
import AxonTask.Api.Service
import AxonTask.Api.Sessions
import AxonTask.Api.StartTask
import AxonTask.Api.StatusHistory
import AxonTask.Api.TenantIsolation
import AxonTask.Api.TenantLimits
import AxonTask.Lib.Accumulator
import AxonTask.Lib.Action
import AxonTask.Lib.Bytes
import AxonTask.Lib.Delimited
import AxonTask.Lib.Digits
import AxonTask.Lib.Expiry
import AxonTask.Lib.Handover
import AxonTask.Lib.HashChain
import AxonTask.Lib.Hmac
import AxonTask.Lib.Locks
import AxonTask.Lib.Machine
import AxonTask.Lib.Numbering
import AxonTask.Lib.Ownership
import AxonTask.Lib.Paging
import AxonTask.Lib.Pairs
import AxonTask.Lib.ParseInt
import AxonTask.Lib.Redis
import AxonTask.Lib.References
import AxonTask.Lib.Repetition
import AxonTask.Lib.Rfc3339
import AxonTask.Lib.Search
import AxonTask.Lib.Sha256
import AxonTask.Lib.StreamLog
import AxonTask.Lib.Table
import AxonTask.Lib.TokenBucket
import AxonTask.Lib.UpdateQuery
import AxonTask.Lib.Wildcard
import AxonTask.Shared.Accounts
import AxonTask.Shared.ApiKey
import AxonTask.Shared.ApiKeyLifecycle
import AxonTask.Shared.AppendRace
import AxonTask.Shared.Authorization
import AxonTask.Shared.Backoff
import AxonTask.Shared.Basic
import AxonTask.Shared.BatchReadBack
import AxonTask.Shared.Blocking
import AxonTask.Shared.Credentials
import AxonTask.Shared.EarliestId
import AxonTask.Shared.EventFields
import AxonTask.Shared.GapDetection
import AxonTask.Shared.HeadCommitment
import AxonTask.Shared.Heartbeat
import AxonTask.Shared.KeyFormat
import AxonTask.Shared.KeyVerification
import AxonTask.Shared.LagReports
import AxonTask.Shared.LastEvent
import AxonTask.Shared.LiveTail
import AxonTask.Shared.LogErasure
import AxonTask.Shared.LogReads
import AxonTask.Shared.Metrics
import AxonTask.Shared.PartialUpdates
import AxonTask.Shared.PublishEvent
import AxonTask.Shared.Quota
import AxonTask.Shared.SanitizeUrl
import AxonTask.Shared.Scopes
import AxonTask.Shared.Serialization
import AxonTask.Shared.StreamIdOrder
import AxonTask.Shared.StreamReader
import AxonTask.Shared.StreamWriter
import AxonTask.Shared.Tables
import AxonTask.Shared.TamperEvidence
import AxonTask.Shared.Task
import AxonTask.Shared.TaskEvent
import AxonTask.Shared.TaskStats
import AxonTask.Shared.Tenant
import AxonTask.Shared.TokenExpiry
import AxonTask.Shared.TrimmedReading
import AxonTask.Shared.TwinParsers
import AxonTask.Shared.Usage
import AxonTask.Shared.UsageAggregate
import AxonTask.Shared.UsageRetention
import AxonTask.Shared.Webhooks
import AxonTask.Worker.Adapter
import AxonTask.Worker.Agreement
import AxonTask.Worker.Cascades
import AxonTask.Worker.ClaimRace
import AxonTask.Worker.Completion
import AxonTask.Worker.ConcurrentEmit
import AxonTask.Worker.Control
import AxonTask.Worker.Delivery
import AxonTask.Worker.Dispatch
import AxonTask.Worker.EmitCalls
import AxonTask.Worker.Emitter
import AxonTask.Worker.EmitterChain
import AxonTask.Worker.Erasure
import AxonTask.Worker.Execute
import AxonTask.Worker.Fleet
import AxonTask.Worker.Forwarding
import AxonTask.Worker.Lifecycle
import AxonTask.Worker.LogUnderDeletion
import AxonTask.Worker.LostReply
import AxonTask.Worker.Mock
import AxonTask.Worker.Orchestrator
import AxonTask.Worker.Progress
import AxonTask.Worker.Queue
import AxonTask.Worker.Rejection
import AxonTask.Worker.SharedEmitter
import AxonTask.Worker.Shutdown
import AxonTask.Worker.TaskListing
import AxonTask.Worker.Timeout
import AxonTask.Worker.Waiting
