import AgentStudio.Async.Coro
import AgentStudio.Async.Pool
import AgentStudio.Async.Shared
import AgentStudio.Log.Numbered
import AgentStudio.Py.Text
import AgentStudio.Gateway.Types
import AgentStudio.Gateway.Quota
import AgentStudio.Gateway.QuotaLedger
import AgentStudio.Gateway.Catalog
import AgentStudio.Gateway.Router
import AgentStudio.Gateway.Service
import AgentStudio.Gateway.Settlement
import AgentStudio.Gateway.StreamSettlement
import AgentStudio.Orchestration.State
import AgentStudio.Orchestration.Nodes
import AgentStudio.Orchestration.Graph
import AgentStudio.Orchestration.Effects
import AgentStudio.Orchestration.Walk
import AgentStudio.Orchestration.Termination
import AgentStudio.Orchestration.Release
import AgentStudio.Orchestration.Streaming
import AgentStudio.Governance.Enforcement
import AgentStudio.Api.StreamRoute
import AgentStudio.Threads.Store
import AgentStudio.Threads.Transactions
import AgentStudio.Threads.MessageLog
import AgentStudio.Threads.EventLog
import AgentStudio.Threads.Dedup
import AgentStudio.Compaction.Service
import AgentStudio.Compaction.Boundary
import AgentStudio.Compaction.Scene
import AgentStudio.Compaction.Compact
import AgentStudio.Compaction.Coverage
import AgentStudio.Compaction.Layers
import AgentStudio.Compaction.Progress
import AgentStudio.Threads.Tail
import AgentStudio.Session.HotTier
import AgentStudio.Session.SummaryCopy
import AgentStudio.Api.History
import AgentStudio.Api.TurnOrder
import AgentStudio.Webhooks.Outbox
import AgentStudio.Webhooks.Delivery
import AgentStudio.Session.Coordinator
import AgentStudio.Session.Exclusion
import AgentStudio.Context.Assembler
import AgentStudio.Context.Standing
import AgentStudio.Stream.Replay
import AgentStudio.Stream.Failover
import AgentStudio.Queue.Manager
import AgentStudio.Queue.Conservation
import AgentStudio.Queue.Idempotent
import AgentStudio.Queue.Scheduled
import AgentStudio.Governance.Promotion
import AgentStudio.Governance.Rollout
import AgentStudio.Governance.Pipeline
import AgentStudio.Governance.Regression
import AgentStudio.Governance.Monitor
import AgentStudio.Log.Chain
import AgentStudio.Audit.Trail
import AgentStudio.Audit.Intact
import AgentStudio.Py.Iso
import AgentStudio.Audit.Tampered
import AgentStudio.Gateway.Exhaustion
import AgentStudio.Async.Eval
import AgentStudio.Async.Observe
import AgentStudio.Gateway.Parity
import AgentStudio.Gateway.MidStream
import AgentStudio.Gateway.Terminal
import AgentStudio.Orchestration.ToolBudget
import AgentStudio.Gateway.Parts
import AgentStudio.Gateway.Attempts
import AgentStudio.Gateway.Staged
import AgentStudio.Gateway.Pinned
import AgentStudio.Gateway.Windows
import AgentStudio.Gateway.Charges
import AgentStudio.Gateway.Spend
import AgentStudio.Async.Logged
import AgentStudio.Gateway.ExactCache
import AgentStudio.Async.Turns
import AgentStudio.Gateway.Admission
import AgentStudio.Gateway.Semaphores
import AgentStudio.Gateway.Slots
import AgentStudio.Orchestration.Registry
import AgentStudio.Orchestration.Visits
import AgentStudio.Governance.Authorized
import AgentStudio.Orchestration.Paired
import AgentStudio.Orchestration.Sent
import AgentStudio.Orchestration.Checkpoints
import AgentStudio.Db.Replicas
import AgentStudio.Retrieval.Tenants
import AgentStudio.Threads.Isolation
import AgentStudio.Session.Mutations
import AgentStudio.Lifecycle.Erasure
import AgentStudio.Session.PromptPrefix
import AgentStudio.Async.Halts
import AgentStudio.Memory.Watermark
import AgentStudio.Widget.Settled
import AgentStudio.Widget.Retraction
import AgentStudio.Gateway.Ledger
import AgentStudio.Gateway.Accounting
import AgentStudio.Session.Ownership
import AgentStudio.Session.Outage
import AgentStudio.Session.Limits
import AgentStudio.Rate.Metered
import AgentStudio.Rate.Limiter
import AgentStudio.Rate.Bound
import AgentStudio.Rate.Exact
import AgentStudio.Packing.Greedy
import AgentStudio.Context.Layout
import AgentStudio.Context.Prompt
import AgentStudio.Threads.Redacted
import AgentStudio.Session.Redaction
import AgentStudio.Threads.Clearing
import AgentStudio.Threads.Forking
import AgentStudio.Gateway.Cooldown
import AgentStudio.Guardrails.Recovery
import AgentStudio.Usage.Conservation
import AgentStudio.Compaction.Prompts
import AgentStudio.Api.Moderated
import AgentStudio.Gateway.Adapters
import AgentStudio.Tools.Stdio
import AgentStudio.Queue.Drain
import AgentStudio.Patterns.CircuitBreaker
import AgentStudio.Guardrails.Pipeline
import AgentStudio.Cache.Manager
import AgentStudio.Governance.PolicySets
import AgentStudio.Validation.Window
import AgentStudio.Widget.Utf8
import AgentStudio.Widget.Bytes
import AgentStudio.Session.Tokens
import AgentStudio.Py.Tally
import AgentStudio.Retrieval.Scores
import AgentStudio.Retrieval.Fusion
import AgentStudio.Queue.TurnJobs
import AgentStudio.Ingestion.Service
import AgentStudio.Ingestion.FollowUp
import AgentStudio.Api.Release
import AgentStudio.Api.Replay
import AgentStudio.Api.Disconnect
import AgentStudio.Ingestion.Chunkers
import AgentStudio.Ingestion.Duplicates
import AgentStudio.Compaction.Partition
import AgentStudio.Packing.Bands
import AgentStudio.Prompts.Variants
import AgentStudio.Packing.Ranking
import AgentStudio.Memory.Retrieval
import AgentStudio.Guardrails.Redaction
import AgentStudio.Py.Infix
import AgentStudio.Async.Upholds
import AgentStudio.Gateway.Classified
import AgentStudio.Orchestration.Overflow
import AgentStudio.Orchestration.Provenance
import AgentStudio.Packing.Layout
import AgentStudio.Ingestion.Offsets
import AgentStudio.Async.Generator
import AgentStudio.Py.Join
import AgentStudio.Adapters.OpenAI
import AgentStudio.Adapters.Anthropic
import AgentStudio.Adapters.Parity
import AgentStudio.Async.History
import AgentStudio.Py.Numeral
import AgentStudio.Access.Totp
import AgentStudio.Py.Uuid
import AgentStudio.Py.Split
import AgentStudio.Access.Calls
import AgentStudio.Access.Oidc
import AgentStudio.Access.Principal
import AgentStudio.Access.Routes
import AgentStudio.Async.Heeds
import AgentStudio.Access.Store
import AgentStudio.Access.Evidence
import AgentStudio.Access.Licences
import AgentStudio.Access.Keys
import AgentStudio.Access.Enrolment
import AgentStudio.Access.Logins
