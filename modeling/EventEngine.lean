import EventEngine.Relational.Tables
import EventEngine.Relational.Transactions
import EventEngine.Relational.Runs
import EventEngine.Relational.LastWriter
import EventEngine.Relational.Interleaving
import EventEngine.Relational.Triples
import EventEngine.Relational.Behaviours
import EventEngine.Relational.Draining
import EventEngine.Relational.Guarantees
import EventEngine.Properties.Rebuilding
import EventEngine.Json
import EventEngine.Types
import EventEngine.Store
import EventEngine.Payload
import EventEngine.Ingestion
import EventEngine.Decisions
import EventEngine.Application
import EventEngine.Processing
import EventEngine.Scheduler
import EventEngine.Judgement
import EventEngine.Effects
import EventEngine.JudgementProofs
import EventEngine.Verdicts
import EventEngine.Outcomes
import EventEngine.Lifecycle
import EventEngine.Polling
import EventEngine.DecidedOnce
import EventEngine.Deduplication
import EventEngine.Ledger
import EventEngine.Money
import EventEngine.Transitions
import EventEngine.Replay
import EventEngine.Registers
import EventEngine.Atomicity
import EventEngine.Projections
import EventEngine.PollOrder
import EventEngine.Figures
import EventEngine.Ranges
import EventEngine.Statistics
import EventEngine.FailedClaims
import EventEngine.Freshness
import EventEngine.Refunds
import EventEngine.Explanation
import EventEngine.OrderDetails
import EventEngine.OrderViews
import EventEngine.Requests
import EventEngine.AwaitPoints
import EventEngine.SingleWorker
import EventEngine.Selections
import EventEngine.RestrictedRuns
import EventEngine.Isolation
import EventEngine.Content
import EventEngine.Backlog
import EventEngine.EventInspector
import EventEngine.Agreement
import EventEngine.MoneyDisplay
import EventEngine.Rederivation
import EventEngine.Schema
import EventEngine.Growth
import EventEngine.Crashes
import EventEngine.Justification
import EventEngine.Answers
import EventEngine.TornViews
import EventEngine.Receipts
import EventEngine.EventReports
import EventEngine.TornReports
import EventEngine.PollPass
import EventEngine.RetrySpacing
import EventEngine.Redelivery
import EventEngine.Liveness
