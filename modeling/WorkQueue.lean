import WorkQueue.Binary64
import WorkQueue.Binary64.Shortest
import WorkQueue.CommandLine.Grammar
import WorkQueue.CommandLine.Reader
import WorkQueue.CommandLine.Refusal
import WorkQueue.Consumer.Account
import WorkQueue.Consumer.Basic
import WorkQueue.Consumer.Fleet
import WorkQueue.Consumer.Journal
import WorkQueue.Consumer.Timeline
import WorkQueue.ControlClient
import WorkQueue.Database.Address
import WorkQueue.Database.Connection
import WorkQueue.Database.Migration
import WorkQueue.Database.Statement
import WorkQueue.Failure
import WorkQueue.Failure.Named
import WorkQueue.Gate
import WorkQueue.Gate.Attendance
import WorkQueue.Gate.Crowd
import WorkQueue.Handler
import WorkQueue.Http.Message
import WorkQueue.Http.Route
import WorkQueue.Http.Target
import WorkQueue.Json.Fault
import WorkQueue.Json.Grammar
import WorkQueue.Json.Lexeme
import WorkQueue.Json.Printer
import WorkQueue.Json.Reader
import WorkQueue.Json.Schema
import WorkQueue.Json.Shape
import WorkQueue.Json.Typed
import WorkQueue.Json.Value
import WorkQueue.Main
import WorkQueue.NameMap
import WorkQueue.Net.Host
import WorkQueue.Net.Percent
import WorkQueue.Net.Punycode
import WorkQueue.Net.Query
import WorkQueue.Net.SocketAddress
import WorkQueue.Net.Url
import WorkQueue.Payload.Basic
import WorkQueue.Payload.Catalog
import WorkQueue.Payload.Handling
import WorkQueue.ProcessorState
import WorkQueue.Producer
import WorkQueue.Program.Invocation
import WorkQueue.Program.Isolated
import WorkQueue.Program.Run
import WorkQueue.Proofs.Binary64.Decimal
import WorkQueue.Proofs.Binary64.Rounding
import WorkQueue.Proofs.Binary64.Shortest
import WorkQueue.Proofs.Consumer.Account
import WorkQueue.Proofs.Consumer.Acknowledgement
import WorkQueue.Proofs.Consumer.Booking
import WorkQueue.Proofs.Consumer.Budget
import WorkQueue.Proofs.Consumer.Cancellation
import WorkQueue.Proofs.Consumer.Custody
import WorkQueue.Proofs.Consumer.Drain
import WorkQueue.Proofs.Consumer.Eviction
import WorkQueue.Proofs.Consumer.Iteration
import WorkQueue.Proofs.Consumer.Lease
import WorkQueue.Proofs.Consumer.Pace
import WorkQueue.Proofs.Consumer.Passage
import WorkQueue.Proofs.Consumer.Retry
import WorkQueue.Proofs.Consumer.Schedule
import WorkQueue.Proofs.Consumer.Step
import WorkQueue.Proofs.Consumer.Stop
import WorkQueue.Proofs.Consumer.Telemetry
import WorkQueue.Proofs.Consumer.Work
import WorkQueue.Proofs.Database.Window
import WorkQueue.Proofs.Gate.Exclusion
import WorkQueue.Proofs.Gate.Presence
import WorkQueue.Proofs.Gate.Rest
import WorkQueue.Proofs.Gate.Wakeup
import WorkQueue.Proofs.Json.Document
import WorkQueue.Proofs.Json.Grammar
import WorkQueue.Proofs.Json.Numeral
import WorkQueue.Proofs.Json.Quotation
import WorkQueue.Proofs.Json.Reading
import WorkQueue.Proofs.Json.Real
import WorkQueue.Proofs.Json.Record
import WorkQueue.Proofs.Json.Token
import WorkQueue.Proofs.NameMap
import WorkQueue.Proofs.Payload.Acceptance
import WorkQueue.Proofs.Payload.Compatibility
import WorkQueue.Proofs.Payload.Wire
import WorkQueue.Proofs.Producer
import WorkQueue.Proofs.Queue.Refinement
import WorkQueue.Proofs.Queue.Timestamp
import WorkQueue.Proofs.Queue.View
import WorkQueue.Proofs.Queue.Visibility
import WorkQueue.Proofs.Registry
import WorkQueue.Proofs.Replica.Broadcast
import WorkQueue.Proofs.Replica.Drain
import WorkQueue.Proofs.Replica.FairLock
import WorkQueue.Proofs.Replica.Passage
import WorkQueue.Proofs.Replica.Recording
import WorkQueue.Proofs.Replica.Report
import WorkQueue.Proofs.Replica.Schedule
import WorkQueue.Proofs.Replica.Service
import WorkQueue.Proofs.Replica.Settling
import WorkQueue.Proofs.Replica.Turn
import WorkQueue.Proofs.Settings
import WorkQueue.Proofs.Text.ByteOrder
import WorkQueue.Proofs.Text.Trim
import WorkQueue.Proofs.WorkItem
import WorkQueue.Queue.History
import WorkQueue.Queue.InMemory
import WorkQueue.Queue.Message
import WorkQueue.Queue.Unreliable
import WorkQueue.Registry
import WorkQueue.Registry.Dispatch
import WorkQueue.Replica.Basic
import WorkQueue.Replica.Broadcast
import WorkQueue.Replica.Course
import WorkQueue.Replica.FairLock
import WorkQueue.Replica.States
import WorkQueue.Replica.Status
import WorkQueue.Replica.Timeline
import WorkQueue.Settings
import WorkQueue.Telemetry.Log
import WorkQueue.Telemetry.Metric
import WorkQueue.Telemetry.Notice
import WorkQueue.Telemetry.Setup
import WorkQueue.Telemetry.Span
import WorkQueue.Text.Blank
import WorkQueue.Text.Decimal
import WorkQueue.Text.Quoted
import WorkQueue.Text.Similarity
import WorkQueue.Text.Split
import WorkQueue.Text.Unprintable
import WorkQueue.Text.Utf8
import WorkQueue.Time.Calendar
import WorkQueue.Time.Duration
import WorkQueue.Time.Rfc3339
import WorkQueue.WorkItem
import WorkQueue.WorkItem.Identity
import WorkQueue.WorkItem.Written
