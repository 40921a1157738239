import EventFanout.Json.Reader
import EventFanout.Json.Printer
import EventFanout.Criteria.Wire
import EventFanout.Config
import EventFanout.Metrics
import EventFanout.Subscription
import EventFanout.Session.Run
import EventFanout.Proofs.Codec
import EventFanout.Proofs.Bytes
import EventFanout.Proofs.Criteria.Spelling
import EventFanout.Proofs.Hub.Work
import EventFanout.Proofs.Hub.Ledger
import EventFanout.Proofs.Hub.Evolution
import EventFanout.Proofs.Hub.Upstream
import EventFanout.Proofs.Hub.Registrations
import EventFanout.Proofs.Hub.Counters
import EventFanout.Proofs.Line
import EventFanout.Proofs.Run
import EventFanout.Proofs.Order
import EventFanout.Proofs.Hub.Lines
import EventFanout.Proofs.Hub.Works
import EventFanout.Proofs.Lifecycle.Change
import EventFanout.Proofs.Lifecycle.Calls
import EventFanout.Proofs.Lifecycle.Accepted
import EventFanout.Proofs.Lifecycle.Traced
import EventFanout.Proofs.Lifecycle.Signal
import EventFanout.Proofs.Bus
import EventFanout.Proofs.Bus.Register
import EventFanout.Proofs.Bus.Identity
import EventFanout.Proofs.Bus.Receipts
import EventFanout.Proofs.Hub.Feeds
import EventFanout.Proofs.Delivery.Dispatch
import EventFanout.Proofs.Delivery.Client
import EventFanout.Proofs.Delivery.EndToEnd
import EventFanout.Proofs.Dispatch.Interleaving
import EventFanout.Proofs.Cancellation
import EventFanout.Proofs.Departure
import EventFanout.Proofs.Admission.Limits
import EventFanout.Proofs.Admission.Rules
import EventFanout.Proofs.Shutdown
import EventFanout.Proofs.Hub.Endings
import EventFanout.Proofs.Attachment
import EventFanout.Proofs.Sharing
import EventFanout.Proofs.Agreement
import EventFanout.Proofs.Polling.Books
import EventFanout.Proofs.Polling.Moves
import EventFanout.Proofs.Counting.Intake
import EventFanout.Proofs.Counting.Deliveries
import EventFanout.Proofs.Counting.Truth
import EventFanout.Proofs.Untyped.Work
import EventFanout.Proofs.Untyped.Runs
import EventFanout.Proofs.Polling.Settling
import EventFanout.Proofs.Polling.Managed
import EventFanout.Proofs.Polling.Slots
import EventFanout.Proofs.Polling.Receivers
import EventFanout.Proofs.Polling.Correspondence
import EventFanout.Proofs.Polling.Filters
import EventFanout.Proofs.Polling.Clock
import EventFanout.Proofs.Polling.Expiry
import EventFanout.Proofs.Polling.Reading
import EventFanout.Proofs.Polling.Inbox
import EventFanout.Proofs.Polling.Collected
import EventFanout.Proofs.Criteria.Matching
import EventFanout.Proofs.Criteria.Building
import EventFanout.Proofs.Criteria.Validation
import EventFanout.Proofs.Criteria.Grammar
import EventFanout.Proofs.Verdict
import EventFanout.Proofs.Dispatch.FanOut
import EventFanout.Proofs.Hub.Progress
import EventFanout.Proofs.Polling.Termination
import EventFanout.Proofs.Delivery.Draining
import EventFanout.Proofs.Dispatch.Closure
import EventFanout.Proofs.Dispatch.Removals
import EventFanout.Proofs.Coherence
import EventFanout.Proofs.Attempt.Traceless
