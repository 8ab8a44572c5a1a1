import WebhookReceiver.Rounding
import WebhookReceiver.Store.Integrity
import WebhookReceiver.Services
import WebhookReceiver.Txn.Logic
import WebhookReceiver.Store.Facts
import WebhookReceiver.Store.Teaching
import WebhookReceiver.Commits
import WebhookReceiver.Discipline
import WebhookReceiver.Passes
import WebhookReceiver.Verified
import WebhookReceiver.Runs
import WebhookReceiver.Books
import WebhookReceiver.Reconciliation
import WebhookReceiver.Finality
import WebhookReceiver.RetryBudget
import WebhookReceiver.DeadLetters
import WebhookReceiver.Idempotence
import WebhookReceiver.Txn.Solo
import WebhookReceiver.Undisturbed
import WebhookReceiver.Serializability
import WebhookReceiver.Deduplication
import WebhookReceiver.Register
import WebhookReceiver.Versions
import WebhookReceiver.Answers
import WebhookReceiver.AttemptLog
import WebhookReceiver.Convergence
import WebhookReceiver.Counters
import WebhookReceiver.Custody
import WebhookReceiver.Entries
import WebhookReceiver.ReviewQueue
import WebhookReceiver.Acceptance
import WebhookReceiver.Captures
import WebhookReceiver.Api.SignatureHeader
import WebhookReceiver.Api.Authenticity
import WebhookReceiver.Rejections
import WebhookReceiver.Metrics
import WebhookReceiver.Retention
import WebhookReceiver.AuditTrail
import WebhookReceiver.Numbering
import WebhookReceiver.Txn.Lone
import WebhookReceiver.Solitude
import WebhookReceiver.Atomicity
import WebhookReceiver.ReferenceMachine
import WebhookReceiver.Backoff
import WebhookReceiver.Txn.Recovery
import WebhookReceiver.Worker
import WebhookReceiver.Propagation
import WebhookReceiver.Outages
import WebhookReceiver.Txn.Phases
import WebhookReceiver.Audit
import WebhookReceiver.Startup
import WebhookReceiver.TimeBounds
import WebhookReceiver.Snapshots
import WebhookReceiver.Draining
import WebhookReceiver.Txn.Terms
import WebhookReceiver.Attribution
import WebhookReceiver.Txn.Pairs
import WebhookReceiver.Redaction
import WebhookReceiver.LockOrder
import WebhookReceiver.Views
import WebhookReceiver.Grading
import WebhookReceiver.Polling
import WebhookReceiver.Batches
import WebhookReceiver.Fairness
import WebhookReceiver.Origins
import WebhookReceiver.Sending
import WebhookReceiver.Paging
import WebhookReceiver.Listings
