import Ffdb.Rls.History
import Ffdb.Rls.Tokens
import Ffdb.Sync.Replica
import Ffdb.Worker.Commands
import Ffdb.Runtime.Paging
import Ffdb.Runtime.Reloading
import Ffdb.Runtime.Trust
import Ffdb.DatabaseWorker.Once
import Ffdb.DatabaseWorker.Versions
import Ffdb.Backup.Integrity
import Ffdb.RateLimits.Postgres
import Ffdb.Audit.Redaction
import Ffdb.Audit.Evidence
import Ffdb.Api.Idempotency
import Ffdb.ObjectStorage.Listing
import Ffdb.ObjectStorage.Receipts
import Ffdb.ObjectStorage.Quota
import Ffdb.ObjectStorage.LiveData
import Ffdb.Client.AutoSync
import Ffdb.Client.Redelivery
import Ffdb.Client.Results
import Ffdb.Client.Recovery
import Ffdb.Metrics.Retries
import Ffdb.Commerce.InPlace
import Ffdb.Sync.Atomicity
import Ffdb.Commerce.Persistence
import Ffdb.Auth.Cutover
import Ffdb.Email.Ownership
import Ffdb.Billing.Confluence
import Ffdb.Metrics.Timeline
import Ffdb.Metrics.Sealing
import Ffdb.Metrics.Integrals
import Ffdb.Metrics.Reporting
import Ffdb.Metrics.Replays
import Ffdb.Observability.Redaction
import Ffdb.Migration.Checksum
import Ffdb.Sql.Rendering
import Ffdb.Sync.Cursors
import Ffdb.Auth.SigningKeys
import Ffdb.DatabaseRouter.Exchange
