import Assaybank.Api.RequestPath
import Assaybank.Bank.Exported
import Assaybank.Bank.Listing
import Assaybank.Bank.Supply
import Assaybank.Collab.Delivery
import Assaybank.Collab.Handshake
import Assaybank.Collab.Protocol
import Assaybank.Contracts.CandidateView
import Assaybank.Credentials.AttemptAuth
import Assaybank.Credentials.AttemptToken
import Assaybank.Credentials.SingleUse
import Assaybank.Db.AuditLog
import Assaybank.Db.CopyForward
import Assaybank.Db.Tenancy
import Assaybank.Domain.Apportioned
import Assaybank.Domain.AttemptState
import Assaybank.Domain.DrawOrder
import Assaybank.Domain.RolledUp
import Assaybank.Domain.Shuffle
import Assaybank.Grading.Aggregate
import Assaybank.Grading.Agreement
import Assaybank.Grading.Anchoring
import Assaybank.Grading.Psychometrics
import Assaybank.Grading.Reported
import Assaybank.Grading.Selections
import Assaybank.Interchange.AssertionGroups
import Assaybank.Interchange.BankDocument
import Assaybank.Interchange.Exact
import Assaybank.Interchange.Hundredths
import Assaybank.Interchange.Verdicts
import Assaybank.Interchange.WholeMembers
import Assaybank.Jobs.BankImport
import Assaybank.Jobs.DeadLetter
import Assaybank.Jobs.Resume
import Assaybank.Jobs.RoundTrip
import Assaybank.Jobs.SingleRun
import Assaybank.Jobs.TraceContext
import Assaybank.Library.History
import Assaybank.Library.OrderedMap
import Assaybank.LiveRegion.Announcer
import Assaybank.Markdown.Detection
import Assaybank.Markdown.Entities
import Assaybank.Markdown.Precedence
import Assaybank.Markdown.Progress
import Assaybank.Markdown.Safety
import Assaybank.Markdown.TextRuns
import Assaybank.Net.Connection
import Assaybank.Observability.ErrorLines
import Assaybank.Observability.SeriesGuard
import Assaybank.Org.Commits
import Assaybank.Sittings.Applications
import Assaybank.Sittings.Attempts
import Assaybank.Sittings.LiveInvitations
import Assaybank.Taxonomy.Forest
import Assaybank.Time.Thresholds
