import Csl.Agent.Approvals.Cache
import Csl.Agent.Approvals.Crash
import Csl.Agent.Approvals.Elsewhere
import Csl.Agent.Approvals.FailingDisk
import Csl.Agent.Approvals.Isolation
import Csl.Agent.Approvals.OwnMetadata
import Csl.Agent.Approvals.Runnable
import Csl.Agent.Approvals.Sharing
import Csl.Agent.Approvals.Table
import Csl.Agent.Approvals.TempFile
import Csl.Agent.Approvals.Versions
import Csl.Agent.Approvals.Whitelist
import Csl.Agent.Cli.Approvals
import Csl.Agent.Cli.AuthorizedKeys
import Csl.Agent.Cli.PolicyFile
import Csl.Agent.Cli.Purge
import Csl.Agent.Cli.Review
import Csl.Agent.Confinement
import Csl.Agent.Installation
import Csl.Agent.Jobs.ExpectedMd5
import Csl.Agent.Jobs.Launches
import Csl.Agent.Jobs.Refusals
import Csl.Agent.Jobs.Reported
import Csl.Agent.Jobs.Submission
import Csl.Agent.Lifecycle
import Csl.Agent.Middleware
import Csl.Agent.ProcessManager.Lifetime
import Csl.Agent.ProcessManager.Outcomes
import Csl.Agent.ProcessManager.Signals
import Csl.Agent.ProcessManager.Tracking
import Csl.Agent.ScriptNames
import Csl.Agent.ScriptRunner.Environment
import Csl.Agent.ScriptRunner.ValidatedParams
import Csl.Library.Interference
import Csl.Library.Recorded
import Csl.Library.TempRename
import Csl.Server.AgentClient
import Csl.Server.AgentUrls
import Csl.Server.Api.Jobs
import Csl.Server.Auth.RefreshOnce
import Csl.Server.Enrollment.Registering
import Csl.Server.Fleet.Provenance
import Csl.Server.Installation
import Csl.Server.JobReconciler
import Csl.Server.Jobs.Access
import Csl.Server.Jobs.FinalStatus
import Csl.Server.Jobs.Lost
import Csl.Server.Jobs.Mapped
import Csl.Server.Jobs.ResolvedVersion
import Csl.Server.Listings
import Csl.Server.LogStream.Live
import Csl.Server.ScriptRegistry
import Csl.Server.ScriptSync
import Csl.Server.ScriptSync.CachedRow
import Csl.Server.ScriptSync.Deployment
import Csl.Server.ScriptSync.Metadata
import Csl.Server.ScriptSync.Waiting
import Csl.Server.Session.Audited
import Csl.Server.Session.LibraryRows
import Csl.Server.Session.Owners
import Csl.Server.Ssh.Tunnels
import Csl.Server.Web.AdminKept
import Csl.Server.Web.LoginRedirects
import Csl.Server.Web.RunForm
import Csl.Shared.Registration.RoundTrip
import Csl.Shared.Validation
