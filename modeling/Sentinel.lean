import Sentinel.Api.Accounts
import Sentinel.Api.Body
import Sentinel.Api.DemoSeed
import Sentinel.Api.Hosts
import Sentinel.Api.Monitors
import Sentinel.Api.ProductionEnv
import Sentinel.Api.PublicStatus
import Sentinel.Api.Quota
import Sentinel.Api.Reads
import Sentinel.Api.StatusCache
import Sentinel.Api.StatusSeed
import Sentinel.Api.Target
import Sentinel.Checker.Blocked
import Sentinel.Checker.Client
import Sentinel.Checker.Http
import Sentinel.Database.Identity
import Sentinel.Database.Ledger
import Sentinel.Database.Session
import Sentinel.Database.Shared
import Sentinel.Frontend.Agreement
import Sentinel.Frontend.ChartScale
import Sentinel.Frontend.Headline
import Sentinel.Frontend.HistoryHook
import Sentinel.Frontend.Jwt
import Sentinel.Frontend.RetryAfter
import Sentinel.Frontend.StatusPage
import Sentinel.Health.Heartbeat
import Sentinel.Library.Descent
import Sentinel.Library.Embed
import Sentinel.Library.FixedWidth
import Sentinel.Library.Sweep
import Sentinel.Library.Tickets
import Sentinel.Scripts.BackupRun
import Sentinel.System.Access
import Sentinel.System.Budget
import Sentinel.System.Checks
import Sentinel.System.DemoQuota
import Sentinel.System.Isolation
import Sentinel.System.Liveness
import Sentinel.System.Login
import Sentinel.System.Pace
import Sentinel.System.Polling
import Sentinel.System.Pruning
import Sentinel.System.Publication
import Sentinel.System.Reconciliation
import Sentinel.System.Registration
import Sentinel.System.Requests
import Sentinel.System.Restoration
import Sentinel.System.Service
import Sentinel.System.SharedManifest
import Sentinel.System.Shutdown
import Sentinel.System.Streak
import Sentinel.System.Timeline
import Sentinel.System.Uptime
import Sentinel.System.Zone
import Sentinel.Worker.Batches
import Sentinel.Worker.Config
import Sentinel.Worker.DemoReset
import Sentinel.Worker.Fsm
import Sentinel.Worker.Manifest
import Sentinel.Worker.PollCycle
import Sentinel.Worker.Recording
import Sentinel.Worker.Retention
import Sentinel.Worker.Timers
import Sentinel.Worker.Trail
