import TeamInbox.Orchestrator.NodeLease
import TeamInbox.Orchestrator.LaunchExclusion
import TeamInbox.Orchestrator.WorkerCap
import TeamInbox.Orchestrator.FleetCap
import TeamInbox.Worker.SendOutcome
import TeamInbox.Worker.GroupOnce
import TeamInbox.Worker.SchedulerSafety
import TeamInbox.Worker.StatusConvergence
import TeamInbox.Cases.History
import TeamInbox.Outbox.Wakeup
import TeamInbox.Broadcast.SentOnce
import TeamInbox.Broadcast.Cancellation
import TeamInbox.Broadcast.Finalisation
import TeamInbox.Broadcast.Quota
import TeamInbox.Broadcast.Idempotence
import TeamInbox.Messages.OneRow
import TeamInbox.Api.MarkerOnce
import TeamInbox.Api.SyncLifecycle
import TeamInbox.Auth.TokenBinding
import TeamInbox.Auth.Revocation
import TeamInbox.Contacts.Correction
import TeamInbox.Contacts.ListGroups
import TeamInbox.Messages.FirstMedia
import TeamInbox.Api.LogoutStamp
import TeamInbox.Api.EndedSessions
import TeamInbox.Channels.DeliveryRank
import TeamInbox.Channels.MergeSurvival
import TeamInbox.Media.Dangling
import TeamInbox.Messages.StaleSends
import TeamInbox.Channels.StatusAnnounced
import TeamInbox.Cases.GuardHeld
import TeamInbox.Media.FetchSettled
import TeamInbox.Api.EventsKept
import TeamInbox.Orchestrator.SpawnAcknowledged
import TeamInbox.Orchestrator.ReadinessAutomaton
import TeamInbox.Orchestrator.RestartBudget
import TeamInbox.Worker.ReconnectLoop
import TeamInbox.Worker.BootstrapRepair
import TeamInbox.Worker.GroupRefresh
import TeamInbox.Worker.Mentions
import TeamInbox.Worker.HistorySync
import TeamInbox.Sla.Trends
import TeamInbox.Api.RefreshRotation
import TeamInbox.Broadcast.Snapshot
import TeamInbox.Connections.PurgedConnection
import TeamInbox.Api.CustomerTimeline
import TeamInbox.Channels.Mutations
import TeamInbox.Media.Census
import TeamInbox.Channels.Reactions
import TeamInbox.Api.LimiterRecency
import TeamInbox.Media.LockOrder
import TeamInbox.Orchestrator.RestartDelay
import TeamInbox.Import.Parsing
