import Susm.Foundation.EventMachine
import Susm.Foundation.Duration
import Susm.Domain.Execution.Terminal
import Susm.Supervisor.JournalDurability
import Susm.Supervisor.RunnerRecovery
import Susm.Supervisor.RetryBudget
import Susm.Supervisor.ObservationSequence
import Susm.Supervisor.CommandLine
import Susm.Supervisor.BackoffUpdates
import Susm.Supervisor.Identities
import Susm.Supervisor.ObservationDelivery
import Susm.Supervisor.LinkFailures
import Susm.Controller.ExecutionRows
import Susm.Controller.StopIntents
import Susm.Controller.FinishedExecutions
import Susm.Controller.Supervisors
import Susm.Controller.StartIntents
import Susm.Controller.StoppedServices
import Susm.Domain.Controller.JobActivity
import Susm.Domain.Controller.ServiceControl
import Susm.Domain.SupervisorBinding.Attachment
import Susm.Controller.EnabledTriggers
import Susm.Controller.Kinds
import Susm.Controller.Removals
import Susm.Controller.Recoveries
import Susm.Controller.Outcomes
import Susm.Controller.AcceptedConfigurations
import Susm.Controller.SupervisorBackoff
import Susm.Config.Canonical
import Susm.Config.Raw
import Susm.Supervisor.RuntimeReader
import Susm.Supervisor.Interpolation
import Susm.Supervisor.ExecutableLookup
import Susm.Controller.ExecutionPages
import Susm.Controller.WorkloadPages
import Susm.Diagnostics.Retention
import Susm.Supervisor.SegmentRuns
import Susm.Controller.LogRaces
import Susm.Supervisor.EnvironmentBlock
import Susm.Supervisor.LaunchPlan
import Susm.Config.Defaults
import Susm.Controller.EnvironmentOverlays
import Susm.Controller.ReplacedDefinitions
import Susm.Host.Shutdown
import Susm.Host.ManagerSessions
import Susm.Installer.GarbageCollection
import Susm.Installer.LaunchedVersions
import Susm.Controller.LogCursor
import Susm.Controller.Memory
import Susm.Controller.StopDelivery
import Susm.Controller.PolicyAgreement
import Susm.Controller.WatchStreams
import Susm.Diagnostics.Lines
import Susm.Host.RunnerProcesses
import Susm.Host.LaunchBudget
import Susm.Host.RunnerEnd
import Susm.Controller.Reloads
import Susm.Supervisor.CapturedChunks
import Susm.Controller.CapturedLogs
