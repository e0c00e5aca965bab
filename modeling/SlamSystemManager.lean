import SlamSystemManager.Library.Double
import SlamSystemManager.Library.ConsecutiveRuns
import SlamSystemManager.Library.TransitionSystem
import SlamSystemManager.Library.Progress
import SlamSystemManager.Library.Unwinding
import SlamSystemManager.Library.Mailbox
import SlamSystemManager.Library.Gate
import SlamSystemManager.Library.Interleaving
import SlamSystemManager.Library.Path
import SlamSystemManager.Library.Posix
import SlamSystemManager.Library.Template
import SlamSystemManager.Messages
import SlamSystemManager.SystemState
import SlamSystemManager.MapManager
import SlamSystemManager.MapRoot
import SlamSystemManager.MapFiles
import SlamSystemManager.MapFiles.Views
import SlamSystemManager.MapFiles.Listing
import SlamSystemManager.ProcessManager
import SlamSystemManager.ProcessManager.Records
import SlamSystemManager.ProcessManager.Leaders
import SlamSystemManager.ProcessManager.Threads
import SlamSystemManager.ProcessManager.StopProtocol
import SlamSystemManager.ProcessManager.Groups
import SlamSystemManager.ProcessManager.Expansion
import SlamSystemManager.RelocalizationAdapter
import SlamSystemManager.Quality.Config
import SlamSystemManager.Quality.Monitor
import SlamSystemManager.Quality.Hysteresis
import SlamSystemManager.Quality.Recovery
import SlamSystemManager.Quality.Streams
import SlamSystemManager.Quality.Soundness
import SlamSystemManager.Quality.Registration
import SlamSystemManager.Quality.Scores
import SlamSystemManager.Quality.Arithmetic
import SlamSystemManager.Quality.Reasons
import SlamSystemManager.Quality.Silence
import SlamSystemManager.Quality.FullScores
import SlamSystemManager.Quality.Localizable
import SlamSystemManager.Quality.Isolation
import SlamSystemManager.Quality.Topics
import SlamSystemManager.Quality.Rounds
import SlamSystemManager.Manager.State
import SlamSystemManager.HealthMonitor
import SlamSystemManager.HealthMonitor.Window
import SlamSystemManager.Manager.Operations
import SlamSystemManager.LocalizationAdapter
import SlamSystemManager.LocalizationAdapter.Startup
import SlamSystemManager.Manager.Handlers
import SlamSystemManager.Manager.System
import SlamSystemManager.Manager.Effects
import SlamSystemManager.Manager.Construction
import SlamSystemManager.Manager.Writes
import SlamSystemManager.Manager.Token
import SlamSystemManager.Manager.Ownership
import SlamSystemManager.Manager.Exclusion
import SlamSystemManager.Manager.Sessions
import SlamSystemManager.Manager.Confirmation
import SlamSystemManager.Manager.TrustedPose
import SlamSystemManager.Manager.MapInUse
import SlamSystemManager.Manager.Orphans
import SlamSystemManager.Manager.Store
import SlamSystemManager.Manager.SaveRequests
import SlamSystemManager.Manager.LastPose
import SlamSystemManager.Manager.SaveWorker
import SlamSystemManager.Manager.Output
import SlamSystemManager.Manager.Retry
import SlamSystemManager.Manager.Rollback
import SlamSystemManager.Manager.RefusedRequests
import SlamSystemManager.Manager.Phases
import SlamSystemManager.Manager.SavedPoses
import SlamSystemManager.Manager.SensorFailure
import SlamSystemManager.Manager.SensorTimer
import SlamSystemManager.Manager.ErrorFields
import SlamSystemManager.Manager.RecoveryOutcome
import SlamSystemManager.Manager.SessionMap
import SlamSystemManager.Manager.StatusFields
import SlamSystemManager.Manager.SavedMaps
import SlamSystemManager.Manager.Selection
import SlamSystemManager.Manager.Progress
import SlamSystemManager.Manager.Settled
import SlamSystemManager.Manager.Return
import SlamSystemManager.Manager.Transitions
import SlamSystemManager.Manager.Status
import SlamSystemManager.ProcessManager.Lifecycle
import SlamSystemManager.Library.Refinement
import SlamSystemManager.ProcessManager.LeaderTable
import SlamSystemManager.Manager.LeaderTable
import SlamSystemManager.Manager.Runs
import SlamSystemManager.Manager.Missions
import SlamSystemManager.Library.Yaml
import SlamSystemManager.ConfigManager
import SlamSystemManager.Library.Replacement
import SlamSystemManager.MappingAdapter
import SlamSystemManager.ProcessManager.Definitions
import SlamSystemManager.MapFiles.Documents
