import Lubko.Lib.Execution
import Lubko.Durable.Directory
import Lubko.Lib.PyStr
import Lubko.Lib.Uuid
import Lubko.Worker.Types
import Lubko.Worker.GatedStart
import Lubko.Worker.Heartbeat
import Lubko.Worker.Tick
import Lubko.Worker.Lease
import Lubko.Lib.Bisect
import Lubko.Lib.Utf8
import Lubko.Output.Boundary
import Lubko.Output.Plan
import Lubko.Output.Publish
import Lubko.Output.Archive
import Lubko.Output.Replay
import Lubko.Lib.Json
import Lubko.Authority.Row
import Lubko.Authority.Fencing
import Lubko.Jobs.Statements
import Lubko.Jobs.Lifecycle
import Lubko.Lib.ReadCommitted
import Lubko.Lib.Outline
import Lubko.Jobs.Ownership
import Lubko.Output.Trim
import Lubko.Output.Capture
import Lubko.Jobs.Scan
import Lubko.Worker.SpawnFuture
import Lubko.Durable.Restore
import Lubko.Durable.Write
import Lubko.Lib.Guarantee
import Lubko.Worker.Finalize
import Lubko.Worker.Shutdown
import Lubko.Authority.Canonical
import Lubko.Authority.Migration
import Lubko.Protocol.Codec
import Lubko.Protocol.Totality
import Lubko.Supervise.State
import Lubko.Supervise.StateCodec
import Lubko.Supervise.Corruption
import Lubko.Lib.JsonFile
import Lubko.Lifecycle.Meta
import Lubko.Deploy.Rollback
import Lubko.Supervise.Desired
import Lubko.Supervise.FailClosed
import Lubko.Deploy.Intents
import Lubko.Deploy.SpawnGate
import Lubko.Deploy.Terminal
import Lubko.Startup.Artifacts
import Lubko.Startup.Mission
import Lubko.Startup.Evidence
import Lubko.Startup.Restore
import Lubko.Startup.Receipt
import Lubko.Deploy.Watchdog
import Lubko.Lifecycle.MetaCodec
import Lubko.Deploy.MissionCodec
import Lubko.Supervise.Handoff
import Lubko.Worker.Health
import Lubko.Supervise.Recovery
import Lubko.Supervise.Liveness
import Lubko.Deploy.Restart
import Lubko.Lib.LockWait
import Lubko.Supervise.LockOrder
import Lubko.Cli.Collect
import Lubko.Supervise.ColdMigration
import Lubko.Deploy.QueueHandoff
import Lubko.Worker.GroupRecovery
import Lubko.Lib.Utf8Text
import Lubko.Output.Text
import Lubko.Output.Chunks
import Lubko.Worker.Abandon
import Lubko.Worker.GateTiming
import Lubko.Worker.CaptureFailure
import Lubko.Worker.ExactSignal
import Lubko.Lib.JsonCompact
import Lubko.Supervise.ControlSocket
import Lubko.Supervise.ControlReplies
import Lubko.Supervise.Settings
import Lubko.Supervise.Backoff
import Lubko.Lib.Decimal
import Lubko.Jobs.Versions
import Lubko.Lib.Find
import Lubko.Deploy.Redaction
import Lubko.Supervise.Progress
import Lubko.Startup.Snapshot
import Lubko.Startup.Promotion
import Lubko.Lib.Instances
import Lubko.Supervise.Stopping
import Lubko.Deploy.Undo
import Lubko.Deploy.PendingRequest
import Lubko.Lib.Utf8Cut
import Lubko.Output.Alignment
import Lubko.Output.Bounded
import Lubko.Lib.Greedy
import Lubko.Worker.Retention
import Lubko.Lib.PyText
import Lubko.Lib.Conninfo
import Lubko.Worker.Credentials
import Lubko.Supervise.LegacyEvidence
import Lubko.Cli.Install
import Lubko.Lifecycle.Probe
import Lubko.Lib.Frames
import Lubko.Lib.FsText
import Lubko.Cli.Digest
import Lubko.Cli.Binding
import Lubko.Cli.Usable
import Lubko.Worker.Snapshot
import Lubko.Worker.SnapshotCodec
import Lubko.Worker.SnapshotRead
import Lubko.Lib.Rely
import Lubko.Lifecycle.AuthorityState
import Lubko.Authority.Effect
import Lubko.Spawn.World
import Lubko.Spawn.Invariant
import Lubko.Spawn.Calls
import Lubko.Spawn.Convergence
import Lubko.Spawn.Obligation
import Lubko.Spawn.Publication
import Lubko.Spawn.Retirement
import Lubko.Spawn.Reconcile
import Lubko.Spawn.Runs
