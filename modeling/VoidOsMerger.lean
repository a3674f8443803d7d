import VoidOsMerger.Base.CText
import VoidOsMerger.Base.Run
import VoidOsMerger.Base.Table
import VoidOsMerger.Scheduler.Model
import VoidOsMerger.Scheduler.Leases
import VoidOsMerger.Scheduler.Tick
import VoidOsMerger.Base.Ledger
import VoidOsMerger.Scheduler.Accounts
import VoidOsMerger.Scheduler.Balance
import VoidOsMerger.Scheduler.Overcommit
import VoidOsMerger.Base.ArgMax
import VoidOsMerger.Scheduler.Placement
import VoidOsMerger.Scheduler.Expiry
import VoidOsMerger.Base.Worklist
import VoidOsMerger.Planner.Model
import VoidOsMerger.Planner.Kahn
import VoidOsMerger.Planner.Dag
import VoidOsMerger.Base.Mix
import VoidOsMerger.Planner.Strategies
import VoidOsMerger.Workload.Model
import VoidOsMerger.Workload.Ready
import VoidOsMerger.Base.Codec
import VoidOsMerger.Base.Frames
import VoidOsMerger.Transport.Model
import VoidOsMerger.Base.Slots
import VoidOsMerger.ClusterState.Model
import VoidOsMerger.Transport.Pairing
import VoidOsMerger.ClusterState.Invariant
import VoidOsMerger.Master.Loop
import VoidOsMerger.Master.Alignment
import VoidOsMerger.Recovery.Model
import VoidOsMerger.Recovery.Operations
import VoidOsMerger.Recovery.Sweeps
import VoidOsMerger.Recovery.ExactlyOnce
import VoidOsMerger.Base.Ring
import VoidOsMerger.ClusterState.Snapshots
import VoidOsMerger.ClusterState.Restart
import VoidOsMerger.ClusterState.Damaged
import VoidOsMerger.ClusterState.LeaseCalls
import VoidOsMerger.Workload.Store
import VoidOsMerger.Workload.Terminal
import VoidOsMerger.Workload.Offered
import VoidOsMerger.Workload.Confluence
import VoidOsMerger.Base.Keyed
import VoidOsMerger.Registry.Model
import VoidOsMerger.Registry.Refinement
import VoidOsMerger.Registry.Steps
import VoidOsMerger.Registry.Ages
import VoidOsMerger.Registry.Registrations
import VoidOsMerger.Registry.Snapshots
import VoidOsMerger.Registry.Notices
import VoidOsMerger.Registry.Mirror
import VoidOsMerger.Recovery.Retries
import VoidOsMerger.ClusterState.Operations
import VoidOsMerger.Transport.Envelope
import VoidOsMerger.Master.Handler
import VoidOsMerger.Master.Identity
import VoidOsMerger.Worker.Executor
import VoidOsMerger.Worker.Reservations
import VoidOsMerger.Base.Utf8
import VoidOsMerger.Webui.Model
import VoidOsMerger.Webui.Roundtrip
import VoidOsMerger.Worker.Recovery
import VoidOsMerger.Worker.LeaseTable
import VoidOsMerger.Worker.LeaseHistory
import VoidOsMerger.Worker.Reports
import VoidOsMerger.Worker.Lifecycle
import VoidOsMerger.Base.Lines
import VoidOsMerger.Config.Model
import VoidOsMerger.Config.Comments
import VoidOsMerger.Config.Roundtrip
import VoidOsMerger.Worker.Monitor
import VoidOsMerger.Planner.ChunkIds
import VoidOsMerger.Base.Circular
import VoidOsMerger.Worker.SampleRing
import VoidOsMerger.Planner.Queue
import VoidOsMerger.Webui.AnyFile
import VoidOsMerger.Workload.Frame
import VoidOsMerger.Agent.Heartbeat
import VoidOsMerger.Common.ZmqContext
import VoidOsMerger.Common.LogRing
import VoidOsMerger.Webui.Requests
import VoidOsMerger.Common.Getopt
import VoidOsMerger.Common.GetoptPosix
import VoidOsMerger.Master.Thirds
import VoidOsMerger.Worker.MainLoop
import VoidOsMerger.Master.ClosedSystem
import VoidOsMerger.Master.Journal
import VoidOsMerger.Base.Directory
import VoidOsMerger.Webui.Server
import VoidOsMerger.Webui.Serverless
import VoidOsMerger.Scheduler.Exclusive
import VoidOsMerger.Workload.Schedule
import VoidOsMerger.Worker.Stream
import VoidOsMerger.Transport.Faults
import VoidOsMerger.Base.History
import VoidOsMerger.Transport.Session
import VoidOsMerger.Agent.Loop
import VoidOsMerger.Agent.Capabilities
import VoidOsMerger.Base.Scanf
import VoidOsMerger.Common.SysInfo
import VoidOsMerger.Agent.Stat
import VoidOsMerger.Scheduler.Batches
import VoidOsMerger.Common.GetoptLong
import VoidOsMerger.Master.Cli
import VoidOsMerger.Base.Laps
import VoidOsMerger.Common.LogContent
