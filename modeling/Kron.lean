import Kron.Lib.BTreeMap
import Kron.Lib.Machine
import Kron.Lib.Text
import Kron.Lib.Codec
import Kron.Lib.FileSystem
import Kron.Core.Schedule
import Kron.Core.Timer
import Kron.Embedded.State
import Kron.Embedded.Log
import Kron.Lib.Lease
import Kron.Server.Ownership
import Kron.Lib.Replicated
import Kron.Server.Cluster
import Kron.Server.Tokens
import Kron.Server.Occurrences
import Kron.Server.RunIds
import Kron.Server.Attempts
import Kron.Server.Tenancy
import Kron.Embedded.Snapshot
import Kron.Embedded.Compaction
import Kron.Embedded.Engine
import Kron.Embedded.Restart
import Kron.Embedded.Sections
import Kron.Embedded.TimerSteps
import Kron.Embedded.Overlap
import Kron.Embedded.Recurring
import Kron.Embedded.OneShot
import Kron.Embedded.Shutdown
import Kron.Embedded.Retries
import Kron.Embedded.Accounting
import Kron.Embedded.Memory
import Kron.Server.Audit
import Kron.Lib.Digits
import Kron.Server.Segments
import Kron.Server.RaftStore
import Kron.Server.RaftCrash
import Kron.Server.Replicas
import Kron.Server.Corruption
import Kron.Embedded.TornWrites
import Kron.Lib.JsonText
import Kron.Server.Tamper
import Kron.Server.Isolation
import Kron.Server.StaysOff
import Kron.Server.RetryQueue
import Kron.Server.Expiry
import Kron.Lib.Components
import Kron.Server.Independence
import Kron.Embedded.SpecUpdates
import Kron.Embedded.LogText
import Kron.Embedded.RunCounter
import Kron.Embedded.Registration
import Kron.Core.Errors
import Kron.Python.Runtime
import Kron.Embedded.WakeUps
import Kron.Lib.Search
import Kron.Lib.Cursor
import Kron.Server.Authentication
import Kron.Server.AuditReaders
import Kron.Server.SegmentCuts
import Kron.Server.Progress
import Kron.Server.Redirects
import Kron.Server.Answers
import Kron.Server.Forgeries
import Kron.Embedded.Heap
import Kron.Lib.BinaryHeap
import Kron.Lib.Saturating
import Kron.Lib.Folds
import Kron.Lib.WorkQueue
import Kron.Lib.HttpText
import Kron.Alpha.State
import Kron.Alpha.Engine
import Kron.Alpha.Ledger
import Kron.Alpha.Queue
import Kron.Alpha.Fencing
import Kron.Alpha.Restart
import Kron.Alpha.Status
import Kron.Alpha.Replication
import Kron.Alpha.Durability
import Kron.Alpha.Http
import Kron.Embedded.Processes
import Kron.Embedded.Sleeping
import Kron.Embedded.Ipc
import Kron.Server.Transcript
import Kron.Python.Worker
