import SwanRuntime.ReadyList.Integrity
import SwanRuntime.Deque.Safety
import SwanRuntime.Dataflow.Serialization
import SwanRuntime.Runtime.Simulation
import SwanRuntime.Runtime.TeamDiscipline
import SwanRuntime.Replay.RoundTrip
import SwanRuntime.Replay.Orphans
import SwanRuntime.Loops.Dynamic
import SwanRuntime.Loops.StaticTree
import SwanRuntime.Loops.Static
import SwanRuntime.Exceptions.Delivery
import SwanRuntime.Dataflow.TaskListInvariant
import SwanRuntime.Dataflow.LazyIssue
import SwanRuntime.Stealing.RecordedSteals
import SwanRuntime.Dataflow.Readiness
import SwanRuntime.Dataflow.EnterFrame
import SwanRuntime.Pedigrees.Pending
import SwanRuntime.Loops.Numa
import SwanRuntime.Reducers.Merging
import SwanRuntime.Fibers.Accounting
import SwanRuntime.Memory.Conservation
import SwanRuntime.Wakeup.Tree
import SwanRuntime.Reducers.ConcatViews
import SwanRuntime.Reducers.MinMax
import SwanRuntime.Reducers.Holder
import SwanRuntime.Reducers.Ownership
import SwanRuntime.Dataflow.Versioned
import SwanRuntime.Locks.WorkerLock
import SwanRuntime.Fibers.SyncSp
import SwanRuntime.Reducers.Buckets
import SwanRuntime.Replay.Bounds
import SwanRuntime.Stealing.Unroll
import SwanRuntime.Runtime.Steps
import SwanRuntime.Runtime.JoinCounters
import SwanRuntime.Runtime.Readings
import SwanRuntime.Runtime.ReadingKept
import SwanRuntime.Runtime.Determinism
import SwanRuntime.Settings.Parameters
import SwanRuntime.Workers.NumaNode
import SwanRuntime.Fibers.Configuration
import SwanRuntime.Fibers.Stacks
