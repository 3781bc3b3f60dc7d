import OpenHsm.Library.Runs
import OpenHsm.Library.Bytes
import OpenHsm.Library.DoublyLinked
import OpenHsm.Library.LockOrder
import OpenHsm.Library.Occupancy
import OpenHsm.Library.Ring
import OpenHsm.Library.CallTree
import OpenHsm.Library.Counter
import OpenHsm.Library.MachineInt
import OpenHsm.Library.Assignment
import OpenHsm.Library.Progress
import OpenHsm.Library.Behaviour
import OpenHsm.Library.WaitChain
import OpenHsm.Library.SlotTable
import OpenHsm.Library.Answers
import OpenHsm.Platform.Sync
import OpenHsm.Platform.Semaphore
import OpenHsm.Platform.Queue
import OpenHsm.Platform.QueueFifo
import OpenHsm.Platform.QueueWakeup
import OpenHsm.Platform.QueueDestroy
import OpenHsm.Platform.Timer
import OpenHsm.Platform.Notifications
import OpenHsm.Platform.TaskSlots
import OpenHsm.Platform.ObjectPools
import OpenHsm.Platform.EspQueue
import OpenHsm.Worker.Job
import OpenHsm.Worker.Pool
import OpenHsm.Worker.Chain
import OpenHsm.Worker.Invariant
import OpenHsm.Worker.Tokens
import OpenHsm.Worker.Moves
import OpenHsm.Worker.Refinement
import OpenHsm.Worker.CancelSearch
import OpenHsm.Worker.LifeCycle
import OpenHsm.Worker.Slots
import OpenHsm.Worker.Clients
import OpenHsm.Worker.Delivery
import OpenHsm.Worker.Wait
import OpenHsm.Worker.Handles
import OpenHsm.Worker.Sections
import OpenHsm.Worker.Statistics
import OpenHsm.Worker.Shutdown
import OpenHsm.Worker.Announce
import OpenHsm.Worker.WaitModes
import OpenHsm.Worker.Callbacks
import OpenHsm.Worker.Refusal
import OpenHsm.Worker.JobIds
import OpenHsm.Worker.Work
import OpenHsm.Worker.Drain
import OpenHsm.Worker.StopReturns
import OpenHsm.Worker.Stages
import OpenHsm.Hsm.Machine
import OpenHsm.Hsm.Delegation
import OpenHsm.Hsm.Transition
import OpenHsm.Hsm.History
import OpenHsm.Hsm.Nesting
import OpenHsm.Hsm.Period
import OpenHsm.Hsm.Dispatcher
import OpenHsm.Hsm.Start
import OpenHsm.Hsm.Memory
import OpenHsm.Hsm.ActiveObjects
import OpenHsm.Hsm.Cascades
import OpenHsm.Hsm.Contracts
import OpenHsm.Durations
import OpenHsm.Locks
import OpenHsm.Examples.WorkerPool
import OpenHsm.Examples.WorkerPoolInvariant
import OpenHsm.Examples.WorkerPoolRuns
import OpenHsm.Examples.Simulate
