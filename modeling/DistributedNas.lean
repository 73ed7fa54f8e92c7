import DistributedNas.Library.Transition
import DistributedNas.Library.Interleaving
import DistributedNas.Library.SerialStream
import DistributedNas.Library.PriorityQueue
import DistributedNas.Library.OrderedMap
import DistributedNas.Library.Splice
import DistributedNas.Library.BigEndian
import DistributedNas.Library.NodeList
import DistributedNas.Library.AtomicObject
import DistributedNas.Posix.Descriptor
import DistributedNas.Proxy.Request
import DistributedNas.Proxy.Transfer
import DistributedNas.Proxy.Framing
import DistributedNas.Proxy.Done
import DistributedNas.Proxy.ReplyStream
import DistributedNas.Proxy.Lifecycle
import DistributedNas.Storage.MemoryFile
import DistributedNas.Storage.Range
import DistributedNas.Storage.Honesty
import DistributedNas.Storage.Sequential
import DistributedNas.Storage.Ending
import DistributedNas.Storage.Bounds
import DistributedNas.Engine.Factory
import DistributedNas.Engine.Select
import DistributedNas.Engine.Server
import DistributedNas.Engine.Conservation
import DistributedNas.Engine.Replies
import DistributedNas.Engine.Isolation
import DistributedNas.Schedualer.Timer
import DistributedNas.Schedualer.Conversion
import DistributedNas.Schedualer.Deadline
import DistributedNas.Schedualer.Jobs
import DistributedNas.Schedualer.Accesses
import DistributedNas.Schedualer.Early
import DistributedNas.Schedualer.Station
import DistributedNas.Schedualer.Lifetimes
import DistributedNas.Schedualer.Dangling
import DistributedNas.Schedualer.Calls
import DistributedNas.Schedualer.Firings
import DistributedNas.Schedualer.Kamikaze
import DistributedNas.Singletone.Instance
import DistributedNas.Singletone.Handleton
import DistributedNas.Singletone.Exit
import DistributedNas.Singletone.Destroy
import DistributedNas.Observer.Links
import DistributedNas.Observer.Consistency
import DistributedNas.Observer.SelfRemoval
import DistributedNas.Observer.FreeUse
import DistributedNas.DirMonitor.Monitor
import DistributedNas.DlLoader.Loader
import DistributedNas.ThreadPool.WaitableQueue
import DistributedNas.ThreadPool.Wakeup
import DistributedNas.ThreadPool.Linearizable
import DistributedNas.ThreadPool.GiveUp
import DistributedNas.ThreadPool.Pool
import DistributedNas.ThreadPool.Registry
import DistributedNas.ThreadPool.Mutex
import DistributedNas.ThreadPool.Deletion
import DistributedNas.ThreadPool.Shutdown
import DistributedNas.ThreadPool.PausedStop
import DistributedNas.ThreadPool.Count
import DistributedNas.ThreadPool.Pausing
import DistributedNas.ThreadPool.PausedTasks
import DistributedNas.ThreadPool.Resume
import DistributedNas.ThreadPool.Order
import DistributedNas.Library.Conversation
import DistributedNas.Library.Numeral
import DistributedNas.Library.Plan
import DistributedNas.Buse.Arguments
import DistributedNas.Buse.Operations
import DistributedNas.Buse.Server
import DistributedNas.Buse.Device
import DistributedNas.Buse.Refinement
import DistributedNas.Buse.Progress
import DistributedNas.Buse.Containment
import DistributedNas.Buse.Secrecy
import DistributedNas.Library.Heap
import DistributedNas.Engine.Ownership
import DistributedNas.Engine.OneWorker
import DistributedNas.Engine.Devices
import DistributedNas.Buse.Main
import DistributedNas.Buse.Lifecycle
import DistributedNas.Buse.Agreement
import DistributedNas.Engine.Progress
