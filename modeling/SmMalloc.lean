import SmMalloc.Foundation.Amortised
import SmMalloc.Foundation.BlockStore
import SmMalloc.Foundation.ByteMemory
import SmMalloc.Foundation.Component
import SmMalloc.Foundation.Custody
import SmMalloc.Foundation.Linked
import SmMalloc.Foundation.PowerOfTwo
import SmMalloc.Foundation.Transition
import SmMalloc.Foundation.TwoLevel
import SmMalloc.Model.Partitioning
import SmMalloc.Model.BestFit
import SmMalloc.Model.SmallFloat
import SmMalloc.Model.Machine
import SmMalloc.Model.GenericHeader
import SmMalloc.Model.CentralList
import SmMalloc.Model.ThreadCache
import SmMalloc.Model.Allocate
import SmMalloc.Model.CacheSetup
import SmMalloc.Pool.Static
import SmMalloc.Pool.Geometry
import SmMalloc.Pool.Invariant
import SmMalloc.Pool.CentralList
import SmMalloc.Pool.ThreadCache
import SmMalloc.Pool.Requests
import SmMalloc.Pool.Realloc
import SmMalloc.Pool.Ledger
import SmMalloc.Pool.Sound
import SmMalloc.Pool.Extent
import SmMalloc.Pool.CacheSetup
import SmMalloc.Pool.Warmup
import SmMalloc.Pool.Attach
import SmMalloc.Pool.Create
import SmMalloc.Pool.Init
import SmMalloc.Pool.Routing
import SmMalloc.Pool.Start
import SmMalloc.Pool.Layout
import SmMalloc.Pool.Addresses
import SmMalloc.Pool.Tally
import SmMalloc.Pool.FirstFit
import SmMalloc.Pool.Oversized
import SmMalloc.Pool.Refusal
import SmMalloc.Pool.Beside
import SmMalloc.Atomic.Machine
import SmMalloc.Atomic.Ownership
import SmMalloc.Atomic.Start
import SmMalloc.Atomic.Tags
import SmMalloc.Atomic.Stack
import SmMalloc.Atomic.Progress
import SmMalloc.Atomic.Uniqueness
import SmMalloc.Atomic.Reuse
import SmMalloc.Session.Run
import SmMalloc.Session.Caches
import SmMalloc.Session.Unsized
import SmMalloc.Session.Conservation
import SmMalloc.Session.Placement
import SmMalloc.Session.Lookup
import SmMalloc.Session.Reallocation
import SmMalloc.Session.Storage
import SmMalloc.Session.Share
import SmMalloc.Session.Contents
import SmMalloc.Session.Client
import SmMalloc.Atomic.Pool
import SmMalloc.Atomic.Parts
import SmMalloc.Atomic.Together
import SmMalloc.Atomic.Client
import SmMalloc.Atomic.Rest
import SmMalloc.Atomic.Spill
import SmMalloc.Atomic.Serial
import SmMalloc.Session.Availability
import SmMalloc.Session.Isolation
import SmMalloc.Session.Assertions
import SmMalloc.Session.Traffic
import SmMalloc.Session.Cache
import SmMalloc.Session.Statistics
import SmMalloc.Session.SetUp
import SmMalloc.Session.LifeCycle
import SmMalloc.Session.HeapCalls
import SmMalloc.Heap.Blocks
import SmMalloc.Heap.Service
