import Saigon.Support.Runs
import Saigon.Support.Circular
import Saigon.Support.Ledger
import Saigon.Support.Tokens
import Saigon.Support.Utf
import Saigon.Support.Ownership
import Saigon.Support.Threads
import Saigon.Support.Simulation
import Saigon.Support.Atomic
import Saigon.Support.Holdings
import Saigon.Support.Scoped
import Saigon.Support.Brackets
import Saigon.Support.Progress
import Saigon.CircleMap
import Saigon.CircleMapSlots
import Saigon.FairCycle
import Saigon.Walk
import Saigon.Session
import Saigon.Subscripts
import Saigon.ConcurrentCircleMap
import Saigon.ConcurrentSafety
import Saigon.AtomicCalls
import Saigon.Effects
import Saigon.EffectSteps
import Saigon.Linearization
import Saigon.MovedFrom
import Saigon.AllocationCycle
import Saigon.SlotDiscipline
import Saigon.FifoQueue
import Saigon.RoundRobin
import Saigon.DeliveryOrder
import Saigon.WithinCapacity
import Saigon.Drain
import Saigon.Refill
import Saigon.Views
import Saigon.Search
import Saigon.MessageEvent
import Saigon.WindowDispatch
import Saigon.Resources
import Saigon.ResourceOwnership
import Saigon.NestedCalls
import Saigon.NestedSettling
import Saigon.NestedOperations
import Saigon.NestedSafety
import Saigon.LostClass
import Saigon.UniqueResource
import Saigon.ScopeGuard
import Saigon.SystemCalls
import Saigon.StartStop
import Saigon.OneWorker
import Saigon.TaskTimer
import Saigon.StartReports
import Saigon.BlockedCalls
import Saigon.StopJoins
import Saigon.Task
import Saigon.Progress
import Saigon.StringUtils
import Saigon.Tokenization
import Saigon.TokenSpelling
import Saigon.StringSearch
import Saigon.StringApi
import Saigon.StringRoundTrips
