import Pthreads.GuardedRuns
import Pthreads.LinkedCells
import Pthreads.TaskQueue
import Pthreads.WorkerTasks
import Pthreads.WorkerGuarantees
import Pthreads.ObjectLifetimes
import Pthreads.ObjectHandles
import Pthreads.HandleIdentity
import Pthreads.OrderedTable
import Pthreads.StoreValues
import Pthreads.StoreOperations
import Pthreads.StoreRuns
import Pthreads.StoreAgreement
import Pthreads.StoreEffects
import Pthreads.StoreOperationEffects
import Pthreads.StoreCopyEffects
import Pthreads.StoreConditions
import Pthreads.StoreTargets
import Pthreads.StoreSteps
import Pthreads.StoreInvariants
import Pthreads.StoreCoherence
import Pthreads.StoreReads
import Pthreads.StoreGuarantees
import Pthreads.StringRetention
import Pthreads.StringGuarantees
import Pthreads.LockOrder
import Pthreads.GraphSteps
import Pthreads.GraphTraversal
import Pthreads.GraphSurvival
import Pthreads.GraphGuarantees
import Pthreads.ThreadLifecycle
import Pthreads.ThreadHandshake
import Pthreads.ThreadJoins
import Pthreads.TaskExecution
import Pthreads.WorkerWakeups
import Pthreads.PoolDensity
import Pthreads.StoreHashes
import Pthreads.ArrayQueue
import Pthreads.MergeOrder
import Pthreads.ResolveTable
import Pthreads.ResolveSoundness
import Pthreads.MergeElements
import Pthreads.MergeTwins
import Pthreads.MergeAgreement
import Pthreads.MergeGuarantees
import Pthreads.ClassPreparation
import Pthreads.PreparationSteps
import Pthreads.BindingOrder
import Pthreads.StaticInheritance
import Pthreads.StaticFailures
import Pthreads.StaticGuarantees
import Pthreads.ClassVisits
import Pthreads.StoreAccess
import Pthreads.StoreAppends
import Pthreads.StoreIsset
import Pthreads.StoreKeys
import Pthreads.StoreIndirections
import Pthreads.TableMerges
import Pthreads.ClassKeys
import Pthreads.ClassSlots
import Pthreads.MergeLaw
import Pthreads.RecursiveCalls
import Pthreads.ValueCopies
import Pthreads.CopyTermination
import Pthreads.CopyIsolation
import Pthreads.ClassStrings
import Pthreads.ClassIsolation
import Pthreads.MonitorDeadlines
import Pthreads.PoolResize
import Pthreads.PoolRotation
import Pthreads.BucketTables
import Pthreads.StoreConversions
import Pthreads.StoreIteration
import Pthreads.CollectCallbacks
import Pthreads.IteratorReads
import Pthreads.StoreChunks
import Pthreads.EnumStrings
import Pthreads.ArrayConversion
import Pthreads.ArrayMerging
import Pthreads.ArrayRoundTrip
import Pthreads.CopyFaithfulness
import Pthreads.ZendArrays
import Pthreads.CopyAppends
import Pthreads.AstBuffers
import Pthreads.OpcodeRelocation
import Pthreads.TypeCopies
import Pthreads.GraphTermination
import Pthreads.EntryCreation
import Pthreads.EntryTermination
import Pthreads.SharedSockets
import Pthreads.ClosureScopes
import Pthreads.PropertyLayout
import Pthreads.DefaultProperties
import Pthreads.QueueLinks
import Pthreads.QueueRuns
import Pthreads.ModificationCounters
import Pthreads.CounterGuarantees
import Pthreads.BucketDeletions
import Pthreads.SyncExactness
import Pthreads.AstAgreement
import Pthreads.MonitorAtomicity
import Pthreads.KeptResources
import Pthreads.InternedStrings
import Pthreads.ThreadInheritance
import Pthreads.PoolProgress
import Pthreads.WorkerReferences
import Pthreads.PropertyHandlers
import Pthreads.EnumCases
import Pthreads.StoreRefinement
