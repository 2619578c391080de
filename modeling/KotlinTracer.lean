import KotlinTracer.Lib.Run
import KotlinTracer.Lib.Loop
import KotlinTracer.Lib.Interleave
import KotlinTracer.Lib.SharedMutex
import KotlinTracer.Lib.Worklist
import KotlinTracer.Lib.BreadthFirst
import KotlinTracer.Lib.StdString
import KotlinTracer.Lib.CellProgram
import KotlinTracer.Lib.LockedProgram
import KotlinTracer.Lib.Outcome
import KotlinTracer.Lib.WireFormat
import KotlinTracer.ConcurrentCollections
import KotlinTracer.ConcurrentCollections.ListSections
import KotlinTracer.ConcurrentCollections.ListHistories
import KotlinTracer.ConcurrentCollections.ListLocks
import KotlinTracer.Trace.Storage
import KotlinTracer.Trace.SharedStorage
import KotlinTracer.Trace.Representation
import KotlinTracer.Trace.StorageSections
import KotlinTracer.Utils.SuspensionPlot
import KotlinTracer.Utils.ArgsParser
import KotlinTracer.Utils.OptionSegments
import KotlinTracer.Profiler.ResourceUsage
import KotlinTracer.Profiler.Callbacks
import KotlinTracer.Profiler.CallbackSpecs
import KotlinTracer.Profiler.Steps
import KotlinTracer.Profiler.Names
import KotlinTracer.Profiler.NameSections
import KotlinTracer.Vm.Threads
import KotlinTracer.Vm.CodeCache
import KotlinTracer.Vm.Structs
import KotlinTracer.Unwind.Aarch64
import KotlinTracer.Unwind.FrameChain
import KotlinTracer.Sampler.Processing
import KotlinTracer.Sampler.Handoff
import KotlinTracer.Unwind.X8664
import KotlinTracer.Sampler.Rounds
import KotlinTracer.Sampler.Histories
import KotlinTracer.Sampler.Lifetime
import KotlinTracer.Sampler.Attribution
import KotlinTracer.Accounting.WallClock
import KotlinTracer.Suspensions.Pending
import KotlinTracer.Suspensions.Chain
import KotlinTracer.Accounting.ResourceConservation
import KotlinTracer.Accounting.Books
import KotlinTracer.Accounting.Figures
import KotlinTracer.Traces.Counters
import KotlinTracer.Traces.Ongoing
import KotlinTracer.Traces.PlainFunctions
import KotlinTracer.Traces.Rejected
import KotlinTracer.Gc.Events
import KotlinTracer.Cleaner.Retention
import KotlinTracer.Cleaner.Marks
import KotlinTracer.Export.Tracks
import KotlinTracer.Export.Lineage
import KotlinTracer.Export.Nesting
import KotlinTracer.Export.SliceOrder
import KotlinTracer.Gc.Windows
import KotlinTracer.Export.Reached
import KotlinTracer.Export.Contents
import KotlinTracer.Export.Serialization
import KotlinTracer.Export.ReadBack
import KotlinTracer.Sampler.Delivery
import KotlinTracer.Sampler.PlainSamples
import KotlinTracer.Agent.LifeCycle
import KotlinTracer.Profiler.Interleaved
import KotlinTracer.Profiler.Uninterrupted
import KotlinTracer.Profiler.Atomicity
import KotlinTracer.ConcurrentCollections.MapLocks
