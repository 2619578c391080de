import KotlinTracer.Lib.CellProgram
import KotlinTracer.Profiler.Names

set_option relaxedAutoImplicit false
set_option autoImplicit false

/-!
# The callbacks, section by section

The callbacks of `profiler/profiler.cpp` run on the threads of the traced program at the same time.
Here each of them is a program of sections: a call of a concurrent collection is a section, and so
are a read and a write through a pointer, or of a thread-local variable, and an operation of an
atomic counter. The sections of different callbacks are interleaved in any order.

## Main definitions

* `KotlinTracer.Interleaved.Cell` — what the sections access: the entries of the maps of the storage
  with the objects behind them, the thread-local variables, the records of the threads, the lists
  and the counter.
* `KotlinTracer.Interleaved.coroutineCreated`, `coroutineSuspended`, `coroutineResumed`,
  `coroutineCompleted`, `traceStart`, `traceEnd`, `gcStart`, `gcFinish` — the callbacks.
* `KotlinTracer.Interleaved.writePerfetto` — the export, which reads the storage while the other
  callbacks go on.
* `KotlinTracer.Interleaved.Invocation`, `KotlinTracer.Interleaved.program` — a call with the clock
  readings it takes, and its program.
* `KotlinTracer.Profiler.cells` — the cells of a state of the profiler.

## Design

Every reading of the clock has a value of its own: a call carries the times that its readings give,
in the order of the program, and the answer of `getrusage`, which it asks at most once.

A pointer to the info of a coroutine stays valid, since nothing is cleaned here: the cleaner and
`processTraces` are not among the programs. The caches of the names are no cells; whatever other
threads do to them, a method has the frame that JVMTI gives for it
(`KotlinTracer.names_interleaved`). The loop of `add_trace_info` has no bound in the source: the
call carries the number of iterations that it may take, and is undefined if it needs more.
-/

namespace KotlinTracer.Interleaved

/-! ## The cells -/

/-- The maps of the storage that the callbacks use. -/
inductive StorageMap
  | coroutineInfo
  | childCoroutines
  | ongoingTraceInfo
  | processed
deriving DecidableEq

/-- What a key of a map holds. -/
abbrev StorageMap.Value : StorageMap → Type
  | .coroutineInfo => CoroutineInfo
  | .childCoroutines => ConcurrentList JLong
  | .ongoingTraceInfo => TraceInfo
  | .processed => ConcurrentList ProcessedTraceRecord

/-- What a section accesses. -/
inductive Cell
  | entry (map : StorageMap) (key : JLong)
  | currentCoroutineId (thread : PThread)
  | currentRusage (thread : PThread)
  | threadInfo (thread : PThread)
  | gcEvents
  | rawList
  | outputCounter
deriving DecidableEq

/-- What a cell holds. -/
abbrev Cell.Value : Cell → Type
  | .entry map _ => Option map.Value
  | .currentCoroutineId _ => JLong
  | .currentRusage _ => RUsage
  | .threadInfo _ => Option ThreadInfo
  | .gcEvents => ConcurrentList GCEventPtr × List GCEvent
  | .rawList => ConcurrentList RawCallTraceRecord
  | .outputCounter => ℕ

/-- The values of all cells. -/
abbrev Cells := ∀ k : Cell, k.Value

/-- A program on the cells. -/
abbrev Program := CellProgram Cell.Value

/-! ## The maps of the storage -/

section Maps

variable (map : StorageMap) (key : JLong)

/-- `contains`. -/
def contains : Program Bool :=
  CellProgram.observe (Cell.entry map key) fun entry => some entry.isSome

/-- `insert`: does not overwrite, and answers whether the key was absent. -/
def insert (value : map.Value) : Program Bool :=
  CellProgram.perform (Cell.entry map key) fun entry =>
    some (some (entry.getD value), entry.isNone)

/-- `erase`. -/
def erase : Program Unit := CellProgram.write (Cell.entry map key) none

/-- `get` and `at` of a key that is there: the pointer that it holds. -/
def get : Program Unit :=
  CellProgram.observe (Cell.entry map key) fun entry => entry.map fun _ => ()

/-- Read through the pointer that a key holds. -/
def load : Program map.Value := CellProgram.observe (Cell.entry map key) id

/-- Write through the pointer that a key holds. -/
def update (f : map.Value → map.Value) : Program Unit :=
  CellProgram.perform (Cell.entry map key) fun entry => entry.map fun value => (some (f value), ())

end Maps

/-! ## The storage -/

/-- `createCoroutineInfo`; the clock is read for the start and for the last resume. -/
def createCoroutineInfo (c : JLong) (start lastResume : TraceTime) : Program Unit := do
  if ← contains .coroutineInfo c then return
  else
    let _ ← insert .coroutineInfo c
      { TraceStorage.newCoroutineInfo start with lastResume := lastResume }

/-- `getCoroutineInfo`: whether there is an info. -/
def getCoroutineInfo (c : JLong) : Program Bool := do
  if ← contains .coroutineInfo c then
    get .coroutineInfo c
    return true
  else return false

/-- `addSuspensionInfo`. -/
def addSuspensionInfo (suspensionInfo : SuspensionInfo) : Program Unit := do
  get .coroutineInfo suspensionInfo.coroutineId
  update .coroutineInfo suspensionInfo.coroutineId fun info =>
    { info with suspensionsList := info.suspensionsList.pushBack suspensionInfo }

/-- `getLastSuspensionInfo`: the position of the first suspension that is not ended. -/
def getLastSuspensionInfo (c : JLong) : Program (Option ℕ) := do
  if ← contains .coroutineInfo c then
    get .coroutineInfo c
    let info ← load .coroutineInfo c
    return info.suspensionsList.list.findIdx? TraceStorage.nonEndedSuspension
  else return none

/-- Set the end of a suspension. -/
def endSuspension (c : JLong) (i : ℕ) (now : TraceTime) : Program Unit :=
  update .coroutineInfo c fun info =>
    { info with suspensionsList := { info.suspensionsList with
        list := info.suspensionsList.list.modify i fun suspensionInfo =>
          { suspensionInfo with endTime := now } } }

/-- Set the end of the suspension that `getLastSuspensionInfo` returns. -/
def endLastSuspension (c : JLong) (now : TraceTime) : Program Unit := do
  match ← getLastSuspensionInfo c with
  | some i => endSuspension c i now
  | none => return

/-- `addChildCoroutine`. -/
def addChildCoroutine (c parent : JLong) : Program Unit := do
  get .childCoroutines parent
  update .childCoroutines parent fun list => list.pushBack c

/-- `createChildCoroutineStorage`. -/
def createChildCoroutineStorage (c : JLong) : Program Unit := do
  let _ ← insert .childCoroutines c {}

/-- `findOngoingTraceInfo`: through `get`, so an absent key is inserted with the default; the record
is copied through the reference. -/
def findOngoingTraceInfo (c : JLong) : Program TraceInfo := do
  CellProgram.modify (Cell.entry .ongoingTraceInfo c) fun entry => some (entry.getD {})
  load .ongoingTraceInfo c

/-- `getProcessedTraces`: whether there is a list. -/
def getProcessedTraces (c : JLong) : Program Bool := do
  if ← contains .processed c then
    get .processed c
    return true
  else return false

/-- `addProcessedTrace`. -/
def addProcessedTrace (c : JLong) (record : ProcessedTraceRecord) : Program Unit := do
  if ← contains .processed c then
    get .processed c
    update .processed c fun list => list.pushBack record
  else
    let _ ← insert .processed c (ConcurrentList.pushBack {} record)

/-- `gcStart`. -/
def gcStart (now : TraceTime) : Program Unit :=
  CellProgram.modify Cell.gcEvents fun gc => (gc.1.pushBack gc.2.length, gc.2 ++ [⟨now, 0⟩])

/-- `pop_front` of the GC events: one section looks whether the list is empty, and another one pops
without looking again, which is undefined if the list has become empty. -/
def popFrontGcEvent : Program Unit := do
  if ← CellProgram.observe Cell.gcEvents fun gc => some gc.1.list.isEmpty then return
  else
    CellProgram.perform Cell.gcEvents fun gc =>
      gc.1.popFront.1.map fun _ => ((gc.1.popFront.2, gc.2), ())

/-- `gcFinish`: take the last event, pop the first one, set the end of the event taken and push it
back. -/
def gcFinish (now : TraceTime) : Program Unit := do
  let gcEvent ← CellProgram.observe Cell.gcEvents fun gc => gc.1.back
  popFrontGcEvent
  CellProgram.modify Cell.gcEvents fun gc =>
    (gc.1, gc.2.modify gcEvent fun event => { event with endTime := now })
  CellProgram.modify Cell.gcEvents fun gc => (gc.1.pushBack gcEvent, gc.2)

/-! ## The export -/

/-- `add_gc_info`: the list is traversed in one section. -/
def addGcInfo (traceInfo : TraceInfo) (w : TraceWriter) (sequenceId : ℕ) :
    Program TraceWriter := do
  let gc ← CellProgram.read Cell.gcEvents
  return KotlinTracer.addGcInfo traceInfo { gcEvents := gc.1, gcHeap := gc.2 } w sequenceId

/-- The slice of a coroutine and the track of its samples. -/
def addCoroutine (traceInfo : TraceInfo) (sequenceId : ℕ) (w : TraceWriter)
    (item : CoroutineQueueItem) (info : CoroutineInfo) : TraceWriter :=
  let trackId := w.trackCounter + 1
  let samplesTrackId := trackId + 1
  { trackCounter := samplesTrackId
    packets := w.packets ++
      [descriptorPacket sequenceId (coroutineName item.coroutineId) trackId,
        -- start
        eventPacket sequenceId (coroutineBegin traceInfo info item)
          (coroutineBeginEvent info item trackId),
        -- end
        eventPacket sequenceId (coroutineEnd traceInfo info item)
          { type := .sliceEnd, trackUuid := trackId },
        descriptorPacket sequenceId "Samples" samplesTrackId] }

/-- The samples of a coroutine. -/
def addSamples (traceInfo : TraceInfo) (sequenceId : ℕ) (c : JLong) (traces : Bool)
    (w : TraceWriter) : Program TraceWriter := do
  if traces then
    let list ← load .processed c
    return addCallStack w list traceInfo sequenceId w.trackCounter
  else return w

/-- The suspensions of a coroutine. -/
def addSuspensions (traceInfo : TraceInfo) (sequenceId : ℕ) (c : JLong) (w : TraceWriter) :
    Program TraceWriter := do
  let info ← load .coroutineInfo c
  return info.suspensionsList.forEach (fun w suspension =>
    addSuspension w suspension (coroutineName c) sequenceId traceInfo.endTime) w

/-- The children of a coroutine. -/
def childItems (c : JLong) : Program (List CoroutineQueueItem) := do
  if ← contains .childCoroutines c then
    get .childCoroutines c
    let children ← load .childCoroutines c
    return children.list.map fun child => ⟨child, c⟩
  else return []

/-- The body of the loop of `add_trace_info` for a coroutine with an info: the trace with it, and
its children. -/
def exportCoroutine (traceInfo : TraceInfo) (sequenceId : ℕ) (w : TraceWriter)
    (item : CoroutineQueueItem) : Program (TraceWriter × List CoroutineQueueItem) := do
  let info ← load .coroutineInfo item.coroutineId
  let w := addCoroutine traceInfo sequenceId w item info
  let traces ← getProcessedTraces item.coroutineId
  let w ← addSamples traceInfo sequenceId item.coroutineId traces w
  let w ← addSuspensions traceInfo sequenceId item.coroutineId w
  let children ← childItems item.coroutineId
  return (w, children)

/-- The loop of `add_trace_info`, for at most `n` iterations. -/
def addTraceInfoLoop (traceInfo : TraceInfo) (sequenceId : ℕ) : ℕ → ExportState →
    Program TraceWriter
  | _, ⟨[], _, w⟩ => return w
  | 0, ⟨_ :: _, _, _⟩ => .undefined
  | n + 1, ⟨item :: rest, visited, w⟩ => do
    let visited := Insert.insert item.coroutineId visited
    if ← getCoroutineInfo item.coroutineId then
      let exported ← exportCoroutine traceInfo sequenceId w item
      addTraceInfoLoop traceInfo sequenceId n
        ⟨rest ++ exported.2.filter fun child => child.coroutineId ∉ visited, visited, exported.1⟩
    else addTraceInfoLoop traceInfo sequenceId n ⟨rest, visited, w⟩

/-- The packets that come first in a trace. -/
def traceHeader (traceInfo : TraceInfo) : TraceWriter :=
  { trackCounter := 1
    packets :=
      [descriptorPacket 1 "Trace" 1,
        eventPacket 1 traceInfo.start
          { type := .sliceBegin, name := some "Trace", trackUuid := 1,
            debugAnnotations := [⟨"Trace", none⟩] },
        -- end
        eventPacket 1 traceInfo.endTime { type := .sliceEnd, trackUuid := 1 }] }

/-- `write_perfetto`. -/
def writePerfetto (traceInfo : TraceInfo) (iterations : ℕ) : Program (List TracePacket) := do
  let w ← addGcInfo traceInfo (traceHeader traceInfo) 1
  let w ← addTraceInfoLoop traceInfo 1 iterations ⟨[rootItem traceInfo], ∅, w⟩
  return w.packets

/-! ## The callbacks -/

/-- A call on a thread, with the times that its readings of the clock give and the answer of
`getrusage`; and the iterations that the export may take. -/
structure Invocation where
  thread : PThread
  call : Call
  clock : ℕ → TraceTime
  rusage : RUsage
  iterations : ℕ

/-- The call as one event, at the time of its first reading. -/
def Invocation.event (i : Invocation) : Event := ⟨⟨i.thread, i.clock 0, i.rusage⟩, i.call⟩

/-- All readings of the clock in a call give the same time. -/
def Invocation.Instant (i : Invocation) : Prop := ∀ n, i.clock n = i.clock 0

/-- `+=` on a field of the info of a coroutine: the field is read, and written in another section.
The switches are plain integers. The `+=` of a `TraceTime` is one `fetch_add` in the source, whose
interleavings are those in which no other section is between the two. -/
def addTo {β : Type} (c : JLong) (sum : CoroutineInfo → β)
    (store : β → CoroutineInfo → CoroutineInfo) : Program Unit := do
  let info ← load .coroutineInfo c
  update .coroutineInfo c (store (sum info))

/-- `calculate_resource_usage`: the amounts that it adds. -/
def calculateResourceUsage (t : PThread) (c : JLong) (now : TraceTime) (rusage : RUsage) :
    Program Credit := do
  let info ← load .coroutineInfo c
  let wall := now - info.lastResume
  addTo c (fun info => info.wallClockRunningTime + wall) fun sum info =>
    { info with wallClockRunningTime := sum }
  let last ← CellProgram.read (Cell.currentRusage t)
  CellProgram.write (Cell.currentRusage t) rusage
  let system := calculateElapsedTime rusage.ruStime last.ruStime
  addTo c (fun info => info.cpuSystemClockRunningTimeUs + system) fun sum info =>
    { info with cpuSystemClockRunningTimeUs := sum }
  let user := calculateElapsedTime rusage.ruUtime last.ruUtime
  addTo c (fun info => info.cpuUserClockRunningTimeUs + user) fun sum info =>
    { info with cpuUserClockRunningTimeUs := sum }
  let voluntary := rusage.ruNvcsw - last.ruNvcsw
  addTo c (fun info => addUInt64 info.voluntarySwitches voluntary) fun sum info =>
    { info with voluntarySwitches := sum }
  let involuntary := rusage.ruNivcsw - last.ruNivcsw
  addTo c (fun info => addUInt64 info.involuntarySwitches involuntary) fun sum info =>
    { info with involuntarySwitches := sum }
  return ⟨wall, system, user, voluntary, involuntary⟩

/-- `coroutineCreated`. -/
def coroutineCreated (t : PThread) (clock : ℕ → TraceTime) (c : JLong) :
    Program (List Effect) := do
  let parentId ← CellProgram.read (Cell.currentCoroutineId t)
  createCoroutineInfo c (clock 0) (clock 1)
  if ← contains .childCoroutines parentId then
    addChildCoroutine c parentId
    createChildCoroutineStorage c
    return []
  else return []

/-- The part of `coroutineSuspended` that credits the coroutine and clears `last_resume`, if the
coroutine was running. -/
def creditSuspended (t : PThread) (c : JLong) (now : TraceTime) (rusage : RUsage) :
    Program (List Effect) := do
  let info ← load .coroutineInfo c
  if 0 < info.lastResume then
    let credit ← calculateResourceUsage t c now rusage
    -- to not count multiple times chain
    update .coroutineInfo c fun info => { info with lastResume := 0 }
    return [.credited c credit]
  else return []

/-- `coroutineSuspended`; `stack` is the Java stack of the thread, `none` if JVMTI fails. -/
def coroutineSuspended (env : Env) (t : PThread) (clock : ℕ → TraceTime) (rusage : RUsage)
    (c : JLong) (stack : Option (List JMethodID)) : Program (List Effect) := do
  CellProgram.write (Cell.currentCoroutineId t) (-1)
  if ← getCoroutineInfo c then
    let credited ← creditSuspended t c (clock 0) rusage
    match stackFrames env stack with
    | some frames =>
      addSuspensionInfo ⟨c, clock 1, 0, frames⟩
      return credited
    | none => return credited
  else return []

/-- `coroutineResumed`. -/
def coroutineResumed (t : PThread) (clock : ℕ → TraceTime) (rusage : RUsage) (c : JLong) :
    Program (List Effect) := do
  CellProgram.write (Cell.currentCoroutineId t) c
  if ← getCoroutineInfo c then
    -- `update_perf_counters`
    CellProgram.write (Cell.currentRusage t) rusage
    update .coroutineInfo c fun info => { info with lastResume := clock 0 }
    endLastSuspension c (clock 1)
    return []
  else return []

/-- `coroutineCompleted`. -/
def coroutineCompleted (t : PThread) (clock : ℕ → TraceTime) (rusage : RUsage) (c : JLong) :
    Program (List Effect) := do
  CellProgram.write (Cell.currentCoroutineId t) (-1)
  if ← getCoroutineInfo c then
    update .coroutineInfo c fun info => { info with endTime := clock 0 }
    let credit ← calculateResourceUsage t c (clock 1) rusage
    return [.credited c credit]
  else return []

/-- `findThread` and an addition to the counter of its thread. -/
def addCurrentTraces (t : PThread) (amount : ℤ) : Program Unit := do
  CellProgram.observe (Cell.threadInfo t) fun info => info.map fun _ => ()
  CellProgram.modify (Cell.threadInfo t) fun info => info.map fun info =>
    { info with currentTraces := info.currentTraces + amount }

/-- The part of `traceStart` after its case for functions that do not suspend. -/
def recordTrace (t : PThread) (now : TraceTime) (id : JLong) : Program (List Effect) := do
  addCurrentTraces t 1
  createChildCoroutineStorage id
  if ← insert .ongoingTraceInfo id ⟨id, now, 0⟩ then return []
  else return [.threw ("Found trace that already started: " ++ toString id)]

/-- `traceStart`. -/
def traceStart (env : Env) (t : PThread) (clock : ℕ → TraceTime) (c : JLong) :
    Program (List Effect) := do
  let id := Profiler.traceId env t c
  if c = -2 then
    createCoroutineInfo id (clock 0) (clock 1)
    recordTrace t (clock 2) id
  else recordTrace t (clock 0) id

/-- The end of `traceEnd`: write the trace if it took longer than the threshold. -/
def writeTrace (env : Env) (traceInfo : TraceInfo) (iterations : ℕ) : Program (List Effect) := do
  if env.threshold < traceInfo.endTime - traceInfo.start then
    let counter ← CellProgram.perform Cell.outputCounter fun n => some (n + 1, n)
    let packets ← writePerfetto traceInfo iterations
    return [.wrote (env.outputPath ++ "/trace" ++ toString counter ++ ".pftrace") packets]
  else return []

/-- `traceEnd`. The trace is looked up under the id of the coroutine, but removed under the id that
its record holds. -/
def traceEnd (env : Env) (t : PThread) (clock : ℕ → TraceTime) (rusage : RUsage)
    (iterations : ℕ) (c : JLong) : Program (List Effect) := do
  addCurrentTraces t (-1)
  let id := Profiler.traceId env t c
  if ← getCoroutineInfo id then
    let credit ← calculateResourceUsage t id (clock 0) rusage
    let found ← findOngoingTraceInfo id
    let traceInfo := { found with endTime := clock 1 }
    erase .ongoingTraceInfo traceInfo.coroutineId
    let written ← writeTrace env traceInfo iterations
    return .credited id credit :: written
  -- found nullptr
  else return []

/-- `addCurrentThread`. -/
def addCurrentThread (t : PThread) (name : String) (stackLo stackHi : ℕ) : Program Unit :=
  CellProgram.modify (Cell.threadInfo t) fun info =>
    info.or (some { name := name, id := t, stackLo := stackLo, stackHi := stackHi })

/-- The program of a call. -/
def program (env : Env) (i : Invocation) : Program (List Effect) :=
  match i.call with
  | .threadStart name stackLo stackHi => do
    addCurrentThread i.thread name stackLo stackHi
    return []
  | .coroutineCreated c => coroutineCreated i.thread i.clock c
  | .coroutineSuspended c stack => coroutineSuspended env i.thread i.clock i.rusage c stack
  | .coroutineResumed c => coroutineResumed i.thread i.clock i.rusage c
  | .coroutineCompleted c => coroutineCompleted i.thread i.clock i.rusage c
  | .traceStart c => traceStart env i.thread i.clock c
  | .traceEnd c => traceEnd env i.thread i.clock i.rusage i.iterations c
  | .gcStart => do
    gcStart (i.clock 0)
    return []
  | .gcFinish => do
    gcFinish (i.clock 0)
    return []
  | .addRawTrace trace c => do
    CellProgram.modify Cell.rawList fun list =>
      list.pushBack ⟨i.clock 0, trace.size, trace, trace.threadId, c⟩
    return []
  | .addProcessedTrace c record => do
    addProcessedTrace c record
    return [.recorded c record]
  | .processTraces => .undefined
  | .markForClean => .undefined
  | .clean => .undefined

end KotlinTracer.Interleaved

namespace KotlinTracer

open Interleaved in
/-- What the cells hold in a state of the profiler. -/
def Profiler.cells (p : Profiler) : Cells
  | .entry .coroutineInfo c => p.storage.getCoroutineInfo c
  | .entry .childCoroutines c => p.storage.getChildCoroutines c
  | .entry .ongoingTraceInfo c => p.storage.ongoingTraceInfoMap.at? c
  | .entry .processed c => p.storage.getProcessedTraces c
  | .currentCoroutineId t => (p.locals t).currentCoroutineId
  | .currentRusage t => (p.locals t).currentRusage
  | .threadInfo t => p.findThread t
  | .gcEvents => (p.storage.gcEvents, p.storage.gcHeap)
  | .rawList => p.storage.rawList
  | .outputCounter => p.outputCounter

/-- The callbacks on any number of threads, section by section, from the state in which nothing has
happened. -/
def interleaved (env : Env) :
    ThreadSystem Interleaved.Cells
      (CellProgram.Position Interleaved.Cell.Value Interleaved.Invocation Effect)
      (CellProgram.Action Interleaved.Invocation) (Interleaved.Invocation × List Effect) :=
  CellProgram.system (Interleaved.program env) ({} : Profiler).cells

end KotlinTracer
