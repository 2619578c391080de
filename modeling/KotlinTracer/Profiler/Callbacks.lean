import KotlinTracer.Lib.Run
import KotlinTracer.Profiler.ResourceUsage
import KotlinTracer.Utils.SuspensionPlot
import Mathlib.Logic.Function.Basic

set_option relaxedAutoImplicit false
set_option autoImplicit false

/-!
# The profiler

The callbacks of `profiler/profiler.cpp` over the storage, the threads of the VM
(`vm/jvm.hpp`, `vm/jvm.cpp`) and the thread-local variables, and the machine whose events are the
calls of these callbacks, of the sampler and of the cleaner.

## Main definitions

* `KotlinTracer.Profiler` — the state of the process.
* `KotlinTracer.Profiler.coroutineCreated`, `coroutineSuspended`, `coroutineResumed`,
  `coroutineCompleted`, `traceStart`, `traceEnd`, `processTraces` — the callbacks.
* `KotlinTracer.Event`, `KotlinTracer.Effect` — a call on a thread, and what it does beyond
  changing the state.
* `KotlinTracer.Profiler.step`, `KotlinTracer.machine` — the machine.

## Design

Every call is one atomic step. It reads the clock and `getrusage` once: the event carries the
values of that moment (`Context`), so all reads of one call see the same time. The build without
`DEBUG` is modelled, in which `logDebug` does nothing. On Linux `getrusage(RUSAGE_THREAD, ..)`
overwrites the whole thread-local variable.

What lies outside of the repository enters as parameters: the answers of JVMTI and of the symbol
table, and `std::hash<std::thread::id>` (`Env`); the stack of the suspended thread is part of the
call. A null pointer that is dereferenced, a `std::list` operation on an empty list and an
exception that leaves the callback for another reason than an ongoing trace end the run.
-/

namespace KotlinTracer

/-- `jmethodID`; `0` is the null id. -/
abbrev JMethodID := ℤ

/-- What the profiler is configured with and asks from outside. -/
structure Env where
  /-- `std::hash<std::thread::id>` of a thread, as `jlong`. -/
  hashThreadId : PThread → JLong
  /-- `threshold_`, in nanoseconds. -/
  threshold : TraceTime
  /-- `output_path_`. -/
  outputPath : String
  /-- `GetMethodName`: the name and the signature. -/
  getMethodName : JMethodID → String × String
  /-- `GetClassSignature` of the declaring class. -/
  getClassSignature : JMethodID → String
  /-- `getNativeFunctionInfo`: the name and the library. -/
  getNativeFunctionInfo : ℤ → Option (String × String)

/-- `ThreadInfo`. `current_traces` is an `atomic_int`; that it does not wrap around in a run of
fewer than `2 ^ 31` steps is `counters_fit_int`. -/
structure ThreadInfo where
  name : String
  id : PThread
  currentTraces : ℤ := 0
  stackLo : ℕ
  stackHi : ℕ
deriving DecidableEq

/-- The thread-local variables of the profiler. -/
structure ThreadLocals where
  currentCoroutineId : JLong := -1
  currentRusage : RUsage := {}
deriving DecidableEq

/-- The state of the process: the profiler, the threads of the VM and the thread-local
variables. `output_counter` is an `atomic_int`, for which the same holds as for `current_traces`. -/
structure Profiler where
  storage : TraceStorage := {}
  methodInfoMap : ConcurrentCleanableMap JMethodID String := {}
  classInfoMap : ConcurrentCleanableMap JMethodID String := {}
  threads : ConcurrentList ThreadInfo := {}
  locals : PThread → ThreadLocals := fun _ => {}
  outputCounter : ℕ := 0

/-- Where and when a call is executed, and what `getrusage` answers there. -/
structure Context where
  thread : PThread
  now : TraceTime
  rusage : RUsage
deriving DecidableEq

/-- What a call does beyond changing the state. -/
inductive Effect
  /-- `calculate_resource_usage` added `credit` to the record of a coroutine. -/
  | credited (coroutineId : JLong) (credit : Credit)
  /-- The call threw a `runtime_error`. -/
  | threw (message : String)
  /-- A trace was written. -/
  | wrote (path : String) (packets : List TracePacket)
  /-- A sample was stored for a coroutine. -/
  | recorded (coroutineId : JLong) (record : ProcessedTraceRecord)
  /-- The cleaner dropped the record of a coroutine. -/
  | released (info : CoroutineInfo)

namespace Profiler

/-! ## Threads and thread-local variables -/

/-- Whether a thread info is the one of a thread. -/
def isThread (thread : PThread) (threadInfo : ThreadInfo) : Bool := threadInfo.id == thread

/-- `findThread`. -/
def findThread (p : Profiler) (thread : PThread) : Option ThreadInfo :=
  p.threads.find (isThread thread)

/-- `addCurrentThread`. -/
@[simps] def addCurrentThread (p : Profiler) (thread : PThread) (name : String)
    (stackLo stackHi : ℕ) : Profiler :=
  { p with
    threads := p.threads.pushBack
      { name := name, id := thread, stackLo := stackLo, stackHi := stackHi } }

/-- Add to `current_traces` of the info that `findThread` returns. -/
@[simps] def addCurrentTraces (p : Profiler) (thread : PThread) (amount : ℤ) : Profiler :=
  { p with
    threads := p.threads.updateFirst (isThread thread)
      fun threadInfo => { threadInfo with currentTraces := threadInfo.currentTraces + amount } }

/-- The threads that a round of the sampler samples. -/
def sampledThreads (p : Profiler) : List ThreadInfo :=
  p.threads.list.filter fun threadInfo => 0 < threadInfo.currentTraces

/-- Write `current_coroutine_id`. -/
@[simps] def setCurrentCoroutineId (p : Profiler) (thread : PThread) (coroutineId : JLong) :
    Profiler :=
  { p with
    locals := Function.update p.locals thread
      { p.locals thread with currentCoroutineId := coroutineId } }

/-- `getrusage` into `current_rusage_`. -/
@[simps] def setCurrentRusage (p : Profiler) (thread : PThread) (rusage : RUsage) : Profiler :=
  { p with
    locals := Function.update p.locals thread { p.locals thread with currentRusage := rusage } }

/-- Replace the storage. -/
@[simps] def withStorage (p : Profiler) (storage : TraceStorage) : Profiler :=
  { p with storage := storage }

/-! ## Method names -/

/-- The class signature without its last character. -/
def className (env : Env) (method : JMethodID) : String :=
  String.ofList (env.getClassSignature method).toList.dropLast

/-- The two caches of method and class names, filled on a miss, and the frame of the method. -/
def resolveMethod (env : Env) (p : Profiler) (method : JMethodID) : StackFrame × Profiler :=
  if ¬ p.methodInfoMap.contains method then
    let classInfoMap :=
      if p.classInfoMap.contains method then p.classInfoMap
      else (p.classInfoMap.insert method (className env method)).2
    let class_ := classInfoMap.get "" method
    let methodInfoMap := (p.methodInfoMap.insert method
      ((env.getMethodName method).1 ++ (env.getMethodName method).2)).2
    let method_ := methodInfoMap.get "" method
    (⟨method_.1, class_.1⟩, { p with methodInfoMap := method_.2, classInfoMap := class_.2 })
  else
    let method_ := p.methodInfoMap.get "" method
    let class_ := p.classInfoMap.get "" method
    (⟨method_.1, class_.1⟩, { p with methodInfoMap := method_.2, classInfoMap := class_.2 })

/-- `processMethodInfo`. -/
def processMethodInfo (env : Env) (p : Profiler) (method : JMethodID) : StackFrame × Profiler :=
  resolveMethod env p method

/-- `processProfilerMethodInfo`. -/
def processProfilerMethodInfo (env : Env) (p : Profiler) (instructionInfo : InstructionInfo) :
    StackFrame × Profiler :=
  if instructionInfo.javaFrame then
    if instructionInfo.instruction ≠ 0 then resolveMethod env p instructionInfo.instruction
    else (⟨"unknown_java", ""⟩, p)
  else
    match env.getNativeFunctionInfo instructionInfo.instruction with
    | some (name, libName) => (⟨name, libName⟩, p)
    | none => (⟨"unknown_native", ""⟩, p)

/-- Resolve the frames of a stack from the first to the last. -/
def resolveFrames {α : Type} (resolve : Profiler → α → StackFrame × Profiler) :
    Profiler → List α → List StackFrame × Profiler
  | p, [] => ([], p)
  | p, x :: xs =>
    let frame := resolve p x
    let rest := resolveFrames resolve frame.2 xs
    (frame.1 :: rest.1, rest.2)

/-! ## Resource usage -/

/-- `calculate_resource_usage` on the record of a coroutine. -/
def calculateResourceUsage (p : Profiler) (ctx : Context) (coroutineId : JLong)
    (info : CoroutineInfo) : Profiler × List Effect :=
  let credit := resourceCredit info (p.locals ctx.thread).currentRusage ctx.rusage ctx.now
  (((p.setCurrentRusage ctx.thread ctx.rusage).withStorage
      (p.storage.updateCoroutineInfo coroutineId fun info => info.addCredit credit)),
    [.credited coroutineId credit])

/-! ## Coroutine callbacks -/

/-- `coroutineCreated`. -/
def coroutineCreated (p : Profiler) (ctx : Context) (coroutineId : JLong) : Profiler :=
  let parentId := (p.locals ctx.thread).currentCoroutineId
  let storage := p.storage.createCoroutineInfo coroutineId ctx.now
  p.withStorage
    (if storage.containsChildCoroutineStorage parentId then
      (storage.addChildCoroutine coroutineId parentId).createChildCoroutineStorage coroutineId
    else storage)

/-- `COROUTINE_SUSPENSION_STACK_DEPTH`. -/
def coroutineSuspensionStackDepth : ℕ := 60

/-- The part of `coroutineSuspended` that credits the coroutine and clears `last_resume`, if the
coroutine was running. -/
def creditSuspended (p : Profiler) (ctx : Context) (coroutineId : JLong) (info : CoroutineInfo) :
    Profiler × List Effect :=
  if 0 < info.lastResume then
    let credited := p.calculateResourceUsage ctx coroutineId info
    -- to not count multiple times chain
    (credited.1.withStorage (credited.1.storage.updateCoroutineInfo coroutineId fun info =>
      { info with lastResume := 0 }), credited.2)
  else (p, [])

/-- `coroutineSuspended`; `stack` is the Java stack of the thread, `none` if JVMTI fails. -/
def coroutineSuspended (env : Env) (p : Profiler) (ctx : Context) (coroutineId : JLong)
    (stack : Option (List JMethodID)) : Option (Profiler × List Effect) :=
  let p := p.setCurrentCoroutineId ctx.thread (-1)
  match p.storage.getCoroutineInfo coroutineId with
  | none => some (p, [])
  | some info =>
    let credited := p.creditSuspended ctx coroutineId info
    match stack.map fun frames => frames.take coroutineSuspensionStackDepth with
    | some (frame :: frames) =>
      let resolved := resolveFrames (processMethodInfo env) credited.1 (frame :: frames)
      (resolved.2.storage.addSuspensionInfo ⟨coroutineId, ctx.now, 0, resolved.1⟩).map
        fun storage => (resolved.2.withStorage storage, credited.2)
    | _ => some credited

/-- `coroutineResumed`. -/
def coroutineResumed (p : Profiler) (ctx : Context) (coroutineId : JLong) : Profiler :=
  let p := p.setCurrentCoroutineId ctx.thread coroutineId
  match p.storage.getCoroutineInfo coroutineId with
  | none => p
  | some _ =>
    -- `update_perf_counters`
    let p := p.setCurrentRusage ctx.thread ctx.rusage
    let storage := p.storage.updateCoroutineInfo coroutineId fun info =>
      { info with lastResume := ctx.now }
    p.withStorage
      (match storage.getLastSuspensionInfo coroutineId with
      | some _ => storage.endLastSuspension coroutineId ctx.now
      | none => storage)

/-- `coroutineCompleted`. -/
def coroutineCompleted (p : Profiler) (ctx : Context) (coroutineId : JLong) :
    Profiler × List Effect :=
  let p := p.setCurrentCoroutineId ctx.thread (-1)
  match p.storage.getCoroutineInfo coroutineId with
  | none => (p, [])
  | some info =>
    let p := p.withStorage (p.storage.updateCoroutineInfo coroutineId fun info =>
      { info with endTime := ctx.now })
    p.calculateResourceUsage ctx coroutineId { info with endTime := ctx.now }

/-! ## Trace callbacks -/

/-- The id under which a trace is kept: `-2` stands for the thread. -/
def traceId (env : Env) (thread : PThread) (coroutineId : JLong) : JLong :=
  if coroutineId = -2 then env.hashThreadId thread else coroutineId

/-- `traceStart`; a thread that is not registered is a null pointer. -/
def traceStart (env : Env) (p : Profiler) (ctx : Context) (coroutineId : JLong) :
    Option (Profiler × List Effect) :=
  let id := traceId env ctx.thread coroutineId
  let p := if coroutineId = -2 then p.withStorage (p.storage.createCoroutineInfo id ctx.now) else p
  match p.findThread ctx.thread with
  | none => none
  | some _ =>
    let p := p.addCurrentTraces ctx.thread 1
    let added := (p.storage.createChildCoroutineStorage id).addOngoingTraceInfo ⟨id, ctx.now, 0⟩
    let p := p.withStorage added.2
    if added.1 then some (p, [])
    else some (p, [.threw ("Found trace that already started: " ++ toString id)])

/-- The end of `traceEnd`: write the trace if it took longer than the threshold. -/
def writeTrace (env : Env) (p : Profiler) (traceInfo : TraceInfo) : Profiler × List Effect :=
  if env.threshold < traceInfo.endTime - traceInfo.start then
    ({ p with outputCounter := p.outputCounter + 1 },
      [.wrote (env.outputPath ++ "/trace" ++ toString p.outputCounter ++ ".pftrace")
        (writePerfetto traceInfo p.storage)])
  else (p, [])

/-- `traceEnd`. The trace is looked up under the id of the coroutine, but removed under the id
that its record holds. -/
def traceEnd (env : Env) (p : Profiler) (ctx : Context) (coroutineId : JLong) :
    Option (Profiler × List Effect) :=
  match p.findThread ctx.thread with
  | none => none
  | some _ =>
    let p := p.addCurrentTraces ctx.thread (-1)
    let id := traceId env ctx.thread coroutineId
    match p.storage.getCoroutineInfo id with
    -- found nullptr
    | none => some (p, [])
    | some info =>
      let credited := p.calculateResourceUsage ctx id info
      let found := credited.1.storage.findOngoingTraceInfo id
      let traceInfo := { found.1 with endTime := ctx.now }
      let p := credited.1.withStorage (found.2.removeOngoingTraceInfo traceInfo.coroutineId)
      let written := p.writeTrace env traceInfo
      some (written.1, credited.2 ++ written.2)

/-! ## The sampler -/

/-- One iteration of `processTraces`: a raw record becomes a sample of its coroutine. -/
def processRawRecord (env : Env) (p : Profiler) (rawRecord : RawCallTraceRecord)
    (thread : ThreadInfo) : Profiler × List Effect :=
  let methods := resolveFrames (processProfilerMethodInfo env) p
    (rawRecord.trace.instructions.take rawRecord.traceCount)
  let record : ProcessedTraceRecord := ⟨methods.1, thread.name, rawRecord.time⟩
  (methods.2.withStorage (methods.2.storage.addProcessedTrace rawRecord.coroutineId record),
    [.recorded rawRecord.coroutineId record])

/-- The loop of `processTraces`, at most `n` iterations. -/
def processTracesLoop (env : Env) : ℕ → Profiler → Option (Profiler × List Effect)
  | 0, p => some (p, [])
  | n + 1, p =>
    match p.storage.removeRawTraceHeader with
    | (none, storage) => some (p.withStorage storage, [])
    | (some rawRecord, storage) =>
      match p.findThread rawRecord.thread with
      | none => none
      | some thread =>
        let processed := (p.withStorage storage).processRawRecord env rawRecord thread
        (processTracesLoop env n processed.1).map fun rest =>
          (rest.1, processed.2 ++ rest.2)

/-- `processTraces`: every iteration takes one raw record, so their number is enough. -/
def processTraces (env : Env) (p : Profiler) : Option (Profiler × List Effect) :=
  processTracesLoop env p.storage.rawList.list.length p

end Profiler

/-! ## The machine -/

/-- The calls. -/
inductive Call
  | threadStart (name : String) (stackLo stackHi : ℕ)
  | coroutineCreated (coroutineId : JLong)
  | coroutineSuspended (coroutineId : JLong) (stack : Option (List JMethodID))
  | coroutineResumed (coroutineId : JLong)
  | coroutineCompleted (coroutineId : JLong)
  | traceStart (coroutineId : JLong)
  | traceEnd (coroutineId : JLong)
  | gcStart
  | gcFinish
  | addRawTrace (trace : AsyncTrace) (coroutineId : JLong)
  | addProcessedTrace (coroutineId : JLong) (record : ProcessedTraceRecord)
  | processTraces
  | markForClean
  | clean
deriving DecidableEq

/-- A call in its context. -/
structure Event extends Context where
  call : Call
deriving DecidableEq

/-- One step of the machine: the call of an event. -/
def Profiler.step (env : Env) (p : Profiler) (e : Event) : Option (Profiler × List Effect) :=
  match e.call with
  | .threadStart name stackLo stackHi =>
    some (p.addCurrentThread e.thread name stackLo stackHi, [])
  | .coroutineCreated c => some (p.coroutineCreated e.toContext c, [])
  | .coroutineSuspended c stack => p.coroutineSuspended env e.toContext c stack
  | .coroutineResumed c => some (p.coroutineResumed e.toContext c, [])
  | .coroutineCompleted c => some (p.coroutineCompleted e.toContext c)
  | .traceStart c => p.traceStart env e.toContext c
  | .traceEnd c => p.traceEnd env e.toContext c
  | .gcStart => some (p.withStorage (p.storage.gcStart e.now), [])
  | .gcFinish => (p.storage.gcFinish e.now).map fun storage => (p.withStorage storage, [])
  | .addRawTrace trace c => some (p.withStorage (p.storage.addRawTrace e.now trace c), [])
  | .addProcessedTrace c record =>
    some (p.withStorage (p.storage.addProcessedTrace c record), [.recorded c record])
  | .processTraces => p.processTraces env
  | .markForClean => some (p.withStorage p.storage.markForClean, [])
  | .clean => p.storage.clean.map fun storage =>
    (p.withStorage storage, p.storage.coroutineInfoMap.dropped.map .released)

/-- The machine of the profiler, from the state in which nothing has happened. -/
def machine (env : Env) : LogMachine Profiler Event Effect where
  init := {}
  step := Profiler.step env

/-- The log of a run: the events with the effects of their steps. -/
abbrev Log := List (Event × List Effect)

/-- `l` is the log of a run of the profiler that ends in `p`. -/
abbrev Run (env : Env) (l : Log) (p : Profiler) : Prop := (machine env).Run l p

/-! ## Clocks -/

/-- The clock of the events is positive and does not decrease. -/
structure PositiveClock (es : List Event) : Prop where
  pos : ∀ e ∈ es, 0 < e.now
  mono : es.Pairwise fun e e' => e.now ≤ e'.now

instance (es : List Event) : Decidable (PositiveClock es) :=
  decidable_of_iff ((∀ e ∈ es, 0 < e.now) ∧ es.Pairwise fun e e' => e.now ≤ e'.now)
    ⟨fun h => ⟨h.1, h.2⟩, fun h => ⟨h.pos, h.mono⟩⟩

/-- The part of a list with a positive clock before its last event. -/
lemma PositiveClock.of_concat {es : List Event} {e : Event} (h : PositiveClock (es ++ [e])) :
    PositiveClock es ∧ 0 < e.now ∧ ∀ e' ∈ es, e'.now ≤ e.now := by
  obtain ⟨hmono, _, hle⟩ := List.pairwise_append.mp h.mono
  refine ⟨⟨fun e' he' => h.pos e' (List.mem_append_left _ he'), hmono⟩, ?_, ?_⟩
  · exact h.pos e (List.mem_append_right _ (List.mem_singleton_self e))
  · intro e' he'
    exact hle e' he' e (List.mem_singleton_self e)

/-! ## Concrete calls -/

/-- A configuration: every duration is over the threshold, and JVMTI and the symbol table know
one method and no native function. -/
def Env.sample : Env where
  hashThreadId t := t + 1000
  threshold := 0
  outputPath := "/tmp"
  getMethodName _ := ("run", "()V")
  getClassSignature _ := "Lapp/Main;"
  getNativeFunctionInfo _ := none

/-- A call on a thread at a time, the thread having used no CPU time. -/
def Call.at (call : Call) (thread : PThread) (now : TraceTime) : Event := ⟨⟨thread, now, {}⟩, call⟩

end KotlinTracer
