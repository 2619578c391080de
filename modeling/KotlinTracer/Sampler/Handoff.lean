import KotlinTracer.Profiler.Steps

set_option relaxedAutoImplicit false
set_option autoImplicit false

/-!
# The hand-off between the profiler thread and the signal handlers

The profiler thread samples the threads of the VM one after the other: it publishes an `AsyncTrace`
in `trace_`, sends `SIGUSR1` to the thread, waits until the signal handler on that thread has set
the flag `ready` of the trace, takes the trace back and queues it as a raw record
(`Profiler::startProfiler`, `Profiler::stop` and `Profiler::signal_action` of
`profiler/profiler.cpp`, `unwind_stack` of `profiler/unwind/linux_x86_64.inline.hpp`).

## Main definitions

* `KotlinTracer.TraceCell` — an `AsyncTrace` in memory, with the fields of the hand-off.
* `KotlinTracer.unwindStack` — the frames that a handler writes.
* `KotlinTracer.ProfilerThread`, `KotlinTracer.SignalHandler` — where the profiler thread and the
  handler of a thread are in their code.
* `KotlinTracer.Sampler`, `KotlinTracer.Sampler.step`, `KotlinTracer.sampler` — the machine of the
  hand-off. Its state contains the profiler of `KotlinTracer.Profiler`, and the calls of the
  callbacks are among its events.
* `KotlinTracer.history` — what was done with a trace in the round it was made for.

## Main results

* `KotlinTracer.Sampler.step_spec` — what a step of the machine can be.

## Design

Every access to `trace_`, `active_`, a `ready` flag or `current_traces` is a step of its own, and
the steps of the parties interleave freely. The handler fills a trace in one step: nobody else reads
these fields before `ready` is set. A callback is one step, as in the machine of the profiler; a
thread executes no callback while its handler runs, and no second handler. An iteration of the loop
of `processTraces` is one step as well: taking the raw record, resolving its frames, storing the
sample and releasing the record and its trace. Callbacks of other threads can fall between these
accesses, but only the profiler thread takes raw records and stores samples; the step stands for the
moment at which the sample is stored.

A signal is a message: `pthread_kill` puts it into `pending`, and it is delivered once, at any later
moment. A signal and the handler it starts remember for which trace it was sent; no step reads that.

Memory is `heap`: every trace gets a new address, and the address of a discarded trace holds
nothing. An access to an address that holds nothing is undefined, so the step is `none`.

`ready.wait(false)` compares and goes to sleep in one step (that is what a futex guarantees); a
sleeper is woken by `notify_one`, or without a reason, and compares again. The sleep between two
rounds has no effect that another party sees. A thread is a position in the list of threads, which
only grows.
-/

namespace KotlinTracer

/-! ## Traces in memory -/

/-- The address of an `AsyncTrace`. -/
abbrev TracePtr := ℕ

/-- What the sampler asks from outside, beyond `Env`. -/
structure SamplerEnv extends Env where
  /-- `std::hash<pthread_t>`, as `jlong`. -/
  hashPThread : PThread → JLong
  /-- `JVM::isJavaFrame`. -/
  isJavaFrame : ℕ → Bool
  /-- `JVM::getJMethodId`, from an instruction pointer and a frame pointer. -/
  getJMethodId : ℕ → ℕ → JMethodID

/-- An `AsyncTrace` with the fields of the hand-off. -/
structure TraceCell where
  trace : AsyncTrace
  ready : Bool := false
  coroutineId : JLong := -1
  stackLo : ℕ
  stackHi : ℕ
deriving DecidableEq

/-- The number of frames that a round makes room for. -/
def traceCapacity : ℕ := 30

/-- The trace that a round makes for a thread. -/
@[simps] def newTrace (thread : ThreadInfo) : TraceCell where
  trace := ⟨List.replicate traceCapacity ⟨0, 0, false⟩, traceCapacity, thread.id⟩
  stackLo := thread.stackLo
  stackHi := thread.stackHi

/-- The raw record that `addRawTrace` makes of a trace. -/
@[simps] def TraceCell.rawRecord (cell : TraceCell) (now : TraceTime) : RawCallTraceRecord where
  time := now
  traceCount := cell.trace.size
  trace := cell.trace
  thread := cell.trace.threadId
  coroutineId := cell.coroutineId

/-! ## Unwinding -/

/-- `is_pointer_in_stack`. -/
def isPointerInStack (ptr lo hi : ℕ) : Bool := decide (lo ≤ ptr) && decide (ptr < hi)

/-- What `unwind_stack` writes for a frame; `none` leaves the slot as it is. -/
def unwindFrame (env : SamplerEnv) (lo hi ip rbp : ℕ) : Option InstructionInfo :=
  if ¬ env.isJavaFrame ip then some ⟨ip, rbp, false⟩
  else if isPointerInStack rbp lo hi then some ⟨env.getJMethodId ip rbp, 0, true⟩
  else none

/-- The loop of `unwind_stack`. The list holds the instruction and frame pointers that the cursor
still has to give, starting with those of its current frame. -/
def unwindLoop (env : SamplerEnv) (lo hi size : ℕ) :
    List (ℕ × ℕ) → (lrbp rbp index : ℕ) → List InstructionInfo → ℕ × List InstructionInfo
  | [], _, _, index, instructions => (index, instructions)
  | (ip, rbp') :: cursor, lrbp, rbp, index, instructions =>
    if lrbp ≠ 0 ∧ lrbp < rbp then (index, instructions)
    else
      let instructions :=
        match unwindFrame env lo hi ip rbp' with
        | some instructionInfo => instructions.set index instructionInfo
        | none => instructions
      if index + 1 < size then unwindLoop env lo hi size cursor rbp' rbp' (index + 1) instructions
      else (index + 1, instructions)

/-- `unwind_stack`, from the frame of the interrupted function on. -/
def unwindStack (env : SamplerEnv) (cursor : List (ℕ × ℕ)) (lo hi : ℕ) (trace : AsyncTrace) :
    AsyncTrace :=
  let unwound := unwindLoop env lo hi trace.size cursor 0 0 0 trace.instructions
  { trace with instructions := unwound.2, size := unwound.1 }

@[simp] lemma threadId_unwindStack (env : SamplerEnv) (cursor : List (ℕ × ℕ)) (lo hi : ℕ)
    (trace : AsyncTrace) : (unwindStack env cursor lo hi trace).threadId = trace.threadId := rfl

/-- The id that `signal_action` writes into the trace. -/
def attributedId (env : SamplerEnv) (currentCoroutineId : JLong) (thread : PThread) : JLong :=
  if currentCoroutineId = -1 then env.hashPThread thread else currentCoroutineId

/-! ## The parties -/

/-- Where the profiler thread is. `rest` are the threads of the round that are still to be
visited. -/
inductive ProfilerThread
  | notStarted
  /-- Before the test of `active_`. -/
  | loopHead
  /-- Before the test of `current_traces` of the first of the threads. -/
  | scanning (threads : List ℕ)
  /-- The test of `current_traces` succeeded. -/
  | sampling (thread : ThreadInfo) (rest : List ℕ)
  /-- The trace is stored in `trace_`. -/
  | published (thread : PThread) (trace : TracePtr) (rest : List ℕ)
  /-- The signal is sent; before the test of `ready` in `wait`. -/
  | waiting (trace : TracePtr) (rest : List ℕ)
  /-- Asleep in `wait`. -/
  | asleep (trace : TracePtr) (rest : List ℕ)
  /-- `wait` has returned. -/
  | woken (trace : TracePtr) (rest : List ℕ)
  /-- `trace_` is cleared. -/
  | cleared (trace : TracePtr) (rest : List ℕ)
  /-- In `processTraces`. -/
  | processing
  | finished
deriving DecidableEq

/-- Where the signal handler of a thread is. -/
inductive SignalHandler
  /-- The thread runs no handler. -/
  | idle
  /-- Before the test of `active_`. -/
  | entered (sentFor : TracePtr)
  /-- In the loop that loads `trace_`. -/
  | spinning (sentFor : TracePtr)
  | loaded (trace : TracePtr)
  /-- The frames are written. -/
  | unwound (trace : TracePtr)
  /-- The coroutine id is written. -/
  | tagged (trace : TracePtr)
  /-- `ready` is set; before `notify_one`. -/
  | readied (trace : TracePtr)
deriving DecidableEq

/-- The state of the process during sampling. -/
structure Sampler where
  profiler : Profiler := {}
  /-- `active_`. -/
  active : Bool := false
  /-- `trace_`. -/
  slot : Option TracePtr := none
  heap : TracePtr → Option TraceCell := fun _ => none
  /-- The number of traces that were made. -/
  allocated : ℕ := 0
  /-- The signals that are sent and not delivered. -/
  pending : List (PThread × TracePtr) := []
  /-- The addresses of the traces of `raw_list_`. -/
  rawTraces : List TracePtr := []
  thread : ProfilerThread := .notStarted
  handlers : PThread → SignalHandler := fun _ => .idle

/-- What is done with a trace between its publication and the moment it is ready. -/
inductive TraceAction
  /-- The signal is sent to a thread. -/
  | sent (thread : PThread)
  /-- The handler of a thread has loaded the address of the trace. -/
  | loaded (thread : PThread)
  /-- The handler of a thread has written the frames. -/
  | unwound (thread : PThread) (trace : AsyncTrace)
  /-- The handler of a thread has written the coroutine id. -/
  | tagged (thread : PThread) (coroutineId : JLong)
  /-- The handler of a thread has set `ready`. -/
  | readied (thread : PThread)
deriving DecidableEq

/-- What a step does beyond changing the state. -/
inductive SamplerEffect
  | acted (trace : TracePtr) (action : TraceAction)
  /-- A handler returned because `active_` was not set. -/
  | refused (thread : PThread) (sentFor : TracePtr)
  /-- A handler called `notify_one` and returned. -/
  | notified (thread : PThread) (trace : TracePtr)
  /-- `addRawTrace`. -/
  | added (trace : TracePtr) (record : RawCallTraceRecord)
  /-- An effect of `processTraces` on the raw record of a trace. -/
  | stored (trace : TracePtr) (effect : Effect)
  /-- The raw record of a trace is released, and the trace with it. -/
  | discarded (trace : TracePtr)
  /-- An effect of a callback. -/
  | called (effect : Effect)

/-- The events: a callback, a call of `startProfiler` or `stop`, a step of the profiler thread, the
delivery of a signal, a step of a handler. The profiler thread reads the clock when it queues a
trace, and a handler reads the stack of its thread when it unwinds it. -/
inductive SamplerEvent
  | callback (event : Event)
  | startProfiler
  | stop
  | profiler (now : TraceTime)
  | deliver (thread : PThread)
  | handler (thread : PThread) (cursor : List (ℕ × ℕ))
deriving DecidableEq

/-- The calls that only the profiler thread makes. -/
def Call.ofProfilerThread : Call → Bool
  | .addRawTrace _ _ | .addProcessedTrace _ _ | .processTraces => true
  | _ => false

namespace Sampler

/-! ## Steps of the profiler thread -/

/-- Replace the contents of an address. -/
@[simps] def store (s : Sampler) (x : TracePtr) (cell : Option TraceCell) : Sampler :=
  { s with heap := Function.update s.heap x cell }

/-- The profiler thread goes on. -/
@[simps] def goTo (s : Sampler) (thread : ProfilerThread) : Sampler := { s with thread := thread }

/-- The handler of a thread goes on. -/
@[simps] def setHandler (s : Sampler) (t : PThread) (handler : SignalHandler) : Sampler :=
  { s with handlers := Function.update s.handlers t handler }

/-- The `AsyncTrace` of a thread is made and stored in `trace_`. -/
@[simps!] def publish (s : Sampler) (thread : ThreadInfo) (rest : List ℕ) : Sampler :=
  { s.store s.allocated (some (newTrace thread)) with
    allocated := s.allocated + 1
    slot := some s.allocated
    thread := .published thread.id s.allocated rest }

/-- `pthread_kill`. -/
@[simps] def send (s : Sampler) (t : PThread) (x : TracePtr) (rest : List ℕ) : Sampler :=
  { s with pending := s.pending ++ [(t, x)], thread := .waiting x rest }

/-- `addRawTrace`, which takes the trace over from the round. -/
@[simps] def queue (s : Sampler) (now : TraceTime) (x : TracePtr) (cell : TraceCell)
    (rest : List ℕ) : Sampler :=
  { s with
    profiler := s.profiler.withStorage
      (s.profiler.storage.addRawTrace now cell.trace cell.coroutineId)
    rawTraces := s.rawTraces ++ [x]
    thread := .scanning rest }

/-- The end of an iteration of `processTraces`: the raw record is released. -/
@[simps!] def discard (s : Sampler) (x : TracePtr) (rest : List TracePtr) (p : Profiler) :
    Sampler :=
  { s.store x none with profiler := p, rawTraces := rest }

/-- A step of the profiler thread. -/
def profilerStep (env : SamplerEnv) (s : Sampler) (now : TraceTime) :
    Option (Sampler × List SamplerEffect) :=
  match s.thread with
  | .notStarted => none
  | .loopHead =>
    if s.active then some (s.goTo (.scanning (List.range s.profiler.threads.list.length)), [])
    else some (s.goTo .finished, [])
  | .scanning [] => some (s.goTo .processing, [])
  | .scanning (i :: rest) =>
    s.profiler.threads.list[i]?.map fun thread =>
      if 0 < thread.currentTraces then (s.goTo (.sampling thread rest), [])
      else (s.goTo (.scanning rest), [])
  | .sampling thread rest => some (s.publish thread rest, [])
  | .published t x rest => some (s.send t x rest, [.acted x (.sent t)])
  | .waiting x rest =>
    (s.heap x).map fun cell =>
      if cell.ready then (s.goTo (.woken x rest), []) else (s.goTo (.asleep x rest), [])
  | .asleep x rest => some (s.goTo (.waiting x rest), [])
  | .woken x rest => some ({ s with slot := none, thread := .cleared x rest }, [])
  | .cleared x rest =>
    (s.heap x).map fun cell => (s.queue now x cell rest, [.added x (cell.rawRecord now)])
  | .processing =>
    match s.rawTraces with
    | [] => some (s.goTo .loopHead, [])
    | x :: rest =>
      (s.profiler.processTracesLoop env.toEnv 1).map fun processed =>
        (s.discard x rest processed.1, processed.2.map (.stored x) ++ [.discarded x])
  | .finished => none

/-! ## Signals and handlers -/

/-- The start of a handler by a signal. -/
def deliver (s : Sampler) (t : PThread) : Option (Sampler × List SamplerEffect) :=
  if s.handlers t = .idle then
    (s.pending.find? fun signal => signal.1 == t).map fun signal =>
      ({ s.setHandler t (.entered signal.2) with pending := s.pending.erase signal }, [])
  else none

/-- The sleeper that `notify_one` on a flag wakes. -/
def notified (s : Sampler) (x : TracePtr) : ProfilerThread :=
  match s.thread with
  | .asleep y rest => if y = x then .waiting y rest else .asleep y rest
  | thread => thread

/-- A step of the handler of a thread (`signal_action`). -/
def handlerStep (env : SamplerEnv) (s : Sampler) (t : PThread) (cursor : List (ℕ × ℕ)) :
    Option (Sampler × List SamplerEffect) :=
  match s.handlers t with
  | .idle => none
  | .entered x =>
    if s.active then some (s.setHandler t (.spinning x), [])
    else some (s.setHandler t .idle, [.refused t x])
  | .spinning _ =>
    match s.slot with
    | none => some (s, [])
    | some x => some (s.setHandler t (.loaded x), [.acted x (.loaded t)])
  | .loaded x =>
    if cursor = [] then none
    else (s.heap x).map fun cell =>
      let trace := unwindStack env cursor cell.stackLo cell.stackHi cell.trace
      ((s.store x (some { cell with trace := trace })).setHandler t (.unwound x),
        [.acted x (.unwound t trace)])
  | .unwound x =>
    (s.heap x).map fun cell =>
      let coroutineId :=
        attributedId env (s.profiler.locals t).currentCoroutineId cell.trace.threadId
      ((s.store x (some { cell with coroutineId := coroutineId })).setHandler t (.tagged x),
        [.acted x (.tagged t coroutineId)])
  | .tagged x =>
    (s.heap x).map fun cell =>
      ((s.store x (some { cell with ready := true })).setHandler t (.readied x),
        [.acted x (.readied t)])
  | .readied x =>
    (s.heap x).map fun _ =>
      ((s.setHandler t .idle).goTo (s.notified x), [.notified t x])

/-! ## The machine -/

/-- One step of the machine. -/
def step (env : SamplerEnv) (s : Sampler) : SamplerEvent → Option (Sampler × List SamplerEffect)
  | .callback e =>
    if s.handlers e.thread = .idle ∧ ¬ e.call.ofProfilerThread then
      (s.profiler.step env.toEnv e).map fun called =>
        ({ s with profiler := called.1 }, called.2.map .called)
    else none
  | .startProfiler =>
    if s.thread = .notStarted then some ({ s.goTo .loopHead with active := true }, []) else none
  | .stop => some ({ s with active := false }, [])
  | .profiler now => s.profilerStep env now
  | .deliver t => s.deliver t
  | .handler t cursor => s.handlerStep env t cursor

/-- What a step can be, one constructor for each branch. -/
inductive StepSpec (env : SamplerEnv) (s : Sampler) :
    SamplerEvent → Sampler → List SamplerEffect → Prop
  | callback {e : Event} {p : Profiler} {o : List Effect} (hidle : s.handlers e.thread = .idle)
      (hcall : e.call.ofProfilerThread = false)
      (hstep : s.profiler.step env.toEnv e = some (p, o)) :
      StepSpec env s (.callback e) { s with profiler := p } (o.map .called)
  | startProfiler (hthread : s.thread = .notStarted) :
      StepSpec env s .startProfiler { s.goTo .loopHead with active := true } []
  | stop : StepSpec env s .stop { s with active := false } []
  | enterLoop {now : TraceTime} (hthread : s.thread = .loopHead) (hactive : s.active = true) :
      StepSpec env s (.profiler now)
        (s.goTo (.scanning (List.range s.profiler.threads.list.length))) []
  | leaveLoop {now : TraceTime} (hthread : s.thread = .loopHead) (hactive : s.active = false) :
      StepSpec env s (.profiler now) (s.goTo .finished) []
  | endScan {now : TraceTime} (hthread : s.thread = .scanning []) :
      StepSpec env s (.profiler now) (s.goTo .processing) []
  | select {now : TraceTime} {i : ℕ} {rest : List ℕ} {thread : ThreadInfo}
      (hthread : s.thread = .scanning (i :: rest))
      (hinfo : s.profiler.threads.list[i]? = some thread) (hpos : 0 < thread.currentTraces) :
      StepSpec env s (.profiler now) (s.goTo (.sampling thread rest)) []
  | skip {now : TraceTime} {i : ℕ} {rest : List ℕ} {thread : ThreadInfo}
      (hthread : s.thread = .scanning (i :: rest))
      (hinfo : s.profiler.threads.list[i]? = some thread) (hpos : ¬ 0 < thread.currentTraces) :
      StepSpec env s (.profiler now) (s.goTo (.scanning rest)) []
  | publish {now : TraceTime} {thread : ThreadInfo} {rest : List ℕ}
      (hthread : s.thread = .sampling thread rest) :
      StepSpec env s (.profiler now) (s.publish thread rest) []
  | send {now : TraceTime} {t : PThread} {x : TracePtr} {rest : List ℕ}
      (hthread : s.thread = .published t x rest) :
      StepSpec env s (.profiler now) (s.send t x rest) [.acted x (.sent t)]
  | proceed {now : TraceTime} {x : TracePtr} {rest : List ℕ} {cell : TraceCell}
      (hthread : s.thread = .waiting x rest) (hcell : s.heap x = some cell)
      (hready : cell.ready = true) : StepSpec env s (.profiler now) (s.goTo (.woken x rest)) []
  | sleep {now : TraceTime} {x : TracePtr} {rest : List ℕ} {cell : TraceCell}
      (hthread : s.thread = .waiting x rest) (hcell : s.heap x = some cell)
      (hready : cell.ready = false) : StepSpec env s (.profiler now) (s.goTo (.asleep x rest)) []
  | wakeUp {now : TraceTime} {x : TracePtr} {rest : List ℕ} (hthread : s.thread = .asleep x rest) :
      StepSpec env s (.profiler now) (s.goTo (.waiting x rest)) []
  | clear {now : TraceTime} {x : TracePtr} {rest : List ℕ} (hthread : s.thread = .woken x rest) :
      StepSpec env s (.profiler now) { s with slot := none, thread := .cleared x rest } []
  | queue {now : TraceTime} {x : TracePtr} {rest : List ℕ} {cell : TraceCell}
      (hthread : s.thread = .cleared x rest) (hcell : s.heap x = some cell) :
      StepSpec env s (.profiler now) (s.queue now x cell rest) [.added x (cell.rawRecord now)]
  | endProcessing {now : TraceTime} (hthread : s.thread = .processing) (hraw : s.rawTraces = []) :
      StepSpec env s (.profiler now) (s.goTo .loopHead) []
  | process {now : TraceTime} {x : TracePtr} {rest : List TracePtr} {p : Profiler}
      {o : List Effect} (hthread : s.thread = .processing) (hraw : s.rawTraces = x :: rest)
      (hstep : s.profiler.processTracesLoop env.toEnv 1 = some (p, o)) :
      StepSpec env s (.profiler now) (s.discard x rest p) (o.map (.stored x) ++ [.discarded x])
  | deliver {t : PThread} {signal : PThread × TracePtr} (hidle : s.handlers t = .idle)
      (hsignal : s.pending.find? (fun signal => signal.1 == t) = some signal) :
      StepSpec env s (.deliver t)
        { s.setHandler t (.entered signal.2) with pending := s.pending.erase signal } []
  | pass {t : PThread} {cursor : List (ℕ × ℕ)} {x : TracePtr} (hhandler : s.handlers t = .entered x)
      (hactive : s.active = true) :
      StepSpec env s (.handler t cursor) (s.setHandler t (.spinning x)) []
  | refuse {t : PThread} {cursor : List (ℕ × ℕ)} {x : TracePtr}
      (hhandler : s.handlers t = .entered x) (hactive : s.active = false) :
      StepSpec env s (.handler t cursor) (s.setHandler t .idle) [.refused t x]
  | spin {t : PThread} {cursor : List (ℕ × ℕ)} {x : TracePtr}
      (hhandler : s.handlers t = .spinning x) (hslot : s.slot = none) :
      StepSpec env s (.handler t cursor) s []
  | load {t : PThread} {cursor : List (ℕ × ℕ)} {x y : TracePtr}
      (hhandler : s.handlers t = .spinning y) (hslot : s.slot = some x) :
      StepSpec env s (.handler t cursor) (s.setHandler t (.loaded x)) [.acted x (.loaded t)]
  | unwind {t : PThread} {cursor : List (ℕ × ℕ)} {x : TracePtr} {cell : TraceCell}
      {trace : AsyncTrace} (hhandler : s.handlers t = .loaded x) (hcell : s.heap x = some cell)
      (htrace : trace = unwindStack env cursor cell.stackLo cell.stackHi cell.trace) :
      StepSpec env s (.handler t cursor)
        ((s.store x (some { cell with trace := trace })).setHandler t (.unwound x))
        [.acted x (.unwound t trace)]
  | tag {t : PThread} {cursor : List (ℕ × ℕ)} {x : TracePtr} {cell : TraceCell} {c : JLong}
      (hhandler : s.handlers t = .unwound x) (hcell : s.heap x = some cell)
      (hc : c = attributedId env (s.profiler.locals t).currentCoroutineId cell.trace.threadId) :
      StepSpec env s (.handler t cursor)
        ((s.store x (some { cell with coroutineId := c })).setHandler t (.tagged x))
        [.acted x (.tagged t c)]
  | setReady {t : PThread} {cursor : List (ℕ × ℕ)} {x : TracePtr} {cell : TraceCell}
      (hhandler : s.handlers t = .tagged x) (hcell : s.heap x = some cell) :
      StepSpec env s (.handler t cursor)
        ((s.store x (some { cell with ready := true })).setHandler t (.readied x))
        [.acted x (.readied t)]
  | notify {t : PThread} {cursor : List (ℕ × ℕ)} {x : TracePtr} {cell : TraceCell}
      (hhandler : s.handlers t = .readied x) (hcell : s.heap x = some cell) :
      StepSpec env s (.handler t cursor) ((s.setHandler t .idle).goTo (s.notified x))
        [.notified t x]

variable {env : SamplerEnv} {s s' : Sampler} {o : List SamplerEffect}

/-- A step of the profiler thread is one of its branches. -/
lemma profilerStep_spec {now : TraceTime} (h : s.profilerStep env now = some (s', o)) :
    StepSpec env s (.profiler now) s' o := by
  rw [profilerStep] at h
  split at h
  case h_1 => simp at h
  case h_2 hthread =>
    split_ifs at h with hactive <;> obtain ⟨rfl, rfl⟩ := by simpa using h
    · exact .enterLoop hthread hactive
    · exact .leaveLoop hthread (by simpa using hactive)
  case h_3 hthread =>
    obtain ⟨rfl, rfl⟩ := by simpa using h
    exact .endScan hthread
  case h_4 i rest hthread =>
    obtain ⟨thread, hinfo, h⟩ := Option.map_eq_some_iff.mp h
    split_ifs at h with hpos <;> obtain ⟨rfl, rfl⟩ := by simpa using h
    · exact .select hthread hinfo hpos
    · exact .skip hthread hinfo hpos
  case h_5 thread rest hthread =>
    obtain ⟨rfl, rfl⟩ := by simpa using h
    exact .publish hthread
  case h_6 t x rest hthread =>
    obtain ⟨rfl, rfl⟩ := by simpa using h
    exact .send hthread
  case h_7 x rest hthread =>
    obtain ⟨cell, hcell, h⟩ := Option.map_eq_some_iff.mp h
    split_ifs at h with hready <;> obtain ⟨rfl, rfl⟩ := by simpa using h
    · exact .proceed hthread hcell hready
    · exact .sleep hthread hcell (by simpa using hready)
  case h_8 x rest hthread =>
    obtain ⟨rfl, rfl⟩ := by simpa using h
    exact .wakeUp hthread
  case h_9 x rest hthread =>
    obtain ⟨rfl, rfl⟩ := by simpa using h
    exact .clear hthread
  case h_10 x rest hthread =>
    obtain ⟨cell, hcell, h⟩ := Option.map_eq_some_iff.mp h
    obtain ⟨rfl, rfl⟩ := by simpa using h
    exact .queue hthread hcell
  case h_11 hthread =>
    split at h
    case h_1 hraw =>
      obtain ⟨rfl, rfl⟩ := by simpa using h
      exact .endProcessing hthread hraw
    case h_2 x rest hraw =>
      obtain ⟨⟨p, effects⟩, hstep, h⟩ := Option.map_eq_some_iff.mp h
      obtain ⟨rfl, rfl⟩ := by simpa using h
      exact .process hthread hraw hstep
  case h_12 => simp at h

/-- A step of a handler is one of its branches. -/
lemma handlerStep_spec {t : PThread} {cursor : List (ℕ × ℕ)}
    (h : s.handlerStep env t cursor = some (s', o)) :
    StepSpec env s (.handler t cursor) s' o := by
  rw [handlerStep] at h
  split at h
  case h_1 => simp at h
  case h_2 x hhandler =>
    split_ifs at h with hactive <;> obtain ⟨rfl, rfl⟩ := by simpa using h
    · exact .pass hhandler hactive
    · exact .refuse hhandler (by simpa using hactive)
  case h_3 y hhandler =>
    split at h
    case h_1 hslot =>
      obtain ⟨rfl, rfl⟩ := by simpa using h
      exact .spin hhandler hslot
    case h_2 x hslot =>
      obtain ⟨rfl, rfl⟩ := by simpa using h
      exact .load hhandler hslot
  case h_4 x hhandler =>
    split_ifs at h
    obtain ⟨cell, hcell, h⟩ := Option.map_eq_some_iff.mp h
    obtain ⟨rfl, rfl⟩ := by simpa using h
    exact .unwind hhandler hcell rfl
  case h_5 x hhandler =>
    obtain ⟨cell, hcell, h⟩ := Option.map_eq_some_iff.mp h
    obtain ⟨rfl, rfl⟩ := by simpa using h
    exact .tag hhandler hcell rfl
  case h_6 x hhandler =>
    obtain ⟨cell, hcell, h⟩ := Option.map_eq_some_iff.mp h
    obtain ⟨rfl, rfl⟩ := by simpa using h
    exact .setReady hhandler hcell
  case h_7 x hhandler =>
    obtain ⟨cell, hcell, h⟩ := Option.map_eq_some_iff.mp h
    obtain ⟨rfl, rfl⟩ := by simpa using h
    exact .notify hhandler hcell

/-- **Inversion of a step.** -/
theorem step_spec {e : SamplerEvent} (h : s.step env e = some (s', o)) :
    StepSpec env s e s' o := by
  cases e with
  | callback e =>
    simp only [step] at h
    split_ifs at h with hcall
    obtain ⟨⟨p, effects⟩, hstep, h⟩ := Option.map_eq_some_iff.mp h
    obtain ⟨rfl, rfl⟩ := by simpa using h
    exact .callback hcall.1 (by simpa using hcall.2) hstep
  | startProfiler =>
    simp only [step] at h
    split_ifs at h with hthread
    obtain ⟨rfl, rfl⟩ := by simpa using h
    exact .startProfiler hthread
  | stop =>
    obtain ⟨rfl, rfl⟩ := by simpa [step] using h
    exact .stop
  | profiler now => exact profilerStep_spec h
  | deliver t =>
    simp only [step, deliver] at h
    split_ifs at h with hidle
    obtain ⟨signal, hsignal, h⟩ := Option.map_eq_some_iff.mp h
    obtain ⟨rfl, rfl⟩ := by simpa using h
    exact .deliver hidle hsignal
  | handler t cursor => exact handlerStep_spec h

end Sampler

/-- The machine of the hand-off, from the state in which nothing has happened. -/
def sampler (env : SamplerEnv) : LogMachine Sampler SamplerEvent SamplerEffect where
  init := {}
  step := Sampler.step env

/-- The log of a run of the sampler. -/
abbrev SamplerLog := List (SamplerEvent × List SamplerEffect)

/-- `l` is the log of a run of the sampler that ends in `s`. -/
abbrev SamplerRun (env : SamplerEnv) (l : SamplerLog) (s : Sampler) : Prop := (sampler env).Run l s

/-- A configuration: `std::hash<pthread_t>` is the identity, and every frame is native. -/
def SamplerEnv.sample : SamplerEnv where
  toEnv := .sample
  hashPThread t := t
  isJavaFrame _ := false
  getJMethodId _ _ := 0

/-- A thread starts a trace, and the profiler thread publishes an `AsyncTrace` for it and sends the
signal. -/
def signalSent : List SamplerEvent :=
  [.callback ((Call.threadStart "main" 0 1000).at 1 1), .callback ((Call.traceStart 7).at 1 2),
    .startProfiler, .profiler 3, .profiler 3, .profiler 3, .profiler 3]

/-- A thread starts a trace and is sampled once, up to the call of `addRawTrace`; the profiler
thread goes to sleep while the handler runs. -/
def oneRound : List SamplerEvent :=
  signalSent ++ [.deliver 1, .handler 1 [], .handler 1 [], .handler 1 [(5, 10)], .profiler 4,
    .handler 1 [], .handler 1 [], .handler 1 [], .profiler 5, .profiler 5]

/-! ## The history of a trace -/

/-- The action on a trace that an effect reports. -/
def SamplerEffect.actionOn (x : TracePtr) : SamplerEffect → Option TraceAction
  | .acted y action => if y = x then some action else none
  | _ => none

/-- What was done with a trace, in order. -/
def history (x : TracePtr) (l : SamplerLog) : List TraceAction :=
  (l.flatMap Prod.snd).filterMap (SamplerEffect.actionOn x)

/-- The history after one more step. -/
lemma history_concat (x : TracePtr) (l : SamplerLog) (e : SamplerEvent) (o : List SamplerEffect) :
    history x (l ++ [(e, o)]) = history x l ++ o.filterMap (SamplerEffect.actionOn x) := by
  rw [history, List.flatMap_append, List.filterMap_append, List.flatMap_singleton, history]

/-- A step that acts on no trace adds nothing to a history. -/
lemma history_concat_of_not_acted {l : SamplerLog} {e : SamplerEvent} {o : List SamplerEffect}
    (h : ∀ y action, SamplerEffect.acted y action ∉ o) (x : TracePtr) :
    history x (l ++ [(e, o)]) = history x l := by
  rw [history_concat, List.filterMap_eq_nil_iff.mpr, List.append_nil]
  intro effect heffect
  cases effect with
  | acted y action => exact absurd heffect (h y action)
  | _ => rfl

/-- A step with one action adds it to the history of its trace and to no other. -/
lemma history_concat_acted (x y : TracePtr) (l : SamplerLog) (e : SamplerEvent)
    (action : TraceAction) :
    history x (l ++ [(e, [.acted y action])]) =
      if y = x then history x l ++ [action] else history x l := by
  rw [history_concat]
  split_ifs with hy <;> simp [SamplerEffect.actionOn, hy]

end KotlinTracer
