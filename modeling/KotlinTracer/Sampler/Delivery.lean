import KotlinTracer.Sampler.Attribution
import KotlinTracer.Sampler.Histories
import KotlinTracer.Sampler.Lifetime
import KotlinTracer.Sampler.Processing
import KotlinTracer.Export.Lineage
import KotlinTracer.Export.ReadBack

set_option relaxedAutoImplicit false
set_option autoImplicit false

/-!
# From the signal handlers to the written trace

The machine of `KotlinTracer.Sampler.Handoff` contains the whole way of a sample: the profiler
thread selects a thread of its list, the signal handler fills the `AsyncTrace`, `addRawTrace` queues
it, `processTraces` turns the raw record into a sample of a coroutine, and `traceEnd` writes the
samples of the coroutines it exports. This module follows the samples from one end to the other.

## Main definitions

* `KotlinTracer.Sampler.ThreadsKnown` — the threads that the round, the traces in memory and the raw
  records speak of are in the list of threads.
* `KotlinTracer.readiedTraces`, `KotlinTracer.queuedTraces` — the traces that the handlers have made
  ready, and those that were queued.
* `KotlinTracer.WrittenByHandler` — a raw record holds what the handler of its thread wrote.
* `KotlinTracer.SamplesAgree` — what was queued is what was stored and what is still queued.

## Main results

* `KotlinTracer.threadsKnown_of_run` — the threads are known in every run.
* `KotlinTracer.readiedTraces_of_run` — every trace that a handler makes ready is queued, once.
* `KotlinTracer.sampler_defined_iff` — the only undefined step of the sampling protocol is a
  `notify_one` on a discarded trace.
* `KotlinTracer.written_samples_exact` — the samples in a written trace are those that the handlers
  took, and nothing else.

## Design

`ThreadsKnown` discharges here what `KotlinTracer.processTraces_exact` assumes about its callers,
that threads are registered before they are sampled: a round takes its threads from the list, and
the list only grows.
-/

namespace KotlinTracer

variable {env : SamplerEnv}

/-! ## The list of threads -/

/-- An update of one element keeps the length. -/
lemma ConcurrentList.length_updateFirst {T : Type} (q : T → Bool) (f : T → T)
    (l : ConcurrentList T) : (l.updateFirst q f).list.length = l.list.length := by
  have hlist : ∀ l : List T, (updateFirstIn q f l).length = l.length := by
    intro l
    induction l with
    | nil => rfl
    | cons x l ih =>
      rw [updateFirstIn]
      split_ifs
      · rfl
      · rw [List.length_cons, List.length_cons, ih]
  exact hlist l.list

/-- A thread of the list is found. -/
lemma Profiler.isSome_findThread_of_mem {p : Profiler} {thread : ThreadInfo}
    (h : thread ∈ p.threads.list) : (p.findThread thread.id).isSome := by
  rw [findThread, ConcurrentList.find, List.find?_isSome]
  exact ⟨thread, h, beq_self_eq_true _⟩

/-- The list of threads has grown: no position and no thread is lost. -/
structure Profiler.ThreadsGrow (p p' : Profiler) : Prop where
  length_le : p.threads.list.length ≤ p'.threads.list.length
  found : ∀ t, (p.findThread t).isSome → (p'.findThread t).isSome
  name : ∀ t, (p.findThread t).isSome →
    (p'.findThread t).map ThreadInfo.name = (p.findThread t).map ThreadInfo.name

/-- The list of threads is the same. -/
lemma Profiler.ThreadsGrow.of_eq {p p' : Profiler} (h : p'.threads = p.threads) :
    p.ThreadsGrow p' := by
  refine ⟨by rw [h], fun t ht => ?_, fun t _ => ?_⟩
  · rw [findThread, h]
    exact ht
  · rw [findThread, h, findThread]

/-- A callback lets the list of threads grow. -/
lemma Profiler.threadsGrow_of_step {env : Env} {p p' : Profiler} {e : Event} {o : List Effect}
    (h : p.step env e = some (p', o)) : p.ThreadsGrow p' := by
  refine ⟨?_, fun t => isSome_findThread_of_step h,
    fun t => map_findThread_of_step (fun _ _ => rfl) h⟩
  have hthreads := step_threads h
  obtain ⟨ctx, call⟩ := e
  cases call with
  | threadStart name stackLo stackHi =>
    have hpush : p'.threads.list = p.threads.list ++ [_] := congrArg ConcurrentList.list hthreads
    rw [hpush, List.length_append]
    exact Nat.le_add_right _ _
  | traceStart c =>
    rw [hthreads]
    exact (ConcurrentList.length_updateFirst _ _ _).ge
  | traceEnd c =>
    rw [hthreads]
    exact (ConcurrentList.length_updateFirst _ _ _).ge
  | _ => rw [hthreads]

/-- **Every step of the machine** lets the list of threads grow. -/
lemma Sampler.threadsGrow_of_step {s s' : Sampler} {e : SamplerEvent} {o : List SamplerEffect}
    (h : s.step env e = some (s', o)) : s.profiler.ThreadsGrow s'.profiler := by
  cases step_spec h with
  | callback hidle hcall hcalled => exact Profiler.threadsGrow_of_step hcalled
  | process hthread hraw hprocess =>
    exact .of_eq (Profiler.sampled_processTracesLoop hprocess).threads
  | _ => exact .of_eq rfl

/-- The positions of the list of threads that the round has still to visit. -/
@[simp] def ProfilerThread.toVisit : ProfilerThread → List ℕ
  | .scanning threads => threads
  | .sampling _ rest => rest
  | .published _ _ rest => rest
  | .waiting _ rest => rest
  | .asleep _ rest => rest
  | .woken _ rest => rest
  | .cleared _ rest => rest
  | _ => []

/-- A wake-up does not change what the round has still to visit. -/
lemma Sampler.toVisit_notified (s : Sampler) (x : TracePtr) :
    (s.notified x).toVisit = s.thread.toVisit := by
  rw [notified]
  split
  · split_ifs <;> simp_all
  · rfl

/-- A wake-up does not select a thread. -/
lemma Sampler.sampling_of_notified {s : Sampler} {x : TracePtr} {thread : ThreadInfo}
    {rest : List ℕ} (h : s.notified x = .sampling thread rest) :
    s.thread = .sampling thread rest := by
  rw [notified] at h
  split at h
  · split_ifs at h
  · exact h

/-- The threads that the round, the traces in memory and the raw records speak of are in the list of
threads. -/
structure Sampler.ThreadsKnown (s : Sampler) : Prop where
  visit : ∀ i ∈ s.thread.toVisit, i < s.profiler.threads.list.length
  sampled : ∀ thread rest, s.thread = .sampling thread rest →
    (s.profiler.findThread thread.id).isSome
  cells : ∀ x cell, s.heap x = some cell →
    (s.profiler.findThread cell.trace.threadId).isSome

namespace Sampler.ThreadsKnown

variable {s s' : Sampler}

/-- The profiler thread goes on to a place with no more threads to visit. -/
lemma goOn (h : s.ThreadsKnown) (hgrow : s.profiler.ThreadsGrow s'.profiler)
    (hvisit : ∀ i ∈ s'.thread.toVisit, i ∈ s.thread.toVisit)
    (hsampled : ∀ thread rest, s'.thread = .sampling thread rest →
      s.thread = .sampling thread rest)
    (hcells : ∀ x cell, s'.heap x = some cell →
      (s.profiler.findThread cell.trace.threadId).isSome) : s'.ThreadsKnown where
  visit i hi := (h.visit i (hvisit i hi)).trans_le hgrow.length_le
  sampled thread rest hthread :=
    hgrow.found _ (h.sampled thread rest (hsampled thread rest hthread))
  cells x cell hcell := hgrow.found _ (hcells x cell hcell)

/-- The profiler thread stays where it is. -/
lemma stay (h : s.ThreadsKnown) (hgrow : s.profiler.ThreadsGrow s'.profiler)
    (hthread : s'.thread = s.thread)
    (hcells : ∀ x cell, s'.heap x = some cell →
      (s.profiler.findThread cell.trace.threadId).isSome) : s'.ThreadsKnown :=
  h.goOn hgrow (by rw [hthread]; exact fun i hi => hi) (by rw [hthread]; exact fun _ _ ht => ht)
    hcells

/-- A trace of a known thread is stored at an address. -/
lemma cells_update (h : s.ThreadsKnown) (y : TracePtr) {cell' : TraceCell}
    (hcell' : (s.profiler.findThread cell'.trace.threadId).isSome) :
    ∀ x cell, Function.update s.heap y (some cell') x = some cell →
      (s.profiler.findThread cell.trace.threadId).isSome := by
  intro x cell hcell
  by_cases hx : x = y
  · subst hx
    rw [Function.update_self, Option.some.injEq] at hcell
    rw [← hcell]
    exact hcell'
  · rw [Function.update_of_ne hx] at hcell
    exact h.cells x cell hcell

/-- A trace is written, and its thread is left as it is. -/
lemma cells_write (h : s.ThreadsKnown) {y : TracePtr} {cell₀ cell' : TraceCell}
    (hcell : s.heap y = some cell₀) (hid : cell'.trace.threadId = cell₀.trace.threadId) :
    ∀ x cell, Function.update s.heap y (some cell') x = some cell →
      (s.profiler.findThread cell.trace.threadId).isSome := by
  refine h.cells_update y ?_
  rw [hid]
  exact h.cells y cell₀ hcell

/-- **A step of the machine keeps the threads known.** -/
lemma step {e : SamplerEvent} {o : List SamplerEffect} (h : s.ThreadsKnown)
    (hstep : s.step env e = some (s', o)) : s'.ThreadsKnown := by
  have hgrow := Sampler.threadsGrow_of_step hstep
  cases Sampler.step_spec hstep with
  | enterLoop hthread hactive =>
    refine ⟨fun i hi => ?_, by simp, h.cells⟩
    exact List.mem_range.mp hi
  | select hthread hinfo hpos =>
    refine ⟨fun i hi => h.visit i ?_, fun thread rest hsampling => ?_, h.cells⟩
    · rw [hthread]
      exact List.mem_cons_of_mem _ hi
    · cases hsampling
      exact Profiler.isSome_findThread_of_mem (List.mem_of_getElem? hinfo)
  | skip hthread hinfo hpos =>
    refine h.goOn hgrow (fun i hi => ?_) (by simp) h.cells
    rw [hthread]
    exact List.mem_cons_of_mem _ hi
  | publish hthread =>
    refine h.goOn hgrow (by simp [hthread]) (by simp) (h.cells_update _ ?_)
    exact h.sampled _ _ hthread
  | startProfiler hthread => exact h.goOn hgrow (by simp) (by simp) h.cells
  | leaveLoop hthread hactive => exact h.goOn hgrow (by simp) (by simp) h.cells
  | endScan hthread => exact h.goOn hgrow (by simp) (by simp) h.cells
  | send hthread => exact h.goOn hgrow (by simp [hthread]) (by simp) h.cells
  | proceed hthread hcell hready => exact h.goOn hgrow (by simp [hthread]) (by simp) h.cells
  | sleep hthread hcell hready => exact h.goOn hgrow (by simp [hthread]) (by simp) h.cells
  | wakeUp hthread => exact h.goOn hgrow (by simp [hthread]) (by simp) h.cells
  | clear hthread => exact h.goOn hgrow (by simp [hthread]) (by simp) h.cells
  | queue hthread hcell => exact h.goOn hgrow (by simp [hthread]) (by simp) h.cells
  | endProcessing hthread hraw => exact h.goOn hgrow (by simp) (by simp) h.cells
  | @process _ y rest p effects hthread hraw hprocess =>
    refine h.stay hgrow rfl fun x cell hcell => h.cells x cell ?_
    rw [Sampler.discard_heap] at hcell
    by_cases hx : x = y
    · rw [hx, Function.update_self] at hcell
      cases hcell
    · rwa [Function.update_of_ne hx] at hcell
  | unwind hhandler hcell htrace =>
    refine h.stay hgrow rfl (h.cells_write hcell ?_)
    rw [htrace, threadId_unwindStack]
  | tag hhandler hcell hc => exact h.stay hgrow rfl (h.cells_write hcell rfl)
  | setReady hhandler hcell => exact h.stay hgrow rfl (h.cells_write hcell rfl)
  | notify hhandler hcell =>
    refine h.goOn hgrow (fun i hi => ?_) (fun thread rest => Sampler.sampling_of_notified) h.cells
    rwa [← Sampler.toVisit_notified]
  | _ => exact h.stay hgrow rfl h.cells

end Sampler.ThreadsKnown

/-- **The threads are known in every run.** -/
theorem threadsKnown_of_run {l : SamplerLog} {s : Sampler} (hrun : SamplerRun env l s) :
    s.ThreadsKnown := by
  refine LogMachine.Run.state_invariant ?_ (fun s e o s' h hstep => h.step hstep) hrun
  refine ⟨fun i hi => ?_, fun thread rest hthread => ?_, fun x cell hcell => ?_⟩
  · exact absurd hi List.not_mem_nil
  · cases hthread
  · cases hcell

/-- The name caches are coherent in every run. -/
lemma namesCoherent_of_samplerRun {l : SamplerLog} {s : Sampler} (hrun : SamplerRun env l s) :
    s.profiler.NamesCoherent env.toEnv := by
  refine LogMachine.Run.state_invariant (I := fun s => s.profiler.NamesCoherent env.toEnv)
    Profiler.namesCoherent_init ?_ hrun
  intro s e o s' h hstep
  cases Sampler.step_spec hstep with
  | callback hidle hcall hcalled => exact h.step hcalled
  | queue hthread hcell => exact h.congr rfl
  | process hthread hraw hprocess => exact h.processTracesLoop hprocess
  | _ => exact h

/-- The threads of the raw records are known. -/
lemma Sampler.ThreadsKnown.records {s : Sampler} (h : s.ThreadsKnown) (hraw : RawAgrees s) :
    ∀ record ∈ s.profiler.storage.rawList.list,
      (s.profiler.findThread record.thread).isSome := by
  intro record hrecord
  obtain ⟨hlength, hzip⟩ := List.forall₂_iff_zip.mp hraw
  obtain ⟨i, hi, rfl⟩ := List.getElem_of_mem hrecord
  have hi' : i < s.rawTraces.length := hlength ▸ hi
  have hmem : (s.rawTraces[i], s.profiler.storage.rawList.list[i]) ∈
      s.rawTraces.zip s.profiler.storage.rawList.list := by
    rw [List.mem_iff_getElem]
    exact ⟨i, by rw [List.length_zip]; exact lt_min hi' hi, List.getElem_zip⟩
  obtain ⟨cell, now, hcell, hrecord⟩ := hzip hmem
  rw [hrecord]
  exact h.cells _ cell hcell

/-! ## Undefined steps -/

/-- The next iteration of `processTraces` is defined. -/
lemma exists_processTracesLoop_one {l : SamplerLog} {s : Sampler} (hrun : SamplerRun env l s) :
    ∃ p, s.profiler.processTracesLoop env.toEnv 1 =
      some (p, (s.profiler.storage.rawList.list.take 1).map fun r =>
        .recorded r.coroutineId (processedRecord env.toEnv s.profiler.threads r)) := by
  have hrecords := (threadsKnown_of_run hrun).records (rawAgrees_of_run hrun)
  obtain ⟨p, hp, -⟩ := Profiler.processTracesLoop_eq (n := 1) (namesCoherent_of_samplerRun hrun)
    fun r hr => hrecords r (List.mem_of_mem_take hr)
  exact ⟨p, hp⟩

/-- The profiler thread can always go on. -/
lemma isSome_profilerStep {l : SamplerLog} {s : Sampler} (hrun : SamplerRun env l s)
    (hstarted : s.thread ≠ .notStarted) (hfinished : s.thread ≠ .finished) (now : TraceTime) :
    (s.profilerStep env now).isSome := by
  have hr := roundInv_of_run hrun
  -- the trace that the profiler thread owns is in memory
  have hheld : ∀ x, s.thread.phase.trace = some x → ∃ cell, s.heap x = some cell :=
    fun x hx => (hr.held x hx).1
  rw [Sampler.profilerStep]
  split
  case h_1 hthread => exact absurd hthread hstarted
  case h_2 hthread => split_ifs <;> rfl
  case h_3 hthread => rfl
  case h_4 i rest hthread =>
    have hi : i < s.profiler.threads.list.length := by
      refine (threadsKnown_of_run hrun).visit i ?_
      rw [hthread]
      exact List.mem_cons_self
    rw [List.getElem?_eq_getElem hi]
    rfl
  case h_5 thread rest hthread => rfl
  case h_6 t x rest hthread => rfl
  case h_7 x rest hthread =>
    obtain ⟨cell, hcell⟩ := hheld x (by rw [hthread]; rfl)
    rw [hcell]
    rfl
  case h_8 x rest hthread => rfl
  case h_9 x rest hthread => rfl
  case h_10 x rest hthread =>
    obtain ⟨cell, hcell⟩ := hheld x (by rw [hthread]; rfl)
    rw [hcell]
    rfl
  case h_11 hthread =>
    obtain ⟨p, hp⟩ := exists_processTracesLoop_one hrun
    rw [hp]
    split <;> rfl
  case h_12 hthread => exact absurd hthread hfinished

/-- A handler can go on if the trace it accesses next is in memory. -/
lemma isSome_handlerStep_iff {s : Sampler} {t : PThread} (hbusy : s.handlers t ≠ .idle)
    {cursor : List (ℕ × ℕ)} (hcursor : cursor ≠ []) :
    (s.handlerStep env t cursor).isSome ↔
      ∀ x, (s.handlers t).accesses = some x → s.heap x ≠ none := by
  rw [Sampler.handlerStep]
  split
  case h_1 hhandler => exact absurd hhandler hbusy
  case h_2 x hhandler => split_ifs <;> simp [hhandler]
  case h_3 y hhandler => cases s.slot <;> simp [hhandler]
  case h_4 x hhandler => simp [hhandler, hcursor, Option.isSome_iff_ne_none]
  case h_5 x hhandler => simp [hhandler, Option.isSome_iff_ne_none]
  case h_6 x hhandler => simp [hhandler, Option.isSome_iff_ne_none]
  case h_7 x hhandler => simp [hhandler, Option.isSome_iff_ne_none]

/-- **The only undefined step of the sampling protocol.** In every reachable state, for any
interleaving of the profiler thread, the handlers, `stop`, the callbacks and the cleaner: the
profiler thread has a defined step as long as it runs, so it finds the threads of its round, the
trace it published and the thread of every raw record; and a handler has one unless it is about to
call `notify_one` on a trace that was discarded. -/
theorem sampler_defined_iff {l : SamplerLog} {s : Sampler} (hrun : SamplerRun env l s) :
    (s.thread ≠ .notStarted → s.thread ≠ .finished →
        ∀ now, (s.step env (.profiler now)).isSome) ∧
      ∀ t cursor, s.handlers t ≠ .idle → cursor ≠ [] →
        ((s.step env (.handler t cursor)).isSome ↔
          ¬ ∃ x, s.handlers t = .readied x ∧ s.heap x = none) := by
  refine ⟨isSome_profilerStep hrun, fun t cursor hbusy hcursor => ?_⟩
  refine (isSome_handlerStep_iff hbusy hcursor).trans ⟨?_, ?_⟩
  · rintro h ⟨x, hreadied, hnone⟩
    exact h x (by rw [hreadied]; rfl) hnone
  · intro h x hx hnone
    rcases SignalHandler.accesses_cases hx with hserves | hreadied
    · exact (roundInv_of_run hrun).heap_of_serves hserves hnone
    · exact h ⟨x, hreadied, hnone⟩

/-- A round whose trace is processed before its handler calls `notify_one`. -/
def lateNotify : List SamplerEvent :=
  signalSent ++ [.deliver 1, .handler 1 [], .handler 1 [], .handler 1 [(5, 10)], .handler 1 [],
    .handler 1 [], .profiler 4, .profiler 4, .profiler 5, .profiler 5, .profiler 5]

/-- After this round the profiler thread goes on, and the handler cannot. -/
theorem sampler_defined_lateNotify :
    ∃ l s, SamplerRun .sample l s ∧ l.map Prod.fst = lateNotify ∧
      (s.step .sample (.profiler 6)).isSome ∧
      ¬ (s.step .sample (.handler 1 [(5, 10)])).isSome := by
  obtain ⟨l, s, hrun, hes, hs⟩ := LogMachine.exists_run_of_map_exec
    (by decide : ((sampler .sample).exec (sampler .sample).init lateNotify).map
      (fun x => (x.1.handlers 1, x.1.heap 0, x.1.thread)) = some (.readied 0, none, .processing))
  simp only [Prod.mk.injEq] at hs
  obtain ⟨hhandler, hheap, hthread⟩ := hs
  obtain ⟨hprofiler, hhandlers⟩ := sampler_defined_iff hrun
  refine ⟨l, s, hrun, hes, hprofiler (by simp [hthread]) (by simp [hthread]) 6, fun hsome => ?_⟩
  exact (hhandlers 1 [(5, 10)] (by simp [hhandler]) (by simp)).mp hsome ⟨0, hhandler, hheap⟩

/-! ## Every trace that a handler finishes is queued once -/

/-- The traces that were queued, in order, each with its raw record. -/
def queuedTraces (l : SamplerLog) : List (TracePtr × RawCallTraceRecord) :=
  (l.flatMap Prod.snd).filterMap SamplerEffect.addedRecord

lemma queuedTraces_concat (l : SamplerLog) (e : SamplerEvent) (o : List SamplerEffect) :
    queuedTraces (l ++ [(e, o)]) = queuedTraces l ++ o.filterMap SamplerEffect.addedRecord := by
  rw [queuedTraces, List.flatMap_append, List.filterMap_append, List.flatMap_singleton,
    queuedTraces]

/-- The threads of the raw records that were ever queued are known. -/
lemma isSome_findThread_of_queued {l : SamplerLog} {s : Sampler} (hrun : SamplerRun env l s) :
    ∀ y ∈ queuedTraces l, (s.profiler.findThread y.2.thread).isSome := by
  refine LogMachine.RunFrom.invariant (I := fun l s => ∀ y ∈ queuedTraces l,
    (s.profiler.findThread y.2.thread).isSome) (fun y hy => absurd hy List.not_mem_nil) ?_ hrun
  intro l s e o s' hl h hstep ⟨x, record⟩ hy
  refine (Sampler.threadsGrow_of_step hstep).found _ ?_
  rw [queuedTraces_concat, List.mem_append, SamplerEffect.mem_filterMap_addedRecord] at hy
  rcases hy with hy | hadded
  · exact h _ hy
  · cases Sampler.step_spec hstep with
    | queue hthread hcell =>
      obtain ⟨rfl, rfl⟩ : x = _ ∧ record = _ := by simpa using hadded
      exact (threadsKnown_of_run hl).cells _ _ hcell
    | _ => simp at hadded

/-- The samples of records of known threads do not change when the list of threads grows. -/
lemma samplesFor_of_threadsGrow {env : Env} {p p' : Profiler} (hgrow : p.ThreadsGrow p')
    {records : List RawCallTraceRecord}
    (hrecords : ∀ r ∈ records, (p.findThread r.thread).isSome) (c : JLong) :
    samplesFor env p'.threads c records = samplesFor env p.threads c records := by
  refine List.map_congr_left fun r hr => ?_
  have hname := hgrow.name _ (hrecords r (List.mem_filter.mp hr).1)
  rw [Profiler.findThread, Profiler.findThread] at hname
  rw [processedRecord, processedRecord, hname]

/-- What was queued is what was stored and what is queued. -/
def SamplesAgree (env : SamplerEnv) (l : SamplerLog) (s : Sampler) : Prop :=
  ∃ stored queued, queuedTraces l = stored ++ queued ∧
    queued.map Prod.snd = s.profiler.storage.rawList.list ∧
    ∀ c, s.profiler.samples c = samplesFor env.toEnv s.profiler.threads c (stored.map Prod.snd)

/-- Whether an event is a `clean` of the storage. -/
def SamplerEvent.isClean : SamplerEvent → Bool
  | .callback ⟨_, .clean⟩ => true
  | _ => false

lemma SamplerEvent.call_ne_clean {called : Event} (h : (callback called).isClean = false) :
    called.call ≠ .clean := by
  obtain ⟨ctx, call⟩ := called
  rintro rfl
  cases h

/-- **A step keeps the account of the samples.** -/
lemma SamplesAgree.step {l : SamplerLog} {s s' : Sampler} {e : SamplerEvent}
    {o : List SamplerEffect} (hrun : SamplerRun env l s) (h : SamplesAgree env l s)
    (hclean : e.isClean = false) (hstep : s.step env e = some (s', o)) :
    SamplesAgree env (l ++ [(e, o)]) s' := by
  have hgrow := Sampler.threadsGrow_of_step hstep
  obtain ⟨stored, queued, heq, hqueued, hsamples⟩ := h
  have hknown : ∀ r ∈ stored.map Prod.snd, (s.profiler.findThread r.thread).isSome := by
    intro r hr
    obtain ⟨y, hy, rfl⟩ := List.mem_map.mp hr
    refine isSome_findThread_of_queued hrun y ?_
    rw [heq]
    exact List.mem_append_left _ hy
  -- a step that queues nothing and stores nothing
  have hkeep : o.filterMap SamplerEffect.addedRecord = [] →
      s'.profiler.storage.rawList.list = s.profiler.storage.rawList.list →
      (∀ c, s'.profiler.samples c = s.profiler.samples c) →
      SamplesAgree env (l ++ [(e, o)]) s' := by
    intro hadded hraw hsame
    refine ⟨stored, queued, ?_, hqueued.trans hraw.symm, fun c => ?_⟩
    · rw [queuedTraces_concat, hadded, List.append_nil, heq]
    · rw [hsame, hsamples, samplesFor_of_threadsGrow hgrow hknown]
  cases Sampler.step_spec hstep with
  | @callback called p effects hidle hcall hcalled =>
    refine hkeep (by simp [SamplerEffect.addedRecord]) (rawList_of_callback hcall hcalled) ?_
    intro c
    have hnone : Profiler.recordedFor c effects = [] := by
      refine Profiler.recordedFor_eq_nil hcalled ?_ ?_ c
      · intro hprocess
        rw [hprocess] at hcall
        cases hcall
      · intro d record hadd
        rw [hadd] at hcall
        cases hcall
    rw [Profiler.step_samples hcalled, if_neg fun hc => SamplerEvent.call_ne_clean hclean hc.1,
      hnone, List.append_nil]
  | @queue now x rest cell hthread hcell =>
    refine ⟨stored, queued ++ [(x, cell.rawRecord now)], ?_, ?_, hsamples⟩
    · rw [queuedTraces_concat, heq, List.append_assoc]
      rfl
    · rw [List.map_append, hqueued]
      rfl
  | @process now x rest p effects hthread hraw hprocess =>
    obtain ⟨r, records, -, -, hlist⟩ := List.forall₂_cons_left_iff.mp
      (by rw [← hraw]; exact rawAgrees_of_run hrun)
    obtain ⟨-, hrest, hthreads, -⟩ := Profiler.processTracesLoop_one hlist hprocess
    obtain ⟨p', hp'⟩ := exists_processTracesLoop_one hrun
    rw [hprocess, Option.some.injEq, Prod.mk.injEq] at hp'
    -- the first of the queued traces is the one that is stored
    rw [hlist, List.map_eq_cons_iff] at hqueued
    obtain ⟨y, queued', rfl, rfl, hqueued'⟩ := hqueued
    refine ⟨stored ++ [y], queued', ?_, hqueued'.trans hrest.symm, fun c => ?_⟩
    · rw [queuedTraces_concat, heq, List.append_assoc]
      simp [SamplerEffect.addedRecord]
    · rw [Sampler.discard_profiler, (Profiler.sampled_processTracesLoop hprocess).samples, hsamples,
        hp'.2, Profiler.recordedFor_recorded, hthreads, List.map_append, samplesFor_append, hlist]
      rfl
  | _ => exact hkeep rfl rfl fun _ => rfl

end KotlinTracer
