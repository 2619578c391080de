import KotlinTracer.Profiler.Names

set_option relaxedAutoImplicit false
set_option autoImplicit false

/-!
# From raw traces to samples

The sampler appends raw traces to a queue, and `processTraces` takes them from it one by one and
stores a sample for each under the id of its coroutine. What was added is at every moment what was
stored followed by what is still queued, so that after `processTraces` the samples of a coroutine
are the raw traces that were added for it, in this order.

## Main definitions

* `KotlinTracer.addedTraces` — the raw records of the traces that were added, from the calls.
* `KotlinTracer.processedRecord` — the sample that a raw record becomes.
* `KotlinTracer.SampledRegistered` — a trace is added for a registered thread only.

## Main results

* `KotlinTracer.Profiler.processTraces_eq` — `processTraces` is defined when the threads of the
  queue are registered, empties the queue and stores a sample for each record, in order.
* `KotlinTracer.queueAgrees_of_reaches` — what was added is what was stored and what is queued.
* `KotlinTracer.processTraces_exact` — the samples after `processTraces`.
-/

namespace KotlinTracer

/-! ## The queue and the samples, from the calls -/

/-- The raw record that an event adds. -/
def Event.rawRecord (e : Event) : Option RawCallTraceRecord :=
  match e.call with
  | .addRawTrace trace c => some ⟨e.now, trace.size, trace, trace.threadId, c⟩
  | _ => none

/-- The raw records that were added, in order. -/
def addedTraces (es : List Event) : List RawCallTraceRecord := es.filterMap Event.rawRecord

/-- The sample that a raw record becomes: the frames of its instructions, the name of its thread
and its time. -/
def processedRecord (env : Env) (threads : ConcurrentList ThreadInfo)
    (rawRecord : RawCallTraceRecord) : ProcessedTraceRecord where
  stackTrace := (rawRecord.trace.instructions.take rawRecord.traceCount).map (instructionFrame env)
  threadName := ((threads.find (Profiler.isThread rawRecord.thread)).map ThreadInfo.name).getD ""
  time := rawRecord.time

/-- The samples that raw records become for the coroutine `c`. -/
def samplesFor (env : Env) (threads : ConcurrentList ThreadInfo) (c : JLong)
    (records : List RawCallTraceRecord) : List ProcessedTraceRecord :=
  (records.filter fun rawRecord => rawRecord.coroutineId = c).map (processedRecord env threads)

/-- Whether an event registers a thread. -/
def Event.registers (t : PThread) (e : Event) : Bool :=
  match e.call with
  | .threadStart _ _ _ => e.thread = t
  | _ => false

/-- A trace is added for a thread that was registered before. -/
def SampledRegistered (before : List Event) (e : Event) : Prop :=
  ∀ rawRecord, e.rawRecord = some rawRecord → before.any (Event.registers rawRecord.thread)

instance (before : List Event) (e : Event) : Decidable (SampledRegistered before e) :=
  match h : e.rawRecord with
  | none => isTrue (by intro r hr; rw [h] at hr; cases hr)
  | some r => decidable_of_iff (before.any (Event.registers r.thread))
    ⟨fun hany r' hr' => by rw [h, Option.some.injEq] at hr'; rwa [← hr'], fun hany => hany r h⟩

/-- The calls of the sampler, and the registration of threads. -/
def Call.isSampling : Call → Bool
  | .threadStart _ _ _ => true
  | .addRawTrace _ _ => true
  | .processTraces => true
  | _ => false

/-- The sampler does not clean, and stores samples by `processTraces` only. -/
lemma Call.isSampling_ne {call : Call} (h : call.isSampling) :
    call ≠ .clean ∧ ∀ d record, call ≠ .addProcessedTrace d record := by
  constructor
  · rintro rfl
    cases h
  · rintro d record rfl
    cases h

/-- One more event. -/
lemma addedTraces_concat (es : List Event) (e : Event) :
    addedTraces (es ++ [e]) = addedTraces es ++ e.rawRecord.toList := by
  rw [addedTraces, List.filterMap_append, ← addedTraces]
  cases h : e.rawRecord <;> simp [h]

/-- The samples of two lists of records, one after the other. -/
lemma samplesFor_append (env : Env) (threads : ConcurrentList ThreadInfo) (c : JLong)
    (records records' : List RawCallTraceRecord) :
    samplesFor env threads c (records ++ records') =
      samplesFor env threads c records ++ samplesFor env threads c records' := by
  rw [samplesFor, List.filter_append, List.map_append]
  rfl

namespace Profiler

variable {env : Env} {p p' : Profiler} {e : Event} {o : List Effect}

/-! ## The registered threads -/

/-- The thread that `findThread` finds after a step, seen through a quantity that the counter of
the traces does not change. -/
lemma map_findThread_of_step {β : Type} {f : ThreadInfo → β}
    (hf : ∀ x n, f { x with currentTraces := n } = f x) (h : p.step env e = some (p', o))
    {t : PThread} (ht : (p.findThread t).isSome) :
    (p'.findThread t).map f = (p.findThread t).map f := by
  have hcount : ∀ amount, ((p.addCurrentTraces e.thread amount).findThread t).map f =
      (p.findThread t).map f := by
    intro amount
    refine ConcurrentList.map_find_updateFirst ?_ ?_ p.threads
    · exact fun x => rfl
    · exact fun x => hf x _
  obtain ⟨info, hinfo⟩ := Option.isSome_iff_exists.mp ht
  have hthreads := step_threads h
  obtain ⟨ctx, call⟩ := e
  cases call with
  | threadStart name stackLo stackHi =>
    have hpush : p'.threads = p.threads.pushBack _ := hthreads
    rw [findThread, hpush, ConcurrentList.find_pushBack, ← findThread, hinfo]
    rfl
  | traceStart c =>
    rw [findThread, hthreads]
    exact hcount 1
  | traceEnd c =>
    rw [findThread, hthreads]
    exact hcount (-1)
  | _ => rw [findThread, hthreads, findThread]

/-- A registered thread stays registered. -/
lemma isSome_findThread_of_step (h : p.step env e = some (p', o)) {t : PThread}
    (ht : (p.findThread t).isSome) : (p'.findThread t).isSome := by
  have hmap := map_findThread_of_step (f := fun _ => ()) (fun _ _ => rfl) h ht
  rw [← Option.isSome_map (f := fun _ => ()), hmap, Option.isSome_map]
  exact ht

/-- The sample of a record of a registered thread does not change. -/
lemma processedRecord_of_step (h : p.step env e = some (p', o)) {r : RawCallTraceRecord}
    (hr : (p.findThread r.thread).isSome) :
    processedRecord env p'.threads r = processedRecord env p.threads r := by
  have hname := map_findThread_of_step (f := ThreadInfo.name) (fun _ _ => rfl) h hr
  rw [processedRecord, processedRecord, ProcessedTraceRecord.mk.injEq]
  refine ⟨rfl, ?_, rfl⟩
  rw [findThread, findThread] at hname
  rw [hname]

/-- An event registers its thread. -/
lemma isSome_findThread_of_registers (h : p.step env e = some (p', o)) {t : PThread}
    (ht : e.registers t) : (p'.findThread t).isSome := by
  have hthreads := step_threads h
  obtain ⟨ctx, call⟩ := e
  cases call with
  | threadStart name stackLo stackHi =>
    have hctx : ctx.thread = t := by simpa [Event.registers] using ht
    have hpush : p'.threads = p.threads.pushBack _ := hthreads
    have hself : isThread t ⟨name, ctx.thread, 0, stackLo, stackHi⟩ = true := by
      rw [isThread, hctx, beq_self_eq_true]
    rw [findThread, hpush, ConcurrentList.find_pushBack, if_pos hself, Option.isSome_or]
    exact Bool.or_true _
  | _ => cases ht

/-! ## The loop of `processTraces` -/

/-- **One iteration of the loop** stores the sample of its record and touches nothing else but the
name caches. -/
lemma processRawRecord_spec (h : NamesCoherent env p) (r : RawCallTraceRecord)
    (thread : ThreadInfo) :
    let record : ProcessedTraceRecord :=
      ⟨(r.trace.instructions.take r.traceCount).map (instructionFrame env), thread.name, r.time⟩
    (p.processRawRecord env r thread).1.storage =
        p.storage.addProcessedTrace r.coroutineId record ∧
      (p.processRawRecord env r thread).1.threads = p.threads ∧
      (p.processRawRecord env r thread).2 = [.recorded r.coroutineId record] := by
  intro record
  obtain ⟨hs, ht, -⟩ := core_eq_iff.mp (resolveFrames_frame core
    (core_processProfilerMethodInfo env) p (r.trace.instructions.take r.traceCount))
  have hframes := (resolveFrames_spec (fun p x hp => processProfilerMethodInfo_spec hp x) h
    (r.trace.instructions.take r.traceCount)).1
  rw [processRawRecord]
  refine ⟨?_, ht, ?_⟩
  · rw [withStorage_storage, hs, hframes]
  · rw [hframes]

/-- **One iteration of `processTraces`** takes the first raw record, stores a sample under the id of
its coroutine, and leaves the threads and their variables alone. -/
lemma processTracesLoop_one {r : RawCallTraceRecord} {rest : List RawCallTraceRecord}
    (hlist : p.storage.rawList.list = r :: rest) (h : processTracesLoop env 1 p = some (p', o)) :
    (∃ record, o = [.recorded r.coroutineId record]) ∧ p'.storage.rawList.list = rest ∧
      p'.threads = p.threads ∧ p'.locals = p.locals := by
  have hremove : p.storage.removeRawTraceHeader.1 = some r ∧
      p.storage.removeRawTraceHeader.2.rawList.list = rest := by
    rw [TraceStorage.removeRawTraceHeader, ConcurrentList.popFront, hlist]
    exact ⟨rfl, rfl⟩
  rw [processTracesLoop, show p.storage.removeRawTraceHeader =
    (some r, p.storage.removeRawTraceHeader.2) from Prod.ext hremove.1 rfl] at h
  cases hthread : p.findThread r.thread with
  | none => simp [hthread] at h
  | some thread =>
    have hprocessed : processRawRecord env (p.withStorage p.storage.removeRawTraceHeader.2) r
        thread = (p', o) := by
      simpa [hthread, processTracesLoop] using h
    rw [processRawRecord, Prod.mk.injEq] at hprocessed
    obtain ⟨rfl, rfl⟩ := hprocessed
    obtain ⟨hs, ht, hl⟩ := core_eq_iff.mp (resolveFrames_frame core
      (core_processProfilerMethodInfo env)
      (p.withStorage p.storage.removeRawTraceHeader.2) (r.trace.instructions.take r.traceCount))
    refine ⟨⟨_, rfl⟩, ?_, ht, hl⟩
    rw [withStorage_storage, hs]
    exact hremove.2

/-- The sample of a record whose thread is found. -/
lemma processedRecord_of_findThread {r : RawCallTraceRecord} {thread : ThreadInfo}
    (hthread : p.findThread r.thread = some thread) :
    processedRecord env p.threads r =
      ⟨(r.trace.instructions.take r.traceCount).map (instructionFrame env), thread.name,
        r.time⟩ := by
  rw [findThread] at hthread
  rw [processedRecord, hthread]
  rfl

/-- **The loop of `processTraces`** over the first `n` records of the queue, whose threads are
registered.

**Proof sketch.** Induction on `n`: one iteration takes the first record, finds its thread and
stores its sample; the threads and the rest of the queue are what they were, and the caches are
coherent again. -/
lemma processTracesLoop_eq (h : NamesCoherent env p) {n : ℕ}
    (hthreads : ∀ r ∈ p.storage.rawList.list.take n, (p.findThread r.thread).isSome) :
    ∃ p', processTracesLoop env n p = some (p', (p.storage.rawList.list.take n).map fun r =>
        .recorded r.coroutineId (processedRecord env p.threads r)) ∧
      p'.storage.rawList = { p.storage.rawList with list := p.storage.rawList.list.drop n } := by
  induction n generalizing p with
  | zero => exact ⟨p, rfl, rfl⟩
  | succ n ih =>
    rw [processTracesLoop]
    cases hlist : p.storage.rawList.list with
    | nil =>
      have hremove : p.storage.removeRawTraceHeader = (none, p.storage) := by
        rw [TraceStorage.removeRawTraceHeader, ConcurrentList.popFront, hlist]
      rw [hremove]
      refine ⟨p, rfl, ?_⟩
      rw [List.drop_nil, ← hlist]
    | cons r rest =>
      have hremove : p.storage.removeRawTraceHeader =
          (some r, { p.storage with rawList := { p.storage.rawList with list := rest } }) := by
        rw [TraceStorage.removeRawTraceHeader, ConcurrentList.popFront, hlist]
      rw [hlist, List.take_succ_cons] at hthreads
      obtain ⟨thread, hthread⟩ := Option.isSome_iff_exists.mp (hthreads r List.mem_cons_self)
      rw [hremove]
      dsimp only
      rw [hthread]
      dsimp only
      set q := p.withStorage
        { p.storage with rawList := { p.storage.rawList with list := rest } } with hq
      have hcoherent : NamesCoherent env q := h.congr rfl
      have hthread' : q.findThread r.thread = some thread := hthread
      obtain ⟨hstorage, hkeep, heffects⟩ := processRawRecord_spec hcoherent r thread
      have hraw : (q.processRawRecord env r thread).1.storage.rawList = q.storage.rawList := by
        rw [hstorage, TraceStorage.addProcessedTrace_rawList]
      have hrest : ∀ r' ∈ (q.processRawRecord env r thread).1.storage.rawList.list.take n,
          ((q.processRawRecord env r thread).1.findThread r'.thread).isSome := by
        intro r' hr'
        rw [hraw] at hr'
        rw [findThread, hkeep]
        exact hthreads r' (List.mem_cons_of_mem _ hr')
      obtain ⟨p', hloop, hdrop⟩ := ih (hcoherent.processRawRecord r thread) hrest
      refine ⟨p', ?_, ?_⟩
      · rw [hloop, hraw, hkeep, heffects, ← processedRecord_of_findThread hthread',
          Option.map_some, List.take_succ_cons, List.map_cons]
        rfl
      · rw [hdrop, hraw, List.drop_succ_cons]
        rfl

/-- **What `processTraces` does** when the threads of the queue are registered: it empties the
queue and stores a sample for each record, in order. -/
lemma processTraces_eq (h : NamesCoherent env p)
    (hthreads : ∀ r ∈ p.storage.rawList.list, (p.findThread r.thread).isSome) :
    ∃ p', p.processTraces env = some (p', p.storage.rawList.list.map fun r =>
        .recorded r.coroutineId (processedRecord env p.threads r)) ∧
      p'.storage.rawList = { p.storage.rawList with list := [] } := by
  have hloop := processTracesLoop_eq h (n := p.storage.rawList.list.length)
  rw [List.take_length, List.drop_length] at hloop
  exact hloop hthreads

/-- The samples that the effects of `processTraces` store for a coroutine. -/
lemma recordedFor_recorded (env : Env) (threads : ConcurrentList ThreadInfo) (c : JLong)
    (records : List RawCallTraceRecord) :
    recordedFor c (records.map fun r =>
      .recorded r.coroutineId (processedRecord env threads r)) =
      samplesFor env threads c records := by
  induction records with
  | nil => rfl
  | cons r records ih =>
    rw [recordedFor] at ih
    rw [recordedFor, List.map_cons, List.filterMap_cons, samplesFor]
    by_cases hc : r.coroutineId = c
    · rw [List.filter_cons_of_pos (by simpa using hc), List.map_cons, ← samplesFor, ← ih]
      simp [hc]
    · rw [List.filter_cons_of_neg (by simpa using hc), ← samplesFor, ← ih]
      simp [hc]

/-- The queue after a step that is no `processTraces`. -/
lemma step_rawList (h : p.step env e = some (p', o)) (hcall : e.call ≠ .processTraces) :
    p'.storage.rawList.list = p.storage.rawList.list ++ e.rawRecord.toList := by
  have hkeep : ∀ s : TraceStorage, s.rawList = p.storage.rawList →
      s.rawList.list = p.storage.rawList.list ++ [] := by
    intro s hs
    rw [hs, List.append_nil]
  cases step_spec h with
  | coroutineCreated ctx d =>
    exact hkeep _ (congrArg TraceStorage.rawList (coroutineCreated_spec p ctx d).1 :)
  | coroutineSuspended frames hinfo hthreads hlocals =>
    exact hkeep _ (congrArg TraceStorage.rawList hinfo.frame :)
  | coroutineResumed ctx d =>
    exact hkeep _ (congrArg TraceStorage.rawList (coroutineResumed_spec p ctx d).1.frame :)
  | coroutineCompleted ctx d =>
    exact hkeep _ (congrArg TraceStorage.rawList (coroutineCompleted_spec p ctx d).1.frame :)
  | traceStart hspec => exact hkeep _ (congrArg TraceStorage.rawList hspec.frame :)
  | traceEnd hspec => exact hkeep _ (congrArg TraceStorage.rawList hspec.frame :)
  | gcFinish hgc =>
    obtain ⟨_, _, rfl⟩ := Option.map_eq_some_iff.mp hgc
    exact hkeep _ rfl
  | addProcessedTrace hspec =>
    rw [step] at h
    simp only [Option.some.injEq, Prod.mk.injEq] at h
    refine hkeep _ ?_
    rw [← h.1]
    rfl
  | processTraces hspec => exact absurd rfl hcall
  | addRawTrace ctx trace c => rfl
  | _ => exact hkeep _ rfl

/-- The samples after a step that is no `processTraces`. -/
lemma step_processedMap (h : p.step env e = some (p', o)) (hcall : e.call ≠ .processTraces) :
    p'.storage.processedMap = match e.call with
      | .addProcessedTrace c record => (p.storage.addProcessedTrace c record).processedMap
      | .markForClean => p.storage.processedMap.markCurrentValuesForClean
      | .clean => p.storage.processedMap.clean
      | _ => p.storage.processedMap := by
  cases step_spec h with
  | coroutineCreated ctx d => exact (coroutineCreated_fields p ctx d).1
  | coroutineSuspended frames hinfo hthreads hlocals => exact hinfo.fields.1
  | coroutineResumed ctx d => exact (coroutineResumed_spec p ctx d).1.fields.1
  | coroutineCompleted ctx d => exact (coroutineCompleted_spec p ctx d).1.fields.1
  | traceStart hspec => exact hspec.fields.1
  | traceEnd hspec => exact hspec.fields.1
  | gcFinish hgc =>
    obtain ⟨_, _, rfl⟩ := Option.map_eq_some_iff.mp hgc
    rfl
  | addProcessedTrace hspec =>
    rw [step] at h
    simp only [Option.some.injEq, Prod.mk.injEq] at h
    rw [← h.1]
    rfl
  | processTraces hspec => exact absurd rfl hcall
  | _ => rfl

/-- The loop of `processTraces` in two states with the same threads, queue and samples, whose
caches are coherent: it does the same. -/
lemma processTracesLoop_congr {q : Profiler} {n : ℕ} (hp : NamesCoherent env p)
    (hq : NamesCoherent env q) (hthreads : q.threads = p.threads)
    (hraw : q.storage.rawList.list = p.storage.rawList.list)
    (hprocessed : q.storage.processedMap = p.storage.processedMap)
    (h : processTracesLoop env n p = some (p', o)) :
    ∃ q', processTracesLoop env n q = some (q', o) ∧
      q'.storage.rawList.list = p'.storage.rawList.list ∧
      q'.storage.processedMap = p'.storage.processedMap := by
  induction n generalizing p q o with
  | zero =>
    rw [processTracesLoop, Option.some.injEq, Prod.mk.injEq] at h
    obtain ⟨rfl, rfl⟩ := h
    exact ⟨q, rfl, hraw, hprocessed⟩
  | succ n ih =>
    rw [processTracesLoop, TraceStorage.removeRawTraceHeader, ConcurrentList.popFront] at h ⊢
    rw [hraw]
    cases hlist : p.storage.rawList.list with
    | nil =>
      simp only [hlist, Option.some.injEq, Prod.mk.injEq] at h
      obtain ⟨rfl, rfl⟩ := h
      exact ⟨_, rfl, hraw, hprocessed⟩
    | cons r rest =>
      simp only [hlist] at h
      have hfind : q.findThread r.thread = p.findThread r.thread := by
        rw [findThread, findThread, hthreads]
      dsimp only
      rw [hfind]
      cases hthread : p.findThread r.thread with
      | none =>
        rw [hthread] at h
        cases h
      | some thread =>
        rw [hthread] at h
        dsimp only at h ⊢
        obtain ⟨⟨p'', o''⟩, hrest, heq⟩ := Option.map_eq_some_iff.mp h
        rw [Prod.mk.injEq] at heq
        obtain ⟨rfl, rfl⟩ := heq
        set p₁ := p.withStorage
          { p.storage with rawList := { p.storage.rawList with list := rest } }
        set q₁ := q.withStorage
          { q.storage with rawList := { q.storage.rawList with list := rest } }
        have hp₁ : NamesCoherent env p₁ := hp.congr rfl
        have hq₁ : NamesCoherent env q₁ := hq.congr rfl
        obtain ⟨hps, hpt, hpo⟩ := processRawRecord_spec hp₁ r thread
        obtain ⟨hqs, hqt, hqo⟩ := processRawRecord_spec hq₁ r thread
        have hprocessed₁ : q₁.storage.processedMap = p₁.storage.processedMap := hprocessed
        have hmap : (q₁.processRawRecord env r thread).1.storage.processedMap =
            (p₁.processRawRecord env r thread).1.storage.processedMap := by
          rw [hps, hqs, TraceStorage.addProcessedTrace_processedMap,
            TraceStorage.addProcessedTrace_processedMap, hprocessed₁]
        have hqueue : (q₁.processRawRecord env r thread).1.storage.rawList.list =
            (p₁.processRawRecord env r thread).1.storage.rawList.list := by
          rw [hps, hqs]
          rfl
        obtain ⟨q', hloop, hraw', hprocessed'⟩ := ih (hp₁.processRawRecord r thread)
          (hq₁.processRawRecord r thread) (hqt.trans (hthreads.trans hpt.symm)) hqueue hmap hrest
        refine ⟨q', ?_, hraw', hprocessed'⟩
        rw [hloop, hpo, hqo]
        rfl

/-- `processTraces` in two states with the same threads, queue and samples, whose caches are
coherent: it does the same. -/
lemma processTraces_congr {q : Profiler} (hp : NamesCoherent env p) (hq : NamesCoherent env q)
    (hthreads : q.threads = p.threads) (hraw : q.storage.rawList.list = p.storage.rawList.list)
    (hprocessed : q.storage.processedMap = p.storage.processedMap)
    (h : p.processTraces env = some (p', o)) :
    ∃ q', q.processTraces env = some (q', o) ∧
      q'.storage.rawList.list = p'.storage.rawList.list ∧
      q'.storage.processedMap = p'.storage.processedMap := by
  rw [processTraces] at h ⊢
  rw [hraw]
  exact processTracesLoop_congr hp hq hthreads hraw hprocessed h

end Profiler

/-! ## Runs -/

/-- What was added is what was stored followed by what is queued, and the threads of what was added
are registered. -/
structure QueueAgrees (env : Env) (es : List Event) (p : Profiler) : Prop where
  threads : ∀ t, es.any (Event.registers t) → (p.findThread t).isSome
  added : ∀ r ∈ addedTraces es, (p.findThread r.thread).isSome
  stored : ∃ stored, addedTraces es = stored ++ p.storage.rawList.list ∧
    ∀ c, p.samples c = samplesFor env p.threads c stored

/-- The threads of the queue are registered. -/
lemma QueueAgrees.queued {env : Env} {es : List Event} {p : Profiler} (h : QueueAgrees env es p) :
    ∀ r ∈ p.storage.rawList.list, (p.findThread r.thread).isSome := by
  obtain ⟨stored, hadded, -⟩ := h.stored
  intro r hr
  refine h.added r ?_
  rw [hadded]
  exact List.mem_append_right _ hr

/-- **One step keeps the queue in agreement with what was added.** -/
lemma QueueAgrees.step {env : Env} {es : List Event} {p p' : Profiler} {e : Event}
    {o : List Effect} (hnames : Profiler.NamesCoherent env p)
    (hstep : p.step env e = some (p', o)) (hclean : e.call ≠ .clean)
    (hadd : ∀ d record, e.call ≠ .addProcessedTrace d record) (hreg : SampledRegistered es e)
    (h : QueueAgrees env es p) : QueueAgrees env (es ++ [e]) p' := by
  have hthreads : ∀ t, (es ++ [e]).any (Event.registers t) → (p'.findThread t).isSome := by
    intro t ht
    rw [List.any_append, Bool.or_eq_true] at ht
    rcases ht with ht | ht
    · exact Profiler.isSome_findThread_of_step hstep (h.threads t ht)
    · refine Profiler.isSome_findThread_of_registers hstep ?_
      simpa using ht
  have hadded : ∀ r ∈ addedTraces (es ++ [e]), (p'.findThread r.thread).isSome := by
    intro r hr
    rw [addedTraces_concat, List.mem_append] at hr
    rcases hr with hr | hr
    · exact Profiler.isSome_findThread_of_step hstep (h.added r hr)
    · rw [Option.mem_toList] at hr
      exact Profiler.isSome_findThread_of_step hstep (h.threads _ (hreg r hr))
  refine ⟨hthreads, hadded, ?_⟩
  obtain ⟨stored, heq, hsamples⟩ := h.stored
  -- the samples stored so far do not depend on later registrations
  have hsame : ∀ records, (∀ r ∈ records, (p.findThread r.thread).isSome) → ∀ c,
      samplesFor env p'.threads c records = samplesFor env p.threads c records := by
    intro records hrecords c
    refine List.map_congr_left fun r hr => Profiler.processedRecord_of_step hstep ?_
    exact hrecords r (List.mem_filter.mp hr).1
  have hstored : ∀ r ∈ stored, (p.findThread r.thread).isSome := by
    intro r hr
    refine h.added r ?_
    rw [heq]
    exact List.mem_append_left _ hr
  have hsamples' := fun c => Profiler.step_samples hstep c
  simp only [hclean, false_and, if_false] at hsamples'
  by_cases hcall : e.call = .processTraces
  · -- the whole queue is stored
    obtain ⟨q, hq, hraw⟩ := Profiler.processTraces_eq hnames h.queued
    have hstep' := hstep
    rw [Profiler.step, hcall] at hstep'
    dsimp only at hstep'
    rw [hq, Option.some.injEq, Prod.mk.injEq] at hstep'
    obtain ⟨rfl, rfl⟩ := hstep'
    have hnone : e.rawRecord = none := by rw [Event.rawRecord, hcall]
    refine ⟨addedTraces es, ?_, fun c => ?_⟩
    · rw [addedTraces_concat, hnone, hraw]
      rfl
    · rw [hsamples', hsamples, Profiler.recordedFor_recorded, hsame _ h.added, heq,
        samplesFor_append]
  · refine ⟨stored, ?_, fun c => ?_⟩
    · rw [addedTraces_concat, heq, Profiler.step_rawList hstep hcall, List.append_assoc]
    · rw [hsamples', hsamples, Profiler.recordedFor_eq_nil hstep hcall hadd, List.append_nil,
        hsame _ hstored]

/-- **What was added is what was stored and what is queued**, in every run without a cleaner step
and without samples from elsewhere, in which the threads are registered before they are
sampled. -/
theorem queueAgrees_of_reaches {env : Env} {es : List Event} {p : Profiler}
    (hrun : (machine env).Reaches es p) (hclean : ∀ e ∈ es, e.call ≠ .clean)
    (hadd : ∀ e ∈ es, ∀ d record, e.call ≠ .addProcessedTrace d record)
    (hreg : es.AtEvery SampledRegistered) : QueueAgrees env es p := by
  refine LogMachine.Reaches.invariant (I := fun es p => (∀ e ∈ es, e.call ≠ .clean) →
    (∀ e ∈ es, ∀ d record, e.call ≠ .addProcessedTrace d record) →
    es.AtEvery SampledRegistered → QueueAgrees env es p) ?_ ?_ hrun hclean hadd hreg
  · intro _ _ _
    refine ⟨fun t ht => ?_, fun r hr => ?_, [], rfl, fun c => rfl⟩
    · cases ht
    · cases hr
  · intro es p e o p' hreaches ih hstep hclean hadd hreg
    obtain ⟨hreg, he⟩ := List.atEvery_concat.mp hreg
    have hbefore := ih (fun e' he' => hclean e' (by simp [he']))
      (fun e' he' => hadd e' (by simp [he'])) hreg
    exact hbefore.step (Profiler.namesCoherent_of_reaches hreaches) hstep (hclean e (by simp))
      (hadd e (by simp)) he

/-- The samples after a `processTraces`, in a run with any other callbacks. -/
lemma processTraces_of_reaches {env : Env} {es : List Event} {p : Profiler} (ctx : Context)
    (hrun : (machine env).Reaches es p) (hclean : ∀ e ∈ es, e.call ≠ .clean)
    (hadd : ∀ e ∈ es, ∀ d record, e.call ≠ .addProcessedTrace d record)
    (hreg : es.AtEvery SampledRegistered) :
    ∃ p', (machine env).Reaches (es ++ [⟨ctx, .processTraces⟩]) p' ∧
      p'.storage.rawList.list = [] ∧
      ∀ c, p'.samples c = samplesFor env p'.threads c (addedTraces es) := by
  have hagrees := queueAgrees_of_reaches hrun hclean hadd hreg
  have hnames := Profiler.namesCoherent_of_reaches hrun
  obtain ⟨p', hprocess, hraw⟩ := Profiler.processTraces_eq hnames hagrees.queued
  have hstep : p.step env ⟨ctx, .processTraces⟩ = some (p', _) := hprocess
  have hafter := hagrees.step hnames hstep (by simp) (by simp) (by intro r hr; cases hr)
  refine ⟨p', (machine env).reaches_concat.mpr ⟨p, _, hrun, hstep⟩, by rw [hraw], fun c => ?_⟩
  obtain ⟨stored, heq, hsamples⟩ := hafter.stored
  rw [hraw, List.append_nil, addedTraces_concat] at heq
  rw [hsamples, ← heq]
  simp [Event.rawRecord]

/-- The calls of the sampler are defined, when the threads are registered before they are
sampled. -/
lemma reaches_of_isSampling (env : Env) {es : List Event} (hcalls : ∀ e ∈ es, e.call.isSampling)
    (hreg : es.AtEvery SampledRegistered) : ∃ p, (machine env).Reaches es p := by
  induction es using List.reverseRecOn with
  | nil => exact ⟨_, [], (machine env).runFrom_nil.mpr rfl, rfl⟩
  | append_singleton es e ih =>
    have hreg' := (List.atEvery_concat.mp hreg).1
    have hcalls' : ∀ e' ∈ es, e'.call.isSampling := fun e' he' => hcalls e' (by simp [he'])
    obtain ⟨p, hp⟩ := ih hcalls' hreg'
    have hcall := hcalls e (by simp)
    obtain ⟨ctx, call⟩ := e
    cases call with
    | processTraces =>
      obtain ⟨p', hp', -⟩ := processTraces_of_reaches ctx hp
        (fun e' he' => (Call.isSampling_ne (hcalls' e' he')).1)
        (fun e' he' => (Call.isSampling_ne (hcalls' e' he')).2) hreg'
      exact ⟨p', hp'⟩
    | threadStart name stackLo stackHi =>
      exact ⟨_, (machine env).reaches_concat.mpr ⟨p, _, hp, rfl⟩⟩
    | addRawTrace trace c => exact ⟨_, (machine env).reaches_concat.mpr ⟨p, _, hp, rfl⟩⟩
    | _ => cases hcall

/-- **The samples after `processTraces`.** Every sequence of `addRawTrace` and `processTraces`, the
threads being registered before they are sampled, runs to its end; after a `processTraces` the
queue is empty and the samples of every coroutine are the raw traces that were added for it so
far, in the order of addition, each with its time and with the frames that
`processProfilerMethodInfo` makes of its instructions, as many as its count says. -/
theorem processTraces_exact (env : Env) (ctx : Context) {es : List Event}
    (hcalls : ∀ e ∈ es, e.call.isSampling) (hreg : es.AtEvery SampledRegistered) :
    ∃ p, (machine env).Reaches (es ++ [⟨ctx, .processTraces⟩]) p ∧
      p.storage.rawList.list = [] ∧
      (∀ c, p.samples c = samplesFor env p.threads c (addedTraces es)) ∧
      (∀ i, (Profiler.processProfilerMethodInfo env p i).1 = instructionFrame env i) ∧
      ∀ r ∈ addedTraces es, r.traceCount ≤ r.trace.instructions.length →
        (processedRecord env p.threads r).stackTrace.length = r.traceCount := by
  obtain ⟨q, hq⟩ := reaches_of_isSampling env hcalls hreg
  obtain ⟨p, hp, hraw, hsamples⟩ := processTraces_of_reaches ctx hq
    (fun e he => (Call.isSampling_ne (hcalls e he)).1)
    (fun e he => (Call.isSampling_ne (hcalls e he)).2) hreg
  refine ⟨p, hp, hraw, hsamples, fun i => ?_, fun r _ hle => ?_⟩
  · exact (Profiler.processProfilerMethodInfo_spec (Profiler.namesCoherent_of_reaches hp) i).1
  · rw [processedRecord, List.length_map, List.length_take, min_eq_left hle]

/-- Two threads are registered and sampled, with a `processTraces` between the samples. -/
def twoThreadsSampled : List Event :=
  [(Call.threadStart "main" 0 0).at 1 1, (Call.threadStart "worker" 0 0).at 2 2,
    (Call.addRawTrace ⟨[⟨5, 0, true⟩, ⟨0, 0, true⟩, ⟨9, 0, false⟩], 2, 1⟩ 7).at 3 3,
    (Call.addRawTrace ⟨[⟨9, 0, false⟩], 1, 2⟩ 8).at 3 4, Call.processTraces.at 3 5,
    (Call.addRawTrace ⟨[], 0, 2⟩ 7).at 3 6]

/-- The samples of coroutine 7 after another `processTraces`: one of each thread, with the two
frames that the first one counts and none in the second. -/
theorem processTraces_exact_twoThreadsSampled :
    ∃ p, (machine .sample).Reaches (twoThreadsSampled ++ [Call.processTraces.at 3 7]) p ∧
      p.samples 7 = [⟨[⟨"run()V", "Lapp/Main"⟩, ⟨"unknown_java", ""⟩], "main", 3⟩,
        ⟨[], "worker", 6⟩] := by
  obtain ⟨p, hp, -, hsamples, -⟩ := @processTraces_exact .sample
    (Call.processTraces.at 3 7).toContext twoThreadsSampled (by decide) (by decide)
  have hexec : ((machine .sample).exec (machine .sample).init
      (twoThreadsSampled ++ [Call.processTraces.at 3 7])).map
      (fun q => decide (samplesFor .sample q.1.threads 7 (addedTraces twoThreadsSampled) =
        [⟨[⟨"run()V", "Lapp/Main"⟩, ⟨"unknown_java", ""⟩], "main", 3⟩, ⟨[], "worker", 6⟩])) =
      some true := by decide
  obtain ⟨l, q, hrun, hes, hq⟩ := LogMachine.exists_run_of_map_exec hexec
  have hsame := hp.unique ⟨l, hrun, hes⟩
  refine ⟨p, hp, ?_⟩
  rw [hsamples, hsame]
  exact of_decide_eq_true hq

end KotlinTracer
