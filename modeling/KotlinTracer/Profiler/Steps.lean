import KotlinTracer.Profiler.CallbackSpecs

set_option relaxedAutoImplicit false
set_option autoImplicit false

/-!
# What a step can do

For every component of the state, what one step of the machine makes of it, as a function of the
event. The invariants of the runs are derived from these lemmas.

## Main definitions

* `KotlinTracer.infoUpdate` — what a step makes of the record of one coroutine.
* `KotlinTracer.InfoChange` — the ways in which it can change.

## Main results

* `KotlinTracer.Profiler.step_threads`, `step_locals`, `step_currentRusage`,
  `step_currentCoroutineId` — the threads and their variables.
* `KotlinTracer.Profiler.step_info`, `step_children`, `step_ongoing`,
  `step_processed`, `step_samples`, `step_gc`, `step_cleanList` — the storage.
* `KotlinTracer.Profiler.mem_credited`, `exists_threw_iff`, `mem_wrote_iff` — the effects.
* `KotlinTracer.counters_fit_int` — the counters that the source keeps in an `atomic_int` do not
  wrap around in a run of fewer than `2 ^ 31` steps.
-/

namespace KotlinTracer

/-- What a step makes of the record of `c`. `last` is the usage that the thread of the event read
last, `frames` the resolved stack of a suspension, and `marked` says whether the record is marked
for cleaning. -/
def infoUpdate (env : Env) (e : Event) (last : RUsage) (frames : Option (List StackFrame))
    (marked : Bool) (c : JLong) (old : Option CoroutineInfo) : Option CoroutineInfo :=
  match e.call with
  | .coroutineCreated d =>
    if c = d then some (old.getD (TraceStorage.newCoroutineInfo e.now)) else old
  | .coroutineSuspended d _ =>
    if c = d then old.map (suspendedInfo last e.toContext c frames) else old
  | .coroutineResumed d => if c = d then old.map (resumedInfo e.now) else old
  | .coroutineCompleted d => if c = d then old.map (completedInfo last e.toContext) else old
  | .traceStart d =>
    if d = -2 ∧ c = Profiler.traceId env e.thread d then
      some (old.getD (TraceStorage.newCoroutineInfo e.now))
    else old
  | .traceEnd d =>
    if c = Profiler.traceId env e.thread d then old.map (creditedInfo last e.toContext) else old
  | .clean => if marked then none else old
  | _ => old

/-- The ways in which a step changes the record of `c`. -/
inductive InfoChange (e : Event) (last : RUsage) (frames : Option (List StackFrame)) (c : JLong)
    (old : Option CoroutineInfo) : Option CoroutineInfo → Prop
  | keep : InfoChange e last frames c old old
  | create : InfoChange e last frames c old
    (some (old.getD (TraceStorage.newCoroutineInfo e.now)))
  | suspend {stack : Option (List JMethodID)} (h : e.call = .coroutineSuspended c stack) :
    InfoChange e last frames c old (old.map (suspendedInfo last e.toContext c frames))
  | resume (h : e.call = .coroutineResumed c) :
    InfoChange e last frames c old (old.map (resumedInfo e.now))
  | complete : InfoChange e last frames c old (old.map (completedInfo last e.toContext))
  | credit : InfoChange e last frames c old (old.map (creditedInfo last e.toContext))
  | remove : InfoChange e last frames c old none

/-- A step changes a record in one of these ways. -/
lemma infoChange_infoUpdate (env : Env) (e : Event) (last : RUsage)
    (frames : Option (List StackFrame)) (marked : Bool) (c : JLong) (old : Option CoroutineInfo) :
    InfoChange e last frames c old (infoUpdate env e last frames marked c old) := by
  obtain ⟨ctx, call⟩ := e
  cases call with
  | coroutineCreated d =>
    simp only [infoUpdate]
    split_ifs
    · exact .create
    · exact .keep
  | coroutineSuspended d stack =>
    simp only [infoUpdate]
    split_ifs with hc
    · exact .suspend (by rw [hc])
    · exact .keep
  | coroutineResumed d =>
    simp only [infoUpdate]
    split_ifs with hc
    · exact .resume (by rw [hc])
    · exact .keep
  | coroutineCompleted d =>
    simp only [infoUpdate]
    split_ifs
    · exact .complete
    · exact .keep
  | traceStart d =>
    simp only [infoUpdate]
    split_ifs
    · exact .create
    · exact .keep
  | traceEnd d =>
    simp only [infoUpdate]
    split_ifs
    · exact .credit
    · exact .keep
  | clean =>
    simp only [infoUpdate]
    split_ifs
    · exact .remove
    · exact .keep
  | _ => exact .keep

/-- A key that gets a value if it has none, in two ways. -/
lemma ite_create_eq {α : Type*} (f : JLong → Option α) (c d : JLong) (a : α) :
    (if c = d ∧ f d = none then some a else f c) =
      if c = d then some ((f c).getD a) else f c := by
  by_cases hc : c = d
  · subst hc
    cases f c <;> simp
  · simp [hc]

namespace Profiler

variable {env : Env} {p p' : Profiler} {e : Event} {ctx : Context} {o : List Effect}

/-! ## The cases of a step -/

/-- What one step does, call by call. -/
inductive StepSpec (env : Env) (p : Profiler) : Event → Profiler → List Effect → Prop
  | threadStart (ctx : Context) (name : String) (stackLo stackHi : ℕ) :
    StepSpec env p ⟨ctx, .threadStart name stackLo stackHi⟩
      (p.addCurrentThread ctx.thread name stackLo stackHi) []
  | coroutineCreated (ctx : Context) (c : JLong) :
    StepSpec env p ⟨ctx, .coroutineCreated c⟩ (p.coroutineCreated ctx c) []
  | coroutineSuspended {ctx : Context} {c : JLong} {stack : Option (List JMethodID)}
    {p' : Profiler} (frames : Option (List StackFrame))
    (hinfo : p.storage.UpdatesInfo p'.storage c
      (suspendedInfo (p.locals ctx.thread).currentRusage ctx c frames))
    (hthreads : p'.threads = p.threads) (hlocals : p'.locals = p.suspendedLocals ctx c) :
    StepSpec env p ⟨ctx, .coroutineSuspended c stack⟩ p' (p.suspendedCredits ctx c)
  | coroutineResumed (ctx : Context) (c : JLong) :
    StepSpec env p ⟨ctx, .coroutineResumed c⟩ (p.coroutineResumed ctx c) []
  | coroutineCompleted (ctx : Context) (c : JLong) :
    StepSpec env p ⟨ctx, .coroutineCompleted c⟩ (p.coroutineCompleted ctx c).1
      (p.infoCredits ctx c)
  | traceStart {ctx : Context} {c : JLong} {p' : Profiler} {o : List Effect}
    (h : TraceStartSpec env p ctx c p' o) : StepSpec env p ⟨ctx, .traceStart c⟩ p' o
  | traceEnd {ctx : Context} {c : JLong} {p' : Profiler} {o : List Effect}
    (h : TraceEndSpec env p ctx c p' o) : StepSpec env p ⟨ctx, .traceEnd c⟩ p' o
  | gcStart (ctx : Context) :
    StepSpec env p ⟨ctx, .gcStart⟩ (p.withStorage (p.storage.gcStart ctx.now)) []
  | gcFinish {ctx : Context} {storage : TraceStorage}
    (h : p.storage.gcFinish ctx.now = some storage) :
    StepSpec env p ⟨ctx, .gcFinish⟩ (p.withStorage storage) []
  | addRawTrace (ctx : Context) (trace : AsyncTrace) (c : JLong) :
    StepSpec env p ⟨ctx, .addRawTrace trace c⟩
      (p.withStorage (p.storage.addRawTrace ctx.now trace c)) []
  | addProcessedTrace {ctx : Context} {c : JLong} {record : ProcessedTraceRecord}
    {p' : Profiler} (h : Sampled p p' [.recorded c record]) :
    StepSpec env p ⟨ctx, .addProcessedTrace c record⟩ p' [.recorded c record]
  | processTraces {ctx : Context} {p' : Profiler} {o : List Effect} (h : Sampled p p' o) :
    StepSpec env p ⟨ctx, .processTraces⟩ p' o
  | markForClean (ctx : Context) :
    StepSpec env p ⟨ctx, .markForClean⟩ (p.withStorage p.storage.markForClean) []
  | clean {ctx : Context} {gcEvents : ConcurrentList GCEventPtr}
    (h : p.storage.gcEvents.clean = some gcEvents) :
    StepSpec env p ⟨ctx, .clean⟩
      (p.withStorage { p.storage with
        processedMap := p.storage.processedMap.clean
        childCoroutinesMap := p.storage.childCoroutinesMap.clean
        coroutineInfoMap := p.storage.coroutineInfoMap.clean
        gcEvents := gcEvents })
      (p.storage.coroutineInfoMap.dropped.map .released)

/-- **Every step is one of the cases.** -/
theorem step_spec (h : p.step env e = some (p', o)) : StepSpec env p e p' o := by
  obtain ⟨ctx, call⟩ := e
  rw [step] at h
  cases call with
  | coroutineSuspended c stack =>
    obtain ⟨⟨frames, hinfo⟩, hthreads, hlocals, rfl⟩ := coroutineSuspended_eq_some h
    exact .coroutineSuspended frames hinfo hthreads hlocals
  | coroutineCompleted c =>
    simp only [Option.some.injEq] at h
    have heffects := (coroutineCompleted_spec p ctx c).2.2.2
    have hstep : StepSpec env p ⟨ctx, .coroutineCompleted c⟩ (p.coroutineCompleted ctx c).1
        (p.infoCredits ctx c) := .coroutineCompleted ctx c
    rw [← heffects, h] at hstep
    exact hstep
  | traceStart c => exact .traceStart (traceStart_eq_some h)
  | traceEnd c => exact .traceEnd (traceEnd_eq_some h)
  | gcFinish =>
    obtain ⟨storage, hstorage, heq⟩ := Option.map_eq_some_iff.mp h
    rw [Prod.mk.injEq] at heq
    obtain ⟨rfl, rfl⟩ := heq
    exact .gcFinish hstorage
  | addProcessedTrace c record =>
    simp only [Option.some.injEq, Prod.mk.injEq] at h
    obtain ⟨rfl, rfl⟩ := h
    exact .addProcessedTrace (sampled_addProcessedTrace p c record)
  | processTraces => exact .processTraces (processTraces_eq_some h)
  | clean =>
    obtain ⟨storage, hstorage, heq⟩ := Option.map_eq_some_iff.mp h
    rw [Prod.mk.injEq] at heq
    obtain ⟨rfl, rfl⟩ := heq
    obtain ⟨gcEvents, hgc, rfl⟩ := Option.map_eq_some_iff.mp hstorage
    exact .clean hgc
  | _ =>
    simp only [Option.some.injEq, Prod.mk.injEq] at h
    obtain ⟨rfl, rfl⟩ := h
    constructor

/-! ## Threads -/

/-- The threads after a step. -/
lemma step_threads (h : p.step env e = some (p', o)) :
    p'.threads = match e.call with
      | .threadStart name stackLo stackHi =>
        (p.addCurrentThread e.thread name stackLo stackHi).threads
      | .traceStart _ => (p.addCurrentTraces e.thread 1).threads
      | .traceEnd _ => (p.addCurrentTraces e.thread (-1)).threads
      | _ => p.threads := by
  cases step_spec h with
  | coroutineSuspended frames hinfo hthreads hlocals => exact hthreads
  | coroutineResumed ctx c => exact (coroutineResumed_spec p ctx c).2.1
  | coroutineCompleted ctx c => exact (coroutineCompleted_spec p ctx c).2.1
  | traceStart hspec => exact hspec.threads
  | traceEnd hspec => exact hspec.threads
  | addProcessedTrace hspec => exact hspec.threads
  | processTraces hspec => exact hspec.threads
  | _ => rfl

/-- A trace is started and ended on a registered thread only: elsewhere the null pointer that
`findThread` returns is dereferenced. -/
lemma isSome_findThread (h : p.step env e = some (p', o)) {c : JLong}
    (hcall : e.call = .traceStart c ∨ e.call = .traceEnd c) :
    (p.findThread e.thread).isSome := by
  cases step_spec h with
  | traceStart hspec => exact hspec.thread
  | traceEnd hspec => exact hspec.thread
  | _ => simp at hcall

/-- The thread-local variables after a step. -/
lemma step_locals (h : p.step env e = some (p', o)) :
    p'.locals = match e.call with
      | .coroutineSuspended c _ => p.suspendedLocals e.toContext c
      | .coroutineResumed c => Function.update p.locals e.thread
        ⟨c, if (p.storage.getCoroutineInfo c).isSome then e.rusage
          else (p.locals e.thread).currentRusage⟩
      | .coroutineCompleted c => Function.update p.locals e.thread
        ⟨-1, if (p.storage.getCoroutineInfo c).isSome then e.rusage
          else (p.locals e.thread).currentRusage⟩
      | .traceEnd c => Function.update p.locals e.thread
        { p.locals e.thread with
          currentRusage := if (p.storage.getCoroutineInfo (traceId env e.thread c)).isSome
            then e.rusage else (p.locals e.thread).currentRusage }
      | _ => p.locals := by
  cases step_spec h with
  | coroutineSuspended frames hinfo hthreads hlocals => exact hlocals
  | coroutineResumed ctx c => exact (coroutineResumed_spec p ctx c).2.2
  | coroutineCompleted ctx c => exact (coroutineCompleted_spec p ctx c).2.2.1
  | traceEnd hspec => exact hspec.locals
  | traceStart hspec => exact hspec.locals
  | addProcessedTrace hspec => exact hspec.locals
  | processTraces hspec => exact hspec.locals
  | _ => rfl

/-- The usage that a thread read last, after a step: its own answer of `getrusage` if the step
read it there. -/
lemma step_currentRusage (h : p.step env e = some (p', o)) (t : PThread) :
    (p'.locals t).currentRusage = (p.locals t).currentRusage ∨
      t = e.thread ∧ (p'.locals t).currentRusage = e.rusage := by
  have hupdate : ∀ (l : ThreadLocals), (l.currentRusage = (p.locals e.thread).currentRusage ∨
      l.currentRusage = e.rusage) → p'.locals = Function.update p.locals e.thread l →
      (p'.locals t).currentRusage = (p.locals t).currentRusage ∨
        t = e.thread ∧ (p'.locals t).currentRusage = e.rusage := by
    intro l hl heq
    rw [heq]
    by_cases ht : t = e.thread
    · subst ht
      rw [Function.update_self]
      exact hl.imp_right fun hl => ⟨rfl, hl⟩
    · rw [Function.update_of_ne ht]
      exact Or.inl rfl
  have hread : ∀ b : Prop, [Decidable b] → ∀ u v : RUsage,
      (if b then u else v) = v ∨ (if b then u else v) = u := by
    intro b _ u v
    split_ifs
    · exact Or.inr rfl
    · exact Or.inl rfl
  have hlocals := step_locals h
  obtain ⟨ctx, call⟩ := e
  cases call with
  | coroutineSuspended c stack => exact hupdate _ (hread _ _ _) hlocals
  | coroutineResumed c => exact hupdate _ (hread _ _ _) hlocals
  | coroutineCompleted c => exact hupdate _ (hread _ _ _) hlocals
  | traceEnd c => exact hupdate _ (hread _ _ _) hlocals
  | _ => exact Or.inl (by rw [hlocals])

/-- The coroutine that a thread runs, after a step. -/
lemma step_currentCoroutineId (h : p.step env e = some (p', o)) (t : PThread) :
    (p'.locals t).currentCoroutineId = match e.call with
      | .coroutineResumed c => if t = e.thread then c else (p.locals t).currentCoroutineId
      | .coroutineSuspended _ _ => if t = e.thread then -1 else (p.locals t).currentCoroutineId
      | .coroutineCompleted _ => if t = e.thread then -1 else (p.locals t).currentCoroutineId
      | _ => (p.locals t).currentCoroutineId := by
  have hupdate : ∀ l : ThreadLocals, p'.locals = Function.update p.locals e.thread l →
      (p'.locals t).currentCoroutineId =
        if t = e.thread then l.currentCoroutineId else (p.locals t).currentCoroutineId := by
    intro l heq
    rw [heq]
    by_cases ht : t = e.thread
    · subst ht
      rw [Function.update_self, if_pos rfl]
    · rw [Function.update_of_ne ht, if_neg ht]
  have hlocals := step_locals h
  obtain ⟨ctx, call⟩ := e
  cases call with
  | coroutineSuspended c stack => exact hupdate _ hlocals
  | coroutineResumed c => exact hupdate _ hlocals
  | coroutineCompleted c => exact hupdate _ hlocals
  | traceEnd c =>
    rw [hupdate _ hlocals]
    by_cases ht : t = ctx.thread
    · rw [ht]
      exact if_pos rfl
    · exact if_neg ht
  | _ => rw [hlocals]

/-! ## The storage -/

/-- The record of every coroutine after a step. -/
lemma step_info (h : p.step env e = some (p', o)) :
    ∃ frames, ∀ c, p'.storage.getCoroutineInfo c =
      infoUpdate env e (p.locals e.thread).currentRusage frames
        (c ∈ p.storage.coroutineInfoMap.cleanList) c (p.storage.getCoroutineInfo c) := by
  have hupdate : ∀ (d c : JLong) (f : CoroutineInfo → CoroutineInfo),
      (if c = d then (p.storage.getCoroutineInfo d).map f else p.storage.getCoroutineInfo c) =
      if c = d then (p.storage.getCoroutineInfo c).map f else p.storage.getCoroutineInfo c := by
    intro d c f
    by_cases hc : c = d
    · rw [if_pos hc, if_pos hc, hc]
    · rw [if_neg hc, if_neg hc]
  cases step_spec h with
  | coroutineCreated ctx d =>
    exact ⟨none, fun c => ((coroutineCreated_spec p ctx d).2.1 c).trans (ite_create_eq _ c d _)⟩
  | coroutineSuspended frames hinfo hthreads hlocals =>
    refine ⟨frames, fun c => (hinfo.info c).trans ?_⟩
    rw [hupdate]
    dsimp only [infoUpdate]
    split_ifs with hc
    · rw [hc]
    · rfl
  | coroutineResumed ctx d =>
    exact ⟨none, fun c => ((coroutineResumed_spec p ctx d).1.info c).trans (hupdate d c _)⟩
  | coroutineCompleted ctx d =>
    exact ⟨none, fun c => ((coroutineCompleted_spec p ctx d).1.info c).trans (hupdate d c _)⟩
  | @traceStart ctx d _ _ hspec =>
    refine ⟨none, fun c => (hspec.info c).trans ?_⟩
    by_cases hd : d = -2
    · have hcreate := ite_create_eq p.storage.getCoroutineInfo c (traceId env ctx.thread d)
        (TraceStorage.newCoroutineInfo ctx.now)
      simpa [infoUpdate, hd] using hcreate
    · simp [infoUpdate, hd]
  | traceEnd hspec => exact ⟨none, fun c => (hspec.info c).trans (hupdate _ c _)⟩
  | addProcessedTrace hspec =>
    refine ⟨none, fun c => ?_⟩
    rw [TraceStorage.getCoroutineInfo_eq, TraceStorage.getCoroutineInfo_eq]
    rw [hspec.fields.2.2.1]
    rfl
  | processTraces hspec =>
    refine ⟨none, fun c => ?_⟩
    rw [TraceStorage.getCoroutineInfo_eq, TraceStorage.getCoroutineInfo_eq]
    rw [hspec.fields.2.2.1]
    rfl
  | gcFinish hgc =>
    obtain ⟨_, _, rfl⟩ := Option.map_eq_some_iff.mp hgc
    exact ⟨none, fun c => rfl⟩
  | clean hgc =>
    refine ⟨none, fun c => ?_⟩
    simp [infoUpdate, TraceStorage.getCoroutineInfo_eq, ConcurrentCleanableMap.at?_clean]
  | _ => exact ⟨none, fun c => rfl⟩

/-- Only a clean drops an info. -/
lemma isSome_infoUpdate {last : RUsage} {frames : Option (List StackFrame)} {marked : Bool}
    {c : JLong} {old : Option CoroutineInfo} (hold : old.isSome)
    (hclean : e.call = .clean → marked = false) :
    (infoUpdate env e last frames marked c old).isSome := by
  obtain ⟨info, rfl⟩ := Option.isSome_iff_exists.mp hold
  unfold infoUpdate
  cases hcall : e.call with
  | clean => simp [hclean hcall]
  | coroutineCreated d => by_cases hc : c = d <;> simp [hc]
  | coroutineSuspended d _ => by_cases hc : c = d <;> simp [hc]
  | coroutineResumed d => by_cases hc : c = d <;> simp [hc]
  | coroutineCompleted d => by_cases hc : c = d <;> simp [hc]
  | traceStart d => by_cases hc : d = -2 ∧ c = traceId env e.thread d <;> simp [hc]
  | traceEnd d => by_cases hc : c = traceId env e.thread d <;> simp [hc]
  | _ => rfl

/-- A coroutine keeps its info in every step, except a clean for which it is marked. -/
lemma isSome_info_of_step (h : p.step env e = some (p', o)) {c : JLong}
    (hinfo : (p.storage.getCoroutineInfo c).isSome)
    (hclean : e.call = .clean → c ∉ p.storage.coroutineInfoMap.cleanList) :
    (p'.storage.getCoroutineInfo c).isSome := by
  obtain ⟨frames, hupdate⟩ := step_info h
  rw [hupdate c]
  exact isSome_infoUpdate hinfo fun hcall => decide_eq_false (hclean hcall)

/-- The child list of every coroutine after a step. -/
lemma step_children (h : p.step env e = some (p', o)) (c : JLong) :
    p'.storage.getChildCoroutines c = match e.call with
      | .coroutineCreated d =>
        if p.storage.getChildCoroutines (p.locals e.thread).currentCoroutineId = none then
          p.storage.getChildCoroutines c
        else if c = (p.locals e.thread).currentCoroutineId then
          (p.storage.getChildCoroutines c).map fun list => list.pushBack d
        else if c = d then some ((p.storage.getChildCoroutines c).getD {})
        else p.storage.getChildCoroutines c
      | .traceStart d =>
        if c = traceId env e.thread d then some ((p.storage.getChildCoroutines c).getD {})
        else p.storage.getChildCoroutines c
      | .clean =>
        if c ∈ p.storage.childCoroutinesMap.cleanList then none
        else p.storage.getChildCoroutines c
      | _ => p.storage.getChildCoroutines c := by
  simp only [← ite_create_eq]
  cases step_spec h with
  | coroutineCreated ctx d => exact (coroutineCreated_spec p ctx d).2.2.1 c
  | coroutineSuspended frames hinfo hthreads hlocals =>
    exact congrArg (fun m => m.at? c) hinfo.fields.2.2.1
  | coroutineResumed ctx d =>
    exact congrArg (fun m => m.at? c) (coroutineResumed_spec p ctx d).1.fields.2.2.1
  | coroutineCompleted ctx d =>
    exact congrArg (fun m => m.at? c) (coroutineCompleted_spec p ctx d).1.fields.2.2.1
  | traceStart hspec => exact hspec.children c
  | traceEnd hspec => exact congrArg (fun m => m.at? c) hspec.fields.2.1
  | addProcessedTrace hspec => exact congrArg (fun m => m.at? c) hspec.fields.2.1
  | processTraces hspec => exact congrArg (fun m => m.at? c) hspec.fields.2.1
  | gcFinish hgc =>
    obtain ⟨_, _, rfl⟩ := Option.map_eq_some_iff.mp hgc
    rfl
  | clean hgc => exact ConcurrentCleanableMap.at?_clean _ c
  | _ => rfl

/-- The ongoing traces after a step. -/
lemma step_ongoing (h : p.step env e = some (p', o)) (k : JLong) :
    p'.storage.ongoingTraceInfoMap.at? k = match e.call with
      | .traceStart c =>
        if k = traceId env e.thread c ∧ p.storage.ongoingTraceInfoMap.at? k = none then
          some ⟨k, e.now, 0⟩
        else p.storage.ongoingTraceInfoMap.at? k
      | .traceEnd c =>
        if p.storage.getCoroutineInfo (traceId env e.thread c) = none then
          p.storage.ongoingTraceInfoMap.at? k
        else if k = (p.endedTrace e.toContext (traceId env e.thread c)).coroutineId then none
        else if k = traceId env e.thread c then
          some ((p.storage.ongoingTraceInfoMap.at? k).getD {})
        else p.storage.ongoingTraceInfoMap.at? k
      | _ => p.storage.ongoingTraceInfoMap.at? k := by
  cases step_spec h with
  | coroutineCreated ctx d =>
    exact congrArg (fun m => m.at? k) (coroutineCreated_fields p ctx d).2.1
  | coroutineSuspended frames hinfo hthreads hlocals =>
    exact congrArg (fun m => m.at? k) hinfo.fields.2.1
  | coroutineResumed ctx d =>
    exact congrArg (fun m => m.at? k) (coroutineResumed_spec p ctx d).1.fields.2.1
  | coroutineCompleted ctx d =>
    exact congrArg (fun m => m.at? k) (coroutineCompleted_spec p ctx d).1.fields.2.1
  | @traceStart ctx c _ _ hspec =>
    rw [hspec.ongoing]
    by_cases hk : k = traceId env ctx.thread c
    · rw [hk]
    · simp [hk]
  | @traceEnd ctx c _ _ hspec =>
    rw [hspec.ongoing]
    by_cases hk : k = traceId env ctx.thread c
    · rw [hk]
    · simp [hk]
  | addProcessedTrace hspec => exact congrArg (fun m => m.at? k) hspec.fields.1
  | processTraces hspec => exact congrArg (fun m => m.at? k) hspec.fields.1
  | gcFinish hgc =>
    obtain ⟨_, _, rfl⟩ := Option.map_eq_some_iff.mp hgc
    rfl
  | _ => rfl

/-- Only `addProcessedTrace` and `processTraces` store samples. -/
lemma recordedFor_eq_nil (h : p.step env e = some (p', o)) (hcall : e.call ≠ .processTraces)
    (hadd : ∀ d record, e.call ≠ .addProcessedTrace d record) (c : JLong) :
    recordedFor c o = [] := by
  have hcredits : ∀ ctx d, recordedFor c (p.infoCredits ctx d) = [] := by
    intro ctx d
    rw [infoCredits]
    cases p.storage.getCoroutineInfo d <;> rfl
  cases step_spec h with
  | @coroutineSuspended _ d _ _ frames hinfo hthreads hlocals =>
    rw [suspendedCredits]
    cases p.storage.getCoroutineInfo d with
    | none => rfl
    | some info =>
      dsimp only
      split_ifs <;> rfl
  | coroutineCompleted ctx d => exact hcredits ctx d
  | traceStart hspec =>
    rw [hspec.effects]
    split_ifs <;> rfl
  | traceEnd hspec =>
    rw [hspec.effects, recordedFor, List.filterMap_append, ← recordedFor, hcredits]
    split_ifs <;> rfl
  | addProcessedTrace hspec => exact absurd rfl (hadd _ _)
  | processTraces hspec => exact absurd rfl hcall
  | clean hgc => simp [recordedFor]
  | _ => rfl

/-- The list of samples of every coroutine after a step: those that the step stored are appended,
and a list that is marked is dropped by `clean`. -/
lemma step_processed (h : p.step env e = some (p', o)) (c : JLong) :
    p'.storage.getProcessedTraces c =
      if e.call = .clean ∧ c ∈ p.storage.processedMap.cleanList then none
      else appendSamples (p.storage.getProcessedTraces c) (recordedFor c o) := by
  -- a step that stores nothing and does not clean
  have hkeep : e.call ≠ .clean → e.call ≠ .processTraces →
      (∀ d record, e.call ≠ .addProcessedTrace d record) →
      p'.storage.processedMap.at? c = p.storage.processedMap.at? c →
      p'.storage.getProcessedTraces c =
        if e.call = .clean ∧ c ∈ p.storage.processedMap.cleanList then none
        else appendSamples (p.storage.getProcessedTraces c) (recordedFor c o) := by
    intro hclean hprocess hadd hmap
    rw [if_neg fun h => hclean h.1, recordedFor_eq_nil h hprocess hadd c,
      TraceStorage.getProcessedTraces_eq, TraceStorage.getProcessedTraces_eq, hmap]
    rfl
  cases step_spec h with
  | coroutineCreated ctx d =>
    exact hkeep (by simp) (by simp) (by simp) (by rw [(coroutineCreated_fields p ctx d).1])
  | coroutineSuspended frames hinfo hthreads hlocals =>
    exact hkeep (by simp) (by simp) (by simp) (by rw [hinfo.fields.1])
  | coroutineResumed ctx d =>
    exact hkeep (by simp) (by simp) (by simp) (by rw [(coroutineResumed_spec p ctx d).1.fields.1])
  | coroutineCompleted ctx d =>
    exact hkeep (by simp) (by simp) (by simp) (by rw [(coroutineCompleted_spec p ctx d).1.fields.1])
  | traceStart hspec => exact hkeep (by simp) (by simp) (by simp) (by rw [hspec.fields.1])
  | traceEnd hspec => exact hkeep (by simp) (by simp) (by simp) (by rw [hspec.fields.1])
  | addProcessedTrace hspec =>
    rw [if_neg (by simp)]
    exact hspec.processed c
  | processTraces hspec =>
    rw [if_neg (by simp)]
    exact hspec.processed c
  | gcFinish hgc =>
    obtain ⟨_, _, rfl⟩ := Option.map_eq_some_iff.mp hgc
    exact hkeep (by simp) (by simp) (by simp) rfl
  | clean hgc =>
    rw [recordedFor_eq_nil h (by simp) (by simp), withStorage_storage,
      TraceStorage.getProcessedTraces_eq, ConcurrentCleanableMap.at?_clean,
      TraceStorage.getProcessedTraces_eq]
    by_cases hc : c ∈ p.storage.processedMap.cleanList
    · simp [hc]
    · simp [hc, appendSamples]
  | _ => exact hkeep (by simp) (by simp) (by simp) rfl

/-- The samples of every coroutine after a step. -/
lemma step_samples (h : p.step env e = some (p', o)) (c : JLong) :
    p'.samples c =
      if e.call = .clean ∧ c ∈ p.storage.processedMap.cleanList then []
      else p.samples c ++ recordedFor c o := by
  rw [samples, step_processed h]
  split_ifs
  · rfl
  · rw [list_appendSamples, samples]

/-- The GC events after a step. -/
lemma step_gc (h : p.step env e = some (p', o)) :
    match e.call with
    | .gcStart => p'.storage.gcEvents = p.storage.gcEvents.pushBack p.storage.gcHeap.length ∧
        p'.storage.gcHeap = p.storage.gcHeap ++ [⟨e.now, 0⟩]
    | .gcFinish => ∃ gcEvent, p.storage.gcEvents.list.getLast? = some gcEvent ∧
        p'.storage.gcEvents = p.storage.gcEvents.popFront.2.pushBack gcEvent ∧
        p'.storage.gcHeap = p.storage.gcHeap.modify gcEvent fun event =>
          { event with endTime := e.now }
    | .markForClean => p'.storage.gcEvents = p.storage.gcEvents.markForClean ∧
        p'.storage.gcHeap = p.storage.gcHeap
    | .clean => p.storage.gcEvents.cleanUntil ≤ p.storage.gcEvents.list.length ∧
        p'.storage.gcEvents = { p.storage.gcEvents with
          list := p.storage.gcEvents.list.drop p.storage.gcEvents.cleanUntil } ∧
        p'.storage.gcHeap = p.storage.gcHeap
    | _ => p'.storage.gcEvents = p.storage.gcEvents ∧ p'.storage.gcHeap = p.storage.gcHeap := by
  cases step_spec h with
  | coroutineCreated ctx d => exact (coroutineCreated_fields p ctx d).2.2
  | coroutineSuspended frames hinfo hthreads hlocals => exact hinfo.fields.2.2.2
  | coroutineResumed ctx d => exact (coroutineResumed_spec p ctx d).1.fields.2.2.2
  | coroutineCompleted ctx d => exact (coroutineCompleted_spec p ctx d).1.fields.2.2.2
  | traceStart hspec => exact hspec.fields.2
  | traceEnd hspec => exact hspec.fields.2.2
  | addProcessedTrace hspec => exact hspec.fields.2.2.2
  | processTraces hspec => exact hspec.fields.2.2.2
  | gcFinish hgc =>
    obtain ⟨gcEvent, hback, rfl⟩ := Option.map_eq_some_iff.mp hgc
    exact ⟨gcEvent, hback, rfl, rfl⟩
  | clean hgc =>
    rw [ConcurrentList.clean_eq] at hgc
    split_ifs at hgc with hle
    rw [Option.some.injEq] at hgc
    exact ⟨hle, hgc.symm, rfl⟩
  | _ => exact ⟨rfl, rfl⟩

/-- The keys of the maps that are marked for cleaning, after a step: `markForClean` adds the keys
of the maps and `clean` forgets them. -/
lemma step_cleanList (h : p.step env e = some (p', o)) (c : JLong) :
    (c ∈ p'.storage.coroutineInfoMap.cleanList ↔ e.call ≠ .clean ∧
      (c ∈ p.storage.coroutineInfoMap.cleanList ∨
        e.call = .markForClean ∧ (p.storage.getCoroutineInfo c).isSome)) ∧
    (c ∈ p'.storage.childCoroutinesMap.cleanList ↔ e.call ≠ .clean ∧
      (c ∈ p.storage.childCoroutinesMap.cleanList ∨
        e.call = .markForClean ∧ (p.storage.getChildCoroutines c).isSome)) ∧
    (c ∈ p'.storage.processedMap.cleanList ↔ e.call ≠ .clean ∧
      (c ∈ p.storage.processedMap.cleanList ∨
        e.call = .markForClean ∧ (p.storage.getProcessedTraces c).isSome)) := by
  -- a step that neither marks nor cleans
  have hkeep : ∀ (s : TraceStorage) (call : Call), call ≠ .clean → call ≠ .markForClean →
      s.coroutineInfoMap.cleanList = p.storage.coroutineInfoMap.cleanList →
      s.childCoroutinesMap.cleanList = p.storage.childCoroutinesMap.cleanList →
      s.processedMap.cleanList = p.storage.processedMap.cleanList →
      (c ∈ s.coroutineInfoMap.cleanList ↔ call ≠ .clean ∧
        (c ∈ p.storage.coroutineInfoMap.cleanList ∨
          call = .markForClean ∧ (p.storage.getCoroutineInfo c).isSome)) ∧
      (c ∈ s.childCoroutinesMap.cleanList ↔ call ≠ .clean ∧
        (c ∈ p.storage.childCoroutinesMap.cleanList ∨
          call = .markForClean ∧ (p.storage.getChildCoroutines c).isSome)) ∧
      (c ∈ s.processedMap.cleanList ↔ call ≠ .clean ∧
        (c ∈ p.storage.processedMap.cleanList ∨
          call = .markForClean ∧ (p.storage.getProcessedTraces c).isSome)) := by
    intro s call h₁ h₂ h₃ h₄ h₅
    rw [h₃, h₄, h₅]
    simp [h₁, h₂]
  cases step_spec h with
  | coroutineCreated ctx d =>
    exact hkeep _ _ (by simp) (by simp) (coroutineCreated_spec p ctx d).2.2.2.1
      (coroutineCreated_spec p ctx d).2.2.2.2 (by rw [(coroutineCreated_fields p ctx d).1])
  | coroutineSuspended frames hinfo hthreads hlocals =>
    exact hkeep _ _ (by simp) (by simp) hinfo.cleanList (by rw [hinfo.fields.2.2.1])
      (by rw [hinfo.fields.1])
  | coroutineResumed ctx d =>
    have hinfo := (coroutineResumed_spec p ctx d).1
    exact hkeep _ _ (by simp) (by simp) hinfo.cleanList (by rw [hinfo.fields.2.2.1])
      (by rw [hinfo.fields.1])
  | coroutineCompleted ctx d =>
    have hinfo := (coroutineCompleted_spec p ctx d).1
    exact hkeep _ _ (by simp) (by simp) hinfo.cleanList (by rw [hinfo.fields.2.2.1])
      (by rw [hinfo.fields.1])
  | traceStart hspec =>
    exact hkeep _ _ (by simp) (by simp) hspec.cleanInfo hspec.cleanChildren
      (by rw [hspec.fields.1])
  | traceEnd hspec =>
    exact hkeep _ _ (by simp) (by simp) hspec.cleanInfo (by rw [hspec.fields.2.1])
      (by rw [hspec.fields.1])
  | addProcessedTrace hspec =>
    exact hkeep _ _ (by simp) (by simp) (by rw [hspec.fields.2.2.1]) (by rw [hspec.fields.2.1])
      hspec.cleanProcessed
  | processTraces hspec =>
    exact hkeep _ _ (by simp) (by simp) (by rw [hspec.fields.2.2.1]) (by rw [hspec.fields.2.1])
      hspec.cleanProcessed
  | gcFinish hgc =>
    obtain ⟨_, _, rfl⟩ := Option.map_eq_some_iff.mp hgc
    exact hkeep _ _ (by simp) (by simp) rfl rfl rfl
  | markForClean ctx =>
    simp only [withStorage_storage, TraceStorage.markForClean_coroutineInfoMap,
      TraceStorage.markForClean_childCoroutinesMap, TraceStorage.markForClean_processedMap,
      ConcurrentCleanableMap.mem_cleanList_mark, TraceStorage.getCoroutineInfo_eq,
      TraceStorage.getProcessedTraces_eq, TraceStorage.getChildCoroutines,
      Option.isSome_iff_exists]
    simp
  | clean hgc => simp
  | _ => exact hkeep _ _ (by simp) (by simp) rfl rfl rfl

/-! ## Effects -/

/-- `coroutineCompleted` and `traceEnd` credit the record of their coroutine. -/
lemma mem_infoCredits {ctx : Context} {d : JLong} {x : Effect} (h : x ∈ p.infoCredits ctx d) :
    ∃ info, p.storage.getCoroutineInfo d = some info ∧ x = .credited d (p.creditOf ctx info) := by
  rw [infoCredits] at h
  cases hd : p.storage.getCoroutineInfo d with
  | none => simp [hd] at h
  | some info =>
    simp only [hd, List.mem_singleton] at h
    exact ⟨info, rfl, h⟩

/-- `coroutineSuspended` credits the record of its coroutine, if it credits anything. -/
lemma mem_suspendedCredits {ctx : Context} {d : JLong} {x : Effect}
    (h : x ∈ p.suspendedCredits ctx d) :
    ∃ info, p.storage.getCoroutineInfo d = some info ∧ x = .credited d (p.creditOf ctx info) := by
  rw [suspendedCredits] at h
  cases hd : p.storage.getCoroutineInfo d with
  | none => simp [hd] at h
  | some info =>
    simp only [hd] at h
    split_ifs at h
    · exact ⟨info, rfl, List.mem_singleton.mp h⟩
    · cases h

/-- What a `traceEnd` writes is no credit. -/
lemma TraceEndSpec.credited_mem {ctx : Context} {c d : JLong} {k : Credit}
    (hspec : TraceEndSpec env p ctx d p' o) (h : .credited c k ∈ o) :
    .credited c k ∈ p.infoCredits ctx (traceId env ctx.thread d) := by
  rw [hspec.effects, List.mem_append] at h
  rcases h with h | h
  · exact h
  · split_ifs at h <;> simp at h

/-- A credit goes to the record of a coroutine, in the context of the step. -/
lemma mem_credited (h : p.step env e = some (p', o)) {c : JLong} {k : Credit}
    (hk : .credited c k ∈ o) :
    ∃ info, p.storage.getCoroutineInfo c = some info ∧ k = p.creditOf e.toContext info := by
  have hrecord : ∀ ctx d info, p.storage.getCoroutineInfo d = some info →
      Effect.credited c k = .credited d (p.creditOf ctx info) →
      ∃ info, p.storage.getCoroutineInfo c = some info ∧ k = p.creditOf ctx info := by
    rintro ctx d info hd heq
    obtain ⟨rfl, rfl⟩ := Effect.credited.inj heq
    exact ⟨info, hd, rfl⟩
  cases step_spec h with
  | @coroutineSuspended ctx d _ _ frames hupdate hthreads hlocals =>
    obtain ⟨info, hd, heq⟩ := mem_suspendedCredits hk
    exact hrecord ctx d info hd heq
  | coroutineCompleted ctx d =>
    obtain ⟨info, hd, heq⟩ := mem_infoCredits hk
    exact hrecord ctx d info hd heq
  | @traceStart ctx d _ _ hspec =>
    rw [hspec.effects] at hk
    split_ifs at hk <;> simp at hk
  | @traceEnd ctx d _ _ hspec =>
    obtain ⟨info, hd, heq⟩ := mem_infoCredits (hspec.credited_mem hk)
    exact hrecord ctx _ info hd heq
  | processTraces hspec =>
    obtain ⟨_, _, heq⟩ := hspec.effects _ hk
    cases heq
  | clean hgc => simp at hk
  | _ => simp at hk

/-- Only a `traceStart` throws, and it does when the trace is ongoing. -/
lemma exists_threw_iff (h : p.step env e = some (p', o)) :
    (∃ message, .threw message ∈ o) ↔ ∃ c, e.call = .traceStart c ∧
      p.storage.ongoingTraceInfoMap.at? (traceId env e.thread c) ≠ none := by
  have hinfo : ∀ ctx d message, .threw message ∉ p.infoCredits ctx d := by
    intro ctx d message hmem
    obtain ⟨_, -, heq⟩ := mem_infoCredits hmem
    cases heq
  have hsuspended : ∀ ctx d message, .threw message ∉ p.suspendedCredits ctx d := by
    intro ctx d message hmem
    obtain ⟨_, -, heq⟩ := mem_suspendedCredits hmem
    cases heq
  cases step_spec h with
  | @coroutineSuspended ctx d _ _ frames hupdate hthreads hlocals => simp [hsuspended]
  | coroutineCompleted ctx d => simp [hinfo]
  | @traceStart ctx d _ _ hspec =>
    rw [hspec.effects]
    split_ifs with hnone
    · simp [hnone]
    · simp [hnone]
  | @traceEnd ctx d _ _ hspec =>
    rw [hspec.effects]
    split_ifs <;> simp [hinfo]
  | processTraces hspec =>
    simp only [reduceCtorEq, false_and, exists_const, iff_false, not_exists]
    intro message hmem
    obtain ⟨_, _, heq⟩ := hspec.effects _ hmem
    cases heq
  | clean hgc => simp
  | _ => simp

/-- Only a `traceEnd` writes a trace: of a coroutine with an info, when the trace took longer than
the threshold. It writes the trace from the storage it leaves. -/
lemma mem_wrote_iff (h : p.step env e = some (p', o)) {path : String}
    {packets : List TracePacket} :
    .wrote path packets ∈ o ↔ ∃ c, e.call = .traceEnd c ∧
      (p.storage.getCoroutineInfo (traceId env e.thread c)).isSome ∧
      env.threshold < e.now - (p.endedTrace e.toContext (traceId env e.thread c)).start ∧
      path = env.outputPath ++ "/trace" ++ toString p.outputCounter ++ ".pftrace" ∧
      packets = writePerfetto (p.endedTrace e.toContext (traceId env e.thread c)) p'.storage := by
  have hinfo : ∀ ctx d, .wrote path packets ∉ p.infoCredits ctx d := by
    intro ctx d hmem
    obtain ⟨_, -, heq⟩ := mem_infoCredits hmem
    cases heq
  have hsuspended : ∀ ctx d, .wrote path packets ∉ p.suspendedCredits ctx d := by
    intro ctx d hmem
    obtain ⟨_, -, heq⟩ := mem_suspendedCredits hmem
    cases heq
  cases step_spec h with
  | @coroutineSuspended ctx d _ _ frames hupdate hthreads hlocals => simp [hsuspended]
  | coroutineCompleted ctx d => simp [hinfo]
  | @traceStart ctx d _ _ hspec =>
    rw [hspec.effects]
    split_ifs <;> simp
  | @traceEnd ctx d _ _ hspec =>
    rw [hspec.effects, List.mem_append]
    simp only [hinfo, false_or, Call.traceEnd.injEq, exists_eq_left']
    split_ifs with hcond
    · simp [hcond.1, hcond.2]
    · simp only [List.not_mem_nil, false_iff]
      exact fun hw => hcond ⟨hw.1, hw.2.1⟩
  | processTraces hspec =>
    simp only [reduceCtorEq, false_and, exists_const, iff_false]
    intro hmem
    obtain ⟨_, _, heq⟩ := hspec.effects _ hmem
    cases heq
  | clean hgc => simp
  | _ => simp

/-- What a `traceEnd` writes, if it writes a trace. -/
lemma packets_of_wrote (h : p.step env e = some (p', o)) {c : JLong} (hcall : e.call = .traceEnd c)
    {path : String} {packets : List TracePacket} (hwrote : .wrote path packets ∈ o) :
    (p.storage.getCoroutineInfo (traceId env e.thread c)).isSome ∧
      packets = writePerfetto (p.endedTrace e.toContext (traceId env e.thread c)) p'.storage := by
  obtain ⟨d, hd, hsome, -, -, hpackets⟩ := (mem_wrote_iff h).mp hwrote
  obtain rfl : c = d := Call.traceEnd.inj (hcall.symm.trans hd)
  exact ⟨hsome, hpackets⟩

/-- A `traceEnd` of a coroutine with an info writes the trace it ends, if the trace took longer than
the threshold. -/
lemma exists_wrote (h : p.step env e = some (p', o)) {c : JLong} (hcall : e.call = .traceEnd c)
    (hinfo : (p.storage.getCoroutineInfo (traceId env e.thread c)).isSome) {trace : TraceInfo}
    (hended : p.endedTrace e.toContext (traceId env e.thread c) = trace)
    (hlong : env.threshold < e.now - trace.start) :
    ∃ path, .wrote path (writePerfetto trace p'.storage) ∈ o := by
  subst hended
  exact ⟨_, (mem_wrote_iff h).mpr ⟨c, hcall, hinfo, hlong, rfl, rfl⟩⟩

/-! ## Counters -/

lemma outputCounter_creditSuspended (p : Profiler) (ctx : Context) (c : JLong)
    (info : CoroutineInfo) : (p.creditSuspended ctx c info).1.outputCounter = p.outputCounter := by
  unfold creditSuspended
  split_ifs <;> rfl

lemma outputCounter_coroutineSuspended {ctx : Context} {c : JLong}
    {stack : Option (List JMethodID)} (h : p.coroutineSuspended env ctx c stack = some (p', o)) :
    p'.outputCounter = p.outputCounter := by
  rw [coroutineSuspended] at h
  split at h
  · cases h
    rfl
  · rename_i info _
    have hcredit := outputCounter_creditSuspended (p.setCurrentCoroutineId ctx.thread (-1)) ctx c
      info
    split at h
    · obtain ⟨storage, -, heq⟩ := Option.map_eq_some_iff.mp h
      cases heq
      exact (resolveFrames_frame outputCounter
        (resolveMethod_frame env outputCounter fun _ _ _ => rfl) _ _).trans hcredit
    · rw [Option.some.inj h] at hcredit
      exact hcredit

lemma outputCounter_processTracesLoop {n : ℕ} (h : processTracesLoop env n p = some (p', o)) :
    p'.outputCounter = p.outputCounter := by
  induction n generalizing p o with
  | zero =>
    cases h
    rfl
  | succ n ih =>
    rw [processTracesLoop] at h
    split at h
    · cases h
      rfl
    · split at h
      · cases h
      · obtain ⟨⟨q, o'⟩, hrest, heq⟩ := Option.map_eq_some_iff.mp h
        cases heq
        exact (ih hrest).trans (resolveFrames_frame outputCounter
          (processProfilerMethodInfo_frame env outputCounter fun _ _ _ => rfl) _ _)

lemma outputCounter_traceEnd_le {ctx : Context} {c : JLong}
    (h : p.traceEnd env ctx c = some (p', o)) : p'.outputCounter ≤ p.outputCounter + 1 := by
  rw [traceEnd] at h
  split at h
  · cases h
  · dsimp only at h
    split at h
    · cases h
      exact Nat.le_succ _
    · cases h
      unfold writeTrace
      split_ifs
      · exact le_rfl
      · exact Nat.le_succ _

/-- A step numbers at most one file. -/
lemma step_outputCounter_le (h : p.step env e = some (p', o)) :
    p'.outputCounter ≤ p.outputCounter + 1 := by
  obtain ⟨ctx, call⟩ := e
  rw [step] at h
  cases call with
  | coroutineSuspended c stack =>
    exact (outputCounter_coroutineSuspended h).le.trans (Nat.le_succ _)
  | processTraces => exact (outputCounter_processTracesLoop h).le.trans (Nat.le_succ _)
  | traceEnd c => exact outputCounter_traceEnd_le h
  | traceStart c =>
    simp only [traceStart] at h
    split at h
    · cases h
    · split_ifs at h <;> cases h <;> exact Nat.le_succ _
  | coroutineResumed c =>
    cases h
    rw [coroutineResumed]
    split <;> exact Nat.le_succ _
  | coroutineCompleted c =>
    have heq : (p.coroutineCompleted ctx c).1 = p' := congrArg Prod.fst (Option.some.inj h)
    rw [← heq]
    unfold coroutineCompleted
    dsimp only
    split <;> exact Nat.le_succ _
  | gcFinish | clean =>
    obtain ⟨storage, -, heq⟩ := Option.map_eq_some_iff.mp h
    cases heq
    exact Nat.le_succ _
  | _ =>
    cases h
    exact Nat.le_succ _

/-- A step changes `current_traces` of a thread by at most one, and a new thread has none. -/
lemma step_currentTraces_le (h : p.step env e = some (p', o)) {n : ℕ}
    (hn : ∀ x ∈ p.threads.list, |x.currentTraces| ≤ n) :
    ∀ x ∈ p'.threads.list, |x.currentTraces| ≤ (n + 1 : ℕ) := by
  have hadd : ∀ amount : ℤ, |amount| ≤ 1 →
      ∀ x ∈ (p.addCurrentTraces e.thread amount).threads.list, |x.currentTraces| ≤ (n + 1 : ℕ) := by
    intro amount hamount x hx
    obtain hx | ⟨y, hy, -, rfl⟩ := ConcurrentList.mem_updateFirstIn hx
    · exact (hn x hx).trans (by omega)
    · calc |y.currentTraces + amount| ≤ |y.currentTraces| + |amount| := abs_add_le _ _
        _ ≤ n + 1 := add_le_add (hn y hy) hamount
        _ = (n + 1 : ℕ) := by push_cast; rfl
  intro x hx
  rw [step_threads h] at hx
  split at hx
  · obtain hx | hx := List.mem_append.mp hx
    · exact (hn x hx).trans (by omega)
    · rw [List.mem_singleton.mp hx, abs_zero]
      omega
  · exact hadd 1 (by decide) x hx
  · exact hadd (-1) (by decide) x hx
  · exact (hn x hx).trans (by omega)

/-- A step adds at most one GC event, and marks at most those that are there. -/
lemma step_gcEvents_le (h : p.step env e = some (p', o)) {n : ℕ}
    (hlength : p.storage.gcEvents.list.length ≤ n) (hclean : p.storage.gcEvents.cleanUntil ≤ n) :
    p'.storage.gcEvents.list.length ≤ n + 1 ∧ p'.storage.gcEvents.cleanUntil ≤ n + 1 := by
  have hgc := step_gc h
  split at hgc
  · rw [hgc.1]
    simp only [ConcurrentList.list_pushBack, ConcurrentList.cleanUntil_pushBack,
      List.length_append, List.length_singleton]
    omega
  · obtain ⟨gcEvent, -, heq, -⟩ := hgc
    rw [heq]
    simp only [ConcurrentList.list_pushBack, ConcurrentList.cleanUntil_pushBack,
      ConcurrentList.list_popFront, ConcurrentList.cleanUntil_popFront, List.length_append,
      List.length_tail, List.length_singleton]
    omega
  · rw [hgc.1]
    exact ⟨hlength.trans (Nat.le_succ n), hlength.trans (Nat.le_succ n)⟩
  · rw [hgc.2.1]
    dsimp only
    rw [List.length_drop]
    omega
  · rw [hgc.1]
    omega

end Profiler

/-- The counters of a state are at most `n`. -/
structure CountersWithin (n : ℕ) (p : Profiler) : Prop where
  currentTraces : ∀ x ∈ p.threads.list, |x.currentTraces| ≤ n
  outputCounter : p.outputCounter ≤ n
  gcEvents : p.storage.gcEvents.list.length ≤ n
  cleanUntil : p.storage.gcEvents.cleanUntil ≤ n

/-- A run does not count beyond its steps. -/
lemma countersWithin_length {env : Env} {l : Log} {p : Profiler} (hrun : Run env l p) :
    CountersWithin l.length p := by
  refine LogMachine.RunFrom.invariant (M := machine env)
    (I := fun l p => CountersWithin l.length p) ⟨?_, le_rfl, le_rfl, le_rfl⟩ ?_ hrun
  · intro x hx
    cases hx
  · intro l p e o p' _ h hstep
    rw [List.length_append, List.length_singleton]
    obtain ⟨hlength, hclean⟩ := Profiler.step_gcEvents_le hstep h.gcEvents h.cleanUntil
    exact ⟨Profiler.step_currentTraces_le hstep h.currentTraces,
      (Profiler.step_outputCounter_le hstep).trans (Nat.succ_le_succ h.outputCounter), hlength,
      hclean⟩

/-- **The counters are values of an `int`.** `current_traces` of a thread, `output_counter` and
`clean_until_` of the GC events are `atomic_int` in the source and have no bound here: in a run of
fewer than `2 ^ 31` steps none of them leaves the range of an `int`, so that nothing wraps
around. -/
theorem counters_fit_int {env : Env} {l : Log} {p : Profiler} (hrun : Run env l p)
    (hlength : l.length < 2 ^ 31) :
    (∀ x ∈ p.threads.list, -2 ^ 31 < x.currentTraces ∧ x.currentTraces < 2 ^ 31) ∧
      p.outputCounter < 2 ^ 31 ∧ p.storage.gcEvents.list.length < 2 ^ 31 ∧
      p.storage.gcEvents.cleanUntil < 2 ^ 31 := by
  have h := countersWithin_length hrun
  refine ⟨fun x hx => ?_, h.outputCounter.trans_lt hlength, h.gcEvents.trans_lt hlength,
    h.cleanUntil.trans_lt hlength⟩
  have habs := abs_le.mp (h.currentTraces x hx)
  omega

end KotlinTracer
