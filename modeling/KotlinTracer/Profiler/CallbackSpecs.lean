import KotlinTracer.Profiler.Callbacks

set_option relaxedAutoImplicit false
set_option autoImplicit false

/-!
# What the callbacks do

One specification for each callback that does more than one thing. The specifications say what
every component of the state is after the call; no later file unfolds a callback.

## Main definitions

* `KotlinTracer.TraceStorage.UpdatesInfo` — the storage changed in the record of one coroutine
  and nowhere else.
* `KotlinTracer.creditedInfo`, `suspendedInfo`, `resumedInfo`, `completedInfo` — the record of a
  coroutine after each of its callbacks.
* `KotlinTracer.Profiler.Sampled` — only samples were stored.

## Main results

* `KotlinTracer.Profiler.coroutineCreated_spec`, `coroutineSuspended_eq_some`,
  `coroutineResumed_spec`, `coroutineCompleted_spec` — the coroutine callbacks.
* `KotlinTracer.Profiler.traceStart_eq_some`, `traceEnd_eq_some` — the trace callbacks.
* `KotlinTracer.Profiler.exists_coroutineSuspended`, `exists_traceStart`, `exists_traceEnd` — where
  the callbacks are defined.
* `KotlinTracer.Profiler.processTraces_eq_some` — the sampler.

## Design

A frame condition is an equation between two storages in which the components that may have
changed are emptied, so frame conditions compose by transitivity.
-/

namespace KotlinTracer

/-! ## Updates of one record -/

namespace TraceStorage

/-- From `s` to `s'` the record of `c` was changed by `f`, if it has one, and nothing else was
changed. -/
structure UpdatesInfo (s s' : TraceStorage) (c : JLong) (f : CoroutineInfo → CoroutineInfo) :
    Prop where
  frame : { s' with coroutineInfoMap := {} } = { s with coroutineInfoMap := {} }
  cleanList : s'.coroutineInfoMap.cleanList = s.coroutineInfoMap.cleanList
  info : ∀ c', s'.getCoroutineInfo c' =
    if c' = c then (s.getCoroutineInfo c).map f else s.getCoroutineInfo c'

namespace UpdatesInfo

variable {s s' s'' : TraceStorage} {c : JLong} {f g : CoroutineInfo → CoroutineInfo}

/-- A write through the pointer of a coroutine updates its record. -/
lemma update (s : TraceStorage) (c : JLong) (f : CoroutineInfo → CoroutineInfo) :
    UpdatesInfo s (s.updateCoroutineInfo c f) c f where
  frame := rfl
  cleanList := ConcurrentCleanableMap.cleanList_modify _ _ _
  info c' := getCoroutineInfo_updateCoroutineInfo s c c' f

/-- Two updates of the same record compose. -/
lemma trans (h₁ : UpdatesInfo s s' c f) (h₂ : UpdatesInfo s' s'' c g) :
    UpdatesInfo s s'' c (g ∘ f) where
  frame := h₂.frame.trans h₁.frame
  cleanList := h₂.cleanList.trans h₁.cleanList
  info c' := by
    rw [h₂.info, h₁.info, h₁.info, if_pos rfl, Option.map_map]
    split_ifs <;> rfl

/-- Only the value of the update at the record matters. -/
lemma congr (h : UpdatesInfo s s' c f)
    (hfg : ∀ info, s.getCoroutineInfo c = some info → f info = g info) :
    UpdatesInfo s s' c g where
  frame := h.frame
  cleanList := h.cleanList
  info c' := by
    rw [h.info]
    cases hinfo : s.getCoroutineInfo c with
    | none => rfl
    | some info => rw [Option.map_some, Option.map_some, hfg info hinfo]

/-- An update that does not change the record changes nothing. -/
lemma refl (hf : ∀ info, s.getCoroutineInfo c = some info → f info = info) :
    UpdatesInfo s s c f where
  frame := rfl
  cleanList := rfl
  info c' := by
    split_ifs with hc
    · subst hc
      cases hinfo : s.getCoroutineInfo c' with
      | none => rfl
      | some info => rw [Option.map_some, hf info hinfo]
    · rfl

/-- The components that an update of a record leaves alone. -/
lemma fields (h : UpdatesInfo s s' c f) :
    s'.processedMap = s.processedMap ∧ s'.ongoingTraceInfoMap = s.ongoingTraceInfoMap ∧
      s'.childCoroutinesMap = s.childCoroutinesMap ∧ s'.gcEvents = s.gcEvents ∧
      s'.gcHeap = s.gcHeap := by
  have hframe := h.frame
  simp only [mk.injEq] at hframe
  exact ⟨hframe.2.1, hframe.2.2.1, hframe.2.2.2.1, hframe.2.2.2.2.2⟩

/-- Ending the first open suspension, if there is one, is an update that does nothing if there is
none. -/
lemma endLastSuspension (s : TraceStorage) (c : JLong) (now : TraceTime) :
    UpdatesInfo s (match s.getLastSuspensionInfo c with
      | some _ => s.endLastSuspension c now
      | none => s) c fun info =>
        { info with
          suspensionsList := info.suspensionsList.updateFirst nonEndedSuspension
            fun suspensionInfo => { suspensionInfo with endTime := now } } := by
  cases hlast : s.getLastSuspensionInfo c with
  | some suspensionInfo => exact update s c _
  | none =>
    refine refl fun info hinfo => ?_
    rw [getCoroutineInfo_eq] at hinfo
    have hfind : info.suspensionsList.list.find? nonEndedSuspension = none := by
      rw [getLastSuspensionInfo, if_pos (ConcurrentCleanableMap.contains_iff.mpr ⟨info, hinfo⟩),
        hinfo] at hlast
      exact hlast
    rw [ConcurrentList.updateFirst, ConcurrentList.updateFirstIn_eq_self hfind]

end UpdatesInfo

end TraceStorage

/-! ## The record of a coroutine after its callbacks -/

/-- The record after `calculate_resource_usage`, when the thread last read the usage `last`. -/
@[simps!] def creditedInfo (last : RUsage) (ctx : Context) (info : CoroutineInfo) :
    CoroutineInfo :=
  info.addCredit (resourceCredit info last ctx.rusage ctx.now)

/-- Append a suspension at `now`, if its stack is known. -/
def recordSuspension (c : JLong) (now : TraceTime) (frames : Option (List StackFrame))
    (info : CoroutineInfo) : CoroutineInfo :=
  match frames with
  | none => info
  | some frames =>
    { info with suspensionsList := info.suspensionsList.pushBack ⟨c, now, 0, frames⟩ }

/-- The record after the part of `coroutineSuspended` that credits. -/
def pausedInfo (last : RUsage) (ctx : Context) (info : CoroutineInfo) : CoroutineInfo :=
  if 0 < info.lastResume then { creditedInfo last ctx info with lastResume := 0 } else info

/-- The record after `coroutineSuspended`, with `frames` the resolved stack. -/
def suspendedInfo (last : RUsage) (ctx : Context) (c : JLong) (frames : Option (List StackFrame))
    (info : CoroutineInfo) : CoroutineInfo :=
  recordSuspension c ctx.now frames (pausedInfo last ctx info)

/-- The record after `coroutineResumed`: the first open suspension is ended. -/
@[simps] def resumedInfo (now : TraceTime) (info : CoroutineInfo) : CoroutineInfo :=
  { info with
    lastResume := now
    suspensionsList := info.suspensionsList.updateFirst TraceStorage.nonEndedSuspension
      fun suspensionInfo => { suspensionInfo with endTime := now } }

/-- The record after `coroutineCompleted`. -/
@[simps!] def completedInfo (last : RUsage) (ctx : Context) (info : CoroutineInfo) :
    CoroutineInfo :=
  creditedInfo last ctx { info with endTime := ctx.now }

namespace Profiler

variable {env : Env} {p p' : Profiler} {e : Event} {ctx : Context} {o : List Effect}

/-! ## Name resolution -/

/-- A quantity that one resolution leaves alone is left alone by resolving a stack. -/
lemma resolveFrames_frame {α β : Type} {resolve : Profiler → α → StackFrame × Profiler}
    (f : Profiler → β) (h : ∀ p x, f (resolve p x).2 = f p) (p : Profiler) (xs : List α) :
    f (resolveFrames resolve p xs).2 = f p := by
  induction xs generalizing p with
  | nil => rfl
  | cons x xs ih =>
    rw [resolveFrames]
    exact (ih _).trans (h p x)

/-- Resolving a method touches the name caches only. -/
lemma resolveMethod_frame {β : Type} (env : Env) (f : Profiler → β)
    (hf : ∀ p methodInfoMap classInfoMap,
      f { p with methodInfoMap := methodInfoMap, classInfoMap := classInfoMap } = f p)
    (p : Profiler) (method : JMethodID) : f (resolveMethod env p method).2 = f p := by
  unfold resolveMethod
  split_ifs <;> exact hf _ _ _

/-- Resolving an instruction touches the name caches only. -/
lemma processProfilerMethodInfo_frame {β : Type} (env : Env) (f : Profiler → β)
    (hf : ∀ p methodInfoMap classInfoMap,
      f { p with methodInfoMap := methodInfoMap, classInfoMap := classInfoMap } = f p)
    (p : Profiler) (i : InstructionInfo) : f (processProfilerMethodInfo env p i).2 = f p := by
  unfold processProfilerMethodInfo
  split_ifs
  · exact resolveMethod_frame env f hf p _
  · rfl
  · cases env.getNativeFunctionInfo i.instruction <;> rfl

/-- The part of the state that resolving names leaves alone. -/
def core (p : Profiler) :
    TraceStorage × ConcurrentList ThreadInfo × (PThread → ThreadLocals) :=
  (p.storage, p.threads, p.locals)

lemma core_processProfilerMethodInfo (env : Env) (p : Profiler) (i : InstructionInfo) :
    (processProfilerMethodInfo env p i).2.core = p.core :=
  processProfilerMethodInfo_frame env core (fun _ _ _ => rfl) p i

lemma core_processMethodInfo (env : Env) (p : Profiler) (method : JMethodID) :
    (processMethodInfo env p method).2.core = p.core :=
  resolveMethod_frame env core (fun _ _ _ => rfl) p method

/-- Two states with the same core agree on its parts. -/
lemma core_eq_iff {p q : Profiler} :
    p.core = q.core ↔ p.storage = q.storage ∧ p.threads = q.threads ∧ p.locals = q.locals := by
  simp [core]

/-! ## The coroutine callbacks -/

/-- The credit that `calculate_resource_usage` makes in a context. -/
def creditOf (p : Profiler) (ctx : Context) (info : CoroutineInfo) : Credit :=
  resourceCredit info (p.locals ctx.thread).currentRusage ctx.rusage ctx.now

/-- What a credit does to the storage. -/
lemma calculateResourceUsage_updatesInfo (p : Profiler) (ctx : Context) (c : JLong)
    {info : CoroutineInfo} (hinfo : p.storage.getCoroutineInfo c = some info) :
    p.storage.UpdatesInfo (p.calculateResourceUsage ctx c info).1.storage c
      (creditedInfo (p.locals ctx.thread).currentRusage ctx) := by
  refine (TraceStorage.UpdatesInfo.update p.storage c _).congr fun info' hinfo' => ?_
  rw [hinfo, Option.some.injEq] at hinfo'
  rw [← hinfo']
  rfl

/-- Whether `coroutineSuspended` finds the coroutine running. -/
def isRunning (p : Profiler) (c : JLong) : Bool :=
  (p.storage.getCoroutineInfo c).any fun info => 0 < info.lastResume

/-- The thread-local variables after `coroutineSuspended`. -/
def suspendedLocals (p : Profiler) (ctx : Context) (c : JLong) : PThread → ThreadLocals :=
  Function.update p.locals ctx.thread
    ⟨-1, if p.isRunning c then ctx.rusage else (p.locals ctx.thread).currentRusage⟩

/-- The credits of `coroutineSuspended`. -/
def suspendedCredits (p : Profiler) (ctx : Context) (c : JLong) : List Effect :=
  match p.storage.getCoroutineInfo c with
  | none => []
  | some info => if 0 < info.lastResume then [.credited c (p.creditOf ctx info)] else []

/-- What the crediting part of `coroutineSuspended` does. -/
lemma creditSuspended_spec (p : Profiler) (ctx : Context) (c : JLong) {info : CoroutineInfo}
    (hinfo : p.storage.getCoroutineInfo c = some info) :
    let credited := (p.setCurrentCoroutineId ctx.thread (-1)).creditSuspended ctx c info
    p.storage.UpdatesInfo credited.1.storage c
        (pausedInfo (p.locals ctx.thread).currentRusage ctx) ∧
      credited.1.threads = p.threads ∧ credited.1.locals = p.suspendedLocals ctx c ∧
      credited.2 = p.suspendedCredits ctx c := by
  have hrun : p.isRunning c = decide (0 < info.lastResume) := by simp [isRunning, hinfo]
  by_cases h : 0 < info.lastResume
  · have hcredit := calculateResourceUsage_updatesInfo (p.setCurrentCoroutineId ctx.thread (-1))
      ctx c hinfo
    simp only [creditSuspended, if_pos h, suspendedLocals, suspendedCredits, hinfo, hrun]
    refine ⟨(hcredit.trans (TraceStorage.UpdatesInfo.update _ c _)).congr fun info' hinfo' => ?_,
      rfl, ?_, ?_⟩
    · rw [setCurrentCoroutineId_storage, hinfo, Option.some.injEq] at hinfo'
      subst hinfo'
      simp [pausedInfo, if_pos h]
    · funext t
      by_cases ht : t = ctx.thread
      · subst ht; simp [calculateResourceUsage, h]
      · simp [calculateResourceUsage, ht]
    · simp [calculateResourceUsage, creditOf]
  · simp only [creditSuspended, if_neg h, suspendedLocals, suspendedCredits, hinfo, hrun]
    refine ⟨TraceStorage.UpdatesInfo.refl fun info' hinfo' => ?_, rfl, ?_, trivial⟩
    · rw [hinfo, Option.some.injEq] at hinfo'
      subst hinfo'
      simp [pausedInfo, if_neg h]
    · simp [h, setCurrentCoroutineId]

/-- The caches of method and class names. -/
def names (p : Profiler) :
    ConcurrentCleanableMap JMethodID String × ConcurrentCleanableMap JMethodID String :=
  (p.methodInfoMap, p.classInfoMap)

/-- The part of the Java stack that `coroutineSuspended` records; empty if JVMTI fails. -/
def suspensionStack (stack : Option (List JMethodID)) : List JMethodID :=
  (stack.getD []).take coroutineSuspensionStackDepth

/-- The frames that `coroutineSuspended` records when it resolves them in the state `q`; none for an
empty stack. -/
def suspensionFrames (env : Env) (q : Profiler) (stack : Option (List JMethodID)) :
    Option (List StackFrame) :=
  if suspensionStack stack = [] then none
  else some (resolveFrames (processMethodInfo env) q (suspensionStack stack)).1

/-- Crediting does not touch the name caches. -/
lemma names_creditSuspended (p : Profiler) (ctx : Context) (c : JLong) (info : CoroutineInfo) :
    (p.creditSuspended ctx c info).1.names = p.names := by
  rw [creditSuspended]
  split_ifs <;> rfl

/-- **What `coroutineSuspended` does**, with the frames that it records: they are resolved in a
state `q` with the name caches of `p`. -/
lemma coroutineSuspended_spec {c : JLong} {stack : Option (List JMethodID)}
    (h : p.coroutineSuspended env ctx c stack = some (p', o)) :
    ∃ q : Profiler, q.names = p.names ∧
      p.storage.UpdatesInfo p'.storage c (suspendedInfo (p.locals ctx.thread).currentRusage ctx c
        (suspensionFrames env q stack)) ∧
      (p'.names = p.names ∨
        p'.names = (resolveFrames (processMethodInfo env) q (suspensionStack stack)).2.names) ∧
      p'.threads = p.threads ∧ p'.locals = p.suspendedLocals ctx c ∧
      o = p.suspendedCredits ctx c := by
  rw [coroutineSuspended] at h
  cases hinfo : p.storage.getCoroutineInfo c with
  | none =>
    simp only [setCurrentCoroutineId_storage, hinfo, Option.some.injEq, Prod.mk.injEq] at h
    obtain ⟨rfl, rfl⟩ := h
    refine ⟨p, rfl, TraceStorage.UpdatesInfo.refl fun info h => ?_, Or.inl rfl, rfl, ?_, ?_⟩
    · rw [hinfo] at h; cases h
    · simp [suspendedLocals, isRunning, hinfo, setCurrentCoroutineId]
    · simp [suspendedCredits, hinfo]
  | some info =>
    obtain ⟨hstorage, hthreads, hlocals, heffects⟩ := p.creditSuspended_spec ctx c hinfo
    have hnames := names_creditSuspended (p.setCurrentCoroutineId ctx.thread (-1)) ctx c info
    simp only [setCurrentCoroutineId_storage, hinfo] at h
    generalize (p.setCurrentCoroutineId ctx.thread (-1)).creditSuspended ctx c info = credited
      at h hstorage hthreads hlocals heffects hnames
    refine ⟨credited.1, hnames, ?_⟩
    split at h
    · -- the stack is known: the suspension is recorded
      rename_i frame frames hstack
      have hknown : suspensionStack stack = frame :: frames := by
        obtain ⟨methods, rfl, hmethods⟩ := Option.map_eq_some_iff.mp hstack
        exact hmethods
      obtain ⟨hs, ht, hl⟩ := core_eq_iff.mp (resolveFrames_frame core
        (core_processMethodInfo env) credited.1 (frame :: frames))
      rw [suspensionFrames, hknown, if_neg (List.cons_ne_nil _ _)]
      generalize resolveFrames (processMethodInfo env) credited.1 (frame :: frames) = resolved
        at h hs ht hl ⊢
      obtain ⟨storage, hadd, heq⟩ := Option.map_eq_some_iff.mp h
      obtain ⟨_, _, rfl⟩ := Option.map_eq_some_iff.mp hadd
      rw [Prod.mk.injEq] at heq
      obtain ⟨rfl, rfl⟩ := heq
      refine ⟨?_, Or.inr rfl, ht.trans hthreads, hl.trans hlocals, heffects⟩
      rw [withStorage_storage, hs]
      exact hstorage.trans (TraceStorage.UpdatesInfo.update _ c _)
    · -- JVMTI failed, or the stack is empty
      rename_i hstack
      have hknown : suspensionStack stack = [] := by
        cases stack with
        | none => rfl
        | some methods =>
          cases hmethods : methods.take coroutineSuspensionStackDepth with
          | nil => exact hmethods
          | cons frame frames => exact absurd (congrArg some hmethods) (hstack frame frames)
      rw [Option.some.injEq] at h
      rw [h] at hstorage hthreads hlocals heffects hnames
      rw [suspensionFrames, hknown, if_pos rfl]
      exact ⟨hstorage, Or.inl hnames, hthreads, hlocals, heffects⟩

/-- `coroutineSuspended` is always defined: it records a suspension for a coroutine with an info
only. -/
lemma exists_coroutineSuspended (env : Env) (p : Profiler) (ctx : Context) (c : JLong)
    (stack : Option (List JMethodID)) :
    ∃ p' o, p.coroutineSuspended env ctx c stack = some (p', o) := by
  rw [coroutineSuspended]
  cases hinfo : p.storage.getCoroutineInfo c with
  | none =>
    simp only [setCurrentCoroutineId_storage, hinfo]
    exact ⟨_, _, rfl⟩
  | some info =>
    have hstorage := (p.creditSuspended_spec ctx c hinfo).1
    simp only [setCurrentCoroutineId_storage, hinfo]
    generalize (p.setCurrentCoroutineId ctx.thread (-1)).creditSuspended ctx c info = credited
      at hstorage
    split
    · rename_i frame frames _
      have hs := (core_eq_iff.mp (resolveFrames_frame core (core_processMethodInfo env) credited.1
        (frame :: frames))).1
      have hsome : credited.1.storage.coroutineInfoMap.at? c ≠ none := by
        rw [← TraceStorage.getCoroutineInfo_eq, hstorage.info c, if_pos rfl, hinfo]
        exact Option.some_ne_none _
      obtain ⟨info', hinfo'⟩ := Option.ne_none_iff_exists'.mp hsome
      rw [TraceStorage.addSuspensionInfo, hs, hinfo']
      exact ⟨_, _, rfl⟩
    · exact ⟨_, _, rfl⟩

/-- **What `coroutineSuspended` does.** -/
lemma coroutineSuspended_eq_some {c : JLong} {stack : Option (List JMethodID)}
    (h : p.coroutineSuspended env ctx c stack = some (p', o)) :
    (∃ frames, p.storage.UpdatesInfo p'.storage c
        (suspendedInfo (p.locals ctx.thread).currentRusage ctx c frames)) ∧
      p'.threads = p.threads ∧ p'.locals = p.suspendedLocals ctx c ∧
      o = p.suspendedCredits ctx c := by
  obtain ⟨q, -, hinfo, -, hthreads, hlocals, heffects⟩ := coroutineSuspended_spec h
  exact ⟨⟨_, hinfo⟩, hthreads, hlocals, heffects⟩

/-- **What `coroutineResumed` does.** -/
lemma coroutineResumed_spec (p : Profiler) (ctx : Context) (c : JLong) :
    p.storage.UpdatesInfo (p.coroutineResumed ctx c).storage c (resumedInfo ctx.now) ∧
      (p.coroutineResumed ctx c).threads = p.threads ∧
      (p.coroutineResumed ctx c).locals = Function.update p.locals ctx.thread
        ⟨c, if (p.storage.getCoroutineInfo c).isSome then ctx.rusage
          else (p.locals ctx.thread).currentRusage⟩ := by
  rw [coroutineResumed]
  cases hinfo : p.storage.getCoroutineInfo c with
  | none =>
    simp only [setCurrentCoroutineId_storage, hinfo]
    refine ⟨TraceStorage.UpdatesInfo.refl fun info h => ?_, rfl, rfl⟩
    rw [hinfo] at h; cases h
  | some info =>
    simp only [setCurrentCoroutineId_storage, hinfo]
    refine ⟨?_, rfl, ?_⟩
    · exact (TraceStorage.UpdatesInfo.update p.storage c _).trans
        (TraceStorage.UpdatesInfo.endLastSuspension _ c ctx.now)
    · funext t
      by_cases ht : t = ctx.thread
      · subst ht; simp
      · simp [ht]

/-- The credits of `coroutineCompleted` and `traceEnd` to the record of a coroutine. -/
def infoCredits (p : Profiler) (ctx : Context) (c : JLong) : List Effect :=
  match p.storage.getCoroutineInfo c with
  | none => []
  | some info => [.credited c (p.creditOf ctx info)]

/-- **What `coroutineCompleted` does.** -/
lemma coroutineCompleted_spec (p : Profiler) (ctx : Context) (c : JLong) :
    p.storage.UpdatesInfo (p.coroutineCompleted ctx c).1.storage c
        (completedInfo (p.locals ctx.thread).currentRusage ctx) ∧
      (p.coroutineCompleted ctx c).1.threads = p.threads ∧
      (p.coroutineCompleted ctx c).1.locals = Function.update p.locals ctx.thread
        ⟨-1, if (p.storage.getCoroutineInfo c).isSome then ctx.rusage
          else (p.locals ctx.thread).currentRusage⟩ ∧
      (p.coroutineCompleted ctx c).2 = p.infoCredits ctx c := by
  rw [coroutineCompleted, infoCredits]
  cases hinfo : p.storage.getCoroutineInfo c with
  | none =>
    simp only [setCurrentCoroutineId_storage, hinfo]
    refine ⟨TraceStorage.UpdatesInfo.refl fun info h => ?_, rfl, rfl, trivial⟩
    rw [hinfo] at h; cases h
  | some info =>
    simp only [setCurrentCoroutineId_storage, hinfo]
    have hupdate := TraceStorage.UpdatesInfo.update p.storage c fun info =>
      { info with endTime := ctx.now }
    refine ⟨?_, rfl, ?_, ?_⟩
    · refine (hupdate.trans (TraceStorage.UpdatesInfo.update _ c _)).congr fun info' hinfo' => ?_
      rw [hinfo, Option.some.injEq] at hinfo'
      subst hinfo'
      simp [completedInfo, creditedInfo]
    · funext t
      by_cases ht : t = ctx.thread
      · subst ht; simp [calculateResourceUsage]
      · simp [calculateResourceUsage, ht]
    · simp [calculateResourceUsage, creditOf, resourceCredit]

/-- **What `coroutineCreated` does.** -/
lemma coroutineCreated_spec (p : Profiler) (ctx : Context) (c : JLong) :
    let parent := (p.locals ctx.thread).currentCoroutineId
    let s := (p.coroutineCreated ctx c).storage
    { s with coroutineInfoMap := {}, childCoroutinesMap := {} } =
        { p.storage with coroutineInfoMap := {}, childCoroutinesMap := {} } ∧
      (∀ c', s.getCoroutineInfo c' =
        if c' = c ∧ p.storage.getCoroutineInfo c = none then
          some (TraceStorage.newCoroutineInfo ctx.now)
        else p.storage.getCoroutineInfo c') ∧
      (∀ c', s.getChildCoroutines c' =
        if p.storage.getChildCoroutines parent = none then p.storage.getChildCoroutines c'
        else if c' = parent then
          (p.storage.getChildCoroutines c').map fun list => list.pushBack c
        else if c' = c ∧ p.storage.getChildCoroutines c = none then some {}
        else p.storage.getChildCoroutines c') ∧
      s.coroutineInfoMap.cleanList = p.storage.coroutineInfoMap.cleanList ∧
      s.childCoroutinesMap.cleanList = p.storage.childCoroutinesMap.cleanList := by
  intro parent s
  have hcreate : ∀ c', (p.storage.createCoroutineInfo c ctx.now).getCoroutineInfo c' = _ :=
    fun c' => TraceStorage.getCoroutineInfo_createCoroutineInfo p.storage c c' ctx.now
  have hclean : (p.storage.createCoroutineInfo c ctx.now).coroutineInfoMap.cleanList =
      p.storage.coroutineInfoMap.cleanList := by
    rw [TraceStorage.createCoroutineInfo_coroutineInfoMap]
    split_ifs <;> simp
  have hs : s = if (p.storage.createCoroutineInfo c ctx.now).containsChildCoroutineStorage parent
      then ((p.storage.createCoroutineInfo c ctx.now).addChildCoroutine c
        parent).createChildCoroutineStorage c
      else p.storage.createCoroutineInfo c ctx.now := rfl
  by_cases hparent : p.storage.getChildCoroutines parent = none
  · have hcontains : (p.storage.createCoroutineInfo c ctx.now).containsChildCoroutineStorage
        parent ≠ true := by
      rw [ne_eq, TraceStorage.containsChildCoroutineStorage_iff]
      rintro ⟨l, hl⟩
      exact absurd (hparent.symm.trans hl) (by simp)
    rw [hs, if_neg hcontains]
    refine ⟨rfl, hcreate, fun c' => ?_, hclean, rfl⟩
    rw [if_pos hparent]
    rfl
  · have hcontains : (p.storage.createCoroutineInfo c ctx.now).containsChildCoroutineStorage
        parent = true := by
      rw [TraceStorage.containsChildCoroutineStorage_iff]
      exact Option.ne_none_iff_exists'.mp hparent
    rw [hs, if_pos hcontains]
    refine ⟨rfl, hcreate, fun c' => ?_, hclean, by simp⟩
    rw [if_neg hparent, TraceStorage.getChildCoroutines_createChildCoroutineStorage,
      TraceStorage.getChildCoroutines_addChildCoroutine,
      TraceStorage.getChildCoroutines_addChildCoroutine]
    change (if c' = c ∧ (if c = parent then (p.storage.getChildCoroutines parent).map _
      else p.storage.getChildCoroutines c) = none then some {}
      else if c' = parent then (p.storage.getChildCoroutines parent).map _
      else p.storage.getChildCoroutines c') = _
    by_cases hc' : c' = parent
    · subst hc'
      by_cases hcc : parent = c
      · rw [← hcc]; simp [hparent]
      · simp [hcc]
    · by_cases hcc : c' = c
      · subst hcc; simp [hc']
      · simp [hc', hcc]

/-- The components that `coroutineCreated` leaves alone. -/
lemma coroutineCreated_fields (p : Profiler) (ctx : Context) (c : JLong) :
    let s := (p.coroutineCreated ctx c).storage
    s.processedMap = p.storage.processedMap ∧
      s.ongoingTraceInfoMap = p.storage.ongoingTraceInfoMap ∧
      s.gcEvents = p.storage.gcEvents ∧ s.gcHeap = p.storage.gcHeap := by
  have hframe := (coroutineCreated_spec p ctx c).1
  simp only [TraceStorage.mk.injEq, true_and] at hframe
  exact hframe.2

/-! ## The trace callbacks -/

/-- What `traceStart` does, when the thread is registered. -/
structure TraceStartSpec (env : Env) (p : Profiler) (ctx : Context) (c : JLong) (p' : Profiler)
    (o : List Effect) : Prop where
  thread : (p.findThread ctx.thread).isSome
  threads : p'.threads = (p.addCurrentTraces ctx.thread 1).threads
  locals : p'.locals = p.locals
  frame : { p'.storage with
      coroutineInfoMap := {}, childCoroutinesMap := {}, ongoingTraceInfoMap := {} } =
    { p.storage with
      coroutineInfoMap := {}, childCoroutinesMap := {}, ongoingTraceInfoMap := {} }
  info : ∀ c', p'.storage.getCoroutineInfo c' =
    if c = -2 ∧ c' = traceId env ctx.thread c ∧
      p.storage.getCoroutineInfo (traceId env ctx.thread c) = none
    then some (TraceStorage.newCoroutineInfo ctx.now) else p.storage.getCoroutineInfo c'
  children : ∀ c', p'.storage.getChildCoroutines c' =
    if c' = traceId env ctx.thread c ∧
      p.storage.getChildCoroutines (traceId env ctx.thread c) = none
    then some {} else p.storage.getChildCoroutines c'
  ongoing : ∀ k, p'.storage.ongoingTraceInfoMap.at? k =
    if k = traceId env ctx.thread c ∧
      p.storage.ongoingTraceInfoMap.at? (traceId env ctx.thread c) = none
    then some ⟨traceId env ctx.thread c, ctx.now, 0⟩ else p.storage.ongoingTraceInfoMap.at? k
  cleanInfo : p'.storage.coroutineInfoMap.cleanList = p.storage.coroutineInfoMap.cleanList
  cleanChildren : p'.storage.childCoroutinesMap.cleanList = p.storage.childCoroutinesMap.cleanList
  effects : o = if p.storage.ongoingTraceInfoMap.at? (traceId env ctx.thread c) = none then []
    else [.threw ("Found trace that already started: " ++ toString (traceId env ctx.thread c))]

/-- The components that `traceStart` leaves alone. -/
lemma TraceStartSpec.fields {c : JLong} (h : TraceStartSpec env p ctx c p' o) :
    p'.storage.processedMap = p.storage.processedMap ∧
      p'.storage.gcEvents = p.storage.gcEvents ∧ p'.storage.gcHeap = p.storage.gcHeap := by
  have hframe := h.frame
  simp only [TraceStorage.mk.injEq, true_and] at hframe
  exact hframe.2

/-- The state after the first part of `traceStart`, which creates the info of a thread. -/
def createThreadInfo (env : Env) (p : Profiler) (ctx : Context) (c : JLong) : Profiler :=
  if c = -2 then
    p.withStorage (p.storage.createCoroutineInfo (traceId env ctx.thread c) ctx.now)
  else p

/-- What the first part of `traceStart` does: nothing but creating an info. -/
lemma createThreadInfo_spec (env : Env) (p : Profiler) (ctx : Context) (c : JLong) :
    let q := createThreadInfo env p ctx c
    q.threads = p.threads ∧ q.locals = p.locals ∧
      { q.storage with coroutineInfoMap := {} } = { p.storage with coroutineInfoMap := {} } ∧
      q.storage.coroutineInfoMap.cleanList = p.storage.coroutineInfoMap.cleanList ∧
      ∀ c', q.storage.getCoroutineInfo c' =
        if c = -2 ∧ c' = traceId env ctx.thread c ∧
          p.storage.getCoroutineInfo (traceId env ctx.thread c) = none
        then some (TraceStorage.newCoroutineInfo ctx.now) else p.storage.getCoroutineInfo c' := by
  intro q
  by_cases hc : c = -2
  · have hq : q = p.withStorage
        (p.storage.createCoroutineInfo (traceId env ctx.thread c) ctx.now) := if_pos hc
    rw [hq]
    refine ⟨rfl, rfl, rfl, ?_, fun c' => ?_⟩
    · rw [withStorage_storage, TraceStorage.createCoroutineInfo_coroutineInfoMap]
      split_ifs <;> simp
    · rw [withStorage_storage, TraceStorage.getCoroutineInfo_createCoroutineInfo]
      simp only [hc, true_and]
  · have hq : q = p := if_neg hc
    rw [hq]
    refine ⟨rfl, rfl, rfl, rfl, fun c' => ?_⟩
    simp [hc]

/-- The second part of `traceStart`: count the trace on the thread and record it. -/
def recordTrace (q : Profiler) (ctx : Context) (id : JLong) : Option (Profiler × List Effect) :=
  match q.findThread ctx.thread with
  | none => none
  | some _ =>
    let q := q.addCurrentTraces ctx.thread 1
    let added := (q.storage.createChildCoroutineStorage id).addOngoingTraceInfo ⟨id, ctx.now, 0⟩
    let q := q.withStorage added.2
    if added.1 then some (q, [])
    else some (q, [.threw ("Found trace that already started: " ++ toString id)])

/-- `traceStart` is its first part followed by its second. -/
lemma traceStart_eq (env : Env) (p : Profiler) (ctx : Context) (c : JLong) :
    p.traceStart env ctx c =
      (createThreadInfo env p ctx c).recordTrace ctx (traceId env ctx.thread c) := rfl

/-- What the second part of `traceStart` does. -/
lemma recordTrace_eq_some {q : Profiler} {id : JLong} (h : q.recordTrace ctx id = some (p', o)) :
    (q.findThread ctx.thread).isSome ∧
      p' = (q.addCurrentTraces ctx.thread 1).withStorage
        ((q.storage.createChildCoroutineStorage id).addOngoingTraceInfo ⟨id, ctx.now, 0⟩).2 ∧
      o = if q.storage.ongoingTraceInfoMap.at? id = none then []
        else [.threw ("Found trace that already started: " ++ toString id)] := by
  rw [recordTrace] at h
  have hadded : ((q.storage.createChildCoroutineStorage id).addOngoingTraceInfo
      ⟨id, ctx.now, 0⟩).1 = true ↔ q.storage.ongoingTraceInfoMap.at? id = none :=
    ConcurrentCleanableMap.insert_fst
  cases hthread : q.findThread ctx.thread with
  | none => simp [hthread] at h
  | some thread =>
    by_cases hnone : q.storage.ongoingTraceInfoMap.at? id = none
    · simp only [hthread, addCurrentTraces_storage, hadded.mpr hnone, if_true, Option.some.injEq,
        Prod.mk.injEq] at h
      exact ⟨rfl, h.1.symm, by rw [if_pos hnone, h.2]⟩
    · simp only [hthread, addCurrentTraces_storage, if_neg (mt hadded.mp hnone),
        Option.some.injEq, Prod.mk.injEq] at h
      exact ⟨rfl, h.1.symm, by rw [if_neg hnone, h.2]⟩

/-- **What `traceStart` does.** -/
lemma traceStart_eq_some {c : JLong} (h : p.traceStart env ctx c = some (p', o)) :
    TraceStartSpec env p ctx c p' o := by
  obtain ⟨hthreads, hlocals, hframe, hclean, hinfo⟩ := createThreadInfo_spec env p ctx c
  rw [traceStart_eq] at h
  generalize createThreadInfo env p ctx c = q at h hthreads hlocals hframe hclean hinfo
  obtain ⟨hthread, rfl, rfl⟩ := recordTrace_eq_some h
  have hchildren : q.storage.childCoroutinesMap = p.storage.childCoroutinesMap :=
    (congrArg TraceStorage.childCoroutinesMap hframe :)
  have hongoing : q.storage.ongoingTraceInfoMap = p.storage.ongoingTraceInfoMap :=
    (congrArg TraceStorage.ongoingTraceInfoMap hframe :)
  constructor
  · rw [findThread, ← hthreads]; exact hthread
  · rw [withStorage_threads, addCurrentTraces_threads, addCurrentTraces_threads, hthreads]
  · exact hlocals
  · exact (congrArg (fun s : TraceStorage =>
      { s with childCoroutinesMap := {}, ongoingTraceInfoMap := {} }) hframe :)
  · exact hinfo
  · intro c'
    rw [TraceStorage.getChildCoroutines, TraceStorage.getChildCoroutines,
      TraceStorage.getChildCoroutines, ← hchildren]
    exact TraceStorage.getChildCoroutines_createChildCoroutineStorage q.storage _ c'
  · intro k
    rw [← hongoing]
    exact ConcurrentCleanableMap.at?_insert _ _ _ _
  · exact hclean
  · rw [← hchildren]
    exact ConcurrentCleanableMap.cleanList_insert _ _ _
  · rw [hongoing]

/-- `traceStart` is defined on a registered thread. -/
lemma exists_traceStart (c : JLong) (hthread : (p.findThread ctx.thread).isSome) :
    ∃ p' o, p.traceStart env ctx c = some (p', o) := by
  have hthreads := (createThreadInfo_spec env p ctx c).1
  rw [findThread, ← hthreads, ← findThread] at hthread
  obtain ⟨thread, hthread⟩ := Option.isSome_iff_exists.mp hthread
  rw [traceStart_eq, recordTrace, hthread]
  dsimp only
  split_ifs
  · exact ⟨_, _, rfl⟩
  · exact ⟨_, _, rfl⟩

/-- The trace that `traceEnd` finds, with its end. -/
def endedTrace (p : Profiler) (ctx : Context) (id : JLong) : TraceInfo :=
  { (p.storage.ongoingTraceInfoMap.at? id).getD {} with endTime := ctx.now }

/-- What `traceEnd` does, when the thread is registered. -/
structure TraceEndSpec (env : Env) (p : Profiler) (ctx : Context) (c : JLong) (p' : Profiler)
    (o : List Effect) : Prop where
  thread : (p.findThread ctx.thread).isSome
  threads : p'.threads = (p.addCurrentTraces ctx.thread (-1)).threads
  locals : p'.locals = Function.update p.locals ctx.thread
    { p.locals ctx.thread with
      currentRusage := if (p.storage.getCoroutineInfo (traceId env ctx.thread c)).isSome
        then ctx.rusage else (p.locals ctx.thread).currentRusage }
  frame : { p'.storage with coroutineInfoMap := {}, ongoingTraceInfoMap := {} } =
    { p.storage with coroutineInfoMap := {}, ongoingTraceInfoMap := {} }
  info : ∀ c', p'.storage.getCoroutineInfo c' =
    if c' = traceId env ctx.thread c then
      (p.storage.getCoroutineInfo (traceId env ctx.thread c)).map
        (creditedInfo (p.locals ctx.thread).currentRusage ctx)
    else p.storage.getCoroutineInfo c'
  ongoing : ∀ k, p'.storage.ongoingTraceInfoMap.at? k =
    if p.storage.getCoroutineInfo (traceId env ctx.thread c) = none then
      p.storage.ongoingTraceInfoMap.at? k
    else if k = (p.endedTrace ctx (traceId env ctx.thread c)).coroutineId then none
    else if k = traceId env ctx.thread c then
      some ((p.storage.ongoingTraceInfoMap.at? (traceId env ctx.thread c)).getD {})
    else p.storage.ongoingTraceInfoMap.at? k
  cleanInfo : p'.storage.coroutineInfoMap.cleanList = p.storage.coroutineInfoMap.cleanList
  effects : o = p.infoCredits ctx (traceId env ctx.thread c) ++
    if (p.storage.getCoroutineInfo (traceId env ctx.thread c)).isSome ∧
      env.threshold < ctx.now - (p.endedTrace ctx (traceId env ctx.thread c)).start
    then [.wrote (env.outputPath ++ "/trace" ++ toString p.outputCounter ++ ".pftrace")
      (writePerfetto (p.endedTrace ctx (traceId env ctx.thread c)) p'.storage)]
    else []

/-- The components that `traceEnd` leaves alone. -/
lemma TraceEndSpec.fields {c : JLong} (h : TraceEndSpec env p ctx c p' o) :
    p'.storage.processedMap = p.storage.processedMap ∧
      p'.storage.childCoroutinesMap = p.storage.childCoroutinesMap ∧
      p'.storage.gcEvents = p.storage.gcEvents ∧ p'.storage.gcHeap = p.storage.gcHeap := by
  have hframe := h.frame
  simp only [TraceStorage.mk.injEq, true_and] at hframe
  exact hframe.2

/-- Writing a trace leaves everything but the output counter alone. -/
lemma core_writeTrace (env : Env) (p : Profiler) (traceInfo : TraceInfo) :
    (p.writeTrace env traceInfo).1.core = p.core := by
  unfold writeTrace
  split_ifs <;> rfl

/-- The state in which `traceEnd` writes the trace `ended`: the record is credited, and the trace
is removed under the id that it holds. -/
def unrecordTrace (q : Profiler) (ctx : Context) (id : JLong) (info : CoroutineInfo)
    (ended : TraceInfo) : Profiler :=
  let credited := (q.calculateResourceUsage ctx id info).1
  credited.withStorage
    ((credited.storage.findOngoingTraceInfo id).2.removeOngoingTraceInfo ended.coroutineId)

/-- `traceEnd` of a coroutine with an info. -/
lemma traceEnd_eq_of_info {c : JLong} {info : CoroutineInfo}
    (hthread : (p.findThread ctx.thread).isSome)
    (hinfo : p.storage.getCoroutineInfo (traceId env ctx.thread c) = some info) :
    let id := traceId env ctx.thread c
    let ended := p.endedTrace ctx id
    let written := ((p.addCurrentTraces ctx.thread (-1)).unrecordTrace ctx id info
      ended).writeTrace env ended
    p.traceEnd env ctx c = some (written.1, .credited id (p.creditOf ctx info) :: written.2) := by
  obtain ⟨thread, hthread⟩ := Option.isSome_iff_exists.mp hthread
  have hended : { (p.storage.ongoingTraceInfoMap.get {} (traceId env ctx.thread c)).1 with
      endTime := ctx.now } = p.endedTrace ctx (traceId env ctx.thread c) := by
    rw [ConcurrentCleanableMap.get_fst]; rfl
  rw [traceEnd]
  simp only [hthread, addCurrentTraces_storage, hinfo]
  rw [← hended]
  rfl

/-- `traceEnd` is defined on a registered thread. -/
lemma exists_traceEnd (c : JLong) (hthread : (p.findThread ctx.thread).isSome) :
    ∃ p' o, p.traceEnd env ctx c = some (p', o) := by
  cases hinfo : p.storage.getCoroutineInfo (traceId env ctx.thread c) with
  | none =>
    obtain ⟨thread, hthread⟩ := Option.isSome_iff_exists.mp hthread
    rw [traceEnd, hthread]
    simp only [addCurrentTraces_storage, hinfo]
    exact ⟨_, _, rfl⟩
  | some info => exact ⟨_, _, traceEnd_eq_of_info hthread hinfo⟩

/-- What a key of the ongoing traces holds when `traceEnd` writes the trace. -/
lemma ongoing_unrecordTrace (q : Profiler) (ctx : Context) (id : JLong) (info : CoroutineInfo)
    (ended : TraceInfo) (k : JLong) :
    (q.unrecordTrace ctx id info ended).storage.ongoingTraceInfoMap.at? k =
      if k = ended.coroutineId then none
      else if k = id then some ((q.storage.ongoingTraceInfoMap.at? id).getD {})
      else q.storage.ongoingTraceInfoMap.at? k := by
  change ((q.storage.ongoingTraceInfoMap.get {} id).2.erase ended.coroutineId).2.at? k = _
  rw [ConcurrentCleanableMap.at?_erase, ConcurrentCleanableMap.at?_get]

/-- **What `traceEnd` does.** -/
lemma traceEnd_eq_some {c : JLong} (h : p.traceEnd env ctx c = some (p', o)) :
    TraceEndSpec env p ctx c p' o := by
  have hthread : (p.findThread ctx.thread).isSome := by
    rw [traceEnd] at h
    cases hthread : p.findThread ctx.thread with
    | none => simp [hthread] at h
    | some thread => rfl
  cases hinfo : p.storage.getCoroutineInfo (traceId env ctx.thread c) with
  | none =>
    obtain ⟨thread, hthread'⟩ := Option.isSome_iff_exists.mp hthread
    simp only [traceEnd, hthread', addCurrentTraces_storage, hinfo, Option.some.injEq,
      Prod.mk.injEq] at h
    obtain ⟨rfl, rfl⟩ := h
    refine ⟨hthread, rfl, ?_, rfl, fun c' => ?_, fun k => ?_, rfl, ?_⟩
    · rw [hinfo]
      exact (Function.update_eq_self ctx.thread p.locals).symm
    · rw [hinfo, addCurrentTraces_storage]
      split_ifs with hc'
      · rw [hc', hinfo]; rfl
      · rfl
    · rw [if_pos hinfo]; rfl
    · simp [infoCredits, hinfo]
  | some info =>
    have hcredit := calculateResourceUsage_updatesInfo (p.addCurrentTraces ctx.thread (-1)) ctx
      (traceId env ctx.thread c) hinfo
    have hcore := core_writeTrace env ((p.addCurrentTraces ctx.thread (-1)).unrecordTrace ctx
      (traceId env ctx.thread c) info (p.endedTrace ctx (traceId env ctx.thread c)))
      (p.endedTrace ctx (traceId env ctx.thread c))
    rw [traceEnd_eq_of_info hthread hinfo, Option.some.injEq, Prod.mk.injEq] at h
    obtain ⟨hp', ho⟩ := h
    rw [hp'] at hcore
    obtain ⟨hs, ht, hl⟩ := core_eq_iff.mp hcore
    refine ⟨hthread, ht, ?_, ?_, fun c' => ?_, fun k => ?_, ?_, ?_⟩
    · rw [hl, hinfo]; rfl
    · rw [hs]
      exact (congrArg (fun s : TraceStorage => { s with ongoingTraceInfoMap := {} })
        hcredit.frame :)
    · rw [hs]
      exact hcredit.info c'
    · have hne : p.storage.getCoroutineInfo (traceId env ctx.thread c) ≠ none := by simp [hinfo]
      rw [if_neg hne, hs, ongoing_unrecordTrace]
      rfl
    · rw [hs]
      exact hcredit.cleanList
    · rw [← ho, hs, infoCredits, hinfo, List.singleton_append, List.cons.injEq]
      refine ⟨rfl, ?_⟩
      have hend : (p.endedTrace ctx (traceId env ctx.thread c)).endTime = ctx.now := rfl
      simp only [Option.isSome_some, true_and, writeTrace, hend]
      split_ifs <;> rfl

/-! ## The sampler -/

/-- The samples stored for a coroutine. -/
def samples (p : Profiler) (c : JLong) : List ProcessedTraceRecord :=
  ((p.storage.getProcessedTraces c).getD {}).list

/-- The samples that a step stored for a coroutine. -/
def recordedFor (c : JLong) (o : List Effect) : List ProcessedTraceRecord :=
  o.filterMap fun
    | .recorded c' record => if c' = c then some record else none
    | _ => none

/-- Append samples to the list of a coroutine, which the first one creates. -/
def appendSamples (old : Option (ConcurrentList ProcessedTraceRecord))
    (records : List ProcessedTraceRecord) : Option (ConcurrentList ProcessedTraceRecord) :=
  records.foldl (fun list record => some ((list.getD {}).pushBack record)) old

/-- The samples in the list. -/
lemma list_appendSamples (old : Option (ConcurrentList ProcessedTraceRecord))
    (records : List ProcessedTraceRecord) :
    ((appendSamples old records).getD {}).list = (old.getD {}).list ++ records := by
  induction records generalizing old with
  | nil => simp [appendSamples]
  | cons record records ih =>
    rw [appendSamples, List.foldl_cons, ← appendSamples, ih]
    exact List.append_assoc _ [record] records

/-- There is a list if there was one, or a sample is appended. -/
lemma isSome_appendSamples (old : Option (ConcurrentList ProcessedTraceRecord))
    (records : List ProcessedTraceRecord) :
    (appendSamples old records).isSome ↔ old.isSome ∨ records ≠ [] := by
  induction records generalizing old with
  | nil => simp [appendSamples]
  | cons record records ih =>
    rw [appendSamples, List.foldl_cons, ← appendSamples, ih]
    simp

/-- From `p` to `p'` only samples were stored, those of `o`. -/
structure Sampled (p p' : Profiler) (o : List Effect) : Prop where
  threads : p'.threads = p.threads
  locals : p'.locals = p.locals
  frame : { p'.storage with rawList := {}, processedMap := {} } =
    { p.storage with rawList := {}, processedMap := {} }
  processed : ∀ c, p'.storage.getProcessedTraces c =
    appendSamples (p.storage.getProcessedTraces c) (recordedFor c o)
  cleanProcessed : p'.storage.processedMap.cleanList = p.storage.processedMap.cleanList
  effects : ∀ x ∈ o, ∃ c record, x = .recorded c record

/-- The components that storing samples leaves alone. -/
lemma Sampled.fields (h : Sampled p p' o) :
    p'.storage.ongoingTraceInfoMap = p.storage.ongoingTraceInfoMap ∧
      p'.storage.childCoroutinesMap = p.storage.childCoroutinesMap ∧
      p'.storage.coroutineInfoMap = p.storage.coroutineInfoMap ∧
      p'.storage.gcEvents = p.storage.gcEvents ∧ p'.storage.gcHeap = p.storage.gcHeap := by
  have hframe := h.frame
  simp only [TraceStorage.mk.injEq, true_and] at hframe
  exact hframe

/-- The samples of a coroutine afterwards. -/
lemma Sampled.samples (h : Sampled p p' o) (c : JLong) :
    p'.samples c = p.samples c ++ recordedFor c o := by
  rw [Profiler.samples, h.processed, list_appendSamples, Profiler.samples]

/-- Storing nothing. -/
lemma Sampled.refl (h : p'.core = p.core) : Sampled p p' [] := by
  obtain ⟨hs, ht, hl⟩ := core_eq_iff.mp h
  refine ⟨ht, hl, by rw [hs], fun c => ?_, by rw [hs], by simp⟩
  rw [hs]
  rfl

/-- Storing samples one after the other. -/
lemma Sampled.trans {q : Profiler} {o₁ o₂ : List Effect} (h₁ : Sampled p q o₁)
    (h₂ : Sampled q p' o₂) : Sampled p p' (o₁ ++ o₂) where
  threads := h₂.threads.trans h₁.threads
  locals := h₂.locals.trans h₁.locals
  frame := h₂.frame.trans h₁.frame
  processed c := by
    rw [h₂.processed, h₁.processed, recordedFor, recordedFor, recordedFor, List.filterMap_append,
      appendSamples, appendSamples, appendSamples, List.foldl_append]
  cleanProcessed := h₂.cleanProcessed.trans h₁.cleanProcessed
  effects x hx := by
    rcases List.mem_append.mp hx with hx | hx
    · exact h₁.effects x hx
    · exact h₂.effects x hx

/-- `addProcessedTrace` stores one sample. -/
lemma sampled_addProcessedTrace (p : Profiler) (c : JLong) (record : ProcessedTraceRecord) :
    Sampled p (p.withStorage (p.storage.addProcessedTrace c record)) [.recorded c record] := by
  refine ⟨rfl, rfl, rfl, fun c' => ?_, ?_, by simp⟩
  · rw [withStorage_storage, TraceStorage.getProcessedTraces_addProcessedTrace]
    by_cases hc : c' = c
    · subst hc; simp [recordedFor, appendSamples]
    · simp [recordedFor, appendSamples, hc, Ne.symm hc]
  · rw [withStorage_storage, TraceStorage.addProcessedTrace_processedMap]
    split_ifs <;> simp

/-- The loop of `processTraces` stores samples.

**Proof sketch.** Induction on the bound: an iteration takes a raw record, which no one else
reads, resolves its frames, which touches the caches only, and stores one sample. -/
lemma sampled_processTracesLoop {n : ℕ} (h : processTracesLoop env n p = some (p', o)) :
    Sampled p p' o := by
  induction n generalizing p o with
  | zero =>
    rw [processTracesLoop, Option.some.injEq, Prod.mk.injEq] at h
    obtain ⟨rfl, rfl⟩ := h
    exact Sampled.refl rfl
  | succ n ih =>
    -- taking the raw record is invisible
    have hraw : ∀ s, s = p.storage.removeRawTraceHeader.2 → Sampled p (p.withStorage s) [] := by
      rintro s rfl
      refine ⟨rfl, rfl, rfl, fun c => ?_, rfl, by simp⟩
      simp [appendSamples, recordedFor, TraceStorage.getProcessedTraces_eq,
        TraceStorage.removeRawTraceHeader]
    rw [processTracesLoop] at h
    split at h
    · rename_i storage hremove
      rw [Option.some.injEq, Prod.mk.injEq] at h
      obtain ⟨rfl, rfl⟩ := h
      exact hraw storage (by rw [hremove])
    · rename_i rawRecord storage hremove
      split at h
      · cases h
      · rename_i thread _
        obtain ⟨⟨q, o'⟩, hrest, heq⟩ := Option.map_eq_some_iff.mp h
        rw [Prod.mk.injEq] at heq
        obtain ⟨rfl, rfl⟩ := heq
        refine Sampled.trans ?_ (ih hrest)
        rw [processRawRecord]
        have hcore := resolveFrames_frame core (core_processProfilerMethodInfo env)
          (p.withStorage storage) (rawRecord.trace.instructions.take rawRecord.traceCount)
        exact ((hraw storage (by rw [hremove])).trans (Sampled.refl hcore)).trans
          (sampled_addProcessedTrace _ _ _)

/-- **What `processTraces` does**: it stores samples. -/
lemma processTraces_eq_some (h : p.processTraces env = some (p', o)) : Sampled p p' o :=
  sampled_processTracesLoop h

end Profiler

end KotlinTracer
