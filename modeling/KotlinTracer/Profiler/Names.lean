import KotlinTracer.Profiler.Steps

set_option relaxedAutoImplicit false
set_option autoImplicit false

/-!
# Names of methods

The profiler keeps the names of methods and of their classes in two caches, which
`processMethodInfo` and `processProfilerMethodInfo` fill on a miss. In every run the caches hold
what JVMTI answers, so a frame does not depend on what was resolved before.

## Main definitions

* `KotlinTracer.methodFrame`, `KotlinTracer.instructionFrame` — the frame of a method and of a
  sampled instruction, without caches.
* `KotlinTracer.Profiler.NamesCoherent` — the caches hold the answers of JVMTI.

## Main results

* `KotlinTracer.Profiler.processMethodInfo_spec`, `processProfilerMethodInfo_spec`,
  `resolveFrames_spec` — with coherent caches the frames are those without caches.
* `KotlinTracer.Profiler.NamesCoherent.step`, `namesCoherent_of_run` — the caches are coherent in
  every run.
* `KotlinTracer.Profiler.step_info_frames` — the record of every coroutine after a step.
-/

namespace KotlinTracer

/-- The frame of a Java method. -/
def methodFrame (env : Env) (method : JMethodID) : StackFrame :=
  ⟨(env.getMethodName method).1 ++ (env.getMethodName method).2, Profiler.className env method⟩

/-- A text without its last character. -/
def withoutLast (text : String) : String :=
  String.ofList (text.toList.take (text.toList.length - 1))

/-- The frame of a method, in terms of the answers of JVMTI. -/
lemma methodFrame_eq (env : Env) (method : JMethodID) :
    methodFrame env method =
      { frame := (env.getMethodName method).1 ++ (env.getMethodName method).2
        base := withoutLast (env.getClassSignature method) } := by
  rw [methodFrame, Profiler.className, List.dropLast_eq_take, withoutLast]

/-- The frame of a sampled instruction. -/
def instructionFrame (env : Env) (i : InstructionInfo) : StackFrame :=
  if i.javaFrame then
    if i.instruction ≠ 0 then methodFrame env i.instruction else ⟨"unknown_java", ""⟩
  else
    match env.getNativeFunctionInfo i.instruction with
    | some (name, libName) => ⟨name, libName⟩
    | none => ⟨"unknown_native", ""⟩

/-- The frames that a suspension with the given Java stack records; none for an empty stack. -/
def stackFrames (env : Env) (stack : Option (List JMethodID)) : Option (List StackFrame) :=
  if Profiler.suspensionStack stack = [] then none
  else some ((Profiler.suspensionStack stack).map (methodFrame env))

/-- The frames that an event records: those of a suspension. -/
def Event.frames (env : Env) (e : Event) : Option (List StackFrame) :=
  match e.call with
  | .coroutineSuspended _ stack => stackFrames env stack
  | _ => none

namespace Profiler

variable {env : Env} {p p' : Profiler} {e : Event} {ctx : Context} {o : List Effect}

/-- The caches hold the answers of JVMTI, and a method whose name is cached has its class
cached. -/
structure NamesCoherent (env : Env) (p : Profiler) : Prop where
  method : ∀ m name, p.methodInfoMap.at? m = some name →
    name = (methodFrame env m).frame ∧ p.classInfoMap.at? m = some (methodFrame env m).base
  class_ : ∀ m name, p.classInfoMap.at? m = some name → name = (methodFrame env m).base

/-- Only the caches matter. -/
lemma NamesCoherent.congr (h : NamesCoherent env p) (hnames : p'.names = p.names) :
    NamesCoherent env p' := by
  rw [names, names, Prod.mk.injEq] at hnames
  refine ⟨?_, ?_⟩
  · rw [hnames.1, hnames.2]
    exact h.method
  · rw [hnames.2]
    exact h.class_

/-! ## Resolving names -/

/-- The class cache after the class of a method was looked up and cached. -/
lemma NamesCoherent.at?_class (h : NamesCoherent env p) (m k : JMethodID) :
    (if p.classInfoMap.contains m then p.classInfoMap
      else (p.classInfoMap.insert m (className env m)).2).at? k =
      if k = m then some (methodFrame env m).base else p.classInfoMap.at? k := by
  by_cases hcontains : p.classInfoMap.contains m
  · rw [if_pos hcontains]
    obtain ⟨name, hname⟩ := ConcurrentCleanableMap.contains_iff.mp hcontains
    split_ifs with hk
    · rw [hk, hname, h.class_ m name hname]
    · rfl
  · rw [if_neg hcontains, ConcurrentCleanableMap.at?_insert]
    rw [ConcurrentCleanableMap.contains_iff, not_exists] at hcontains
    have hnone : p.classInfoMap.at? m = none := Option.eq_none_iff_forall_ne_some.mpr hcontains
    simp only [hnone, and_true]
    rfl

/-- Reading the names of a method from caches that hold them, the other entries being those of
coherent caches. -/
lemma NamesCoherent.get (h : NamesCoherent env p) (m : JMethodID)
    {methods classes : ConcurrentCleanableMap JMethodID String}
    (hmethods : ∀ k, methods.at? k =
      if k = m then some (methodFrame env m).frame else p.methodInfoMap.at? k)
    (hclasses : ∀ k, classes.at? k =
      if k = m then some (methodFrame env m).base else p.classInfoMap.at? k) :
    (⟨(methods.get "" m).1, (classes.get "" m).1⟩ : StackFrame) = methodFrame env m ∧
      NamesCoherent env
        { p with methodInfoMap := (methods.get "" m).2, classInfoMap := (classes.get "" m).2 } := by
  have hmethod := hmethods m
  have hclass := hclasses m
  rw [if_pos rfl] at hmethod hclass
  refine ⟨?_, ?_, ?_⟩
  · rw [ConcurrentCleanableMap.get_fst, ConcurrentCleanableMap.get_fst, hmethod, hclass]
    rfl
  · intro k name
    dsimp only
    rw [ConcurrentCleanableMap.at?_get, ConcurrentCleanableMap.at?_get, hmethod, hclass, hmethods,
      hclasses]
    by_cases hk : k = m
    · subst hk
      simp only [if_true, Option.getD_some, Option.some.injEq, and_true]
      exact fun heq => heq.symm
    · simp only [hk, if_false]
      exact h.method k name
  · intro k name
    dsimp only
    rw [ConcurrentCleanableMap.at?_get, hclass, hclasses]
    by_cases hk : k = m
    · subst hk
      simp only [if_true, Option.getD_some, Option.some.injEq]
      exact fun heq => heq.symm
    · simp only [hk, if_false]
      exact h.class_ k name

/-- **A resolved method has its frame**, and the caches stay coherent.

**Proof sketch.** On a miss the class is cached first and then the method, each with the answer of
JVMTI. On a hit both are there already. Either way the two reads find the names. -/
lemma resolveMethod_spec (h : NamesCoherent env p) (m : JMethodID) :
    (resolveMethod env p m).1 = methodFrame env m ∧
      NamesCoherent env (resolveMethod env p m).2 := by
  rw [resolveMethod]
  by_cases hcontains : p.methodInfoMap.contains m
  · rw [if_neg (not_not.mpr hcontains)]
    obtain ⟨name, hname⟩ := ConcurrentCleanableMap.contains_iff.mp hcontains
    obtain ⟨rfl, hclass⟩ := h.method m name hname
    refine h.get m (fun k => ?_) (fun k => ?_)
    · split_ifs with hk
      · rw [hk, hname]
      · rfl
    · split_ifs with hk
      · rw [hk, hclass]
      · rfl
  · rw [if_pos hcontains]
    refine h.get m (fun k => ?_) (h.at?_class m)
    rw [ConcurrentCleanableMap.contains_iff, not_exists] at hcontains
    have hnone : p.methodInfoMap.at? m = none := Option.eq_none_iff_forall_ne_some.mpr hcontains
    rw [ConcurrentCleanableMap.at?_insert]
    simp only [hnone, and_true]
    rfl

/-- `processMethodInfo` gives the frame of the method. -/
lemma processMethodInfo_spec (h : NamesCoherent env p) (m : JMethodID) :
    (processMethodInfo env p m).1 = methodFrame env m ∧
      NamesCoherent env (processMethodInfo env p m).2 :=
  resolveMethod_spec h m

/-- `processProfilerMethodInfo` gives the frame of the instruction. -/
lemma processProfilerMethodInfo_spec (h : NamesCoherent env p) (i : InstructionInfo) :
    (processProfilerMethodInfo env p i).1 = instructionFrame env i ∧
      NamesCoherent env (processProfilerMethodInfo env p i).2 := by
  rw [processProfilerMethodInfo, instructionFrame]
  split_ifs with hjava hnull
  · exact resolveMethod_spec h i.instruction
  · exact ⟨rfl, h⟩
  · cases env.getNativeFunctionInfo i.instruction with
    | none => exact ⟨rfl, h⟩
    | some info => exact ⟨rfl, h⟩

/-- Frames that are resolved one after the other, when each resolution gives the frame that
`frame` says. -/
lemma resolveFrames_spec {α : Type} {resolve : Profiler → α → StackFrame × Profiler}
    {frame : α → StackFrame}
    (hresolve : ∀ p x, NamesCoherent env p →
      (resolve p x).1 = frame x ∧ NamesCoherent env (resolve p x).2)
    (h : NamesCoherent env p) (xs : List α) :
    (resolveFrames resolve p xs).1 = xs.map frame ∧
      NamesCoherent env (resolveFrames resolve p xs).2 := by
  induction xs generalizing p with
  | nil => exact ⟨rfl, h⟩
  | cons x xs ih =>
    obtain ⟨hframe, hnext⟩ := hresolve p x h
    obtain ⟨hrest, hlast⟩ := ih hnext
    rw [resolveFrames]
    refine ⟨?_, hlast⟩
    dsimp only
    rw [hframe, hrest, List.map_cons]

/-- The frames of a suspension do not depend on the caches. -/
lemma suspensionFrames_eq (h : NamesCoherent env p) (stack : Option (List JMethodID)) :
    suspensionFrames env p stack = stackFrames env stack := by
  rw [suspensionFrames, stackFrames,
    (resolveFrames_spec (fun p x hp => processMethodInfo_spec hp x) h (suspensionStack stack)).1]

/-! ## The caches in a run -/

/-- A processed raw record keeps the caches coherent. -/
lemma NamesCoherent.processRawRecord (h : NamesCoherent env p) (rawRecord : RawCallTraceRecord)
    (thread : ThreadInfo) : NamesCoherent env (p.processRawRecord env rawRecord thread).1 := by
  have hframes := resolveFrames_spec (fun p x hp => processProfilerMethodInfo_spec hp x) h
    (rawRecord.trace.instructions.take rawRecord.traceCount)
  exact hframes.2.congr rfl

/-- The loop of `processTraces` keeps the caches coherent. -/
lemma NamesCoherent.processTracesLoop {n : ℕ} (h : NamesCoherent env p)
    (hloop : processTracesLoop env n p = some (p', o)) : NamesCoherent env p' := by
  induction n generalizing p o with
  | zero =>
    rw [Profiler.processTracesLoop, Option.some.injEq, Prod.mk.injEq] at hloop
    exact h.congr (by rw [← hloop.1])
  | succ n ih =>
    rw [Profiler.processTracesLoop] at hloop
    split at hloop
    · rw [Option.some.injEq, Prod.mk.injEq] at hloop
      exact h.congr (by rw [← hloop.1]; rfl)
    · rename_i rawRecord storage _
      split at hloop
      · cases hloop
      · rename_i thread _
        obtain ⟨⟨q, o'⟩, hrest, heq⟩ := Option.map_eq_some_iff.mp hloop
        rw [Prod.mk.injEq] at heq
        obtain ⟨rfl, rfl⟩ := heq
        have hstorage : NamesCoherent env (p.withStorage storage) := h.congr rfl
        exact ih (hstorage.processRawRecord rawRecord thread) hrest

/-- The caches after `traceStart`. -/
lemma names_traceStart {c : JLong} (h : p.traceStart env ctx c = some (p', o)) :
    p'.names = p.names := by
  rw [traceStart] at h
  dsimp only at h
  split at h
  · cases h
  · have hnames : ∀ (b : Bool) (q : Profiler) (o₁ o₂ : List Effect), q.names = p.names →
        (if b = true then some (q, o₁) else some (q, o₂)) = some (p', o) →
        p'.names = p.names := by
      intro b q o₁ o₂ hq heq
      cases b
      · simp only [Bool.false_eq_true, if_false, Option.some.injEq, Prod.mk.injEq] at heq
        rw [← heq.1, hq]
      · simp only [if_true, Option.some.injEq, Prod.mk.injEq] at heq
        rw [← heq.1, hq]
    refine hnames _ _ _ _ ?_ h
    split_ifs <;> rfl

/-- The caches after `traceEnd`. -/
lemma names_traceEnd {c : JLong} (h : p.traceEnd env ctx c = some (p', o)) :
    p'.names = p.names := by
  rw [traceEnd] at h
  split at h
  · cases h
  · dsimp only at h
    split at h
    · rw [Option.some.injEq, Prod.mk.injEq] at h
      rw [← h.1]
      rfl
    · rw [Option.some.injEq, Prod.mk.injEq] at h
      rw [← h.1, writeTrace]
      split_ifs <;> rfl

/-- **One step keeps the caches coherent.** -/
lemma NamesCoherent.step (h : NamesCoherent env p) (hstep : p.step env e = some (p', o)) :
    NamesCoherent env p' := by
  obtain ⟨ctx, call⟩ := e
  rw [Profiler.step] at hstep
  cases call with
  | coroutineSuspended c stack =>
    obtain ⟨q, hq, -, hnames, -⟩ := coroutineSuspended_spec hstep
    rcases hnames with hnames | hnames
    · exact h.congr hnames
    · have hframes := resolveFrames_spec (fun p x hp => processMethodInfo_spec hp x) (h.congr hq)
        (suspensionStack stack)
      exact hframes.2.congr hnames
  | processTraces => exact h.processTracesLoop hstep
  | traceStart c => exact h.congr (names_traceStart hstep)
  | traceEnd c => exact h.congr (names_traceEnd hstep)
  | coroutineResumed c =>
    simp only [Option.some.injEq, Prod.mk.injEq] at hstep
    refine h.congr ?_
    rw [← hstep.1, coroutineResumed]
    dsimp only
    split <;> rfl
  | coroutineCompleted c =>
    simp only [Option.some.injEq] at hstep
    refine h.congr ?_
    have hfst : p' = (p.coroutineCompleted ctx c).1 := by rw [hstep]
    rw [hfst, coroutineCompleted]
    dsimp only
    split <;> rfl
  | gcFinish =>
    obtain ⟨storage, -, heq⟩ := Option.map_eq_some_iff.mp hstep
    rw [Prod.mk.injEq] at heq
    exact h.congr (by rw [← heq.1]; rfl)
  | clean =>
    obtain ⟨storage, -, heq⟩ := Option.map_eq_some_iff.mp hstep
    rw [Prod.mk.injEq] at heq
    exact h.congr (by rw [← heq.1]; rfl)
  | _ =>
    simp only [Option.some.injEq, Prod.mk.injEq] at hstep
    exact h.congr (by rw [← hstep.1]; rfl)

/-- The caches are empty before anything was resolved. -/
lemma namesCoherent_init : NamesCoherent env {} := by
  refine ⟨fun m name hname => ?_, fun m name hname => ?_⟩
  · cases hname
  · cases hname

/-- **The caches are coherent in every run.** -/
theorem namesCoherent_of_run {l : Log} (hrun : Run env l p) : NamesCoherent env p :=
  LogMachine.Run.state_invariant (I := NamesCoherent env) namesCoherent_init
    (fun _ _ _ _ h hstep => h.step hstep) hrun

/-- The caches are coherent in every state that events reach. -/
lemma namesCoherent_of_reaches {es : List Event} (h : (machine env).Reaches es p) :
    NamesCoherent env p := by
  obtain ⟨l, hrun, -⟩ := h
  exact namesCoherent_of_run hrun

/-- The record of a coroutine after its suspension. -/
lemma step_suspended (h : NamesCoherent env p) {c : JLong} {stack : Option (List JMethodID)}
    (hstep : p.step env ⟨ctx, .coroutineSuspended c stack⟩ = some (p', o)) :
    p.storage.UpdatesInfo p'.storage c
      (suspendedInfo (p.locals ctx.thread).currentRusage ctx c (stackFrames env stack)) := by
  obtain ⟨q, hq, hinfo, -⟩ := coroutineSuspended_spec hstep
  rw [suspensionFrames_eq (h.congr hq)] at hinfo
  exact hinfo

/-- **The record of every coroutine after a step**, with the frames that a suspension records. -/
lemma step_info_frames (h : NamesCoherent env p) (hstep : p.step env e = some (p', o))
    (c : JLong) :
    p'.storage.getCoroutineInfo c =
      infoUpdate env e (p.locals e.thread).currentRusage (e.frames env)
        (c ∈ p.storage.coroutineInfoMap.cleanList) c (p.storage.getCoroutineInfo c) := by
  obtain ⟨frames, hinfo⟩ := step_info hstep
  obtain ⟨ctx, call⟩ := e
  cases call with
  | coroutineSuspended d stack =>
    rw [(step_suspended h hstep).info c]
    dsimp only [infoUpdate, Event.frames]
    split_ifs with hc
    · rw [hc]
    · rfl
  | _ => exact hinfo c

end Profiler

end KotlinTracer
