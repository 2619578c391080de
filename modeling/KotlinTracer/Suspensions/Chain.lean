import KotlinTracer.Sampler.Processing
import KotlinTracer.Suspensions.Pending

set_option relaxedAutoImplicit false
set_option autoImplicit false

/-!
# Chains of suspensions

`coroutineSuspended` clears `last_resume` so that the running time of a coroutine is not counted
again when the suspension is reported once more by the next frame of the chain. This file compares
two runs, one of which reports suspensions of a coroutine more often than the other: in everything
but the recorded suspensions of that coroutine they end alike.

## Main definitions

* `KotlinTracer.Chained` — a list of events with suspensions of a coroutine reported again.
* `KotlinTracer.AlikeBut` — two states that differ in the suspensions of one coroutine only.

## Main results

* `KotlinTracer.AlikeBut.step`, `KotlinTracer.AlikeBut.exists_step` — states that are alike stay
  alike, and a step that is defined in one is defined in the other.
* `KotlinTracer.alikeBut_again` — a suspension that is reported again changes nothing else.
* `KotlinTracer.chain_insensitive` — the two runs end alike.
-/

namespace KotlinTracer

/-! ## Reporting suspensions again -/

/-- `es'` is `es` with suspensions of `c` that are reported again, any number of times, directly
after a suspension of `c` on the same thread. -/
inductive Chained (c : JLong) : List Event → List Event → Prop
  | nil : Chained c [] []
  | event {es es' : List Event} (e : Event) (h : Chained c es es') :
    Chained c (es ++ [e]) (es' ++ [e])
  | again {es es' : List Event} {e₁ e₂ : Event} {stack₁ stack₂ : Option (List JMethodID)}
    (h : Chained c es (es' ++ [e₁])) (h₁ : e₁.call = .coroutineSuspended c stack₁)
    (h₂ : e₂.call = .coroutineSuspended c stack₂) (hthread : e₂.thread = e₁.thread) :
    Chained c es (es' ++ [e₁] ++ [e₂])

/-- The record of a coroutine without its suspensions. -/
@[simps] def CoroutineInfo.accounts (info : CoroutineInfo) : CoroutineInfo :=
  { info with suspensionsList := {} }

/-- A suspension, seen without the suspensions. -/
lemma CoroutineInfo.accounts_suspendedInfo (last : RUsage) (ctx : Context) (c : JLong)
    (frames : Option (List StackFrame)) (info : CoroutineInfo) :
    (suspendedInfo last ctx c frames info).accounts =
      (suspendedInfo last ctx c none info.accounts).accounts := by
  have hrecord : ∀ info, (recordSuspension c ctx.now frames info).accounts = info.accounts := by
    intro info
    cases frames <;> rfl
  rw [suspendedInfo, hrecord, suspendedInfo, recordSuspension, pausedInfo, pausedInfo,
    accounts_lastResume]
  split_ifs <;> rfl

/-- Two states that differ in the recorded suspensions of `c` only. -/
structure AlikeBut (c : JLong) (p q : Profiler) : Prop where
  threads : q.threads = p.threads
  locals : q.locals = p.locals
  other : ∀ d, d ≠ c → q.storage.getCoroutineInfo d = p.storage.getCoroutineInfo d
  accounts : (q.storage.getCoroutineInfo c).map CoroutineInfo.accounts =
    (p.storage.getCoroutineInfo c).map CoroutineInfo.accounts
  children : ∀ d, q.storage.getChildCoroutines d = p.storage.getChildCoroutines d
  ongoing : ∀ k, q.storage.ongoingTraceInfoMap.at? k = p.storage.ongoingTraceInfoMap.at? k
  rawList : q.storage.rawList.list = p.storage.rawList.list
  processed : q.storage.processedMap = p.storage.processedMap
  gcEvents : q.storage.gcEvents = p.storage.gcEvents
  gcHeap : q.storage.gcHeap = p.storage.gcHeap
  markedInfo : ∀ d, d ∈ q.storage.coroutineInfoMap.cleanList ↔
    d ∈ p.storage.coroutineInfoMap.cleanList
  markedChildren : ∀ d, d ∈ q.storage.childCoroutinesMap.cleanList ↔
    d ∈ p.storage.childCoroutinesMap.cleanList

namespace AlikeBut

variable {env : Env} {c : JLong} {p q r p' q' : Profiler} {e : Event} {o o' : List Effect}

/-- Every state is alike to itself. -/
lemma refl (c : JLong) (p : Profiler) : AlikeBut c p p := by
  constructor <;> intros <;> rfl

/-- States that are alike to the same state. -/
lemma trans (h : AlikeBut c p q) (h' : AlikeBut c q r) : AlikeBut c p r where
  threads := h'.threads.trans h.threads
  locals := h'.locals.trans h.locals
  other d hd := (h'.other d hd).trans (h.other d hd)
  accounts := h'.accounts.trans h.accounts
  children d := (h'.children d).trans (h.children d)
  ongoing k := (h'.ongoing k).trans (h.ongoing k)
  rawList := h'.rawList.trans h.rawList
  processed := h'.processed.trans h.processed
  gcEvents := h'.gcEvents.trans h.gcEvents
  gcHeap := h'.gcHeap.trans h.gcHeap
  markedInfo d := (h'.markedInfo d).trans (h.markedInfo d)
  markedChildren d := (h'.markedChildren d).trans (h.markedChildren d)

/-- What is read from a record, except from its suspensions, is the same. -/
lemma map_info {β : Type} {f : CoroutineInfo → β} (hf : ∀ info, f info.accounts = f info)
    (h : AlikeBut c p q) (d : JLong) :
    (q.storage.getCoroutineInfo d).map f = (p.storage.getCoroutineInfo d).map f := by
  by_cases hd : d = c
  · subst hd
    have hcomp : f ∘ CoroutineInfo.accounts = f := funext hf
    have haccounts := congrArg (Option.map f) h.accounts
    rw [Option.map_map, Option.map_map, hcomp] at haccounts
    exact haccounts
  · rw [h.other d hd]

/-- The same coroutines have a record. -/
lemma isSome_info (h : AlikeBut c p q) (d : JLong) :
    (q.storage.getCoroutineInfo d).isSome = (p.storage.getCoroutineInfo d).isSome := by
  have hmap := congrArg Option.isSome (h.map_info (f := fun _ => ()) (fun _ => rfl) d)
  rw [Option.isSome_map, Option.isSome_map] at hmap
  exact hmap

/-- The same coroutines have no record. -/
lemma info_eq_none (h : AlikeBut c p q) (d : JLong) :
    q.storage.getCoroutineInfo d = none ↔ p.storage.getCoroutineInfo d = none := by
  rw [← Option.isNone_iff_eq_none, ← Option.isNone_iff_eq_none, ← Option.not_isSome,
    ← Option.not_isSome, h.isSome_info]

/-- The same coroutines are running. -/
lemma isRunning (h : AlikeBut c p q) (d : JLong) : q.isRunning d = p.isRunning d := by
  have hlast := h.map_info (f := CoroutineInfo.lastResume) (fun _ => rfl) d
  have hrunning : ∀ p : Profiler, p.isRunning d =
      ((p.storage.getCoroutineInfo d).map CoroutineInfo.lastResume).any fun t => 0 < t := by
    intro p
    rw [Profiler.isRunning]
    cases p.storage.getCoroutineInfo d <;> rfl
  rw [hrunning, hrunning, hlast]

/-! ## One step -/

/-- The thread-local variables stay the same. -/
lemma step_locals (h : AlikeBut c p q) (hp : p.step env e = some (p', o))
    (hq : q.step env e = some (q', o')) : q'.locals = p'.locals := by
  rw [Profiler.step_locals hp, Profiler.step_locals hq]
  simp only [Profiler.suspendedLocals, h.locals, h.isSome_info, h.isRunning]

/-- An update of a record, seen without the suspensions. -/
lemma map_accounts_infoUpdate (last : RUsage) (frames : Option (List StackFrame)) (marked : Bool)
    (old : Option CoroutineInfo) :
    (infoUpdate env e last frames marked c old).map CoroutineInfo.accounts =
      (infoUpdate env e last none marked c (old.map CoroutineInfo.accounts)).map
        CoroutineInfo.accounts := by
  obtain ⟨ctx, call⟩ := e
  cases call with
  | coroutineSuspended d stack =>
    simp only [infoUpdate]
    split_ifs
    · cases old with
      | none => rfl
      | some info => exact congrArg some (CoroutineInfo.accounts_suspendedInfo _ _ _ _ _)
    · cases old <;> rfl
  | clean =>
    cases marked
    · cases old <;> rfl
    · rfl
  | coroutineCreated d =>
    simp only [infoUpdate]
    split_ifs <;> cases old <;> rfl
  | traceStart d =>
    simp only [infoUpdate]
    split_ifs <;> cases old <;> rfl
  | coroutineResumed d =>
    simp only [infoUpdate]
    split_ifs <;> cases old <;> rfl
  | coroutineCompleted d =>
    simp only [infoUpdate]
    split_ifs <;> cases old <;> rfl
  | traceEnd d =>
    simp only [infoUpdate]
    split_ifs <;> cases old <;> rfl
  | _ => cases old <;> rfl

/-- The records stay alike: those of the other coroutines because a suspension records the frames
that its stack has in every state, whatever the name caches hold. -/
lemma step_info (hnp : Profiler.NamesCoherent env p) (hnq : Profiler.NamesCoherent env q)
    (h : AlikeBut c p q) (hp : p.step env e = some (p', o)) (hq : q.step env e = some (q', o')) :
    (∀ d, d ≠ c → q'.storage.getCoroutineInfo d = p'.storage.getCoroutineInfo d) ∧
      (q'.storage.getCoroutineInfo c).map CoroutineInfo.accounts =
        (p'.storage.getCoroutineInfo c).map CoroutineInfo.accounts := by
  have hmarked : ∀ d, (decide (d ∈ q.storage.coroutineInfoMap.cleanList) : Bool) =
      decide (d ∈ p.storage.coroutineInfoMap.cleanList) := by
    intro d
    rw [decide_eq_decide]
    exact h.markedInfo d
  refine ⟨fun d hd => ?_, ?_⟩
  · rw [Profiler.step_info_frames hnp hp d, Profiler.step_info_frames hnq hq d, h.other d hd,
      h.locals, hmarked]
  · rw [Profiler.step_info_frames hnp hp c, Profiler.step_info_frames hnq hq c, h.locals, hmarked,
      map_accounts_infoUpdate, h.accounts, ← map_accounts_infoUpdate]

/-- The marks stay the same. -/
lemma step_marked (h : AlikeBut c p q) (hp : p.step env e = some (p', o))
    (hq : q.step env e = some (q', o')) (d : JLong) :
    (d ∈ q'.storage.coroutineInfoMap.cleanList ↔ d ∈ p'.storage.coroutineInfoMap.cleanList) ∧
      (d ∈ q'.storage.childCoroutinesMap.cleanList ↔
        d ∈ p'.storage.childCoroutinesMap.cleanList) := by
  obtain ⟨hpinfo, hpchildren, -⟩ := Profiler.step_cleanList hp d
  obtain ⟨hqinfo, hqchildren, -⟩ := Profiler.step_cleanList hq d
  rw [hpinfo, hqinfo, hpchildren, hqchildren, h.markedInfo, h.markedChildren, h.isSome_info,
    h.children]
  exact ⟨Iff.rfl, Iff.rfl⟩

/-- The child lists stay the same. -/
lemma step_children (h : AlikeBut c p q) (hp : p.step env e = some (p', o))
    (hq : q.step env e = some (q', o')) (d : JLong) :
    q'.storage.getChildCoroutines d = p'.storage.getChildCoroutines d := by
  rw [Profiler.step_children hp d, Profiler.step_children hq d]
  simp only [h.locals, h.children, h.markedChildren]

/-- The ongoing traces stay the same. -/
lemma step_ongoing (h : AlikeBut c p q) (hp : p.step env e = some (p', o))
    (hq : q.step env e = some (q', o')) (k : JLong) :
    q'.storage.ongoingTraceInfoMap.at? k = p'.storage.ongoingTraceInfoMap.at? k := by
  have hended : ∀ ctx id, q.endedTrace ctx id = p.endedTrace ctx id := by
    intro ctx id
    rw [Profiler.endedTrace, Profiler.endedTrace, h.ongoing]
  rw [Profiler.step_ongoing hp k, Profiler.step_ongoing hq k, h.ongoing k]
  obtain ⟨ctx, call⟩ := e
  cases call with
  | traceEnd d =>
    dsimp only
    rw [hended]
    by_cases hnone : p.storage.getCoroutineInfo (Profiler.traceId env ctx.thread d) = none
    · rw [if_pos hnone, if_pos ((h.info_eq_none _).mpr hnone)]
    · rw [if_neg hnone, if_neg (mt (h.info_eq_none _).mp hnone)]
  | _ => rfl

/-- The GC events stay the same. -/
lemma step_gc (h : AlikeBut c p q) (hp : p.step env e = some (p', o))
    (hq : q.step env e = some (q', o')) :
    q'.storage.gcEvents = p'.storage.gcEvents ∧ q'.storage.gcHeap = p'.storage.gcHeap := by
  have hgp := Profiler.step_gc hp
  have hgq := Profiler.step_gc hq
  rw [h.gcEvents, h.gcHeap] at hgq
  obtain ⟨ctx, call⟩ := e
  cases call with
  | gcFinish =>
    obtain ⟨gcEvent, hlast, hevents, hheap⟩ := hgp
    obtain ⟨gcEvent', hlast', hevents', hheap'⟩ := hgq
    rw [hlast, Option.some.injEq] at hlast'
    subst hlast'
    exact ⟨hevents'.trans hevents.symm, hheap'.trans hheap.symm⟩
  | clean => exact ⟨hgq.2.1.trans hgp.2.1.symm, hgq.2.2.trans hgp.2.2.symm⟩
  | _ => exact ⟨hgq.1.trans hgp.1.symm, hgq.2.trans hgp.2.symm⟩

/-- The samples stay the same, in a step that is no `processTraces`. -/
lemma step_processed (h : AlikeBut c p q) (hp : p.step env e = some (p', o))
    (hq : q.step env e = some (q', o')) (hcall : e.call ≠ .processTraces) :
    q'.storage.rawList.list = p'.storage.rawList.list ∧
      q'.storage.processedMap = p'.storage.processedMap := by
  refine ⟨?_, ?_⟩
  · rw [Profiler.step_rawList hp hcall, Profiler.step_rawList hq hcall, h.rawList]
  · rw [Profiler.step_processedMap hp hcall, Profiler.step_processedMap hq hcall]
    simp only [TraceStorage.addProcessedTrace_processedMap, h.processed]

/-- **States that are alike stay alike.** -/
lemma step (hnp : Profiler.NamesCoherent env p) (hnq : Profiler.NamesCoherent env q)
    (h : AlikeBut c p q) (hp : p.step env e = some (p', o)) (hq : q.step env e = some (q', o')) :
    AlikeBut c p' q' := by
  obtain ⟨hother, haccounts⟩ := h.step_info hnp hnq hp hq
  obtain ⟨hgc, hheap⟩ := h.step_gc hp hq
  have hsamples : q'.storage.rawList.list = p'.storage.rawList.list ∧
      q'.storage.processedMap = p'.storage.processedMap := by
    by_cases hcall : e.call = .processTraces
    · have hp' : p.processTraces env = some (p', o) := by
        rw [← hp, Profiler.step, hcall]
      have hq' : q.processTraces env = some (q', o') := by
        rw [← hq, Profiler.step, hcall]
      obtain ⟨q'', hq'', hraw, hprocessed⟩ := Profiler.processTraces_congr hnp hnq h.threads
        h.rawList h.processed hp'
      rw [hq', Option.some.injEq, Prod.mk.injEq] at hq''
      rw [hq''.1]
      exact ⟨hraw, hprocessed⟩
    · exact h.step_processed hp hq hcall
  have hthreads : q'.threads = p'.threads := by
    rw [Profiler.step_threads hp, Profiler.step_threads hq]
    simp only [Profiler.addCurrentThread_threads, Profiler.addCurrentTraces_threads, h.threads]
  exact ⟨hthreads, h.step_locals hp hq, hother, haccounts, h.step_children hp hq,
    h.step_ongoing hp hq, hsamples.1, hsamples.2, hgc, hheap,
    fun d => (h.step_marked hp hq d).1, fun d => (h.step_marked hp hq d).2⟩

/-- **A step that is defined in a state is defined in every state that is alike.** -/
lemma exists_step (hnp : Profiler.NamesCoherent env p) (hnq : Profiler.NamesCoherent env q)
    (h : AlikeBut c p q) (hp : p.step env e = some (p', o)) :
    ∃ q' o', q.step env e = some (q', o') := by
  have hthread : ∀ t, q.findThread t = p.findThread t := by
    intro t
    rw [Profiler.findThread, h.threads, ← Profiler.findThread]
  obtain ⟨ctx, call⟩ := e
  cases call with
  | coroutineSuspended d stack => exact Profiler.exists_coroutineSuspended env q ctx d stack
  | traceStart d =>
    have hsome := Profiler.isSome_findThread hp (c := d) (Or.inl rfl)
    exact Profiler.exists_traceStart d (by rw [hthread]; exact hsome)
  | traceEnd d =>
    have hsome := Profiler.isSome_findThread hp (c := d) (Or.inr rfl)
    exact Profiler.exists_traceEnd d (by rw [hthread]; exact hsome)
  | gcFinish =>
    obtain ⟨gcEvent, hlast, -⟩ := Profiler.step_gc hp
    rw [← h.gcEvents] at hlast
    rw [Profiler.step]
    dsimp only
    rw [TraceStorage.gcFinish, ConcurrentList.back, hlast]
    exact ⟨_, _, rfl⟩
  | clean =>
    obtain ⟨hle, -⟩ := Profiler.step_gc hp
    rw [← h.gcEvents] at hle
    rw [Profiler.step]
    dsimp only
    rw [TraceStorage.clean, ConcurrentList.clean_eq, if_pos hle]
    exact ⟨_, _, rfl⟩
  | processTraces =>
    obtain ⟨q', hq', -⟩ := Profiler.processTraces_congr hnp hnq h.threads h.rawList h.processed hp
    exact ⟨q', o, hq'⟩
  | _ => exact ⟨_, _, rfl⟩

end AlikeBut

/-! ## A suspension that is reported again -/

/-- After a suspension of `c` on a thread, the thread runs no coroutine and `c` is not running. -/
lemma settled_of_suspended {env : Env} {c : JLong} {p p' : Profiler} {e : Event} {o : List Effect}
    {stack : Option (List JMethodID)} (hstep : p.step env e = some (p', o))
    (hcall : e.call = .coroutineSuspended c stack) :
    (p'.locals e.thread).currentCoroutineId = -1 ∧ p'.isRunning c = false := by
  refine ⟨?_, ?_⟩
  · rw [Profiler.step_currentCoroutineId hstep, hcall]
    exact if_pos rfl
  · obtain ⟨frames, hinfo⟩ := Profiler.step_info hstep
    rw [Profiler.isRunning, hinfo c, infoUpdate, hcall]
    dsimp only
    rw [if_pos rfl]
    cases p.storage.getCoroutineInfo c with
    | none => rfl
    | some info =>
      rw [Option.map_some, Option.any_some, lastResume_suspendedInfo, decide_eq_false_iff_not]
      split_ifs with hlast
      · exact lt_irrefl 0
      · exact hlast

/-- **A suspension that is reported again changes nothing but the suspensions of the coroutine**:
the thread runs no coroutine already, and nothing is credited because the coroutine is not
running. -/
lemma alikeBut_again {env : Env} {c : JLong} {p p' : Profiler} {ctx : Context} {o : List Effect}
    {stack : Option (List JMethodID)}
    (hstep : p.step env ⟨ctx, .coroutineSuspended c stack⟩ = some (p', o))
    (hcurrent : (p.locals ctx.thread).currentCoroutineId = -1) (hrunning : p.isRunning c = false) :
    AlikeBut c p p' := by
  have hlocals : p'.locals = p.locals := by
    have hsuspended : p'.locals = p.suspendedLocals ctx c := Profiler.step_locals hstep
    rw [hsuspended, Profiler.suspendedLocals, hrunning, ← hcurrent]
    exact Function.update_eq_self ctx.thread p.locals
  obtain ⟨frames, hinfo⟩ := Profiler.step_info hstep
  have haccounts : (p'.storage.getCoroutineInfo c).map CoroutineInfo.accounts =
      (p.storage.getCoroutineInfo c).map CoroutineInfo.accounts := by
    rw [Profiler.isRunning] at hrunning
    rw [hinfo c]
    simp only [infoUpdate, if_true]
    cases hold : p.storage.getCoroutineInfo c with
    | none => rfl
    | some info =>
      rw [hold, Option.any_some, decide_eq_false_iff_not] at hrunning
      rw [Option.map_some, Option.map_some, suspendedInfo, pausedInfo, if_neg hrunning]
      cases frames <;> rfl
  have hother : ∀ d, d ≠ c → p'.storage.getCoroutineInfo d = p.storage.getCoroutineInfo d := by
    intro d hd
    rw [hinfo d]
    exact if_neg hd
  obtain ⟨hgc, hheap⟩ := Profiler.step_gc hstep
  have hraw : p'.storage.rawList.list = p.storage.rawList.list ++ [] :=
    Profiler.step_rawList hstep (by simp)
  have hprocessed : p'.storage.processedMap = p.storage.processedMap :=
    Profiler.step_processedMap hstep (by simp)
  refine ⟨Profiler.step_threads hstep, hlocals, hother, haccounts,
    fun d => Profiler.step_children hstep d, fun k => Profiler.step_ongoing hstep k,
    by rw [hraw, List.append_nil], hprocessed, hgc, hheap, fun d => ?_, fun d => ?_⟩
  · rw [(Profiler.step_cleanList hstep d).1]
    simp
  · rw [(Profiler.step_cleanList hstep d).2.1]
    simp

/-! ## Two runs -/

/-- **Suspensions that are reported again change nothing else.** For every run, and every list of
events in which suspensions of `c` are reported again, any number of times, directly after a
suspension of `c` on the same thread, with any clock, usage and stack: the events run to their
end, and the two final states differ in the recorded suspensions of `c` only. In particular every
record has the same times and counters, and the child lists, the ongoing traces, and the current
coroutine and the last usage of every thread are the same.

**Proof sketch.** Induction on how the longer list arises. A common event keeps the states alike
(`AlikeBut.step`). After a suspension of `c` the thread runs no coroutine and `c` is not running, so
another suspension leaves the state alike to itself (`alikeBut_again`). -/
theorem chain_insensitive {env : Env} {c : JLong} {es es' : List Event} {p : Profiler}
    (hchain : Chained c es es') (hrun : (machine env).Reaches es p) :
    ∃ p', (machine env).Reaches es' p' ∧ AlikeBut c p p' := by
  induction hchain generalizing p with
  | nil => exact ⟨p, hrun, AlikeBut.refl c p⟩
  | event e h ih =>
    obtain ⟨q, o, hq, hstep⟩ := (machine env).reaches_concat.mp hrun
    obtain ⟨q', hq', halike⟩ := ih hq
    have hnames := Profiler.namesCoherent_of_reaches hq
    have hnames' := Profiler.namesCoherent_of_reaches hq'
    obtain ⟨p', o', hstep'⟩ := halike.exists_step hnames hnames' hstep
    exact ⟨p', (machine env).reaches_concat.mpr ⟨q', o', hq', hstep'⟩,
      halike.step hnames hnames' hstep hstep'⟩
  | @again es es' e₁ e₂ stack₁ stack₂ h h₁ h₂ hthread ih =>
    obtain ⟨q', hq', halike⟩ := ih hrun
    obtain ⟨q, o, -, hstep⟩ := (machine env).reaches_concat.mp hq'
    obtain ⟨hcurrent, hrunning⟩ := settled_of_suspended hstep h₁
    obtain ⟨ctx, call⟩ := e₂
    have hcall : call = .coroutineSuspended c stack₂ := h₂
    subst hcall
    obtain ⟨p', o', hstep'⟩ := Profiler.exists_coroutineSuspended env q' ctx c stack₂
    have hsettled : (q'.locals ctx.thread).currentCoroutineId = -1 := by
      have hsame : ctx.thread = e₁.thread := hthread
      rw [hsame, hcurrent]
    have hagain := alikeBut_again hstep' hsettled hrunning
    exact ⟨p', (machine env).reaches_concat.mpr ⟨q', o', hq', hstep'⟩, halike.trans hagain⟩

/-- A coroutine that is suspended once, resumed, and completed. -/
def unchainedRun : List Event :=
  [(Call.coroutineCreated 7).at 1 1, (Call.coroutineSuspended 7 (some [1])).at 1 3,
    (Call.coroutineResumed 7).at 1 5, (Call.coroutineCompleted 7).at 1 8]

/-- The run in which the suspension is reported twice ends alike, also in the account of the
coroutine: it ran for 2 until the suspension and for 3 until its completion. -/
theorem chain_insensitive_unchainedRun :
    ∃ p p', (machine .sample).Reaches unchainedRun p ∧ (machine .sample).Reaches chainedRun p' ∧
      AlikeBut 7 p p' ∧
      (p'.storage.getCoroutineInfo 7).map CoroutineInfo.wallClockRunningTime = some 5 := by
  have hchain : Chained 7 unchainedRun chainedRun := by
    have hsuspended := ((Chained.nil (c := 7)).event ((Call.coroutineCreated 7).at 1 1)).event
      ((Call.coroutineSuspended 7 (some [1])).at 1 3)
    have hagain := @Chained.again 7 _ _ _ ((Call.coroutineSuspended 7 (some [1])).at 1 3) _ _
      hsuspended rfl rfl rfl
    exact (hagain.event ((Call.coroutineResumed 7).at 1 5)).event
      ((Call.coroutineCompleted 7).at 1 8)
  have hexec : ((machine .sample).exec (machine .sample).init unchainedRun).map
      (fun q => (q.1.storage.getCoroutineInfo 7).map CoroutineInfo.wallClockRunningTime) =
      some (some 5) := by decide
  obtain ⟨l, p, hrun, hes, hwall⟩ := LogMachine.exists_run_of_map_exec hexec
  have hreaches : (machine .sample).Reaches unchainedRun p := ⟨l, hrun, hes⟩
  obtain ⟨p', hp', halike⟩ := chain_insensitive hchain hreaches
  refine ⟨p, p', hreaches, hp', halike, ?_⟩
  rw [halike.map_info (fun _ => rfl)]
  exact hwall

end KotlinTracer
