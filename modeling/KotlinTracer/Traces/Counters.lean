import KotlinTracer.Profiler.Steps

set_option relaxedAutoImplicit false
set_option autoImplicit false

/-!
# The trace counters of the threads

`traceStart` increments `current_traces` of the thread that executes it, and `traceEnd` decrements
the counter of the thread that executes *it*. A coroutine may be resumed on another thread in
between; then one counter stays positive, so that the sampler goes on sampling an idle thread, and
the other becomes negative. A `traceStart` that throws has incremented the counter before.

## Main definitions

* `KotlinTracer.openTraces` — the traces that are started and not ended, from the log, with the
  threads that started them.
* `KotlinTracer.TraceEndMatched`, `KotlinTracer.OnRunningThread` — how the callbacks are called.
* `KotlinTracer.TraceKeepsThread` — a trace ends where it started, and starts when it is not
  ongoing.

## Main results

* `KotlinTracer.currentTraces_eq_openTraces` — in a run in which traces keep their thread, a
  counter is the number of open traces that its thread started.
* `KotlinTracer.currentTraces_nonneg` — so it is never negative, and zero when no trace is open.
* `KotlinTracer.currentTraces_migration` — a trace whose coroutine migrates breaks both counters.
-/

namespace KotlinTracer

/-! ## Open traces, from the log -/

/-- Whether a step threw. -/
def threw (o : List Effect) : Bool :=
  o.any fun
    | .threw _ => true
    | _ => false

/-- The open traces after one more step: a `traceStart` that does not throw opens one, a
`traceEnd` closes the one of its id. -/
def openTracesStep (env : Env) (open_ : List (JLong × PThread)) (x : Event × List Effect) :
    List (JLong × PThread) :=
  match x.1.call with
  | .traceStart c =>
    if threw x.2 then open_ else (Profiler.traceId env x.1.thread c, x.1.thread) :: open_
  | .traceEnd c => open_.eraseP fun y => y.1 = Profiler.traceId env x.1.thread c
  | _ => open_

/-- The traces that are started and not ended, each with the thread that started it. -/
def openTraces (env : Env) (l : Log) : List (JLong × PThread) :=
  l.foldl (openTracesStep env) []

/-- The thread on which a coroutine runs, after one more event. -/
def runningOnStep (c : JLong) (thread : Option PThread) (e : Event) : Option PThread :=
  match e.call with
  | .coroutineResumed d => if d = c then some e.thread else thread
  | .coroutineSuspended d _ => if d = c then none else thread
  | .coroutineCompleted d => if d = c then none else thread
  | _ => thread

/-- The thread on which a coroutine runs: the one that resumed it last, until it is suspended or
completed. -/
def runningOn (c : JLong) (es : List Event) : Option PThread := es.foldl (runningOnStep c) none

/-- Every `traceEnd` ends an open trace. -/
def TraceEndMatched (env : Env) (l : Log) (_ : Profiler) (e : Event) : Prop :=
  match e.call with
  | .traceEnd c => ∃ y ∈ openTraces env l, y.1 = Profiler.traceId env e.thread c
  | _ => True

/-- A trace of a coroutine is started and ended on the thread on which the coroutine runs; the id
`-2` stands for the thread itself. -/
def OnRunningThread (l : Log) (_ : Profiler) (e : Event) : Prop :=
  match e.call with
  | .traceStart c => c = -2 ∨ runningOn c (l.map Prod.fst) = some e.thread
  | .traceEnd c => c = -2 ∨ runningOn c (l.map Prod.fst) = some e.thread
  | _ => True

/-- A trace is started only when it is not ongoing, and ended on the thread that started it. -/
def TraceKeepsThread (env : Env) (l : Log) (p : Profiler) (e : Event) : Prop :=
  match e.call with
  | .traceStart c =>
    p.storage.ongoingTraceInfoMap.at? (Profiler.traceId env e.thread c) = none
  | .traceEnd c =>
    ∀ y ∈ openTraces env l, y.1 = Profiler.traceId env e.thread c → y.2 = e.thread
  | _ => True

instance (env : Env) (l : Log) (p : Profiler) (e : Event) :
    Decidable (TraceEndMatched env l p e) := by
  unfold TraceEndMatched
  split <;> infer_instance

instance (l : Log) (p : Profiler) (e : Event) : Decidable (OnRunningThread l p e) := by
  unfold OnRunningThread
  split <;> infer_instance

instance (env : Env) (l : Log) (p : Profiler) (e : Event) :
    Decidable (TraceKeepsThread env l p e) := by
  unfold TraceKeepsThread
  split <;> infer_instance

/-! ## Counters of a thread list -/

/-- The number of open traces that a thread started. -/
def openCount (open_ : List (JLong × PThread)) (t : PThread) : ℤ :=
  (open_.countP fun y => y.2 = t : ℕ)

/-- The counters of a thread list are `n`: the first info of a thread, which `findThread` returns,
has the count of the thread, and infos of the same thread behind it have none. -/
def CountersAre (n : PThread → ℤ) : List ThreadInfo → Prop
  | [] => ∀ t, n t = 0
  | x :: l => x.currentTraces = n x.id ∧ CountersAre (Function.update n x.id 0) l

namespace CountersAre

variable {n : PThread → ℤ} {l : List ThreadInfo} {t : PThread}

/-- Adding to the counter of the info that `findThread` returns. -/
lemma updateFirst (h : CountersAre n l) (ht : ∃ x ∈ l, x.id = t) (a : ℤ) :
    CountersAre (Function.update n t (n t + a))
      (ConcurrentList.updateFirstIn (Profiler.isThread t)
        (fun x => { x with currentTraces := x.currentTraces + a }) l) := by
  induction l generalizing n with
  | nil =>
    obtain ⟨x, hx, _⟩ := ht
    cases hx
  | cons x l ih =>
    obtain ⟨hx, hl⟩ := h
    rw [ConcurrentList.updateFirstIn]
    by_cases hid : x.id = t
    · subst hid
      have hfirst : Profiler.isThread x.id x = true := by simp [Profiler.isThread]
      rw [if_pos hfirst]
      refine ⟨?_, ?_⟩
      · change x.currentTraces + a = Function.update n x.id (n x.id + a) x.id
        rw [Function.update_self, hx]
      · change CountersAre (Function.update (Function.update n x.id (n x.id + a)) x.id 0) l
        rw [Function.update_idem]
        exact hl
    · have hother : ¬ Profiler.isThread t x = true := by simpa [Profiler.isThread] using hid
      have hrest : ∃ y ∈ l, y.id = t := by
        obtain ⟨y, hy, hyt⟩ := ht
        rcases List.mem_cons.mp hy with rfl | hy
        · exact absurd hyt hid
        · exact ⟨y, hy, hyt⟩
      rw [if_neg hother]
      refine ⟨?_, ?_⟩
      · rw [Function.update_of_ne hid]
        exact hx
      · have hih := ih hl hrest
        rw [Function.update_of_ne (Ne.symm hid)] at hih
        rw [Function.update_comm (Ne.symm hid)]
        exact hih

/-- A new thread has no traces. -/
lemma append_new {x : ThreadInfo} (h : CountersAre n l) (hx : x.currentTraces = 0) :
    CountersAre n (l ++ [x]) := by
  induction l generalizing n with
  | nil =>
    refine ⟨hx.trans (h x.id).symm, fun t => ?_⟩
    by_cases ht : t = x.id
    · rw [ht, Function.update_self]
    · rw [Function.update_of_ne ht]
      exact h t
  | cons y l ih => exact ⟨h.1, ih h.2⟩

/-- Each counter is the count of its thread, or zero. -/
lemma eq_or_eq_zero {x : ThreadInfo} (h : CountersAre n l) (hx : x ∈ l) :
    x.currentTraces = n x.id ∨ x.currentTraces = 0 := by
  induction l generalizing n with
  | nil => cases hx
  | cons y l ih =>
    rcases List.mem_cons.mp hx with rfl | hx
    · exact Or.inl h.1
    · rcases ih h.2 hx with heq | hzero
      · by_cases hid : x.id = y.id
        · rw [hid, Function.update_self] at heq
          exact Or.inr heq
        · rw [Function.update_of_ne hid] at heq
          exact Or.inl heq
      · exact Or.inr hzero

end CountersAre

/-! ## Counts of open traces -/

/-- Counts are not negative. -/
lemma openCount_nonneg (open_ : List (JLong × PThread)) (t : PThread) : 0 ≤ openCount open_ t :=
  Int.natCast_nonneg _

/-- Opening a trace adds one to the count of its thread. -/
lemma openCount_cons (y : JLong × PThread) (open_ : List (JLong × PThread)) :
    openCount (y :: open_) = Function.update (openCount open_) y.2 (openCount open_ y.2 + 1) := by
  funext t
  by_cases ht : t = y.2
  · subst ht
    simp [openCount]
  · simp [openCount, ht, Ne.symm ht]

/-- Closing a trace takes one from the count of the thread that started it. -/
lemma openCount_eraseP {id : JLong} {t : PThread} {open_ : List (JLong × PThread)}
    (hmatched : ∃ y ∈ open_, y.1 = id) (hthread : ∀ y ∈ open_, y.1 = id → y.2 = t) :
    openCount (open_.eraseP fun y => y.1 = id) =
      Function.update (openCount open_) t (openCount open_ t + -1) := by
  obtain ⟨y, hy, hid⟩ := hmatched
  obtain ⟨z, l₁, l₂, _, hz, hopen, herase⟩ :=
    List.exists_of_eraseP (p := fun y : JLong × PThread => y.1 = id) hy (by simpa using hid)
  have hzt : z.2 = t := hthread z (by rw [hopen]; simp) (by simpa using hz)
  rw [herase, hopen]
  funext t'
  by_cases ht : t' = t
  · subst ht
    simp only [openCount, List.countP_append, List.countP_cons, hzt, decide_true, if_true,
      Function.update_self, Nat.cast_add, Nat.cast_one]
    omega
  · have hne : ¬ z.2 = t' := by rw [hzt]; exact Ne.symm ht
    simp [openCount, ht, hne]

/-! ## Runs -/

/-- The open traces after one more step. -/
lemma openTraces_concat (env : Env) (l : Log) (x : Event × List Effect) :
    openTraces env (l ++ [x]) = openTracesStep env (openTraces env l) x := by
  simp [openTraces]

/-- A step that starts a trace that is not ongoing does not throw. -/
lemma threw_eq_false {env : Env} {p p' : Profiler} {e : Event} {o : List Effect} {c : JLong}
    (hstep : p.step env e = some (p', o)) (hcall : e.call = .traceStart c)
    (h : p.storage.ongoingTraceInfoMap.at? (Profiler.traceId env e.thread c) = none) :
    threw o = false := by
  have hno : ¬ ∃ message, .threw message ∈ o := by
    rw [Profiler.exists_threw_iff hstep]
    rintro ⟨d, hd, hne⟩
    rw [hcall, Call.traceStart.injEq] at hd
    subst hd
    exact hne h
  rw [threw, List.any_eq_false]
  intro x hx
  cases x with
  | threw message => exact absurd ⟨message, hx⟩ hno
  | _ => simp

/-- The thread of a step is registered, so its info is in the list. -/
lemma exists_mem_threads {env : Env} {p p' : Profiler} {e : Event} {o : List Effect} {c : JLong}
    (hstep : p.step env e = some (p', o))
    (hcall : e.call = .traceStart c ∨ e.call = .traceEnd c) :
    ∃ x ∈ p.threads.list, x.id = e.thread := by
  obtain ⟨x, hx⟩ := Option.isSome_iff_exists.mp (Profiler.isSome_findThread hstep hcall)
  have hid := List.find?_some hx
  rw [Profiler.isThread, beq_iff_eq] at hid
  exact ⟨x, List.mem_of_find?_eq_some hx, hid⟩

/-- **One step keeps the counters equal to the numbers of open traces**, if it keeps the thread of
its trace. -/
lemma countersAre_step {env : Env} {l : Log} {p p' : Profiler} {e : Event} {o : List Effect}
    (hstep : p.step env e = some (p', o)) (hmatched : TraceEndMatched env l p e)
    (hkeeps : TraceKeepsThread env l p e)
    (h : CountersAre (openCount (openTraces env l)) p.threads.list) :
    CountersAre (openCount (openTraces env (l ++ [(e, o)]))) p'.threads.list := by
  rw [openTraces_concat, Profiler.step_threads hstep]
  unfold openTracesStep
  unfold TraceEndMatched at hmatched
  unfold TraceKeepsThread at hkeeps
  cases hcall : e.call with
  | threadStart name stackLo stackHi => exact h.append_new rfl
  | traceStart c =>
    rw [hcall] at hkeeps
    have hthrew := threw_eq_false hstep hcall hkeeps
    simp only [hthrew, Bool.false_eq_true, if_false]
    rw [openCount_cons]
    exact h.updateFirst (exists_mem_threads hstep (Or.inl hcall)) 1
  | traceEnd c =>
    rw [hcall] at hmatched hkeeps
    rw [openCount_eraseP hmatched hkeeps]
    exact h.updateFirst (exists_mem_threads hstep (Or.inr hcall)) (-1)
  | _ => exact h

/-- **In a run in which traces keep their thread, the counter of a thread is the number of open
traces that it started.** -/
lemma currentTraces_eq_openTraces {env : Env} {l : Log} {p : Profiler} (hrun : Run env l p)
    (hmatched : (machine env).EveryStep (TraceEndMatched env) l)
    (hkeeps : (machine env).EveryStep (TraceKeepsThread env) l) :
    CountersAre (openCount (openTraces env l)) p.threads.list := by
  refine LogMachine.RunFrom.invariant (I := fun l p =>
    (machine env).EveryStep (TraceEndMatched env) l →
    (machine env).EveryStep (TraceKeepsThread env) l →
    CountersAre (openCount (openTraces env l)) p.threads.list) ?_ ?_ hrun hmatched hkeeps
  · intro _ _ t
    rfl
  · intro l p e o p' hrun ih hstep hmatched hkeeps
    obtain ⟨hmatched, hm⟩ := ((machine env).everyStep_concat hrun).mp hmatched
    obtain ⟨hkeeps, hk⟩ := ((machine env).everyStep_concat hrun).mp hkeeps
    exact countersAre_step hstep hm hk (ih hmatched hkeeps)

/-- **Counters are never negative, and zero when no trace is open.** In every run in which every
`traceEnd` ends an open trace, on the thread that started it, and no `traceStart` finds its trace
ongoing, at every point every counter is at least zero; when no trace is open every counter is
zero and the sampler samples no thread. -/
theorem currentTraces_nonneg {env : Env} {l : Log} {p : Profiler} (hrun : Run env l p)
    (hmatched : (machine env).EveryStep (TraceEndMatched env) l)
    (hkeeps : (machine env).EveryStep (TraceKeepsThread env) l) :
    (∀ x ∈ p.threads.list, 0 ≤ x.currentTraces) ∧
      (openTraces env l = [] →
        (∀ x ∈ p.threads.list, x.currentTraces = 0) ∧ p.sampledThreads = []) := by
  have hcounters := currentTraces_eq_openTraces hrun hmatched hkeeps
  refine ⟨fun x hx => ?_, fun hopen => ?_⟩
  · rcases hcounters.eq_or_eq_zero hx with heq | hzero
    · rw [heq]
      exact openCount_nonneg _ _
    · rw [hzero]
  · have hzero : ∀ x ∈ p.threads.list, x.currentTraces = 0 := by
      intro x hx
      rw [hopen] at hcounters
      rcases hcounters.eq_or_eq_zero hx with heq | hzero
      · exact heq
      · exact hzero
    refine ⟨hzero, ?_⟩
    rw [Profiler.sampledThreads, List.filter_eq_nil_iff]
    intro x hx
    simp [hzero x hx]

/-- A traced coroutine that is suspended and resumed on the same thread. -/
def stayingTrace : List Event :=
  [(Call.threadStart "worker-1" 0 0).at 1 1, (Call.threadStart "worker-2" 0 0).at 2 1,
    (Call.coroutineCreated 7).at 1 2, (Call.coroutineResumed 7).at 1 3, (Call.traceStart 7).at 1 4,
    (Call.coroutineSuspended 7 (some [1])).at 1 5, (Call.coroutineResumed 7).at 1 6,
    (Call.traceEnd 7).at 1 7]

/-- After that run no trace is open and no thread is sampled. -/
theorem currentTraces_stayingTrace :
    ∃ l p, Run .sample l p ∧ l.map Prod.fst = stayingTrace ∧ openTraces .sample l = [] ∧
      p.sampledThreads = [] := by
  have hexec : ((machine .sample).exec (machine .sample).init stayingTrace).map
      (fun q => openTraces .sample q.2) = some [] := by decide
  obtain ⟨l, p, hrun, hes, hopen⟩ := LogMachine.exists_run_of_map_exec hexec
  have hmatched : (machine .sample).EveryStep
      (fun l p e => decide (TraceEndMatched .sample l p e) = true) l :=
    LogMachine.everyStep_of_check hrun (by rw [hes]; decide)
  have hkeeps : (machine .sample).EveryStep
      (fun l p e => decide (TraceKeepsThread .sample l p e) = true) l :=
    LogMachine.everyStep_of_check hrun (by rw [hes]; decide)
  simp only [decide_eq_true_eq] at hmatched hkeeps
  exact ⟨l, p, hrun, hes, hopen, ((currentTraces_nonneg hrun hmatched hkeeps).2 hopen).2⟩

/-- A traced coroutine that is suspended and resumed on another thread. -/
def migratingTrace : List Event :=
  [(Call.threadStart "worker-1" 0 0).at 1 1, (Call.threadStart "worker-2" 0 0).at 2 1,
    (Call.coroutineCreated 7).at 1 2, (Call.coroutineResumed 7).at 1 3, (Call.traceStart 7).at 1 4,
    (Call.coroutineSuspended 7 (some [1])).at 1 5, (Call.coroutineResumed 7).at 2 6,
    (Call.traceEnd 7).at 2 7]

/-- **A migrating trace breaks both counters**: every call is made on the thread on which the
coroutine runs and no trace is open at the end, but the counter of the first thread is one, so
that it is sampled, and that of the second is minus one. -/
theorem currentTraces_migration :
    ∃ l p, Run .sample l p ∧ l.map Prod.fst = migratingTrace ∧
      (machine .sample).EveryStep (TraceEndMatched .sample) l ∧
      (machine .sample).EveryStep OnRunningThread l ∧ openTraces .sample l = [] ∧
      p.threads.list.map ThreadInfo.currentTraces = [1, -1] ∧ p.sampledThreads ≠ [] := by
  have hexec : ((machine .sample).exec (machine .sample).init migratingTrace).map
      (fun q => (openTraces .sample q.2, q.1.threads.list.map ThreadInfo.currentTraces,
        q.1.sampledThreads.length)) = some ([], [1, -1], 1) := by decide
  obtain ⟨l, p, hrun, hes, hend⟩ := LogMachine.exists_run_of_map_exec hexec
  simp only [Prod.mk.injEq] at hend
  obtain ⟨hopen, hcounters, hsampled⟩ := hend
  have hmatched : (machine .sample).EveryStep
      (fun l p e => decide (TraceEndMatched .sample l p e) = true) l :=
    LogMachine.everyStep_of_check hrun (by rw [hes]; decide)
  have hthread : (machine .sample).EveryStep
      (fun l p e => decide (OnRunningThread l p e) = true) l :=
    LogMachine.everyStep_of_check hrun (by rw [hes]; decide)
  simp only [decide_eq_true_eq] at hmatched hthread
  refine ⟨l, p, hrun, hes, hmatched, hthread, hopen, hcounters, fun hnil => ?_⟩
  rw [hnil] at hsampled
  cases hsampled

end KotlinTracer
