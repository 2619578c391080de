import KotlinTracer.Profiler.Uninterrupted

set_option relaxedAutoImplicit false
set_option autoImplicit false

/-!
# The callbacks are atomic

The results about runs of the profiler take a callback as one step. The source has no lock around a
callback: its sections are interleaved with those of the callbacks on other threads. Here the two
are connected. Callbacks that do not conflict while they overlap have the effects of atomic
callbacks, in the order in which they end. In particular, coroutines run on one thread at a time,
and the callbacks of coroutines that run at the same time, on different threads, do not conflict.

## Main definitions

* `KotlinTracer.atomicLog` — the calls as atomic steps.
* `KotlinTracer.Interleaved.Invocation.cells` — the cells that a call may access.

## Main results

* `KotlinTracer.callbacks_atomic` — callbacks whose sections do not conflict are atomic.
* `KotlinTracer.disjoint_callbacks_atomic` — callbacks that are on disjoint cells while they overlap
  are atomic, and `KotlinTracer.Interleaved.Invocation.disjoint_cells` for those of different
  coroutines on different threads.
-/

namespace KotlinTracer

open Interleaved

/-! ## Interleaved callbacks -/

/-- The log of the calls as atomic steps. -/
def atomicLog (calls : List (Invocation × List Effect)) : Log :=
  calls.map fun x => (x.1.event, x.2)

/-- Calls that are executed one after the other are steps of the profiler, if the readings of each
call give one time.

**Proof sketch.** Induction on the run; the caches are coherent in every run. -/
lemma exists_run_of_serial {env : Env} {calls : List (Invocation × List Effect)} {s : Cells}
    (hrun : (CellProgram.serial (program env) ({} : Profiler).cells).Run calls s)
    (hinstant : ∀ x ∈ calls, x.1.Instant) :
    ∃ p, Run env (atomicLog calls) p ∧ s = p.cells := by
  refine LogMachine.RunFrom.invariant (I := fun calls s => (∀ x ∈ calls, x.1.Instant) →
    ∃ p, Run env (atomicLog calls) p ∧ s = p.cells) ?_ ?_ hrun hinstant
  · exact fun _ => ⟨{}, (LogMachine.runFrom_nil _).mpr rfl, rfl⟩
  · intro calls s i o s' _ ih hstep hall
    obtain ⟨p, hp, rfl⟩ := ih fun x hx => hall x (List.mem_append_left _ hx)
    obtain ⟨p', hp', rfl⟩ := Profiler.of_run_program (Profiler.namesCoherent_of_run hp)
      (hall (i, o) (List.mem_append_right _ (List.mem_singleton_self _))) hstep
    refine ⟨p', ?_, rfl⟩
    rw [atomicLog, List.map_append]
    exact (LogMachine.runFrom_concat _).mpr ⟨p, hp, hp'⟩

/-- **Callbacks that keep apart are atomic.** In every interleaving of the sections of callbacks on
any number of threads in which no section reads a cell that another callback in progress has
updated, or updates one that it has accessed, the callbacks that have ended have the effects that
they have when they are executed one after the other, in the order in which they ended, and the
cells that no callback in progress has updated hold the same values. If the readings of each call
give one time, this is a run of the atomic callbacks. -/
theorem callbacks_atomic (env : Env)
    {l : List ((ℕ × CellProgram.Action Invocation) × List (Invocation × List Effect))}
    {c : ThreadSystem.Conf Cells (CellProgram.Position Cell.Value Invocation Effect)}
    (hrun : (interleaved env).machine.Run l c)
    (hsteps : (interleaved env).machine.EveryStep CellProgram.Separate l) :
    ∃ a, (CellProgram.serial (program env) ({} : Profiler).cells).Run (CellProgram.completed l) a ∧
      (∀ k, (∀ t, k ∉ (c.threads t).footprint.writes) → c.shared k = a k) ∧
      ((∀ x ∈ CellProgram.completed l, x.1.Instant) →
        ∃ p, Run env (atomicLog (CellProgram.completed l)) p ∧ a = p.cells) := by
  obtain ⟨a, ha, huntouched⟩ := CellProgram.exists_serial hrun hsteps
  exact ⟨a, ha, huntouched, exists_run_of_serial ha⟩

/-- A call with one time and enough iterations. -/
def Interleaved.Invocation.at (call : Call) (thread : PThread) (now : TraceTime) : Invocation where
  thread := thread
  call := call
  clock := fun _ => now
  rusage := {}
  iterations := 8

/-- Two threads create a coroutine each and resume it, section by section in turn. -/
def sampleInterleaving : List (ℕ × CellProgram.Action Invocation) :=
  [(1, .call (.at (.coroutineCreated 5) 1 10)), (2, .call (.at (.coroutineCreated 6) 2 11)),
    (1, .go), (2, .go), (1, .go), (2, .go), (1, .go), (2, .go), (1, .go), (2, .go),
    (2, .go), (2, .call (.at (.coroutineResumed 6) 2 12)), (2, .go), (2, .go), (1, .go)]

/-- The two coroutines are created one after the other, the second one first, while the second one
is already being resumed. -/
theorem sampleInterleaving_atomic :
    ∃ l c p, (interleaved .sample).machine.Run l c ∧ l.map Prod.fst = sampleInterleaving ∧
      Run .sample (atomicLog (CellProgram.completed l)) p ∧
      (atomicLog (CellProgram.completed l)).map Prod.fst =
        [(Call.coroutineCreated 6).at 2 11, (Call.coroutineCreated 5).at 1 10] ∧
      (p.storage.getCoroutineInfo 5).map CoroutineInfo.start = some 10 := by
  have hexec : ((interleaved .sample).machine.exec (interleaved .sample).machine.init
      sampleInterleaving).map (fun q => (CellProgram.completed q.2,
        (q.1.shared (.entry .coroutineInfo 5)).map CoroutineInfo.start,
        (q.1.threads 1).footprint.writes, (q.1.threads 2).footprint.writes)) =
      some ([(.at (.coroutineCreated 6) 2 11, []), (.at (.coroutineCreated 5) 1 10, [])], some 10,
        [], [.currentCoroutineId 2]) := rfl
  obtain ⟨l, c, hrun, hes, hb⟩ := LogMachine.exists_run_of_map_exec hexec
  simp only [Prod.mk.injEq] at hb
  obtain ⟨hcompleted, hstart, hone, htwo⟩ := hb
  have hthreads : ∀ e ∈ l.map Prod.fst, e.1 ∈ [1, 2] := by
    rw [hes]
    decide
  have hsteps := CellProgram.everyStep_separate_of_check [1, 2] hrun hthreads
    (by rw [hes]; decide)
  obtain ⟨a, -, huntouched, hatomic⟩ := callbacks_atomic .sample hrun hsteps
  obtain ⟨p, hp, rfl⟩ := hatomic (by
    rw [hcompleted]
    intro x hx
    simp only [List.mem_cons, List.not_mem_nil, or_false] at hx
    rcases hx with rfl | rfl <;> exact fun _ => rfl)
  refine ⟨l, c, p, hrun, hes, hp, by rw [hcompleted]; rfl, ?_⟩
  have hinfo := huntouched (.entry .coroutineInfo 5) fun t => ?_
  · change Option.map CoroutineInfo.start (p.cells (.entry .coroutineInfo 5)) = _
    rw [← hinfo, hstart]
  · by_cases ht : t ∈ [1, 2]
    · simp only [List.mem_cons, List.not_mem_nil, or_false] at ht
      rcases ht with rfl | rfl
      · rw [hone]
        exact List.not_mem_nil
      · rw [htwo]
        decide
    · have hidle : c.threads t = .idle := ThreadSystem.threads_eq_start hrun fun e he heq =>
        ht (heq ▸ hthreads e.1 (List.mem_map_of_mem he))
      rw [hidle]
      exact List.not_mem_nil

/-! ## The cells of a call -/

namespace Interleaved

/-- The cells that a call may access. A call that creates a coroutine may add it to any child list,
and the export reads all cells. -/
def Invocation.cells (env : Env) (i : Invocation) : Set Cell :=
  match i.call with
  | .threadStart _ _ _ => {.threadInfo i.thread}
  | .coroutineCreated c =>
    {.currentCoroutineId i.thread, .entry .coroutineInfo c} ∪
      Set.range (Cell.entry .childCoroutines)
  | .coroutineSuspended c _ | .coroutineResumed c | .coroutineCompleted c =>
    {.currentCoroutineId i.thread, .currentRusage i.thread, .entry .coroutineInfo c}
  | .traceStart c =>
    {.threadInfo i.thread, .entry .coroutineInfo (Profiler.traceId env i.thread c),
      .entry .childCoroutines (Profiler.traceId env i.thread c),
      .entry .ongoingTraceInfo (Profiler.traceId env i.thread c)}
  | .gcStart | .gcFinish => {.gcEvents}
  | .addRawTrace _ _ => {.rawList}
  | .addProcessedTrace c _ => {.entry .processed c}
  | .traceEnd _ | .processTraces | .markForClean | .clean => Set.univ

section Within

variable {S : Set Cell} {map : StorageMap} {c : JLong} {t : PThread}

lemma within_contains (h : .entry map c ∈ S) : (contains map c).Within S S := .observe h

lemma within_get (h : .entry map c ∈ S) : (get map c).Within S S := .observe h

lemma within_load (h : .entry map c ∈ S) : (load map c).Within S S := .observe h

lemma within_update (h : .entry map c ∈ S) (f : map.Value → map.Value) :
    (update map c f).Within S S := .perform h

lemma within_insert (h : .entry map c ∈ S) (value : map.Value) : (insert map c value).Within S S :=
  .perform h

lemma within_getCoroutineInfo (h : .entry .coroutineInfo c ∈ S) :
    (getCoroutineInfo c).Within S S := by
  refine (within_contains h).bind fun b => .ite (fun _ => ?_) fun _ => .pure _
  exact (within_get h).bind fun _ => .pure _

lemma within_createCoroutineInfo (h : .entry .coroutineInfo c ∈ S) (start lastResume : TraceTime) :
    (createCoroutineInfo c start lastResume).Within S S := by
  refine (within_contains h).bind fun b => .ite (fun _ => .pure _) fun _ => ?_
  exact (within_insert h _).bind fun _ => .pure _

lemma within_calculateResourceUsage (h : .entry .coroutineInfo c ∈ S) (hr : .currentRusage t ∈ S)
    (now : TraceTime) (rusage : RUsage) : (calculateResourceUsage t c now rusage).Within S S := by
  have hadd : ∀ {β : Type} (sum : CoroutineInfo → β) (store : β → CoroutineInfo → CoroutineInfo),
      (addTo c sum store).Within S S := fun sum store =>
    (within_load h).bind fun _ => within_update h _
  refine (within_load h).bind fun _ => (hadd _ _).bind fun _ => ?_
  refine (CellProgram.Within.observe hr).bind fun _ => ?_
  refine (CellProgram.Within.perform hr).bind fun _ => ?_
  exact (hadd _ _).bind fun _ => (hadd _ _).bind fun _ => (hadd _ _).bind fun _ =>
    (hadd _ _).bind fun _ => .pure _

lemma within_coroutineCreated (ht : .currentCoroutineId t ∈ S) (h : .entry .coroutineInfo c ∈ S)
    (hchildren : ∀ d, .entry .childCoroutines d ∈ S) (clock : ℕ → TraceTime) :
    (coroutineCreated t clock c).Within S S := by
  refine (CellProgram.Within.observe ht).bind fun parent => ?_
  refine (within_createCoroutineInfo h _ _).bind fun _ => ?_
  refine (within_contains (hchildren _)).bind fun _ => .ite (fun _ => ?_) fun _ => .pure _
  have hadd : (addChildCoroutine c parent).Within S S :=
    (within_get (hchildren _)).bind fun _ => within_update (hchildren _) _
  refine hadd.bind fun _ => CellProgram.Within.bind ?_ fun _ => .pure _
  exact (within_insert (hchildren _) _).bind fun _ => .pure _

lemma within_coroutineSuspended (ht : .currentCoroutineId t ∈ S) (hr : .currentRusage t ∈ S)
    (h : .entry .coroutineInfo c ∈ S) (env : Env) (clock : ℕ → TraceTime) (rusage : RUsage)
    (stack : Option (List JMethodID)) :
    (coroutineSuspended env t clock rusage c stack).Within S S := by
  have hcredit : (creditSuspended t c (clock 0) rusage).Within S S := by
    refine (within_load h).bind fun _ => .ite (fun _ => ?_) fun _ => .pure _
    refine (within_calculateResourceUsage h hr _ _).bind fun _ => ?_
    exact (within_update h _).bind fun _ => .pure _
  refine (CellProgram.Within.perform ht).bind fun _ => ?_
  refine (within_getCoroutineInfo h).bind fun _ => .ite (fun _ => ?_) fun _ => .pure _
  refine hcredit.bind fun _ => ?_
  cases stackFrames env stack with
  | none => exact .pure _
  | some frames =>
    refine CellProgram.Within.bind ?_ fun _ => .pure _
    exact (within_get h).bind fun _ => within_update h _

lemma within_coroutineResumed (ht : .currentCoroutineId t ∈ S) (hr : .currentRusage t ∈ S)
    (h : .entry .coroutineInfo c ∈ S) (clock : ℕ → TraceTime) (rusage : RUsage) :
    (coroutineResumed t clock rusage c).Within S S := by
  have hlast : (getLastSuspensionInfo c).Within S S := by
    refine (within_contains h).bind fun _ => .ite (fun _ => ?_) fun _ => .pure _
    exact (within_get h).bind fun _ => (within_load h).bind fun _ => .pure _
  have hend : (endLastSuspension c (clock 1)).Within S S := by
    refine hlast.bind fun i => ?_
    cases i with
    | none => exact .pure _
    | some i => exact within_update h _
  refine (CellProgram.Within.perform ht).bind fun _ => ?_
  refine (within_getCoroutineInfo h).bind fun _ => .ite (fun _ => ?_) fun _ => .pure _
  refine (CellProgram.Within.perform hr).bind fun _ => ?_
  exact (within_update h _).bind fun _ => hend.bind fun _ => .pure _

lemma within_coroutineCompleted (ht : .currentCoroutineId t ∈ S) (hr : .currentRusage t ∈ S)
    (h : .entry .coroutineInfo c ∈ S) (clock : ℕ → TraceTime) (rusage : RUsage) :
    (coroutineCompleted t clock rusage c).Within S S := by
  refine (CellProgram.Within.perform ht).bind fun _ => ?_
  refine (within_getCoroutineInfo h).bind fun _ => .ite (fun _ => ?_) fun _ => .pure _
  refine (within_update h _).bind fun _ => ?_
  exact (within_calculateResourceUsage h hr _ _).bind fun _ => .pure _

lemma within_traceStart {env : Env} (ht : .threadInfo t ∈ S)
    (hinfo : .entry .coroutineInfo (Profiler.traceId env t c) ∈ S)
    (hchildren : .entry .childCoroutines (Profiler.traceId env t c) ∈ S)
    (hongoing : .entry .ongoingTraceInfo (Profiler.traceId env t c) ∈ S)
    (clock : ℕ → TraceTime) : (traceStart env t clock c).Within S S := by
  have hrecord : ∀ now, (recordTrace t now (Profiler.traceId env t c)).Within S S := by
    intro now
    have hcount : (addCurrentTraces t 1).Within S S :=
      (CellProgram.Within.observe ht).bind fun _ => .perform ht
    have hcreate : (createChildCoroutineStorage (Profiler.traceId env t c)).Within S S :=
      (within_insert hchildren _).bind fun _ => .pure _
    refine hcount.bind fun _ => hcreate.bind fun _ => ?_
    exact (within_insert hongoing _).bind fun _ => .ite (fun _ => .pure _) fun _ => .pure _
  refine .ite (fun _ => ?_) fun _ => hrecord _
  exact (within_createCoroutineInfo hinfo _ _).bind fun _ => hrecord _

lemma within_addProcessedTrace (h : .entry .processed c ∈ S) (record : ProcessedTraceRecord) :
    (addProcessedTrace c record).Within S S := by
  refine (within_contains h).bind fun _ => .ite (fun _ => ?_) fun _ => ?_
  · exact (within_get h).bind fun _ => within_update h _
  · exact (within_insert h _).bind fun _ => .pure _

lemma within_popFrontGcEvent (h : .gcEvents ∈ S) : popFrontGcEvent.Within S S :=
  (CellProgram.Within.observe h).bind fun _ => .ite (fun _ => .pure _) fun _ => .perform h

lemma within_gcFinish (h : .gcEvents ∈ S) (now : TraceTime) : (gcFinish now).Within S S := by
  refine (CellProgram.Within.observe h).bind fun _ => ?_
  refine (within_popFrontGcEvent h).bind fun _ => ?_
  exact (CellProgram.Within.perform h).bind fun _ => .perform h

end Within

/-- The program of a call is within its cells. -/
lemma within_cells (env : Env) (i : Invocation) :
    (program env i).Within (i.cells env) (i.cells env) := by
  obtain ⟨t, call, clock, rusage, iterations⟩ := i
  cases call with
  | threadStart name stackLo stackHi =>
    exact (CellProgram.Within.perform (Set.mem_singleton _)).bind fun _ => .pure _
  | coroutineCreated c =>
    exact within_coroutineCreated (Or.inl (Or.inl rfl)) (Or.inl (Or.inr rfl))
      (fun d => Or.inr ⟨d, rfl⟩) clock
  | coroutineSuspended c stack =>
    exact within_coroutineSuspended (Or.inl rfl) (Or.inr (Or.inl rfl)) (Or.inr (Or.inr rfl)) env
      clock rusage stack
  | coroutineResumed c =>
    exact within_coroutineResumed (Or.inl rfl) (Or.inr (Or.inl rfl)) (Or.inr (Or.inr rfl)) clock
      rusage
  | coroutineCompleted c =>
    exact within_coroutineCompleted (Or.inl rfl) (Or.inr (Or.inl rfl)) (Or.inr (Or.inr rfl)) clock
      rusage
  | traceStart c =>
    exact within_traceStart (Or.inl rfl) (Or.inr (Or.inl rfl)) (Or.inr (Or.inr (Or.inl rfl)))
      (Or.inr (Or.inr (Or.inr rfl))) clock
  | gcStart => exact (CellProgram.Within.perform (Set.mem_singleton _)).bind fun _ => .pure _
  | gcFinish => exact (within_gcFinish (Set.mem_singleton _) _).bind fun _ => .pure _
  | addRawTrace trace c =>
    exact (CellProgram.Within.perform (Set.mem_singleton _)).bind fun _ => .pure _
  | addProcessedTrace c record =>
    exact (within_addProcessedTrace (Set.mem_singleton _) record).bind fun _ => .pure _
  | traceEnd c | processTraces | markForClean | clean => exact .univ _

/-- The coroutine that a call suspends, resumes or completes. -/
def Invocation.switched (i : Invocation) : Option JLong :=
  match i.call with
  | .coroutineSuspended c _ | .coroutineResumed c | .coroutineCompleted c => some c
  | _ => none

/-- The cells of a call that suspends, resumes or completes a coroutine. -/
lemma Invocation.cells_of_switched {i : Invocation} {c : JLong} (h : i.switched = some c)
    (env : Env) :
    i.cells env =
      {.currentCoroutineId i.thread, .currentRusage i.thread, .entry .coroutineInfo c} := by
  obtain ⟨t, call, clock, rusage, iterations⟩ := i
  cases call <;> cases h <;> rfl

/-- The calls that suspend, resume or complete different coroutines on different threads are on
disjoint cells. -/
lemma Invocation.disjoint_cells {i j : Invocation} {c d : JLong} (hi : i.switched = some c)
    (hj : j.switched = some d) (hthread : i.thread ≠ j.thread) (hcd : c ≠ d) (env : Env) :
    ∀ k ∈ i.cells env, k ∉ j.cells env := by
  rw [cells_of_switched hi, cells_of_switched hj]
  rintro k (rfl | rfl | rfl) (h | h | h)
  · exact hthread (Cell.currentCoroutineId.inj h)
  · cases h
  · cases h
  · cases h
  · exact hthread (Cell.currentRusage.inj h)
  · cases h
  · cases h
  · cases h
  · exact hcd (Cell.entry.inj h).2

end Interleaved

/-- **Callbacks on disjoint cells are atomic.** In every interleaving of the sections of callbacks
on any number of threads in which the calls that are in progress at the same time are on disjoint
cells, the callbacks that have ended have the effects of atomic callbacks, executed in the order in
which they ended, if the readings of each call give one time; and the cells that no call in progress
has updated are those of the atomic run. This covers the interleavings in which the calls that
overlap suspend, resume or complete different coroutines, each thread making the calls of its own.
-/
theorem disjoint_callbacks_atomic (env : Env)
    {l : List ((ℕ × CellProgram.Action Invocation) × List (Invocation × List Effect))}
    {c : ThreadSystem.Conf Cells (CellProgram.Position Cell.Value Invocation Effect)}
    (hrun : (interleaved env).machine.Run l c)
    (hinstant : ∀ x ∈ CellProgram.completed l, x.1.Instant)
    (hcalls : (interleaved env).machine.EveryStep
      (fun _ c e => ∀ u, u ≠ e.1 → ∀ i ∈ (c.threads e.1).call?, ∀ j ∈ (c.threads u).call?,
        (∀ k ∈ i.cells env, k ∉ j.cells env) ∨
          i.thread ≠ j.thread ∧ i.switched.isSome ∧ j.switched.isSome ∧
            i.switched ≠ j.switched) l) :
    ∃ p, Run env (atomicLog (CellProgram.completed l)) p ∧
      ∀ k, (∀ t, k ∉ (c.threads t).footprint.writes) → c.shared k = p.cells k := by
  have hdisjoint : (interleaved env).machine.EveryStep
      (CellProgram.DisjointCalls (Invocation.cells env)) l := by
    intro l₁ e o l₂ c hl hrun₁ u hu i hi j hj
    rcases hcalls l₁ e o l₂ c hl hrun₁ u hu i hi j hj with h | ⟨hthread, hsi, hsj, hne⟩
    · exact h
    · obtain ⟨ci, hci⟩ := Option.isSome_iff_exists.mp hsi
      obtain ⟨cj, hcj⟩ := Option.isSome_iff_exists.mp hsj
      refine Invocation.disjoint_cells hci hcj hthread (fun h => hne ?_) env
      rw [hci, hcj, h]
  obtain ⟨a, ha, hunwritten⟩ := CellProgram.exists_serial hrun
    (CellProgram.everyStep_separate_of_disjoint (within_cells env) hdisjoint)
  obtain ⟨p, hp, rfl⟩ := exists_run_of_serial ha hinstant
  exact ⟨p, hp, hunwritten⟩

/-- Two threads resume a coroutine each, section by section in turn. -/
def sampleResumes : List (ℕ × CellProgram.Action Invocation) :=
  [(1, .call (.at (.coroutineCreated 5) 1 10)), (1, .go), (1, .go), (1, .go), (1, .go), (1, .go),
    (1, .call (.at (.coroutineResumed 5) 1 11)), (2, .call (.at (.coroutineResumed 6) 2 12)),
    (1, .go), (2, .go), (1, .go), (2, .go), (1, .go), (2, .go), (1, .go), (1, .go), (1, .go),
    (1, .go), (1, .go), (1, .go)]

/-- The coroutines are resumed one after the other. -/
theorem sampleResumes_atomic :
    ∃ l c p, (interleaved .sample).machine.Run l c ∧ l.map Prod.fst = sampleResumes ∧
      Run .sample (atomicLog (CellProgram.completed l)) p ∧
      (atomicLog (CellProgram.completed l)).map Prod.fst =
        [(Call.coroutineCreated 5).at 1 10, (Call.coroutineResumed 6).at 2 12,
          (Call.coroutineResumed 5).at 1 11] := by
  have hexec : ((interleaved .sample).machine.exec (interleaved .sample).machine.init
      sampleResumes).map (fun q => CellProgram.completed q.2) =
      some [(.at (.coroutineCreated 5) 1 10, []), (.at (.coroutineResumed 6) 2 12, []),
        (.at (.coroutineResumed 5) 1 11, [])] := rfl
  obtain ⟨l, c, hrun, hes, hcompleted⟩ := LogMachine.exists_run_of_map_exec hexec
  have hsteps := ThreadSystem.everyStep_undisturbed_of_check (g := fun _ _ _ => true)
    (k := fun _ p _ q => p.call?.all fun i => q.call?.all fun j =>
      decide (i.thread ≠ j.thread ∧ i.switched.isSome ∧ j.switched.isSome ∧
        i.switched ≠ j.switched))
    [1, 2] hrun (by rw [hes]; decide) (fun _ p _ => by cases p.call? <;> rfl)
    (by rw [hes]; decide)
  obtain ⟨p, hp, -⟩ := disjoint_callbacks_atomic .sample hrun (by
    rw [hcompleted]
    intro x hx
    simp only [List.mem_cons, List.not_mem_nil, or_false] at hx
    rcases hx with rfl | rfl | rfl <;> exact fun _ => rfl) (by
    intro l₁ e o l₂ c hl hrun₁ u hu i hi j hj
    have happart := (hsteps l₁ e o l₂ c hl hrun₁).2 u hu
    rw [Option.mem_def] at hi hj
    rw [hi, hj] at happart
    exact Or.inr (of_decide_eq_true happart))
  exact ⟨l, c, p, hrun, hes, hp, by rw [hcompleted]; rfl⟩

end KotlinTracer
