import KotlinTracer.Profiler.Steps

set_option relaxedAutoImplicit false
set_option autoImplicit false

/-!
# A `traceStart` that throws

`traceStart` throws when the trace of its coroutine is ongoing, but it finds that out last: by then
it has incremented the counter of the thread, and it may have created a child list and, for a plain
function, a record. Only the map of the ongoing traces is left alone.

## Main definitions

* `KotlinTracer.SameObservable` — two states agree on what `traceStart` can change.
* `KotlinTracer.RejectedEffects` — what a `traceStart` that throws leaves behind.

## Main results

* `KotlinTracer.traceStart_unchanged_iff` — a `traceStart` that throws never leaves the state as it
  was.
-/

namespace KotlinTracer

/-- The two states agree on the counters of all threads, the child lists, the records of the
coroutines and the ongoing traces. -/
structure SameObservable (p p' : Profiler) : Prop where
  counters : p'.threads.list.map ThreadInfo.currentTraces =
    p.threads.list.map ThreadInfo.currentTraces
  children : ∀ c, p'.storage.getChildCoroutines c = p.storage.getChildCoroutines c
  infos : ∀ c, p'.storage.getCoroutineInfo c = p.storage.getCoroutineInfo c
  ongoing : ∀ k, p'.storage.ongoingTraceInfoMap.at? k = p.storage.ongoingTraceInfoMap.at? k

/-- What a `traceStart(c)` with the id `id` leaves behind when it throws: the counter of its thread
is one higher, the child lists are as before exactly if `id` had one, the records are as before
exactly if `id` had one or `c` is not a plain function, and the ongoing traces are as before. -/
structure RejectedEffects (p p' : Profiler) (thread : PThread) (c id : JLong) : Prop where
  counters : (p'.threads.list.map ThreadInfo.currentTraces).sum =
    (p.threads.list.map ThreadInfo.currentTraces).sum + 1
  threads : p'.threads = (p.addCurrentTraces thread 1).threads
  children : (∀ d, p'.storage.getChildCoroutines d = p.storage.getChildCoroutines d) ↔
    p.storage.getChildCoroutines id ≠ none
  infos : (∀ d, p'.storage.getCoroutineInfo d = p.storage.getCoroutineInfo d) ↔
    (c = -2 → p.storage.getCoroutineInfo id ≠ none)
  ongoing : ∀ k, p'.storage.ongoingTraceInfoMap.at? k = p.storage.ongoingTraceInfoMap.at? k

/-- Adding to the counter that `findThread` finds adds to the sum of all counters. -/
lemma sum_currentTraces_updateFirstIn {thread : PThread} {l : List ThreadInfo}
    (h : (l.find? (Profiler.isThread thread)).isSome) (amount : ℤ) :
    ((ConcurrentList.updateFirstIn (Profiler.isThread thread)
      (fun x => { x with currentTraces := x.currentTraces + amount }) l).map
        ThreadInfo.currentTraces).sum = (l.map ThreadInfo.currentTraces).sum + amount := by
  induction l with
  | nil => simp at h
  | cons x l ih =>
    rw [ConcurrentList.updateFirstIn]
    split_ifs with hx
    · simp only [List.map_cons, List.sum_cons]
      ring
    · rw [List.find?_cons_of_neg hx] at h
      simp only [List.map_cons, List.sum_cons, ih h]
      ring

section Step

variable {env : Env} {p p' : Profiler} {e : Event} {o : List Effect} {c : JLong}

/-- **What a `traceStart` that throws leaves behind.** -/
lemma rejectedEffects_of_threw (hstep : p.step env e = some (p', o))
    (hcall : e.call = .traceStart c)
    (hthrew : ∃ message, .threw message ∈ o) :
    RejectedEffects p p' e.thread c (Profiler.traceId env e.thread c) := by
  obtain ⟨d, hd, hongoing⟩ := (Profiler.exists_threw_iff hstep).mp hthrew
  obtain rfl : d = c := by
    rw [hcall, Call.traceStart.injEq] at hd
    exact hd.symm
  have hspec : Profiler.TraceStartSpec env p e.toContext d p' o := by
    obtain ⟨ctx, call⟩ := e
    obtain rfl : call = .traceStart d := hcall
    exact Profiler.traceStart_eq_some hstep
  refine ⟨?_, hspec.threads, ?_, ?_, ?_⟩
  · rw [hspec.threads]
    exact sum_currentTraces_updateFirstIn hspec.thread 1
  · constructor
    · intro hsame hnone
      have hcreated := hspec.children (Profiler.traceId env e.thread d)
      rw [if_pos ⟨rfl, hnone⟩, hsame, hnone] at hcreated
      cases hcreated
    · intro hsome d'
      rw [hspec.children d', if_neg fun h => hsome h.2]
  · constructor
    · intro hsame hplain hnone
      have hcreated := hspec.info (Profiler.traceId env e.thread d)
      rw [if_pos ⟨hplain, rfl, hnone⟩, hsame, hnone] at hcreated
      cases hcreated
    · intro hsome d'
      rw [hspec.info d', if_neg fun h => hsome h.1 h.2.2]
  · intro k
    rw [hspec.ongoing k, if_neg fun h => hongoing h.2]

/-- **When a `traceStart` that throws leaves the state as it was.** In every state: if the call
throws, the counters, the child lists, the records and the ongoing traces are as before, if and only
if the trace is not ongoing before the call, so that it does not throw. A call that throws leaves
`RejectedEffects`. -/
theorem traceStart_unchanged_iff (hstep : p.step env e = some (p', o))
    (hcall : e.call = .traceStart c) :
    (((∃ message, .threw message ∈ o) → SameObservable p p') ↔
        p.storage.ongoingTraceInfoMap.at? (Profiler.traceId env e.thread c) = none) ∧
      ((∃ message, .threw message ∈ o) →
        RejectedEffects p p' e.thread c (Profiler.traceId env e.thread c)) := by
  refine ⟨⟨fun h => ?_, fun hnone hthrew => ?_⟩, rejectedEffects_of_threw hstep hcall⟩
  · by_contra hongoing
    have hthrew := (Profiler.exists_threw_iff hstep).mpr ⟨c, hcall, hongoing⟩
    -- the sum of the counters is one higher than before
    have hsum := (rejectedEffects_of_threw hstep hcall hthrew).counters
    rw [(h hthrew).counters] at hsum
    omega
  · obtain ⟨d, hd, hongoing⟩ := (Profiler.exists_threw_iff hstep).mp hthrew
    rw [hcall, Call.traceStart.injEq] at hd
    rw [← hd] at hongoing
    exact absurd hnone hongoing

end Step

/-- A coroutine on a registered thread. -/
def startable : List Event :=
  [(Call.threadStart "main" 0 0).at 1 1, (Call.coroutineCreated 5).at 1 2]

/-- The first `traceStart` of the coroutine does not throw. -/
theorem traceStart_unchanged_startable :
    ∃ l p p' o, Run .sample l p ∧ l.map Prod.fst = startable ∧
      p.step .sample ((Call.traceStart 5).at 1 3) = some (p', o) ∧
      ((∃ message, .threw message ∈ o) → SameObservable p p') := by
  have hexec : ((machine .sample).exec (machine .sample).init startable).map
      (fun q => (q.1.storage.ongoingTraceInfoMap.at? 5,
        (q.1.step .sample ((Call.traceStart 5).at 1 3)).isSome)) = some (none, true) := by decide
  obtain ⟨l, p, hrun, hes, hend⟩ := LogMachine.exists_run_of_map_exec hexec
  simp only [Prod.mk.injEq] at hend
  obtain ⟨⟨p', o⟩, hstep⟩ := Option.isSome_iff_exists.mp hend.2
  exact ⟨l, p, p', o, hrun, hes, hstep, (traceStart_unchanged_iff hstep rfl).1.mpr hend.1⟩

/-- **A second `traceStart` throws and leaves the counter of its thread at two.** -/
theorem traceStart_threw_counter :
    ∃ l p p' o, Run .sample l p ∧ l.map Prod.fst = startable ++ [(Call.traceStart 5).at 1 3] ∧
      p.step .sample ((Call.traceStart 5).at 1 4) = some (p', o) ∧
      (∃ message, .threw message ∈ o) ∧
      p.threads.list.map ThreadInfo.currentTraces = [1] ∧
      p'.threads.list.map ThreadInfo.currentTraces = [2] := by
  have hexec : ((machine .sample).exec (machine .sample).init
      (startable ++ [(Call.traceStart 5).at 1 3])).map
      (fun q => (q.1.storage.ongoingTraceInfoMap.at? 5,
        q.1.threads.list.map ThreadInfo.currentTraces,
        (q.1.step .sample ((Call.traceStart 5).at 1 4)).map fun r =>
          r.1.threads.list.map ThreadInfo.currentTraces)) =
      some (some ⟨5, 3, 0⟩, [1], some [2]) := by decide
  obtain ⟨l, p, hrun, hes, hend⟩ := LogMachine.exists_run_of_map_exec hexec
  simp only [Prod.mk.injEq] at hend
  obtain ⟨hongoing, hbefore, hafter⟩ := hend
  obtain ⟨⟨p', o⟩, hstep, hcounters⟩ := Option.map_eq_some_iff.mp hafter
  refine ⟨l, p, p', o, hrun, hes, hstep, ?_, hbefore, hcounters⟩
  refine (Profiler.exists_threw_iff hstep).mpr ⟨5, rfl, ?_⟩
  show p.storage.ongoingTraceInfoMap.at? 5 ≠ none
  rw [hongoing]
  simp

end KotlinTracer
