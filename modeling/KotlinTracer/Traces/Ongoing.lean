import KotlinTracer.Profiler.Steps

set_option relaxedAutoImplicit false
set_option autoImplicit false

/-!
# The ongoing traces

`traceEnd` should remove the trace of its coroutine from the map of the ongoing traces and leave
the others alone. It returns early when the coroutine has no info, for example because the cleaner
dropped it; it looks the trace up with an inserting `operator[]`; and it erases the id that the
record found there holds. This file proves exactly in which states it does what it should.

## Main definitions

* `KotlinTracer.TraceRemoved` — the trace of an id, and no other, is removed between two states.
* `KotlinTracer.TraceEndRemoves` — the `traceEnd` of a step removes its trace.
* `KotlinTracer.FindsOwnTrace` — the state before the step is one in which it does.
* `KotlinTracer.startedTrace` — the ongoing trace of an id according to the events.

## Main results

* `KotlinTracer.traceEnd_removes_iff` — every `traceEnd` of a run removes its trace if and only if
  each finds its own one.
* `KotlinTracer.ongoing_eq_startedTrace` — in such a run the map of the ongoing traces is always
  what the log says.
* `KotlinTracer.traceEnd_keeps_trace` — the trace of a coroutine whose info was dropped stays in
  the map, and the next `traceStart` throws.
-/

namespace KotlinTracer

/-- From `p` to `p'` the trace of `id` was removed and the other traces were left alone; so no
`traceStart` of `id` that directly follows throws. -/
def TraceRemoved (env : Env) (p p' : Profiler) (id : JLong) : Prop :=
  p'.storage.ongoingTraceInfoMap.at? id = none ∧
    (∀ k, k ≠ id →
      p'.storage.ongoingTraceInfoMap.at? k = p.storage.ongoingTraceInfoMap.at? k) ∧
    ∀ e c p'' o, e.call = .traceStart c → Profiler.traceId env e.thread c = id →
      p'.step env e = some (p'', o) → ¬ ∃ message, .threw message ∈ o

/-- If the event is a `traceEnd`, its step removes its trace. -/
def TraceEndRemoves (env : Env) (_ : Log) (p : Profiler) (e : Event) : Prop :=
  ∀ c p' o, e.call = .traceEnd c → p.step env e = some (p', o) →
    TraceRemoved env p p' (Profiler.traceId env e.thread c)

/-- If the event is a `traceEnd`, then either its coroutine has an info and the record that is
found for it holds its id, or it has neither an info nor a record. The default record, which is
found when there is none, holds the id `0`. -/
def FindsOwnTrace (env : Env) (_ : Log) (p : Profiler) (e : Event) : Prop :=
  match e.call with
  | .traceEnd c =>
    let id := Profiler.traceId env e.thread c
    if (p.storage.getCoroutineInfo id).isSome then
      ((p.storage.ongoingTraceInfoMap.at? id).getD {}).coroutineId = id
    else p.storage.ongoingTraceInfoMap.at? id = none
  | _ => True

instance (env : Env) (l : Log) (p : Profiler) (e : Event) :
    Decidable (FindsOwnTrace env l p e) := by
  -- by the constructors of the call, and not by the match, so that the instance computes
  obtain ⟨ctx, call⟩ := e
  cases call with
  | traceEnd c => exact inferInstanceAs (Decidable (ite _ _ _))
  | _ => exact isTrue trivial

section Step

variable {env : Env} {p p' : Profiler} {e : Event} {o : List Effect} {c : JLong}

/-- A trace is removed iff the map has no entry for it any more and all other entries are the same:
that the trace can be started again follows. -/
lemma traceRemoved_iff {id : JLong} :
    TraceRemoved env p p' id ↔ p'.storage.ongoingTraceInfoMap.at? id = none ∧
      ∀ k, k ≠ id →
        p'.storage.ongoingTraceInfoMap.at? k = p.storage.ongoingTraceInfoMap.at? k := by
  refine ⟨fun h => ⟨h.1, h.2.1⟩, fun h => ⟨h.1, h.2, ?_⟩⟩
  intro e c p'' o hcall hid hstep
  rw [Profiler.exists_threw_iff hstep]
  rintro ⟨d, hd, hne⟩
  rw [hcall, Call.traceStart.injEq] at hd
  subst hd
  rw [hid] at hne
  exact hne h.1

/-- **One `traceEnd` removes its trace exactly if it finds its own one.**

**Proof sketch.** Without an info nothing is removed. With one, the record found under the id is
either erased, when it holds the id, or stays there, possibly as the default just inserted. -/
lemma traceEnd_removed_iff (hstep : p.step env e = some (p', o)) (hcall : e.call = .traceEnd c)
    (l : Log) :
    TraceRemoved env p p' (Profiler.traceId env e.thread c) ↔ FindsOwnTrace env l p e := by
  have hongoing := Profiler.step_ongoing hstep
  simp only [hcall] at hongoing
  rw [traceRemoved_iff]
  unfold FindsOwnTrace
  simp only [hcall]
  generalize Profiler.traceId env e.thread c = id at hongoing ⊢
  have hended : (p.endedTrace e.toContext id).coroutineId =
      ((p.storage.ongoingTraceInfoMap.at? id).getD {}).coroutineId := rfl
  cases hinfo : p.storage.getCoroutineInfo id with
  | none =>
    simp only [hinfo, if_true] at hongoing
    simp [hongoing]
  | some info =>
    simp only [hinfo, reduceCtorEq, if_false, hended] at hongoing
    rw [if_pos Option.isSome_some]
    constructor
    · rintro ⟨hid, -⟩
      by_contra hne
      rw [hongoing, if_neg (Ne.symm hne), if_pos rfl] at hid
      cases hid
    · intro heq
      refine ⟨?_, fun k hk => ?_⟩
      · rw [hongoing, heq, if_pos rfl]
      · rw [hongoing, heq, if_neg hk, if_neg hk]

end Step

/-- **When the ends of traces remove them.** In every run, cleaner steps included, every
`traceEnd` removes its trace and nothing else from the ongoing traces, so that a `traceStart` of
the same id that directly follows does not throw, if and only if every `traceEnd` finds its own
trace. -/
theorem traceEnd_removes_iff {env : Env} {l : Log} {p : Profiler} (hrun : Run env l p) :
    (machine env).EveryStep (TraceEndRemoves env) l ↔
      (machine env).EveryStep (FindsOwnTrace env) l := by
  constructor
  · intro h l₁ e o l₂ q hl hq
    rw [hl] at hrun
    obtain ⟨q', q'', hq', hstep, -⟩ := LogMachine.Run.split hrun
    rw [← LogMachine.RunFrom.unique hq hq'] at hstep
    have hremoves := h l₁ e o l₂ q hl hq
    cases hcall : e.call with
    | traceEnd c =>
      exact (traceEnd_removed_iff hstep hcall l₁).mp (hremoves c q'' o hcall hstep)
    | _ =>
      unfold FindsOwnTrace
      simp [hcall]
  · intro h l₁ e o l₂ q hl hq c p' o' hcall hstep
    exact (traceEnd_removed_iff hstep hcall l₁).mpr (h l₁ e o l₂ q hl hq)

/-! ## The map and the log -/

/-- The ongoing trace of an id after one more event, according to the events. -/
def startedTraceStep (env : Env) (k : JLong) (started : Option TraceInfo) (e : Event) :
    Option TraceInfo :=
  match e.call with
  | .traceStart c =>
    if k = Profiler.traceId env e.thread c ∧ started = none then some ⟨k, e.now, 0⟩ else started
  | .traceEnd c => if k = Profiler.traceId env e.thread c then none else started
  | _ => started

/-- The ongoing trace of an id according to the events: started, and not ended since. -/
def startedTrace (env : Env) (k : JLong) (es : List Event) : Option TraceInfo :=
  es.foldl (startedTraceStep env k) none

/-- One more event. -/
lemma startedTrace_concat (env : Env) (k : JLong) (es : List Event) (e : Event) :
    startedTrace env k (es ++ [e]) = startedTraceStep env k (startedTrace env k es) e := by
  simp [startedTrace]

/-- **One step keeps the map and the events together**, if a `traceEnd` finds its own trace. -/
lemma ongoing_step {env : Env} {l : Log} {es : List Event} {p p' : Profiler} {e : Event}
    {o : List Effect} {k : JLong} (hstep : p.step env e = some (p', o))
    (hown : FindsOwnTrace env l p e)
    (h : p.storage.ongoingTraceInfoMap.at? k = startedTrace env k es) :
    p'.storage.ongoingTraceInfoMap.at? k = startedTrace env k (es ++ [e]) := by
  have hongoing := Profiler.step_ongoing hstep k
  rw [startedTrace_concat, ← h, startedTraceStep]
  cases hcall : e.call with
  | traceStart c =>
    simp only [hcall] at hongoing
    exact hongoing
  | traceEnd c =>
    obtain ⟨hnone, hother, -⟩ := (traceEnd_removed_iff hstep hcall l).mpr hown
    dsimp only
    split_ifs with hk
    · rw [hk, hnone]
    · exact hother k hk
  | _ =>
    simp only [hcall] at hongoing
    exact hongoing

/-- **In a run in which every `traceEnd` finds its own trace, the map of the ongoing traces is what
the events say.** -/
theorem ongoing_eq_startedTrace {env : Env} {l : Log} {p : Profiler} (hrun : Run env l p)
    (h : (machine env).EveryStep (FindsOwnTrace env) l) (k : JLong) :
    p.storage.ongoingTraceInfoMap.at? k = startedTrace env k (l.map Prod.fst) := by
  have hall : (machine env).Throughout (machine env).init (fun l p =>
      p.storage.ongoingTraceInfoMap.at? k = startedTrace env k (l.map Prod.fst)) l := by
    refine LogMachine.EveryStepFrom.throughout ?_ ?_ h
    · rfl
    · intro l p e o p' _ ih hown hstep
      rw [List.map_append]
      exact ongoing_step hstep hown ih
  exact hall.last hrun

/-! ## Concrete runs -/

/-- Two traces of one coroutine, one after the other. -/
def tracedTwice : List Event :=
  [(Call.threadStart "main" 0 0).at 1 1, (Call.coroutineCreated 5).at 1 2,
    (Call.traceStart 5).at 1 3, (Call.traceEnd 5).at 1 4, (Call.traceStart 5).at 1 5,
    (Call.traceEnd 5).at 1 6]

/-- In that run both ends remove the trace. -/
theorem traceEnd_removes_tracedTwice :
    ∃ l p, Run .sample l p ∧ l.map Prod.fst = tracedTwice ∧
      (machine .sample).EveryStep (TraceEndRemoves .sample) l := by
  have hexec : ((machine .sample).exec (machine .sample).init tracedTwice).map (fun _ => ()) =
      some () := by decide
  obtain ⟨l, p, hrun, hes, -⟩ := LogMachine.exists_run_of_map_exec hexec
  have hfinds : (machine .sample).EveryStep
      (fun l p e => decide (FindsOwnTrace .sample l p e) = true) l :=
    LogMachine.everyStep_of_check hrun (by rw [hes]; decide)
  simp only [decide_eq_true_eq] at hfinds
  exact ⟨l, p, hrun, hes, (traceEnd_removes_iff hrun).mpr hfinds⟩

/-- A trace of a coroutine starts after the cleaner dropped the info of the coroutine. -/
def tracedAfterClean : List Event :=
  [(Call.threadStart "main" 0 0).at 1 1, (Call.coroutineCreated 5).at 1 2,
    Call.markForClean.at 9 3, Call.clean.at 9 4, (Call.traceStart 5).at 1 5]

/-- **The trace of a coroutine without an info is not removed** when it ends, and the `traceStart`
that directly follows throws. -/
theorem traceEnd_keeps_trace :
    ∃ l p p' o, Run .sample l p ∧ l.map Prod.fst = tracedAfterClean ++ [(Call.traceEnd 5).at 1 6] ∧
      ¬ (machine .sample).EveryStep (TraceEndRemoves .sample) l ∧
      p.step .sample ((Call.traceStart 5).at 1 7) = some (p', o) ∧
      ∃ message, .threw message ∈ o := by
  have hexec : ((machine .sample).exec (machine .sample).init
      (tracedAfterClean ++ [(Call.traceEnd 5).at 1 6])).map
      (fun q => (q.1.storage.ongoingTraceInfoMap.at? 5,
        (q.1.step .sample ((Call.traceStart 5).at 1 7)).isSome)) =
      some (some ⟨5, 5, 0⟩, true) := by decide
  obtain ⟨l, q, o, p, hq, hes, hstep, hend⟩ := LogMachine.exists_last_of_map_exec hexec
  simp only [Prod.mk.injEq] at hend
  obtain ⟨hongoing, hsome⟩ := hend
  obtain ⟨⟨p', o'⟩, hthrows⟩ := Option.isSome_iff_exists.mp hsome
  refine ⟨l ++ [((Call.traceEnd 5).at 1 6, o)], p, p', o',
    (machine .sample).runFrom_concat.mpr ⟨q, hq, hstep⟩, by simp [hes], fun hremoves => ?_,
    hthrows, ?_⟩
  · obtain ⟨hnone, -, -⟩ := hremoves l _ o [] q rfl hq 5 p o rfl hstep
    exact absurd (hongoing.symm.trans hnone) (by simp)
  · rw [Profiler.exists_threw_iff hthrows]
    refine ⟨5, rfl, ?_⟩
    change p.storage.ongoingTraceInfoMap.at? 5 ≠ none
    rw [hongoing]
    simp

end KotlinTracer
