import KotlinTracer.Profiler.Steps

set_option relaxedAutoImplicit false
set_option autoImplicit false

/-!
# What the cleaner leaves of an ongoing trace

The cleaner drops the entries whose keys were in a map at its mark. It does not look at the ongoing
traces, and a `traceStart` does not unmark an entry that exists already. So the data of a trace
survives exactly the cleans at which its id is not marked.

## Main definitions

* `KotlinTracer.TraceOngoing` — the trace of `id` is ongoing in a part of a run.
* `KotlinTracer.TraceDataKept` — the data of the trace is still in the storage.
* `KotlinTracer.EndWrites` — a `traceEnd` at this point finds the data, and writes the trace when it
  took longer than the threshold.
* `KotlinTracer.CleanSpares` — a clean does not drop data of the trace.

## Main results

* `KotlinTracer.TraceDataKept.step` — every step keeps the data, except a clean that does not spare
  it.
* `KotlinTracer.traceData_kept_iff` — the data is kept until the trace ends if and only if every
  clean in between spares it.
-/

namespace KotlinTracer

/-- The samples that were stored for a coroutine in a part of a run, in order. -/
def recordedIn (c : JLong) (l : Log) : List ProcessedTraceRecord :=
  l.flatMap fun x => Profiler.recordedFor c x.2

/-- In the part `l` of a run that starts in `p₀`, the trace of `id` is ongoing: it has its entry at
every point, and no `traceEnd` of `id` is called. -/
def TraceOngoing (env : Env) (p₀ : Profiler) (id : JLong) (l : Log) : Prop :=
  (machine env).Throughout p₀ (fun _ p => (p.storage.ongoingTraceInfoMap.at? id).isSome) l ∧
    ∀ x ∈ l, ∀ c, x.1.call = .traceEnd c → Profiler.traceId env x.1.thread c ≠ id

/-- The data of the trace of `id`, which started when the state was `p₀`, is in the storage after
the part `l` of the run: the info of the coroutine, its child list, which has only grown since then,
and all samples that were stored for it since then. -/
structure TraceDataKept (p₀ : Profiler) (id : JLong) (l : Log) (p : Profiler) : Prop where
  info : (p.storage.getCoroutineInfo id).isSome
  children : ∃ list₀ list, p₀.storage.getChildCoroutines id = some list₀ ∧
    p.storage.getChildCoroutines id = some list ∧ list₀.list <+: list.list
  samples : recordedIn id l <:+ p.samples id

/-- A `traceEnd` of `id` in the state `p` leaves the data of the trace in the storage, from which it
writes the trace when that took longer than the threshold. -/
def EndWrites (env : Env) (p₀ : Profiler) (start : TraceTime) (id : JLong) (l : Log)
    (p : Profiler) : Prop :=
  ∀ e c p' o, e.call = .traceEnd c → Profiler.traceId env e.thread c = id →
    p.step env e = some (p', o) →
    TraceDataKept p₀ id (l ++ [(e, o)]) p' ∧
      (env.threshold < e.now - start →
        ∃ path, .wrote path (writePerfetto ⟨id, start, e.now⟩ p'.storage) ∈ o)

/-- If the event is a clean, it drops neither the info nor the child list of `id`, nor a sample
stored for `id` in the part `l` of the run. -/
def CleanSpares (id : JLong) (l : Log) (p : Profiler) (e : Event) : Prop :=
  e.call = .clean → id ∉ p.storage.coroutineInfoMap.cleanList ∧
    id ∉ p.storage.childCoroutinesMap.cleanList ∧
    (id ∈ p.storage.processedMap.cleanList → recordedIn id l = [])

instance (id : JLong) (l : Log) (p : Profiler) (e : Event) : Decidable (CleanSpares id l p e) := by
  unfold CleanSpares
  infer_instance

/-- One more step. -/
lemma recordedIn_concat (c : JLong) (l : Log) (x : Event × List Effect) :
    recordedIn c (l ++ [x]) = recordedIn c l ++ Profiler.recordedFor c x.2 := by
  simp [recordedIn]

section Step

variable {env : Env} {p₀ p p' : Profiler} {e : Event} {o : List Effect} {id : JLong} {l : Log}

/-- A clean stores no samples. -/
lemma recordedFor_clean (hstep : p.step env e = some (p', o)) (hcall : e.call = .clean)
    (c : JLong) : Profiler.recordedFor c o = [] := by
  cases Profiler.step_spec hstep with
  | clean hgc => simp [Profiler.recordedFor]
  | _ => cases hcall

/-- The child list only grows, except in a clean that drops it. -/
lemma TraceDataKept.step_children (hstep : p.step env e = some (p', o))
    {list : ConcurrentList JLong} (hlist : p.storage.getChildCoroutines id = some list)
    (hspares : CleanSpares id l p e) :
    ∃ list', p'.storage.getChildCoroutines id = some list' ∧ list.list <+: list'.list := by
  rw [Profiler.step_children hstep id, hlist]
  cases hcall : e.call with
  | coroutineCreated d =>
    dsimp only
    split_ifs
    · exact ⟨list, rfl, List.prefix_rfl⟩
    · exact ⟨list.pushBack d, rfl, List.prefix_append list.list [d]⟩
    · exact ⟨list, rfl, List.prefix_rfl⟩
    · exact ⟨list, rfl, List.prefix_rfl⟩
  | traceStart d =>
    dsimp only
    split_ifs
    · exact ⟨list, rfl, List.prefix_rfl⟩
    · exact ⟨list, rfl, List.prefix_rfl⟩
  | clean =>
    dsimp only
    rw [if_neg (hspares hcall).2.1]
    exact ⟨list, rfl, List.prefix_rfl⟩
  | _ => exact ⟨list, rfl, List.prefix_rfl⟩

/-- The samples stored since the start are kept by every step, except a clean that drops them. -/
lemma TraceDataKept.step_samples (hstep : p.step env e = some (p', o))
    (hsamples : recordedIn id l <:+ p.samples id) (hspares : CleanSpares id l p e) :
    recordedIn id (l ++ [(e, o)]) <:+ p'.samples id := by
  rw [Profiler.step_samples hstep id, recordedIn_concat]
  split_ifs with hclean
  · obtain ⟨hcall, hmarked⟩ := hclean
    rw [recordedFor_clean hstep hcall, (hspares hcall).2.2 hmarked]
    exact List.suffix_rfl
  · obtain ⟨before, hbefore⟩ := hsamples
    exact ⟨before, by rw [← hbefore, List.append_assoc]⟩

/-- **One step keeps the data of the trace**, unless it is a clean that does not spare it. -/
lemma TraceDataKept.step (hstep : p.step env e = some (p', o)) (hspares : CleanSpares id l p e)
    (h : TraceDataKept p₀ id l p) : TraceDataKept p₀ id (l ++ [(e, o)]) p' := by
  obtain ⟨list₀, list, hlist₀, hlist, hle⟩ := h.children
  obtain ⟨list', hlist', hle'⟩ := TraceDataKept.step_children hstep hlist hspares
  exact ⟨Profiler.isSome_info_of_step hstep h.info fun hcall => (hspares hcall).1,
    ⟨list₀, list', hlist₀, hlist', hle.trans hle'⟩,
    TraceDataKept.step_samples hstep h.samples hspares⟩

/-- A clean that does not spare the trace loses some of its data. -/
lemma not_traceDataKept_of_clean (hstep : p.step env e = some (p', o))
    (hlost : ¬ CleanSpares id l p e) : ¬ TraceDataKept p₀ id (l ++ [(e, o)]) p' := by
  simp only [CleanSpares, not_forall] at hlost
  obtain ⟨hcall, hlost⟩ := hlost
  intro h
  apply hlost
  refine ⟨fun hmarked => ?_, fun hmarked => ?_, fun hmarked => ?_⟩
  · obtain ⟨frames, hupdate⟩ := Profiler.step_info hstep
    have hinfo := h.info
    rw [hupdate id] at hinfo
    simp [infoUpdate, hcall, hmarked] at hinfo
  · obtain ⟨-, list, -, hlist, -⟩ := h.children
    rw [Profiler.step_children hstep id, hcall] at hlist
    simp [hmarked] at hlist
  · have hsamples := h.samples
    rw [Profiler.step_samples hstep id, if_pos ⟨hcall, hmarked⟩, List.suffix_nil,
      recordedIn_concat] at hsamples
    exact (List.append_eq_nil_iff.mp hsamples).1

/-- In every run, the id that an entry of the ongoing traces stores is its key, or `0` in an entry
that was made by default. -/
lemma ongoing_coroutineId (hrun : Run env l p) {k : JLong} {trace : TraceInfo}
    (htrace : p.storage.ongoingTraceInfoMap.at? k = some trace) :
    trace.coroutineId = k ∨ trace.coroutineId = 0 := by
  refine LogMachine.Run.state_invariant (I := fun p => ∀ k trace,
    p.storage.ongoingTraceInfoMap.at? k = some trace →
      trace.coroutineId = k ∨ trace.coroutineId = 0) ?_ ?_ hrun k trace htrace
  · intro k trace htrace
    cases htrace
  · intro p e o p' ih hstep k trace htrace
    have hongoing := Profiler.step_ongoing hstep k
    rw [htrace] at hongoing
    cases hcall : e.call with
    | traceStart c =>
      simp only [hcall] at hongoing
      split_ifs at hongoing
      · rw [Option.some.inj hongoing]
        exact Or.inl rfl
      · exact ih k trace hongoing.symm
    | traceEnd c =>
      simp only [hcall] at hongoing
      split_ifs at hongoing
      · exact ih k trace hongoing.symm
      · rw [Option.some.inj hongoing]
        cases hk : p.storage.ongoingTraceInfoMap.at? k with
        | none => exact Or.inr rfl
        | some trace' => exact ih k trace' hk
      · exact ih k trace hongoing.symm
    | _ =>
      simp only [hcall] at hongoing
      exact ih k trace hongoing.symm

/-- A trace whose id is not `0` is ongoing until a `traceEnd` of its id is called: a `traceEnd` of
another coroutine erases the entry of that coroutine or the entry of `0`. -/
lemma traceOngoing_of_ne_zero {l₀ : Log} (hrun₀ : Run env l₀ p₀) (hid : id ≠ 0)
    (hsome : (p₀.storage.ongoingTraceInfoMap.at? id).isSome)
    (hend : ∀ x ∈ l, ∀ c, x.1.call = .traceEnd c → Profiler.traceId env x.1.thread c ≠ id) :
    TraceOngoing env p₀ id l := by
  refine ⟨fun l₁ l₂ p hl hrun => ?_, hend⟩
  refine LogMachine.RunFrom.invariant (I := fun l p => (∀ x ∈ l, ∀ c, x.1.call = .traceEnd c →
    Profiler.traceId env x.1.thread c ≠ id) → (p.storage.ongoingTraceInfoMap.at? id).isSome)
    (fun _ => hsome) ?_ hrun fun x hx => hend x (by simp [hl, hx])
  intro l p e o p' hl ih hstep hend
  have hbefore := ih fun x hx => hend x (List.mem_append_left _ hx)
  have hp : Run env (l₀ ++ l) p := (machine env).runFrom_append.mpr ⟨p₀, hrun₀, hl⟩
  rw [Profiler.step_ongoing hstep id]
  cases hcall : e.call with
  | traceStart c =>
    dsimp only
    split_ifs
    · rfl
    · exact hbefore
  | traceEnd c =>
    have hne := hend (e, o) (by simp) c hcall
    dsimp only
    split_ifs with hinfo herased hself
    · exact hbefore
    · -- the id stored in the trace that is ended is its own, or `0`
      exfalso
      cases hk : p.storage.ongoingTraceInfoMap.at? (Profiler.traceId env e.thread c) with
      | none =>
        rw [Profiler.endedTrace, hk] at herased
        exact hid herased
      | some trace =>
        rw [Profiler.endedTrace, hk] at herased
        rcases ongoing_coroutineId hp hk with hown | hzero
        · exact hne (hown.symm.trans herased.symm)
        · exact hid (herased.trans hzero)
    · exact absurd hself.symm hne
    · exact hbefore
  | _ => exact hbefore

/-- While the trace is ongoing, its entry is the one that `traceStart` made. -/
lemma ongoing_eq_of_traceOngoing {start : TraceTime} (hrun : (machine env).RunFrom p₀ l p)
    (hstart : p₀.storage.ongoingTraceInfoMap.at? id = some ⟨id, start, 0⟩)
    (h : TraceOngoing env p₀ id l) :
    p.storage.ongoingTraceInfoMap.at? id = some ⟨id, start, 0⟩ := by
  refine LogMachine.RunFrom.invariant (I := fun l p => TraceOngoing env p₀ id l →
    p.storage.ongoingTraceInfoMap.at? id = some ⟨id, start, 0⟩) (fun _ => hstart) ?_ hrun h
  intro l p e o p' hrun ih hstep h
  have hbefore := ih ⟨h.1.of_append, fun x hx => h.2 x (List.mem_append_left _ hx)⟩
  have hafter := h.1.last ((machine env).runFrom_concat.mpr ⟨p, hrun, hstep⟩)
  have hongoing := Profiler.step_ongoing hstep id
  rw [hbefore] at hongoing
  cases hcall : e.call with
  | traceStart c => simpa [hcall] using hongoing
  | traceEnd c =>
    simp only [hcall] at hongoing
    have hne : Profiler.traceId env e.thread c ≠ id := h.2 (e, o) (by simp) c hcall
    -- the entry is not erased, as the trace is still ongoing afterwards
    split_ifs at hongoing with hinfo herased hself
    · exact hongoing
    · rw [hongoing] at hafter
      cases hafter
    · exact absurd hself.symm hne
    · exact hongoing
  | _ => simpa [hcall] using hongoing

/-- Where the data is kept, a `traceEnd` writes the trace with it. -/
lemma TraceDataKept.endWrites {start : TraceTime} (h : TraceDataKept p₀ id l p)
    (hongoing : p.storage.ongoingTraceInfoMap.at? id = some ⟨id, start, 0⟩) :
    EndWrites env p₀ start id l p := by
  intro e c p' o hcall hid hstep
  refine ⟨h.step hstep fun hclean => ?_, fun hlong => ?_⟩
  · rw [hcall] at hclean
    cases hclean
  · have hended : p.endedTrace e.toContext id = ⟨id, start, e.now⟩ := by
      rw [Profiler.endedTrace, hongoing]
      rfl
    refine Profiler.exists_wrote hstep hcall ?_ ?_ hlong
    · rw [hid]
      exact h.info
    · rw [hid]
      exact hended

end Step

/-- **When the data of a trace survives.** A `traceStart` of `id` returned in the state `p₀`, the
coroutine having an info, and the trace is ongoing in the part `l` of the run that follows. Then at
every point of `l` the data of the trace is in the storage and a `traceEnd` would write it, if and
only if every clean in `l` finds neither the info nor the child list marked, and the samples marked
only when none was stored since the start. -/
theorem traceData_kept_iff {env : Env} {s p₀ p : Profiler} {e₀ : Event} {o₀ : List Effect}
    {c id : JLong} {l : Log} (hstart : s.step env e₀ = some (p₀, o₀))
    (hcall : e₀.call = .traceStart c) (hid : Profiler.traceId env e₀.thread c = id)
    (hreturned : ¬ ∃ message, .threw message ∈ o₀)
    (hinfo : (p₀.storage.getCoroutineInfo id).isSome) (hrun : (machine env).RunFrom p₀ l p)
    (hongoing : TraceOngoing env p₀ id l) :
    (machine env).Throughout p₀
        (fun l p => TraceDataKept p₀ id l p ∧ EndWrites env p₀ e₀.now id l p) l ↔
      (machine env).EveryStepFrom p₀ (CleanSpares id) l := by
  constructor
  · intro hkept l₁ e o l₂ p₁ hl hp₁
    obtain ⟨p₁', hp₁', hrest⟩ := (machine env).runFrom_append.mp (hl ▸ hrun)
    obtain ⟨p₂, hstep, -⟩ := (machine env).runFrom_cons.mp hrest
    rw [LogMachine.RunFrom.unique hp₁' hp₁] at hstep
    by_contra hlost
    have hdata := (hkept (l₁ ++ [(e, o)]) l₂ p₂ (by simp [hl])
      ((machine env).runFrom_concat.mpr ⟨p₁, hp₁, hstep⟩)).1
    exact not_traceDataKept_of_clean hstep hlost hdata
  · intro hspares
    have hnone : s.storage.ongoingTraceInfoMap.at? id = none := by
      by_contra hsome
      exact hreturned ((Profiler.exists_threw_iff hstart).mpr ⟨c, hcall, by rw [hid]; exact hsome⟩)
    have hentry : p₀.storage.ongoingTraceInfoMap.at? id = some ⟨id, e₀.now, 0⟩ := by
      rw [Profiler.step_ongoing hstart id, hcall]
      simp [hid, hnone]
    have hinit : TraceDataKept p₀ id [] p₀ := by
      refine ⟨hinfo, ?_, List.nil_suffix⟩
      have hchildren := Profiler.step_children hstart id
      rw [hcall] at hchildren
      simp only [hid, if_true] at hchildren
      exact ⟨_, _, hchildren, hchildren, List.prefix_rfl⟩
    have hkept : (machine env).Throughout p₀ (TraceDataKept p₀ id) l :=
      hspares.throughout hinit fun l p e o p' _ hdata hspare hstep => hdata.step hstep hspare
    intro l₁ l₂ p₁ hl hp₁
    have hdata := hkept l₁ l₂ p₁ hl hp₁
    subst hl
    refine ⟨hdata, hdata.endWrites (ongoing_eq_of_traceOngoing hp₁ hentry ?_)⟩
    exact ⟨hongoing.1.of_append, fun x hx => hongoing.2 x (List.mem_append_left _ hx)⟩

/-! ## Concrete runs -/

/-- A coroutine that is created after a mark of the cleaner. -/
def createdAfterMark : List Event :=
  [(Call.threadStart "main" 0 0).at 1 1, Call.markForClean.at 9 2, (Call.coroutineCreated 5).at 1 3]

/-- A sample of the coroutine is stored, and the cleaner cleans. -/
def sampledAndCleaned : List Event :=
  [(Call.addProcessedTrace 5 ⟨[], "main", 5⟩).at 9 5, Call.clean.at 9 6]

/-- The data of its trace, with the sample, survives the clean. -/
theorem traceData_kept_createdAfterMark :
    ∃ l₀ p₀ l p, Run .sample l₀ p₀ ∧
      l₀.map Prod.fst = createdAfterMark ++ [(Call.traceStart 5).at 1 4] ∧
      (machine .sample).RunFrom p₀ l p ∧
      l.map Prod.fst = sampledAndCleaned ∧
      (machine .sample).Throughout p₀
        (fun l p => TraceDataKept p₀ 5 l p ∧ EndWrites .sample p₀ 4 5 l p) l := by
  have hexec : ((machine .sample).exec (machine .sample).init
      (createdAfterMark ++ [(Call.traceStart 5).at 1 4])).map
      (fun q => (q.2.getLast?.map fun x => x.2.isEmpty, (q.1.storage.getCoroutineInfo 5).isSome,
        (q.1.storage.ongoingTraceInfoMap.at? 5).isSome,
        ((machine .sample).exec q.1 sampledAndCleaned).isSome,
        (machine .sample).check (fun l p e => decide (CleanSpares 5 l p e)) [] q.1
          sampledAndCleaned)) =
      some (some true, true, true, true, true) := by decide
  obtain ⟨l₀, s, o₀, p₀, hrun₀, hes, hstart, hend⟩ := LogMachine.exists_last_of_map_exec hexec
  simp only [List.getLast?_concat, Option.map_some, Prod.mk.injEq, Option.some.injEq] at hend
  obtain ⟨hempty, hinfo, hsome, hexec, hcheck⟩ := hend
  obtain ⟨⟨p, l⟩, hl⟩ := Option.isSome_iff_exists.mp hexec
  have hrun := (machine .sample).runFrom_of_exec hl
  have hevents := (machine .sample).map_fst_of_exec hl
  have hp₀ : Run .sample (l₀ ++ [((Call.traceStart 5).at 1 4, o₀)]) p₀ :=
    (machine .sample).runFrom_concat.mpr ⟨s, hrun₀, hstart⟩
  have hspares := LogMachine.everyStepFrom_of_check hrun (by rw [hevents]; exact hcheck)
  simp only [decide_eq_true_eq] at hspares
  have hongoing : TraceOngoing .sample p₀ 5 l := by
    refine traceOngoing_of_ne_zero hp₀ (by decide) hsome fun x hx c hcall => ?_
    have hx' : x.1 ∈ l.map Prod.fst := List.mem_map_of_mem hx
    rw [hevents] at hx'
    simp only [sampledAndCleaned, List.mem_cons, List.not_mem_nil, or_false] at hx'
    rcases hx' with hx' | hx' <;> rw [hx'] at hcall <;> cases hcall
  refine ⟨_, p₀, l, p, hp₀, by simp [hes], hrun, hevents, ?_⟩
  have hstep : s.step .sample ((Call.traceStart 5).at 1 4) = some (p₀, o₀) := hstart
  refine (traceData_kept_iff hstep rfl rfl ?_ hinfo hrun hongoing).mpr hspares
  rintro ⟨message, hmessage⟩
  rw [List.isEmpty_iff.mp hempty] at hmessage
  cases hmessage

/-- A coroutine that is created before a mark of the cleaner, and traced after it. -/
def markedBeforeTrace : List Event :=
  [(Call.threadStart "main" 0 0).at 1 1, (Call.coroutineCreated 5).at 1 2, Call.markForClean.at 9 3,
    (Call.traceStart 5).at 1 4]

/-- **The cleaner drops the info of a coroutine whose trace is ongoing**, and its `traceEnd` writes
nothing although the trace took longer than the threshold. -/
theorem traceData_lost :
    ∃ l₀ p₀ l p p' o, Run .sample l₀ p₀ ∧ l₀.map Prod.fst = markedBeforeTrace ∧
      (p₀.storage.getCoroutineInfo 5).isSome ∧ (machine .sample).RunFrom p₀ l p ∧
      l.map Prod.fst = [Call.clean.at 9 5] ∧
      p.storage.ongoingTraceInfoMap.at? 5 = some ⟨5, 4, 0⟩ ∧ ¬ TraceDataKept p₀ 5 l p ∧
      p.step .sample ((Call.traceEnd 5).at 1 7) = some (p', o) ∧ Env.sample.threshold < 7 - 4 ∧
      ∀ path packets, .wrote path packets ∉ o := by
  have hexec : ((machine .sample).exec (machine .sample).init markedBeforeTrace).map
      (fun q => ((q.1.storage.getCoroutineInfo 5).isSome,
        ((machine .sample).exec q.1 [Call.clean.at 9 5]).map fun r =>
          ((r.1.storage.getCoroutineInfo 5).isSome, r.1.storage.ongoingTraceInfoMap.at? 5,
            (r.1.step .sample ((Call.traceEnd 5).at 1 7)).map fun x => x.2.isEmpty))) =
      some (true, some (false, some ⟨5, 4, 0⟩, some true)) := by decide
  obtain ⟨l₀, p₀, hrun₀, hes, hend⟩ := LogMachine.exists_run_of_map_exec hexec
  simp only [Prod.mk.injEq] at hend
  obtain ⟨hinfo, hclean⟩ := hend
  obtain ⟨⟨p, l⟩, hl, hafter⟩ := Option.map_eq_some_iff.mp hclean
  simp only [Prod.mk.injEq] at hafter
  obtain ⟨hlost, hongoing, htraceEnd⟩ := hafter
  obtain ⟨⟨p', o⟩, hstep, hempty⟩ := Option.map_eq_some_iff.mp htraceEnd
  refine ⟨l₀, p₀, l, p, p', o, hrun₀, hes, hinfo, (machine .sample).runFrom_of_exec hl,
    (machine .sample).map_fst_of_exec hl, hongoing, fun hkept => ?_, hstep, by decide, ?_⟩
  · rw [hkept.info] at hlost
    cases hlost
  · intro path packets hwrote
    have hnil : o = [] := List.isEmpty_iff.mp hempty
    rw [hnil] at hwrote
    cases hwrote

end KotlinTracer
