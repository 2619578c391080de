import KotlinTracer.Export.Tracks
import KotlinTracer.Profiler.Steps

set_option relaxedAutoImplicit false
set_option autoImplicit false

/-!
# Which coroutines a trace shows

A trace of `r` shows the coroutines that were created, directly or indirectly, by `r`, as far as
the profiler tracks creations: a creation counts when the coroutine that runs on the thread has a
child list at that moment, because it was traced or was itself created by a coroutine with one.
Both who runs where and who has a child list follow from the calls alone, so the coroutines of a
trace are defined here from the calls, and the thread-local variables and the child lists of the
profiler are shown to agree with that.

## Main definitions

* `KotlinTracer.Lineage`, `KotlinTracer.lineage` — who runs where and who has a child list, from the
  calls.
* `KotlinTracer.CreatedUnder` — a coroutine was created by a coroutine with a child list.
* `KotlinTracer.InTrace` — the least set of coroutines with the root that is closed under
  `CreatedUnder`.
* `KotlinTracer.Exports` — a packet list has a coroutine track of a coroutine.

## Main results

* `KotlinTracer.lineageRefines_of_run` — the state of the profiler agrees with the calls.
* `KotlinTracer.exports_writePerfetto_iff` — the writer exports the coroutines with an info that are
  reached from the root in the child lists.
* `KotlinTracer.exports_iff_inTrace` — a written trace shows exactly the coroutines of the trace,
  when the trace that `traceEnd` finds is the one of its coroutine.
-/

namespace KotlinTracer

/-! ## The lineage of coroutines, from the calls -/

/-- The coroutine that runs on each thread, and the coroutines with a child list. -/
structure Lineage where
  current : PThread → JLong := fun _ => -1
  tracked : Finset JLong := ∅

/-- The lineage after one more call. -/
def Lineage.step (env : Env) (g : Lineage) (e : Event) : Lineage :=
  match e.call with
  | .coroutineResumed c => { g with current := Function.update g.current e.thread c }
  | .coroutineSuspended _ _ => { g with current := Function.update g.current e.thread (-1) }
  | .coroutineCompleted _ => { g with current := Function.update g.current e.thread (-1) }
  | .traceStart c => { g with tracked := insert (Profiler.traceId env e.thread c) g.tracked }
  | .coroutineCreated c =>
    if g.current e.thread ∈ g.tracked then { g with tracked := insert c g.tracked } else g
  | _ => g

/-- The lineage after the calls `es`. -/
def lineage (env : Env) (es : List Event) : Lineage := es.foldl (Lineage.step env) {}

/-- Some `coroutineCreated(b)` was called on a thread that ran `a`, at a moment when `a` had a child
list. -/
def CreatedUnder (env : Env) (es : List Event) (a b : JLong) : Prop :=
  es.Somewhere fun before e => e.call = .coroutineCreated b ∧
    (lineage env before).current e.thread = a ∧ a ∈ (lineage env before).tracked

/-- The coroutines of the trace of `r`: the least set with `r` that holds with a coroutine all that
were created under it. -/
def InTrace (env : Env) (es : List Event) (r : JLong) : JLong → Prop :=
  Relation.ReflTransGen (CreatedUnder env es) r

/-- One more call. -/
lemma lineage_concat (env : Env) (es : List Event) (e : Event) :
    lineage env (es ++ [e]) = (lineage env es).step env e := by
  simp [lineage]

/-- One more call. -/
lemma createdUnder_concat {env : Env} {es : List Event} {e : Event} {a b : JLong} :
    CreatedUnder env (es ++ [e]) a b ↔ CreatedUnder env es a b ∨
      (e.call = .coroutineCreated b ∧ (lineage env es).current e.thread = a ∧
        a ∈ (lineage env es).tracked) :=
  List.somewhere_concat

/-- A call that creates nothing. -/
lemma createdUnder_concat_of_ne {env : Env} {es : List Event} {e : Event}
    (h : ∀ d, e.call ≠ .coroutineCreated d) :
    CreatedUnder env (es ++ [e]) = CreatedUnder env es := by
  funext a b
  rw [createdUnder_concat]
  exact propext (or_iff_left fun hcreated => h b hcreated.1)

/-! ## The profiler refines the lineage -/

/-- The state of the profiler agrees with the calls. -/
structure LineageRefines (env : Env) (es : List Event) (p : Profiler) : Prop where
  current : ∀ t, (p.locals t).currentCoroutineId = (lineage env es).current t
  tracked : ∀ c, (p.storage.getChildCoroutines c).isSome ↔ c ∈ (lineage env es).tracked
  children : ∀ a b, p.storage.IsChild a b ↔ CreatedUnder env es a b
  info : ∀ a b, CreatedUnder env es a b → (p.storage.getCoroutineInfo b).isSome

section Step

variable {env : Env} {es : List Event} {p p' : Profiler} {e : Event} {o : List Effect}

/-- The running coroutines agree after a step. -/
lemma LineageRefines.step_current (hstep : p.step env e = some (p', o))
    (h : ∀ t, (p.locals t).currentCoroutineId = (lineage env es).current t) (t : PThread) :
    (p'.locals t).currentCoroutineId = (lineage env (es ++ [e])).current t := by
  rw [Profiler.step_currentCoroutineId hstep t, lineage_concat, Lineage.step, h t]
  cases hcall : e.call with
  | coroutineResumed c => simp [Function.update_apply]
  | coroutineSuspended c stack => simp [Function.update_apply]
  | coroutineCompleted c => simp [Function.update_apply]
  | coroutineCreated c =>
    dsimp only
    split_ifs <;> rfl
  | _ => rfl

/-- A coroutine that is created under one with a child list: the list is extended, and the created
coroutine gets a list of its own. -/
lemma LineageRefines.step_created_tracked {d : JLong} (hstep : p.step env e = some (p', o))
    (hcall : e.call = .coroutineCreated d) (h : LineageRefines env es p)
    (htracked : (lineage env es).current e.thread ∈ (lineage env es).tracked) :
    (∀ c, (p'.storage.getChildCoroutines c).isSome ↔
      c ∈ (lineage env (es ++ [e])).tracked) ∧
      ∀ a b, p'.storage.IsChild a b ↔ CreatedUnder env (es ++ [e]) a b := by
  have hchildren := fun c => Profiler.step_children hstep c
  simp only [hcall, h.current] at hchildren
  set parent := (lineage env es).current e.thread with hparent
  rw [lineage_concat, Lineage.step, hcall]
  dsimp only
  have hsome := (h.tracked parent).mpr htracked
  rw [if_pos htracked]
  have hne : p.storage.getChildCoroutines parent ≠ none := by
    intro hnone
    rw [hnone] at hsome
    cases hsome
  simp only [hne, if_false] at hchildren
  refine ⟨fun c => ?_, fun a b => ?_⟩
  · rw [hchildren, Finset.mem_insert, ← h.tracked]
    by_cases hc : c = parent
    · rw [if_pos hc, Option.isSome_map, hc]
      simp [hsome]
    · rw [if_neg hc]
      by_cases hd : c = d
      · simp [hd]
      · simp [hd]
  · rw [createdUnder_concat, ← h.children, TraceStorage.IsChild, hchildren]
    by_cases ha : a = parent
    · -- the child list of the parent is extended by `d`
      subst ha
      obtain ⟨list, hlist⟩ := Option.isSome_iff_exists.mp hsome
      simp only [if_true, hlist, Option.map_some, Option.some.injEq, exists_eq_left',
        ConcurrentList.list_pushBack, List.mem_append, List.mem_singleton, hcall,
        Call.coroutineCreated.injEq, ← hparent, htracked, and_true, TraceStorage.IsChild]
      exact or_congr Iff.rfl eq_comm
    · have hright : ¬ (e.call = .coroutineCreated b ∧ parent = a ∧
          a ∈ (lineage env es).tracked) := fun hcreated => ha hcreated.2.1.symm
      rw [if_neg ha, or_iff_left hright]
      by_cases hd : a = d
      · -- the created coroutine gets a child list, which is empty when it is new
        rw [if_pos hd, TraceStorage.IsChild]
        cases p.storage.getChildCoroutines a with
        | none => simp
        | some list => simp
      · rw [if_neg hd]
        rfl

/-- A coroutine that is created under one without a child list changes no child list. -/
lemma LineageRefines.step_created_untracked {d : JLong} (hstep : p.step env e = some (p', o))
    (hcall : e.call = .coroutineCreated d) (h : LineageRefines env es p)
    (htracked : (lineage env es).current e.thread ∉ (lineage env es).tracked) :
    (∀ c, (p'.storage.getChildCoroutines c).isSome ↔
      c ∈ (lineage env (es ++ [e])).tracked) ∧
      ∀ a b, p'.storage.IsChild a b ↔ CreatedUnder env (es ++ [e]) a b := by
  have hchildren := fun c => Profiler.step_children hstep c
  simp only [hcall, h.current] at hchildren
  have hnone : p.storage.getChildCoroutines ((lineage env es).current e.thread) = none := by
    have hnot := htracked
    rw [← h.tracked, Bool.not_eq_true, Option.isSome_eq_false_iff, Option.isNone_iff_eq_none]
      at hnot
    exact hnot
  rw [lineage_concat, Lineage.step, hcall]
  dsimp only
  rw [if_neg htracked]
  simp only [hnone, if_true] at hchildren
  refine ⟨fun c => ?_, fun a b => ?_⟩
  · rw [hchildren]
    exact h.tracked c
  · have hright : ¬ (e.call = .coroutineCreated b ∧ (lineage env es).current e.thread = a ∧
        a ∈ (lineage env es).tracked) := by
      rintro ⟨-, rfl, hmem⟩
      exact htracked hmem
    rw [createdUnder_concat, or_iff_left hright, ← h.children, TraceStorage.IsChild, hchildren]
    rfl

/-- The child lists after a `coroutineCreated`. -/
lemma LineageRefines.step_created {d : JLong} (hstep : p.step env e = some (p', o))
    (hcall : e.call = .coroutineCreated d) (h : LineageRefines env es p) :
    (∀ c, (p'.storage.getChildCoroutines c).isSome ↔
      c ∈ (lineage env (es ++ [e])).tracked) ∧
      ∀ a b, p'.storage.IsChild a b ↔ CreatedUnder env (es ++ [e]) a b := by
  by_cases htracked : (lineage env es).current e.thread ∈ (lineage env es).tracked
  · exact h.step_created_tracked hstep hcall htracked
  · exact h.step_created_untracked hstep hcall htracked

/-- **One step keeps the agreement**, unless it is a clean. -/
lemma LineageRefines.step (hstep : p.step env e = some (p', o)) (hclean : e.call ≠ .clean)
    (h : LineageRefines env es p) : LineageRefines env (es ++ [e]) p' := by
  have hinfo : ∀ c, (p.storage.getCoroutineInfo c).isSome →
      (p'.storage.getCoroutineInfo c).isSome :=
    fun c hc => Profiler.isSome_info_of_step hstep hc fun hcall => absurd hcall hclean
  -- a call that does not create a coroutine and leaves the child lists alone
  have hother : (∀ d, e.call ≠ .coroutineCreated d) →
      (∀ c, p'.storage.getChildCoroutines c = p.storage.getChildCoroutines c) →
      (lineage env (es ++ [e])).tracked = (lineage env es).tracked →
      LineageRefines env (es ++ [e]) p' := by
    intro hcall hchildren htracked
    have hcreated : CreatedUnder env (es ++ [e]) = CreatedUnder env es :=
      createdUnder_concat_of_ne hcall
    refine ⟨LineageRefines.step_current hstep h.current, fun c => ?_, fun a b => ?_,
      fun a b hab => ?_⟩
    · rw [hchildren, htracked]
      exact h.tracked c
    · rw [hcreated, ← h.children, TraceStorage.IsChild, TraceStorage.IsChild, hchildren]
    · rw [hcreated] at hab
      exact hinfo b (h.info a b hab)
  have hchildren := fun c => Profiler.step_children hstep c
  have hlineage := congrArg Lineage.tracked (lineage_concat env es e)
  rw [Lineage.step] at hlineage
  cases hcall : e.call with
  | coroutineCreated d =>
    obtain ⟨htracked, hchild⟩ := LineageRefines.step_created hstep hcall h
    refine ⟨LineageRefines.step_current hstep h.current, htracked, hchild, fun a b hab => ?_⟩
    rcases createdUnder_concat.mp hab with hab | ⟨hb, -, -⟩
    · exact hinfo b (h.info a b hab)
    · obtain ⟨frames, hupdate⟩ := Profiler.step_info hstep
      rw [hcall, Call.coroutineCreated.injEq] at hb
      rw [hupdate b, infoUpdate, hcall, hb]
      simp
  | traceStart c =>
    have hcreated : CreatedUnder env (es ++ [e]) = CreatedUnder env es :=
      createdUnder_concat_of_ne (by simp [hcall])
    simp only [hcall] at hchildren hlineage
    refine ⟨LineageRefines.step_current hstep h.current, fun k => ?_, fun a b => ?_,
      fun a b hab => ?_⟩
    · rw [hchildren, hlineage, Finset.mem_insert, ← h.tracked]
      by_cases hk : k = Profiler.traceId env e.thread c
      · simp [hk]
      · simp [hk]
    · rw [hcreated, ← h.children, TraceStorage.IsChild, TraceStorage.IsChild, hchildren]
      by_cases ha : a = Profiler.traceId env e.thread c
      · rw [if_pos ha]
        cases p.storage.getChildCoroutines a with
        | none => simp
        | some list => simp
      · rw [if_neg ha]
    · rw [hcreated] at hab
      exact hinfo b (h.info a b hab)
  | clean => exact absurd hcall hclean
  | _ =>
    simp only [hcall] at hchildren hlineage
    exact hother (by simp [hcall]) hchildren hlineage

end Step

/-- In every run without a clean the state of the profiler agrees with the calls. -/
lemma lineageRefines_of_run {env : Env} {l : Log} {p : Profiler} (hrun : Run env l p)
    (hclean : ∀ x ∈ l, x.1.call ≠ .clean) : LineageRefines env (l.map Prod.fst) p := by
  refine LogMachine.RunFrom.invariant (I := fun l p => (∀ x ∈ l, x.1.call ≠ .clean) →
    LineageRefines env (l.map Prod.fst) p) ?_ ?_ hrun hclean
  · intro _
    refine ⟨fun _ => rfl, fun c => ?_, fun a b => ?_, fun a b hab => ?_⟩
    · constructor
      · intro hsome
        cases hsome
      · intro hmem
        cases hmem
    · constructor
      · rintro ⟨list, hlist, -⟩
        cases hlist
      · intro hcreated
        exact absurd hcreated List.not_somewhere_nil
    · exact absurd hab List.not_somewhere_nil
  · intro l p e o p' _ ih hstep hclean
    rw [List.map_append]
    exact (ih fun x hx => hclean x (List.mem_append_left _ hx)).step hstep (hclean (e, o) (by simp))

/-! ## The coroutines that the writer exports -/

/-- The packets have a coroutine track of `d`: a slice with its name whose flow ends in it. -/
def Exports (packets : List TracePacket) (d : JLong) : Prop :=
  ∃ x ∈ packets, ∃ event, x.data = .trackEvent event ∧ event.type = .sliceBegin ∧
    event.name = some (coroutineName d) ∧ event.flowIds.getLast? = some d

/-- The coroutine tracks of rendered tracks. -/
lemma exports_render_iff {tracks : List Track} {d : JLong} :
    Exports (render tracks) d ↔ ∃ s, Track.slice s ∈ tracks ∧ s.title = coroutineName d ∧
      s.flowIds.getLast? = some d := by
  constructor
  · rintro ⟨x, hx, event, hevent, htype, hname, hflow⟩
    obtain ⟨i, s, hs, rfl⟩ := sliceBegin_render_iff.mp ⟨x, hx, hevent, htype⟩
    exact ⟨s, List.mem_of_getElem? hs, Option.some.inj hname, hflow⟩
  · rintro ⟨s, hs, htitle, hflow⟩
    obtain ⟨i, hi⟩ := List.mem_iff_getElem?.mp hs
    obtain ⟨x, hx, hevent, htype⟩ := sliceBegin_render_iff.mpr ⟨i, s, hi, rfl⟩
    exact ⟨x, hx, _, hevent, htype, congrArg some htitle, hflow⟩

/-- The writer exports the items of its order that have an info. -/
lemma exports_writePerfetto_iff {traceInfo : TraceInfo} {storage : TraceStorage} {d : JLong} :
    Exports (writePerfetto traceInfo storage) d ↔
      (∃ item ∈ exportOrder traceInfo storage, item.coroutineId = d) ∧
        (storage.getCoroutineInfo d).isSome := by
  have hlast : ∀ item : CoroutineQueueItem, (if item.parentCoroutineId = 0 then [item.coroutineId]
      else [item.parentCoroutineId, item.coroutineId]).getLast? = some item.coroutineId := by
    intro item
    split_ifs <;> rfl
  rw [writePerfetto_eq_render, exports_render_iff]
  constructor
  · rintro ⟨s, hs, -, hflow⟩
    rcases slice_mem_exportTracks.mp hs with h | ⟨event, -, h⟩ | ⟨item, hitem, info, hinfo, h⟩
    · rw [Track.slice.inj h] at hflow
      cases hflow
    · rw [← Track.slice.inj h] at hflow
      cases hflow
    · rcases h with h | ⟨suspension, -, h⟩
      · rw [Track.slice.inj h] at hflow
        have hd : item.coroutineId = d := Option.some.inj ((hlast item).symm.trans hflow)
        exact ⟨⟨item, hitem, hd⟩, by rw [← hd, hinfo]; rfl⟩
      · rw [← Track.slice.inj h] at hflow
        cases hflow
  · rintro ⟨⟨item, hitem, rfl⟩, hsome⟩
    obtain ⟨info, hinfo⟩ := Option.isSome_iff_exists.mp hsome
    refine ⟨_, slice_mem_exportTracks.mpr (Or.inr (Or.inr ⟨item, hitem, info, hinfo,
      Or.inl rfl⟩)), rfl, ?_⟩
    exact hlast item

/-- When all coroutines in child lists have an info, no coroutine on a path in the child lists is
skipped. -/
lemma reflTransGen_lists_iff {storage : TraceStorage} {root d : JLong}
    (hroot : (storage.getCoroutineInfo root).isSome)
    (hinfo : ∀ a b, storage.IsChild a b → (storage.getCoroutineInfo b).isSome) :
    Relation.ReflTransGen storage.Lists root d ↔ Relation.ReflTransGen storage.IsChild root d := by
  constructor
  · intro hpath
    have hle : storage.Lists ≤ storage.IsChild := fun a b hab => hab.2
    exact Relation.ReflTransGen.mono hle root d hpath
  · intro hpath
    induction hpath with
    | refl => exact .refl
    | @tail a b hprev hchild ih =>
      refine ih.tail ⟨?_, hchild⟩
      cases hprev with
      | refl => exact hroot
      | tail _ hlast => exact hinfo _ a hlast

/-- **A written trace shows exactly the coroutines of the trace.** In every run without a clean,
when a `traceEnd` of the coroutine `r` writes a trace and the trace it found is the one of `r`, the
coroutines with a coroutine track are `r` and all that were created, directly or indirectly, under
it. -/
theorem exports_iff_inTrace {env : Env} {l : Log} {p p' : Profiler} {e : Event} {o : List Effect}
    {c : JLong} {path : String} {packets : List TracePacket} (hrun : Run env l p)
    (hclean : ∀ x ∈ l, x.1.call ≠ .clean) (hcall : e.call = .traceEnd c)
    (hstep : p.step env e = some (p', o)) (hwrote : .wrote path packets ∈ o)
    (hown : ((p.storage.ongoingTraceInfoMap.at? (Profiler.traceId env e.thread c)).getD
      {}).coroutineId = Profiler.traceId env e.thread c) (d : JLong) :
    Exports packets d ↔
      InTrace env (l.map Prod.fst) (Profiler.traceId env e.thread c) d := by
  obtain ⟨hsome, rfl⟩ := Profiler.packets_of_wrote hstep hcall hwrote
  have hnotClean : e.call ≠ .clean := by simp [hcall]
  -- the call creates no coroutine, so the lineage after it is the one before it
  have hrefines := (lineageRefines_of_run hrun hclean).step hstep hnotClean
  have hcreated : CreatedUnder env (l.map Prod.fst ++ [e]) = CreatedUnder env (l.map Prod.fst) :=
    createdUnder_concat_of_ne (by simp [hcall])
  have hchild : p'.storage.IsChild = CreatedUnder env (l.map Prod.fst) := by
    funext a b
    rw [← hcreated]
    exact propext (hrefines.children a b)
  have hinfo : ∀ a b, p'.storage.IsChild a b → (p'.storage.getCoroutineInfo b).isSome := by
    intro a b hab
    rw [hchild, ← hcreated] at hab
    exact hrefines.info a b hab
  have hroot : (p.endedTrace e.toContext (Profiler.traceId env e.thread c)).coroutineId =
      Profiler.traceId env e.thread c := hown
  have hrootInfo : (p'.storage.getCoroutineInfo
      (p.endedTrace e.toContext (Profiler.traceId env e.thread c)).coroutineId).isSome := by
    rw [hroot]
    exact Profiler.isSome_info_of_step hstep hsome fun h => absurd h hnotClean
  rw [exports_writePerfetto_iff, exportOrder_iff, reflTransGen_lists_iff hrootInfo hinfo, hroot,
    InTrace, hchild]
  refine and_iff_left_of_imp fun hpath => ?_
  -- every coroutine of the trace has an info
  cases hpath with
  | refl => rwa [hroot] at hrootInfo
  | tail _ hlast => exact hinfo _ d (by rw [hchild]; exact hlast)

/-! ## Concrete runs -/

/-- A traced coroutine creates another one. -/
def tracedParent : List Event :=
  [(Call.threadStart "main" 0 0).at 1 1, (Call.coroutineCreated 5).at 1 2,
    (Call.coroutineResumed 5).at 1 3, (Call.traceStart 5).at 1 4, (Call.coroutineCreated 6).at 1 5]

/-- The trace of the first coroutine shows both. -/
theorem exports_tracedParent :
    ∃ l p p' o path packets, Run .sample l p ∧ l.map Prod.fst = tracedParent ∧
      p.step .sample ((Call.traceEnd 5).at 1 7) = some (p', o) ∧ .wrote path packets ∈ o ∧
      Exports packets 5 ∧ Exports packets 6 := by
  have hexec : ((machine .sample).exec (machine .sample).init tracedParent).map
      (fun q => ((q.1.storage.getCoroutineInfo 5).isSome, q.1.storage.ongoingTraceInfoMap.at? 5,
        (q.1.step .sample ((Call.traceEnd 5).at 1 7)).isSome)) =
      some (true, some ⟨5, 4, 0⟩, true) := by decide
  obtain ⟨l, p, hrun, hes, hend⟩ := LogMachine.exists_run_of_map_exec hexec
  simp only [Prod.mk.injEq] at hend
  obtain ⟨hinfo, hongoing, hsome⟩ := hend
  obtain ⟨⟨p', o⟩, hstep⟩ := Option.isSome_iff_exists.mp hsome
  have hclean : ∀ x ∈ l, x.1.call ≠ .clean := by
    intro x hx
    have hmem : x.1 ∈ l.map Prod.fst := List.mem_map_of_mem hx
    rw [hes] at hmem
    exact (by decide : ∀ e ∈ tracedParent, e.call ≠ .clean) x.1 hmem
  have hended : p.endedTrace ((Call.traceEnd 5).at 1 7).toContext 5 = ⟨5, 4, 7⟩ := by
    rw [Profiler.endedTrace, hongoing]
    rfl
  have hown : ((p.storage.ongoingTraceInfoMap.at? 5).getD {}).coroutineId = 5 := by
    rw [hongoing]
    rfl
  have hcall : ((Call.traceEnd 5).at 1 7).call = .traceEnd 5 := rfl
  obtain ⟨path, hwrote⟩ := Profiler.exists_wrote hstep hcall hinfo hended (by decide)
  refine ⟨l, p, p', o, _, _, hrun, hes, hstep, hwrote, ?_, ?_⟩
  · exact (exports_iff_inTrace hrun hclean hcall hstep hwrote hown 5).mpr .refl
  · refine (exports_iff_inTrace hrun hclean hcall hstep hwrote hown 6).mpr (.single ?_)
    rw [hes]
    exact ⟨tracedParent.take 4, (Call.coroutineCreated 6).at 1 5, [], rfl, rfl, rfl, by decide⟩

/-- A coroutine whose trace has ended. -/
def endedOnce : List Event :=
  [(Call.threadStart "main" 0 0).at 1 1, (Call.coroutineCreated 5).at 1 2,
    (Call.traceStart 5).at 1 3, (Call.traceEnd 5).at 1 4]

/-- **A `traceEnd` without a trace writes the trace of the coroutine `0`**: it finds the default
trace, whose coroutine has no info, and writes packets without its own coroutine. -/
theorem exports_misses_root :
    ∃ l p p' o path packets, Run .sample l p ∧ l.map Prod.fst = endedOnce ∧
      p.step .sample ((Call.traceEnd 5).at 1 5) = some (p', o) ∧ .wrote path packets ∈ o ∧
      InTrace .sample (l.map Prod.fst) 5 5 ∧ ¬ Exports packets 5 := by
  have hexec : ((machine .sample).exec (machine .sample).init endedOnce).map
      (fun q => ((q.1.storage.getCoroutineInfo 5).isSome, q.1.storage.ongoingTraceInfoMap.at? 5,
        (q.1.step .sample ((Call.traceEnd 5).at 1 5)).map fun r =>
          (r.1.storage.getCoroutineInfo 0).isSome)) = some (true, none, some false) := by decide
  obtain ⟨l, p, hrun, hes, hend⟩ := LogMachine.exists_run_of_map_exec hexec
  simp only [Prod.mk.injEq] at hend
  obtain ⟨hinfo, hongoing, hafter⟩ := hend
  obtain ⟨⟨p', o⟩, hstep, hzero⟩ := Option.map_eq_some_iff.mp hafter
  have hended : p.endedTrace ((Call.traceEnd 5).at 1 5).toContext 5 = ⟨0, 0, 5⟩ := by
    rw [Profiler.endedTrace, hongoing]
    rfl
  obtain ⟨path, hwrote⟩ := Profiler.exists_wrote hstep rfl hinfo hended (by decide)
  refine ⟨l, p, p', o, _, _, hrun, hes, hstep, hwrote, .refl, fun hexports => ?_⟩
  obtain ⟨⟨item, hitem, hid⟩, -⟩ := exports_writePerfetto_iff.mp hexports
  -- the only item is the root, the coroutine `0`, which has no children as it has no info
  have hnone : p'.storage.getCoroutineInfo 0 = none := by simpa using hzero
  have hpath := exportOrder_iff.mp ⟨item, hitem, hid⟩
  rcases hpath.cases_head with heq | ⟨child, hlists, -⟩
  · cases heq
  · have hsome := hlists.1
    rw [hnone] at hsome
    cases hsome

end KotlinTracer
