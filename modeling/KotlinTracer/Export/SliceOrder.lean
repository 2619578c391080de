import KotlinTracer.Export.Tracks
import KotlinTracer.Profiler.Steps

set_option relaxedAutoImplicit false
set_option autoImplicit false

/-!
# Slices begin before they end

In the storage the time `0` stands for an end that has not come. The writer replaces it by the end
of the trace for a suspension, and the root gets the times of the trace; but the end of a child
coroutine is written as it is, so a child that is still running ends at `0`, before it began.

## Main definitions

* `KotlinTracer.SlicesOrdered` — the coroutine and suspension tracks of a packet list begin before
  they end.
* `KotlinTracer.TimesOrdered` — what is true of the times in the storage.
* `KotlinTracer.ChildrenCompleted` — every coroutine that is exported as a child has ended.

## Main results

* `KotlinTracer.timesOrdered_of_run` — the times in the storage are ordered in every run.
* `KotlinTracer.slicesOrdered_completed` — the slices of a written trace are ordered when all
  children have ended, and only then unless the coroutine `0` is exported.
-/

namespace KotlinTracer

/-! ## Slices of packets -/

/-- On every track with the name of a coroutine, which are the tracks of the coroutines and of their
suspensions, the begin of the slice is not after its end. -/
def SlicesOrdered (packets : List TracePacket) : Prop :=
  ∀ descriptor ∈ descriptors packets, (∃ c, descriptor.name = coroutineName c) →
    ∀ x ∈ eventsOn descriptor.uuid packets, ∀ y ∈ eventsOn descriptor.uuid packets,
      x.2.type = .sliceBegin → y.2.type = .sliceEnd →
        ∃ start endTime, x.1 = some start ∧ y.1 = some endTime ∧ start ≤ endTime

/-- The slices of rendered tracks. -/
lemma slicesOrdered_render_iff {tracks : List Track} :
    SlicesOrdered (render tracks) ↔ ∀ s, Track.slice s ∈ tracks →
      (∃ c, s.name = coroutineName c) → s.start ≤ s.endTime :=
  slicesSatisfy_render_iff (N := fun name => ∃ c, name = coroutineName c)
    (P := fun start endTime => start ≤ endTime)

/-- The slices that the writer writes: those of the coroutines and of the suspensions of the items
of its order. -/
lemma slicesOrdered_writePerfetto_iff {traceInfo : TraceInfo} {storage : TraceStorage} :
    SlicesOrdered (writePerfetto traceInfo storage) ↔
      ∀ item ∈ exportOrder traceInfo storage, ∀ info,
        storage.getCoroutineInfo item.coroutineId = some info →
        coroutineBegin traceInfo info item ≤ coroutineEnd traceInfo info item ∧
          ∀ suspension ∈ info.suspensionsList.list, suspension.start ≤
            if suspension.endTime ≠ 0 then suspension.endTime else traceInfo.endTime := by
  rw [writePerfetto_eq_render, slicesOrdered_render_iff]
  constructor
  · intro h item hitem info hinfo
    refine ⟨?_, fun suspension hsuspension => ?_⟩
    · exact h _ (slice_mem_exportTracks.mpr (Or.inr (Or.inr ⟨item, hitem, info, hinfo,
        Or.inl rfl⟩))) ⟨item.coroutineId, rfl⟩
    · exact h _ (slice_mem_exportTracks.mpr (Or.inr (Or.inr ⟨item, hitem, info, hinfo,
        Or.inr ⟨suspension, hsuspension, rfl⟩⟩))) ⟨item.coroutineId, rfl⟩
  · rintro h s hs ⟨c, hc⟩
    rcases slice_mem_exportTracks.mp hs with heq | ⟨event, -, heq⟩ | ⟨item, hitem, info, hinfo, heq⟩
    · rw [Track.slice.inj heq] at hc
      have hname : "Trace" = coroutineName c := hc
      exact absurd hname.symm (coroutineName_ne c (by decide))
    · rw [← Track.slice.inj heq] at hc
      have hname : "GC" = coroutineName c := hc
      exact absurd hname.symm (coroutineName_ne c (by decide))
    · obtain ⟨hcoroutine, hsuspensions⟩ := h item hitem info hinfo
      rcases heq with heq | ⟨suspension, hsuspension, heq⟩
      · rw [Track.slice.inj heq]
        exact hcoroutine
      · rw [← Track.slice.inj heq]
        exact hsuspensions suspension hsuspension

/-! ## The times in the storage -/

/-- The interval from `start` to `endTime` began by `now`, and is open or ended after its start. -/
def Spans (now start endTime : TraceTime) : Prop :=
  start ≤ now ∧ (endTime = 0 ∨ start ≤ endTime)

/-- The times of the info of a coroutine are ordered. -/
structure InfoTimes (now : TraceTime) (info : CoroutineInfo) : Prop where
  pos : 0 < info.start
  span : Spans now info.start info.endTime
  suspensions : ∀ suspension ∈ info.suspensionsList.list,
    Spans now suspension.start suspension.endTime

/-- The times in the storage are ordered, and none is after `now`. -/
structure TimesOrdered (now : TraceTime) (p : Profiler) : Prop where
  infos : ∀ c info, p.storage.getCoroutineInfo c = some info → InfoTimes now info
  ongoing : ∀ k trace, p.storage.ongoingTraceInfoMap.at? k = some trace → trace.start ≤ now

section Infos

variable {now : TraceTime} {info : CoroutineInfo}

/-- Later the times are still ordered. -/
lemma Spans.mono {now' start endTime : TraceTime} (h : Spans now start endTime) (hle : now ≤ now') :
    Spans now' start endTime :=
  ⟨h.1.trans hle, h.2⟩

/-- Later the times are still ordered. -/
lemma InfoTimes.mono {now' : TraceTime} (h : InfoTimes now info) (hle : now ≤ now') :
    InfoTimes now' info :=
  ⟨h.pos, h.span.mono hle, fun s hs => (h.suspensions s hs).mono hle⟩

/-- A new info. -/
lemma infoTimes_new (hnow : 0 < now) : InfoTimes now (TraceStorage.newCoroutineInfo now) :=
  ⟨hnow, ⟨le_rfl, Or.inl rfl⟩, fun s hs => by cases hs⟩

/-- Crediting changes no time but the running times. -/
lemma InfoTimes.credited {ctx : Context} (h : InfoTimes now info) (last : RUsage) :
    InfoTimes now (creditedInfo last ctx info) :=
  ⟨h.pos, h.span, h.suspensions⟩

/-- A completion sets the end. -/
lemma InfoTimes.completed {ctx : Context} (h : InfoTimes ctx.now info) (last : RUsage) :
    InfoTimes ctx.now (completedInfo last ctx info) :=
  ⟨h.pos, ⟨h.span.1, Or.inr h.span.1⟩, h.suspensions⟩

/-- A suspension appends an open suspension. -/
lemma InfoTimes.suspended {ctx : Context} (h : InfoTimes ctx.now info) (last : RUsage) (c : JLong)
    (frames : Option (List StackFrame)) :
    InfoTimes ctx.now (suspendedInfo last ctx c frames info) := by
  have hpaused : InfoTimes ctx.now (pausedInfo last ctx info) := by
    unfold pausedInfo
    split_ifs
    · exact ⟨h.pos, h.span, h.suspensions⟩
    · exact h
  rw [suspendedInfo]
  cases frames with
  | none => exact hpaused
  | some frames =>
    refine ⟨hpaused.pos, hpaused.span, fun s hs => ?_⟩
    rcases List.mem_append.mp hs with hs | hs
    · exact hpaused.suspensions s hs
    · rw [List.mem_singleton.mp hs]
      exact ⟨le_rfl, Or.inl rfl⟩

/-- A resumption ends a suspension. -/
lemma InfoTimes.resumed (h : InfoTimes now info) : InfoTimes now (resumedInfo now info) := by
  refine ⟨h.pos, h.span, fun s hs => ?_⟩
  rcases ConcurrentList.mem_updateFirstIn hs with hs | ⟨s', hs', -, rfl⟩
  · exact h.suspensions s hs
  · exact ⟨(h.suspensions s' hs').1, Or.inr (h.suspensions s' hs').1⟩

/-- Every update of an info keeps its times ordered. -/
lemma infoTimes_infoUpdate {env : Env} {e : Event} {last : RUsage}
    {frames : Option (List StackFrame)} {marked : Bool} {c : JLong} {old : Option CoroutineInfo}
    (hnow : 0 < e.now) (hold : ∀ info ∈ old, InfoTimes e.now info) :
    ∀ info ∈ infoUpdate env e last frames marked c old, InfoTimes e.now info := by
  have hmap : ∀ f : CoroutineInfo → CoroutineInfo,
      (∀ info, InfoTimes e.now info → InfoTimes e.now (f info)) →
      ∀ info ∈ old.map f, InfoTimes e.now info := by
    intro f hf info hinfo
    obtain ⟨info', hinfo', rfl⟩ := Option.map_eq_some_iff.mp hinfo
    exact hf info' (hold info' hinfo')
  have hchange := infoChange_infoUpdate env e last frames marked c old
  generalize infoUpdate env e last frames marked c old = new at hchange ⊢
  cases hchange with
  | keep => exact hold
  | create =>
    intro info hinfo
    rw [Option.mem_some_iff] at hinfo
    subst hinfo
    cases old with
    | none => exact infoTimes_new hnow
    | some info => exact hold info rfl
  | suspend hcall => exact hmap _ fun info h => h.suspended last c frames
  | resume hcall => exact hmap _ fun info h => h.resumed
  | complete => exact hmap _ fun info h => h.completed last
  | credit => exact hmap _ fun info h => h.credited last
  | remove =>
    intro info hinfo
    cases hinfo

end Infos

/-- **One step keeps the times ordered.** -/
lemma TimesOrdered.step {env : Env} {p p' : Profiler} {e : Event} {o : List Effect}
    (hstep : p.step env e = some (p', o)) (hnow : 0 < e.now) (h : TimesOrdered e.now p) :
    TimesOrdered e.now p' := by
  refine ⟨fun c info hinfo => ?_, fun k trace htrace => ?_⟩
  · obtain ⟨frames, hupdate⟩ := Profiler.step_info hstep
    rw [hupdate c] at hinfo
    exact infoTimes_infoUpdate hnow (fun info hinfo => h.infos c info hinfo) info hinfo
  · have hongoing := Profiler.step_ongoing hstep k
    rw [htrace] at hongoing
    cases hcall : e.call with
    | traceStart c =>
      simp only [hcall] at hongoing
      split_ifs at hongoing
      · rw [Option.some.inj hongoing]
      · exact h.ongoing k trace hongoing.symm
    | traceEnd c =>
      simp only [hcall] at hongoing
      split_ifs at hongoing
      · exact h.ongoing k trace hongoing.symm
      · rw [Option.some.inj hongoing]
        -- the trace found, or the default one, which starts at `0`
        cases hk : p.storage.ongoingTraceInfoMap.at? k with
        | none => exact hnow.le
        | some trace' => exact h.ongoing k trace' hk
      · exact h.ongoing k trace hongoing.symm
    | _ =>
      simp only [hcall] at hongoing
      exact h.ongoing k trace hongoing.symm

/-- In every run with a positive clock the times in the storage are ordered, and none is after a
time that no event is after. -/
lemma timesOrdered_of_run {env : Env} {l : Log} {p : Profiler} (hrun : Run env l p)
    (hclock : PositiveClock (l.map Prod.fst)) {now : TraceTime} (hnow : ∀ x ∈ l, x.1.now ≤ now) :
    TimesOrdered now p := by
  refine LogMachine.RunFrom.invariant (I := fun l p => PositiveClock (l.map Prod.fst) →
    ∀ now, (∀ x ∈ l, x.1.now ≤ now) → TimesOrdered now p) ?_ ?_ hrun hclock now hnow
  · intro _ now _
    refine ⟨fun c info hinfo => ?_, fun k trace htrace => ?_⟩
    · cases hinfo
    · cases htrace
  · intro l p e o p' _ ih hstep hclock now hnow
    rw [List.map_append] at hclock
    obtain ⟨hbefore, hpos, hlast⟩ := PositiveClock.of_concat hclock
    have hordered : TimesOrdered e.now p := by
      refine ih hbefore e.now fun x hx => ?_
      exact hlast x.1 (List.mem_map_of_mem hx)
    have hafter := hordered.step hstep hpos
    have hle : e.now ≤ now := hnow (e, o) (by simp)
    exact ⟨fun c info hinfo => (hafter.infos c info hinfo).mono hle,
      fun k trace htrace => (hafter.ongoing k trace htrace).trans hle⟩

/-! ## Written traces -/

/-- Every coroutine other than the root that is exported as a child has ended: it is listed by a
coroutine that is reached from the root. A child of the coroutine `0` gets the times of the trace,
as the root does. -/
def ChildrenCompleted (storage : TraceStorage) (root : JLong) : Prop :=
  ∀ a b, Relation.ReflTransGen storage.Lists root a → storage.Lists a b → a ≠ 0 → b ≠ root →
    ∀ info, storage.getCoroutineInfo b = some info → info.endTime ≠ 0

/-- When the times in the storage are ordered, the slices of the written packets are ordered if all
children have ended. -/
lemma slicesOrdered_of_childrenCompleted {traceInfo : TraceInfo} {storage : TraceStorage}
    (htrace : traceInfo.start ≤ traceInfo.endTime)
    (htimes : ∀ c info, storage.getCoroutineInfo c = some info →
      InfoTimes traceInfo.endTime info)
    (h : ChildrenCompleted storage traceInfo.coroutineId) :
    SlicesOrdered (writePerfetto traceInfo storage) := by
  rw [slicesOrdered_writePerfetto_iff]
  intro item hitem info hinfo
  have hinfoTimes := htimes _ info hinfo
  refine ⟨?_, fun suspension hsuspension => ?_⟩
  · unfold coroutineBegin coroutineEnd
    split_ifs with hparent
    · exact htrace
    · -- an item with a parent is not the root
      rcases mem_exportOrder hitem with rfl | ⟨hne, hlists, hreach⟩
      · exact absurd rfl hparent
      · have hended := h _ _ hreach hlists hparent hne info hinfo
        exact hinfoTimes.span.2.resolve_left hended
  · obtain ⟨hstart, hend⟩ := hinfoTimes.suspensions suspension hsuspension
    split_ifs with hended
    · exact hend.resolve_left hended
    · exact hstart

/-- Conversely, when the slices are ordered, all children have ended, if the coroutine `0` is not
reached from the root. -/
lemma childrenCompleted_of_slicesOrdered {traceInfo : TraceInfo} {storage : TraceStorage}
    (htimes : ∀ c info, storage.getCoroutineInfo c = some info →
      InfoTimes traceInfo.endTime info)
    (hzero : ¬ Relation.ReflTransGen storage.Lists traceInfo.coroutineId 0)
    (h : SlicesOrdered (writePerfetto traceInfo storage)) :
    ChildrenCompleted storage traceInfo.coroutineId := by
  rw [slicesOrdered_writePerfetto_iff] at h
  intro a b hreach hlists _ hne info hinfo hend
  obtain ⟨item, hitem, rfl⟩ := exportOrder_iff.mpr (hreach.tail hlists)
  rcases mem_exportOrder hitem with rfl | ⟨-, -, hparent⟩
  · exact hne rfl
  · have hparentNe : item.parentCoroutineId ≠ 0 := fun heq => hzero (heq ▸ hparent)
    have hordered := (h item hitem info hinfo).1
    rw [coroutineBegin, coroutineEnd, if_neg hparentNe, if_neg hparentNe, hend] at hordered
    exact absurd (htimes _ info hinfo).pos (not_lt.mpr hordered)

section TraceEnd

variable {env : Env} {p p' : Profiler} {e : Event} {o : List Effect} {c : JLong}

/-- A `traceEnd` leaves the ends of the coroutines alone. -/
lemma endTime_traceEnd (hstep : p.step env e = some (p', o)) (hcall : e.call = .traceEnd c)
    (b : JLong) :
    (p'.storage.getCoroutineInfo b).map CoroutineInfo.endTime =
      (p.storage.getCoroutineInfo b).map CoroutineInfo.endTime := by
  obtain ⟨frames, hupdate⟩ := Profiler.step_info hstep
  rw [hupdate b, infoUpdate, hcall]
  dsimp only
  split_ifs
  · rw [Option.map_map]
    rfl
  · rfl

/-- A `traceEnd` leaves alone which coroutines list which. -/
lemma lists_traceEnd (hstep : p.step env e = some (p', o)) (hcall : e.call = .traceEnd c) :
    p'.storage.Lists = p.storage.Lists := by
  funext a b
  have hsome := congrArg Option.isSome (endTime_traceEnd hstep hcall a)
  rw [Option.isSome_map, Option.isSome_map] at hsome
  have hchildren := Profiler.step_children hstep a
  rw [hcall] at hchildren
  rw [TraceStorage.Lists, TraceStorage.Lists, TraceStorage.IsChild, TraceStorage.IsChild, hsome,
    hchildren]

/-- So whether the children have ended may be seen before it. -/
lemma childrenCompleted_traceEnd (hstep : p.step env e = some (p', o))
    (hcall : e.call = .traceEnd c) (root : JLong) :
    ChildrenCompleted p'.storage root ↔ ChildrenCompleted p.storage root := by
  have hended : ∀ (q : Profiler) (b : JLong), (∀ info, q.storage.getCoroutineInfo b = some info →
      info.endTime ≠ 0) ↔ (q.storage.getCoroutineInfo b).map CoroutineInfo.endTime ≠ some 0 := by
    intro q b
    cases q.storage.getCoroutineInfo b with
    | none => simp
    | some info => simp
  simp only [ChildrenCompleted, hended, endTime_traceEnd hstep hcall, lists_traceEnd hstep hcall]

/-- **When the slices of a written trace are ordered.** In every run with a positive clock, when a
`traceEnd` writes the trace of `root`: if all children have ended, the begin of every coroutine
and suspension track is not after its end; and if the coroutine `0` is not reached from the root,
only then. -/
theorem slicesOrdered_completed {l : Log} {root : JLong} {path : String}
    {packets : List TracePacket} (hrun : Run env l p)
    (hclock : PositiveClock (l.map Prod.fst ++ [e])) (hstep : p.step env e = some (p', o))
    (hcall : e.call = .traceEnd c) (hwrote : .wrote path packets ∈ o)
    (hroot : ((p.storage.ongoingTraceInfoMap.at? (Profiler.traceId env e.thread c)).getD
      {}).coroutineId = root) :
    (ChildrenCompleted p.storage root → SlicesOrdered packets) ∧
      (¬ Relation.ReflTransGen p.storage.Lists root 0 → SlicesOrdered packets →
        ChildrenCompleted p.storage root) := by
  obtain ⟨-, rfl⟩ := Profiler.packets_of_wrote hstep hcall hwrote
  obtain ⟨hbefore, hpos, hlast⟩ := PositiveClock.of_concat hclock
  have htimes : TimesOrdered e.now p :=
    timesOrdered_of_run hrun hbefore fun x hx => hlast x.1 (List.mem_map_of_mem hx)
  have hinfos := (htimes.step hstep hpos).infos
  set trace := p.endedTrace e.toContext (Profiler.traceId env e.thread c) with htrace
  have hid : trace.coroutineId = root := hroot
  have hend : trace.endTime = e.now := rfl
  have hstart : trace.start ≤ trace.endTime := by
    rw [hend, htrace, Profiler.endedTrace]
    cases hk : p.storage.ongoingTraceInfoMap.at? (Profiler.traceId env e.thread c) with
    | none => exact hpos.le
    | some found => exact htimes.ongoing _ found hk
  rw [← childrenCompleted_traceEnd hstep hcall, ← lists_traceEnd hstep hcall, ← hid]
  rw [← hend] at hinfos
  exact ⟨slicesOrdered_of_childrenCompleted hstart hinfos,
    childrenCompleted_of_slicesOrdered hinfos⟩

end TraceEnd

/-! ## Concrete runs -/

/-- A root with one child, which has none: only the root lists a coroutine, the child. -/
lemma lists_oneChild {storage : TraceStorage} {root child a b : JLong}
    (hroot : (storage.getChildCoroutines root).map ConcurrentList.list = some [child])
    (hchild : (storage.getChildCoroutines child).map ConcurrentList.list = some [])
    (hreach : Relation.ReflTransGen storage.Lists root a) (hlists : storage.Lists a b) :
    a = root ∧ b = child := by
  have hlisted : ∀ b, storage.Lists root b → b = child := by
    rintro b ⟨-, list, hlist, hb⟩
    rw [hlist, Option.map_some, Option.some.injEq] at hroot
    rwa [hroot, List.mem_singleton] at hb
  have hnone : ∀ b, ¬ storage.Lists child b := by
    rintro b ⟨-, list, hlist, hb⟩
    rw [hlist, Option.map_some, Option.some.injEq] at hchild
    rw [hchild] at hb
    cases hb
  rcases hreach.cases_tail with rfl | ⟨x, hx, hxa⟩
  · exact ⟨rfl, hlisted b hlists⟩
  · -- a coroutine after the root is the child, which lists nothing
    have hpath : x = root ∨ x = child := by
      clear hxa
      induction hx with
      | refl => exact Or.inl rfl
      | @tail y z _ hyz ih =>
        rcases ih with rfl | rfl
        · exact Or.inr (hlisted z hyz)
        · exact absurd hyz (hnone z)
    rcases hpath with rfl | rfl
    · rw [hlisted a hxa] at hlists
      exact absurd hlists (hnone b)
    · exact absurd hxa (hnone a)

/-- A traced coroutine creates another one. -/
def runningChild : List Event :=
  [(Call.threadStart "main" 0 0).at 1 1, (Call.coroutineCreated 5).at 1 2,
    (Call.coroutineResumed 5).at 1 3, (Call.traceStart 5).at 1 4, (Call.coroutineCreated 6).at 1 5]

/-- When the child has completed, the slices of the trace are ordered. -/
theorem slicesOrdered_completedChild :
    ∃ l p p' o path packets, Run .sample l p ∧
      l.map Prod.fst = runningChild ++ [(Call.coroutineCompleted 6).at 2 6] ∧
      p.step .sample ((Call.traceEnd 5).at 1 7) = some (p', o) ∧ .wrote path packets ∈ o ∧
      SlicesOrdered packets := by
  have hexec : ((machine .sample).exec (machine .sample).init
      (runningChild ++ [(Call.coroutineCompleted 6).at 2 6])).map
      (fun q => decide ((q.1.storage.getCoroutineInfo 5).isSome ∧
        q.1.storage.ongoingTraceInfoMap.at? 5 = some ⟨5, 4, 0⟩ ∧
        (q.1.storage.getChildCoroutines 5).map ConcurrentList.list = some [6] ∧
        (q.1.storage.getChildCoroutines 6).map ConcurrentList.list = some [] ∧
        (q.1.storage.getCoroutineInfo 6).map CoroutineInfo.endTime = some 6 ∧
        (q.1.step .sample ((Call.traceEnd 5).at 1 7)).isSome)) = some true := by decide
  obtain ⟨l, p, hrun, hes, hend⟩ := LogMachine.exists_run_of_map_exec hexec
  obtain ⟨hinfo, hongoing, hroot, hchild, hended, hsome⟩ := of_decide_eq_true hend
  obtain ⟨⟨p', o⟩, hstep⟩ := Option.isSome_iff_exists.mp hsome
  have hcall : ((Call.traceEnd 5).at 1 7).call = .traceEnd 5 := rfl
  have hid : ((p.storage.ongoingTraceInfoMap.at? 5).getD {}).coroutineId = 5 := by
    rw [hongoing]
    rfl
  have htrace : p.endedTrace ((Call.traceEnd 5).at 1 7).toContext 5 = ⟨5, 4, 7⟩ := by
    rw [Profiler.endedTrace, hongoing]
    rfl
  obtain ⟨path, hwrote⟩ := Profiler.exists_wrote hstep hcall hinfo htrace (by decide)
  have hcompleted : ChildrenCompleted p.storage 5 := by
    intro a b hreach hlists _ _ info hb
    obtain ⟨-, rfl⟩ := lists_oneChild hroot hchild hreach hlists
    rw [hb, Option.map_some, Option.some.injEq] at hended
    rw [hended]
    decide
  have hclock : PositiveClock (l.map Prod.fst ++ [(Call.traceEnd 5).at 1 7]) := by
    rw [hes]
    decide
  exact ⟨l, p, p', o, _, _, hrun, hes, hstep, hwrote,
    (slicesOrdered_completed hrun hclock hstep hcall hwrote hid).1 hcompleted⟩

/-- **The slice of a running child ends at `0`**, before it began. -/
theorem slicesOrdered_runningChild :
    ∃ l p p' o path packets, Run .sample l p ∧ l.map Prod.fst = runningChild ∧
      PositiveClock (l.map Prod.fst ++ [(Call.traceEnd 5).at 1 7]) ∧
      p.step .sample ((Call.traceEnd 5).at 1 7) = some (p', o) ∧ .wrote path packets ∈ o ∧
      ¬ SlicesOrdered packets := by
  have hexec : ((machine .sample).exec (machine .sample).init runningChild).map
      (fun q => ((q.1.storage.getCoroutineInfo 5).isSome, q.1.storage.ongoingTraceInfoMap.at? 5,
        (q.1.step .sample ((Call.traceEnd 5).at 1 7)).map fun r =>
          decide ((r.1.storage.getChildCoroutines 5).map ConcurrentList.list = some [6] ∧
            (r.1.storage.getChildCoroutines 6).map ConcurrentList.list = some [] ∧
            (r.1.storage.getCoroutineInfo 5).isSome ∧
            (r.1.storage.getCoroutineInfo 6).map CoroutineInfo.start = some 5 ∧
            (r.1.storage.getCoroutineInfo 6).map CoroutineInfo.endTime = some 0))) =
      some (true, some ⟨5, 4, 0⟩, some true) := by decide
  obtain ⟨l, p, hrun, hes, hend⟩ := LogMachine.exists_run_of_map_exec hexec
  simp only [Prod.mk.injEq] at hend
  obtain ⟨hinfo, hongoing, hafter⟩ := hend
  obtain ⟨⟨p', o⟩, hstep, hafter⟩ := Option.map_eq_some_iff.mp hafter
  obtain ⟨hroot, hchild, hinfo', hstart, hend⟩ := of_decide_eq_true hafter
  have hended : p.endedTrace ((Call.traceEnd 5).at 1 7).toContext 5 = ⟨5, 4, 7⟩ := by
    rw [Profiler.endedTrace, hongoing]
    rfl
  obtain ⟨path, hwrote⟩ := Profiler.exists_wrote hstep rfl hinfo hended (by decide)
  refine ⟨l, p, p', o, _, _, hrun, hes, by rw [hes]; decide, hstep, hwrote, fun hordered => ?_⟩
  rw [slicesOrdered_writePerfetto_iff] at hordered
  -- the child is an item of the export, and its parent is the coroutine `5`
  obtain ⟨list, hlist, hmem⟩ := Option.map_eq_some_iff.mp hroot
  have hlists : p'.storage.Lists 5 6 := ⟨hinfo', list, hlist, by rw [hmem]; decide⟩
  have hexported : ∃ item ∈ exportOrder ⟨5, 4, 7⟩ p'.storage, item.coroutineId = 6 :=
    exportOrder_iff.mpr (.single hlists)
  obtain ⟨item, hitem, hid⟩ := hexported
  obtain ⟨info, hinfo6, hinfoStart⟩ := Option.map_eq_some_iff.mp hstart
  rw [hinfo6, Option.map_some, Option.some.injEq] at hend
  rcases mem_exportOrder hitem with rfl | ⟨-, hparentLists, hreach⟩
  · cases hid
  · have hparent : item.parentCoroutineId = 5 :=
      (lists_oneChild hroot hchild hreach hparentLists).1
    have hslice := (hordered item hitem info (by rw [hid]; exact hinfo6)).1
    rw [coroutineBegin, coroutineEnd, hparent, hinfoStart, hend] at hslice
    revert hslice
    decide

end KotlinTracer
