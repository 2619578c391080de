import KotlinTracer.Export.Tracks
import KotlinTracer.Gc.Events

set_option relaxedAutoImplicit false
set_option autoImplicit false

/-!
# GC events in the window of a trace

`findGcEvents` hands out the events that begin after the start of a window and end before its stop.
The event of a running collection has the end `0`, which is before every stop, so it is handed out
as if it had finished, and is exported as a slice that ends before it begins.

## Main definitions

* `KotlinTracer.runningSince` — the start of the collection that is running, from the calls.
* `KotlinTracer.handedGcEvents` — the events that `findGcEvents` hands to its visitor.
* `KotlinTracer.FinishedInside` — an event that has ended lies in a window.
* `KotlinTracer.NoneRunningFrom` — no listed collection is running that began after a start.

## Main results

* `KotlinTracer.gcListed_of_reaches` — every listed event has ended but that of the running
  collection.
* `KotlinTracer.finishedInside_iff` — only finished events in the window are handed out, and
  exported, if and only if none is running that began in it.
-/

namespace KotlinTracer

/-- The start of the collection that is running, if one is. -/
def runningSince (es : List Event) : Option TraceTime :=
  es.foldl (fun since e =>
    match e.call with
    | .gcStart => some e.now
    | .gcFinish => none
    | _ => since) none

/-- The events that `findGcEvents` hands to its visitor, in order. -/
def handedGcEvents (storage : TraceStorage) (start stop : TraceTime) : List GCEvent :=
  storage.findGcEvents start stop (fun events event => events ++ [event]) []

/-- An event has ended, and lies in the window from `start` to `stop`. -/
def FinishedInside (start stop : TraceTime) (event : GCEvent) : Prop :=
  event.endTime ≠ 0 ∧ start ≤ event.start ∧ event.start ≤ event.endTime ∧ event.endTime ≤ stop

/-- Unless the window is before the epoch, no collection is running that began in it and whose event
is still listed. -/
def NoneRunningFrom (es : List Event) (p : Profiler) (start stop : TraceTime) : Prop :=
  stop < 0 ∨ ∀ t, runningSince es = some t → p.storage.gcEvents.list = [] ∨ t < start

/-- The events that are handed out: those of the list that pass the filter. -/
lemma mem_handedGcEvents {storage : TraceStorage} {start stop : TraceTime} {event : GCEvent} :
    event ∈ handedGcEvents storage start stop ↔
      event ∈ storage.gcEventList ∧ start ≤ event.start ∧ event.endTime ≤ stop := by
  rw [handedGcEvents, TraceStorage.findGcEvents, ConcurrentList.forEachFiltered_eq,
    List.foldl_append_eq_append, List.nil_append, ← List.flatMap_def, List.flatMap_singleton',
    List.mem_filter, decide_eq_true_eq]

/-- One more call. -/
lemma runningSince_concat (es : List Event) (e : Event) :
    runningSince (es ++ [e]) = match e.call with
      | .gcStart => some e.now
      | .gcFinish => none
      | _ => runningSince es := by
  simp [runningSince]

/-- In an alternating run, a collection is running when one more has started than has finished, and
its event has the start of the collection and no end. -/
lemma runningSince_spec {es : List Event} (halt : GcAlternates es) :
    match runningSince es with
    | none => callCount .gcStart es = callCount .gcFinish es
    | some t => callCount .gcStart es = callCount .gcFinish es + 1 ∧
        (gcHistory es)[callCount .gcFinish es]? = some ⟨t, 0⟩ := by
  induction es using List.reverseRecOn with
  | nil => rfl
  | append_singleton es e ih =>
    obtain ⟨hes, hstart, hfinish⟩ := List.atEvery_concat.mp halt
    have hbefore := ih hes
    rw [runningSince_concat, callCount_concat, callCount_concat, gcHistory_concat, gcHistoryStep]
    cases hcall : e.call with
    | gcStart =>
      have hcount := hstart hcall
      have hlength : (gcHistory es).length = callCount .gcFinish es := by
        rw [length_gcHistory, hcount]
      simp [hcount, ← hlength]
    | gcFinish =>
      have hcount := hfinish hcall
      simp [hcount]
    | _ => simpa using hbefore

/-! ## The listed events -/

/-- What is true of the listed GC events in an alternating run, whatever the cleaner does. -/
structure GcListed (es : List Event) (p : Profiler) : Prop where
  heap : p.storage.gcHeap = gcHistory es
  /-- While a collection runs its event is the last one, if the cleaner left any. -/
  last : callCount .gcStart es = callCount .gcFinish es + 1 →
    p.storage.gcEvents.list = [] ∨
      p.storage.gcEvents.list.getLast? = some (callCount .gcFinish es)

section Step

variable {env : Env} {es : List Event} {e : Event} {p p' : Profiler} {o : List Effect}

/-- A call that neither starts nor ends a collection, and leaves the end of the list or nothing. -/
lemma GcListed.step_other (h : GcListed es p) (hs : e.call ≠ .gcStart) (hf : e.call ≠ .gcFinish)
    {n : ℕ} (hlist : p'.storage.gcEvents.list = p.storage.gcEvents.list.drop n)
    (hheap : p'.storage.gcHeap = p.storage.gcHeap) : GcListed (es ++ [e]) p' := by
  refine ⟨?_, fun hrunning => ?_⟩
  · rw [hheap, gcHistory_concat_of_ne hs hf, h.heap]
  · rw [callCount_concat_of_ne hs, callCount_concat_of_ne hf] at hrunning
    rw [callCount_concat_of_ne hf, hlist, List.getLast?_drop]
    rcases h.last hrunning with hnil | hlast
    · rw [hnil]
      simp
    · by_cases hn : p.storage.gcEvents.list.length ≤ n
      · exact Or.inl (List.drop_eq_nil_of_le hn)
      · right
        rw [if_neg hn]
        exact hlast

/-- **One call keeps the invariant.** -/
lemma GcListed.step (hstep : p.step env e = some (p', o))
    (hstart : e.call = .gcStart → callCount .gcStart es = callCount .gcFinish es)
    (hfinish : e.call = .gcFinish → callCount .gcStart es = callCount .gcFinish es + 1)
    (h : GcListed es p) : GcListed (es ++ [e]) p' := by
  have hgc := Profiler.step_gc hstep
  cases hcall : e.call with
  | gcStart =>
    simp only [hcall] at hgc
    obtain ⟨hevents, hheap⟩ := hgc
    refine ⟨?_, fun _ => Or.inr ?_⟩
    · rw [hheap, gcHistory_concat, gcHistoryStep, hcall, h.heap]
    · rw [hevents, ConcurrentList.list_pushBack, List.getLast?_concat, h.heap, length_gcHistory,
        hstart hcall, callCount_concat_of_ne (by simp [hcall])]
  | gcFinish =>
    simp only [hcall] at hgc
    obtain ⟨gcEvent, hback, hevents, hheap⟩ := hgc
    have hcount := hfinish hcall
    -- the list is not empty, so its last element is the running collection
    have hgcEvent : gcEvent = callCount .gcFinish es := by
      rcases h.last hcount with hnil | hlast
      · rw [hnil] at hback
        cases hback
      · rw [hback, Option.some.injEq] at hlast
        exact hlast
    refine ⟨?_, fun hrunning => ?_⟩
    · rw [hheap, gcHistory_concat, gcHistoryStep, hcall, h.heap, hgcEvent]
      dsimp only
      rw [length_gcHistory, hcount, Nat.add_sub_cancel]
    · rw [callCount_concat_of_ne (by simp [hcall]), callCount_concat_of_eq hcall] at hrunning
      omega
  | clean =>
    simp only [hcall] at hgc
    exact h.step_other (by simp [hcall]) (by simp [hcall]) (by rw [hgc.2.1]) hgc.2.2
  | markForClean =>
    simp only [hcall] at hgc
    exact h.step_other (n := 0) (by simp [hcall]) (by simp [hcall]) (by rw [hgc.1]; rfl) hgc.2
  | _ =>
    simp only [hcall] at hgc
    exact h.step_other (n := 0) (by simp [hcall]) (by simp [hcall]) (by rw [hgc.1]; rfl) hgc.2

end Step

/-- The invariant holds in every alternating run. -/
lemma gcListed_of_reaches {env : Env} {es : List Event} {p : Profiler}
    (hrun : (machine env).Reaches es p) (halt : GcAlternates es) : GcListed es p := by
  refine LogMachine.Reaches.invariant (I := fun es p => GcAlternates es → GcListed es p) ?_ ?_ hrun
    halt
  · intro _
    refine ⟨rfl, fun h => ?_⟩
    simp [callCount] at h
  · intro es p e o p' _ ih hstep halt
    obtain ⟨hes, hstart, hfinish⟩ := List.atEvery_concat.mp halt
    exact (ih hes).step hstep hstart hfinish

/-- A listed event has ended, or it is the last one and its collection is running. -/
lemma ended_or_running_of_mem {env : Env} {es : List Event} {p : Profiler}
    (hrun : (machine env).Reaches es p) (halt : GcAlternates es) (hclock : PositiveClock es)
    {event : GCEvent} (h : event ∈ p.storage.gcEventList) :
    (event.endTime ≠ 0 ∧ event.start ≤ event.endTime) ∨
      ∃ t, runningSince es = some t ∧ p.storage.gcEvents.list ≠ [] ∧ event = ⟨t, 0⟩ := by
  have hlisted := gcListed_of_reaches hrun halt
  obtain ⟨i, hi, hevent⟩ := List.mem_filterMap.mp h
  rw [hlisted.heap] at hevent
  have hlength : i < callCount .gcStart es := by
    rw [← length_gcHistory]
    exact (List.getElem?_eq_some_iff.mp hevent).1
  by_cases hended : i < callCount .gcFinish es
  · left
    obtain ⟨event', hevent', hle⟩ := gcHistory_ended halt hclock.mono i hended
    obtain rfl : event = event' := Option.some.inj (hevent.symm.trans hevent')
    obtain ⟨e, he, hstart⟩ := exists_start_of_mem_gcHistory (List.mem_of_getElem? hevent)
    have hpos := hclock.pos e he
    rw [hstart] at hpos
    exact ⟨(hpos.trans_le hle).ne', hle⟩
  · right
    have hspec := runningSince_spec halt
    cases hsince : runningSince es with
    | none =>
      rw [hsince] at hspec
      have hcount : callCount .gcStart es = callCount .gcFinish es := hspec
      rw [hcount] at hlength
      exact absurd hlength hended
    | some t =>
      rw [hsince] at hspec
      obtain ⟨hcount, hrunning⟩ := hspec
      rw [hcount] at hlength
      obtain rfl : i = callCount .gcFinish es :=
        Nat.le_antisymm (Nat.le_of_lt_succ hlength) (not_lt.mp hended)
      exact ⟨t, rfl, List.ne_nil_of_mem hi, Option.some.inj (hevent.symm.trans hrunning)⟩

/-- While a collection runs its event is listed, if anything is. -/
lemma running_mem_gcEventList {env : Env} {es : List Event} {p : Profiler}
    (hrun : (machine env).Reaches es p) (halt : GcAlternates es) {t : TraceTime}
    (hsince : runningSince es = some t) (hne : p.storage.gcEvents.list ≠ []) :
    ⟨t, 0⟩ ∈ p.storage.gcEventList := by
  have hlisted := gcListed_of_reaches hrun halt
  have hspec := runningSince_spec halt
  rw [hsince] at hspec
  obtain ⟨hcount, hrunning⟩ := hspec
  refine List.mem_filterMap.mpr ⟨callCount .gcFinish es, ?_, ?_⟩
  · exact List.mem_of_getLast? ((hlisted.last hcount).resolve_left hne)
  · rw [hlisted.heap]
    exact hrunning

/-- The slices of the GC events that the writer writes. -/
lemma gcSlices_writePerfetto_iff {traceInfo : TraceInfo} {storage : TraceStorage}
    {P : TraceTime → TraceTime → Prop} :
    SlicesSatisfy (fun name => name = "GC") P (writePerfetto traceInfo storage) ↔
      ∀ event ∈ handedGcEvents storage traceInfo.start traceInfo.endTime,
        P event.start event.endTime := by
  rw [writePerfetto_eq_render, slicesSatisfy_render_iff]
  constructor
  · intro h event hevent
    rw [mem_handedGcEvents] at hevent
    exact h _ (slice_mem_exportTracks.mpr (Or.inr (Or.inl ⟨event,
      List.mem_filter.mpr ⟨hevent.1, decide_eq_true hevent.2⟩, rfl⟩))) rfl
  · intro h s hs hname
    rcases slice_mem_exportTracks.mp hs with
      heq | ⟨event, hevent, heq⟩ | ⟨item, -, info, -, heq | ⟨_, -, heq⟩⟩
    · rw [Track.slice.inj heq] at hname
      have htrace : "Trace" = "GC" := hname
      exact absurd htrace (by decide)
    · obtain ⟨hmem, hfilter⟩ := List.mem_filter.mp hevent
      have hP := h event (mem_handedGcEvents.mpr ⟨hmem, of_decide_eq_true hfilter⟩)
      rw [← Track.slice.inj heq]
      exact hP
    · rw [Track.slice.inj heq] at hname
      exact absurd hname (coroutineName_ne item.coroutineId (by decide))
    · rw [← Track.slice.inj heq] at hname
      exact absurd hname (coroutineName_ne item.coroutineId (by decide))

/-- **When only finished collections are handed out.** In every alternating run with a positive
clock and any other callbacks, at every moment and for every window: all events that `findGcEvents`
hands out have ended and lie in the window, and all GC slices of a trace with this window lie in it
with the begin not after the end, if and only if no collection is running that began in the window
and whose event is still listed. -/
theorem finishedInside_iff {env : Env} {es : List Event} {p : Profiler}
    (hrun : (machine env).Reaches es p) (halt : GcAlternates es) (hclock : PositiveClock es)
    (start stop : TraceTime) :
    ((∀ event ∈ handedGcEvents p.storage start stop, FinishedInside start stop event) ↔
        NoneRunningFrom es p start stop) ∧
      ∀ c, SlicesSatisfy (fun name => name = "GC")
          (fun sliceBegin sliceEnd => start ≤ sliceBegin ∧ sliceBegin ≤ sliceEnd ∧ sliceEnd ≤ stop)
          (writePerfetto ⟨c, start, stop⟩ p.storage) ↔
        NoneRunningFrom es p start stop := by
  -- the event of the running collection began after the epoch, and its end is the epoch
  have hbroken : ∀ t, runningSince es = some t → ¬ t ≤ 0 := by
    intro t hsince
    have hspec := runningSince_spec halt
    rw [hsince] at hspec
    obtain ⟨e, he, hstart⟩ := exists_start_of_mem_gcHistory (List.mem_of_getElem? hspec.2)
    have hpos := hclock.pos e he
    rw [hstart] at hpos
    exact not_le.mpr hpos
  have hinside : NoneRunningFrom es p start stop →
      ∀ event ∈ handedGcEvents p.storage start stop, FinishedInside start stop event := by
    intro hnone event hevent
    obtain ⟨hmem, hfrom, hto⟩ := mem_handedGcEvents.mp hevent
    rcases ended_or_running_of_mem hrun halt hclock hmem with ⟨hne, hle⟩ | ⟨t, hsince, hne, rfl⟩
    · exact ⟨hne, hfrom, hle, hto⟩
    · rcases hnone with hstop | hnone
      · exact absurd hto (not_le.mpr hstop)
      · exact absurd hfrom (not_le.mpr ((hnone t hsince).resolve_left hne))
  have hnone : (∀ event ∈ handedGcEvents p.storage start stop, event.start ≤ event.endTime) →
      NoneRunningFrom es p start stop := by
    intro hordered
    by_cases hstop : stop < 0
    · exact Or.inl hstop
    · refine Or.inr fun t hsince => ?_
      by_contra hcon
      rw [not_or, not_lt] at hcon
      have hmem := running_mem_gcEventList hrun halt hsince hcon.1
      exact hbroken t hsince (hordered ⟨t, 0⟩
        (mem_handedGcEvents.mpr ⟨hmem, hcon.2, not_lt.mp hstop⟩))
  constructor
  · exact ⟨fun h => hnone fun event hevent => (h event hevent).2.2.1, hinside⟩
  · intro c
    rw [gcSlices_writePerfetto_iff]
    exact ⟨fun h => hnone fun event hevent => (h event hevent).2.1,
      fun h event hevent => (hinside h event hevent).2⟩

/-- A collection that ends. -/
def endedCollection : List Event := [Call.gcStart.at 2 4, Call.gcFinish.at 2 6]

/-- A collection that has ended is handed out with its end. -/
theorem finishedInside_endedCollection :
    ∃ p, (machine .sample).Reaches endedCollection p ∧
      handedGcEvents p.storage 1 9 = [⟨4, 6⟩] ∧
      ∀ event ∈ handedGcEvents p.storage 1 9, FinishedInside 1 9 event := by
  have hexec : ((machine .sample).exec (machine .sample).init endedCollection).map
      (fun q => handedGcEvents q.1.storage 1 9) = some [⟨4, 6⟩] := by decide
  obtain ⟨l, p, hrun, hes, hhanded⟩ := LogMachine.exists_run_of_map_exec hexec
  have hreaches : (machine .sample).Reaches endedCollection p := ⟨l, hrun, hes⟩
  refine ⟨p, hreaches, hhanded, ?_⟩
  refine (finishedInside_iff hreaches (by decide) (by decide) 1 9).1.mpr (Or.inr fun t ht => ?_)
  cases ht

/-- **The event of a running collection is handed out**, with the end `0`. -/
theorem handedGcEvents_running :
    ∃ p, (machine .sample).Reaches [Call.gcStart.at 2 4] p ∧
      GcAlternates [Call.gcStart.at 2 4] ∧ PositiveClock [Call.gcStart.at 2 4] ∧
      handedGcEvents p.storage 1 9 = [⟨4, 0⟩] ∧ ¬ FinishedInside 1 9 ⟨4, 0⟩ := by
  have hexec : ((machine .sample).exec (machine .sample).init [Call.gcStart.at 2 4]).map
      (fun q => handedGcEvents q.1.storage 1 9) = some [⟨4, 0⟩] := by decide
  obtain ⟨l, p, hrun, hes, hhanded⟩ := LogMachine.exists_run_of_map_exec hexec
  exact ⟨p, ⟨l, hrun, hes⟩, by decide, by decide, hhanded, fun h => h.1 rfl⟩

end KotlinTracer
