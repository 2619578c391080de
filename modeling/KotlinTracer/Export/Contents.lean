import KotlinTracer.Accounting.Figures
import KotlinTracer.Export.Reached
import KotlinTracer.Export.SliceOrder

set_option relaxedAutoImplicit false
set_option autoImplicit false

/-!
# What the tracks of a trace carry

The track of a coroutine carries its figures as debug annotations, and the track of its samples
carries one event for every sample. The annotations of the switch counts are written only for the
value zero, and the window of a trace cuts the frames of a sample but not its event.

## Main definitions

* `KotlinTracer.shownRecords`, `KotlinTracer.samplePacket` — the samples that lie in a trace, and
  the event that shows one with all its frames.
* `KotlinTracer.BeginsSlice` — a packet begins the slice of a coroutine.
* `KotlinTracer.FiguresReadable` — the figures of a coroutine can be read from debug annotations.
* `KotlinTracer.Profiler.endedFigures` — the figures of a coroutine when a `traceEnd` writes a
  trace.

## Main results

* `KotlinTracer.addCallStack_exact_iff` — the samples of a trace are shown and no others, if and
  only if all samples lie in the trace.
* `KotlinTracer.figuresReadable_iff` — the figures can be read from a written trace if and only if
  all switch counts are zero.
-/

namespace KotlinTracer

/-! ## Samples -/

/-- A time lies in the window of a trace. -/
def TraceInfo.InWindow (traceInfo : TraceInfo) (time : TraceTime) : Prop :=
  traceInfo.start ≤ time ∧ time ≤ traceInfo.endTime

instance (traceInfo : TraceInfo) (time : TraceTime) : Decidable (traceInfo.InWindow time) :=
  inferInstanceAs (Decidable (_ ∧ _))

/-- The samples that lie in a trace: those with frames, taken in its window. -/
def shownRecords (traceInfo : TraceInfo) (records : List ProcessedTraceRecord) :
    List ProcessedTraceRecord :=
  records.filter fun record => record.stackTrace ≠ [] ∧ traceInfo.InWindow record.time

/-- The event that shows a sample with all its frames. -/
def samplePacket (sequenceId trackId : ℕ) (record : ProcessedTraceRecord) : TracePacket :=
  eventPacket sequenceId record.time
    { type := .instant, name := some "Stack trace", trackUuid := trackId,
      callstack := some (record.stackTrace.map methodName) }

/-- `addCallStack` emits an event for every sample with frames. -/
lemma packets_addCallStack (w : TraceWriter) (traces : ConcurrentList ProcessedTraceRecord)
    (traceInfo : TraceInfo) (sequenceId trackId : ℕ) :
    (addCallStack w traces traceInfo sequenceId trackId).packets = w.packets ++
      (traces.list.filter fun record => record.stackTrace ≠ []).map fun record =>
        eventPacket sequenceId record.time (sampleEvent record traceInfo trackId) := by
  rw [addCallStack_eq, Track.events, samplesOf, List.map_map, List.map_map]
  have hframes : ∀ record : ProcessedTraceRecord,
      decide (0 < record.stackTrace.length) = decide (record.stackTrace ≠ []) := by
    intro record
    simp [List.length_pos_iff]
  simp only [hframes]
  rfl

/-- A sample in the window is shown with all its frames. -/
lemma sampleEvent_of_inWindow {traceInfo : TraceInfo} {record : ProcessedTraceRecord}
    (h : traceInfo.InWindow record.time) (sequenceId trackId : ℕ) :
    eventPacket sequenceId record.time (sampleEvent record traceInfo trackId) =
      samplePacket sequenceId trackId record := by
  have hwindow : decide (traceInfo.start ≤ record.time ∧ record.time ≤ traceInfo.endTime) = true :=
    decide_eq_true h
  rw [samplePacket, sampleEvent]
  simp only [hwindow, List.filter_true]

/-- **When exactly the samples of a trace are shown.** For every list of samples and every trace,
the events that `add_call_stack` emits are, in order, one for every sample with frames in the window
of the trace, with all its frames, if and only if all samples with frames lie in the window. -/
theorem addCallStack_exact_iff (w : TraceWriter) (traces : ConcurrentList ProcessedTraceRecord)
    (traceInfo : TraceInfo) (sequenceId trackId : ℕ) :
    (addCallStack w traces traceInfo sequenceId trackId).packets = w.packets ++
        (shownRecords traceInfo traces.list).map (samplePacket sequenceId trackId) ↔
      ∀ record ∈ traces.list, record.stackTrace ≠ [] → traceInfo.InWindow record.time := by
  have hshown : shownRecords traceInfo traces.list =
      (traces.list.filter fun record => record.stackTrace ≠ []).filter fun record =>
        traceInfo.InWindow record.time := by
    rw [shownRecords, List.filter_filter]
    refine List.filter_congr fun record _ => ?_
    rw [Bool.and_comm, Bool.decide_and]
  rw [packets_addCallStack, List.append_cancel_left_eq, hshown]
  constructor
  · intro h record hrecord hframes
    -- there are as many events as samples with frames, so none of them is outside
    have hlength := congrArg List.length h
    rw [List.length_map, List.length_map, eq_comm, List.length_filter_eq_length_iff] at hlength
    have hwindow := hlength record (List.mem_filter.mpr ⟨hrecord, decide_eq_true hframes⟩)
    exact of_decide_eq_true hwindow
  · intro h
    have hall : ∀ record ∈ traces.list.filter (fun record => record.stackTrace ≠ []),
        traceInfo.InWindow record.time := by
      intro record hrecord
      obtain ⟨hmem, hframes⟩ := List.mem_filter.mp hrecord
      exact h record hmem (of_decide_eq_true hframes)
    rw [List.filter_eq_self.mpr fun record hrecord => decide_eq_true (hall record hrecord)]
    exact List.map_congr_left fun record hrecord =>
      sampleEvent_of_inWindow (hall record hrecord) sequenceId trackId

/-- A sample that was taken at `3`. -/
def earlySample : ConcurrentList ProcessedTraceRecord :=
  { list := [⟨[⟨"run", "Main"⟩], "main", 3⟩] }

/-- **A sample before the trace is shown without frames**: a sample of an earlier trace of the same
coroutine appears in the later one. -/
theorem addCallStack_earlySample :
    (addCallStack {} earlySample ⟨5, 6, 9⟩ 1 2).packets =
        [eventPacket 1 3
          { type := .instant, name := some "Stack trace", trackUuid := 2,
            callstack := some [] }] ∧
      shownRecords ⟨5, 6, 9⟩ earlySample.list = [] := by
  decide

/-! ## Figures -/

/-- A packet begins, with an event, the slice of a coroutine. -/
def BeginsSlice (x : TracePacket) (event : TrackEvent) (d : JLong) : Prop :=
  x.data = .trackEvent event ∧ event.type = .sliceBegin ∧ event.name = some (coroutineName d) ∧
    event.flowIds.getLast? = some d

/-- The value of the debug annotation with a name. -/
def readEntry (name : String) (annotations : List DebugEntry) : Option ℤ :=
  (annotations.find? fun entry => entry.name = name).bind DebugEntry.intValue

/-- All figures of a coroutine can be read from debug annotations: the times in milliseconds,
rounded towards zero, and the numbers of switches. -/
structure FiguresReadable (annotations : List DebugEntry) (f : Figures) : Prop where
  wall : readEntry "Wall CPU time ms" annotations = some (f.wall.tdiv 1000000)
  user : readEntry "User CPU time ms" annotations = some (f.user.tdiv 1000)
  system : readEntry "System CPU time ms" annotations = some (f.system.tdiv 1000)
  voluntary : readEntry "Voluntary switches" annotations = some (f.voluntary : ℤ)
  involuntary : readEntry "Involuntary switches" annotations = some (f.involuntary : ℤ)

/-- The annotation for voluntary switches is there only if there were none. -/
lemma readEntry_voluntary (info : CoroutineInfo) :
    readEntry "Voluntary switches" (coroutineEntries info) =
      if info.figures.voluntary = 0 then some 0 else none := by
  have hfigure : info.figures.voluntary = info.voluntarySwitches := rfl
  rw [hfigure]
  by_cases hv : info.voluntarySwitches = 0 <;> by_cases hi : info.involuntarySwitches = 0 <;>
    simp [readEntry, coroutineEntries, hv, hi]

/-- The annotation for involuntary switches is there only if there were none. -/
lemma readEntry_involuntary (info : CoroutineInfo) :
    readEntry "Involuntary switches" (coroutineEntries info) =
      if info.figures.involuntary = 0 then some 0 else none := by
  have hfigure : info.figures.involuntary = info.involuntarySwitches := rfl
  rw [hfigure]
  by_cases hv : info.voluntarySwitches = 0 <;> by_cases hi : info.involuntarySwitches = 0 <;>
    simp [readEntry, coroutineEntries, hv, hi]

/-- An annotation that is there only for the count zero shows the count exactly if it is zero. -/
lemma ite_eq_some_iff {n : ℕ} :
    (if n = 0 then some (0 : ℤ) else none) = some (n : ℤ) ↔ n = 0 := by
  by_cases h : n = 0 <;> simp [h]

/-- The annotations of a coroutine show its figures if and only if both switch counts are zero. -/
lemma figuresReadable_coroutineEntries_iff (info : CoroutineInfo) :
    FiguresReadable (coroutineEntries info) info.figures ↔
      info.figures.voluntary = 0 ∧ info.figures.involuntary = 0 := by
  constructor
  · intro h
    have hvoluntary := h.voluntary
    have hinvoluntary := h.involuntary
    rw [readEntry_voluntary, ite_eq_some_iff] at hvoluntary
    rw [readEntry_involuntary, ite_eq_some_iff] at hinvoluntary
    exact ⟨hvoluntary, hinvoluntary⟩
  · rintro ⟨hvoluntary, hinvoluntary⟩
    refine ⟨?_, ?_, ?_, ?_, ?_⟩
    · simp [readEntry, coroutineEntries, CoroutineInfo.figures]
    · simp [readEntry, coroutineEntries, CoroutineInfo.figures]
    · simp [readEntry, coroutineEntries, CoroutineInfo.figures]
    · rw [readEntry_voluntary, ite_eq_some_iff]
      exact hvoluntary
    · rw [readEntry_involuntary, ite_eq_some_iff]
      exact hinvoluntary

/-- The coroutine slices that the writer begins: of the coroutines that are reached along infos,
with the annotations of their records. -/
lemma beginsSlice_writePerfetto_iff {traceInfo : TraceInfo} {storage : TraceStorage}
    {P : List DebugEntry → JLong → Prop} :
    (∀ x ∈ writePerfetto traceInfo storage, ∀ event d, BeginsSlice x event d →
        P event.debugAnnotations d) ↔
      ∀ d info, ReachedWithInfo storage traceInfo.coroutineId d →
        storage.getCoroutineInfo d = some info → P (coroutineEntries info) d := by
  rw [writePerfetto_eq_render]
  constructor
  · intro h d info hreached hinfo
    obtain ⟨item, hitem, rfl⟩ := List.mem_map.mp (mem_exportedItems_iff.mpr hreached)
    have hmem : Track.slice _ ∈ exportTracks traceInfo storage :=
      slice_mem_exportTracks.mpr (Or.inr (Or.inr ⟨item, (List.mem_filter.mp hitem).1, info, hinfo,
        Or.inl rfl⟩))
    obtain ⟨i, hi⟩ := List.mem_iff_getElem?.mp hmem
    obtain ⟨x, hx, hevent, htype⟩ := sliceBegin_render_iff.mpr ⟨i, _, hi, rfl⟩
    exact h x hx _ item.coroutineId ⟨hevent, htype, rfl, item.getLast?_flow⟩
  · rintro h x hx event d ⟨hevent, htype, -, hflow⟩
    obtain ⟨i, s, hs, rfl⟩ := sliceBegin_render_iff.mp ⟨x, hx, hevent, htype⟩
    rcases slice_mem_exportTracks.mp (List.mem_of_getElem? hs) with
      heq | ⟨_, -, heq⟩ | ⟨item, hitem, info, hinfo, heq | ⟨_, -, heq⟩⟩
    · rw [Track.slice.inj heq] at hflow
      cases hflow
    · rw [← Track.slice.inj heq] at hflow
      cases hflow
    · rw [Track.slice.inj heq] at hflow ⊢
      obtain rfl : item.coroutineId = d := Option.some.inj (item.getLast?_flow.symm.trans hflow)
      refine h item.coroutineId info (mem_exportedItems_iff.mp ?_) hinfo
      exact List.mem_map_of_mem (List.mem_filter.mpr ⟨hitem, by rw [hinfo]; rfl⟩)
    · rw [← Track.slice.inj heq] at hflow
      cases hflow

/-- The figures of the coroutine `d` when a `traceEnd` writes the trace of `id`: those of its record
before the call, and for `id` also what its thread used since its last reading. -/
def Profiler.endedFigures (p : Profiler) (ctx : Context) (id d : JLong) : Figures :=
  match p.storage.getCoroutineInfo d with
  | none => {}
  | some info =>
    if d = id then info.figures.add (p.creditOf ctx info) else info.figures

section TraceEnd

variable {env : Env} {p p' : Profiler} {e : Event} {o : List Effect} {c : JLong}

/-- The figures of the records that a `traceEnd` leaves. -/
lemma figuresOf_traceEnd (hstep : p.step env e = some (p', o)) (hcall : e.call = .traceEnd c)
    (d : JLong) : p'.figuresOf d =
      p.endedFigures e.toContext (Profiler.traceId env e.thread c) d := by
  obtain ⟨frames, hupdate⟩ := Profiler.step_info hstep
  rw [Profiler.figuresOf, Profiler.endedFigures, hupdate d, infoUpdate, hcall]
  dsimp only
  cases p.storage.getCoroutineInfo d with
  | none => split_ifs <;> rfl
  | some info => split_ifs <;> rfl

/-- A `traceEnd` leaves alone which coroutines are reached. -/
lemma reachedWithInfo_traceEnd (hstep : p.step env e = some (p', o)) (hcall : e.call = .traceEnd c)
    {root d : JLong} : ReachedWithInfo p'.storage root d ↔ ReachedWithInfo p.storage root d := by
  have hsome := congrArg Option.isSome (endTime_traceEnd hstep hcall d)
  rw [Option.isSome_map, Option.isSome_map] at hsome
  rw [reachedWithInfo_iff, reachedWithInfo_iff, lists_traceEnd hstep hcall, hsome]

/-- **When the figures can be read from a written trace.** In every run, when a `traceEnd` writes a
trace: the begin of the slice of every coroutine in it carries annotations from which all that was
credited to the coroutine since its record was created can be read, if and only if both switch
counts of all these coroutines are zero. -/
theorem figuresReadable_iff {l : Log} {path : String} {packets : List TracePacket}
    (hrun : Run env l p) (hstep : p.step env e = some (p', o)) (hcall : e.call = .traceEnd c)
    (hwrote : .wrote path packets ∈ o) :
    (∀ x ∈ packets, ∀ event d, BeginsSlice x event d →
        ∃ f, AccumulatedSince env d (l ++ [(e, o)]) f ∧
          FiguresReadable event.debugAnnotations f) ↔
      ∀ d, ReachedWithInfo p.storage
          (p.endedTrace e.toContext (Profiler.traceId env e.thread c)).coroutineId d →
        (p.endedFigures e.toContext (Profiler.traceId env e.thread c) d).voluntary = 0 ∧
          (p.endedFigures e.toContext (Profiler.traceId env e.thread c) d).involuntary = 0 := by
  obtain ⟨-, rfl⟩ := Profiler.packets_of_wrote hstep hcall hwrote
  have hnext : Run env (l ++ [(e, o)]) p' := (machine env).runFrom_concat.mpr ⟨p, hrun, hstep⟩
  rw [beginsSlice_writePerfetto_iff (P := fun annotations d =>
    ∃ f, AccumulatedSince env d (l ++ [(e, o)]) f ∧ FiguresReadable annotations f)]
  simp only [reachedWithInfo_traceEnd hstep hcall, ← figuresOf_traceEnd hstep hcall]
  constructor
  · intro h d hreached
    have hsome : (p'.storage.getCoroutineInfo d).isSome :=
      (reachedWithInfo_iff.mp ((reachedWithInfo_traceEnd hstep hcall).mpr hreached)).2
    obtain ⟨info, hinfo⟩ := Option.isSome_iff_exists.mp hsome
    obtain ⟨f, hf, hreadable⟩ := h d info hreached hinfo
    rw [hf.unique (figures_of_run hnext hinfo)] at hreadable
    rw [Profiler.figuresOf_of_some hinfo]
    exact (figuresReadable_coroutineEntries_iff info).mp hreadable
  · intro h d info hreached hinfo
    have hzero := h d hreached
    rw [Profiler.figuresOf_of_some hinfo] at hzero
    exact ⟨info.figures, figures_of_run hnext hinfo,
      (figuresReadable_coroutineEntries_iff info).mpr hzero⟩

end TraceEnd

/-! ## Concrete runs -/

/-- A traced coroutine without children. -/
def soloTrace : List Event :=
  [(Call.threadStart "main" 0 0).at 1 1, (Call.coroutineCreated 5).at 1 2,
    (Call.traceStart 5).at 1 3]

/-- The end of the trace, when the thread has been switched `switches` times. -/
def soloTraceEnd (switches : ℤ) : Event := ⟨⟨1, 7, { ruNvcsw := switches }⟩, .traceEnd 5⟩

/-- A root without children is the only coroutine that is reached. -/
lemma eq_of_reachedWithInfo {storage : TraceStorage} {root d : JLong}
    (hroot : (storage.getChildCoroutines root).map ConcurrentList.list = some [])
    (h : ReachedWithInfo storage root d) : d = root := by
  rcases (reachedWithInfo_iff.mp h).1.cases_head with rfl | ⟨b, ⟨-, l, hl, hb⟩, -⟩
  · rfl
  · rw [hl, Option.map_some, Option.some.injEq] at hroot
    rw [hroot] at hb
    cases hb

/-- The figures of a coroutine whose thread was never switched can be read. -/
theorem figuresReadable_soloTrace :
    ∃ l p p' o path packets, Run .sample l p ∧ l.map Prod.fst = soloTrace ∧
      p.step .sample (soloTraceEnd 0) = some (p', o) ∧ .wrote path packets ∈ o ∧
      ∀ x ∈ packets, ∀ event d, BeginsSlice x event d →
        ∃ f, AccumulatedSince .sample d (l ++ [(soloTraceEnd 0, o)]) f ∧
          FiguresReadable event.debugAnnotations f := by
  have hexec : ((machine .sample).exec (machine .sample).init soloTrace).map
      (fun q => decide ((q.1.storage.getCoroutineInfo 5).isSome ∧
        q.1.storage.ongoingTraceInfoMap.at? 5 = some ⟨5, 3, 0⟩ ∧
        (q.1.storage.getChildCoroutines 5).map ConcurrentList.list = some [] ∧
        (q.1.endedFigures (soloTraceEnd 0).toContext 5 5).voluntary = 0 ∧
        (q.1.endedFigures (soloTraceEnd 0).toContext 5 5).involuntary = 0 ∧
        (q.1.step .sample (soloTraceEnd 0)).isSome)) = some true := by decide
  obtain ⟨l, p, hrun, hes, hend⟩ := LogMachine.exists_run_of_map_exec hexec
  obtain ⟨hinfo, hongoing, hchildren, hvoluntary, hinvoluntary, hsome⟩ := of_decide_eq_true hend
  obtain ⟨⟨p', o⟩, hstep⟩ := Option.isSome_iff_exists.mp hsome
  have hended : p.endedTrace (soloTraceEnd 0).toContext 5 = ⟨5, 3, 7⟩ := by
    rw [Profiler.endedTrace, hongoing]
    rfl
  obtain ⟨path, hwrote⟩ := Profiler.exists_wrote hstep rfl hinfo hended (by decide)
  refine ⟨l, p, p', o, _, _, hrun, hes, hstep, hwrote,
    (figuresReadable_iff hrun hstep rfl hwrote).mpr fun d hreached => ?_⟩
  have hroot : (p.endedTrace (soloTraceEnd 0).toContext
      (Profiler.traceId .sample (soloTraceEnd 0).thread 5)).coroutineId = 5 :=
    congrArg TraceInfo.coroutineId hended
  rw [hroot] at hreached
  rw [eq_of_reachedWithInfo hchildren hreached]
  exact ⟨hvoluntary, hinvoluntary⟩

/-- **A switch count other than zero is not in the trace**: the coroutine was credited three
voluntary switches, and its slice has no annotation for them. -/
theorem voluntary_missing_soloTrace :
    ∃ l p p' o path packets, Run .sample l p ∧ l.map Prod.fst = soloTrace ∧
      p.step .sample (soloTraceEnd 3) = some (p', o) ∧ .wrote path packets ∈ o ∧
      ∃ x ∈ packets, ∃ event f, BeginsSlice x event 5 ∧
        AccumulatedSince .sample 5 (l ++ [(soloTraceEnd 3, o)]) f ∧ f.voluntary = 3 ∧
        readEntry "Voluntary switches" event.debugAnnotations = none := by
  have hexec : ((machine .sample).exec (machine .sample).init soloTrace).map
      (fun q => decide ((q.1.storage.getCoroutineInfo 5).isSome ∧
        q.1.storage.ongoingTraceInfoMap.at? 5 = some ⟨5, 3, 0⟩ ∧
        (q.1.step .sample (soloTraceEnd 3)).map (fun r =>
          (r.1.storage.getCoroutineInfo 5).map fun info => info.figures.voluntary) =
          some (some 3))) = some true := by decide
  obtain ⟨l, p, hrun, hes, hend⟩ := LogMachine.exists_run_of_map_exec hexec
  obtain ⟨hinfo, hongoing, hsome⟩ := of_decide_eq_true hend
  obtain ⟨⟨p', o⟩, hstep, hfigures⟩ := Option.map_eq_some_iff.mp hsome
  obtain ⟨info, hinfo', hthree⟩ := Option.map_eq_some_iff.mp hfigures
  have hended : p.endedTrace (soloTraceEnd 3).toContext 5 = ⟨5, 3, 7⟩ := by
    rw [Profiler.endedTrace, hongoing]
    rfl
  obtain ⟨path, hwrote⟩ := Profiler.exists_wrote hstep rfl hinfo hended (by decide)
  have hnext : Run .sample (l ++ [(soloTraceEnd 3, o)]) p' :=
    (machine .sample).runFrom_concat.mpr ⟨p, hrun, hstep⟩
  refine ⟨l, p, p', o, _, _, hrun, hes, hstep, hwrote, ?_⟩
  by_contra hnone
  have hall := beginsSlice_writePerfetto_iff
    (P := fun annotations d => d = 5 → readEntry "Voluntary switches" annotations ≠ none) |>.mp
    fun x hx event d hbegins hd hread => hnone ⟨x, hx, event, info.figures, hd ▸ hbegins,
      figures_of_run hnext hinfo', hthree, hread⟩
  have hreached : ReachedWithInfo p'.storage 5 5 :=
    reachedWithInfo_iff.mpr ⟨.refl, by rw [hinfo']; rfl⟩
  refine hall 5 info hreached hinfo' rfl ?_
  rw [readEntry_voluntary, hthree]
  rfl

end KotlinTracer
