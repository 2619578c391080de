import KotlinTracer.Profiler.Interleaved

set_option relaxedAutoImplicit false
set_option autoImplicit false

/-!
# The callbacks, section by section and uninterrupted

A callback whose sections nothing interrupts does what the atomic callback does, when its readings
of the clock give one time. The sections of the export need a bound on the iterations of its loop;
the trace does not depend on it.

## Main results

* `KotlinTracer.Profiler.cells_updateCoroutineInfo` and the other lemmas on `cells` — an operation
  of the storage changes one cell.
* `KotlinTracer.Profiler.of_run_writePerfetto` — the export.
* `KotlinTracer.Profiler.of_run_program` — a call that nothing interrupts is a step of the profiler.
-/

namespace KotlinTracer

open Interleaved

namespace ConcurrentList

variable {T : Type} {p q : T → Bool} {f : T → T}

/-- What `find` finds after a write through what it found. -/
lemma find_updateFirst (hp : ∀ x, p (f x) = p x) (l : ConcurrentList T) :
    (l.updateFirst p f).find p = (l.find p).map f := by
  have hlist : ∀ l : List T, (updateFirstIn p f l).find? p = (l.find? p).map f := by
    intro l
    induction l with
    | nil => rfl
    | cons x l ih =>
      rw [updateFirstIn]
      split_ifs with hx
      · rw [List.find?_cons_of_pos (by rw [hp, hx]), List.find?_cons_of_pos hx, Option.map_some]
      · rw [List.find?_cons_of_neg hx, List.find?_cons_of_neg hx, ih]
  exact hlist l.list

/-- What another `find` finds after a write. -/
lemma find_updateFirst_of_disjoint (hq : ∀ x, p x = true → q x = false ∧ q (f x) = false)
    (l : ConcurrentList T) : (l.updateFirst p f).find q = l.find q := by
  have hlist : ∀ l : List T, (updateFirstIn p f l).find? q = l.find? q := by
    intro l
    induction l with
    | nil => rfl
    | cons x l ih =>
      rw [updateFirstIn]
      split_ifs with hx
      · obtain ⟨hqx, hqfx⟩ := hq x hx
        rw [List.find?_cons_of_neg (by rw [hqfx]; exact Bool.false_ne_true),
          List.find?_cons_of_neg (by rw [hqx]; exact Bool.false_ne_true)]
      · rw [List.find?_cons, List.find?_cons, ih]
  exact hlist l.list

/-- A write through what `find` found is a write at its position. -/
lemma updateFirstIn_eq_modify {l : List T} {i : ℕ} (h : l.findIdx? p = some i) :
    updateFirstIn p f l = l.modify i f := by
  induction l generalizing i with
  | nil => simp at h
  | cons x l ih =>
    rw [List.findIdx?_cons] at h
    rw [updateFirstIn]
    split_ifs at h with hx
    · cases h
      rw [if_pos hx]
      rfl
    · obtain ⟨j, hj, rfl⟩ := Option.map_eq_some_iff.mp h
      rw [if_neg hx, ih hj]
      rfl

end ConcurrentList

namespace Profiler

variable (p : Profiler)

/-! ## The cells after an operation -/

/-- `current_coroutine_id` is a cell. -/
lemma cells_setCurrentCoroutineId (t : PThread) (c : JLong) :
    (p.setCurrentCoroutineId t c).cells =
      Function.update p.cells (.currentCoroutineId t) c := by
  refine Function.eq_update_iff.mpr ⟨?_, fun k hk => ?_⟩
  · simp [cells]
  · cases k with
    | entry map key => cases map <;> rfl
    | currentCoroutineId u =>
      have hu : u ≠ t := fun h => hk (h ▸ rfl)
      simp [cells, hu]
    | currentRusage u => by_cases hu : u = t <;> simp [cells, hu]
    | _ => rfl

/-- `current_rusage_` is a cell. -/
lemma cells_setCurrentRusage (t : PThread) (rusage : RUsage) :
    (p.setCurrentRusage t rusage).cells = Function.update p.cells (.currentRusage t) rusage := by
  refine Function.eq_update_iff.mpr ⟨?_, fun k hk => ?_⟩
  · simp [cells]
  · cases k with
    | entry map key => cases map <;> rfl
    | currentRusage u =>
      have hu : u ≠ t := fun h => hk (h ▸ rfl)
      simp [cells, hu]
    | currentCoroutineId u => by_cases hu : u = t <;> simp [cells, hu]
    | _ => rfl

/-- A storage whose lookups differ from those of `p` at one key of one map. -/
lemma cells_withStorage {storage : TraceStorage} {map : StorageMap} {key : JLong}
    {entry : Option map.Value} (hentry : (p.withStorage storage).cells (.entry map key) = entry)
    (hkeys : ∀ key', key' ≠ key →
      (p.withStorage storage).cells (.entry map key') = p.cells (.entry map key'))
    (hmaps : ∀ map', map' ≠ map → ∀ key',
      (p.withStorage storage).cells (.entry map' key') = p.cells (.entry map' key'))
    (hgcEvents : storage.gcEvents = p.storage.gcEvents)
    (hgcHeap : storage.gcHeap = p.storage.gcHeap)
    (hrawList : storage.rawList = p.storage.rawList) :
    (p.withStorage storage).cells = Function.update p.cells (.entry map key) entry := by
  refine Function.eq_update_iff.mpr ⟨hentry, fun k hk => ?_⟩
  cases k with
  | entry map' key' =>
    by_cases hmap : map' = map
    · subst hmap
      exact hkeys key' fun h => hk (h ▸ rfl)
    · exact hmaps map' hmap key'
  | gcEvents =>
    change (storage.gcEvents, storage.gcHeap) = _
    rw [hgcEvents, hgcHeap]
    rfl
  | rawList => exact hrawList
  | _ => rfl

/-- The pointer of an info is written through. -/
lemma cells_updateCoroutineInfo (c : JLong) (f : CoroutineInfo → CoroutineInfo) :
    (p.withStorage (p.storage.updateCoroutineInfo c f)).cells =
      Function.update p.cells (.entry .coroutineInfo c)
        ((p.storage.getCoroutineInfo c).map f) := by
  have hinfo := fun key => p.storage.getCoroutineInfo_updateCoroutineInfo c key f
  refine p.cells_withStorage ((hinfo c).trans (if_pos rfl)) (fun key hne => ?_)
    (fun map hne key => ?_) rfl rfl rfl
  · exact (hinfo key).trans (if_neg hne)
  · cases map <;> first | rfl | exact absurd rfl hne

/-- `createCoroutineInfo` inserts an info if there is none. -/
lemma cells_createCoroutineInfo (c : JLong) (now : TraceTime) :
    (p.withStorage (p.storage.createCoroutineInfo c now)).cells =
      Function.update p.cells (.entry .coroutineInfo c)
        (some ((p.storage.getCoroutineInfo c).getD (TraceStorage.newCoroutineInfo now))) := by
  have hinfo := fun key => p.storage.getCoroutineInfo_createCoroutineInfo c key now
  refine p.cells_withStorage ((hinfo c).trans ?_) (fun key hne => ?_) (fun map hne key => ?_) rfl
    rfl rfl
  · cases p.storage.getCoroutineInfo c <;> simp
  · exact (hinfo key).trans (if_neg fun h => hne h.1)
  · cases map <;> first | rfl | exact absurd rfl hne

/-- `addChildCoroutine` appends to the list of the parent. -/
lemma cells_addChildCoroutine (c parent : JLong) :
    (p.withStorage (p.storage.addChildCoroutine c parent)).cells =
      Function.update p.cells (.entry .childCoroutines parent)
        ((p.storage.getChildCoroutines parent).map fun list => list.pushBack c) := by
  have hchildren := fun key => p.storage.getChildCoroutines_addChildCoroutine key c parent
  refine p.cells_withStorage ((hchildren parent).trans (if_pos rfl)) (fun key hne => ?_)
    (fun map hne key => ?_) rfl rfl rfl
  · exact (hchildren key).trans (if_neg hne)
  · cases map <;> first | rfl | exact absurd rfl hne

/-- `createChildCoroutineStorage` inserts a list if there is none. -/
lemma cells_createChildCoroutineStorage (c : JLong) :
    (p.withStorage (p.storage.createChildCoroutineStorage c)).cells =
      Function.update p.cells (.entry .childCoroutines c)
        (some ((p.storage.getChildCoroutines c).getD {})) := by
  have hchildren := p.storage.getChildCoroutines_createChildCoroutineStorage c
  refine p.cells_withStorage ((hchildren c).trans ?_) (fun key hne => ?_) (fun map hne key => ?_)
    rfl rfl rfl
  · cases p.storage.getChildCoroutines c <;> simp
  · exact (hchildren key).trans (if_neg fun h => hne h.1)
  · cases map <;> first | rfl | exact absurd rfl hne

/-- `addOngoingTraceInfo` inserts the record of a trace if there is none. -/
lemma cells_addOngoingTraceInfo (traceInfo : TraceInfo) :
    (p.withStorage (p.storage.addOngoingTraceInfo traceInfo).2).cells =
      Function.update p.cells (.entry .ongoingTraceInfo traceInfo.coroutineId)
        (some ((p.storage.ongoingTraceInfoMap.at? traceInfo.coroutineId).getD traceInfo)) := by
  have hongoing := fun key => p.storage.ongoingTraceInfoMap.at?_insert traceInfo.coroutineId key
    traceInfo
  refine p.cells_withStorage ((hongoing _).trans ?_) (fun key hne => ?_) (fun map hne key => ?_)
    rfl rfl rfl
  · cases p.storage.ongoingTraceInfoMap.at? traceInfo.coroutineId <;> simp
  · exact (hongoing key).trans (if_neg fun h => hne h.1)
  · cases map <;> first | rfl | exact absurd rfl hne

/-- `findOngoingTraceInfo` inserts the default if there is no record. -/
lemma cells_findOngoingTraceInfo (c : JLong) :
    (p.withStorage (p.storage.findOngoingTraceInfo c).2).cells =
      Function.update p.cells (.entry .ongoingTraceInfo c)
        (some ((p.storage.ongoingTraceInfoMap.at? c).getD {})) := by
  have hongoing := p.storage.ongoingTraceInfoMap.at?_get {} c
  refine p.cells_withStorage ((hongoing c).trans (if_pos rfl)) (fun key hne => ?_)
    (fun map hne key => ?_) rfl rfl rfl
  · exact (hongoing key).trans (if_neg hne)
  · cases map <;> first | rfl | exact absurd rfl hne

/-- `removeOngoingTraceInfo` removes the record of a trace. -/
lemma cells_removeOngoingTraceInfo (c : JLong) :
    (p.withStorage (p.storage.removeOngoingTraceInfo c)).cells =
      Function.update p.cells (.entry .ongoingTraceInfo c) none := by
  have hongoing := p.storage.ongoingTraceInfoMap.at?_erase c
  refine p.cells_withStorage ((hongoing c).trans (if_pos rfl)) (fun key hne => ?_)
    (fun map hne key => ?_) rfl rfl rfl
  · exact (hongoing key).trans (if_neg hne)
  · cases map <;> first | rfl | exact absurd rfl hne

/-- `addProcessedTrace` appends to the list of the coroutine. -/
lemma cells_addProcessedTrace (c : JLong) (record : ProcessedTraceRecord) :
    (p.withStorage (p.storage.addProcessedTrace c record)).cells =
      Function.update p.cells (.entry .processed c)
        (some (((p.storage.getProcessedTraces c).getD {}).pushBack record)) := by
  have hprocessed := fun key => p.storage.getProcessedTraces_addProcessedTrace c key record
  refine p.cells_withStorage ((hprocessed c).trans (if_pos rfl)) (fun key hne => ?_)
    (fun map hne key => ?_) rfl rfl rfl
  · exact (hprocessed key).trans (if_neg hne)
  · cases map <;> first | rfl | exact absurd rfl hne

/-- A record that the threads keep is the first one of its thread. -/
lemma cells_threads {q : Profiler} {t : PThread} {info : Option ThreadInfo}
    (hq : q.storage = p.storage ∧ q.locals = p.locals ∧ q.outputCounter = p.outputCounter)
    (hinfo : q.findThread t = info) (hothers : ∀ u, u ≠ t → q.findThread u = p.findThread u) :
    q.cells = Function.update p.cells (.threadInfo t) info := by
  obtain ⟨hstorage, hlocals, hcounter⟩ := hq
  refine Function.eq_update_iff.mpr ⟨hinfo, fun k hk => ?_⟩
  cases k with
  | threadInfo u => exact hothers u fun h => hk (h ▸ rfl)
  | entry map key => cases map <;> simp only [cells, hstorage]
  | _ => simp only [cells, hstorage, hlocals, hcounter]

/-- `addCurrentThread` adds a record behind the others. -/
lemma cells_addCurrentThread (t : PThread) (name : String) (stackLo stackHi : ℕ) :
    (p.addCurrentThread t name stackLo stackHi).cells =
      Function.update p.cells (.threadInfo t) ((p.findThread t).or
        (some { name := name, id := t, stackLo := stackLo, stackHi := stackHi })) := by
  refine p.cells_threads ⟨rfl, rfl, rfl⟩ ?_ fun u hu => ?_
  · exact (ConcurrentList.find_pushBack p.threads _ _).trans (by simp [isThread, findThread])
  · have hne : isThread u
        { name := name, id := t, stackLo := stackLo, stackHi := stackHi } = false :=
      beq_eq_false_iff_ne.mpr (Ne.symm hu)
    refine (ConcurrentList.find_pushBack p.threads _ _).trans ?_
    rw [hne]
    simp [findThread]

/-- An addition to a counter is an addition to the first record of the thread. -/
lemma cells_addCurrentTraces (t : PThread) (amount : ℤ) :
    (p.addCurrentTraces t amount).cells =
      Function.update p.cells (.threadInfo t) ((p.findThread t).map fun info =>
        { info with currentTraces := info.currentTraces + amount }) := by
  refine p.cells_threads ⟨rfl, rfl, rfl⟩ ?_ fun u hu => ?_
  · refine ConcurrentList.find_updateFirst (p := isThread t) ?_ p.threads
    exact fun _ => rfl
  · refine ConcurrentList.find_updateFirst_of_disjoint (fun x hx => ?_) p.threads
    have hxu : isThread u x = false :=
      beq_eq_false_iff_ne.mpr fun h => hu (h.symm.trans (beq_iff_eq.mp hx))
    exact ⟨hxu, hxu⟩

/-- The GC events are one cell. -/
lemma cells_gc (storage : TraceStorage) {gcEvents : ConcurrentList GCEventPtr}
    {gcHeap : List GCEvent}
    (hstorage : storage = { p.storage with gcEvents := gcEvents, gcHeap := gcHeap }) :
    (p.withStorage storage).cells = Function.update p.cells .gcEvents (gcEvents, gcHeap) := by
  subst hstorage
  refine Function.eq_update_iff.mpr ⟨rfl, fun k hk => ?_⟩
  cases k with
  | gcEvents => exact absurd rfl hk
  | entry map key => cases map <;> rfl
  | _ => rfl

/-- The raw traces are one cell. -/
lemma cells_addRawTrace (now : TraceTime) (trace : AsyncTrace) (c : JLong) :
    (p.withStorage (p.storage.addRawTrace now trace c)).cells =
      Function.update p.cells .rawList
        (p.storage.rawList.pushBack ⟨now, trace.size, trace, trace.threadId, c⟩) := by
  refine Function.eq_update_iff.mpr ⟨rfl, fun k hk => ?_⟩
  cases k with
  | rawList => exact absurd rfl hk
  | entry map key => cases map <;> rfl
  | _ => rfl

/-- The counter of the written traces is a cell. -/
lemma cells_outputCounter (n : ℕ) :
    { p with outputCounter := n }.cells = Function.update p.cells .outputCounter n := by
  refine Function.eq_update_iff.mpr ⟨rfl, fun k hk => ?_⟩
  cases k with
  | outputCounter => exact absurd rfl hk
  | entry map key => cases map <;> rfl
  | _ => rfl

end Profiler

/-! ## The operations of the maps, uninterrupted -/

namespace Interleaved

variable {s : Cells} {map : StorageMap} {c : JLong} {value : map.Value}

lemma run_contains (s : Cells) (map : StorageMap) (c : JLong) :
    (contains map c).run s = some (s, (s (.entry map c)).isSome) := by
  rw [contains, CellProgram.run_observe, Option.map_some]

/-- `get` of a key that is there. -/
lemma run_get (h : s (.entry map c) = some value) : (get map c).run s = some (s, ()) := by
  rw [Interleaved.get, CellProgram.run_observe, h, Option.map_some, Option.map_some]

/-- A read through a pointer that is there. -/
lemma run_load (h : s (.entry map c) = some value) : (load map c).run s = some (s, value) := by
  rw [load, CellProgram.run_observe, h, id, Option.map_some]

/-- A write through a pointer that is there. -/
lemma run_update (f : map.Value → map.Value) (h : s (.entry map c) = some value) :
    (update map c f).run s = some (Function.update s (.entry map c) (some (f value)), ()) := by
  rw [update, CellProgram.run_perform, h, Option.map_some, Option.map_some]

lemma run_insert (s : Cells) (map : StorageMap) (c : JLong) (value : map.Value) :
    (insert map c value).run s =
      some (Function.update s (.entry map c) (some ((s (.entry map c)).getD value)),
        (s (.entry map c)).isNone) := by
  rw [Interleaved.insert, CellProgram.run_perform, Option.map_some]

/-- `getCoroutineInfo`. -/
lemma run_getCoroutineInfo (s : Cells) (c : JLong) :
    (getCoroutineInfo c).run s = some (s, (s (.entry .coroutineInfo c)).isSome) := by
  rw [getCoroutineInfo, CellProgram.run_bind, run_contains, Option.bind_some]
  cases h : s (.entry .coroutineInfo c) with
  | none => rfl
  | some info =>
    simp only [Option.isSome_some, if_true]
    rw [CellProgram.run_bind, run_get h]
    rfl

/-- `getProcessedTraces`. -/
lemma run_getProcessedTraces (s : Cells) (c : JLong) :
    (getProcessedTraces c).run s = some (s, (s (.entry .processed c)).isSome) := by
  rw [getProcessedTraces, CellProgram.run_bind, run_contains, Option.bind_some]
  cases h : s (.entry .processed c) with
  | none => rfl
  | some list =>
    simp only [Option.isSome_some, if_true]
    rw [CellProgram.run_bind, run_get h]
    rfl

end Interleaved

/-! ## The callbacks, uninterrupted -/

namespace Profiler

variable {p : Profiler} {env : Env} {ctx : Context} {c : JLong} {info : CoroutineInfo}

/-- `getCoroutineInfo`. -/
lemma run_getCoroutineInfo (p : Profiler) (c : JLong) :
    (getCoroutineInfo c).run p.cells = some (p.cells, (p.storage.getCoroutineInfo c).isSome) :=
  Interleaved.run_getCoroutineInfo p.cells c

/-- A write through the pointer to an info. -/
lemma run_updateInfo (f : CoroutineInfo → CoroutineInfo)
    (h : p.storage.getCoroutineInfo c = some info) :
    (update .coroutineInfo c f).run p.cells =
        some ((p.withStorage (p.storage.updateCoroutineInfo c f)).cells, ()) ∧
      (p.withStorage (p.storage.updateCoroutineInfo c f)).storage.getCoroutineInfo c =
        some (f info) := by
  have hcell : p.cells (.entry .coroutineInfo c) = some info := h
  refine ⟨?_, ?_⟩
  · rw [run_update f hcell, cells_updateCoroutineInfo, h, Option.map_some]
  · rw [withStorage_storage, TraceStorage.getCoroutineInfo_updateCoroutineInfo, if_pos rfl, h,
      Option.map_some]

/-- `createCoroutineInfo`. -/
lemma run_createCoroutineInfo (p : Profiler) (c : JLong) (now : TraceTime) :
    (createCoroutineInfo c now now).run p.cells =
      some ((p.withStorage (p.storage.createCoroutineInfo c now)).cells, ()) := by
  rw [cells_createCoroutineInfo, createCoroutineInfo, CellProgram.run_bind, run_contains,
    Option.bind_some]
  change CellProgram.run (if (p.storage.getCoroutineInfo c).isSome = true then _ else _) _ = _
  cases h : p.storage.getCoroutineInfo c with
  | none =>
    have hcell : p.cells (.entry .coroutineInfo c) = none := h
    simp only [Option.isSome_none, Bool.false_eq_true, if_false]
    rw [CellProgram.run_bind, run_insert, hcell]
    rfl
  | some info =>
    have hcell : p.cells (.entry .coroutineInfo c) = some info := h
    simp only [Option.isSome_some, if_true]
    rw [Option.getD_some, ← hcell, Function.update_eq_self]
    rfl

/-- `addChildCoroutine`. -/
lemma run_addChildCoroutine {parent : JLong} {list : ConcurrentList JLong}
    (h : p.storage.getChildCoroutines parent = some list) :
    (addChildCoroutine c parent).run p.cells =
      some ((p.withStorage (p.storage.addChildCoroutine c parent)).cells, ()) := by
  have hcell : p.cells (.entry .childCoroutines parent) = some list := h
  rw [addChildCoroutine, CellProgram.run_bind, run_get hcell, Option.bind_some,
    run_update _ hcell, cells_addChildCoroutine, h]
  rfl

/-- `createChildCoroutineStorage`. -/
lemma run_createChildCoroutineStorage (p : Profiler) (c : JLong) :
    (createChildCoroutineStorage c).run p.cells =
      some ((p.withStorage (p.storage.createChildCoroutineStorage c)).cells, ()) := by
  rw [createChildCoroutineStorage, CellProgram.run_bind, run_insert,
    cells_createChildCoroutineStorage]
  rfl

/-- `calculate_resource_usage`. -/
lemma run_calculateResourceUsage (h : p.storage.getCoroutineInfo c = some info) :
    (Interleaved.calculateResourceUsage ctx.thread c ctx.now ctx.rusage).run p.cells =
      some ((p.calculateResourceUsage ctx c info).1.cells, p.creditOf ctx info) := by
  have hcell : p.cells (.entry .coroutineInfo c) = some info := h
  have hne : Cell.currentRusage ctx.thread ≠ Cell.entry .coroutineInfo c := nofun
  have hcells : (p.calculateResourceUsage ctx c info).1.cells =
      Function.update (Function.update p.cells (.currentRusage ctx.thread) ctx.rusage)
        (.entry .coroutineInfo c) (some (info.addCredit (p.creditOf ctx info))) := by
    rw [← cells_setCurrentRusage, calculateResourceUsage]
    exact (cells_updateCoroutineInfo (p.setCurrentRusage ctx.thread ctx.rusage) c _).trans
      (by rw [setCurrentRusage_storage, h]; rfl)
  simp only [Interleaved.calculateResourceUsage, CellProgram.run_bind, CellProgram.run_read,
    CellProgram.run_write, CellProgram.run_pure, addTo, load, CellProgram.run_observe, id,
    update, CellProgram.run_perform, hcell, Option.map_some, Option.bind_some,
    Function.update_self, Function.update_of_ne hne, Function.update_of_ne hne.symm,
    Function.update_idem]
  rw [hcells, Function.update_comm hne.symm, Function.update_idem]
  rfl

/-- `coroutineCreated`. -/
lemma run_coroutineCreated (p : Profiler) (ctx : Context) (c : JLong) :
    (Interleaved.coroutineCreated ctx.thread (fun _ => ctx.now) c).run p.cells =
      some ((p.coroutineCreated ctx c).cells, []) := by
  have hparent : p.cells (.currentCoroutineId ctx.thread) =
    (p.locals ctx.thread).currentCoroutineId := rfl
  rw [Interleaved.coroutineCreated, CellProgram.run_bind, CellProgram.run_read, Option.bind_some,
    CellProgram.run_bind, run_createCoroutineInfo, Option.bind_some, CellProgram.run_bind,
    run_contains, Option.bind_some, coroutineCreated]
  dsimp only
  rw [hparent]
  change CellProgram.run (if ((p.storage.createCoroutineInfo c ctx.now).getChildCoroutines
    (p.locals ctx.thread).currentCoroutineId).isSome = true then _ else _) _ = _
  cases h : (p.storage.createCoroutineInfo c ctx.now).getChildCoroutines
      (p.locals ctx.thread).currentCoroutineId with
  | none =>
    have hstorage : (p.storage.createCoroutineInfo c ctx.now).containsChildCoroutineStorage
        (p.locals ctx.thread).currentCoroutineId = false :=
      ConcurrentCleanableMap.contains_eq_false_iff.mpr h
    simp only [Option.isSome_none, Bool.false_eq_true, if_false, hstorage]
    rfl
  | some list =>
    have hstorage := (TraceStorage.containsChildCoroutineStorage_iff _ _).mpr ⟨list, h⟩
    simp only [Option.isSome_some, if_true, hstorage]
    rw [CellProgram.run_bind,
      run_addChildCoroutine (p := p.withStorage (p.storage.createCoroutineInfo c ctx.now)) h,
      Option.bind_some, CellProgram.run_bind, run_createChildCoroutineStorage]
    rfl

/-- The info after `calculate_resource_usage`. -/
lemma getCoroutineInfo_calculateResourceUsage (ctx : Context)
    (h : p.storage.getCoroutineInfo c = some info) :
    (p.calculateResourceUsage ctx c info).1.storage.getCoroutineInfo c =
      some (info.addCredit (p.creditOf ctx info)) := by
  rw [(calculateResourceUsage_updatesInfo p ctx c h).info c, if_pos rfl, h]
  rfl

/-- The part of `coroutineSuspended` that credits; there is still an info. -/
lemma run_creditSuspended (ctx : Context) (h : p.storage.getCoroutineInfo c = some info) :
    (Interleaved.creditSuspended ctx.thread c ctx.now ctx.rusage).run p.cells =
        some ((p.creditSuspended ctx c info).1.cells, (p.creditSuspended ctx c info).2) ∧
      ∃ info', (p.creditSuspended ctx c info).1.storage.getCoroutineInfo c = some info' := by
  have hcell : p.cells (.entry .coroutineInfo c) = some info := h
  rw [Interleaved.creditSuspended, CellProgram.run_bind, run_load hcell, Option.bind_some,
    creditSuspended]
  split_ifs with hrunning
  · obtain ⟨hrun, hinfo⟩ := run_updateInfo (fun info => { info with lastResume := 0 })
      (getCoroutineInfo_calculateResourceUsage ctx h)
    rw [CellProgram.run_bind, run_calculateResourceUsage h, Option.bind_some,
      CellProgram.run_bind, hrun]
    exact ⟨rfl, _, hinfo⟩
  · exact ⟨rfl, info, h⟩

/-- Resolving frames does not change the cells. -/
lemma cells_resolveFrames (env : Env) (p : Profiler) (methods : List JMethodID) :
    (resolveFrames (processMethodInfo env) p methods).2.cells = p.cells := by
  refine resolveFrames_frame cells (fun p method => ?_) p methods
  rw [processMethodInfo, resolveMethod]
  split_ifs <;> rfl

/-- `addSuspensionInfo`. -/
lemma run_addSuspensionInfo {suspensionInfo : SuspensionInfo}
    (h : p.storage.getCoroutineInfo suspensionInfo.coroutineId = some info) :
    (addSuspensionInfo suspensionInfo).run p.cells =
      (p.storage.addSuspensionInfo suspensionInfo).map fun storage =>
        ((p.withStorage storage).cells, ()) := by
  have hcell : p.cells (.entry .coroutineInfo suspensionInfo.coroutineId) = some info := h
  have hat := h
  rw [TraceStorage.getCoroutineInfo_eq] at hat
  rw [addSuspensionInfo, CellProgram.run_bind, run_get hcell, Option.bind_some,
    (run_updateInfo _ h).1, TraceStorage.addSuspensionInfo, hat, Option.map_some, Option.map_some]

/-- `coroutineSuspended`, when the caches hold the answers of JVMTI. -/
lemma run_coroutineSuspended (hnames : NamesCoherent env p) (ctx : Context) (c : JLong)
    (stack : Option (List JMethodID)) :
    (Interleaved.coroutineSuspended env ctx.thread (fun _ => ctx.now) ctx.rusage c stack).run
        p.cells =
      (p.coroutineSuspended env ctx c stack).map fun x => (x.1.cells, x.2) := by
  rw [Interleaved.coroutineSuspended, CellProgram.run_bind, CellProgram.run_write,
    Option.bind_some, ← cells_setCurrentCoroutineId, CellProgram.run_bind, run_getCoroutineInfo,
    Option.bind_some, coroutineSuspended]
  dsimp only
  have hnames' : NamesCoherent env (p.setCurrentCoroutineId ctx.thread (-1)) := hnames.congr rfl
  generalize p.setCurrentCoroutineId ctx.thread (-1) = q at hnames'
  cases h : q.storage.getCoroutineInfo c with
  | none => rfl
  | some info =>
    obtain ⟨hcredit, info', hinfo'⟩ := run_creditSuspended ctx h
    simp only [Option.isSome_some, if_true]
    rw [CellProgram.run_bind, hcredit, Option.bind_some]
    have hnames'' : NamesCoherent env (q.creditSuspended ctx c info).1 :=
      hnames'.congr (names_creditSuspended q ctx c info)
    have hstack : suspensionStack stack =
        (stack.map fun frames => frames.take coroutineSuspensionStackDepth).getD [] := by
      cases stack <;> rfl
    rw [stackFrames, hstack]
    cases hframes : stack.map fun frames => frames.take coroutineSuspensionStackDepth with
    | none => rfl
    | some frames =>
      cases frames with
      | nil => rfl
      | cons frame frames =>
        obtain ⟨hresolved, -⟩ := resolveFrames_spec (fun p x hp => processMethodInfo_spec hp x)
          hnames'' (frame :: frames)
        have hstorage : (resolveFrames (processMethodInfo env) (q.creditSuspended ctx c info).1
            (frame :: frames)).2.storage.getCoroutineInfo c = some info' := by
          rw [resolveFrames_frame storage
            (fun p x => (core_eq_iff.mp (core_processMethodInfo env p x)).1)]
          exact hinfo'
        rw [Option.getD_some, if_neg (List.cons_ne_nil _ _), ← hresolved]
        dsimp only
        rw [CellProgram.run_bind,
          ← cells_resolveFrames env (q.creditSuspended ctx c info).1 (frame :: frames),
          run_addSuspensionInfo hstorage, Option.map_map]
        cases TraceStorage.addSuspensionInfo _ _ <;> rfl

/-- `coroutineCompleted`. -/
lemma run_coroutineCompleted (p : Profiler) (ctx : Context) (c : JLong) :
    (Interleaved.coroutineCompleted ctx.thread (fun _ => ctx.now) ctx.rusage c).run p.cells =
      some ((p.coroutineCompleted ctx c).1.cells, (p.coroutineCompleted ctx c).2) := by
  rw [Interleaved.coroutineCompleted, CellProgram.run_bind, CellProgram.run_write,
    Option.bind_some, ← cells_setCurrentCoroutineId, CellProgram.run_bind, run_getCoroutineInfo,
    Option.bind_some, coroutineCompleted]
  generalize p.setCurrentCoroutineId ctx.thread (-1) = q
  cases h : q.storage.getCoroutineInfo c with
  | none => rfl
  | some info =>
    obtain ⟨hrun, hinfo⟩ := run_updateInfo (fun info => { info with endTime := ctx.now }) h
    simp only [Option.isSome_some, if_true]
    rw [CellProgram.run_bind, hrun, Option.bind_some, CellProgram.run_bind,
      run_calculateResourceUsage hinfo]
    rfl

/-- Ending the first suspension that is not ended. -/
lemma run_endLastSuspension (h : p.storage.getCoroutineInfo c = some info) (now : TraceTime) :
    (endLastSuspension c now).run p.cells =
      some ((p.withStorage (match p.storage.getLastSuspensionInfo c with
        | some _ => p.storage.endLastSuspension c now
        | none => p.storage)).cells, ()) := by
  have hcell : p.cells (.entry .coroutineInfo c) = some info := h
  have hlast : p.storage.getLastSuspensionInfo c =
      info.suspensionsList.list.find? TraceStorage.nonEndedSuspension := by
    have hat := h
    rw [TraceStorage.getCoroutineInfo_eq] at hat
    rw [TraceStorage.getLastSuspensionInfo,
      if_pos (ConcurrentCleanableMap.contains_iff.mpr ⟨info, hat⟩), hat]
    rfl
  have hrun : (getLastSuspensionInfo c).run p.cells = some (p.cells,
      info.suspensionsList.list.findIdx? TraceStorage.nonEndedSuspension) := by
    rw [getLastSuspensionInfo, CellProgram.run_bind, run_contains, hcell, Option.bind_some]
    simp only [Option.isSome_some, if_true]
    rw [CellProgram.run_bind, run_get hcell, Option.bind_some, CellProgram.run_bind,
      run_load hcell]
    rfl
  rw [endLastSuspension, CellProgram.run_bind, hrun, Option.bind_some, hlast]
  dsimp only
  cases hidx : info.suspensionsList.list.findIdx? TraceStorage.nonEndedSuspension with
  | none =>
    have hfind : info.suspensionsList.list.find? TraceStorage.nonEndedSuspension = none := by
      rw [List.find?_eq_none]
      intro x hx
      have hall := List.findIdx?_eq_none_iff.mp hidx x hx
      rw [hall]
      exact Bool.false_ne_true
    rw [hfind]
    rfl
  | some i =>
    obtain ⟨hi, hpos, -⟩ := List.findIdx?_eq_some_iff_getElem.mp hidx
    obtain ⟨x, hx⟩ := Option.isSome_iff_exists.mp
      (List.find?_isSome.mpr ⟨_, List.getElem_mem hi, hpos⟩)
    rw [hx]
    dsimp only
    rw [endSuspension, run_update _ hcell, TraceStorage.endLastSuspension,
      cells_updateCoroutineInfo, h, Option.map_some, ConcurrentList.updateFirst,
      ConcurrentList.updateFirstIn_eq_modify hidx]

/-- `coroutineResumed`. -/
lemma run_coroutineResumed (p : Profiler) (ctx : Context) (c : JLong) :
    (Interleaved.coroutineResumed ctx.thread (fun _ => ctx.now) ctx.rusage c).run p.cells =
      some ((p.coroutineResumed ctx c).cells, []) := by
  rw [Interleaved.coroutineResumed, CellProgram.run_bind, CellProgram.run_write,
    Option.bind_some, ← cells_setCurrentCoroutineId, CellProgram.run_bind, run_getCoroutineInfo,
    Option.bind_some, coroutineResumed]
  generalize p.setCurrentCoroutineId ctx.thread c = q
  cases h : q.storage.getCoroutineInfo c with
  | none => rfl
  | some info =>
    have hr : (q.setCurrentRusage ctx.thread ctx.rusage).storage.getCoroutineInfo c =
      some info := h
    obtain ⟨hrun, hinfo⟩ := run_updateInfo (fun info => { info with lastResume := ctx.now }) hr
    simp only [Option.isSome_some, if_true]
    rw [CellProgram.run_bind, CellProgram.run_write, Option.bind_some, ← cells_setCurrentRusage,
      CellProgram.run_bind, hrun, Option.bind_some, CellProgram.run_bind,
      run_endLastSuspension hinfo]
    rfl

/-! ## The export, uninterrupted -/

/-- `getProcessedTraces`. -/
lemma run_getProcessedTraces (p : Profiler) (c : JLong) :
    (getProcessedTraces c).run p.cells =
      some (p.cells, (p.storage.getProcessedTraces c).isSome) :=
  Interleaved.run_getProcessedTraces p.cells c

/-- The samples of a coroutine. -/
lemma run_addSamples (traceInfo : TraceInfo) (sequenceId : ℕ) (w : TraceWriter) :
    (addSamples traceInfo sequenceId c (p.storage.getProcessedTraces c).isSome w).run p.cells =
      some (p.cells, match p.storage.getProcessedTraces c with
        | some traces => addCallStack w traces traceInfo sequenceId w.trackCounter
        | none => w) := by
  rw [addSamples]
  cases h : p.storage.getProcessedTraces c with
  | none => rfl
  | some traces =>
    have hcell : p.cells (.entry .processed c) = some traces := h
    simp only [Option.isSome_some, if_true]
    rw [CellProgram.run_bind, run_load hcell]
    rfl

/-- The children of a coroutine with an info. -/
lemma run_childItems {item : CoroutineQueueItem}
    (h : p.storage.getCoroutineInfo item.coroutineId = some info) :
    (Interleaved.childItems item.coroutineId).run p.cells =
      some (p.cells, KotlinTracer.childItems p.storage item) := by
  rw [Interleaved.childItems, CellProgram.run_bind, run_contains, Option.bind_some,
    KotlinTracer.childItems, h]
  change CellProgram.run
    (if (p.storage.getChildCoroutines item.coroutineId).isSome = true then _ else _) _ = _
  cases hlist : p.storage.getChildCoroutines item.coroutineId with
  | none =>
    have hcontains : p.storage.containsChildCoroutineStorage item.coroutineId = false :=
      ConcurrentCleanableMap.contains_eq_false_iff.mpr hlist
    simp only [Option.isSome_none, Bool.false_eq_true, if_false, hcontains]
    rfl
  | some list =>
    have hcell : p.cells (.entry .childCoroutines item.coroutineId) = some list := hlist
    have hcontains := (TraceStorage.containsChildCoroutineStorage_iff _ _).mpr ⟨list, hlist⟩
    simp only [Option.isSome_some, if_true, hcontains, Option.getD_some]
    rw [CellProgram.run_bind, run_get hcell, Option.bind_some, CellProgram.run_bind,
      run_load hcell]
    rfl

/-- The body of the loop of `add_trace_info`. -/
lemma run_exportCoroutine {item : CoroutineQueueItem} (traceInfo : TraceInfo) (sequenceId : ℕ)
    (w : TraceWriter) (h : p.storage.getCoroutineInfo item.coroutineId = some info) :
    (Interleaved.exportCoroutine traceInfo sequenceId w item).run p.cells =
      some (p.cells, KotlinTracer.exportCoroutine traceInfo p.storage sequenceId w item info,
        KotlinTracer.childItems p.storage item) := by
  have hcell : p.cells (.entry .coroutineInfo item.coroutineId) = some info := h
  rw [Interleaved.exportCoroutine, CellProgram.run_bind, run_load hcell, Option.bind_some,
    CellProgram.run_bind, run_getProcessedTraces, Option.bind_some, CellProgram.run_bind,
    run_addSamples, Option.bind_some, CellProgram.run_bind, addSuspensions, CellProgram.run_bind,
    run_load hcell]
  simp only [Option.bind_some, CellProgram.run_pure, CellProgram.run_bind]
  rw [run_childItems h]
  rfl

/-- **The loop of `add_trace_info`.** A loop that ends within `n` iterations leaves the cells alone
and gives the trace of the loop over the storage.

**Proof sketch.** Induction on `n`; in every iteration the queue, the visited coroutines and the
trace are the same. -/
lemma of_run_addTraceInfoLoop {traceInfo : TraceInfo} {sequenceId n : ℕ} {st : ExportState}
    {s : Cells} {w : TraceWriter}
    (h : (Interleaved.addTraceInfoLoop traceInfo sequenceId n st).run p.cells = some (s, w)) :
    s = p.cells ∧
      (KotlinTracer.addTraceInfoLoop traceInfo p.storage sequenceId n st).coroutines = [] ∧
      (KotlinTracer.addTraceInfoLoop traceInfo p.storage sequenceId n st).writer = w := by
  induction n generalizing st with
  | zero =>
    obtain ⟨q, visited, w'⟩ := st
    cases q with
    | nil =>
      cases h
      exact ⟨rfl, rfl, rfl⟩
    | cons item rest => cases h
  | succ n ih =>
    obtain ⟨q, visited, w'⟩ := st
    cases q with
    | nil =>
      cases h
      exact ⟨rfl, rfl, rfl⟩
    | cons item rest =>
      rw [Interleaved.addTraceInfoLoop, CellProgram.run_bind, run_getCoroutineInfo,
        Option.bind_some] at h
      rw [KotlinTracer.addTraceInfoLoop]
      cases hinfo : p.storage.getCoroutineInfo item.coroutineId with
      | none =>
        simp only [hinfo, Option.isSome_none, Bool.false_eq_true, if_false] at h ⊢
        exact ih h
      | some info =>
        simp only [hinfo, Option.isSome_some, if_true] at h
        rw [CellProgram.run_bind, run_exportCoroutine traceInfo sequenceId w' hinfo,
          Option.bind_some] at h
        simp only [hinfo]
        exact ih h

/-- The number of iterations does not matter, as long as the loop ends. -/
lemma addTraceInfoLoop_writer_eq {traceInfo : TraceInfo} {storage : TraceStorage}
    {sequenceId n m : ℕ} {st : ExportState}
    (hn : (KotlinTracer.addTraceInfoLoop traceInfo storage sequenceId n st).coroutines = [])
    (hm : (KotlinTracer.addTraceInfoLoop traceInfo storage sequenceId m st).coroutines = []) :
    KotlinTracer.addTraceInfoLoop traceInfo storage sequenceId n st =
      KotlinTracer.addTraceInfoLoop traceInfo storage sequenceId m st := by
  wlog hle : n ≤ m generalizing n m
  · exact (this hm hn (Nat.le_of_not_le hle)).symm
  · obtain ⟨k, rfl⟩ := Nat.exists_eq_add_of_le hle
    rw [addTraceInfoLoop_add, addTraceInfoLoop_of_coroutines_eq_nil hn]

/-- `write_perfetto`. -/
lemma of_run_writePerfetto {traceInfo : TraceInfo} {iterations : ℕ} {s : Cells}
    {packets : List TracePacket}
    (h : (Interleaved.writePerfetto traceInfo iterations).run p.cells = some (s, packets)) :
    s = p.cells ∧ packets = KotlinTracer.writePerfetto traceInfo p.storage := by
  rw [Interleaved.writePerfetto, CellProgram.run_bind, Interleaved.addGcInfo, CellProgram.run_bind,
    CellProgram.run_read, Option.bind_some, CellProgram.run_pure, Option.bind_some,
    CellProgram.run_bind, Option.bind_eq_some_iff] at h
  obtain ⟨⟨s', w⟩, hloop, hpackets⟩ := h
  obtain ⟨rfl, hempty, rfl⟩ := of_run_addTraceInfoLoop hloop
  cases hpackets
  refine ⟨rfl, ?_⟩
  rw [addTraceInfoLoop_writer_eq hempty (coroutines_addTraceInfo 1 _)]
  rfl

/-! ## The trace callbacks, uninterrupted -/

/-- `findThread` and an addition to the counter. -/
lemma run_addCurrentTraces (p : Profiler) (t : PThread) (amount : ℤ) :
    (Interleaved.addCurrentTraces t amount).run p.cells =
      (p.findThread t).map fun _ => ((p.addCurrentTraces t amount).cells, ()) := by
  rw [Interleaved.addCurrentTraces, CellProgram.run_bind, CellProgram.run_observe,
    cells_addCurrentTraces]
  cases h : p.findThread t with
  | none =>
    have hcell : p.cells (.threadInfo t) = none := h
    rw [hcell]
    rfl
  | some info =>
    have hcell : p.cells (.threadInfo t) = some info := h
    rw [hcell, Option.map_some, Option.map_some, Option.bind_some, CellProgram.run_modify]
    dsimp only
    rw [hcell]
    rfl

/-- `addOngoingTraceInfo`. -/
lemma run_addOngoingTraceInfo (p : Profiler) (traceInfo : TraceInfo) :
    (insert .ongoingTraceInfo traceInfo.coroutineId traceInfo).run p.cells =
      some ((p.withStorage (p.storage.addOngoingTraceInfo traceInfo).2).cells,
        (p.storage.addOngoingTraceInfo traceInfo).1) := by
  have hadded : (p.storage.addOngoingTraceInfo traceInfo).1 =
      (p.storage.ongoingTraceInfoMap.at? traceInfo.coroutineId).isNone := by
    rw [Bool.eq_iff_iff, Option.isNone_iff_eq_none]
    exact ConcurrentCleanableMap.insert_fst
  rw [run_insert, cells_addOngoingTraceInfo, hadded]
  rfl

/-- The second part of `traceStart`. -/
lemma run_recordTrace (p : Profiler) (ctx : Context) (id : JLong) :
    (Interleaved.recordTrace ctx.thread ctx.now id).run p.cells =
      (p.recordTrace ctx id).map fun x => (x.1.cells, x.2) := by
  rw [Interleaved.recordTrace, CellProgram.run_bind, run_addCurrentTraces, recordTrace]
  cases h : p.findThread ctx.thread with
  | none => rfl
  | some info =>
    rw [Option.map_some, Option.bind_some, CellProgram.run_bind,
      run_createChildCoroutineStorage, Option.bind_some, CellProgram.run_bind,
      run_addOngoingTraceInfo _ ⟨id, ctx.now, 0⟩, Option.bind_some]
    simp only [withStorage_storage]
    split_ifs <;> rfl

/-- `traceStart`. -/
lemma run_traceStart (p : Profiler) (env : Env) (ctx : Context) (c : JLong) :
    (Interleaved.traceStart env ctx.thread (fun _ => ctx.now) c).run p.cells =
      (p.traceStart env ctx c).map fun x => (x.1.cells, x.2) := by
  rw [Interleaved.traceStart, traceStart_eq, createThreadInfo]
  split_ifs with hc
  · rw [CellProgram.run_bind, run_createCoroutineInfo, Option.bind_some, run_recordTrace]
  · exact run_recordTrace p ctx _

/-- `findOngoingTraceInfo`. -/
lemma run_findOngoingTraceInfo (p : Profiler) (c : JLong) :
    (findOngoingTraceInfo c).run p.cells =
      some ((p.withStorage (p.storage.findOngoingTraceInfo c).2).cells,
        (p.storage.findOngoingTraceInfo c).1) := by
  have hfound : (p.storage.findOngoingTraceInfo c).1 =
      (p.storage.ongoingTraceInfoMap.at? c).getD {} := ConcurrentCleanableMap.get_fst _ _ _
  rw [findOngoingTraceInfo, CellProgram.run_bind, CellProgram.run_modify, Option.bind_some,
    run_load (Function.update_self _ _ _), cells_findOngoingTraceInfo, hfound]
  rfl

/-- The end of `traceEnd`. -/
lemma of_run_writeTrace {traceInfo : TraceInfo} {iterations : ℕ} {s : Cells} {o : List Effect}
    (h : (Interleaved.writeTrace env traceInfo iterations).run p.cells = some (s, o)) :
    s = (p.writeTrace env traceInfo).1.cells ∧ o = (p.writeTrace env traceInfo).2 := by
  rw [Interleaved.writeTrace] at h
  rw [writeTrace]
  split_ifs at h ⊢ with hlong
  · rw [CellProgram.run_bind, CellProgram.run_perform, Option.map_some, Option.bind_some,
      CellProgram.run_bind, Option.bind_eq_some_iff] at h
    obtain ⟨⟨s', packets⟩, hpackets, hwrote⟩ := h
    have hcounter : Function.update p.cells .outputCounter (p.outputCounter + 1) =
      { p with outputCounter := p.outputCounter + 1 }.cells := (p.cells_outputCounter _).symm
    rw [show p.cells .outputCounter = p.outputCounter from rfl] at hpackets hwrote
    dsimp only at hpackets
    rw [hcounter] at hpackets
    obtain ⟨rfl, rfl⟩ := of_run_writePerfetto hpackets
    cases hwrote
    exact ⟨rfl, rfl⟩
  · cases h
    exact ⟨rfl, rfl⟩

/-- `traceEnd`. -/
lemma of_run_traceEnd (ctx : Context) {iterations : ℕ} {s : Cells} {o : List Effect}
    (h : (Interleaved.traceEnd env ctx.thread (fun _ => ctx.now) ctx.rusage iterations c).run
      p.cells = some (s, o)) :
    ∃ p', p.traceEnd env ctx c = some (p', o) ∧ s = p'.cells := by
  rw [Interleaved.traceEnd, CellProgram.run_bind, run_addCurrentTraces] at h
  rw [traceEnd]
  cases hthread : p.findThread ctx.thread with
  | none =>
    rw [hthread] at h
    cases h
  | some thread =>
    rw [hthread, Option.map_some, Option.bind_some, CellProgram.run_bind, run_getCoroutineInfo,
      Option.bind_some] at h
    dsimp only at h ⊢
    generalize p.addCurrentTraces ctx.thread (-1) = q at h ⊢
    cases hinfo : q.storage.getCoroutineInfo (traceId env ctx.thread c) with
    | none =>
      simp only [hinfo, Option.isSome_none, Bool.false_eq_true, if_false] at h
      cases h
      exact ⟨q, rfl, rfl⟩
    | some info =>
      simp only [hinfo, Option.isSome_some, if_true] at h
      rw [CellProgram.run_bind, run_calculateResourceUsage hinfo, Option.bind_some,
        CellProgram.run_bind, run_findOngoingTraceInfo, Option.bind_some, CellProgram.run_bind,
        erase, CellProgram.run_write, Option.bind_some] at h
      dsimp only at h
      rw [← cells_removeOngoingTraceInfo, CellProgram.run_bind, Option.bind_eq_some_iff] at h
      obtain ⟨⟨s', written⟩, hwritten, hend⟩ := h
      obtain ⟨rfl, rfl⟩ := of_run_writeTrace hwritten
      cases hend
      exact ⟨_, rfl, rfl⟩

/-! ## The other calls, uninterrupted -/

/-- `addCurrentThread`. -/
lemma run_addCurrentThread (p : Profiler) (t : PThread) (name : String) (stackLo stackHi : ℕ) :
    (Interleaved.addCurrentThread t name stackLo stackHi).run p.cells =
      some ((p.addCurrentThread t name stackLo stackHi).cells, ()) := by
  rw [Interleaved.addCurrentThread, CellProgram.run_modify, cells_addCurrentThread]
  rfl

/-- `gcStart`. -/
lemma run_gcStart (p : Profiler) (now : TraceTime) :
    (gcStart now).run p.cells = some ((p.withStorage (p.storage.gcStart now)).cells, ()) := by
  rw [gcStart, CellProgram.run_modify, p.cells_gc (p.storage.gcStart now) rfl]
  rfl

/-- `pop_front` of the GC events. -/
lemma run_popFrontGcEvent (s : Cells) :
    popFrontGcEvent.run s = some (Function.update s .gcEvents
      ((s .gcEvents).1.popFront.2, (s .gcEvents).2), ()) := by
  rw [popFrontGcEvent, CellProgram.run_bind, CellProgram.run_observe, Option.map_some,
    Option.bind_some]
  rcases hgc : s .gcEvents with ⟨⟨list, cleanUntil⟩, heap⟩
  cases list with
  | nil =>
    have hself : Function.update s .gcEvents (⟨[], cleanUntil⟩, heap) = s := by
      rw [← hgc, Function.update_eq_self]
    change some (s, ()) = some (Function.update s .gcEvents (⟨[], cleanUntil⟩, heap), ())
    rw [hself]
  | cons gcEvent rest =>
    change (CellProgram.perform Cell.gcEvents _).run s = _
    rw [CellProgram.run_perform, hgc]
    rfl

/-- `gcFinish`. -/
lemma run_gcFinish (p : Profiler) (now : TraceTime) :
    (gcFinish now).run p.cells =
      (p.storage.gcFinish now).map fun storage => ((p.withStorage storage).cells, ()) := by
  have hcell : p.cells .gcEvents = (p.storage.gcEvents, p.storage.gcHeap) := rfl
  rw [gcFinish, CellProgram.run_bind, CellProgram.run_observe, hcell, TraceStorage.gcFinish]
  cases p.storage.gcEvents.back with
  | none => rfl
  | some gcEvent =>
    simp only [Option.map_some, Option.bind_some, CellProgram.run_bind, run_popFrontGcEvent,
      CellProgram.run_modify, Function.update_self, Function.update_idem]
    rw [p.cells_gc _ rfl]
    rfl

/-- `addProcessedTrace`. -/
lemma run_addProcessedTrace (p : Profiler) (c : JLong) (record : ProcessedTraceRecord) :
    (addProcessedTrace c record).run p.cells =
      some ((p.withStorage (p.storage.addProcessedTrace c record)).cells, ()) := by
  rw [addProcessedTrace, CellProgram.run_bind, run_contains, Option.bind_some,
    cells_addProcessedTrace]
  cases h : p.storage.getProcessedTraces c with
  | none =>
    have hcell : p.cells (.entry .processed c) = none := h
    dsimp only
    rw [hcell, Option.isSome_none, if_neg Bool.false_ne_true, CellProgram.run_bind, run_insert,
      hcell]
    rfl
  | some list =>
    have hcell : p.cells (.entry .processed c) = some list := h
    dsimp only
    rw [hcell, Option.isSome_some, if_pos rfl, CellProgram.run_bind, run_get hcell,
      Option.bind_some, run_update _ hcell]
    rfl

/-- **A call that nothing interrupts is a step**, when its readings of the clock give one time. -/
lemma of_run_program {i : Invocation} {s : Cells} {o : List Effect}
    (hnames : NamesCoherent env p) (hi : i.Instant)
    (h : (program env i).run p.cells = some (s, o)) :
    ∃ p', p.step env i.event = some (p', o) ∧ s = p'.cells := by
  obtain ⟨t, call, clock, rusage, iterations⟩ := i
  obtain ⟨now, rfl⟩ : ∃ now, clock = fun _ => now := ⟨clock 0, funext hi⟩
  have hmap : ∀ x : Option (Profiler × List Effect),
      (x.map fun x => (x.1.cells, x.2)) = some (s, o) →
        ∃ p', x = some (p', o) ∧ s = p'.cells := by
    intro x hx
    obtain ⟨⟨p', o'⟩, rfl, hx⟩ := Option.map_eq_some_iff.mp hx
    cases hx
    exact ⟨p', rfl, rfl⟩
  cases call with
  | threadStart name stackLo stackHi =>
    refine hmap (some (p.addCurrentThread t name stackLo stackHi, [])) (Eq.trans ?_ h)
    change _ = (Interleaved.addCurrentThread t name stackLo stackHi >>= fun _ => pure []).run _
    rw [CellProgram.run_bind, run_addCurrentThread]
    rfl
  | coroutineCreated c =>
    have hrun := p.run_coroutineCreated ⟨t, now, rusage⟩ c
    exact hmap _ (hrun.symm.trans h)
  | coroutineSuspended c stack =>
    have hrun := run_coroutineSuspended hnames ⟨t, now, rusage⟩ c stack
    exact hmap _ (hrun.symm.trans h)
  | coroutineResumed c =>
    have hrun := p.run_coroutineResumed ⟨t, now, rusage⟩ c
    exact hmap _ (hrun.symm.trans h)
  | coroutineCompleted c =>
    have hrun := p.run_coroutineCompleted ⟨t, now, rusage⟩ c
    exact hmap _ (hrun.symm.trans h)
  | traceStart c =>
    have hrun := p.run_traceStart env ⟨t, now, rusage⟩ c
    exact hmap _ (hrun.symm.trans h)
  | traceEnd c => exact of_run_traceEnd ⟨t, now, rusage⟩ h
  | gcStart =>
    refine hmap (some (p.withStorage (p.storage.gcStart now), [])) (Eq.trans ?_ h)
    change _ = (gcStart now >>= fun _ => pure []).run _
    rw [CellProgram.run_bind, run_gcStart]
    rfl
  | gcFinish =>
    refine hmap ((p.storage.gcFinish now).map fun storage => (p.withStorage storage, []))
      (Eq.trans ?_ h)
    change _ = (gcFinish now >>= fun _ => pure []).run _
    rw [CellProgram.run_bind, run_gcFinish]
    cases p.storage.gcFinish now <;> rfl
  | addRawTrace trace c =>
    refine hmap (some (p.withStorage (p.storage.addRawTrace now trace c), [])) (Eq.trans ?_ h)
    rw [Option.map_some, cells_addRawTrace]
    rfl
  | addProcessedTrace c record =>
    refine hmap (some (p.withStorage (p.storage.addProcessedTrace c record),
      [.recorded c record])) (Eq.trans ?_ h)
    change _ = (addProcessedTrace c record >>= fun _ => pure [Effect.recorded c record]).run _
    rw [CellProgram.run_bind, run_addProcessedTrace]
    rfl
  | processTraces => cases h
  | markForClean => cases h
  | clean => cases h

end Profiler

end KotlinTracer
