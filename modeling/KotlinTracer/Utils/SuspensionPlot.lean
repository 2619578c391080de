import KotlinTracer.Lib.Worklist
import KotlinTracer.Trace.Storage

set_option relaxedAutoImplicit false
set_option autoImplicit false

/-!
# Writing a trace

The Perfetto writer of `utils/suspensionPlot.cpp`: the packets that a finished trace is written
as. The packets are those of the Perfetto messages, with the fields the writer sets.

## Main definitions

* `KotlinTracer.TracePacket` — a packet: a track descriptor or a track event.
* `KotlinTracer.TraceWriter` — the counter of the tracks and the packets written so far.
* `KotlinTracer.addSuspension`, `addCallStack`, `addGcInfo`, `addTraceInfo`, `writePerfetto` —
  the functions of the writer.

## Main results

* `KotlinTracer.addTraceInfoLoop_eq` — the loop of `addTraceInfo` exports the coroutines in the
  order in which a worklist takes them.
* `KotlinTracer.exhausts_exportFuel`, `KotlinTracer.coroutines_addTraceInfo`,
  `KotlinTracer.addTraceInfoLoop_terminates` — the loop ends with an empty queue, whatever the
  child lists are.
* `KotlinTracer.exportOrder_iff` — the loop takes exactly the coroutines that it reaches from the
  root.

## Design

The loop of `addTraceInfo` runs until its queue is empty. Its model recurses on a bound on the
number of iterations, `exportFuel`, which is enough by `exhausts_exportFuel`.

The timestamps are `uint64_t` in the messages; the times of the storage are not negative, so the
conversion is the identity on them.
-/

namespace KotlinTracer

/-! ## Packets -/

/-- `TrackEvent::Type`. -/
inductive TrackEventType
  | sliceBegin
  | sliceEnd
  | instant
deriving DecidableEq

/-- A debug annotation: its name and, if it is set, its integer value. -/
structure DebugEntry where
  name : String
  intValue : Option ℤ := none
deriving DecidableEq

/-- `TrackEvent`. The call stack is the list of the function names of its frames. -/
structure TrackEvent where
  type : TrackEventType
  trackUuid : ℕ
  name : Option String := none
  flowIds : List JLong := []
  debugAnnotations : List DebugEntry := []
  callstack : Option (List String) := none
deriving DecidableEq

/-- `TrackDescriptor`. -/
structure TrackDescriptor where
  name : String
  uuid : ℕ
deriving DecidableEq

/-- What a packet carries. -/
inductive PacketData
  | trackDescriptor (descriptor : TrackDescriptor)
  | trackEvent (event : TrackEvent)
deriving DecidableEq

/-- `TracePacket`. -/
structure TracePacket where
  timestamp : Option TraceTime := none
  trustedPacketSequenceId : Option ℕ := none
  data : PacketData
deriving DecidableEq

/-- The counter of the tracks and the trace that is being written. -/
structure TraceWriter where
  trackCounter : ℕ := 0
  packets : List TracePacket := []

/-- The packet of a track descriptor. -/
def descriptorPacket (sequenceId : ℕ) (name : String) (uuid : ℕ) : TracePacket :=
  { trustedPacketSequenceId := some sequenceId, data := .trackDescriptor ⟨name, uuid⟩ }

/-- The packet of a track event at a time. -/
def eventPacket (sequenceId : ℕ) (timestamp : TraceTime) (event : TrackEvent) : TracePacket :=
  { timestamp := some timestamp, trustedPacketSequenceId := some sequenceId,
    data := .trackEvent event }

/-- The function name of a frame: `base:frame`. -/
def methodName (frame : StackFrame) : String := frame.base ++ ":" ++ frame.frame

/-! ## Suspensions, samples, GC events -/

/-- `add_suspension`. -/
def addSuspension (w : TraceWriter) (suspension : SuspensionInfo) (coroutineName : String)
    (sequenceId : ℕ) (traceEndTime : TraceTime) : TraceWriter :=
  let trackId := w.trackCounter + 1
  { trackCounter := trackId
    packets := w.packets ++
      [descriptorPacket sequenceId coroutineName trackId,
        -- start
        eventPacket sequenceId suspension.start
          { type := .sliceBegin, name := some "Suspension", trackUuid := trackId },
        -- end
        eventPacket sequenceId
          (if suspension.endTime ≠ 0 then suspension.endTime else traceEndTime)
          { type := .sliceEnd, trackUuid := trackId,
            callstack := some (suspension.suspensionStackTrace.map methodName) }] }

/-- The event of a sample. The window of the trace is tested once for every frame, so a sample
outside of it gives an event without frames. -/
def sampleEvent (traceRecord : ProcessedTraceRecord) (traceInfo : TraceInfo) (trackId : ℕ) :
    TrackEvent :=
  { type := .instant, name := some "Stack trace", trackUuid := trackId,
    callstack := some ((traceRecord.stackTrace.filter fun _ =>
      traceInfo.start ≤ traceRecord.time ∧ traceRecord.time ≤ traceInfo.endTime).map methodName) }

/-- `add_call_stack`. -/
def addCallStack (w : TraceWriter) (traces : ConcurrentList ProcessedTraceRecord)
    (traceInfo : TraceInfo) (sequenceId : ℕ) (trackId : ℕ) : TraceWriter :=
  traces.forEach (fun w traceRecord =>
    if 0 < traceRecord.stackTrace.length then
      { w with packets := w.packets ++
          [eventPacket sequenceId traceRecord.time (sampleEvent traceRecord traceInfo trackId)] }
    else w) w

/-- The visitor of `add_gc_info`. -/
def addGcEvent (sequenceId : ℕ) (w : TraceWriter) (gcEvent : GCEvent) : TraceWriter :=
  let trackId := w.trackCounter + 1
  { trackCounter := trackId
    packets := w.packets ++
      [descriptorPacket sequenceId "GC" trackId,
        -- start
        eventPacket sequenceId gcEvent.start
          { type := .sliceBegin, name := some "GC", trackUuid := trackId },
        -- end
        eventPacket sequenceId gcEvent.endTime { type := .sliceEnd, trackUuid := trackId }] }

/-- `add_gc_info`. -/
def addGcInfo (traceInfo : TraceInfo) (storage : TraceStorage) (w : TraceWriter)
    (sequenceId : ℕ) : TraceWriter :=
  storage.findGcEvents traceInfo.start traceInfo.endTime (addGcEvent sequenceId) w

/-! ## Coroutines -/

/-- `coroutine_queue_item`. -/
structure CoroutineQueueItem where
  coroutineId : JLong
  parentCoroutineId : JLong
deriving DecidableEq

/-- The name of the track of a coroutine. -/
def coroutineName (coroutineId : JLong) : String := "coroutine#" ++ toString coroutineId

/-- The debug annotations of a coroutine: its times in milliseconds, rounded towards zero, and
its switch counts, each when it is zero. -/
def coroutineEntries (info : CoroutineInfo) : List DebugEntry :=
  [⟨"Wall CPU time ms", some (info.wallClockRunningTime.tdiv 1000000)⟩,
    ⟨"User CPU time ms", some (info.cpuUserClockRunningTimeUs.tdiv 1000)⟩,
    ⟨"System CPU time ms", some (info.cpuSystemClockRunningTimeUs.tdiv 1000)⟩] ++
  (if info.voluntarySwitches = 0 then
    [⟨"Voluntary switches", some info.voluntarySwitches⟩] else []) ++
  (if info.involuntarySwitches = 0 then
    [⟨"Involuntary switches", some info.involuntarySwitches⟩] else [])

/-- The begin of the slice of a coroutine: the start of the trace for the root, which has no
parent. -/
def coroutineBegin (traceInfo : TraceInfo) (info : CoroutineInfo) (item : CoroutineQueueItem) :
    TraceTime :=
  if item.parentCoroutineId = 0 then traceInfo.start else info.start

/-- The end of the slice of a coroutine. -/
def coroutineEnd (traceInfo : TraceInfo) (info : CoroutineInfo) (item : CoroutineQueueItem) :
    TraceTime :=
  if item.parentCoroutineId = 0 then traceInfo.endTime else info.endTime

/-- The event that begins the slice of a coroutine. -/
def coroutineBeginEvent (info : CoroutineInfo) (item : CoroutineQueueItem) (trackId : ℕ) :
    TrackEvent :=
  { type := .sliceBegin, name := some (coroutineName item.coroutineId), trackUuid := trackId,
    flowIds := if item.parentCoroutineId = 0 then [item.coroutineId]
      else [item.parentCoroutineId, item.coroutineId],
    debugAnnotations := coroutineEntries info }

/-- The body of the loop of `add_trace_info` for a coroutine with an info, up to its children:
the slice of the coroutine, the track of its samples and its suspensions. -/
def exportCoroutine (traceInfo : TraceInfo) (storage : TraceStorage) (sequenceId : ℕ)
    (w : TraceWriter) (item : CoroutineQueueItem) (info : CoroutineInfo) : TraceWriter :=
  let trackId := w.trackCounter + 1
  let samplesTrackId := trackId + 1
  let w : TraceWriter :=
    { trackCounter := samplesTrackId
      packets := w.packets ++
        [descriptorPacket sequenceId (coroutineName item.coroutineId) trackId,
          -- start
          eventPacket sequenceId (coroutineBegin traceInfo info item)
            (coroutineBeginEvent info item trackId),
          -- end
          eventPacket sequenceId (coroutineEnd traceInfo info item)
            { type := .sliceEnd, trackUuid := trackId },
          descriptorPacket sequenceId "Samples" samplesTrackId] }
  let w :=
    match storage.getProcessedTraces item.coroutineId with
    | some traces => addCallStack w traces traceInfo sequenceId samplesTrackId
    | none => w
  info.suspensionsList.forEach (fun w suspension =>
    addSuspension w suspension (coroutineName item.coroutineId) sequenceId traceInfo.endTime) w

/-- The children of a coroutine as queue items; a coroutine without an info is skipped, so it has
none. -/
def childItems (storage : TraceStorage) (item : CoroutineQueueItem) : List CoroutineQueueItem :=
  match storage.getCoroutineInfo item.coroutineId with
  | none => []
  | some _ =>
    if storage.containsChildCoroutineStorage item.coroutineId then
      (((storage.getChildCoroutines item.coroutineId).getD {}).list).map fun child =>
        ⟨child, item.coroutineId⟩
    else []

/-- The state of the loop of `add_trace_info`. -/
structure ExportState where
  coroutines : List CoroutineQueueItem
  visitedCoroutines : Finset JLong
  writer : TraceWriter

/-- The loop of `add_trace_info`: take the first item, mark it as visited, skip it if it has no
info, export it and enqueue its children that are not visited. -/
def addTraceInfoLoop (traceInfo : TraceInfo) (storage : TraceStorage) (sequenceId : ℕ) :
    ℕ → ExportState → ExportState
  | 0, st => st
  | n + 1, st =>
    match st.coroutines with
    | [] => st
    | item :: rest =>
      let visited := insert item.coroutineId st.visitedCoroutines
      match storage.getCoroutineInfo item.coroutineId with
      | none => addTraceInfoLoop traceInfo storage sequenceId n
          { st with coroutines := rest, visitedCoroutines := visited }
      | some info => addTraceInfoLoop traceInfo storage sequenceId n
          { coroutines := rest ++ (childItems storage item).filter fun child =>
              child.coroutineId ∉ visited
            visitedCoroutines := visited
            writer := exportCoroutine traceInfo storage sequenceId st.writer item info }

/-- The number of entries in all child lists. -/
def childEntryCount (storage : TraceStorage) : ℕ :=
  (storage.childCoroutinesMap.map.entries.map fun p => p.2.list.length).sum

/-- A bound on the iterations of the loop of `add_trace_info`. -/
def exportFuel (storage : TraceStorage) : ℕ :=
  (childEntryCount storage + 1) ^ (2 * (childEntryCount storage + 1))

/-- The queue item of the traced coroutine. -/
def rootItem (traceInfo : TraceInfo) : CoroutineQueueItem := ⟨traceInfo.coroutineId, 0⟩

/-- `add_trace_info`. -/
def addTraceInfo (traceInfo : TraceInfo) (storage : TraceStorage) (w : TraceWriter)
    (sequenceId : ℕ) : TraceWriter :=
  (addTraceInfoLoop traceInfo storage sequenceId (exportFuel storage)
    ⟨[rootItem traceInfo], ∅, w⟩).writer

/-- `write_perfetto`: the packets of the trace. The GC events get the id of the first track as
their sequence id. -/
def writePerfetto (traceInfo : TraceInfo) (storage : TraceStorage) : List TracePacket :=
  let trustedSequenceId := 1
  let trackId := 1
  let w : TraceWriter :=
    { trackCounter := trackId
      packets :=
        [descriptorPacket trustedSequenceId "Trace" trackId,
          eventPacket trustedSequenceId traceInfo.start
            { type := .sliceBegin, name := some "Trace", trackUuid := trackId,
              debugAnnotations := [⟨"Trace", none⟩] },
          -- end
          eventPacket trustedSequenceId traceInfo.endTime
            { type := .sliceEnd, trackUuid := trackId }] }
  let w := addGcInfo traceInfo storage w trackId
  (addTraceInfo traceInfo storage w trustedSequenceId).packets

/-! ## The order of the export -/

section Order

variable (traceInfo : TraceInfo) (storage : TraceStorage)

/-- The queue items in the order in which the loop takes them. -/
def exportOrder : List CoroutineQueueItem :=
  Worklist.order CoroutineQueueItem.coroutineId (childItems storage) (exportFuel storage)
    [rootItem traceInfo] ∅

/-- Export an item, unless it has no info. -/
def exportItem (sequenceId : ℕ) (w : TraceWriter) (item : CoroutineQueueItem) : TraceWriter :=
  match storage.getCoroutineInfo item.coroutineId with
  | none => w
  | some info => exportCoroutine traceInfo storage sequenceId w item info

variable {storage} in
/-- Taking an item without an info enqueues nothing. -/
lemma fresh_eq_nil {item : CoroutineQueueItem} (V : Finset JLong)
    (hinfo : storage.getCoroutineInfo item.coroutineId = none) :
    Worklist.fresh CoroutineQueueItem.coroutineId (childItems storage) V item = [] := by
  simp [Worklist.fresh, childItems, hinfo]

/-- **The loop exports the items in worklist order.**

**Proof sketch.** Induction on the number of iterations. An item without an info has no children,
so both branches of the body append the unvisited children of the item. -/
lemma addTraceInfoLoop_eq (sequenceId n : ℕ) (q : List CoroutineQueueItem) (V : Finset JLong)
    (w : TraceWriter) :
    (addTraceInfoLoop traceInfo storage sequenceId n ⟨q, V, w⟩).writer =
      (Worklist.order CoroutineQueueItem.coroutineId (childItems storage) n q V).foldl
        (exportItem traceInfo storage sequenceId) w := by
  induction n generalizing q V w with
  | zero => rfl
  | succ n ih =>
    cases q with
    | nil => rfl
    | cons item rest =>
      rw [addTraceInfoLoop, Worklist.order, List.foldl_cons]
      cases hinfo : storage.getCoroutineInfo item.coroutineId with
      | none =>
        have hexport : exportItem traceInfo storage sequenceId w item = w := by
          simp [exportItem, hinfo]
        simp only [hinfo]
        rw [ih, fresh_eq_nil _ hinfo, List.append_nil, hexport]
      | some info =>
        have hexport : exportItem traceInfo storage sequenceId w item =
            exportCoroutine traceInfo storage sequenceId w item info := by
          simp [exportItem, hinfo]
        simp only [hinfo]
        rw [ih, hexport, Worklist.fresh]

/-- `addTraceInfo` exports the items of `exportOrder`. -/
lemma addTraceInfo_eq (w : TraceWriter) (sequenceId : ℕ) :
    addTraceInfo traceInfo storage w sequenceId =
      (exportOrder traceInfo storage).foldl (exportItem traceInfo storage sequenceId) w :=
  addTraceInfoLoop_eq traceInfo storage sequenceId _ _ _ _

variable {traceInfo storage}

/-- The children of an item are listed in the child list of its coroutine, and the item is their
parent. -/
lemma mem_childItems {item child : CoroutineQueueItem} :
    child ∈ childItems storage item ↔
      (∃ info, storage.getCoroutineInfo item.coroutineId = some info) ∧
        (∃ l, storage.getChildCoroutines item.coroutineId = some l ∧
          child.coroutineId ∈ l.list) ∧ child.parentCoroutineId = item.coroutineId := by
  rw [childItems]
  cases hinfo : storage.getCoroutineInfo item.coroutineId with
  | none => simp
  | some info =>
    by_cases hstorage : storage.containsChildCoroutineStorage item.coroutineId = true
    · obtain ⟨l, hl⟩ := (storage.containsChildCoroutineStorage_iff item.coroutineId).mp hstorage
      simp only [hstorage, if_true, hl, Option.getD_some, List.mem_map, Option.some.injEq,
        exists_eq', true_and, exists_eq_left']
      constructor
      · rintro ⟨c, hc, rfl⟩
        exact ⟨hc, rfl⟩
      · rintro ⟨hc, hp⟩
        exact ⟨child.coroutineId, hc, by rw [← hp]⟩
    · have hnone : ∀ l, storage.getChildCoroutines item.coroutineId ≠ some l := by
        intro l hl
        exact hstorage ((storage.containsChildCoroutineStorage_iff _).mpr ⟨l, hl⟩)
      simp [hstorage, hnone]

/-- A child list has at most as many entries as all of them together. -/
lemma childItems_length_le (item : CoroutineQueueItem) :
    (childItems storage item).length ≤ childEntryCount storage := by
  rw [childItems]
  cases storage.getCoroutineInfo item.coroutineId with
  | none => simp
  | some info =>
    dsimp only
    split_ifs with hstorage
    · obtain ⟨l, hl⟩ := (storage.containsChildCoroutineStorage_iff item.coroutineId).mp hstorage
      have hentry : (⟨item.coroutineId, l⟩ : Sigma fun _ : JLong => ConcurrentList JLong) ∈
          storage.childCoroutinesMap.map.entries := AList.mem_lookup_iff.mp hl
      rw [hl, Option.getD_some, List.length_map]
      exact List.single_le_sum (fun _ _ => Nat.zero_le _) _ (List.mem_map_of_mem hentry)
    · simp

/-- The ids listed in the child lists, with the id of the root. -/
def exportUniverse (traceInfo : TraceInfo) (storage : TraceStorage) : Finset JLong :=
  insert traceInfo.coroutineId
    (storage.childCoroutinesMap.map.entries.flatMap fun p => p.2.list).toFinset

/-- There are at most as many ids as child entries, and the root. -/
lemma exportUniverse_card_le :
    (exportUniverse traceInfo storage).card ≤ childEntryCount storage + 1 := by
  refine (Finset.card_insert_le _ _).trans (Nat.succ_le_succ ?_)
  refine (List.toFinset_card_le _).trans ?_
  rw [List.length_flatMap]
  exact le_rfl

/-- **The loop of `addTraceInfo` terminates**: `exportFuel` iterations empty the queue, whatever
the child lists are.

**Proof sketch.** Every child is an id listed in some child list, and an item has at most as many
children as there are entries, so `Worklist.exhausts_singleton` applies. -/
theorem exhausts_exportFuel :
    Worklist.Exhausts CoroutineQueueItem.coroutineId (childItems storage) (exportFuel storage)
      [rootItem traceInfo] ∅ := by
  refine Worklist.exhausts_singleton (U := exportUniverse traceInfo storage)
    (D := childEntryCount storage) ?_ childItems_length_le (Finset.mem_insert_self _ _) ?_
  · intro item child hchild
    obtain ⟨_, ⟨l, hl, hmem⟩, _⟩ := mem_childItems.mp hchild
    refine Finset.mem_insert_of_mem (List.mem_toFinset.mpr (List.mem_flatMap.mpr ?_))
    exact ⟨⟨item.coroutineId, l⟩, AList.mem_lookup_iff.mp hl, hmem⟩
  · exact Nat.pow_le_pow_right (Nat.succ_pos _) (Nat.mul_le_mul_left 2 exportUniverse_card_le)

/-- When as many takes as there are iterations exhaust the queue, the loop ends with an empty
queue. -/
lemma coroutines_addTraceInfoLoop {sequenceId n : ℕ} {q : List CoroutineQueueItem}
    {V : Finset JLong} {w : TraceWriter}
    (h : Worklist.Exhausts CoroutineQueueItem.coroutineId (childItems storage) n q V) :
    (addTraceInfoLoop traceInfo storage sequenceId n ⟨q, V, w⟩).coroutines = [] := by
  induction n generalizing q V w with
  | zero => exact h
  | succ n ih =>
    cases q with
    | nil => rfl
    | cons item rest =>
      rw [Worklist.Exhausts] at h
      rw [addTraceInfoLoop]
      cases hinfo : storage.getCoroutineInfo item.coroutineId with
      | none =>
        rw [fresh_eq_nil _ hinfo, List.append_nil] at h
        simp only [hinfo]
        exact ih h
      | some info =>
        simp only [hinfo]
        exact ih h

/-- The loop of `addTraceInfo` ends with an empty queue. -/
theorem coroutines_addTraceInfo (sequenceId : ℕ) (w : TraceWriter) :
    (addTraceInfoLoop traceInfo storage sequenceId (exportFuel storage)
      ⟨[rootItem traceInfo], ∅, w⟩).coroutines = [] :=
  coroutines_addTraceInfoLoop exhausts_exportFuel

/-- With an empty queue the loop is over, however many iterations are allowed. -/
lemma addTraceInfoLoop_of_coroutines_eq_nil {sequenceId : ℕ} {st : ExportState}
    (h : st.coroutines = []) (n : ℕ) :
    addTraceInfoLoop traceInfo storage sequenceId n st = st := by
  cases n with
  | zero => rfl
  | succ n => rw [addTraceInfoLoop, h]

/-- The first `n` iterations and then `k` more are `n + k` iterations. -/
lemma addTraceInfoLoop_add (sequenceId n k : ℕ) (st : ExportState) :
    addTraceInfoLoop traceInfo storage sequenceId (n + k) st =
      addTraceInfoLoop traceInfo storage sequenceId k
        (addTraceInfoLoop traceInfo storage sequenceId n st) := by
  induction n generalizing st with
  | zero => rw [Nat.zero_add, addTraceInfoLoop]
  | succ n ih =>
    rw [Nat.succ_add, addTraceInfoLoop, addTraceInfoLoop]
    cases hq : st.coroutines with
    | nil => exact (addTraceInfoLoop_of_coroutines_eq_nil hq k).symm
    | cons item rest =>
      cases hinfo : storage.getCoroutineInfo item.coroutineId with
      | none => simp only [hinfo, ih]
      | some info => simp only [hinfo, ih]

/-- **The loop of `add_trace_info` terminates.** For every storage and every exported trace, after
some number of iterations, at most `exportFuel storage`, the queue is empty, and allowing more
iterations changes nothing: the loop has ended with this state.

**Proof sketch.** `exhausts_exportFuel` bounds the takes by the weight of the queue; an empty queue
stays empty. -/
theorem addTraceInfoLoop_terminates (traceInfo : TraceInfo) (storage : TraceStorage)
    (sequenceId : ℕ) (w : TraceWriter) :
    ∃ n ≤ exportFuel storage,
      (addTraceInfoLoop traceInfo storage sequenceId n ⟨[rootItem traceInfo], ∅, w⟩).coroutines
        = [] ∧
      ∀ m, n ≤ m →
        addTraceInfoLoop traceInfo storage sequenceId m ⟨[rootItem traceInfo], ∅, w⟩ =
          addTraceInfoLoop traceInfo storage sequenceId n ⟨[rootItem traceInfo], ∅, w⟩ := by
  have hempty : (addTraceInfoLoop traceInfo storage sequenceId (exportFuel storage)
      ⟨[rootItem traceInfo], ∅, w⟩).coroutines = [] := coroutines_addTraceInfo sequenceId w
  refine ⟨exportFuel storage, le_rfl, hempty, fun m hm => ?_⟩
  obtain ⟨k, rfl⟩ := Nat.exists_eq_add_of_le hm
  rw [addTraceInfoLoop_add]
  exact addTraceInfoLoop_of_coroutines_eq_nil hempty k

/-- `b` is in the child list of `a`. -/
def TraceStorage.IsChild (s : TraceStorage) (a b : JLong) : Prop :=
  ∃ list, s.getChildCoroutines a = some list ∧ b ∈ list.list

/-- The loop goes from `a` to `b`: `a` has an info, and `b` is in its child list. -/
def TraceStorage.Lists (s : TraceStorage) (a b : JLong) : Prop :=
  (s.getCoroutineInfo a).isSome ∧ s.IsChild a b

/-- The children of an item are the coroutines that its coroutine lists. -/
lemma mem_childItems_iff_lists {item child : CoroutineQueueItem} :
    child ∈ childItems storage item ↔ storage.Lists item.coroutineId child.coroutineId ∧
      child.parentCoroutineId = item.coroutineId := by
  rw [mem_childItems, TraceStorage.Lists, Option.isSome_iff_exists, and_assoc]
  rfl

/-- **The order of the export holds exactly the coroutines that the loop reaches from the root.**

**Proof sketch.** Sound by `Worklist.order_sound`, as an item is followed by coroutines that it
lists. A path of coroutines is a path of items, whose end is taken by `Worklist.order_complete`. -/
theorem exportOrder_iff {d : JLong} :
    (∃ item ∈ exportOrder traceInfo storage, item.coroutineId = d) ↔
      Relation.ReflTransGen storage.Lists traceInfo.coroutineId d := by
  constructor
  · rintro ⟨item, hitem, rfl⟩
    obtain ⟨root, hmem, hpath⟩ := Worklist.order_sound hitem
    rw [List.mem_singleton.mp hmem] at hpath
    exact hpath.lift CoroutineQueueItem.coroutineId
      fun x y hxy => (mem_childItems_iff_lists.mp hxy).1
  · intro hpath
    have hitems : ∃ item : CoroutineQueueItem, item.coroutineId = d ∧
        Relation.ReflTransGen (fun x y => y ∈ childItems storage x) (rootItem traceInfo) item := by
      induction hpath with
      | refl => exact ⟨rootItem traceInfo, rfl, .refl⟩
      | @tail b c _ hlists ih =>
        obtain ⟨item, rfl, hreach⟩ := ih
        exact ⟨⟨c, item.coroutineId⟩, rfl,
          hreach.tail (mem_childItems_iff_lists.mpr ⟨hlists, rfl⟩)⟩
    obtain ⟨item, rfl, hreach⟩ := hitems
    refine Worklist.order_complete exhausts_exportFuel ?_ (List.mem_singleton.mpr rfl) hreach
    intro a a' b hkey hb
    have hlists := (mem_childItems_iff_lists.mp hb).1
    rw [hkey] at hlists
    exact ⟨⟨b.coroutineId, a'.coroutineId⟩, mem_childItems_iff_lists.mpr ⟨hlists, rfl⟩, rfl⟩

/-- Every item of the export but the root, which is the first one, is another coroutine, which its
parent lists, and the parent is exported before it. -/
lemma parent_of_exportOrder_eq {item : CoroutineQueueItem} {before after : List CoroutineQueueItem}
    (h : exportOrder traceInfo storage = before ++ item :: after) :
    (item = rootItem traceInfo ∧ before = []) ∨ item.coroutineId ≠ traceInfo.coroutineId ∧
      storage.Lists item.parentCoroutineId item.coroutineId ∧
      ∃ parent ∈ before, parent.coroutineId = item.parentCoroutineId := by
  refine (Worklist.origin_of_order_singleton_eq h).imp_right ?_
  rintro ⟨hne, parent, hparent, hchild⟩
  obtain ⟨hlists, hid⟩ := mem_childItems_iff_lists.mp hchild
  rw [hid]
  exact ⟨hne, hlists, parent, hparent, rfl⟩

/-- Every item of the export but the root is another coroutine, which its parent lists. -/
lemma mem_exportOrder {item : CoroutineQueueItem} (h : item ∈ exportOrder traceInfo storage) :
    item = rootItem traceInfo ∨ item.coroutineId ≠ traceInfo.coroutineId ∧
      storage.Lists item.parentCoroutineId item.coroutineId ∧
      Relation.ReflTransGen storage.Lists traceInfo.coroutineId item.parentCoroutineId := by
  obtain ⟨before, after, hsplit⟩ := List.append_of_mem h
  rcases parent_of_exportOrder_eq hsplit with ⟨hroot, -⟩ | ⟨hne, hlists, parent, hparent, hid⟩
  · exact Or.inl hroot
  · refine Or.inr ⟨hne, hlists, exportOrder_iff.mp ⟨parent, ?_, hid⟩⟩
    rw [hsplit]
    exact List.mem_append_left _ hparent

end Order

end KotlinTracer
