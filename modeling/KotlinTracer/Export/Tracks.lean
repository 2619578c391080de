import KotlinTracer.Lib.Run
import KotlinTracer.Utils.SuspensionPlot

set_option relaxedAutoImplicit false
set_option autoImplicit false

/-!
# The tracks of a written trace

What the writer is for: a trace is a list of tracks, each a slice with a begin and an end or a row
of samples. The uuids of the tracks are their positions, and the packets of a track are its
descriptor and its events. The writer threads one counter and one packet list through all its
functions; that this gives the packets of a list of tracks is a refinement of the tracks, from which
the structure of the packets follows at once.

## Main definitions

* `KotlinTracer.Track`, `KotlinTracer.Slice` — a track without its uuid.
* `KotlinTracer.render` — the packets of a list of tracks.
* `KotlinTracer.exportTracks` — the tracks of a trace.
* `KotlinTracer.WellFormedPackets` — the structure of a packet list.

## Main results

* `KotlinTracer.writePerfetto_eq_render` — the writer writes the packets of the tracks of the trace.
* `KotlinTracer.wellFormed_render` — the packets of any tracks are well formed.
* `KotlinTracer.writePerfetto_wellFormed` — so are those that the writer writes, for any storage and
  any trace.
-/

namespace KotlinTracer

/-! ## Tracks -/

/-- A slice: the name of its track, its begin and its end, and the data of the two events. -/
structure Slice where
  name : String
  start : TraceTime
  endTime : TraceTime
  title : String
  flowIds : List JLong := []
  debugAnnotations : List DebugEntry := []
  callstack : Option (List String) := none

/-- A track: a slice, or samples with their times and call stacks. -/
inductive Track
  | slice (slice : Slice)
  | samples (samples : List (TraceTime × List String))

namespace Track

/-- The name in the descriptor of a track. -/
def name : Track → String
  | slice s => s.name
  | samples _ => "Samples"

/-- The events of a track, with their times. -/
def events (uuid : ℕ) : Track → List (TraceTime × TrackEvent)
  | slice s =>
    [(s.start,
        { type := .sliceBegin, name := some s.title, trackUuid := uuid, flowIds := s.flowIds,
          debugAnnotations := s.debugAnnotations }),
      (s.endTime, { type := .sliceEnd, trackUuid := uuid, callstack := s.callstack })]
  | samples l => l.map fun x =>
    (x.1,
      { type := .instant, name := some "Stack trace", trackUuid := uuid, callstack := some x.2 })

/-- The packets of a track: its descriptor and its events. -/
def packets (uuid : ℕ) (track : Track) : List TracePacket :=
  descriptorPacket 1 track.name uuid :: (track.events uuid).map fun x => eventPacket 1 x.1 x.2

end Track

/-- The packets of a list of tracks, which are numbered from one. -/
def render (tracks : List Track) : List TracePacket :=
  (tracks.zipIdx 1).flatMap fun x => x.1.packets x.2

/-- One more track. -/
lemma render_concat (tracks : List Track) (track : Track) :
    render (tracks ++ [track]) = render tracks ++ track.packets (tracks.length + 1) := by
  simp [render, List.zipIdx_append, Nat.add_comm]

/-- The packets of the tracks, by the positions of the tracks. -/
lemma mem_render {tracks : List Track} {x : TracePacket} :
    x ∈ render tracks ↔
      ∃ (i : ℕ) (track : Track), tracks[i]? = some track ∧ x ∈ track.packets (i + 1) := by
  rw [render, List.mem_flatMap]
  constructor
  · rintro ⟨⟨track, uuid⟩, hmem, hx⟩
    obtain ⟨hle, htrack⟩ := List.mk_mem_zipIdx_iff_le_and_getElem?_sub.mp hmem
    exact ⟨uuid - 1, track, htrack, by rw [Nat.sub_add_cancel hle]; exact hx⟩
  · rintro ⟨i, track, htrack, hx⟩
    refine ⟨(track, i + 1), List.mk_mem_zipIdx_iff_le_and_getElem?_sub.mpr ⟨?_, ?_⟩, hx⟩
    · omega
    · rw [Nat.add_sub_cancel]
      exact htrack

/-! ## The structure of packets -/

/-- The track descriptors of a packet list, in order. -/
def descriptors (packets : List TracePacket) : List TrackDescriptor :=
  packets.filterMap fun x =>
    match x.data with
    | .trackDescriptor descriptor => some descriptor
    | .trackEvent _ => none

/-- The events of a packet list on a track, in order, with their times. -/
def eventsOn (uuid : ℕ) (packets : List TracePacket) : List (Option TraceTime × TrackEvent) :=
  packets.filterMap fun x =>
    match x.data with
    | .trackDescriptor _ => none
    | .trackEvent event => if event.trackUuid = uuid then some (x.timestamp, event) else none

/-- The packet list is well formed. -/
structure WellFormedPackets (packets : List TracePacket) : Prop where
  /-- The descriptors carry the uuids `1`, `2`, ... in order of emission. -/
  uuids : (descriptors packets).map TrackDescriptor.uuid =
    List.range' 1 (descriptors packets).length
  /-- Every event refers to a track whose descriptor occurs earlier. -/
  earlier : packets.AtEvery fun before x => ∀ event, x.data = .trackEvent event →
    ∃ descriptor ∈ descriptors before, descriptor.uuid = event.trackUuid
  /-- A track that is not a track of samples has one begin and then one end. -/
  slices : ∀ descriptor ∈ descriptors packets, descriptor.name ≠ "Samples" →
    (eventsOn descriptor.uuid packets).map (fun x => x.2.type) = [.sliceBegin, .sliceEnd]
  /-- A track of samples has only instants. -/
  samples : ∀ descriptor ∈ descriptors packets, descriptor.name = "Samples" →
    ∀ x ∈ eventsOn descriptor.uuid packets, x.2.type = .instant
  /-- Every packet carries the sequence id `1`. -/
  sequence : ∀ x ∈ packets, x.trustedPacketSequenceId = some 1

/-- On the tracks with a name in `N`, the begin and the end of a slice satisfy `P`. -/
def SlicesSatisfy (N : String → Prop) (P : TraceTime → TraceTime → Prop)
    (packets : List TracePacket) : Prop :=
  ∀ descriptor ∈ descriptors packets, N descriptor.name →
    ∀ x ∈ eventsOn descriptor.uuid packets, ∀ y ∈ eventsOn descriptor.uuid packets,
      x.2.type = .sliceBegin → y.2.type = .sliceEnd →
        ∃ start endTime, x.1 = some start ∧ y.1 = some endTime ∧ P start endTime

/-! ## The structure of rendered tracks -/

/-- The events of a track are on it. -/
lemma Track.trackUuid_of_mem_events {track : Track} {uuid : ℕ} {x : TraceTime × TrackEvent}
    (h : x ∈ track.events uuid) : x.2.trackUuid = uuid := by
  cases track with
  | slice s =>
    rcases List.mem_pair.mp h with rfl | rfl
    · rfl
    · rfl
  | samples l =>
    obtain ⟨sample, -, rfl⟩ := List.mem_map.mp h
    rfl

/-- The descriptors of one list after another. -/
lemma descriptors_append (l₁ l₂ : List TracePacket) :
    descriptors (l₁ ++ l₂) = descriptors l₁ ++ descriptors l₂ :=
  List.filterMap_append

/-- The events of one list after another. -/
lemma eventsOn_append (uuid : ℕ) (l₁ l₂ : List TracePacket) :
    eventsOn uuid (l₁ ++ l₂) = eventsOn uuid l₁ ++ eventsOn uuid l₂ :=
  List.filterMap_append

/-- A track has one descriptor. -/
lemma descriptors_packets (uuid : ℕ) (track : Track) :
    descriptors (track.packets uuid) = [⟨track.name, uuid⟩] := by
  simp [descriptors, Track.packets, descriptorPacket, eventPacket]

/-- The events of the packets of a track: all of its events, on its own track only. -/
lemma eventsOn_packets (u uuid : ℕ) (track : Track) :
    eventsOn u (track.packets uuid) =
      if u = uuid then (track.events uuid).map fun x => (some x.1, x.2) else [] := by
  have hmap : eventsOn u (track.packets uuid) = (track.events uuid).filterMap fun x =>
      if x.2.trackUuid = u then some (some x.1, x.2) else none := by
    rw [Track.packets, eventsOn, List.filterMap_cons, List.filterMap_map]
    rfl
  rw [hmap]
  split_ifs with hu
  · rw [← List.filterMap_eq_map]
    refine List.filterMap_congr fun x hx => ?_
    rw [if_pos ((Track.trackUuid_of_mem_events hx).trans hu.symm)]
    rfl
  · rw [List.filterMap_eq_nil_iff]
    intro x hx
    rw [Track.trackUuid_of_mem_events hx, if_neg (Ne.symm hu)]

/-- The descriptors of rendered tracks. -/
lemma descriptors_render (tracks : List Track) :
    descriptors (render tracks) = (tracks.zipIdx 1).map fun x => ⟨x.1.name, x.2⟩ := by
  induction tracks using List.reverseRecOn with
  | nil => rfl
  | append_singleton tracks track ih =>
    rw [render_concat, descriptors_append, descriptors_packets, ih]
    simp [List.zipIdx_append, Nat.add_comm]

/-- Rendered tracks have no events on tracks beyond their number. -/
lemma eventsOn_render_of_lt {tracks : List Track} {uuid : ℕ} (h : tracks.length < uuid) :
    eventsOn uuid (render tracks) = [] := by
  induction tracks using List.reverseRecOn with
  | nil => rfl
  | append_singleton tracks track ih =>
    rw [List.length_append, List.length_singleton] at h
    rw [render_concat, eventsOn_append, ih (by omega), eventsOn_packets, if_neg (by omega)]
    rfl

/-- The descriptors of rendered tracks, by the positions of the tracks. -/
lemma mem_descriptors_render {tracks : List Track} {descriptor : TrackDescriptor} :
    descriptor ∈ descriptors (render tracks) ↔
      ∃ i track, tracks[i]? = some track ∧ descriptor = ⟨track.name, i + 1⟩ := by
  have hpackets : ∀ uuid (track : Track), (∃ x ∈ track.packets uuid,
      x.data = .trackDescriptor descriptor) ↔ descriptor = ⟨track.name, uuid⟩ := by
    intro uuid track
    simp [Track.packets, descriptorPacket, eventPacket, eq_comm]
  have hmem : descriptor ∈ descriptors (render tracks) ↔
      ∃ x ∈ render tracks, x.data = .trackDescriptor descriptor := by
    rw [descriptors, List.mem_filterMap]
    refine exists_congr fun x => and_congr_right fun _ => ?_
    cases x.data with
    | trackDescriptor _ => simp
    | trackEvent _ => simp
  rw [hmem]
  constructor
  · rintro ⟨x, hx, hdata⟩
    obtain ⟨i, track, htrack, hx⟩ := mem_render.mp hx
    exact ⟨i, track, htrack, (hpackets (i + 1) track).mp ⟨x, hx, hdata⟩⟩
  · rintro ⟨i, track, htrack, hdescriptor⟩
    obtain ⟨x, hx, hdata⟩ := (hpackets (i + 1) track).mpr hdescriptor
    exact ⟨x, mem_render.mpr ⟨i, track, htrack, hx⟩, hdata⟩

/-- The events on a track of rendered tracks are those of the track at its position.

**Proof sketch.** Induction on the tracks from their end: the events of the last track are on the
next uuid, on which there is no event before. -/
lemma eventsOn_render {tracks : List Track} {i : ℕ} {track : Track}
    (h : tracks[i]? = some track) :
    eventsOn (i + 1) (render tracks) =
      (track.events (i + 1)).map fun x => (some x.1, x.2) := by
  induction tracks using List.reverseRecOn with
  | nil => simp at h
  | append_singleton tracks last ih =>
    rw [render_concat, eventsOn_append, eventsOn_packets]
    by_cases hi : i < tracks.length
    · rw [List.getElem?_append_left hi] at h
      rw [ih h, if_neg (by omega), List.append_nil]
    · have hlength := (List.getElem?_eq_some_iff.mp h).1
      rw [List.length_append, List.length_singleton] at hlength
      have heq : i = tracks.length := by omega
      subst heq
      rw [List.getElem?_concat_length, Option.some.injEq] at h
      rw [eventsOn_render_of_lt (Nat.lt_succ_self _), if_pos rfl, List.nil_append, h]

/-- The slice begins of rendered tracks are those of the slices, on the tracks at their positions.
-/
lemma sliceBegin_render_iff {tracks : List Track} {event : TrackEvent} :
    (∃ x ∈ render tracks, x.data = .trackEvent event ∧ event.type = .sliceBegin) ↔
      ∃ i s, tracks[i]? = some (.slice s) ∧ event =
        { type := .sliceBegin, name := some s.title, trackUuid := i + 1, flowIds := s.flowIds,
          debugAnnotations := s.debugAnnotations } := by
  constructor
  · rintro ⟨x, hx, hevent, htype⟩
    obtain ⟨i, track, htrack, hx⟩ := mem_render.mp hx
    rcases List.mem_cons.mp hx with rfl | hx
    · cases hevent
    · obtain ⟨y, hy, rfl⟩ := List.mem_map.mp hx
      have heq : y.2 = event := PacketData.trackEvent.inj hevent
      subst heq
      cases track with
      | slice s =>
        rcases List.mem_pair.mp hy with rfl | rfl
        · exact ⟨i, s, htrack, rfl⟩
        · cases htype
      | samples l =>
        obtain ⟨sample, -, rfl⟩ := List.mem_map.mp hy
        cases htype
  · rintro ⟨i, s, htrack, rfl⟩
    refine ⟨_, mem_render.mpr ⟨i, _, htrack, List.mem_cons_of_mem _ List.mem_cons_self⟩, rfl, rfl⟩

/-- The begins and the ends of rendered slices. -/
lemma slicesSatisfy_render_iff {N : String → Prop} {P : TraceTime → TraceTime → Prop}
    {tracks : List Track} :
    SlicesSatisfy N P (render tracks) ↔
      ∀ s, Track.slice s ∈ tracks → N s.name → P s.start s.endTime := by
  constructor
  · intro h s hs hname
    obtain ⟨i, hi⟩ := List.mem_iff_getElem?.mp hs
    have hsatisfy := h ⟨s.name, i + 1⟩ (mem_descriptors_render.mpr ⟨i, .slice s, hi, rfl⟩) hname
    dsimp only at hsatisfy
    rw [eventsOn_render hi] at hsatisfy
    obtain ⟨start, endTime, hstart, hend, hP⟩ := hsatisfy (some s.start, _) List.mem_cons_self
      (some s.endTime, _) (List.mem_cons_of_mem _ List.mem_cons_self) rfl rfl
    rw [Option.some.injEq] at hstart hend
    rw [hstart, hend]
    exact hP
  · intro h descriptor hdescriptor hname x hx y hy hxtype hytype
    obtain ⟨i, track, htrack, rfl⟩ := mem_descriptors_render.mp hdescriptor
    rw [eventsOn_render htrack] at hx hy
    cases track with
    | slice s =>
      have hP := h s (List.mem_of_getElem? htrack) hname
      rcases List.mem_pair.mp hx with rfl | rfl
      · rcases List.mem_pair.mp hy with rfl | rfl
        · cases hytype
        · exact ⟨s.start, s.endTime, rfl, rfl, hP⟩
      · cases hxtype
    | samples l =>
      obtain ⟨z, hz, rfl⟩ := List.mem_map.mp hx
      obtain ⟨sample, -, rfl⟩ := List.mem_map.mp hz
      cases hxtype

/-- In rendered tracks every event refers to a descriptor that occurs earlier. -/
lemma earlier_render (tracks : List Track) :
    (render tracks).AtEvery fun before x => ∀ event, x.data = .trackEvent event →
      ∃ descriptor ∈ descriptors before, descriptor.uuid = event.trackUuid := by
  induction tracks using List.reverseRecOn with
  | nil => exact List.atEvery_nil
  | append_singleton tracks track ih =>
    rw [render_concat, List.atEvery_append]
    refine ⟨ih, ?_⟩
    -- in the packets of one track the descriptor is the first packet
    intro before x after hsplit event hevent
    cases before with
    | nil =>
      rw [List.nil_append, Track.packets, List.cons.injEq] at hsplit
      rw [← hsplit.1] at hevent
      cases hevent
    | cons y before =>
      rw [Track.packets, List.cons_append, List.cons.injEq] at hsplit
      obtain ⟨rfl, hrest⟩ := hsplit
      have hx : x ∈ (track.events (tracks.length + 1)).map fun z => eventPacket 1 z.1 z.2 := by
        rw [hrest]
        simp
      obtain ⟨z, hz, rfl⟩ := List.mem_map.mp hx
      have heq : z.2 = event := by
        rw [eventPacket] at hevent
        exact PacketData.trackEvent.inj hevent
      refine ⟨⟨track.name, tracks.length + 1⟩, ?_, ?_⟩
      · simp [descriptors, descriptorPacket]
      · rw [← heq, Track.trackUuid_of_mem_events hz]

/-- **The packets of any tracks are well formed**, when no slice has the name of the tracks of
samples. -/
theorem wellFormed_render {tracks : List Track}
    (hnames : ∀ s, Track.slice s ∈ tracks → s.name ≠ "Samples") :
    WellFormedPackets (render tracks) := by
  refine ⟨?_, earlier_render tracks, fun descriptor h hname => ?_, fun descriptor h hname => ?_,
    fun x hx => ?_⟩
  · rw [descriptors_render, List.map_map, List.length_map, List.length_zipIdx]
    exact List.zipIdx_map_snd 1 tracks
  · obtain ⟨i, track, htrack, rfl⟩ := mem_descriptors_render.mp h
    dsimp only
    rw [eventsOn_render htrack]
    cases track with
    | slice s => rfl
    | samples l => exact absurd rfl hname
  · obtain ⟨i, track, htrack, rfl⟩ := mem_descriptors_render.mp h
    cases track with
    | slice s => exact absurd hname (hnames s (List.mem_of_getElem? htrack))
    | samples l =>
      intro x hx
      rw [eventsOn_render htrack] at hx
      obtain ⟨y, hy, rfl⟩ := List.mem_map.mp hx
      obtain ⟨sample, -, rfl⟩ := List.mem_map.mp hy
      rfl
  · obtain ⟨i, track, -, hx⟩ := mem_render.mp hx
    rcases List.mem_cons.mp hx with rfl | hx
    · rfl
    · obtain ⟨y, -, rfl⟩ := List.mem_map.mp hx
      rfl

/-! ## The tracks that the writer writes -/

/-- The track of the trace itself. -/
def traceTrack (traceInfo : TraceInfo) : Track :=
  .slice
    { name := "Trace", start := traceInfo.start, endTime := traceInfo.endTime, title := "Trace",
      debugAnnotations := [⟨"Trace", none⟩] }

/-- The track of a GC event. -/
def gcTrack (gcEvent : GCEvent) : Track :=
  .slice { name := "GC", start := gcEvent.start, endTime := gcEvent.endTime, title := "GC" }

/-- The track of a suspension of a coroutine; an open suspension ends with the trace. -/
def suspensionTrack (traceInfo : TraceInfo) (item : CoroutineQueueItem)
    (suspension : SuspensionInfo) : Track :=
  .slice
    { name := coroutineName item.coroutineId
      start := suspension.start
      endTime := if suspension.endTime ≠ 0 then suspension.endTime else traceInfo.endTime
      title := "Suspension"
      callstack := some (suspension.suspensionStackTrace.map methodName) }

/-- The track of a coroutine. -/
def coroutineTrack (traceInfo : TraceInfo) (item : CoroutineQueueItem) (info : CoroutineInfo) :
    Track :=
  .slice
    { name := coroutineName item.coroutineId
      start := coroutineBegin traceInfo info item
      endTime := coroutineEnd traceInfo info item
      title := coroutineName item.coroutineId
      flowIds := if item.parentCoroutineId = 0 then [item.coroutineId]
        else [item.parentCoroutineId, item.coroutineId]
      debugAnnotations := coroutineEntries info }

/-- The samples of a list of records: those with frames, which are shown when the record lies in the
window of the trace. -/
def samplesOf (traceInfo : TraceInfo) (records : List ProcessedTraceRecord) :
    List (TraceTime × List String) :=
  (records.filter fun record => 0 < record.stackTrace.length).map fun record =>
    (record.time, (record.stackTrace.filter fun _ =>
      traceInfo.start ≤ record.time ∧ record.time ≤ traceInfo.endTime).map methodName)

/-- The tracks of an item: its coroutine, its samples and its suspensions. -/
def itemTracks (traceInfo : TraceInfo) (storage : TraceStorage) (item : CoroutineQueueItem) :
    List Track :=
  match storage.getCoroutineInfo item.coroutineId with
  | none => []
  | some info =>
    [coroutineTrack traceInfo item info,
      .samples (samplesOf traceInfo
        ((storage.getProcessedTraces item.coroutineId).getD {}).list)] ++
      info.suspensionsList.list.map (suspensionTrack traceInfo item)

/-- The tracks of a trace: the trace, the GC events within it, and the items of the export in their
order. -/
def exportTracks (traceInfo : TraceInfo) (storage : TraceStorage) : List Track :=
  [traceTrack traceInfo] ++
    (storage.gcEventList.filter fun event =>
      traceInfo.start ≤ event.start ∧ event.endTime ≤ traceInfo.endTime).map gcTrack ++
    (exportOrder traceInfo storage).flatMap (itemTracks traceInfo storage)

/-! ## The writer refines the tracks -/

/-- The writer that has written tracks. -/
def TraceWriter.ofTracks (tracks : List Track) : TraceWriter :=
  { trackCounter := tracks.length, packets := render tracks }

/-- Writers that append tracks for every element append the tracks of a list. -/
lemma foldl_ofTracks {α : Type} {f : TraceWriter → α → TraceWriter} {g : α → List Track}
    (h : ∀ tracks a, f (.ofTracks tracks) a = .ofTracks (tracks ++ g a)) (l : List α)
    (tracks : List Track) : l.foldl f (.ofTracks tracks) = .ofTracks (tracks ++ l.flatMap g) := by
  induction l generalizing tracks with
  | nil => simp
  | cons a l ih => rw [List.foldl_cons, h, ih, List.flatMap_cons, List.append_assoc]

/-- `addSuspension` appends the track of the suspension. -/
lemma addSuspension_ofTracks (traceInfo : TraceInfo) (item : CoroutineQueueItem)
    (tracks : List Track) (suspension : SuspensionInfo) :
    addSuspension (.ofTracks tracks) suspension (coroutineName item.coroutineId) 1
        traceInfo.endTime =
      .ofTracks (tracks ++ [suspensionTrack traceInfo item suspension]) := by
  rw [addSuspension, TraceWriter.ofTracks, TraceWriter.ofTracks, render_concat]
  simp [suspensionTrack, Track.packets, Track.events, Track.name]

/-- The visitor of the GC events appends the track of the event. -/
lemma addGcEvent_ofTracks (tracks : List Track) (gcEvent : GCEvent) :
    addGcEvent 1 (.ofTracks tracks) gcEvent = .ofTracks (tracks ++ [gcTrack gcEvent]) := by
  rw [addGcEvent, TraceWriter.ofTracks, TraceWriter.ofTracks, render_concat]
  simp [gcTrack, Track.packets, Track.events, Track.name]

/-- `addCallStack` appends the events of the samples and takes no new track. -/
lemma addCallStack_eq (w : TraceWriter) (traces : ConcurrentList ProcessedTraceRecord)
    (traceInfo : TraceInfo) (sequenceId trackId : ℕ) :
    addCallStack w traces traceInfo sequenceId trackId =
      { w with packets := w.packets ++
          ((Track.samples (samplesOf traceInfo traces.list)).events trackId).map fun x =>
            eventPacket sequenceId x.1 x.2 } := by
  rw [addCallStack, ConcurrentList.forEach]
  generalize traces.list = records
  induction records generalizing w with
  | nil => simp [samplesOf, Track.events]
  | cons record records ih =>
    rw [List.foldl_cons, ih]
    by_cases hframes : 0 < record.stackTrace.length
    · simp [samplesOf, Track.events, sampleEvent, hframes]
    · simp [samplesOf, hframes]

/-- `exportItem` appends the tracks of the item. -/
lemma exportItem_ofTracks (traceInfo : TraceInfo) (storage : TraceStorage) (tracks : List Track)
    (item : CoroutineQueueItem) :
    exportItem traceInfo storage 1 (.ofTracks tracks) item =
      .ofTracks (tracks ++ itemTracks traceInfo storage item) := by
  rw [exportItem, itemTracks]
  cases hinfo : storage.getCoroutineInfo item.coroutineId with
  | none => simp
  | some info =>
    dsimp only
    set samples := samplesOf traceInfo
      ((storage.getProcessedTraces item.coroutineId).getD {}).list with hsamples
    have hrender : TraceWriter.ofTracks
        (tracks ++ [coroutineTrack traceInfo item info] ++ [.samples samples]) =
        ⟨tracks.length + 1 + 1, render tracks ++
          (coroutineTrack traceInfo item info).packets (tracks.length + 1) ++
            (Track.samples samples).packets (tracks.length + 1 + 1)⟩ := by
      rw [TraceWriter.ofTracks, render_concat, render_concat, List.length_append,
        List.length_append]
      rfl
    -- the writer after the samples, in both cases of the map of the samples
    have hwriter : exportCoroutine traceInfo storage 1 (.ofTracks tracks) item info =
        info.suspensionsList.forEach (fun w suspension => addSuspension w suspension
          (coroutineName item.coroutineId) 1 traceInfo.endTime)
          (.ofTracks (tracks ++ [coroutineTrack traceInfo item info] ++ [.samples samples])) := by
      rw [exportCoroutine, hrender]
      congr 1
      cases htraces : storage.getProcessedTraces item.coroutineId with
      | none =>
        have hnil : samples = [] := by simp [hsamples, htraces, samplesOf]
        simp [hnil, TraceWriter.ofTracks, coroutineTrack, coroutineBeginEvent, Track.packets,
          Track.events, Track.name]
      | some traces =>
        have hrecords : samples = samplesOf traceInfo traces.list := by simp [hsamples, htraces]
        simp [addCallStack_eq, ← hrecords, TraceWriter.ofTracks, coroutineTrack,
          coroutineBeginEvent, Track.packets, Track.events, Track.name]
    rw [hwriter, ConcurrentList.forEach,
      foldl_ofTracks (addSuspension_ofTracks traceInfo item), ← List.map_eq_flatMap]
    simp only [List.append_assoc, List.cons_append, List.nil_append]

/-- **The writer writes the tracks of the trace.** -/
theorem writePerfetto_eq_render (traceInfo : TraceInfo) (storage : TraceStorage) :
    writePerfetto traceInfo storage = render (exportTracks traceInfo storage) := by
  have hheader : ∀ w : TraceWriter, w = .ofTracks [traceTrack traceInfo] →
      (addTraceInfo traceInfo storage (addGcInfo traceInfo storage w 1) 1).packets =
        render (exportTracks traceInfo storage) := by
    rintro w rfl
    rw [addTraceInfo_eq, addGcInfo, TraceStorage.findGcEvents, ConcurrentList.forEachFiltered_eq,
      foldl_ofTracks addGcEvent_ofTracks, ← List.map_eq_flatMap,
      foldl_ofTracks (exportItem_ofTracks traceInfo storage), exportTracks]
    rfl
  exact hheader _ rfl

/-! ## The packets that the writer writes -/

/-- The names of the coroutines begin with a `c`. -/
lemma coroutineName_ne (c : JLong) {name : String} (hname : name.toList.head? ≠ some 'c') :
    coroutineName c ≠ name := by
  rintro rfl
  apply hname
  rw [coroutineName, String.toList_append]
  rfl

/-- The slices of a trace: the trace, the GC events, and the coroutine and the suspensions of every
item with an info. -/
lemma slice_mem_exportTracks {traceInfo : TraceInfo} {storage : TraceStorage} {s : Slice} :
    Track.slice s ∈ exportTracks traceInfo storage ↔
      Track.slice s = traceTrack traceInfo ∨
      (∃ event ∈ storage.gcEventList.filter (fun event =>
        traceInfo.start ≤ event.start ∧ event.endTime ≤ traceInfo.endTime),
        gcTrack event = Track.slice s) ∨
      ∃ item ∈ exportOrder traceInfo storage, ∃ info,
        storage.getCoroutineInfo item.coroutineId = some info ∧
          (Track.slice s = coroutineTrack traceInfo item info ∨
            ∃ suspension ∈ info.suspensionsList.list,
              suspensionTrack traceInfo item suspension = Track.slice s) := by
  have hitem : ∀ item, Track.slice s ∈ itemTracks traceInfo storage item ↔ ∃ info,
      storage.getCoroutineInfo item.coroutineId = some info ∧
        (Track.slice s = coroutineTrack traceInfo item info ∨
          ∃ suspension ∈ info.suspensionsList.list,
            suspensionTrack traceInfo item suspension = Track.slice s) := by
    intro item
    rw [itemTracks]
    cases storage.getCoroutineInfo item.coroutineId with
    | none => simp
    | some info => simp
  rw [exportTracks, List.mem_append, List.mem_append, List.mem_singleton, List.mem_map,
    List.mem_flatMap, or_assoc]
  simp only [hitem]

/-- No slice of a trace has the name of the tracks of samples. -/
lemma name_ne_of_mem_exportTracks {traceInfo : TraceInfo} {storage : TraceStorage} {s : Slice}
    (h : Track.slice s ∈ exportTracks traceInfo storage) : s.name ≠ "Samples" := by
  rcases slice_mem_exportTracks.mp h with h | ⟨event, -, h⟩ | ⟨item, -, info, -, h | ⟨_, -, h⟩⟩
  · rw [Track.slice.inj h]
    show "Trace" ≠ "Samples"
    decide
  · rw [← Track.slice.inj h]
    show "GC" ≠ "Samples"
    decide
  · rw [Track.slice.inj h]
    exact coroutineName_ne item.coroutineId (by decide)
  · rw [← Track.slice.inj h]
    exact coroutineName_ne item.coroutineId (by decide)

/-- **The written packets are well formed**, for every storage and every trace: the loop over the
coroutines ends, whatever the child lists are, and the packets it leaves are well formed. -/
theorem writePerfetto_wellFormed (traceInfo : TraceInfo) (storage : TraceStorage) :
    (∀ w, (addTraceInfoLoop traceInfo storage 1 (exportFuel storage)
      ⟨[rootItem traceInfo], ∅, w⟩).coroutines = []) ∧
      WellFormedPackets (writePerfetto traceInfo storage) := by
  refine ⟨coroutines_addTraceInfo 1, ?_⟩
  rw [writePerfetto_eq_render]
  exact wellFormed_render fun s => name_ne_of_mem_exportTracks

end KotlinTracer
