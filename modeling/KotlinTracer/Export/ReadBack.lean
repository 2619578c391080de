import KotlinTracer.Export.Serialization
import KotlinTracer.Export.Tracks

set_option relaxedAutoImplicit false
set_option autoImplicit false

/-!
# Reading the tracks of a trace from its file

A trace is a list of tracks, the writer renders them as packets, and the packets are serialised to
the file by a runtime that writes the wire format. Every stage can be inverted: a reader that groups
the events of the packets by their tracks gets back the tracks, so the file determines the trace of
which it was written.

## Main definitions

* `KotlinTracer.readTracks` — the tracks that packets describe.
* `KotlinTracer.TraceStorage.Fits` — the numbers of a storage are values of their types.

## Main results

* `KotlinTracer.readTracks_render` — the tracks are read back from their packets.
* `KotlinTracer.readTracks_writePerfetto` — the tracks of a trace are read back from its file.
-/

namespace KotlinTracer

open WireFormat

/-! ## The reader -/

/-- Read a sample: an instant with a time and a call stack. -/
def readSample (x : Option TraceTime × TrackEvent) : Option (TraceTime × List String) :=
  match x.1, x.2.type, x.2.callstack with
  | some time, .instant, some frames => some (time, frames)
  | _, _, _ => none

/-- Read a slice: a begin with a title, and then an end. -/
def readSlice (name : String) : List (Option TraceTime × TrackEvent) → Option Slice
  | [(some start, first), (some endTime, last)] =>
    if first.type = .sliceBegin ∧ last.type = .sliceEnd then
      first.name.map fun title =>
        { name := name, start := start, endTime := endTime, title := title,
          flowIds := first.flowIds, debugAnnotations := first.debugAnnotations,
          callstack := last.callstack }
    else none
  | _ => none

/-- Read the track of a descriptor from the events on it. -/
def readTrack (packets : List TracePacket) (descriptor : TrackDescriptor) : Option Track :=
  if descriptor.name = "Samples" then
    (readAll readSample (eventsOn descriptor.uuid packets)).map .samples
  else (readSlice descriptor.name (eventsOn descriptor.uuid packets)).map .slice

/-- Read the tracks of packets, one for every descriptor. -/
def readTracks (packets : List TracePacket) : Option (List Track) :=
  readAll (readTrack packets) (descriptors packets)

/-- A track is read back from packets in which its events are on it. -/
lemma readTrack_of_eventsOn {packets : List TracePacket} {uuid : ℕ} {track : Track}
    (hname : ∀ s, track = .slice s → s.name ≠ "Samples")
    (hevents : eventsOn uuid packets = (track.events uuid).map fun x => (some x.1, x.2)) :
    readTrack packets ⟨track.name, uuid⟩ = some track := by
  cases track with
  | slice s =>
    have hne : (Track.slice s).name ≠ "Samples" := hname s rfl
    rw [readTrack, if_neg hne, hevents]
    rfl
  | samples l =>
    have hread : readAll readSample (eventsOn uuid packets) = some l := by
      rw [hevents, Track.events, List.map_map]
      exact readAll_map_id fun x _ => rfl
    have hsamples : (Track.samples l).name = "Samples" := rfl
    rw [readTrack, if_pos hsamples, hread, Option.map_some]

/-- **The tracks are read back from their packets**, when no slice has the name of the tracks of
samples. -/
theorem readTracks_render {tracks : List Track}
    (hnames : ∀ s, Track.slice s ∈ tracks → s.name ≠ "Samples") :
    readTracks (render tracks) = some tracks := by
  have htrack : ∀ x ∈ tracks.zipIdx 1,
      readTrack (render tracks) ⟨x.1.name, x.2⟩ = some x.1 := by
    rintro ⟨track, uuid⟩ hmem
    obtain ⟨hle, hget⟩ := List.mk_mem_zipIdx_iff_le_and_getElem?_sub.mp hmem
    refine readTrack_of_eventsOn (fun s hs => hnames s (hs ▸ List.mem_of_getElem? hget)) ?_
    have hevents := eventsOn_render hget
    rw [Nat.sub_add_cancel hle] at hevents
    exact hevents
  rw [readTracks, descriptors_render, readAll_map htrack, List.zipIdx_map_fst]

/-! ## Numbers in range -/

/-- The numbers of a track are values of their types. -/
def Track.Fits : Track → Prop
  | slice s => IsInt64 s.start ∧ IsInt64 s.endTime ∧ (∀ flowId ∈ s.flowIds, IsInt64 flowId) ∧
      ∀ entry ∈ s.debugAnnotations, entry.Fits
  | samples l => ∀ x ∈ l, IsInt64 x.1

/-- The numbers of a record are values of their types. -/
structure CoroutineInfo.Fits (info : CoroutineInfo) : Prop where
  start : IsInt64 info.start
  endTime : IsInt64 info.endTime
  wallClock : IsInt64 info.wallClockRunningTime
  cpuUser : IsInt64 info.cpuUserClockRunningTimeUs
  cpuSystem : IsInt64 info.cpuSystemClockRunningTimeUs
  suspensions : ∀ suspension ∈ info.suspensionsList.list,
    IsInt64 suspension.start ∧ IsInt64 suspension.endTime

/-- The numbers of a trace are values of their types. -/
structure TraceInfo.Fits (traceInfo : TraceInfo) : Prop where
  coroutineId : IsInt64 traceInfo.coroutineId
  start : IsInt64 traceInfo.start
  endTime : IsInt64 traceInfo.endTime

/-- The numbers of a storage that a trace is written from are values of their types. -/
structure TraceStorage.Fits (storage : TraceStorage) : Prop where
  gcEvents : ∀ event ∈ storage.gcEventList, IsInt64 event.start ∧ IsInt64 event.endTime
  infos : ∀ c info, storage.getCoroutineInfo c = some info → info.Fits
  samples : ∀ c traces, storage.getProcessedTraces c = some traces →
    ∀ record ∈ traces.list, IsInt64 record.time
  children : ∀ a b, storage.IsChild a b → IsInt64 a ∧ IsInt64 b

/-- Rounding towards zero keeps a value in range. -/
lemma IsInt64.tdiv {v d : ℤ} (h : IsInt64 v) (hd : 2 ≤ d) : IsInt64 (v.tdiv d) := by
  have habs : (v.tdiv d).natAbs ≤ v.natAbs / 2 := by
    rw [Int.natAbs_tdiv]
    exact Nat.div_le_div_left (by omega) (by omega)
  rw [IsInt64] at h ⊢
  omega

/-- The annotations of a record are in range: the times are rounded, and a switch count is shown
only when it is zero. -/
lemma CoroutineInfo.Fits.entries {info : CoroutineInfo} (h : info.Fits) :
    ∀ entry ∈ coroutineEntries info, entry.Fits := by
  have hzero : IsInt64 0 := by decide
  intro entry hentry value hvalue
  simp only [coroutineEntries, List.mem_append, List.mem_cons, List.not_mem_nil, or_false] at hentry
  rcases hentry with ((rfl | rfl | rfl) | hentry) | hentry
  · rw [← Option.some.inj hvalue]
    exact h.wallClock.tdiv (by omega)
  · rw [← Option.some.inj hvalue]
    exact h.cpuUser.tdiv (by omega)
  · rw [← Option.some.inj hvalue]
    exact h.cpuSystem.tdiv (by omega)
  · split_ifs at hentry with hswitches
    · rw [List.mem_singleton.mp hentry, hswitches] at hvalue
      rw [← Option.some.inj hvalue]
      exact hzero
    · simp at hentry
  · split_ifs at hentry with hswitches
    · rw [List.mem_singleton.mp hentry, hswitches] at hvalue
      rw [← Option.some.inj hvalue]
      exact hzero
    · simp at hentry

/-- The ids of an item of the export are in range. -/
lemma TraceStorage.Fits.item {storage : TraceStorage} {traceInfo : TraceInfo}
    (h : storage.Fits) (hinfo : traceInfo.Fits) {item : CoroutineQueueItem}
    (hitem : item ∈ exportOrder traceInfo storage) :
    IsInt64 item.coroutineId ∧ IsInt64 item.parentCoroutineId := by
  rcases mem_exportOrder hitem with rfl | ⟨-, hlists, -⟩
  · have hzero : IsInt64 0 := by decide
    exact ⟨hinfo.coroutineId, hzero⟩
  · exact (h.children _ _ hlists.2).symm

/-- The tracks of samples of a trace: one for every item with an info. -/
lemma samples_mem_exportTracks {traceInfo : TraceInfo} {storage : TraceStorage}
    {l : List (TraceTime × List String)} :
    Track.samples l ∈ exportTracks traceInfo storage ↔
      ∃ item ∈ exportOrder traceInfo storage, (storage.getCoroutineInfo item.coroutineId).isSome ∧
        l = samplesOf traceInfo ((storage.getProcessedTraces item.coroutineId).getD {}).list := by
  have hitem : ∀ item, Track.samples l ∈ itemTracks traceInfo storage item ↔
      (storage.getCoroutineInfo item.coroutineId).isSome ∧
        l = samplesOf traceInfo ((storage.getProcessedTraces item.coroutineId).getD {}).list := by
    intro item
    rw [itemTracks]
    cases storage.getCoroutineInfo item.coroutineId with
    | none => simp
    | some info => simp [coroutineTrack, suspensionTrack]
  rw [exportTracks, List.mem_append, List.mem_append, List.mem_singleton, List.mem_map,
    List.mem_flatMap]
  simp [hitem, traceTrack, gcTrack]

/-- The tracks of a trace are in range. -/
lemma TraceStorage.Fits.exportTracks {storage : TraceStorage} {traceInfo : TraceInfo}
    (h : storage.Fits) (hinfo : traceInfo.Fits) :
    ∀ track ∈ exportTracks traceInfo storage, track.Fits := by
  intro track htrack
  cases track with
  | slice s =>
    rcases slice_mem_exportTracks.mp htrack with
      hs | ⟨event, hevent, hs⟩ | ⟨item, hitem, info, hget, hs | ⟨suspension, hmem, hs⟩⟩
    · rw [hs]
      refine ⟨hinfo.start, hinfo.endTime, by simp, fun entry hentry value hvalue => ?_⟩
      rw [List.mem_singleton.mp hentry] at hvalue
      simp at hvalue
    · rw [← hs]
      obtain ⟨hstart, hend⟩ := h.gcEvents event (List.mem_of_mem_filter hevent)
      exact ⟨hstart, hend, by simp, by simp⟩
    · have hfits := h.infos _ _ hget
      obtain ⟨hid, hparent⟩ := h.item hinfo hitem
      rw [hs]
      refine ⟨?_, ?_, ?_, hfits.entries⟩
      · show IsInt64 (coroutineBegin traceInfo info item)
        rw [coroutineBegin]
        split_ifs
        · exact hinfo.start
        · exact hfits.start
      · show IsInt64 (coroutineEnd traceInfo info item)
        rw [coroutineEnd]
        split_ifs
        · exact hinfo.endTime
        · exact hfits.endTime
      · dsimp only
        split_ifs
        · simpa using hid
        · simpa using ⟨hparent, hid⟩
    · obtain ⟨hstart, hend⟩ := (h.infos _ _ hget).suspensions suspension hmem
      rw [← hs]
      refine ⟨hstart, ?_, by simp, by simp⟩
      dsimp only
      split_ifs
      · exact hend
      · exact hinfo.endTime
  | samples l =>
    obtain ⟨item, -, -, rfl⟩ := samples_mem_exportTracks.mp htrack
    intro x hx
    obtain ⟨record, hrecord, rfl⟩ := List.mem_map.mp hx
    have hmem := List.mem_of_mem_filter hrecord
    cases htraces : storage.getProcessedTraces item.coroutineId with
    | none => simp [htraces] at hmem
    | some traces =>
      rw [htraces] at hmem
      exact h.samples _ _ htraces record hmem

/-- The packets of tracks in range are in range, if their number is. -/
lemma fits_of_mem_render {tracks : List Track} (hfits : ∀ track ∈ tracks, track.Fits)
    (hlength : tracks.length < 2 ^ 64) : ∀ packet ∈ render tracks, packet.Fits := by
  intro packet hpacket
  obtain ⟨i, track, htrack, hpacket⟩ := mem_render.mp hpacket
  have hi : i + 1 < 2 ^ 64 := by
    have hlt := (List.getElem?_eq_some_iff.mp htrack).1
    omega
  have hfits := hfits track (List.mem_of_getElem? htrack)
  rcases List.mem_cons.mp hpacket with rfl | hpacket
  · exact ⟨by simp [descriptorPacket], by simp [descriptorPacket], hi⟩
  · obtain ⟨x, hx, rfl⟩ := List.mem_map.mp hpacket
    have huuid := Track.trackUuid_of_mem_events hx
    have hevent : IsInt64 x.1 ∧ (∀ flowId ∈ x.2.flowIds, IsInt64 flowId) ∧
        ∀ entry ∈ x.2.debugAnnotations, entry.Fits := by
      cases track with
      | slice s =>
        obtain ⟨hstart, hend, hflows, hentries⟩ := hfits
        rcases List.mem_pair.mp hx with rfl | rfl
        · exact ⟨hstart, hflows, hentries⟩
        · exact ⟨hend, by simp, by simp⟩
      | samples l =>
        obtain ⟨sample, hsample, rfl⟩ := List.mem_map.mp hx
        exact ⟨hfits sample hsample, by simp, by simp⟩
    refine ⟨?_, by simp [eventPacket], ⟨?_, hevent.2.1, hevent.2.2⟩⟩
    · intro timestamp htimestamp
      rw [← Option.some.inj htimestamp]
      exact hevent.1
    · rw [huuid]
      exact hi

/-! ## The file -/

/-- There are at least as many packets as tracks. -/
lemma length_le_length_render (tracks : List Track) : tracks.length ≤ (render tracks).length := by
  induction tracks using List.reverseRecOn with
  | nil => rfl
  | append_singleton tracks track ih =>
    rw [render_concat, List.length_append, List.length_append, List.length_singleton,
      Track.packets, List.length_cons]
    omega

/-- **The file determines the trace.** For every runtime that writes the wire format, and for every
trace and every storage whose numbers are values of their types: a reader of the file that
`write_perfetto` writes gets back exactly the tracks of the trace, that is the trace itself, the GC
events within it, and the coroutines of the export in their order, each with its samples and its
suspensions. -/
theorem readTracks_writePerfetto {rt : Runtime} (hrt : rt.Lawful) (traceInfo : TraceInfo)
    (storage : TraceStorage) (hinfo : traceInfo.Fits) (hstorage : storage.Fits)
    (bytes : List UInt8) (hbytes : traceFile rt (writePerfetto traceInfo storage) = some bytes) :
    (readTrace bytes).bind readTracks = some (exportTracks traceInfo storage) := by
  obtain ⟨rfl, hsize⟩ := eq_of_traceFile hrt hbytes
  rw [writePerfetto_eq_render] at hsize ⊢
  have hlength : (exportTracks traceInfo storage).length < 2 ^ 64 := by
    have htracks := length_le_length_render (exportTracks traceInfo storage)
    have hpackets := length_le_length_encode (traceFields (render (exportTracks traceInfo storage)))
    rw [traceFields, List.length_map] at hpackets
    rw [traceFields] at hsize
    omega
  rw [readTrace_encode (fits_of_mem_render (hstorage.exportTracks hinfo) hlength),
    Option.bind_some, readTracks_render fun s => name_ne_of_mem_exportTracks]

/-- A storage with a traced coroutine, a child of it and a sample. -/
def exportedStorage : TraceStorage :=
  (((({} : TraceStorage).createCoroutineInfo 7 100).createCoroutineInfo 8 120).addProcessedTrace 7
    ⟨[⟨"run()V", "Lapp/Main"⟩], "main", 150⟩).createChildCoroutineStorage 7 |>.addChildCoroutine 8 7

/-- A new coroutine keeps the records in range. -/
lemma infosFit_createCoroutineInfo {storage : TraceStorage} {c : JLong} {now : TraceTime}
    (h : ∀ d info, storage.getCoroutineInfo d = some info → info.Fits) (hnow : IsInt64 now) :
    ∀ d info, (storage.createCoroutineInfo c now).getCoroutineInfo d = some info → info.Fits := by
  have hzero : IsInt64 0 := by decide
  intro d info hinfo
  rw [TraceStorage.getCoroutineInfo_createCoroutineInfo] at hinfo
  split_ifs at hinfo
  · rw [← Option.some.inj hinfo]
    exact ⟨hnow, hzero, hzero, hzero, hzero, by simp⟩
  · exact h d info hinfo

lemma exportedStorage_fits : exportedStorage.Fits := by
  refine ⟨by simp [exportedStorage, TraceStorage.gcEventList], ?_, ?_, ?_⟩
  · intro c info hinfo
    have hget : exportedStorage.getCoroutineInfo c =
        ((({} : TraceStorage).createCoroutineInfo 7 100).createCoroutineInfo 8
          120).getCoroutineInfo c := rfl
    have hempty : ∀ d info, ({} : TraceStorage).getCoroutineInfo d = some info → info.Fits := by
      intro d info h
      cases h
    rw [hget] at hinfo
    exact infosFit_createCoroutineInfo (infosFit_createCoroutineInfo hempty (by decide))
      (by decide) c info hinfo
  · intro c traces htraces record hrecord
    have hget : exportedStorage.getProcessedTraces c =
        (({} : TraceStorage).addProcessedTrace 7
          ⟨[⟨"run()V", "Lapp/Main"⟩], "main", 150⟩).getProcessedTraces c := rfl
    rw [hget, TraceStorage.getProcessedTraces_addProcessedTrace] at htraces
    split_ifs at htraces
    · rw [← Option.some.inj htraces] at hrecord
      rw [List.mem_singleton.mp hrecord]
      decide
    · cases htraces
  · rintro a b ⟨list, hlist, hb⟩
    have hget : exportedStorage.getChildCoroutines a =
        ((({} : TraceStorage).createChildCoroutineStorage 7).addChildCoroutine 8
          7).getChildCoroutines a := rfl
    rw [hget, TraceStorage.getChildCoroutines_addChildCoroutine] at hlist
    split_ifs at hlist with ha
    · rw [← Option.some.inj hlist] at hb
      rw [ha, List.mem_singleton.mp hb]
      decide
    · rw [TraceStorage.getChildCoroutines_createChildCoroutineStorage, if_neg fun h => ha h.1]
        at hlist
      cases hlist

/-- The file of a trace of the coroutine of the sample, written by the plain runtime, is read back:
the trace, the coroutine with its sample at 150, and its child, which has none. -/
theorem readTracks_exportedStorage :
    ∃ bytes, traceFile .plain (writePerfetto ⟨7, 90, 200⟩ exportedStorage) = some bytes ∧
      (readTrace bytes).bind readTracks = some (exportTracks ⟨7, 90, 200⟩ exportedStorage) ∧
      (exportTracks ⟨7, 90, 200⟩ exportedStorage).map
          (fun track => (track.name, (track.events 0).map Prod.fst)) =
        [("Trace", [90, 200]), ("coroutine#7", [90, 200]), ("Samples", [150]),
          ("coroutine#8", [120, 0]), ("Samples", [])] := by
  have hsize : traceByteSizeLong .plain (writePerfetto ⟨7, 90, 200⟩ exportedStorage) < 2 ^ 31 := by
    decide +kernel
  have hbytes : traceFile .plain (writePerfetto ⟨7, 90, 200⟩ exportedStorage) =
      some (serializeTrace .plain (writePerfetto ⟨7, 90, 200⟩ exportedStorage)) := if_pos hsize
  exact ⟨_, hbytes, readTracks_writePerfetto Runtime.lawful_plain _ _
    ⟨by decide, by decide, by decide⟩ exportedStorage_fits _ hbytes, by decide⟩

end KotlinTracer
